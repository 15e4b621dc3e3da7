import Cc2530Zigbee.SecurityCounterLedger

/-!
# The counter owner on an idle supply

When no command of the journal fails, its erase budget lasts and its generation
has room, every recheck passes and every commit succeeds. One commit costs one
unit of the room left.
-/
namespace SecurityCounter

open Octets
open NvRecord (Device view base target fullCapacity fullCapacity_ne fullCapacity_toNat)

variable {build : Build} {issued : Issued} {s : State} {n : Nat}

/-- A ready owner whose next `n` commits cannot fail. -/
structure Idle (build : Build) (n : Nat) (s : State) : Prop where
  fault : s.nv.fault = none
  coherent : NvRecord.Coherent build.recordMax s.nv
  supply : s.nv.device.schedule = []
  generation : s.generation = base build.recordMax s.nv.device (view build.recordMax s.nv.device)
  room : s.generation.toNat + n < 0xFFFFFFFF
  attempts : ∀ b, s.nv.status.eraseAttempts b + n ≤ NvRecord.eraseLimit

theorem Idle.mono {m : Nat} (h : Idle build n s) (hm : m ≤ n) : Idle build m s where
  fault := h.fault
  coherent := h.coherent
  supply := h.supply
  generation := h.generation
  room := by
    have := h.room
    omega
  attempts := fun b => by
    have := h.attempts b
    omega

/-- Only the journal and its generation matter. -/
theorem Idle.same {t : State} (h : Idle build n s) (hn : t.nv = s.nv) (hg : t.generation = s.generation) :
    Idle build n t where
  fault := hn ▸ h.fault
  coherent := hn ▸ h.coherent
  supply := hn ▸ h.supply
  generation := by rw [hg, hn]; exact h.generation
  room := hg ▸ h.room
  attempts := hn ▸ h.attempts

/-- The recheck passes. -/
theorem current_idle (h : Ledger build issued s) (hr : s.state = .ready) (hi : Idle build n s) :
    (current build s).1 = .ok ∧ Idle build n (current build s).2 := by
  obtain ⟨hopen, -⟩ := h.owner hr
  have hl := NvRecord.load_loads s.nv (fullCapacity build) hi.fault hi.coherent (fullCapacity_ne build)
  have hgen := hi.generation
  have hidle : ∀ t : State,
      t.nv = (NvRecord.load build.recordMax s.nv .accepted (fullCapacity build)).2.2 →
      t.generation = s.generation → Idle build n t := fun t ht hg => by
    refine ⟨?_, ?_, ?_, ?_, ?_, ?_⟩ <;> (try rw [ht]) <;> (try rw [hg])
    · exact hl.fault.trans hi.fault
    · exact hl.coherent
    · rw [hl.device]
      exact hi.supply
    · rw [hl.device]
      exact hi.generation
    · exact hi.room
    · rw [hl.attempts]
      exact hi.attempts
  have hresult := hl.result
  by_cases hg : s.generation = 0
  · have hv := (hopen.staged hg).1
    rw [hv] at hresult
    have h1 := congrArg Prod.fst hresult
    simp only [NvRecord.answer] at h1
    unfold current
    simp only [if_pos hg, if_pos h1]
    exact ⟨trivial, hidle _ rfl rfl⟩
  · obtain ⟨b, hv, hrec⟩ := hopen.committed hg
    obtain ⟨-, hpub, hok⟩ := NvRecord.load_room s.nv (fullCapacity build) hi.fault hi.coherent
      (by rw [fullCapacity_toNat]) (fullCapacity_ne build) b (.inl hv)
    have hok := hok hv
    have hnames := hl.names b (.inl hv) (by rw [hpub]; rfl)
    have hlen : (NvRecord.record build.recordMax s.nv.device b).length = 16 + s.payloadLength.toNat := by
      rw [hrec, bytes_length]
    have hgen' : (NvRecord.load build.recordMax s.nv .accepted (fullCapacity build)).2.2.status.generation =
        s.generation := by
      rw [hnames.2.1, hgen, hv]
      rfl
    have hlen' : (NvRecord.load build.recordMax s.nv .accepted (fullCapacity build)).2.2.status.length.toNat =
        16 + s.payloadLength.toNat := by
      rw [hnames.2.2, ← hlen]
      simp [NvRecord.record]
    have hsame : bytes (byteAt (NvRecord.record build.recordMax s.nv.device b)) (16 + s.payloadLength.toNat) =
        bytes s.blob (16 + s.payloadLength.toNat) := by
      rw [hrec]
      apply List.map_congr_left
      intro k hk
      exact byteAt_bytes _ _ _ (List.mem_range.1 hk)
    unfold current
    simp only [if_neg hg, hok, hpub, hgen', hlen', Option.getD_some, hsame, ne_eq, not_true_eq_false,
      reduceCtorEq, or_self, if_false]
    exact ⟨trivial, hidle _ rfl rfl⟩

/-- A commit succeeds. -/
theorem commit_idle (polls : UInt16) (hp : polls ≠ 0) (hi : Idle build (n + 1) s)
    (hv : view build.recordMax s.nv.device = .empty ∨ ∃ b, view build.recordMax s.nv.device = .clean b)
    (hfit : (s.blob 5).toNat ≤ build.payloadMax) :
    ∃ s', commit build s polls = .ok (.ok, s') ∧ Idle build n s' := by
  have hmax := payloadMax_eq build
  have hle := build.recordMax_le
  have hroom := hi.room
  have hgen := hi.generation
  have hbase : base build.recordMax s.nv.device (view build.recordMax s.nv.device) ≠ 0xFFFFFFFF := by
    intro hx
    rw [← hgen] at hx
    rw [hx] at hroom
    simp at hroom
  obtain ⟨nv, hrep, hidle, hatt⟩ := NvRecord.replace_idle s.nv (bytes s.blob (16 + (s.blob 5).toNat)) polls hi.fault
    hi.coherent hi.supply (by rw [bytes_length]; omega) (by rw [bytes_length]; omega)
    (by rw [bytes_length]; omega) hp hv hbase (by have := hi.attempts (target (view build.recordMax s.nv.device)); omega)
  obtain ⟨r, t, ht, -, -, -, hne, -⟩ | ⟨hrp, hb, -, -, -, hres⟩ :=
    NvRecord.replace_cases s.nv .accepted (bytes s.blob (16 + (s.blob 5).toNat)) polls 0 (by omega) hi.fault hi.coherent
  · rw [hrep] at ht
    cases ht
    exact absurd rfl hne
  · obtain ⟨-, -, hcom, hco⟩ | ⟨-, hfail⟩ := hres _ _ hrep
    · have hview := NvRecord.committed_view hrp hb hcom
      have hnames : nv.status.generation = s.generation + 1 := by
        rw [hcom.names.2.1, hgen]
        exact (@NvRecord.scanPage_written build.recordMax _ _ _ hcom.written false).1
      have hnext : (s.generation + 1).toNat = s.generation.toNat + 1 := by
        rw [UInt32.toNat_add]
        simp only [UInt32.reduceToNat]
        omega
      refine ⟨{ s with
        result := .ok, nvResult := .ok, nv := nv, generation := s.generation + 1, payloadLength := s.blob 5,
        state := .ready }, ?_, hcom.fault.trans hi.fault, hco, hidle, ?_, ?_, fun b => ?_⟩
      · simp only [commit, hrep, hnames, ne_eq, not_true_eq_false, if_false, finish]
      · simp only
        rw [hview, ← hnames]
        exact hcom.names.2.1
      · simp only [hnext]
        omega
      · have h1 := hatt b
        have h2 := hi.attempts b
        simp only
        omega
    · obtain h | h := hfail <;> cases h

/-- A save succeeds. -/
theorem save_idle (data : Bytes) (polls : UInt16) (h : Ledger build issued s) (hr : s.state = .ready)
    (hi : Idle build (n + 1) s) (hfit : data.length ≤ build.payloadMax) (hp : polls ≠ 0) :
    ∃ s', save build s .accepted data polls = .ok (.ok, s') ∧ Idle build n s' := by
  obtain ⟨hok, hcur⟩ := current_idle h hr hi
  have hd := (current_spec s h.sound).1
  have href : refusal build .accepted data polls = none := by
    unfold refusal
    rw [if_neg (by simp [hp]; omega), if_neg (by simp)]
  unfold save
  simp only [(ready_ok h).2 hr, href, hok, ne_eq, not_true_eq_false, if_false]
  apply commit_idle polls hp
  · exact hcur.same rfl rfl
  · simp only [hd]
    exact open_view (h.owner hr).1
  · simp only [payload, if_true]
    rw [UInt8.toNat_ofNat_of_lt' (length_lt hfit)]
    exact hfit

/-- A refill succeeds. -/
theorem refill_idle (domain : Bool) (polls : UInt16) (h : Ledger build issued s) (hr : s.state = .ready)
    (hi : Idle build (n + 1) s) (hp : polls ≠ 0) :
    ∃ s', refill build s domain polls = .ok (.ok, s') ∧ Idle build n s' := by
  obtain ⟨hok, hcur⟩ := current_idle h hr hi
  obtain ⟨hd, -, ⟨-, ⟨q, nv, hshape⟩, -⟩ | hf⟩ := current_spec s h.sound
  · have h5 : encode (current build s).2.blob (slot domain) (raise ((current build s).2.untils domain)) 5 =
        s.payloadLength := by
      rw [hshape, ← (h.owner hr).1.length]
      cases domain <;> simp [encode, slot]
    obtain ⟨s', hs', hidle⟩ := @commit_idle build { (current build s).2 with
        blob := encode (current build s).2.blob (slot domain) (raise ((current build s).2.untils domain)) } n
      polls hp (hcur.same rfl rfl) (by simp only [hd]; exact open_view (h.owner hr).1)
      (by simp only [h5]; exact (h.owner hr).1.fits)
    unfold refill
    simp only [hok, ne_eq, not_true_eq_false, if_false, hs']
    exact ⟨_, rfl, hidle.same rfl rfl⟩
  · exact absurd hok hf.failure.1

/-- A counter is handed out, the next one of its domain. -/
theorem take_idle (domain : Bool) (polls : UInt16) (h : Ledger build issued s) (hr : s.state = .ready)
    (hi : Idle build (n + 1) s) (hp : polls ≠ 0) (hx : s.next domain ≠ 0xFFFFFFFF) :
    ∃ s', take build s (if domain then 1 else 0) .accepted polls = .ok (.ok, some (s.next domain), s') ∧
      s'.next = Function.update s.next domain (s.next domain + 1) ∧ Idle build n s' := by
  have hdom : ((if domain then 1 else 0 : UInt8) == 1) = domain := by cases domain <;> rfl
  have hargs : ¬ (1 < (if domain then 1 else 0 : UInt8) ∨ NvRecord.Pointer.accepted = .null ∨ polls = 0) := by
    cases domain <;> simp [hp]
  unfold take
  rw [if_neg (by simp [(ready_ok h).2 hr]), if_neg hargs, if_neg (by simp)]
  simp only [hdom]
  by_cases heq : s.next domain = s.untils domain
  · have htop : s.untils domain ≠ 0xFFFFFFFF := heq ▸ hx
    rw [if_pos heq, if_neg htop]
    obtain ⟨s', hs', hidle⟩ := refill_idle domain polls h hr hi hp
    have hnext : s'.next = s.next := by
      obtain ⟨d, hc, -⟩ | ⟨t, hc, -, -, -, -, -, hn, -⟩ | ⟨r, t, hc, -, hl, -⟩ :=
        refill_spec domain polls h hr htop <;> rw [hs'] at hc <;> cases hc
      · exact hn
      · exact absurd rfl hl.failure.1
    simp only [hs', ne_eq, not_true_eq_false, if_false]
    refine ⟨(allocate s' domain).2.2, ?_, ?_, hidle.same rfl rfl⟩
    · simp only [allocate, finish, hnext]
    · simp only [allocate, finish, hnext]
  · rw [if_neg heq]
    exact ⟨_, rfl, rfl, (hi.mono (by omega)).same rfl rfl⟩

end SecurityCounter
