import Cc2530Zigbee.SecurityCounter

/-!
# The ledger of issued counters

Every counter ever handed out lies below the live cursor of its domain and
below the ceiling a start would read back. The journal settles on the old or
the new snapshot, and neither lowers a ceiling, so this survives power cuts.
-/
namespace SecurityCounter

open Octets Flash NvRecord

variable {build : Build}

/-! The journal as the counter layer uses it. -/

/-- The payload a start would find on the journal. -/
def kept (max : Nat) (d : NvRecord.Device) : Option Bytes :=
  match view max d with
  | .clean b => some ((record max d b).drop 16)
  | _ => none

theorem load_ok {max : Nat} (s : NvRecord.State) (capacity : UInt8) (h : Sound max s) (h0 : capacity ≠ 0)
    (hr : (NvRecord.load max s .accepted capacity).1 = .ok) :
    ∃ b, view max s.device = .clean b ∧
      (NvRecord.load max s .accepted capacity).2.1 = some (record max s.device b) ∧
      Names max (NvRecord.load max s .accepted capacity).2.2.status s.device b := by
  obtain ⟨q, hq, hf⟩ | ⟨hf, hc⟩ := h
  · obtain rfl | rfl := hf <;> simp [NvRecord.load, hq] at hr
  · have hl := load_loads s capacity hf hc h0
    have hres := hl.result
    rw [hr] at hres
    cases hv : view max s.device with
    | empty => simp [hv, answer] at hres
    | refused r => exact absurd (congrArg Prod.fst hres).symm (by simpa [hv, answer] using (refused_ne hv).1)
    | clean b =>
      simp only [hv, answer] at hres
      split at hres
      · simp at hres
      · simp only [Prod.mk.injEq, true_and] at hres
        exact ⟨b, rfl, hres, hl.names b (.inl hv) (by simp [hres])⟩
    | degraded b =>
      simp only [hv, answer] at hres
      split at hres <;> simp at hres

theorem load_device {max : Nat} (s : NvRecord.State) (capacity : UInt8) (h : Sound max s) :
    (NvRecord.load max s .accepted capacity).2.2.device = s.device := by
  obtain ⟨q, hq, -⟩ | ⟨hf, hc⟩ := h
  · simp [NvRecord.load, hq]
  · by_cases h0 : capacity ≠ 0
    · exact (load_loads s capacity hf hc h0).device
    · obtain hl | hl := @load_refused max s .accepted capacity hf (by simp_all) <;> rw [hl]

theorem scans_generation_ne {max : Nat} {d : NvRecord.Device} {b : Bool}
    (h : (scans max d b).state = .valid) : (scans max d b).generation ≠ 0 := by
  simp only [scans, scanPage, pageState] at h ⊢
  grind

/-- A replacement that reports success put the record in place. -/
theorem replace_ok {max : Nat} (s s' : NvRecord.State) (data : Bytes) (polls : UInt16) (hmax : max ≤ 255)
    (h : Sound max s) (hr : NvRecord.replace max s .accepted data polls 0 = .ok (.ok, s')) :
    ∃ b, view max s'.device = .clean b ∧ record max s'.device b = data ∧ s'.status.generation ≠ 0 := by
  obtain ⟨q, hq, hf⟩ | ⟨hf, hc⟩ := h
  · simp only [NvRecord.replace, hq, Except.ok.injEq, Prod.mk.injEq] at hr
    obtain rfl | rfl := hf <;> simp at hr
  · obtain ⟨r, t, ht, -, -, -, hne, -⟩ | ⟨hrep, hb, -, hlen, -, hres⟩ :=
      replace_cases s .accepted data polls 0 (by omega) hf hc
    · rw [hr] at ht
      cases ht
      exact absurd rfl hne
    · obtain ⟨-, -, hcom, -⟩ | ⟨-, hfail⟩ := hres _ _ hr
      · refine ⟨_, committed_view hrep hb hcom, record_written hcom.written hlen (by omega), ?_⟩
        rw [hcom.names.2.1]
        exact scans_generation_ne hcom.valid
      · obtain h | h := hfail <;> cases h

/-- Where a journal settles, the payload is the old one, the new one or none. -/
theorem settles_kept {max : Nat} {data : Bytes} {d d' : NvRecord.Device} (h : Settles max data d d')
    (hv : view max d = .empty ∨ ∃ b, view max d = .clean b) :
    kept max d' = none ∨ kept max d' = kept max d ∨ kept max d' = some (data.drop 16) := by
  obtain hv | ⟨b, hv⟩ := hv
  · obtain h | h | ⟨h, hd⟩ := h.2 hv
    · exact .inl (by simp [kept, h])
    · exact .inl (by simp [kept, h])
    · exact .inr (.inr (by simp [kept, h, hd]))
  · obtain ⟨hp, (hn | hn) | ⟨hn, hd⟩⟩ := h.1 b (.inl hv)
    · exact .inr (.inl (by simp [kept, hn, hv, record_congr hp]))
    · exact .inl (by simp [kept, hn])
    · exact .inr (.inr (by simp [kept, hn, hd]))

/-! Snapshots. -/

theorem byteAt_bytes (a : Array8) (n k : Nat) (h : k < n) : byteAt (bytes a n) k = a k := by
  simp [byteAt, bytes, h]

theorem bytes_length (a : Array8) (n : Nat) : (bytes a n).length = n := by simp [bytes]

theorem ceiling_bytes (a : Array8) (n : Nat) (h : 16 ≤ n) (domain : Bool) :
    ceiling (byteAt (bytes a n)) domain = ceiling a domain := by
  cases domain <;>
    simp only [ceiling, slot, NvRecord.decode, Bool.false_eq_true, if_false, if_true] <;>
    rw [byteAt_bytes _ _ _ (by omega), byteAt_bytes _ _ _ (by omega), byteAt_bytes _ _ _ (by omega),
      byteAt_bytes _ _ _ (by omega)]

theorem drop_bytes (a : Array8) (n : Nat) : (bytes a (16 + n)).drop 16 = bytes (fun i => a (16 + i)) n := by
  rw [bytes, List.range_add, List.map_append, List.drop_left' (by simp), List.map_map]
  rfl

theorem ceiling_encode_same (a : Array8) (domain : Bool) (v : UInt32) :
    ceiling (encode a (slot domain) v) domain = v := by
  cases domain <;> simp [ceiling, NvRecord.decode, encode, slot, le32_put]

theorem ceiling_encode_other (a : Array8) (domain : Bool) (v : UInt32) :
    ceiling (encode a (slot domain) v) (!domain) = ceiling a (!domain) := by
  cases domain <;> simp [ceiling, NvRecord.decode, encode, slot]

theorem ceiling_payload (a : Array8) (data : Bytes) (domain : Bool) :
    ceiling (payload build a data) domain = ceiling a domain := by
  cases domain <;> simp [ceiling, NvRecord.decode, payload, slot]

/-- The opaque payload in the snapshot. -/
def held (s : State) : Bytes := bytes (fun i => s.blob (16 + i)) s.payloadLength.toNat

theorem bytes_payload (a : Array8) (data : Bytes) (h : data.length ≤ build.payloadMax) :
    bytes (fun i => payload build a data (16 + i)) data.length = data := by
  apply List.ext_getElem
  · simp [bytes]
  · intro k hk _
    simp only [bytes, List.length_map, List.length_range] at hk
    simp only [bytes, payload, List.getElem_map, List.getElem_range]
    rw [if_neg (by omega), if_pos (by omega), if_pos (by omega)]
    simp [byteAt, hk]

/-! The ledger. -/

/-- The counters handed out so far, oldest first, each with its domain. -/
abbrev Issued := List (Bool × UInt32)

def Increasing (issued : Issued) : Prop := issued.Pairwise fun a b => a.1 = b.1 → a.2 < b.2

def Below (issued : Issued) (top : Bool → UInt32) : Prop := ∀ p ∈ issued, p.2 < top p.1

/-- What a start would read back cannot issue an old counter. -/
def DiskSafe (build : Build) (d : NvRecord.Device) (issued : Issued) : Prop :=
  (view build.recordMax d = .empty → issued = []) ∧
  ∀ b, view build.recordMax d = .clean b → Below issued (ceiling (byteAt (record build.recordMax d b)))

/-- Snapshot and cursors of a ready owner. -/
structure Open (build : Build) (s : State) : Prop where
  cursor : ∀ domain, s.next domain ≤ s.untils domain
  limit : ∀ domain, s.untils domain = ceiling s.blob domain
  length : s.blob 5 = s.payloadLength
  fits : s.payloadLength.toNat ≤ build.payloadMax
  staged : s.generation = 0 → view build.recordMax s.nv.device = .empty ∧ s.next = s.untils
  committed : s.generation ≠ 0 → ∃ b, view build.recordMax s.nv.device = .clean b ∧
    record build.recordMax s.nv.device b = bytes s.blob (16 + s.payloadLength.toNat)

structure Ledger (build : Build) (issued : Issued) (s : State) : Prop where
  sound : Sound build.recordMax s.nv
  increasing : Increasing issued
  top : ∀ p ∈ issued, p.2 ≠ 0xFFFFFFFF
  disk : DiskSafe build s.nv.device issued
  idle : s.state ≠ .busy
  fresh : s.state = .cold ∨ s.state = .unprovisioned → s.generation = 0
  blank : s.state = .unprovisioned → view build.recordMax s.nv.device = .empty
  owner : s.state = .ready → Open build s ∧ Below issued s.next
  latched : s.state = .failed → s.result ≠ .ok

theorem payloadMax_eq (build : Build) : 16 + build.payloadMax = build.recordMax := by
  have := build.recordMax_ge
  unfold Build.payloadMax
  omega

/-- A start from surviving pages keeps the ledger. -/
theorem ledger_cold {issued : Issued} {d : NvRecord.Device} (hi : Increasing issued)
    (ht : ∀ p ∈ issued, p.2 ≠ 0xFFFFFFFF) (h : DiskSafe build d issued) : Ledger build issued (cold d) where
  sound := .inr ⟨rfl, coherent_reset d⟩
  increasing := hi
  top := ht
  disk := h
  idle := by simp [cold]
  fresh := fun _ => rfl
  blank := by simp [cold]
  owner := by simp [cold]
  latched := by simp [cold]

/-- With a latched failure only the pages matter. -/
theorem ledger_failed {issued : Issued} {s : State} (hs : Sound build.recordMax s.nv)
    (hi : Increasing issued) (ht : ∀ p ∈ issued, p.2 ≠ 0xFFFFFFFF) (h : DiskSafe build s.nv.device issued)
    (hf : s.state = .failed) (hr : s.result ≠ .ok) : Ledger build issued s where
  sound := hs
  increasing := hi
  top := ht
  disk := h
  idle := by simp [hf]
  fresh := by simp [hf]
  blank := by simp [hf]
  owner := by simp [hf]
  latched := fun _ => hr

/-- Settling on a snapshot with the old ceilings or higher ones is safe. -/
theorem settles_safe {issued : Issued} {data : Bytes} {d d' : NvRecord.Device}
    (h : Settles build.recordMax data d d')
    (hv : view build.recordMax d = .empty ∨ ∃ b, view build.recordMax d = .clean b)
    (hd : DiskSafe build d issued) (hb : Below issued (ceiling (byteAt data))) :
    DiskSafe build d' issued := by
  obtain hv | ⟨b, hv⟩ := hv
  · obtain rfl := hd.1 hv
    exact ⟨fun _ => rfl, fun _ _ p hp => by simp at hp⟩
  · obtain ⟨hp, (hn | hn) | ⟨hn, hdata⟩⟩ := h.1 b (.inl hv)
    · refine ⟨fun he => (by cases hn.symm.trans he), fun c hc => ?_⟩
      cases hn.symm.trans hc
      rw [record_congr hp]
      exact hd.2 b hv
    · exact ⟨fun he => (by cases hn.symm.trans he), fun c hc => (by cases hn.symm.trans hc)⟩
    · refine ⟨fun he => (by cases hn.symm.trans he), fun c hc => ?_⟩
      cases hn.symm.trans hc
      rw [hdata]
      exact hb

/-! The steps. -/

/-- A failure is latched together with its result. -/
structure Latched (r : Result × State) : Prop where
  failure : r.1 ≠ .ok ∧ r.1 ≠ .exhausted
  state : r.2.state = .failed
  result : r.2.result = r.1

theorem latched_fail (s : State) {r : Result} (h : r ≠ .ok ∧ r ≠ .exhausted) : Latched (fail s r) := ⟨h, rfl, rfl⟩

/-- A recheck never touches the pages. It passes only where the journal still
is what the owner thinks it is, and otherwise latches a failure. -/
theorem current_spec (s : State) (h : Sound build.recordMax s.nv) :
    (current build s).2.nv.device = s.nv.device ∧ Sound build.recordMax (current build s).2.nv ∧
    (((current build s).1 = .ok ∧ (∃ r nv, (current build s).2 = { s with nvResult := r, nv := nv }) ∧
        (s.generation = 0 → view build.recordMax s.nv.device = .empty) ∧
        (s.generation ≠ 0 → ∃ b, view build.recordMax s.nv.device = .clean b ∧
          ∀ k, k < 16 + s.payloadLength.toNat → byteAt (record build.recordMax s.nv.device b) k = s.blob k)) ∨
      Latched (current build s)) := by
  have hd := load_device s.nv (fullCapacity build) h
  have hs := load_sound s.nv .accepted (fullCapacity build) h
  have hok := load_ok s.nv (fullCapacity build) h (fullCapacity_ne build)
  have hempty := load_empty s.nv (fullCapacity build) h
  unfold current
  generalize NvRecord.load build.recordMax s.nv .accepted (fullCapacity build) = l at *
  simp only
  split
  · rename_i hg
    split
    · rename_i he
      exact ⟨hd, hs, .inl ⟨rfl, ⟨_, _, rfl⟩, fun _ => hempty he, fun hn => absurd hg hn⟩⟩
    · exact ⟨hd, hs, .inr (latched_fail _ (by simp))⟩
  · rename_i hg
    split
    · exact ⟨hd, hs, .inr (latched_fail _ (by simp))⟩
    · split
      · exact ⟨hd, hs, .inr (latched_fail _ (by simp))⟩
      · rename_i hr
        split
        · exact ⟨hd, hs, .inr (latched_fail _ (by simp))⟩
        · split
          · exact ⟨hd, hs, .inr (latched_fail _ (by simp))⟩
          · rename_i hb
            refine ⟨hd, hs, .inl ⟨rfl, ⟨_, _, rfl⟩, fun hz => absurd hz hg, fun _ => ?_⟩⟩
            obtain ⟨b, hv, ho, -⟩ := hok (not_not.1 hr)
            refine ⟨b, hv, fun k hk => ?_⟩
            rw [ho] at hb
            have he := congrArg (fun l => byteAt l k) (not_not.1 hb)
            simpa only [byteAt_bytes _ _ _ hk, Option.getD_some] using he

/-- What a commit leaves: success with the snapshot on the journal, a latched
failure, or a lost supply; the journal settles in every case. -/
theorem commit_spec (s : State) (polls : UInt16) (h : Sound build.recordMax s.nv) :
    (∃ d, commit build s polls = .error d ∧
      Settles build.recordMax (bytes s.blob (16 + (s.blob 5).toNat)) s.nv.device d) ∨
    (∃ nv b, commit build s polls = .ok (.ok, { s with
        result := .ok, nvResult := .ok, nv := nv, generation := nv.status.generation,
        payloadLength := s.blob 5, state := .ready }) ∧
      Sound build.recordMax nv ∧ nv.status.generation ≠ 0 ∧ view build.recordMax nv.device = .clean b ∧
      record build.recordMax nv.device b = bytes s.blob (16 + (s.blob 5).toNat)) ∨
    (∃ r s', commit build s polls = .ok (r, s') ∧ Latched (r, s') ∧
      Sound build.recordMax s'.nv ∧
      Settles build.recordMax (bytes s.blob (16 + (s.blob 5).toNat)) s.nv.device s'.nv.device) := by
  have hmax : build.recordMax ≤ 255 := le_trans build.recordMax_le (by omega)
  have hset := replace_settles s.nv .accepted (bytes s.blob (16 + (s.blob 5).toNat)) polls 0 hmax h
  have hs := replace_sound s.nv .accepted (bytes s.blob (16 + (s.blob 5).toNat)) polls 0 (by omega) h
  have hok := fun nv => replace_ok s.nv nv (bytes s.blob (16 + (s.blob 5).toNat)) polls hmax h
  unfold commit
  generalize NvRecord.replace build.recordMax s.nv .accepted (bytes s.blob (16 + (s.blob 5).toNat))
    polls 0 = res at *
  cases res with
  | error d => exact .inl ⟨d, rfl, hset⟩
  | ok out =>
    obtain ⟨r, nv⟩ := out
    simp only
    split
    · exact .inr (.inr ⟨_, _, rfl, latched_fail _ (by split <;> simp), hs r nv rfl, hset⟩)
    · rename_i hr
      obtain rfl := not_not.1 hr
      split
      · exact .inr (.inr ⟨_, _, rfl, latched_fail _ (by simp), hs _ nv rfl, hset⟩)
      · obtain ⟨b, hv, hrec, hg⟩ := hok nv rfl
        exact .inr (.inl ⟨nv, b, rfl, hs _ nv rfl, hg, hv, hrec⟩)

theorem below_mono {issued : Issued} {a b : Bool → UInt32} (h : Below issued a)
    (hle : ∀ domain, a domain ≤ b domain) : Below issued b := fun p hp =>
  UInt32.lt_of_lt_of_le (h p hp) (hle p.1)

/-- A ready owner knows the journal it owns. -/
theorem open_view {s : State} (h : Open build s) :
    view build.recordMax s.nv.device = .empty ∨ ∃ b, view build.recordMax s.nv.device = .clean b := by
  by_cases hg : s.generation = 0
  · exact .inl (h.staged hg).1
  · obtain ⟨b, hv, -⟩ := h.committed hg
    exact .inr ⟨b, hv⟩

/-- Staged, the journal holds nothing; committed, it holds the payload. -/
theorem open_kept {s : State} (h : Open build s) :
    kept build.recordMax s.nv.device = if s.generation = 0 then none else some (held s) := by
  split
  · rename_i hg
    simp [kept, (h.staged hg).1]
  · rename_i hg
    obtain ⟨b, hv, hr⟩ := h.committed hg
    simp only [kept, hv, hr, held, drop_bytes]

/-- The pages a call leaves hold the old payload, the new one, or none. -/
def Leaves (build : Build) (d d' : NvRecord.Device) (new : Bytes) : Prop :=
  kept build.recordMax d' = none ∨ kept build.recordMax d' = kept build.recordMax d ∨
  kept build.recordMax d' = some new

/-- A commit after a passed recheck, with ceilings no lower than before. -/
theorem recommit {issued : Issued} {s : State} (polls : UInt16) (blob : Array8) (h : Ledger build issued s)
    (hready : s.state = .ready) (hok : (current build s).1 = .ok)
    (hceil : ∀ domain, ceiling s.blob domain ≤ ceiling blob domain) :
    (∃ d, commit build { (current build s).2 with blob := blob } polls = .error d ∧
      Ledger build issued (cold d) ∧
      Leaves build s.nv.device d (bytes (fun i => blob (16 + i)) (blob 5).toNat)) ∨
    (∃ s' b, commit build { (current build s).2 with blob := blob } polls = .ok (.ok, s') ∧
      s'.state = .ready ∧ s'.blob = blob ∧ s'.next = s.next ∧ s'.untils = s.untils ∧
      s'.payloadLength = blob 5 ∧ s'.generation ≠ 0 ∧ Sound build.recordMax s'.nv ∧
      view build.recordMax s'.nv.device = .clean b ∧
      record build.recordMax s'.nv.device b = bytes blob (16 + (blob 5).toNat) ∧
      DiskSafe build s'.nv.device issued) ∨
    (∃ r s', commit build { (current build s).2 with blob := blob } polls = .ok (r, s') ∧
      Latched (r, s') ∧ Ledger build issued s' ∧
      Leaves build s.nv.device s'.nv.device (bytes (fun i => blob (16 + i)) (blob 5).toNat)) := by
  obtain ⟨hd, hs, ⟨-, ⟨r, nv, hcur⟩, -⟩ | hno⟩ := current_spec s h.sound
  · obtain ⟨hopen, hbelow⟩ := h.owner hready
    rw [hcur] at hd hs ⊢
    simp only at hd hs
    have hview := open_view hopen
    have hnew : Below issued (ceiling (byteAt (bytes blob (16 + (blob 5).toNat)))) := by
      refine below_mono hbelow fun domain => ?_
      rw [ceiling_bytes _ _ (by omega)]
      exact UInt32.le_trans (hopen.cursor domain) (hopen.limit domain ▸ hceil domain)
    have hleave : ∀ d, Settles build.recordMax (bytes blob (16 + (blob 5).toNat)) s.nv.device d →
        Leaves build s.nv.device d (bytes (fun i => blob (16 + i)) (blob 5).toNat) := fun d hset => by
      rw [← drop_bytes]
      exact settles_kept hset hview
    obtain ⟨d, hc, hset⟩ | ⟨nv', b, hc, hs', hg, hv, hr⟩ | ⟨r', s', hc, hf, hs', hset⟩ :=
      @commit_spec build { s with nvResult := r, nv := nv, blob := blob } polls hs
    · simp only [hd] at hset
      exact .inl ⟨d, hc, ledger_cold h.increasing h.top (settles_safe hset hview h.disk hnew), hleave d hset⟩
    · refine .inr (.inl ⟨_, b, hc, rfl, rfl, rfl, rfl, rfl, hg, hs', hv, hr, ?_⟩)
      refine ⟨fun he => (by cases hv.symm.trans he), fun c hc' => ?_⟩
      cases hv.symm.trans hc'
      rw [hr]
      exact hnew
    · simp only [hd] at hset
      exact .inr (.inr ⟨r', s', hc, hf, ledger_failed hs' h.increasing h.top
        (settles_safe hset hview h.disk hnew) hf.state (hf.result ▸ hf.failure.1), hleave _ hset⟩)
  · exact absurd hok hno.failure.1

/-- A recheck that does not pass latches a failure and leaves the pages alone. -/
theorem current_failed {issued : Issued} {s : State} (h : Ledger build issued s)
    (hno : (current build s).1 ≠ .ok) :
    Ledger build issued (current build s).2 ∧ Latched (current build s) ∧
      (current build s).2.nv.device = s.nv.device := by
  obtain ⟨hd, hs, ⟨hok, -⟩ | hf⟩ := current_spec s h.sound
  · exact absurd hok hno
  · exact ⟨ledger_failed hs h.increasing h.top (hd ▸ h.disk) hf.state (hf.result ▸ hf.failure.1), hf, hd⟩

theorem ready_ok {s : State} {issued : Issued} (h : Ledger build issued s) :
    ready s = .ok ↔ s.state = .ready := by
  unfold ready
  cases hs : s.state with
  | failed => simpa using h.latched hs
  | _ => simp

theorem refusal_ne {pointer : Pointer} {data : Bytes} {polls : UInt16} {r : Result}
    (h : refusal build pointer data polls = some r) : r ≠ .ok := by
  unfold refusal at h
  grind

theorem refusal_fits {pointer : Pointer} {data : Bytes} {polls : UInt16}
    (h : refusal build pointer data polls = none) : data.length ≤ build.payloadMax := by
  unfold refusal at h
  grind

theorem length_lt {data : Bytes} (h : data.length ≤ build.payloadMax) : data.length < 256 := by
  have h1 := payloadMax_eq build
  have h2 := build.recordMax_le
  omega

/-- `security_counter_save`. -/
theorem save_spec {issued : Issued} {s : State} (pointer : Pointer) (data : Bytes) (polls : UInt16)
    (h : Ledger build issued s) :
    (∃ d, save build s pointer data polls = .error d ∧ Ledger build issued (cold d) ∧
      Leaves build s.nv.device d data) ∨
    (∃ s', save build s pointer data polls = .ok (.ok, s') ∧ Ledger build issued s' ∧ s.state = .ready ∧
      s'.state = .ready ∧ held s' = data ∧ s'.generation ≠ 0 ∧ s'.next = s.next ∧ s'.untils = s.untils) ∨
    (∃ r s', save build s pointer data polls = .ok (r, s') ∧ Ledger build issued s' ∧ Latched (r, s') ∧
      Leaves build s.nv.device s'.nv.device data) ∨
    (∃ r, save build s pointer data polls = .ok (r, s) ∧ r ≠ .ok) := by
  unfold save
  split
  · rename_i hr
    exact .inr (.inr (.inr ⟨_, rfl, hr⟩))
  · rename_i hr
    have hready := (ready_ok h).1 (not_not.1 hr)
    cases hrefuse : refusal build pointer data polls with
    | some r => exact .inr (.inr (.inr ⟨r, rfl, refusal_ne hrefuse⟩))
    | none =>
      have hlen := refusal_fits hrefuse
      have h255 := length_lt hlen
      have h5 : (payload build (current build s).2.blob data 5).toNat = data.length := by
        simp [payload]
        omega
      simp only
      split
      · rename_i hno
        obtain ⟨hl, hf, hd⟩ := current_failed h hno
        exact .inr (.inr (.inl ⟨(current build s).1, (current build s).2, rfl, hl, hf, .inr (.inl (by rw [hd]))⟩))
      · rename_i hok
        have hblob : (current build s).2.blob = s.blob := by
          obtain ⟨-, -, ⟨-, ⟨r, nv, hc⟩, -⟩ | hno⟩ := current_spec s h.sound
          · rw [hc]
          · exact absurd hno.failure.1 hok
        have hpay : bytes (fun i => payload build (current build s).2.blob data (16 + i))
            (payload build (current build s).2.blob data 5).toNat = data := by
          rw [h5, bytes_payload _ _ hlen]
        obtain ⟨hopen, hbelow⟩ := h.owner hready
        obtain ⟨d, hc, hl, hk⟩ | ⟨s', b, hc, hst, hb, hn, hu, hp, hg, hso, hv, hrec, hsafe⟩ |
            ⟨r, s', hc, hf, hl, hk⟩ :=
          recommit polls (payload build (current build s).2.blob data) h hready (not_not.1 hok)
            (fun domain => by rw [ceiling_payload, hblob]; exact UInt32.le_refl _)
        · exact .inl ⟨d, hc, hl, hpay ▸ hk⟩
        · refine .inr (.inl ⟨s', hc, ?_, hready, hst, ?_, hg, hn, hu⟩)
          · refine ⟨hso, h.increasing, h.top, hsafe, by simp [hst], by simp [hst], by simp [hst],
              fun _ => ⟨⟨fun domain => ?_, fun domain => ?_, ?_, ?_, fun hz => absurd hz hg, fun _ => ?_⟩, ?_⟩,
              by simp [hst]⟩
            · rw [hn, hu]
              exact hopen.cursor domain
            · rw [hu, hb, ceiling_payload, hblob]
              exact hopen.limit domain
            · rw [hb, hp]
            · rw [hp, h5]
              exact hlen
            · exact ⟨b, hv, by rw [hrec, hb, hp]⟩
            · rw [hn]
              exact hbelow
          · rw [held, hb, hp, hpay]
        · exact .inr (.inr (.inl ⟨r, s', hc, hl, hf, hpay ▸ hk⟩))

theorem raise_gt {top : UInt32} (h : top ≠ 0xFFFFFFFF) : top < raise top := by
  have hlt := top.toNat_lt
  have hne : top.toNat ≠ 4294967295 := fun he => h (UInt32.toNat_inj.1 he)
  unfold raise range
  split
  · rw [UInt32.lt_iff_toNat_lt]
    simp only [UInt32.reduceToNat]
    omega
  · rename_i hc
    rw [UInt32.lt_iff_toNat_lt] at hc ⊢
    rw [UInt32.toNat_add]
    simp only [UInt32.reduceSub, UInt32.reduceToNat] at hc ⊢
    omega

/-- Refilling one domain: the new ceiling is on the journal before the cursor may move. -/
theorem refill_spec {issued : Issued} {s : State} (domain : Bool) (polls : UInt16)
    (h : Ledger build issued s) (hready : s.state = .ready) (hmax : s.untils domain ≠ 0xFFFFFFFF) :
    (∃ d, refill build s domain polls = .error d ∧ Ledger build issued (cold d) ∧
      Leaves build s.nv.device d (held s)) ∨
    (∃ s', refill build s domain polls = .ok (.ok, s') ∧ Ledger build issued s' ∧ s'.state = .ready ∧
      held s' = held s ∧ s'.payloadLength = s.payloadLength ∧ s'.generation ≠ 0 ∧ s'.next = s.next ∧
      s.untils domain < s'.untils domain) ∨
    (∃ r s', refill build s domain polls = .ok (r, s') ∧ Ledger build issued s' ∧ Latched (r, s') ∧
      Leaves build s.nv.device s'.nv.device (held s)) := by
  obtain ⟨hopen, hbelow⟩ := h.owner hready
  unfold refill
  simp only
  split
  · rename_i hno
    obtain ⟨hl, hf, hd⟩ := current_failed h hno
    exact .inr (.inr ⟨(current build s).1, (current build s).2, rfl, hl, hf, .inr (.inl (by rw [hd]))⟩)
  · rename_i hok
    obtain ⟨hblob, huntil⟩ : (current build s).2.blob = s.blob ∧ (current build s).2.untils = s.untils := by
      obtain ⟨-, -, ⟨-, ⟨r, nv, hc⟩, -⟩ | hno⟩ := current_spec s h.sound
      · rw [hc]
        exact ⟨rfl, rfl⟩
      · exact absurd hno.failure.1 hok
    rw [hblob, congrFun huntil domain]
    have hgt := raise_gt hmax
    have hslot : slot domain = 8 ∨ slot domain = 12 := by cases domain <;> simp [slot]
    have h5 : encode s.blob (slot domain) (raise (s.untils domain)) 5 = s.payloadLength := by
      rw [← hopen.length, encode, if_neg (by omega)]
    have hheld : bytes (fun i => encode s.blob (slot domain) (raise (s.untils domain)) (16 + i))
        (encode s.blob (slot domain) (raise (s.untils domain)) 5).toNat = held s := by
      rw [h5, held]
      refine List.map_congr_left fun i _ => ?_
      rw [encode, if_neg (by omega)]
    have hceil : ∀ c, ceiling s.blob c ≤ ceiling (encode s.blob (slot domain) (raise (s.untils domain))) c := by
      intro c
      obtain rfl | rfl : c = domain ∨ c = !domain := by cases c <;> cases domain <;> simp
      · rw [ceiling_encode_same, ← hopen.limit]
        exact UInt32.le_of_lt hgt
      · rw [ceiling_encode_other]
        exact UInt32.le_refl _
    obtain ⟨d, hc, hl, hk⟩ | ⟨s', b, hc, hst, hb, hn, hu, hp, hg, hso, hv, hrec, hsafe⟩ |
        ⟨r, s', hc, hf, hl, hk⟩ := recommit polls _ h hready (not_not.1 hok) hceil
    · simp only [hc]
      exact .inl ⟨d, rfl, hl, hheld ▸ hk⟩
    · simp only [hc]
      refine .inr (.inl ⟨_, rfl, ?_, hst, ?_, hp.trans h5, hg, hn, ?_⟩)
      · refine ⟨hso, h.increasing, h.top, hsafe, by simp [hst], by simp [hst], by simp [hst],
          fun _ => ⟨⟨fun c => ?_, fun c => ?_, ?_, ?_, fun hz => absurd hz hg, fun _ => ?_⟩, ?_⟩, by simp [hst]⟩
        · simp only [hn, hu, Function.update_apply]
          split
          · rename_i he
            rw [he]
            exact UInt32.le_of_lt (UInt32.lt_of_le_of_lt (hopen.cursor domain) hgt)
          · exact hopen.cursor c
        · simp only [hu, hb, Function.update_apply]
          split
          · rename_i he
            rw [he, ceiling_encode_same]
          · rename_i he
            obtain rfl : c = !domain := by cases c <;> cases domain <;> simp_all
            rw [ceiling_encode_other]
            exact hopen.limit _
        · rw [hb, hp]
        · rw [hp, h5]
          exact hopen.fits
        · exact ⟨b, hv, by rw [hrec, hb, hp]⟩
        · rw [hn]
          exact hbelow
      · rw [held, hb, hp, hheld]
      · simp only [Function.update_self]
        exact hgt
    · have hne : r ≠ .ok := hf.failure.1
      simp only [hc, hne, ne_eq, not_false_eq_true, if_true]
      exact .inr (.inr ⟨r, s', rfl, hl, hf, hheld ▸ hk⟩)

/-- Handing out a counter that lies below its committed ceiling. -/
theorem allocate_ledger {issued : Issued} {s : State} (domain : Bool) (h : Ledger build issued s)
    (hready : s.state = .ready) (hlt : s.next domain < s.untils domain) :
    Ledger build (issued ++ [(domain, s.next domain)]) (allocate s domain).2.2 := by
  obtain ⟨hopen, hbelow⟩ := h.owner hready
  have hg : s.generation ≠ 0 := fun hz => by
    rw [(hopen.staged hz).2] at hlt
    exact absurd hlt (UInt32.lt_irrefl _)
  have hv : ∀ b, view build.recordMax s.nv.device = .clean b →
      ceiling (byteAt (record build.recordMax s.nv.device b)) = s.untils := by
    intro b hb
    obtain ⟨b', hv', hr⟩ := hopen.committed hg
    cases hv'.symm.trans hb
    funext c
    rw [hr, ceiling_bytes _ _ (by omega), hopen.limit]
  have hnat : (s.next domain).toNat < (s.untils domain).toNat := UInt32.lt_iff_toNat_lt.1 hlt
  have hb32 := (s.untils domain).toNat_lt
  have hsucc : (s.next domain + 1).toNat = (s.next domain).toNat + 1 := by
    rw [UInt32.toNat_add]
    simp only [UInt32.reduceToNat]
    omega
  refine ⟨h.sound, ?_, ?_, ?_, h.idle, by simp [allocate, finish, hready], by simp [allocate, finish, hready],
    fun _ => ⟨⟨fun c => ?_, hopen.limit, hopen.length, hopen.fits, fun hz => absurd hz hg, hopen.committed⟩, ?_⟩,
    by simp [allocate, finish, hready]⟩
  · refine List.pairwise_append.2 ⟨h.increasing, List.pairwise_singleton _ _, fun a ha b hb he => ?_⟩
    obtain rfl := List.mem_singleton.1 hb
    simp only at he
    rw [← he]
    exact hbelow a ha
  · intro p hp
    obtain hp | hp := List.mem_append.1 hp
    · exact h.top p hp
    · obtain rfl := List.mem_singleton.1 hp
      intro he
      simp only at he
      rw [he] at hnat
      simp only [UInt32.reduceToNat] at hnat
      omega
  · refine ⟨fun he => ?_, fun b hb => ?_⟩
    · obtain ⟨b, hc, -⟩ := hopen.committed hg
      cases hc.symm.trans he
    · simp only [allocate, finish] at hb ⊢
      rw [hv b hb]
      intro p hp
      obtain hp | hp := List.mem_append.1 hp
      · exact UInt32.lt_of_lt_of_le (hbelow p hp) (hopen.cursor p.1)
      · obtain rfl := List.mem_singleton.1 hp
        exact hlt
  · simp only [allocate, finish, Function.update_apply]
    split
    · rename_i he
      rw [he, UInt32.le_iff_toNat_le]
      omega
    · exact hopen.cursor c
  · intro p hp
    simp only [allocate, finish, Function.update_apply]
    obtain hp | hp := List.mem_append.1 hp
    · split
      · rename_i he
        have := hbelow p hp
        rw [he] at this
        rw [UInt32.lt_iff_toNat_lt] at this ⊢
        omega
      · exact hbelow p hp
    · obtain rfl := List.mem_singleton.1 hp
      simp only [if_true, UInt32.lt_iff_toNat_lt]
      omega

/-- `security_counter_take`. -/
theorem take_spec {issued : Issued} {s : State} (domain : UInt8) (value : Pointer) (polls : UInt16)
    (h : Ledger build issued s) :
    (∃ d, take build s domain value polls = .error d ∧ Ledger build issued (cold d) ∧
      Leaves build s.nv.device d (held s)) ∨
    (∃ v s', take build s domain value polls = .ok (.ok, some v, s') ∧
      Ledger build (issued ++ [(domain == 1, v)]) s' ∧ s.state = .ready ∧ s'.state = .ready ∧
      held s' = held s ∧ s'.generation ≠ 0) ∨
    (∃ r s', take build s domain value polls = .ok (r, none, s') ∧ Ledger build issued s' ∧
      Latched (r, s') ∧ Leaves build s.nv.device s'.nv.device (held s)) ∨
    (∃ r s', take build s domain value polls = .ok (r, none, s') ∧ r ≠ .ok ∧ Ledger build issued s' ∧
      (s' = s ∨ r = .exhausted ∧ s' = { s with result := .exhausted })) := by
  unfold take
  split
  · rename_i hr
    exact .inr (.inr (.inr ⟨_, _, rfl, hr, h, .inl rfl⟩))
  · rename_i hr
    have hready := (ready_ok h).1 (not_not.1 hr)
    obtain ⟨hopen, hbelow⟩ := h.owner hready
    have hlt_of : s.next (domain == 1) ≠ s.untils (domain == 1) →
        s.next (domain == 1) < s.untils (domain == 1) := fun hne =>
      UInt32.lt_of_le_of_ne (hopen.cursor _) hne
    split
    · exact .inr (.inr (.inr ⟨_, _, rfl, by simp, h, .inl rfl⟩))
    · split
      · exact .inr (.inr (.inr ⟨_, _, rfl, by simp, h, .inl rfl⟩))
      · simp only
        split
        · rename_i he
          split
          · refine .inr (.inr (.inr ⟨_, _, rfl, by simp [finish], ?_, .inr ⟨rfl, rfl⟩⟩))
            exact ⟨h.sound, h.increasing, h.top, h.disk, h.idle, h.fresh, h.blank,
              fun hs => ⟨⟨hopen.cursor, hopen.limit, hopen.length, hopen.fits, hopen.staged, hopen.committed⟩,
                (h.owner hs).2⟩, fun _ => by simp [finish]⟩
          · rename_i hmax
            obtain ⟨d, hc, hl, hk⟩ | ⟨s', hc, hl, hst, hh, -, hg, hn, hu⟩ | ⟨r, s', hc, hl, hf, hk⟩ :=
              refill_spec (domain == 1) polls h hready hmax
            · exact .inl ⟨d, by simp only [hc], hl, hk⟩
            · refine .inr (.inl ⟨s'.next (domain == 1), _, by simp only [hc]; rfl,
                allocate_ledger _ hl hst ?_, hready, hst, hh, hg⟩)
              rw [hn, he]
              exact hu
            · have hne : r ≠ .ok := hf.failure.1
              exact .inr (.inr (.inl ⟨r, s', by simp only [hc]; rw [if_pos hne], hl, hf, hk⟩))
        · rename_i hne
          have hlt := hlt_of hne
          refine .inr (.inl ⟨s.next (domain == 1), _, rfl, allocate_ledger _ h hready hlt, hready, hready, rfl,
            fun hz => ?_⟩)
          rw [(hopen.staged hz).2] at hlt
          exact absurd hlt (UInt32.lt_irrefl _)

theorem ledger_unready {issued : Issued} {s s' : State} (h : Ledger build issued s)
    (hs : Sound build.recordMax s'.nv) (hd : s'.nv.device = s.nv.device) (hi : s'.state = .unprovisioned)
    (hg : s'.generation = 0) (hv : view build.recordMax s.nv.device = .empty) : Ledger build issued s' where
  sound := hs
  increasing := h.increasing
  top := h.top
  disk := hd ▸ h.disk
  idle := by simp [hi]
  fresh := fun _ => hg
  blank := fun _ => hd ▸ hv
  owner := by simp [hi]
  latched := by simp [hi]

/-- The record a load put at the start of the snapshot. -/
theorem bytes_fill (a : Array8) (s : Bytes) : bytes (fill a s) s.length = s := by
  apply List.ext_getElem
  · simp [bytes]
  · intro k hk _
    simp only [bytes, List.length_map, List.length_range] at hk
    simp [bytes, fill, hk, byteAt]

/-- What opening the journal leaves: the payload found there, an empty journal, or a latched failure. -/
def Opens (build : Build) (issued : Issued) (s : State) (r : Result × State) : Prop :=
  Ledger build issued r.2 ∧ r.2.nv.device = s.nv.device ∧
  ((r.1 = .ok ∧ r.2.state = .ready ∧ r.2.generation ≠ 0 ∧
      kept build.recordMax s.nv.device = some (held r.2)) ∨
    (r.1 = .empty ∧ r.2.state = .unprovisioned) ∨ (Latched r ∧ r.1 ≠ .empty))

theorem fail_opens {issued : Issued} {s t : State} {r : Result} (h : Ledger build issued s)
    (hd : t.nv.device = s.nv.device) (hs : Sound build.recordMax t.nv) (hr : r ≠ .ok ∧ r ≠ .exhausted)
    (he : r ≠ .empty) : Opens build issued s (fail t r) :=
  ⟨ledger_failed hs h.increasing h.top (hd ▸ h.disk) rfl hr.1, hd,
    .inr (.inr ⟨latched_fail t hr, he⟩)⟩

/-- `security_counter_open`. -/
theorem counterOpen_spec {issued : Issued} {s : State} (h : Ledger build issued s) :
    (s.state ≠ .cold ∧ (counterOpen build s).2 = s ∧ (counterOpen build s).1 ≠ .ok) ∨
    (s.state = .cold ∧ Opens build issued s (counterOpen build s)) := by
  by_cases hcold : s.state = .cold
  · have hd := load_device s.nv (fullCapacity build) h.sound
    have hs := load_sound s.nv .accepted (fullCapacity build) h.sound
    have hok := load_ok s.nv (fullCapacity build) h.sound (fullCapacity_ne build)
    have hempty := load_empty s.nv (fullCapacity build) h.sound
    refine .inr ⟨hcold, ?_⟩
    unfold counterOpen
    simp only [hcold]
    generalize NvRecord.load build.recordMax s.nv .accepted (fullCapacity build) = l at *
    split
    · rename_i he
      exact ⟨ledger_unready h hs hd rfl (h.fresh (.inl hcold)) (hempty he), hd, .inr (.inl ⟨rfl, rfl⟩)⟩
    · split
      · exact fail_opens h hd hs (by split <;> simp) (by split <;> simp)
      · rename_i hr
        split
        · exact fail_opens h hd hs (by simp) (by simp)
        · split
          · exact fail_opens h hd hs (by simp) (by simp)
          · split
            · exact fail_opens h hd hs (by simp) (by simp)
            · -- The record is in the snapshot, its length and generation in the diagnostic.
              rename_i hfmt
              obtain ⟨b, hv, ho, -, hgen, hlen⟩ := hok (not_not.1 hr)
              have hval : (scans build.recordMax s.nv.device b).state = .valid :=
                viewOf_holds_valid (.inl hv : Holds (viewOf (scans build.recordMax s.nv.device)) b)
              simp only [ho, Option.getD_some, hlen, not_or, not_lt, not_not] at hfmt ⊢
              have hrl : (record build.recordMax s.nv.device b).length =
                  16 + (fill s.blob (record build.recordMax s.nv.device b) 5).toNat := by
                rw [← hfmt.2.1]
                simp [record]
              have hbytes : bytes (fill s.blob (record build.recordMax s.nv.device b))
                  (16 + (fill s.blob (record build.recordMax s.nv.device b) 5).toNat) =
                  record build.recordMax s.nv.device b := by
                rw [← hrl, bytes_fill]
              have hgne : l.2.2.status.generation ≠ 0 := hgen ▸ scans_generation_ne hval
              refine ⟨⟨hs, h.increasing, h.top, hd ▸ h.disk, by simp [finish], by simp [finish],
                by simp [finish], fun _ => ⟨⟨fun _ => UInt32.le_refl _, fun _ => rfl, rfl, hfmt.1,
                  fun hz => absurd hz hgne, fun _ => ⟨b, hd ▸ hv, ?_⟩⟩, ?_⟩, by simp [finish]⟩, hd,
                .inl ⟨rfl, rfl, hgne, ?_⟩⟩
              · simp only [finish, floors, hd]
                exact hbytes.symm
              · refine below_mono (h.disk.2 b hv) fun domain => ?_
                simp only [finish, floors]
                have hc := ceiling_bytes (fill s.blob (record build.recordMax s.nv.device b))
                  (16 + (fill s.blob (record build.recordMax s.nv.device b) 5).toNat) (by omega) domain
                rw [hbytes] at hc
                rw [hc]
                exact UInt32.le_refl _
              · rw [kept, hv]
                simp only [finish, floors, held]
                rw [← drop_bytes, hbytes]
  · refine .inl ⟨hcold, ?_⟩
    unfold counterOpen
    cases hst : s.state with
    | cold => exact absurd hst hcold
    | failed => exact ⟨rfl, h.latched hst⟩
    | _ => exact ⟨rfl, by simp⟩

/-- Nothing has been issued from a journal that is still empty. -/
theorem ledger_staged {issued : Issued} {s s' : State} (h : Ledger build issued s)
    (hv : view build.recordMax s.nv.device = .empty) (hnv : s'.nv = s.nv) (hst : s'.state = .ready)
    (hg : s'.generation = 0) (hn : s'.next = s'.untils) (hu : s'.untils = ceiling s'.blob)
    (h5 : s'.blob 5 = s'.payloadLength) (hfit : s'.payloadLength.toNat ≤ build.payloadMax) :
    Ledger build issued s' where
  sound := hnv ▸ h.sound
  increasing := h.increasing
  top := h.top
  disk := hnv ▸ h.disk
  idle := by simp [hst]
  fresh := by simp [hst]
  blank := by simp [hst]
  owner := fun _ => by
    refine ⟨⟨fun d => by rw [hn]; exact UInt32.le_refl _, fun d => by rw [hu], h5, hfit,
      fun _ => ⟨hnv ▸ hv, hn⟩, fun hne => absurd hg hne⟩, ?_⟩
    obtain rfl := h.disk.1 hv
    exact fun p hp => by simp at hp
  latched := by simp [hst]

theorem stage_cases (s : State) (pointer : Pointer) (data : Bytes) (polls : UInt16) :
    (∃ r, stage build s pointer data polls = (r, s) ∧ r ≠ .ok) ∨
    (data.length ≤ build.payloadMax ∧ stage build s pointer data polls = finish { s with
      blob := payload build s.blob data, payloadLength := UInt8.ofNat data.length, state := .ready } .ok) := by
  unfold stage
  cases hr : refusal build pointer data polls with
  | some r => exact .inl ⟨r, rfl, refusal_ne hr⟩
  | none => exact .inr ⟨refusal_fits hr, rfl⟩

/-- A call that only stages in RAM: refused, or the payload is held and nothing is committed. -/
def Stages (build : Build) (issued : Issued) (s : State) (data : Bytes) (r : Result × State) : Prop :=
  (r.1 ≠ .ok ∧ r.2 = s) ∨
  (r.1 = .ok ∧ Ledger build issued r.2 ∧ r.2.nv = s.nv ∧ r.2.state = .ready ∧ r.2.generation = 0 ∧
    held r.2 = data ∧ (s.state = .unprovisioned ∨ s.state = .ready ∧ s.generation = 0))

/-- `security_counter_create`. -/
theorem create_spec {issued : Issued} {s : State} (nwkFloor apsFloor : UInt32) (pointer : Pointer)
    (data : Bytes) (polls : UInt16) (h : Ledger build issued s) :
    Stages build issued s data (create build s nwkFloor apsFloor pointer data polls) := by
  unfold create
  split
  · rename_i hf
    exact .inl ⟨h.latched hf, rfl⟩
  · split
    · exact .inl ⟨by simp, rfl⟩
    · rename_i hst
      have hfrom : s.state = .unprovisioned ∨ s.state = .ready ∧ s.generation = 0 := by grind
      have hg : s.generation = 0 := hfrom.elim (fun hu => h.fresh (.inr hu)) And.right
      have hv : view build.recordMax s.nv.device = .empty :=
        hfrom.elim h.blank fun hr => ((h.owner hr.1).1.staged hg).1
      obtain ⟨r, hr, hne⟩ | ⟨hlen, hr⟩ := @stage_cases build s pointer data polls
      · simp only [hr]
        rw [if_pos hne]
        exact .inl ⟨hne, rfl⟩
      · have h255 := length_lt hlen
        simp only [hr]
        rw [if_neg (by simp [finish])]
        have h5 : seed (payload build s.blob data) nwkFloor apsFloor 5 = UInt8.ofNat data.length := by
          simp [seed, encode, payload]
        have hn : (UInt8.ofNat data.length).toNat = data.length := by simp; omega
        refine .inr ⟨rfl, ?_, rfl, rfl, hg, ?_, hfrom⟩
        · exact ledger_staged h hv rfl rfl hg rfl rfl h5 (by simp only [floors, finish]; omega)
        · simp only [floors, finish, held, hn]
          refine (List.map_congr_left fun i _ => ?_).trans (bytes_payload s.blob data hlen)
          have h1 : ¬ (12 ≤ 16 + i ∧ 16 + i < 12 + 4) := by omega
          have h2 : ¬ (8 ≤ 16 + i ∧ 16 + i < 8 + 4) := by omega
          simp only [seed, encode, if_neg h1, if_neg h2]
          grind

/-- `security_counter_restage`. -/
theorem restage_spec {issued : Issued} {s : State} (pointer : Pointer) (data : Bytes)
    (h : Ledger build issued s) : Stages build issued s data (restage build s pointer data) := by
  unfold restage
  split
  · exact .inl ⟨by simp, rfl⟩
  · rename_i hst
    obtain ⟨hr, hg⟩ : s.state = .ready ∧ s.generation = 0 := by grind
    have hopen := (h.owner hr).1
    obtain ⟨r, hs, hne⟩ | ⟨hlen, hs⟩ := @stage_cases build s pointer data 1 <;> rw [hs]
    · exact .inl ⟨hne, rfl⟩
    · have h255 := length_lt hlen
      have hn : (UInt8.ofNat data.length).toNat = data.length := by simp; omega
      refine .inr ⟨rfl, ?_, rfl, rfl, hg, ?_, .inr ⟨hr, hg⟩⟩
      · refine ledger_staged h (hopen.staged hg).1 rfl rfl hg (hopen.staged hg).2 ?_ rfl
          (by simp only [finish]; omega)
        funext d
        simp only [finish, ceiling_payload]
        exact hopen.limit d
      · simp only [finish, held, hn]
        exact bytes_payload s.blob data hlen

/-- `security_counter_read`: nothing but the payload leaves. -/
theorem read_spec {issued : Issued} {s : State} (data : Pointer) (capacity : UInt8) (length : Pointer)
    (h : Ledger build issued s) :
    (∃ r, read s data capacity length = (r, none, s) ∧ r ≠ .ok) ∨
    (s.state = .ready ∧ read s data capacity length = (.ok, some (held s), { s with result := .ok }) ∧
      Ledger build issued { s with result := .ok }) := by
  unfold read
  split
  · rename_i hr
    exact .inl ⟨_, rfl, hr⟩
  · rename_i hr
    have hready := (ready_ok h).1 (not_not.1 hr)
    obtain ⟨hopen, hbelow⟩ := h.owner hready
    split
    · exact .inl ⟨_, rfl, by simp⟩
    · split
      · exact .inl ⟨_, rfl, by simp⟩
      · split
        · exact .inl ⟨_, rfl, by simp⟩
        · refine .inr ⟨hready, rfl, h.sound, h.increasing, h.top, h.disk, h.idle, h.fresh, h.blank,
            fun _ => ⟨⟨hopen.cursor, hopen.limit, hopen.length, hopen.fits, hopen.staged, hopen.committed⟩,
              hbelow⟩, by simp [hready]⟩

end SecurityCounter
