import Cc2530Zigbee.Build
import Cc2530Zigbee.NvRecordValid
import Cc2530Zigbee.NvRecordAtomic

/-!
# Runs of the journal

Loads and replacements from any flash contents keep the cached selection
honest. From every such state a replacement that stops anywhere leaves the old
record or the new one for the next start.
-/
namespace NvRecord

open Octets Flash

variable {max : Nat}

/-- The states of one power epoch, over any contents of the two pages. -/
inductive Reachable (max : Nat) : State → Prop where
  | reset (d : Device) : Reachable max (reset d)
  | load (s : State) (output : Pointer) (capacity : UInt8) :
    Reachable max s → Reachable max (load max s output capacity).2.2
  | replace (s : State) (pointer : Pointer) (data : Bytes) (polls : UInt16) (allow : UInt8) (r : Result)
      (s' : State) :
    Reachable max s → replace max s pointer data polls allow = .ok (r, s') → Reachable max s'

/-- A fault is latched, or the cache is honest. -/
def Sound (max : Nat) (s : State) : Prop :=
  (∃ r, s.fault = some r ∧ Failure r) ∨ (s.fault = none ∧ Coherent max s)

/-- A load that fails its argument tests touches nothing. -/
theorem load_refused (s : State) (output : Pointer) (capacity : UInt8) (hf : s.fault = none)
    (h : ¬ (output = .accepted ∧ capacity ≠ 0)) :
    load max s output capacity = (.invalidArgument, none, s) ∨
    load max s output capacity = (.bufferOwnership, none, s) := by
  by_cases h0 : output = .null ∨ capacity = 0
  · exact .inl (by simp [load, hf, h0])
  · have hr : output = .refused := by cases output <;> simp_all
    exact .inr (by simp_all [load])

theorem load_sound (s : State) (output : Pointer) (capacity : UInt8) (h : Sound max s) :
    Sound max (load max s output capacity).2.2 := by
  obtain ⟨r, hr, hf⟩ | ⟨hf, hc⟩ := h
  · simp only [load, hr]
    exact .inl ⟨r, hr, hf⟩
  · by_cases ha : output = .accepted ∧ capacity ≠ 0
    · obtain ⟨rfl, h0⟩ := ha
      have hl := load_loads s capacity hf hc h0
      exact .inr ⟨hl.fault.trans hf, hl.coherent⟩
    · obtain hs | hs := @load_refused max s output capacity hf ha <;> rw [hs] <;> exact .inr ⟨hf, hc⟩

theorem replace_sound (s : State) (pointer : Pointer) (data : Bytes) (polls : UInt16) (allow : UInt8)
    (hmax : max ≤ 2028) (h : Sound max s) (r : Result) (s' : State)
    (hr : replace max s pointer data polls allow = .ok (r, s')) : Sound max s' := by
  obtain ⟨q, hq, hf⟩ | ⟨hf, hc⟩ := h
  · simp only [replace, hq, Except.ok.injEq, Prod.mk.injEq] at hr
    exact .inl ⟨q, hr.2 ▸ hq, hf⟩
  · obtain ⟨_, t, ht, -, hn, hco, -⟩ | ⟨-, -, -, -, -, hres⟩ :=
      replace_cases s pointer data polls allow hmax hf hc
    · rw [hr] at ht
      cases ht
      exact .inr ⟨hn, hco⟩
    · obtain ⟨-, -, hcom, hco⟩ | ⟨hl, hfail⟩ := hres r s' hr
      · exact .inr ⟨hcom.fault.trans hf, hco⟩
      · exact .inl ⟨r, hl, hfail⟩

theorem reachable_sound {s : State} (hmax : max ≤ 2028) (h : Reachable max s) : Sound max s := by
  induction h with
  | reset d => exact .inr ⟨rfl, coherent_reset d⟩
  | load s output capacity _ ih => exact load_sound s output capacity ih
  | replace s pointer data polls allow r s' _ hr ih =>
    exact replace_sound s pointer data polls allow hmax ih r s' hr

/-! Where a stopped replacement leaves the selection. -/

theorem record_written {d : Device} {b : Bool} {data : Bytes} {generation : UInt32}
    (h : Written data generation (d.page b)) (hm : data.length ≤ max) (h255 : data.length < 256) :
    record max d b = data := by
  have hlen := (@scanPage_written max _ _ _ h false).2.1
  have hn : (scans max d b).length.toNat = data.length := by
    rw [scans, hlen]
    simp
    omega
  rw [record, hn]
  exact stage_written h hm (by omega)

theorem record_congr {d d' : Device} {b : Bool} (h : d'.page b = d.page b) :
    record max d' b = record max d b := by
  simp only [record, scans, h]

/-- The selection after a replacement stopped anywhere: the old page keeps it,
or the other page holds the new record and takes it. -/
def Settles (max : Nat) (data : Bytes) (d d' : Device) : Prop :=
  (∀ b, Holds (view max d) b → d'.page b = d.page b ∧
    (Holds (view max d') b ∨ view max d' = .clean (!b) ∧ record max d' (!b) = data)) ∧
  (view max d = .empty → view max d' = .empty ∨ view max d' = .refused .corrupt ∨
    view max d' = .clean false ∧ record max d' false = data)

theorem settles_refl (data : Bytes) (d : Device) : Settles max data d d :=
  ⟨fun _ h => ⟨rfl, .inl h⟩, .inl⟩

theorem rewritten_settles {data : Bytes} {d d' : Device} (hm : data.length ≤ max) (h255 : data.length < 256)
    (hb : base max d (view max d) ≠ 0xFFFFFFFF)
    (h : Rewritten data (base max d (view max d) + 1) (target (view max d)) d d') :
    Settles max data d d' := by
  refine ⟨fun b hv => ?_, fun hv => ?_⟩
  · have htb : target (view max d) = !b ∧ base max d (view max d) = (scans max d b).generation := by
      obtain hv | hv := hv <;> rw [hv] <;> exact ⟨rfl, rfl⟩
    rw [htb.1] at h
    rw [htb.2] at h hb
    have hp : d'.page b = d.page b := by simpa using h.other
    have hs : scans max d' b = scans max d b := scans_congr hp
    have hval : (scans max d' b).state = .valid := hs ▸ viewOf_holds_valid hv
    refine ⟨hp, ?_⟩
    obtain ht | ht | ht := h.target
    · have : view max d' = view max d := by
        unfold view
        congr 1
        funext c
        obtain rfl | rfl : c = b ∨ c = !b := by cases b <;> cases c <;> simp
        · exact hs
        · exact scans_congr ht
      rw [this]
      exact .inl hv
    · obtain he | he := @scanPage_uncommitted max false _ ht
      · exact .inl (viewOf_invalid hval (by simp [scans, he]) (by simp [scans, he]))
      · exact .inl (viewOf_invalid hval (by simp [scans, he]) (by simp [scans, he]))
    · obtain ⟨hg, -, hu⟩ := @scanPage_written max _ _ _ ht false
      by_cases hn : (scans max d' !b).state = .valid
      · exact .inr ⟨viewOf_newer hval hn (hs ▸ hg) (hs ▸ hb), record_written ht hm h255⟩
      · exact .inl (viewOf_invalid hval hn hu)
  · rw [hv] at h
    have he := viewOf_empty.1 hv
    have h1 : (scans max d' true).state = .empty :=
      (congrArg Scanned.state (scans_congr h.other)).trans he.2
    have none_of : (scans max d' false).state ≠ .valid → (scans max d' false).state ≠ .unsupported →
        view max d' = .empty ∨ view max d' = .refused .corrupt := fun h0 hu => by
      apply viewOf_none <;> intro b <;> cases b <;> first | assumption | simp [h1]
    obtain ht | ht | ht := h.target
    · have h0 : (scans max d' false).state = .empty :=
        (congrArg Scanned.state (scans_congr ht)).trans he.1
      exact .inl (viewOf_empty.2 ⟨h0, h1⟩)
    · have := @scanPage_uncommitted max false _ ht
      obtain h | h := none_of (by unfold scans; grind [target]) (by unfold scans; grind [target])
      · exact .inl h
      · exact .inr (.inl h)
    · obtain ⟨hg, -, hu⟩ := @scanPage_written max _ _ _ ht false
      by_cases hn : (scans max d' false).state = .valid
      · exact .inr (.inr ⟨viewOf_first hn h1, record_written ht hm h255⟩)
      · obtain h | h := none_of hn hu
        · exact .inl h
        · exact .inr (.inl h)

/-- However a replacement ends, the selection settles on the old record or the new one. -/
theorem replace_settles (s : State) (pointer : Pointer) (data : Bytes) (polls : UInt16) (allow : UInt8)
    (hmax : max ≤ 255) (h : Sound max s) :
    Settles max data s.device (survivor (replace max s pointer data polls allow)) := by
  obtain ⟨q, hq, -⟩ | ⟨hf, hc⟩ := h
  · simp only [replace, hq]
    exact settles_refl data s.device
  · obtain ⟨r, t, ht, hd, -⟩ | ⟨-, hb, -, hlen, hrw, -⟩ :=
      replace_cases s pointer data polls allow (by omega) hf hc
    · rw [ht]
      simp only [survivor, hd]
      exact settles_refl data s.device
    · exact rewritten_settles hlen (by omega) hb hrw

/-! Loading after a reset. -/

/-- A load publishes only the selected record. -/
theorem load_published (s : State) (output : Pointer) (capacity : UInt8) (h : Sound max s) (o : Bytes)
    (ho : (load max s output capacity).2.1 = some o) :
    ∃ b, Holds (view max s.device) b ∧ record max s.device b = o := by
  obtain ⟨q, hq, -⟩ | ⟨hf, hc⟩ := h
  · simp [load, hq] at ho
  · by_cases ha : output = .accepted ∧ capacity ≠ 0
    · obtain ⟨rfl, h0⟩ := ha
      have hr := (load_loads s capacity hf hc h0).result
      cases hv : view max s.device with
      | empty => simp [hv, answer, ho] at hr
      | refused r => simp [hv, answer, ho] at hr
      | clean b =>
        refine ⟨b, .inl rfl, ?_⟩
        simp only [hv, answer, ho] at hr
        split at hr <;> simp at hr
        exact hr.2.symm
      | degraded b =>
        refine ⟨b, .inr rfl, ?_⟩
        simp only [hv, answer, ho] at hr
        split at hr <;> simp at hr
        exact hr.2.symm
    · obtain hs | hs := @load_refused max s output capacity hf ha <;> simp [hs] at ho

theorem scanPage_valid_length {capture : Bool} {page : Page}
    (h : (scanPage max capture page).state = .valid) : (scanPage max capture page).length.toNat ≤ max := by
  simp only [scanPage, pageState] at h ⊢
  grind

/-- With room for any record, a load publishes what is selected. -/
theorem load_room (s : State) (capacity : UInt8) (hf : s.fault = none) (hc : Coherent max s)
    (hroom : max ≤ capacity.toNat) (h0 : capacity ≠ 0) (b : Bool) (hv : Holds (view max s.device) b) :
    ((load max s .accepted capacity).1 = .ok ∨ (load max s .accepted capacity).1 = .recovered) ∧
    (load max s .accepted capacity).2.1 = some (record max s.device b) ∧
    (view max s.device = .clean b → (load max s .accepted capacity).1 = .ok) := by
  have hr := (load_loads s capacity hf hc h0).result
  have hn : ¬ capacity < (scans max s.device b).length := by
    have hl := scanPage_valid_length (viewOf_holds_valid hv)
    rw [UInt8.lt_iff_toNat_lt]
    unfold scans at hl ⊢
    omega
  obtain hv | hv := hv
  · simp only [hv, answer, if_neg hn, Prod.mk.injEq] at hr
    exact ⟨.inl hr.1, hr.2, fun _ => hr.1⟩
  · simp only [hv, answer, if_neg hn, Prod.mk.injEq] at hr
    exact ⟨.inr hr.1, hr.2, fun h => by cases hv.symm.trans h⟩

theorem holds_unique {v : View} {b b' : Bool} (h : Holds v b) (h' : Holds v b') : b' = b := by
  obtain rfl | rfl := h <;> obtain h' | h' := h' <;> cases h' <;> rfl

/-- A load says empty only of an empty journal. -/
theorem load_empty (s : State) (capacity : UInt8) (h : Sound max s)
    (he : (load max s .accepted capacity).1 = .empty) : view max s.device = .empty := by
  obtain ⟨q, hq, hf⟩ | ⟨hf, hc⟩ := h
  · obtain rfl | rfl := hf <;> simp [load, hq] at he
  · by_cases h0 : capacity ≠ 0
    · have hr := congrArg Prod.fst (load_loads s capacity hf hc h0).result
      rw [he] at hr
      cases hv : view max s.device with
      | empty => rfl
      | refused r => exact absurd hr.symm (by simpa [hv, answer] using (refused_ne hv).2.2)
      | clean b => simp only [hv, answer] at hr; split at hr <;> cases hr
      | degraded b => simp only [hv, answer] at hr; split at hr <;> cases hr
    · obtain hl | hl := @load_refused max s .accepted capacity hf (by simp_all) <;> simp [hl] at he

/-! With an idle supply every command completes. -/

theorem programAll_idle (s : State) (b : Bool) (ws : List Write) (h : s.device.schedule = []) :
    ∃ s', programAll s b ws = .ok (none, s') ∧ s'.device.schedule = [] ∧
      s'.device.page b = applied (s.device.page b) ws := by
  have hrun : ∃ s', programAll s b ws = .ok (none, s') ∧ s'.device.schedule = [] := by
    induction ws generalizing s with
    | nil => exact ⟨s, rfl, h⟩
    | cons w ws ih =>
      simp only [programAll, program, Flash.program, command, setPhase, h]
      exact ih _ h
  obtain ⟨s', hs', hd⟩ := hrun
  obtain ⟨t, ht, hp, -⟩ | ⟨d, pre, w, post, kept, hstop, -⟩ := programAll_cases s b ws
  · rw [hs'] at ht
    cases ht
    exact ⟨s', hs', hd, hp⟩
  · obtain he | ⟨t, ht, -⟩ := hstop
    · rw [hs'] at he
      cases he
    · rw [hs'] at ht
      cases ht

theorem rewrite_idle (s : State) (b : Bool) (data : Bytes) (h : s.device.schedule = [])
    (hpos : 0 < data.length) (hm : data.length ≤ max) (h255 : data.length < 256)
    (hg : s.status.generation + 1 ≠ 0) :
    ∃ s', rewrite max s b data = .ok (if s.status.recovered then .recovered else .ok, s') ∧
      s'.device.schedule = [] ∧ s'.status.eraseAttempts = s.status.eraseAttempts := by
  obtain ⟨s', hs', hd, hp⟩ := programAll_idle { s with device := s.device.put b blank } b
    (recordWrites data (s.status.generation + 1)) h
  have himage : s'.device.page b = image data (s.status.generation + 1) := by
    rw [hp, Device.put_same]
    rfl
  have hst : s'.status.recovered = s.status.recovered ∧ s'.status.eraseAttempts = s.status.eraseAttempts := by
    obtain ⟨t, ht, -, -, -, ph, hph⟩ | ⟨d, pre, w, post, kept, hstop, -⟩ :=
      programAll_cases { s with device := s.device.put b blank } b
        (recordWrites data (s.status.generation + 1))
    · rw [hs'] at ht
      cases ht
      rw [hph]
      exact ⟨rfl, rfl⟩
    · obtain he | ⟨t, ht, -⟩ := hstop <;> simp_all
  have hvalid := scanPage_image data (s.status.generation + 1) hpos hm h255 hg false
  have hw := written_applied data (s.status.generation + 1) (by omega)
  obtain ⟨hgen, hlen, -⟩ := @scanPage_written max _ _ _ hw false
  have hlen' : (UInt8.ofNat data.length).toNat = data.length := by simp; omega
  have he : Flash.erase s.device b = .ok (true, s.device.put b blank) := by
    simp [erase, command, h]
  unfold rewrite
  simp only [he, hs', himage]
  rw [if_neg]
  · simp only [finish, setPage, hst.1]
    exact ⟨_, rfl, hd, hst.2⟩
  · rw [hvalid]
    unfold image
    rw [hgen, hlen, hlen']
    simp

theorem selectRecord_attempts (d : Device) (st : Status) :
    (selectRecord max d st).2.eraseAttempts = st.eraseAttempts := by
  rw [selectRecord_view]
  cases view max d <;> rfl

theorem succ_ne_zero {g : UInt32} (h : g ≠ 0xFFFFFFFF) : g + 1 ≠ 0 := by
  intro he
  have hg : g = 0 - 1 := by rw [← he]; simp
  exact h (hg.trans rfl)

theorem replaceSelected_idle (s : State) (r : Result) (data : Bytes) (allow : UInt8)
    (hi : s.device.schedule = []) (hpos : 0 < data.length) (hm : data.length ≤ max) (h255 : data.length < 256)
    (hr : r = .ok ∨ r = .empty) (hrec : s.status.recovered = false)
    (hg : s.status.generation ≠ 0xFFFFFFFF)
    (ha : s.status.eraseAttempts (inactive s.status.selected) < eraseLimit) :
    ∃ s', replaceSelected max s r data allow = .ok (.ok, s') ∧ s'.device.schedule = [] ∧
      ∀ b, s'.status.eraseAttempts b ≤ s.status.eraseAttempts b + 1 := by
  have h1 : ¬ (r = .recovered ∧ allow = 0) := by rintro ⟨rfl, -⟩; simp at hr
  have h2 : ¬ (r ≠ .ok ∧ r ≠ .recovered ∧ r ≠ .empty) := by rintro ⟨a, -, b⟩; exact hr.elim a b
  obtain ⟨s', hs', hd, he⟩ := @rewrite_idle max { s with status := { s.status with
      phase := 3, eraseAttempts := fun b => if b = inactive s.status.selected then s.status.eraseAttempts b + 1
        else s.status.eraseAttempts b } } (inactive s.status.selected) data hi hpos hm h255 (succ_ne_zero hg)
  simp only [hrec, Bool.false_eq_true, if_false] at hs'
  refine ⟨s', ?_, hd, fun b => ?_⟩
  · unfold replaceSelected
    rw [if_neg h1, if_neg h2, if_neg hg]
    simp only [if_neg (Nat.not_le.2 ha), hrec]
    exact hs'
  · rw [he]
    simp only
    split <;> omega

/-- A replacement with arguments in order, erase budget left and an idle supply succeeds. -/
theorem replace_idle (s : State) (data : Bytes) (polls : UInt16) (hf : s.fault = none)
    (hc : Coherent max s) (hi : s.device.schedule = []) (hpos : 0 < data.length) (hm : data.length ≤ max)
    (h255 : data.length < 256) (hp : polls ≠ 0)
    (hv : view max s.device = .empty ∨ ∃ b, view max s.device = .clean b)
    (hb : base max s.device (view max s.device) ≠ 0xFFFFFFFF)
    (ha : s.status.eraseAttempts (target (view max s.device)) < eraseLimit) :
    ∃ s', replace max s .accepted data polls 0 = .ok (.ok, s') ∧ s'.device.schedule = [] ∧
      ∀ b, s'.status.eraseAttempts b ≤ s.status.eraseAttempts b + 1 := by
  obtain ⟨fault, st, d⟩ := s
  obtain rfl : fault = none := hf
  have hsel := resume_selects _ hc
  have hatt : (if (resume st).1 then (Result.ok, (resume st).2)
      else selectRecord max d (resume st).2).2.eraseAttempts = st.eraseAttempts := by
    split
    · simp only [resume]
      split <;> rfl
    · rw [selectRecord_attempts]
      simp only [resume]
      split <;> rfl
  have hargs : ¬ (Pointer.accepted = .null ∨ data.length = 0 ∨ max < data.length ∨ polls = 0 ∨
      (1 : UInt8) < 0) := by
    rintro (h | h | h | h | h)
    · cases h
    · omega
    · omega
    · exact hp h
    · exact absurd h (by decide)
  simp only at hsel hi hv hb ha
  simp only [replace]
  rw [if_neg hargs, if_neg (by simp)]
  generalize (if (resume st).1 then (Result.ok, (resume st).2)
    else selectRecord max d (resume st).2) = sel at hsel hatt
  obtain ⟨r, st₁⟩ := sel
  simp only at hsel hatt ⊢
  obtain hv | ⟨b, hv⟩ := hv
  · rw [hv] at hsel hb ha
    obtain ⟨hr, hs1, hs2, hs3⟩ := hsel
    rw [← hatt]
    exact replaceSelected_idle ⟨none, st₁, d⟩ r data 0 hi hpos hm h255 (.inr hr) hs3
      (by rw [hs2]; exact hb) (by simp only [hs1, hatt]; exact ha)
  · rw [hv] at hsel hb ha
    obtain ⟨hr, ⟨hs1, hs2, -⟩, hs3⟩ := hsel
    rw [← hatt]
    exact replaceSelected_idle ⟨none, st₁, d⟩ r data 0 hi hpos hm h255 (.inl hr) hs3
      (by rw [hs2]; exact hb) (by simp only [hs1, hatt]; exact ha)

/-! Atomicity. -/

/-- A capacity with room for every record. -/
def fullCapacity (build : Build) : UInt8 := UInt8.ofNat build.recordMax

theorem fullCapacity_toNat (build : Build) : (fullCapacity build).toNat = build.recordMax := by
  have h := build.recordMax_le
  simp [fullCapacity]
  omega

theorem fullCapacity_ne (build : Build) : fullCapacity build ≠ 0 := by
  intro h
  have h1 := fullCapacity_toNat build
  have h2 := build.recordMax_ge
  rw [h] at h1
  simp at h1
  omega

/-- The journal across a power cut. Whatever command of a replacement the
supply is lost in, the next start finds the old record or the new one, the page
of the old record is as it was, and from an empty journal the next start finds
the new record or none. -/
theorem replace_atomic (build : Build) (s : State) (hs : Reachable build.recordMax s) (capacity : UInt8)
    (pointer : Pointer) (data : Bytes) (polls : UInt16) (allow : UInt8) :
    let max := build.recordMax
    let before := load max s .accepted capacity
    let survived := survivor (replace max s pointer data polls allow)
    let after := load max (reset survived) .accepted (fullCapacity build)
    (∀ old, before.2.1 = some old →
      (after.1 = .ok ∨ after.1 = .recovered) ∧ (after.2.1 = some old ∨ after.2.1 = some data) ∧
      (∀ p c o, (load max (reset survived) p c).2.1 = some o → o = old ∨ o = data) ∧
      ∃ b, Holds (view max s.device) b ∧ record max s.device b = old ∧
        survived.page b = s.device.page b) ∧
    (before.1 = .empty →
      ((after.1 = .ok ∧ after.2.1 = some data) ∨
        ((after.1 = .empty ∨ after.1 = .corrupt) ∧ after.2.1 = none)) ∧
      ∀ p c o, (load max (reset survived) p c).2.1 = some o → o = data) := by
  intro max before survived after
  have hmax : max ≤ 255 := le_trans build.recordMax_le (by omega)
  have hsound := reachable_sound (show max ≤ 2028 by omega) hs
  have hset : Settles max data s.device survived :=
    replace_settles s pointer data polls allow hmax hsound
  have hcold : Sound max (reset survived) := .inr ⟨rfl, coherent_reset survived⟩
  have hroom : max ≤ (fullCapacity build).toNat := (fullCapacity_toNat build).ge
  have hpub : ∀ b, Holds (view max survived) b →
      (after.1 = .ok ∨ after.1 = .recovered) ∧ after.2.1 = some (record max survived b) ∧
        (view max survived = .clean b → after.1 = .ok) := fun b hb =>
    load_room (reset survived) _ rfl (coherent_reset survived) hroom (fullCapacity_ne build) b hb
  have honly : ∀ b, Holds (view max survived) b →
      ∀ p c o, (load max (reset survived) p c).2.1 = some o → o = record max survived b := by
    intro b hb p c o ho
    obtain ⟨b', hb', rfl⟩ := load_published _ p c hcold o ho
    rw [holds_unique hb hb']
    rfl
  refine ⟨fun old hold => ?_, fun hempty => ?_⟩
  · obtain ⟨b, hb, rfl⟩ := load_published s .accepted capacity hsound old hold
    obtain ⟨hp, hkeep | ⟨hnew, hdata⟩⟩ := hset.1 b hb
    · have hrec : record max survived b = record max s.device b := record_congr hp
      exact ⟨(hpub b hkeep).1, .inl (hrec ▸ (hpub b hkeep).2.1),
        fun p c o ho => .inl (hrec ▸ honly b hkeep p c o ho), b, hb, rfl, hp⟩
    · have hh : Holds (view max survived) (!b) := .inl hnew
      exact ⟨(hpub _ hh).1, .inr (hdata ▸ (hpub _ hh).2.1),
        fun p c o ho => .inr (hdata ▸ honly _ hh p c o ho), b, hb, rfl, hp⟩
  · have hl := (@load_loads max (reset survived) _ rfl (coherent_reset survived) (fullCapacity_ne build)).result
    have hnone : (∀ b, ¬ Holds (view max survived) b) →
        ∀ p c o, (load max (reset survived) p c).2.1 = some o → o = data := by
      intro hno p c o ho
      obtain ⟨b, hb, -⟩ := load_published _ p c hcold o ho
      exact absurd hb (hno b)
    obtain h | h | ⟨h, hdata⟩ := hset.2 (load_empty s capacity hsound hempty)
    · simp only [reset, h, answer, Prod.mk.injEq] at hl
      exact ⟨.inr ⟨.inl hl.1, hl.2⟩, hnone fun b hb => by simp [Holds, h] at hb⟩
    · simp only [reset, h, answer, Prod.mk.injEq] at hl
      exact ⟨.inr ⟨.inr hl.1, hl.2⟩, hnone fun b hb => by simp [Holds, h] at hb⟩
    · have hh : Holds (view max survived) false := .inl h
      exact ⟨.inl ⟨(hpub _ hh).2.2 h, hdata ▸ (hpub _ hh).2.1⟩,
        fun p c o ho => hdata ▸ honly _ hh p c o ho⟩

/-- A blank device with an idle supply. -/
def blankDevice : Device := ⟨fun _ => blank, []⟩

theorem view_blank : view max blankDevice = .empty :=
  viewOf_empty.2 ⟨scanPage_blank false, scanPage_blank false⟩

/-- A first record is written and found; after a second replacement one of the two is. -/
theorem replace_atomic_second : ∃ s : State,
    (load 128 s .accepted 128).2.1 = some [1] ∧
    ((load 128 (reset (survivor (replace 128 s .accepted [2] 1 0))) .accepted 128).2.1 = some [1] ∨
      (load 128 (reset (survivor (replace 128 s .accepted [2] 1 0))) .accepted 128).2.1 = some [2]) := by
  obtain ⟨s, hs, -⟩ := @replace_idle 128 (reset blankDevice) [1] 1 rfl (coherent_reset _) rfl (by decide)
    (by decide) (by decide) (by decide) (.inl view_blank) (by simp [reset, view_blank, base])
    (by simp [reset, view_blank, target, coldStatus, eraseLimit])
  have hreach : Reachable 128 s := .replace _ _ _ _ _ _ _ (.reset blankDevice) hs
  have hcases := @replace_cases 128 (reset blankDevice) .accepted [1] 1 0 (by decide) rfl (coherent_reset _)
  have hload : (load 128 s .accepted 128).2.1 = some [1] := by
    obtain ⟨r, t, ht, -, -, -, hr, -⟩ | ⟨hrep, hb, -, -, -, hres⟩ := hcases
    · rw [hs] at ht
      cases ht
      exact absurd rfl hr
    · obtain ⟨-, -, hcom, hco⟩ | ⟨-, hfail⟩ := hres _ _ hs
      · have hv := committed_view hrep hb hcom
        have hr := (load_room s 128 hcom.fault hco (by decide) (by decide) _ (.inl hv)).2.1
        rw [record_written hcom.written (by decide) (by decide)] at hr
        exact hr
      · obtain h | h := hfail <;> cases h
  exact ⟨s, hload, ((replace_atomic .plain s hreach 128 .accepted [2] 1 0).1 [1] hload).2.1⟩

end NvRecord
