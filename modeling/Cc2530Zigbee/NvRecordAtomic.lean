import Cc2530Zigbee.NvRecordPages

/-!
# The journal is atomic across power cuts

The selection is a function of the two pages. A replacement rewrites only the
page that is not selected, so whatever command it stops in, the next selection
is the old record or the new one.
-/
namespace NvRecord

open Octets Flash

/-- The selection as a value: which page, and whether the other one is sound. -/
inductive View where
  | empty : View
  | clean : Bool → View
  | degraded : Bool → View
  | refused : Result → View
  deriving DecidableEq, Repr

def viewPick (scans : Bool → Scanned) (b : Bool) : View :=
  if (scans !b).state ≠ .valid ∧ (scans !b).state ≠ .empty then .degraded b else .clean b

def viewOf (scans : Bool → Scanned) : View :=
  if (scans false).state = .unsupported ∨ (scans true).state = .unsupported then .refused .unsupported
  else if (scans false).state ≠ .valid ∧ (scans true).state ≠ .valid then
    if (scans false).state = .empty ∧ (scans true).state = .empty then .empty else .refused .corrupt
  else if (scans false).state = .valid ∧ (scans true).state = .valid then
    if (scans (newer scans)).generation = 0 ∨
        (scans (newer scans)).generation - (scans !(newer scans)).generation ≠ 1 then .refused .conflict
    else viewPick scans (newer scans)
  else viewPick scans (decide ((scans true).state = .valid))

variable (max : Nat)

def scans (d : Device) (b : Bool) : Scanned := scanPage max false (d.page b)

def view (d : Device) : View := viewOf (scans max d)

/-- The diagnostic after a selection. -/
def viewStatus (d : Device) (st : Status) : View → Result × Status
  | .empty => (.empty, { st with pages := fun b => (scans max d b).state })
  | .refused r => (r, { st with pages := fun b => (scans max d b).state })
  | .clean b => (.ok, { st with
      pages := fun b => (scans max d b).state, selected := some b,
      length := (scans max d b).length, generation := (scans max d b).generation })
  | .degraded b => (.recovered, { st with
      pages := fun b => (scans max d b).state, selected := some b,
      length := (scans max d b).length, generation := (scans max d b).generation, recovered := true })

theorem selectRecord_view (d : Device) (st : Status) :
    selectRecord max d st = viewStatus max d st (view max d) := by
  unfold selectRecord view viewOf
  simp only [← scans.eq_def, ne_eq]
  split
  · rfl
  · split
    · split <;> simp_all [viewStatus]
    · split
      · split
        · rfl
        · unfold viewPick; split <;> simp_all [viewStatus]
      · unfold viewPick; split <;> simp_all [viewStatus]

/-! How one rewritten page moves the selection. -/

variable {max}

/-- The page with the selected record, sound neighbour or not. -/
def Holds (v : View) (b : Bool) : Prop := v = .clean b ∨ v = .degraded b

theorem viewPick_holds (sc : Bool → Scanned) (b : Bool) : Holds (viewPick sc b) b := by
  unfold viewPick Holds
  split <;> simp

theorem viewOf_holds_valid {sc : Bool → Scanned} {b : Bool} (h : Holds (viewOf sc) b) :
    (sc b).state = .valid := by
  unfold viewOf viewPick Holds at h
  cases b <;> grind

theorem viewOf_holds_supported {sc : Bool → Scanned} {b : Bool} (h : Holds (viewOf sc) b) (c : Bool) :
    (sc c).state ≠ .unsupported := by
  unfold viewOf Holds at h
  cases c <;> grind

/-- A neighbour that is not valid never takes the selection away. -/
theorem viewOf_invalid {sc : Bool → Scanned} {b : Bool} (hb : (sc b).state = .valid)
    (hn : (sc !b).state ≠ .valid) (hu : (sc !b).state ≠ .unsupported) : Holds (viewOf sc) b := by
  have hp := viewPick_holds sc b
  unfold viewOf
  cases b <;> simp_all

/-- A valid neighbour of the next generation takes it. -/
theorem viewOf_newer {sc : Bool → Scanned} {b : Bool} (hb : (sc b).state = .valid)
    (hn : (sc !b).state = .valid) (hg : (sc !b).generation = (sc b).generation + 1)
    (hm : (sc b).generation ≠ 0xFFFFFFFF) : viewOf sc = .clean (!b) := by
  have hlt : (sc b).generation < (sc b).generation + 1 := by
    have h := (sc b).generation.toNat_lt
    have hm' : (sc b).generation.toNat ≠ 4294967295 := fun he => hm (UInt32.toNat_inj.1 he)
    rw [UInt32.lt_iff_toNat_lt, UInt32.toNat_add]
    simp only [UInt32.reduceToNat]
    omega
  have hz : (sc b).generation + 1 ≠ 0 := by
    intro he
    rw [he] at hlt
    exact absurd hlt (by simp)
  have hs : (sc b).generation + 1 - (sc b).generation = 1 := by grind
  have hle : ¬ (sc b).generation + 1 < (sc b).generation := by
    rw [UInt32.lt_iff_toNat_lt] at hlt ⊢
    omega
  have hw : newer sc = !b := by
    cases b <;> simp only [newer, Bool.not_false, Bool.not_true] at hg ⊢ <;> simp only [hg]
    · exact decide_eq_true hlt
    · exact decide_eq_false hle
  unfold viewOf viewPick
  rw [hw]
  cases b <;> simp_all

theorem viewOf_empty {sc : Bool → Scanned} :
    viewOf sc = .empty ↔ (sc false).state = .empty ∧ (sc true).state = .empty := by
  unfold viewOf viewPick
  grind

/-- With nothing valid and nothing unsupported there is nothing to select. -/
theorem viewOf_none {sc : Bool → Scanned} (h : ∀ b, (sc b).state ≠ .valid)
    (hu : ∀ b, (sc b).state ≠ .unsupported) :
    viewOf sc = .empty ∨ viewOf sc = .refused .corrupt := by
  unfold viewOf
  have := h false; have := h true; have := hu false; have := hu true
  grind

/-! Loading. -/

variable (max)

/-- The octets of the record on one page. -/
def record (d : Device) (b : Bool) : Bytes :=
  (List.range (scans max d b).length.toNat).map (scanPage max true (d.page b)).stage

/-- What a load says of a selection. -/
def answer (d : Device) (capacity : UInt8) : View → Result × Option Bytes
  | .empty => (.empty, none)
  | .refused r => (r, none)
  | .clean b => if capacity < (scans max d b).length then (.noSpace, none) else (.ok, some (record max d b))
  | .degraded b =>
    if capacity < (scans max d b).length then (.noSpace, none) else (.recovered, some (record max d b))

/-- The diagnostic names the record on page `b`. -/
def Names (st : Status) (d : Device) (b : Bool) : Prop :=
  st.selected = some b ∧ st.generation = (scans max d b).generation ∧ st.length = (scans max d b).length

/-- A kept selection is the one a full scan would make. -/
def Coherent (s : State) : Prop :=
  known s.status = true → ∃ b, view max s.device = .clean b ∧ Names max s.status s.device b

variable {max}

theorem coherent_reset (d : Device) : Coherent max (reset d) := by
  intro h
  simp [known, reset, coldStatus] at h

theorem agrees_scans {d : Device} {b : Bool} {st : Status} (hv : (scans max d b).state = .valid)
    (hg : st.generation = (scans max d b).generation) (hl : st.length = (scans max d b).length) :
    agrees (scanPage max true (d.page b)) st := by
  obtain ⟨h1, h2, h3⟩ := @scanPage_capture max (d.page b)
  exact ⟨h1.trans hv, h2.trans hg.symm, h3.trans hl.symm⟩

/-- What a load leaves: the answer of the present selection, and a cache that
describes it. -/
structure Loads (max : Nat) (s : State) (capacity : UInt8) (r : Result × Option Bytes × State) : Prop where
  result : (r.1, r.2.1) = answer max s.device capacity (view max s.device)
  device : r.2.2.device = s.device
  fault : r.2.2.fault = s.fault
  attempts : r.2.2.status.eraseAttempts = s.status.eraseAttempts
  coherent : Coherent max r.2.2
  names : ∀ b, Holds (view max s.device) b → r.2.1.isSome → Names max r.2.2.status s.device b

theorem publish_loads (s : State) (capacity : UInt8) (b : Bool) (r : Result) (sc : Scanned)
    (hn : Names max s.status s.device b) (hr : r = .ok ∨ r = .recovered)
    (hv : view max s.device = if s.status.recovered then .degraded b else .clean b)
    (hrec : s.status.recovered = true ↔ r = .recovered) (hc : ¬ capacity < (scans max s.device b).length)
    (hs : sc.stage = (scanPage max true (s.device.page b)).stage) :
    Loads max s capacity (publish s sc r) := by
  have hb : (List.range s.status.length.toNat).map sc.stage = record max s.device b := by
    rw [record, hs, hn.2.2]
  obtain rfl | rfl := hr
  · have hf : s.status.recovered = false := by simpa using hrec
    rw [hf, if_neg (by simp)] at hv
    refine ⟨by simp [publish, finish, answer, hv, hc, hb], rfl, rfl, rfl, fun _ => ⟨b, hv, hn⟩, ?_⟩
    rintro c (h | h) - <;> rw [hv] at h <;> cases h
    exact hn
  · have ht : s.status.recovered = true := by simpa using hrec
    rw [ht, if_pos rfl] at hv
    refine ⟨by simp [publish, finish, answer, hv, hc, hb], rfl, rfl, rfl, fun hk => ?_, ?_⟩
    · simp [known, publish, finish, ht] at hk
    rintro c (h | h) - <;> rw [hv] at h <;> cases h
    exact hn

/-- A result other than a publication never leaves a usable cache. -/
theorem silent_loads (s : State) (capacity : UInt8) (r : Result) (hr : r ≠ .ok)
    (ha : answer max s.device capacity (view max s.device) = (r, none)) :
    Loads max s capacity (silent (finish s r)) := by
  refine ⟨by simp [silent, finish, ha], rfl, rfl, rfl, fun hk => ?_, fun b _ h => ?_⟩
  · simp [known, silent, finish, hr] at hk
  · simp [silent] at h

/-- Only the device, the fault and the erase budget of the start matter. -/
theorem Loads.of_status {s : State} {st : Status} {capacity : UInt8} {r : Result × Option Bytes × State}
    (h : Loads max { s with status := st } capacity r) (ha : st.eraseAttempts = s.status.eraseAttempts) :
    Loads max s capacity r :=
  ⟨h.result, h.device, h.fault, h.attempts.trans ha, h.coherent, h.names⟩

theorem loadSelected_loads (s : State) (capacity : UInt8) (hr : s.status.recovered = false) :
    Loads max s capacity (loadSelected max s capacity) := by
  have hsel := selectRecord_view max s.device s.status
  unfold loadSelected
  rw [hsel]
  cases hv : view max s.device with
  | empty =>
    exact Loads.of_status (silent_loads _ capacity .empty (by simp)
      (by simp [hv, answer])) rfl
  | refused r =>
    have hne : r ≠ .ok ∧ r ≠ .recovered := by
      unfold view viewOf viewPick at hv
      constructor <;> rintro rfl <;> grind
    rw [viewStatus, if_pos hne]
    exact Loads.of_status (silent_loads _ capacity r hne.1 (by simp [hv, answer])) rfl
  | clean b =>
    have hval := viewOf_holds_valid (.inl hv : Holds (viewOf (scans max s.device)) b)
    rw [viewStatus, if_neg (by simp)]
    split
    · rename_i hc
      exact Loads.of_status (silent_loads _ capacity .noSpace (by simp)
        (by simp only [hv, answer]; exact if_pos hc)) rfl
    · rename_i hc
      simp only
      rw [if_neg (not_not_intro (agrees_scans hval rfl rfl))]
      exact Loads.of_status (publish_loads _ capacity b .ok _ ⟨rfl, rfl, rfl⟩ (.inl rfl)
        (by simp [setPage, hr, hv]) (by simp [setPage, hr]) hc rfl) rfl
  | degraded b =>
    have hval := viewOf_holds_valid (.inr hv : Holds (viewOf (scans max s.device)) b)
    rw [viewStatus, if_neg (by simp)]
    split
    · rename_i hc
      exact Loads.of_status (silent_loads _ capacity .noSpace (by simp)
        (by simp only [hv, answer]; exact if_pos hc)) rfl
    · rename_i hc
      simp only
      rw [if_neg (not_not_intro (agrees_scans hval rfl rfl))]
      exact Loads.of_status (publish_loads _ capacity b .recovered _ ⟨rfl, rfl, rfl⟩ (.inr rfl)
        (by simp [setPage, hv]) (by simp [setPage]) hc rfl) rfl

/-- Every admitted load answers for the present flash, cached or not. -/
theorem load_loads (s : State) (capacity : UInt8) (hf : s.fault = none) (hc : Coherent max s)
    (h0 : capacity ≠ 0) : Loads max s capacity (load max s .accepted capacity) := by
  obtain ⟨fault, st, d⟩ := s
  obtain rfl : fault = none := hf
  simp only [load, resume, reduceCtorEq, h0, or_self, if_false]
  by_cases hk : known st = true
  · obtain ⟨b, hv, hsel, hg, hl⟩ := hc hk
    have hval := viewOf_holds_valid (.inl hv : Holds (viewOf (scans max d)) b)
    simp only at hsel hg hl
    simp only [if_pos hk, hsel]
    split
    · rename_i hcap
      exact Loads.of_status (silent_loads _ capacity .noSpace (by simp)
        (by simp only [hv, answer]; exact if_pos (hl ▸ hcap))) rfl
    · rename_i hcap
      split
      · exact Loads.of_status (publish_loads _ capacity b .ok _ ⟨rfl, hg, hl⟩ (.inl rfl)
          (by simp [setPage, begin, hv]) (by simp [setPage, begin]) (hl ▸ hcap) rfl) rfl
      · rename_i ha
        exact absurd (agrees_scans hval hg hl) ha
  · simp only [if_neg hk]
    exact Loads.of_status (loadSelected_loads _ capacity rfl) rfl

/-! Replacing. -/

/-- The pages that survive a call, finished or not. -/
def survivor : Except Device (Result × State) → Device
  | .error d => d
  | .ok (_, s) => s.device

/-- One page may have been rewritten, wholly or in part. -/
structure Rewritten (data : Bytes) (generation : UInt32) (b : Bool) (d d' : Device) : Prop where
  other : d'.page (!b) = d.page (!b)
  target : d'.page b = d.page b ∨ Uncommitted (d'.page b) ∨ Written data generation (d'.page b)

/-- The new record is in place and named by the diagnostic. -/
structure Committed (max : Nat) (data : Bytes) (generation : UInt32) (b : Bool) (s s' : State) : Prop where
  written : Written data generation (s'.device.page b)
  valid : (scans max s'.device b).state = .valid
  other : s'.device.page (!b) = s.device.page (!b)
  fault : s'.fault = s.fault
  names : Names max s'.status s'.device b

/-- The results a replacement latches. -/
def Failure (r : Result) : Prop := r = .writeFailed ∨ r = .corrupt

theorem uncommitted_blank : Uncommitted blank := ⟨0, by decide⟩

theorem rewrite_spec (s : State) (b : Bool) (data : Bytes) (hl : data.length ≤ 2028) :
    Rewritten data (s.status.generation + 1) b s.device (survivor (rewrite max s b data)) ∧
    ∀ r s', rewrite max s b data = .ok (r, s') →
      (r = (if s.status.recovered then .recovered else .ok) ∧
        Committed max data (s.status.generation + 1) b s s') ∨
      (s'.fault = some r ∧ Failure r) := by
  unfold rewrite
  obtain ⟨d, hd, hp, ho⟩ | ⟨d, hd, hp, ho⟩ := erase_cases s.device b
  · -- The target is erased; now the words.
    simp only [hd]
    obtain ⟨s', h, hb, hn, hf, ph, hs⟩ | ⟨d', pre, w, post, kept, h, hw, hb, hn⟩ :=
      programAll_cases { s with device := d } b (recordWrites data (s.status.generation + 1))
    · have hwr : Written data (s.status.generation + 1) (s'.device.page b) := by
        rw [hb, hp]; exact written_applied data _ hl
      have hoth : s'.device.page (!b) = s.device.page (!b) := hn.trans ho
      obtain ⟨hgen, hlen, -⟩ := @scanPage_written max _ _ _ hwr false
      simp only [h, hs]
      split
      · exact ⟨⟨hoth, .inr (.inr hwr)⟩, fun r t ht => by cases ht; exact .inr ⟨rfl, .inr rfl⟩⟩
      · rename_i hc
        refine ⟨⟨hoth, .inr (.inr hwr)⟩, fun r t ht => ?_⟩
        have hvalid : (scans max s'.device b).state = .valid := by
          by_contra hv
          exact hc (.inl hv)
        cases ht
        exact .inl ⟨rfl, hwr, hvalid, hoth, hf, ⟨rfl, hgen.symm, hlen.symm⟩⟩
    · have ht : Rewritten data (s.status.generation + 1) b s.device d' := by
        refine ⟨hn.trans ho, .inr ?_⟩
        rw [hb, hp]
        exact torn_page data _ hl pre post w kept hw
      obtain h | ⟨s', h, rfl, hf⟩ := h
      · simp only [h]
        exact ⟨ht, fun r t hr => by cases hr⟩
      · simp only [h]
        exact ⟨ht, fun r t hr => by cases hr; exact .inr ⟨hf, .inl rfl⟩⟩
  · have ht : Rewritten data (s.status.generation + 1) b s.device d := by
      refine ⟨ho, ?_⟩
      obtain hp | hp | hp := hp
      · exact .inl hp
      · exact .inr (.inl (hp ▸ uncommitted_blank))
      · exact .inr (.inl hp)
    obtain hd | hd := hd
    · simp only [hd]
      exact ⟨ht, fun r t hr => by cases hr; exact .inr ⟨rfl, .inl rfl⟩⟩
    · simp only [hd]
      exact ⟨ht, fun r t hr => by cases hr⟩

/-- The page a replacement rewrites. -/
def target : View → Bool
  | .clean b => !b
  | .degraded b => !b
  | _ => false

variable (max) in
/-- The generation a replacement counts from. -/
def base (d : Device) : View → UInt32
  | .clean b => (scans max d b).generation
  | .degraded b => (scans max d b).generation
  | _ => 0

/-- A replacement starts only from a clean, a degraded or an empty journal. -/
def Replaceable (v : View) : Prop := v = .empty ∨ ∃ b, Holds v b

theorem scans_congr {d d' : Device} {b : Bool} (h : d'.page b = d.page b) : scans max d' b = scans max d b := by
  simp only [scans, h]

theorem viewOf_first {sc : Bool → Scanned} (hb : (sc false).state = .valid)
    (hn : (sc true).state = .empty) : viewOf sc = .clean false := by
  unfold viewOf viewPick
  simp [hb, hn]

/-- A committed record is selected, and its neighbour is sound. -/
theorem committed_view {s s' : State} {data : Bytes}
    (hr : Replaceable (view max s.device)) (hm : base max s.device (view max s.device) ≠ 0xFFFFFFFF)
    (h : Committed max data (base max s.device (view max s.device) + 1) (target (view max s.device)) s s') :
    view max s'.device = .clean (target (view max s.device)) := by
  have hgen := (@scanPage_written max _ _ _ h.written false).1
  obtain hv | ⟨b, hv⟩ := hr
  · have he := viewOf_empty.1 hv
    have hoth := h.other
    have hval := h.valid
    rw [hv] at hval hoth ⊢
    exact viewOf_first hval ((congrArg Scanned.state (scans_congr hoth)).trans he.2)
  · have hvb := viewOf_holds_valid hv
    have hb : target (view max s.device) = !b ∧ base max s.device (view max s.device) =
        (scans max s.device b).generation := by
      obtain hv | hv := hv <;> rw [hv] <;> exact ⟨rfl, rfl⟩
    rw [hb.1] at h hgen ⊢
    rw [hb.2] at hm hgen
    have ho : scans max s'.device b = scans max s.device b :=
      scans_congr (by simpa using h.other)
    refine viewOf_newer ?_ h.valid ?_ ?_
    · rw [ho]; exact hvb
    · rw [ho]; exact hgen
    · rw [ho]; exact hm

/-- The diagnostic a replacement works from, fresh or kept. -/
def Selects (max : Nat) (d : Device) (r : Result) (st : Status) : View → Prop
  | .empty => r = .empty ∧ st.selected = none ∧ st.generation = 0 ∧ st.recovered = false
  | .refused q => r = q
  | .clean b => r = .ok ∧ Names max st d b ∧ st.recovered = false
  | .degraded b => r = .recovered ∧ Names max st d b ∧ st.recovered = true

theorem selectRecord_selects (d : Device) (st : Status) (hs : st.selected = none)
    (hg : st.generation = 0) (hr : st.recovered = false) :
    Selects max d (selectRecord max d st).1 (selectRecord max d st).2 (view max d) := by
  rw [selectRecord_view]
  cases view max d with
  | empty => exact ⟨rfl, hs, hg, hr⟩
  | refused r => rfl
  | clean b => exact ⟨rfl, ⟨rfl, rfl, rfl⟩, hr⟩
  | degraded b => exact ⟨rfl, ⟨rfl, rfl, rfl⟩, rfl⟩

/-- What a kept diagnostic says is what a selection would. -/
theorem resume_selects (s : State) (hc : Coherent max s) :
    Selects max s.device
      (if (resume s.status).1 then (Result.ok, (resume s.status).2)
        else selectRecord max s.device (resume s.status).2).1
      (if (resume s.status).1 then (Result.ok, (resume s.status).2)
        else selectRecord max s.device (resume s.status).2).2 (view max s.device) := by
  by_cases hk : known s.status = true
  · obtain ⟨b, hv, hn⟩ := hc hk
    simp only [resume, if_pos hk, hv]
    exact ⟨rfl, hn, rfl⟩
  · simp only [resume, if_neg hk]
    exact selectRecord_selects s.device _ rfl rfl rfl

theorem refused_ne {d : Device} {r : Result} (h : view max d = .refused r) :
    r ≠ .ok ∧ r ≠ .recovered ∧ r ≠ .empty := by
  unfold view viewOf viewPick at h
  refine ⟨?_, ?_, ?_⟩ <;> rintro rfl <;> grind

theorem finish_coherent (s : State) (r : Result) (hr : r ≠ .ok) : Coherent max (finish s r).2 := by
  intro hk
  simp [known, finish, hr] at hk

/-- Everything a replacement can do. Refused, it leaves the pages alone.
Admitted, it rewrites the target page, and either commits the new record or
latches its failure. -/
def Replaces (max : Nat) (s : State) (data : Bytes) (allow : UInt8)
    (res : Except Device (Result × State)) : Prop :=
  (∃ r s', res = .ok (r, s') ∧ s'.device = s.device ∧ s'.fault = none ∧ Coherent max s' ∧
    r ≠ .ok ∧ r ≠ .recovered) ∨
  (Replaceable (view max s.device) ∧ base max s.device (view max s.device) ≠ 0xFFFFFFFF ∧
    0 < data.length ∧ data.length ≤ max ∧
    Rewritten data (base max s.device (view max s.device) + 1) (target (view max s.device)) s.device
      (survivor res) ∧
    ∀ r s', res = .ok (r, s') →
      (r = (if ∃ b, view max s.device = .degraded b then .recovered else .ok) ∧
        (allow = 0 → r = .ok) ∧
        Committed max data (base max s.device (view max s.device) + 1) (target (view max s.device)) s s' ∧
        Coherent max s') ∨
      (s'.fault = some r ∧ Failure r))

/-- The rewrite itself, from a diagnostic that names the base generation. -/
theorem rewrite_replaces (s : State) (st : Status) (data : Bytes) (allow : UInt8) (hmax : max ≤ 2028)
    (hrep : Replaceable (view max s.device)) (hg : st.generation = base max s.device (view max s.device))
    (hm : st.generation ≠ 0xFFFFFFFF)
    (hrec : st.recovered = true ↔ ∃ b, view max s.device = .degraded b)
    (hallow : allow = 0 → st.recovered = false) (hpos : 0 < data.length) (hlen : data.length ≤ max) :
    Replaces max s data allow
      (rewrite max { s with status := st } (target (view max s.device)) data) := by
  obtain ⟨hrw, hres⟩ := @rewrite_spec max { s with status := st }
    (target (view max s.device)) data (by omega)
  simp only [hg] at hrw hres hm
  refine .inr ⟨hrep, hm, hpos, hlen, hrw, fun r t ht => ?_⟩
  obtain ⟨hr, hcom⟩ | h := hres r t ht
  · have hcom' : Committed max data (base max s.device (view max s.device) + 1)
        (target (view max s.device)) s t := ⟨hcom.written, hcom.valid, hcom.other, hcom.fault, hcom.names⟩
    have hview := committed_view hrep hm hcom'
    refine .inl ⟨?_, fun h0 => ?_, hcom', fun _ => ⟨_, hview, hcom.names⟩⟩
    · simp only [hr, hrec]
    · simp [hr, hallow h0]
  · exact .inr h

/-- The admitted part of a replacement, from a diagnostic that tells the truth. -/
theorem replaceSelected_cases (s : State) (r : Result) (st : Status) (data : Bytes) (allow : UInt8)
    (hmax : max ≤ 2028) (hf : s.fault = none) (hsel : Selects max s.device r st (view max s.device))
    (hpos : 0 < data.length) (hlen : data.length ≤ max) :
    Replaces max s data allow (replaceSelected max { s with status := st } r data allow) := by
  have reject : ∀ q, q ≠ .ok → q ≠ .recovered →
      Replaces max s data allow (.ok (finish { s with status := st } q)) := fun q h1 h2 =>
    .inl ⟨q, _, rfl, rfl, hf, finish_coherent _ _ h1, h1, h2⟩
  unfold replaceSelected
  split
  · exact reject _ (by simp) (by simp)
  · rename_i hallow
    split
    · rename_i hr
      exact reject _ hr.1 hr.2.1
    · rename_i hr
      split
      · exact reject _ (by simp) (by simp)
      · rename_i hgen
        simp only at hgen ⊢
        -- Here the selection is empty, clean or degraded, and the diagnostic names its target.
        have hfacts : Replaceable (view max s.device) ∧ inactive st.selected = target (view max s.device) ∧
            st.generation = base max s.device (view max s.device) ∧
            (st.recovered = true ↔ ∃ b, view max s.device = .degraded b) ∧
            (st.recovered = true → r = .recovered) := by
          cases hv : view max s.device with
          | empty =>
            rw [hv] at hsel
            exact ⟨.inl rfl, by rw [hsel.2.1]; rfl, hsel.2.2.1, by simp [hsel.2.2.2], by simp [hsel.2.2.2]⟩
          | refused q =>
            rw [hv] at hsel
            obtain rfl : r = q := hsel
            exact absurd (refused_ne hv) hr
          | clean b =>
            rw [hv] at hsel
            exact ⟨.inr ⟨b, .inl rfl⟩, by rw [hsel.2.1.1]; rfl, hsel.2.1.2.1, by simp [hsel.2.2],
              by simp [hsel.2.2]⟩
          | degraded b =>
            rw [hv] at hsel
            exact ⟨.inr ⟨b, .inr rfl⟩, by rw [hsel.2.1.1]; rfl, hsel.2.1.2.1, by simp [hsel.2.2],
              fun _ => hsel.1⟩
        obtain ⟨hrep, hpage, hg, hrec, hrr⟩ := hfacts
        rw [hpage]
        split
        · exact reject _ (by simp) (by simp)
        · refine rewrite_replaces s _ data allow hmax hrep hg hgen hrec (fun h0 => ?_) hpos hlen
          by_contra hne
          exact hallow ⟨hrr (by simpa using hne), h0⟩

theorem replace_cases (s : State) (pointer : Pointer) (data : Bytes) (polls : UInt16) (allow : UInt8)
    (hmax : max ≤ 2028) (hf : s.fault = none) (hc : Coherent max s) :
    Replaces max s data allow (replace max s pointer data polls allow) := by
  obtain ⟨fault, st, d⟩ := s
  obtain rfl : fault = none := hf
  have hsel := resume_selects _ hc
  simp only at hsel
  simp only [replace]
  split
  · exact .inl ⟨_, _, rfl, rfl, rfl, hc, by simp, by simp⟩
  · rename_i harg
    split
    · exact .inl ⟨_, _, rfl, rfl, rfl, hc, by simp, by simp⟩
    · generalize (if (resume st).1 then (Result.ok, (resume st).2)
        else selectRecord max d (resume st).2) = sel at hsel
      obtain ⟨r, st₁⟩ := sel
      exact replaceSelected_cases ⟨none, st, d⟩ r st₁ data allow hmax rfl hsel (by omega) (by omega)

end NvRecord
