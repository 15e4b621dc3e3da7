import Cc2530Zigbee.Runs
import Cc2530Zigbee.StreamTests

/-!
# Health tests of raw noise

`noise_health.c`: a repetition count over the whole stream and an adaptive proportion
over windows of 1024 bits, each with two counters, one octet of last value and a latched
failure. The reference tests look at the whole stream.
-/
namespace NoiseHealth

open StreamTests

inductive Result where
  | ok | invalidArgument | invalidState | rctFailure | aptFailure
  deriving DecidableEq, Repr

def window : UInt16 := 1024

def warmup : UInt8 := 1
def monitoring : UInt8 := 2
def rctFailed : UInt8 := 3
def aptFailed : UInt8 := 4

/-- `noise_health_t`. -/
structure Context where
  rctCutoff : UInt16
  aptCutoff : UInt16
  run : UInt16
  matches' : UInt16
  windowCount : UInt16
  startupRemaining : UInt16
  last : UInt8
  reference : UInt8
  state : UInt8
  deriving DecidableEq, Repr

/-- `noise_health_start`. -/
def start (rctCutoff aptCutoff : UInt16) : Except Result Context :=
  if rctCutoff < 2 ∨ aptCutoff < 2 ∨ aptCutoff > window then .error .invalidArgument
  else .ok ⟨rctCutoff, aptCutoff, 0, 0, 0, window, 0, 0, warmup⟩

/-- What the checks of a context find wrong. -/
def invalid (c : Context) : Bool :=
  (c.state ≠ warmup ∧ c.state ≠ monitoring) ∨
  c.rctCutoff < 2 ∨ c.aptCutoff < 2 ∨ c.aptCutoff > window ∨
  c.run ≥ c.rctCutoff ∨ c.last > 1 ∨ c.reference > 1 ∨
  c.windowCount ≥ window ∨ c.matches' > c.windowCount ∨
  c.matches' ≥ c.aptCutoff ∨ (c.windowCount ≠ 0 ∧ c.matches' = 0) ∨
  c.startupRemaining > window ∨
  (c.state = warmup ∧
    (c.startupRemaining = 0 ∨ c.windowCount ≠ window - c.startupRemaining ∨ c.run > c.windowCount)) ∨
  (c.state = monitoring ∧ (c.startupRemaining ≠ 0 ∨ c.run = 0))

/-- The run of the last value. -/
def repetition (c : Context) (sample : UInt8) : Context :=
  if c.run ≠ 0 ∧ sample = c.last then { c with run := c.run + 1 } else { c with last := sample, run := 1 }

/-- The matches of the first value of a window. -/
def proportion (c : Context) (sample : UInt8) : Context :=
  if c.windowCount = 0 then { c with reference := sample, matches' := 1 }
  else if sample = c.reference then { c with matches' := c.matches' + 1 }
  else c

/-- The counters behind one more sample. -/
def count (c : Context) (sample : UInt8) : Context :=
  let c := proportion (repetition c sample) sample
  let c := { c with windowCount := c.windowCount + 1 }
  if c.startupRemaining ≠ 0 then { c with startupRemaining := c.startupRemaining - 1 } else c

/-- The verdict over the counters. -/
def judge (c : Context) : Result × Context :=
  if c.run ≥ c.rctCutoff then (.rctFailure, { c with state := rctFailed })
  else if c.matches' ≥ c.aptCutoff then (.aptFailure, { c with state := aptFailed })
  else
    let c := if c.windowCount = window then { c with windowCount := 0, matches' := 0 } else c
    (.ok, if c.startupRemaining = 0 then { c with state := monitoring } else c)

/-- `noise_health_push`. -/
def push (c : Context) (sample : UInt8) : Result × Context :=
  if sample > 1 then (.invalidArgument, c)
  else if c.state = rctFailed then (.rctFailure, c)
  else if c.state = aptFailed then (.aptFailure, c)
  else if invalid c then (.invalidState, c)
  else judge (count c sample)

/-! ## The reference tests -/

/-- A stream fails one of the tests. -/
def Fails (rct apt : Nat) (h : List UInt8) : Prop := Repeats rct h ∨ Dominates window.toNat apt h

instance (rct apt : Nat) : DecidablePred (Fails rct apt) := fun _ => inferInstanceAs (Decidable (_ ∨ _))

/-- The repetition test takes precedence. -/
def failure (rct : Nat) (h : List UInt8) : Result := if Repeats rct h then .rctFailure else .aptFailure

/-- The verdict over a stream: the first prefix that fails decides. -/
def verdict (rct apt : Nat) (h : List UInt8) : Result := (firstOf (Fails rct apt) (failure rct) h).getD .ok

/-- The state that a verdict shows as. -/
def stateOf (length : Nat) : Result → UInt8
  | .rctFailure => rctFailed
  | .aptFailure => aptFailed
  | _ => if length < window.toNat then warmup else monitoring

/-! ## The counters follow the stream -/

/-- The counters of a context say what the stream holds. -/
structure Counts (rct apt : UInt16) (h : List UInt8) (c : Context) : Prop where
  rctCutoff : c.rctCutoff = rct
  aptCutoff : c.aptCutoff = apt
  run : c.run.toNat = trailing h
  last : ∀ b, h.getLast? = some b → c.last = b
  binary : c.last ≤ 1 ∧ c.reference ≤ 1
  windowCount : c.windowCount.toNat = h.length % 1024
  count : c.matches'.toNat = firstCount (current 1024 h)
  reference : ∀ b, (current 1024 h).head? = some b → c.reference = b
  startup : c.startupRemaining.toNat = 1024 - h.length
  state : c.state = if h.length < 1024 then warmup else monitoring
  runBelow : c.run < rct
  countBelow : c.matches' < apt

/-- A context behind a stream. -/
def Follows (rct apt : UInt16) (h : List UInt8) (c : Context) : Prop :=
  match firstOf (Fails rct.toNat apt.toNat) (failure rct.toNat) h with
  | none => Counts rct apt h c
  | some r => c.state = if r = .rctFailure then rctFailed else aptFailed

section Steps

variable {rct apt : UInt16} {h : List UInt8} {c : Context} {b : UInt8}

theorem Counts.valid (hc : Counts rct apt h c) (hrct : 2 ≤ rct) (hapt : 2 ≤ apt) (hmost : apt ≤ window) : invalid c = false := by
  have hwindow : window.toNat = 1024 := rfl
  have hmod := Nat.mod_lt h.length (show 0 < 1024 by decide)
  have hcount := firstCount_le (current 1024 h)
  rw [current_length, ← hc.count, ← hc.windowCount] at hcount
  have hstart := hc.startup
  have hbelow := hc.runBelow
  have hfew := hc.countBelow
  have htrail := trailing_le h
  rw [← hc.run] at htrail
  have hwc := hc.windowCount
  rw [UInt16.le_iff_toNat_le] at hrct hapt hmost
  rw [UInt16.lt_iff_toNat_lt] at hbelow hfew
  have hsome : c.windowCount ≠ 0 → c.matches' ≠ 0 := by
    intro hne hzero
    have hcur : current 1024 h ≠ [] := by
      intro hnil
      have hlen := current_length 1024 h
      rw [hnil, List.length_nil, ← hc.windowCount] at hlen
      exact hne (UInt16.toNat_inj.1 hlen.symm)
    have hpos := firstCount_pos hcur
    rw [← hc.count, hzero] at hpos
    exact absurd hpos (by decide)
  have hrun : 1024 ≤ h.length → c.run ≠ 0 := by
    intro hlong hzero
    have hpos := trailing_pos (h := h) (by intro hnil; rw [hnil] at hlong; exact absurd hlong (by decide))
    rw [← hc.run, hzero] at hpos
    exact absurd hpos (by decide)
  have hstate : (c.state = warmup ∧ h.length < 1024) ∨ (c.state = monitoring ∧ 1024 ≤ h.length) := by
    rw [hc.state]
    split
    next hshort => exact .inl ⟨rfl, hshort⟩
    next hlong => exact .inr ⟨rfl, not_lt.1 hlong⟩
  have hlong : h.length % 1024 = h.length ∨ 1024 ≤ h.length := by omega
  unfold invalid
  rw [decide_eq_false_iff_not]
  simp only [not_or, not_and, ge_iff_le, gt_iff_lt, not_lt, not_le, UInt16.lt_iff_toNat_lt, UInt16.le_iff_toNat_le,
    hc.rctCutoff, hc.aptCutoff, hwindow, Decidable.not_not]
  refine ⟨?_, hrct, hapt, hmost, hbelow, UInt8.not_lt.2 hc.binary.1, UInt8.not_lt.2 hc.binary.2, by omega, by omega, hfew, hsome, by omega, ?_, ?_⟩
  · obtain ⟨hs, -⟩ | ⟨hs, -⟩ := hstate
    · exact fun hne => absurd hs hne
    · exact fun _ => hs
  · intro hs
    obtain ⟨-, hshort⟩ | ⟨hm, -⟩ := hstate
    · refine ⟨?_, ?_, by omega⟩
      · intro hzero
        rw [hzero, UInt16.toNat_zero] at hstart
        omega
      · apply UInt16.toNat_inj.1
        rw [UInt16.toNat_sub_of_le _ _ (UInt16.le_iff_toNat_le.2 (by omega)), hwindow]
        omega
    · rw [hm] at hs
      exact absurd hs (by decide)
  · intro hs
    obtain ⟨hw, -⟩ | ⟨-, hfull⟩ := hstate
    · rw [hw] at hs
      exact absurd hs (by decide)
    · exact ⟨UInt16.toNat_inj.1 (by rw [hstart, UInt16.toNat_zero]; omega), hrun hfull⟩

/-- The counters behind one more sample, before the verdict. -/
structure Counted (rct apt : UInt16) (h : List UInt8) (b : UInt8) (c c' : Context) : Prop where
  rctCutoff : c'.rctCutoff = rct
  aptCutoff : c'.aptCutoff = apt
  run : c'.run.toNat = trailing (h ++ [b])
  last : c'.last = b
  binary : c'.reference ≤ 1
  windowCount : c'.windowCount.toNat = h.length % 1024 + 1
  count : c'.matches'.toNat = firstCount (current 1024 h ++ [b])
  reference : ∀ x, (current 1024 h ++ [b]).head? = some x → c'.reference = x
  startup : c'.startupRemaining.toNat = 1024 - (h.length + 1)
  state : c'.state = c.state

theorem Counts.repetition (hc : Counts rct apt h c) :
    ∃ run, NoiseHealth.repetition c b = { c with run := run, last := b } ∧ run.toNat = trailing (h ++ [b]) := by
  have hbelow := UInt16.lt_iff_toNat_lt.1 hc.runBelow
  have hrctlt := rct.toNat_lt
  unfold NoiseHealth.repetition
  rw [trailing_snoc]
  cases hl : h.getLast? with
  | none =>
    have hzero : c.run = 0 := UInt16.toNat_inj.1 (by rw [hc.run, List.getLast?_eq_none_iff.1 hl]; rfl)
    exact ⟨1, by simp [hzero], rfl⟩
  | some x =>
    have hne : h ≠ [] := by rintro rfl; cases hl
    have hpos := trailing_pos hne
    rw [← hc.run] at hpos ⊢
    have hnz : c.run ≠ 0 := fun hzero => by rw [hzero] at hpos; exact absurd hpos (by decide)
    have hlast := hc.last x hl
    by_cases hx : x = b
    · subst hx
      refine ⟨c.run + 1, ?_, ?_⟩
      · rw [if_pos ⟨hnz, hlast.symm⟩, ← hlast]
      · rw [if_pos rfl, UInt16.toNat_add]
        simp only [UInt16.reduceToNat]
        omega
    · refine ⟨1, ?_, ?_⟩
      · rw [if_neg (by rintro ⟨-, hsame⟩; exact hx (hlast.symm.trans hsame.symm))]
      · rw [if_neg (by simpa using hx)]
        rfl

theorem Counts.proportion (hc : Counts rct apt h c) (run : UInt16) :
    ∃ count reference, NoiseHealth.proportion { c with run := run, last := b } b =
        { c with run := run, last := b, matches' := count, reference := reference } ∧
      count.toNat = firstCount (current 1024 h ++ [b]) ∧ (∀ x, (current 1024 h ++ [b]).head? = some x → reference = x) ∧
      (reference = b ∨ reference = c.reference) := by
  have hfew := UInt16.lt_iff_toNat_lt.1 hc.countBelow
  have haptlt := apt.toNat_lt
  have hlen := current_length 1024 h
  unfold NoiseHealth.proportion
  rw [firstCount_snoc, ← hc.count]
  cases hcur : current 1024 h with
  | nil =>
    rw [hcur, List.length_nil, ← hc.windowCount] at hlen
    have hzero : c.windowCount = 0 := UInt16.toNat_inj.1 hlen.symm
    exact ⟨1, b, by simp [hzero], by simp, by simp, .inl rfl⟩
  | cons x l =>
    rw [hcur, ← hc.windowCount] at hlen
    have hnz : c.windowCount ≠ 0 := by
      intro hzero
      rw [hzero] at hlen
      exact absurd hlen (by simp)
    have hreference := hc.reference x (by rw [hcur]; rfl)
    by_cases hx : x = b
    · subst hx
      refine ⟨c.matches' + 1, c.reference, ?_, ?_, by simpa using hreference, .inr rfl⟩
      · rw [if_neg (by simpa using hnz), if_pos (by simpa using hreference.symm)]
      · simp only [List.cons_ne_nil, if_false, List.head?_cons, if_true, UInt16.toNat_add]
        simp only [UInt16.reduceToNat]
        omega
    · refine ⟨c.matches', c.reference, ?_, ?_, by simpa using hreference, .inr rfl⟩
      · rw [if_neg (by simpa using hnz), if_neg (fun hsame => hx (hreference.symm.trans hsame.symm))]
      · simp [hx]

theorem Counts.counted (hc : Counts rct apt h c) (hb : b ≤ 1) : Counted rct apt h b c (NoiseHealth.count c b) := by
  have hmod := Nat.mod_lt h.length (show 0 < 1024 by decide)
  obtain ⟨run, hrepetition, hrun⟩ := hc.repetition (b := b)
  obtain ⟨count, reference, hproportion, hcount, hreference, hold⟩ := hc.proportion (b := b) run
  have hwc := hc.windowCount
  have hstart := hc.startup
  have hbinary : reference ≤ 1 := by
    obtain rfl | rfl := hold
    · exact hb
    · exact hc.binary.2
  have hnext : (c.windowCount + 1).toNat = h.length % 1024 + 1 := by
    rw [UInt16.toNat_add]
    simp only [UInt16.reduceToNat]
    omega
  unfold NoiseHealth.count
  rw [hrepetition, hproportion]
  simp only
  split
  next hleft =>
    have hone : 1 ≤ c.startupRemaining.toNat := by
      by_contra hzero
      exact hleft (UInt16.toNat_inj.1 (by rw [UInt16.toNat_zero]; omega))
    have hless : (c.startupRemaining - 1).toNat = 1024 - (h.length + 1) := by
      rw [UInt16.toNat_sub_of_le _ 1 (UInt16.le_iff_toNat_le.2 hone), hstart]
      rfl
    exact ⟨hc.rctCutoff, hc.aptCutoff, hrun, rfl, hbinary, hnext, hcount, hreference, hless, rfl⟩
  next hdone =>
    rw [Decidable.not_not] at hdone
    rw [hdone, UInt16.toNat_zero] at hstart
    exact ⟨hc.rctCutoff, hc.aptCutoff, hrun, rfl, hbinary, hnext, hcount, hreference,
      by rw [hdone, UInt16.toNat_zero]; omega, rfl⟩

/-- The verdict passes a sample: the counters of the stream begin a new window when one is
full, and the first full one ends the warm-up. -/
theorem Counts.passed {c' : Context} (hc : Counts rct apt h c) (hb : b ≤ 1) (hapt : 2 ≤ apt)
    (h' : Counted rct apt h b c c') (hrun : c'.run < rct) (hcount : c'.matches' < apt) :
    (judge c').1 = .ok ∧ Counts rct apt (h ++ [b]) (judge c').2 := by
  have hwindow : window.toNat = 1024 := rfl
  have hmod := Nat.mod_lt h.length (show 0 < 1024 by decide)
  have hlength : (h ++ [b]).length = h.length + 1 := by simp
  have hsplit : judge c' = (.ok,
      let full := if c'.windowCount = window then { c' with windowCount := 0, matches' := 0 } else c'
      if full.startupRemaining = 0 then { full with state := monitoring } else full) := by
    unfold judge
    rw [if_neg (by rw [h'.rctCutoff, ge_iff_le, UInt16.not_le]; exact hrun),
      if_neg (by rw [h'.aptCutoff, ge_iff_le, UInt16.not_le]; exact hcount)]
  rw [hsplit]
  refine ⟨rfl, ?_⟩
  simp only
  -- the window is full, or it goes on
  obtain ⟨full, hfull, hcounts, hcurrent, hreference⟩ :
      ∃ full, (if c'.windowCount = window then { c' with windowCount := 0, matches' := 0 } else c') = full ∧
        full = { c' with windowCount := full.windowCount, matches' := full.matches' } ∧
        (full.windowCount.toNat = (h.length + 1) % 1024 ∧ full.matches'.toNat = firstCount (current 1024 (h ++ [b])) ∧
          full.matches' < apt) ∧
        ∀ x, (current 1024 (h ++ [b])).head? = some x → c'.reference = x := by
    have hcurrent := current_snoc (show 0 < 1024 by decide) h b
    split
    next hend =>
      have hlast : h.length % 1024 + 1 = 1024 := by rw [← h'.windowCount, hend, hwindow]
      rw [if_pos hlast] at hcurrent
      rw [hcurrent]
      refine ⟨_, rfl, rfl, ⟨?_, rfl, ?_⟩, fun _ hn => by cases hn⟩
      · rw [UInt16.toNat_zero]
        omega
      · exact UInt16.lt_of_lt_of_le (show (0 : UInt16) < 2 by decide) hapt
    next hpart =>
      have hmore : h.length % 1024 + 1 ≠ 1024 := by
        intro hlast
        exact hpart (UInt16.toNat_inj.1 (by rw [h'.windowCount, hlast, hwindow]))
      rw [if_neg hmore] at hcurrent
      rw [hcurrent]
      exact ⟨_, rfl, rfl, ⟨by rw [h'.windowCount]; omega, h'.count, hcount⟩, h'.reference⟩
  rw [hfull, hcounts]
  have hlast : ∀ x, (h ++ [b]).getLast? = some x → c'.last = x := by
    intro x hx
    rw [List.getLast?_concat, Option.some.injEq] at hx
    exact h'.last.trans hx
  have hstartup : c'.startupRemaining.toNat = 1024 - (h ++ [b]).length := by rw [hlength, h'.startup]
  have hbinary : c'.last ≤ 1 ∧ c'.reference ≤ 1 := ⟨by rw [h'.last]; exact hb, h'.binary⟩
  simp only
  split
  next hzero =>
    rw [hzero, UInt16.toNat_zero] at hstartup
    exact ⟨h'.rctCutoff, h'.aptCutoff, h'.run, hlast, hbinary, by rw [hlength]; exact hcurrent.1, hcurrent.2.1, hreference,
      by rw [hzero]; exact hstartup, by rw [if_neg (by omega)], hrun, hcurrent.2.2⟩
  next hwarm =>
    have hshort : (h ++ [b]).length < 1024 := by
      by_contra hlong
      exact hwarm (UInt16.toNat_inj.1 (by rw [hstartup, UInt16.toNat_zero]; omega))
    have hstate := hc.state
    rw [if_pos (by omega)] at hstate
    exact ⟨h'.rctCutoff, h'.aptCutoff, h'.run, hlast, hbinary, by rw [hlength]; exact hcurrent.1, hcurrent.2.1, hreference,
      hstartup, by rw [if_pos hshort]; exact h'.state.trans hstate, hrun, hcurrent.2.2⟩

theorem failure_cases (rct : Nat) (h : List UInt8) : failure rct h = .rctFailure ∨ failure rct h = .aptFailure := by
  unfold failure
  split
  · exact .inl rfl
  · exact .inr rfl

/-- One sample: the verdict is that of the reference tests, and the context follows. -/
theorem push_follows (hrct : 2 ≤ rct) (hapt : 2 ≤ apt) (hmost : apt ≤ window) (hc : Follows rct apt h c) (hb : b ≤ 1) :
    (push c b).1 = verdict rct.toNat apt.toNat (h ++ [b]) ∧ Follows rct apt (h ++ [b]) (push c b).2 := by
  have hbit : ¬ b > 1 := UInt8.not_lt.2 hb
  unfold Follows verdict at *
  rw [firstOf_snoc]
  cases hfirst : firstOf (Fails rct.toNat apt.toNat) (failure rct.toNat) h with
  | some r =>
    rw [hfirst] at hc
    have hr : r = .rctFailure ∨ r = .aptFailure := by
      obtain ⟨p, -, rfl⟩ := Option.map_eq_some_iff.1 hfirst
      exact failure_cases _ p
    unfold push
    rw [if_neg hbit]
    obtain rfl | rfl := hr
    · have hstate : c.state = rctFailed := hc
      exact ⟨by rw [if_pos hstate]; rfl, by rw [if_pos hstate]; exact hc⟩
    · have hstate : c.state = aptFailed := hc
      have hnot : c.state ≠ rctFailed := by rw [hstate]; decide
      exact ⟨by rw [if_neg hnot, if_pos hstate]; rfl, by rw [if_neg hnot, if_pos hstate]; exact hc⟩
  | none =>
    rw [hfirst] at hc
    have hgood := good_of_firstOf hfirst
    obtain ⟨hfew, hfits⟩ := not_or.1 hgood
    have hcounted := hc.counted hb
    have hwarm : c.state ≠ rctFailed ∧ c.state ≠ aptFailed := by
      rw [hc.state]
      split <;> decide
    have hpush : push c b = judge (NoiseHealth.count c b) := by
      unfold push
      rw [if_neg hbit, if_neg hwarm.1, if_neg hwarm.2, if_neg (by rw [hc.valid hrct hapt hmost]; nofun)]
    have hrct' : 0 < rct.toNat := Nat.lt_of_lt_of_le (by decide) (UInt16.le_iff_toNat_le.1 hrct)
    have hapt' : 0 < apt.toNat := Nat.lt_of_lt_of_le (by decide) (UInt16.le_iff_toNat_le.1 hapt)
    have hrepeats : Repeats rct.toNat (h ++ [b]) ↔ rct ≤ (NoiseHealth.count c b).run := by
      rw [repeats_snoc hrct', UInt16.le_iff_toNat_le, hcounted.run]
      exact or_iff_right hfew
    have hdominates : Dominates window.toNat apt.toNat (h ++ [b]) ↔ apt ≤ (NoiseHealth.count c b).matches' := by
      rw [dominates_snoc (show 0 < window.toNat by decide) hapt' h b hfits, UInt16.le_iff_toNat_le, hcounted.count]
      rfl
    rw [hpush]
    by_cases hrun : rct ≤ (NoiseHealth.count c b).run
    · have hfail : failure rct.toNat (h ++ [b]) = .rctFailure := if_pos (hrepeats.2 hrun)
      have hjudge : judge (NoiseHealth.count c b) = (.rctFailure, { NoiseHealth.count c b with state := rctFailed }) := by
        unfold judge
        rw [if_pos (by rw [hcounted.rctCutoff]; exact hrun)]
      rw [hjudge, if_pos (.inl (hrepeats.2 hrun)), hfail]
      exact ⟨rfl, rfl⟩
    · by_cases hcount : apt ≤ (NoiseHealth.count c b).matches'
      · have hfail : failure rct.toNat (h ++ [b]) = .aptFailure := if_neg (fun hr => hrun (hrepeats.1 hr))
        have hjudge : judge (NoiseHealth.count c b) = (.aptFailure, { NoiseHealth.count c b with state := aptFailed }) := by
          unfold judge
          rw [if_neg (by rw [hcounted.rctCutoff]; exact hrun), if_pos (by rw [hcounted.aptCutoff]; exact hcount)]
        rw [hjudge, if_pos (.inr (hdominates.2 hcount)), hfail]
        exact ⟨rfl, rfl⟩
      · rw [if_neg (by rintro (hr | hd); exacts [hrun (hrepeats.1 hr), hcount (hdominates.1 hd)])]
        exact hc.passed hb hapt hcounted (UInt16.not_le.1 hrun) (UInt16.not_le.1 hcount)

end Steps

theorem start_follows {rct apt : UInt16} {c : Context} (h : start rct apt = .ok c) :
    2 ≤ rct ∧ 2 ≤ apt ∧ apt ≤ window ∧ Follows rct apt [] c := by
  unfold start at h
  split at h
  · cases h
  next hgood =>
    simp only [not_or, UInt16.not_lt, gt_iff_lt] at hgood
    obtain ⟨hrct, hapt, hmost⟩ := hgood
    cases h
    refine ⟨hrct, hapt, hmost, ?_⟩
    have hrct' := UInt16.le_iff_toNat_le.1 hrct
    have hapt' := UInt16.le_iff_toNat_le.1 hapt
    have hnone : firstOf (Fails rct.toNat apt.toNat) (failure rct.toNat) [] = none := by
      simp [firstOf, Fails, Repeats, Dominates]
    unfold Follows
    rw [hnone]
    exact ⟨rfl, rfl, rfl, (fun _ hn => by cases hn), ⟨show (0 : UInt8) ≤ 1 by decide, show (0 : UInt8) ≤ 1 by decide⟩, rfl,
      rfl, (fun _ hn => by cases hn), rfl, rfl,
      UInt16.lt_of_lt_of_le (show (0 : UInt16) < 2 by decide) hrct,
      UInt16.lt_of_lt_of_le (show (0 : UInt16) < 2 by decide) hapt⟩

/-- The bits that were pushed. -/
def bits (samples : List UInt8) : List UInt8 := samples.filter (· ≤ 1)

theorem bits_snoc (samples : List UInt8) (b : UInt8) :
    bits (samples ++ [b]) = if b ≤ 1 then bits samples ++ [b] else bits samples := by
  unfold bits
  rw [List.filter_append]
  split
  next hb => rw [List.filter_cons_of_pos (by simpa using hb), List.filter_nil]
  next hb => rw [List.filter_cons_of_neg (by simpa using hb), List.filter_nil, List.append_nil]

theorem push_invalid {c : Context} {b : UInt8} (hb : ¬ b ≤ 1) : push c b = (.invalidArgument, c) :=
  if_pos (UInt8.not_le.1 hb)

theorem run_follows {rct apt : UInt16} {c : Context} (h : start rct apt = .ok c) (samples : List UInt8) :
    Follows rct apt (bits samples) (Runs.run push c samples).2 := by
  obtain ⟨hrct, hapt, hmost, hstart⟩ := start_follows h
  induction samples using List.reverseRecOn with
  | nil => exact hstart
  | append_singleton samples b ih =>
    rw [Runs.run_append, bits_snoc]
    simp only [Runs.run]
    split
    next hb => exact (push_follows hrct hapt hmost ih hb).2
    next hb =>
      rw [push_invalid hb]
      exact ih

theorem verdict_cases (rct apt : Nat) (h : List UInt8) :
    verdict rct apt h = .ok ∨ verdict rct apt h = .rctFailure ∨ verdict rct apt h = .aptFailure := by
  unfold verdict
  cases hfirst : firstOf (Fails rct apt) (failure rct) h with
  | none => exact .inl rfl
  | some r =>
    obtain ⟨p, -, rfl⟩ := Option.map_eq_some_iff.1 hfirst
    exact .inr (failure_cases rct p)

/-- What a state shows of a stream. -/
theorem Follows.state {rct apt : UInt16} {h : List UInt8} {c : Context} (hc : Follows rct apt h c) :
    c.state = stateOf h.length (verdict rct.toNat apt.toNat h) := by
  unfold Follows at hc
  unfold verdict
  cases hfirst : firstOf (Fails rct.toNat apt.toNat) (failure rct.toNat) h with
  | none =>
    rw [hfirst] at hc
    exact hc.state
  | some r =>
    rw [hfirst] at hc
    obtain ⟨p, -, rfl⟩ := Option.map_eq_some_iff.1 hfirst
    obtain hr | hr := failure_cases rct.toNat p
    · simp only [hr] at hc ⊢
      exact hc
    · simp only [hr] at hc ⊢
      exact hc

/-- After every stream the next verdict is that of the reference tests over the whole
stream, where the first failure decides; the state shows it, monitoring from the first
full window on, and no state is ever invalid. -/
theorem verdict_reference (rct apt : UInt16) (c : Context) (hstart : start rct apt = .ok c) (samples : List UInt8)
    (sample : UInt8) :
    let r := push (Runs.run push c samples).2 sample
    let stream := bits (samples ++ [sample])
    r.1 = (if sample ≤ 1 then verdict rct.toNat apt.toNat stream else .invalidArgument) ∧
      r.2.state = stateOf stream.length (verdict rct.toNat apt.toNat stream) ∧
      (r.2.state = monitoring ↔ verdict rct.toNat apt.toNat stream = .ok ∧ 1024 ≤ stream.length) ∧
      r.1 ≠ .invalidState := by
  intro r stream
  obtain ⟨hrct, hapt, hmost, -⟩ := start_follows hstart
  have hbefore := run_follows hstart samples
  have hafter : Follows rct apt stream r.2 := by
    have hrun := run_follows hstart (samples ++ [sample])
    rwa [Runs.run_append] at hrun
  have hresult : r.1 = (if sample ≤ 1 then verdict rct.toNat apt.toNat stream else .invalidArgument) := by
    split
    next hb =>
      have hstream : stream = bits samples ++ [sample] := (bits_snoc samples sample).trans (if_pos hb)
      rw [hstream]
      exact (push_follows hrct hapt hmost hbefore hb).1
    next hb => exact congrArg Prod.fst (push_invalid hb)
  refine ⟨hresult, hafter.state, ?_, ?_⟩
  · rw [hafter.state]
    obtain hv | hv | hv := verdict_cases rct.toNat apt.toNat stream
    · rw [hv]
      have hwindow : window.toNat = 1024 := rfl
      simp only [stateOf, hwindow, true_and]
      split
      next hshort => exact ⟨fun h => absurd h (by decide), fun h => absurd hshort (not_lt.2 h)⟩
      next hlong => exact ⟨fun _ => not_lt.1 hlong, fun _ => rfl⟩
    · rw [hv]
      exact ⟨fun h => absurd (show rctFailed = monitoring from h) (by decide), fun h => absurd h.1 (by decide)⟩
    · rw [hv]
      exact ⟨fun h => absurd (show aptFailed = monitoring from h) (by decide), fun h => absurd h.1 (by decide)⟩
  · rw [hresult]
    split
    · obtain hv | hv | hv := verdict_cases rct.toNat apt.toNat stream <;> rw [hv] <;> nofun
    · nofun

/-- The third one in a row fails the repetition test. -/
theorem verdict_reference_run :
    ∃ c, start 3 1024 = .ok c ∧ (push (Runs.run push c [0, 1, 1]).2 1).1 = verdict 3 1024 (bits ([0, 1, 1] ++ [1])) :=
  ⟨_, rfl, (verdict_reference 3 1024 _ rfl [0, 1, 1] 1).1⟩

example : (push (Runs.run push ⟨3, 1024, 0, 0, 0, 1024, 0, 0, warmup⟩ [0, 1, 1]).2 1).1 = .rctFailure := by decide

end NoiseHealth
