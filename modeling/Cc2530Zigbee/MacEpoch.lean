import Cc2530Zigbee.Runs
import Mathlib.Tactic

/-!
# The MAC epoch

The hardware timer counts 512 fine ticks to a period and wraps its period count
at `0xFFFFFF`. An epoch extends these raw samples to a 32-bit symbol count, as
long as two samples lie less than half a raw revolution apart. A projection
places a captured sample between two others.
-/
namespace MacEpoch

/-- A raw timer sample. -/
structure Raw where
  fine : UInt16
  periods : UInt32
  deriving DecidableEq, Repr

/-- An extended coordinate. -/
structure Stamp where
  symbols : UInt32
  fine : UInt16
  deriving DecidableEq, Repr

/-- Any other value of the state octet is `blank`. -/
inductive State where
  | blank | ready | fault
  deriving DecidableEq, Repr

structure Epoch where
  periods : UInt32
  symbols : UInt32
  fine : UInt16
  state : State
  deriving DecidableEq, Repr

inductive Result where
  | ok | invalidArgument | invalidState | timeError
  deriving DecidableEq, Repr

def finePeriod : UInt16 := 512

def overflowPeriod : UInt32 := 0xFFFFFF

def valid (raw : Raw) : Bool :=
  raw.fine < finePeriod && raw.periods < overflowPeriod

def start (ctx : Epoch) (raw : Raw) (symbols : UInt32) : Result × Epoch :=
  if !valid raw then (.invalidArgument, ctx)
  else (.ok, { periods := raw.periods, symbols := symbols, fine := raw.fine, state := .ready })

/-- Periods from the stored sample forward to the raw one. -/
def periodsSince (ctx : Epoch) (raw : Raw) : UInt32 :=
  if ctx.periods ≤ raw.periods then raw.periods - ctx.periods
  else overflowPeriod - ctx.periods + raw.periods

/-- The forward distance in whole periods and a fraction, or none when the fine
ticks run backwards within one period. -/
def distance (ctx : Epoch) (raw : Raw) : Option (UInt32 × UInt16) :=
  let periods := periodsSince ctx raw
  if raw.fine < ctx.fine then
    if periods = 0 then none
    else some (periods - 1, finePeriod - ctx.fine + raw.fine)
  else some (periods, raw.fine - ctx.fine)

/-- Half of an odd number of periods includes 256 fine increments. -/
def tooFar (whole : UInt32) (fraction : UInt16) : Bool :=
  0x7FFFFF < whole || (whole == 0x7FFFFF && 256 ≤ fraction)

/-- The answer carries the output when there is one. -/
def step (ctx : Epoch) (raw : Raw) : (Result × Option Stamp) × Epoch :=
  if ctx.state = .fault then ((.timeError, none), ctx)
  else if !valid raw then ((.invalidArgument, none), ctx)
  else if ctx.state ≠ .ready ∨ finePeriod ≤ ctx.fine ∨ overflowPeriod ≤ ctx.periods then
    ((.invalidState, none), ctx)
  else
    let faulted := { ctx with state := .fault }
    match distance ctx raw with
    | none => ((.timeError, none), faulted)
    | some (whole, fraction) =>
      if tooFar whole fraction then ((.timeError, none), faulted)
      else
        let symbols := ctx.symbols + periodsSince ctx raw
        ((.ok, some ⟨symbols, raw.fine⟩),
          { ctx with symbols := symbols, periods := raw.periods, fine := raw.fine })

/-- The `mac_stamp_project` of a sample into the window from `first` to `last`. -/
def project (first : Epoch) (last sample : Raw) : Result × Option Stamp :=
  let whole := step first last
  if whole.1.1 ≠ .ok then (whole.1.1, none)
  else
    let candidate := step first sample
    if candidate.1.1 ≠ .ok then (candidate.1.1, none)
    else
      let rest := step candidate.2 last
      if rest.1.1 ≠ .ok then (rest.1.1, none)
      else (.ok, candidate.1.2)

/-! ## The circle of raw samples -/

/-- Fine ticks in one raw revolution. -/
def revolution : Nat := 0xFFFFFF * 512

/-- Half a raw revolution. -/
def half : Nat := 0xFFFFFF00

/-- The place of a raw sample on the circle. -/
def Raw.place (raw : Raw) : Nat := raw.periods.toNat * 512 + raw.fine.toNat

/-- The raw sample an epoch stores. -/
def Epoch.raw (ctx : Epoch) : Raw := ⟨ctx.fine, ctx.periods⟩

/-- Fine ticks forward from one raw sample to another. -/
def arc (a b : Raw) : Nat := (b.place + (revolution - a.place)) % revolution

/-- An epoch that can be stepped. -/
structure Live (ctx : Epoch) : Prop where
  ready : ctx.state = .ready
  valid : valid ctx.raw = true

theorem valid_iff (raw : Raw) : valid raw = true ↔ raw.fine.toNat < 512 ∧ raw.periods.toNat < 0xFFFFFF := by
  simp [valid, finePeriod, overflowPeriod, UInt16.lt_iff_toNat_lt, UInt32.lt_iff_toNat_lt]

theorem periodsSince_toNat (ctx : Epoch) (raw : Raw) (hc : valid ctx.raw = true) (hr : valid raw = true) :
    (periodsSince ctx raw).toNat = (raw.periods.toNat + (0xFFFFFF - ctx.periods.toNat)) % 0xFFFFFF := by
  obtain ⟨-, hcp⟩ := (valid_iff ctx.raw).1 hc
  obtain ⟨-, hrp⟩ := (valid_iff raw).1 hr
  simp only [Epoch.raw] at hcp
  unfold periodsSince overflowPeriod
  split
  next hle =>
    rw [UInt32.toNat_sub_of_le _ _ hle]
    have hle' := UInt32.le_iff_toNat_le.1 hle
    omega
  next hlt =>
    have hlt' := mt UInt32.le_iff_toNat_le.2 hlt
    have hle : ctx.periods ≤ 0xFFFFFF := UInt32.le_iff_toNat_le.2 (by simp; omega)
    rw [UInt32.toNat_add, UInt32.toNat_sub_of_le _ _ hle]
    simp only [UInt32.reduceToNat]
    omega

/-- The distance is the arc, cut into periods and fine ticks. -/
theorem distance_some (ctx : Epoch) (raw : Raw) (hc : valid ctx.raw = true) (hr : valid raw = true)
    (whole : UInt32) (fraction : UInt16) (h : distance ctx raw = some (whole, fraction)) :
    whole.toNat * 512 + fraction.toNat = arc ctx.raw raw ∧ fraction.toNat < 512 := by
  have hp := periodsSince_toNat ctx raw hc hr
  obtain ⟨hcf, hcp⟩ := (valid_iff ctx.raw).1 hc
  obtain ⟨hrf, hrp⟩ := (valid_iff raw).1 hr
  simp only [Epoch.raw] at hcf hcp
  simp only [distance, finePeriod] at h
  unfold arc Raw.place revolution Epoch.raw
  split at h
  next hlt =>
    have hlt' := UInt16.lt_iff_toNat_lt.1 hlt
    split at h
    · cases h
    next hne =>
      injection h with h
      injection h with hw hf
      have hpos : 1 ≤ (periodsSince ctx raw).toNat := by
        rcases Nat.eq_zero_or_pos (periodsSince ctx raw).toNat with h0 | h0
        · exact absurd (UInt32.toNat_inj.1 h0) hne
        · exact h0
      have hw' : whole.toNat = (periodsSince ctx raw).toNat - 1 := by
        have hle : 1 ≤ periodsSince ctx raw := UInt32.le_iff_toNat_le.2 (by simpa using hpos)
        rw [← hw, UInt32.toNat_sub_of_le _ _ hle]
        rfl
      have hf' : fraction.toNat = 512 - ctx.fine.toNat + raw.fine.toNat := by
        have hle : ctx.fine ≤ 512 := UInt16.le_iff_toNat_le.2 (by simp; omega)
        rw [← hf, UInt16.toNat_add, UInt16.toNat_sub_of_le _ _ hle]
        simp only [UInt16.reduceToNat]
        omega
      simp only
      omega
  next hge =>
    injection h with h
    injection h with hw hf
    have hle : ctx.fine ≤ raw.fine := UInt16.not_lt.1 hge
    have hle' := UInt16.le_iff_toNat_le.1 hle
    have hf' : fraction.toNat = raw.fine.toNat - ctx.fine.toNat := by
      rw [← hf, UInt16.toNat_sub_of_le _ _ hle]
    rw [← hw]
    simp only
    omega

theorem distance_none (ctx : Epoch) (raw : Raw) (hc : valid ctx.raw = true) (hr : valid raw = true)
    (h : distance ctx raw = none) : half ≤ arc ctx.raw raw := by
  have hp := periodsSince_toNat ctx raw hc hr
  obtain ⟨hcf, hcp⟩ := (valid_iff ctx.raw).1 hc
  obtain ⟨hrf, hrp⟩ := (valid_iff raw).1 hr
  simp only [Epoch.raw] at hcf hcp
  simp only [distance] at h
  unfold half arc Raw.place revolution Epoch.raw
  split at h
  next hlt =>
    have hlt' := UInt16.lt_iff_toNat_lt.1 hlt
    split at h
    next hz =>
      rw [hz] at hp
      simp only [UInt32.toNat_zero] at hp ⊢
      omega
    · cases h
  · cases h

theorem tooFar_iff (whole : UInt32) (fraction : UInt16) (h : fraction.toNat < 512) :
    tooFar whole fraction = true ↔ half ≤ whole.toNat * 512 + fraction.toNat := by
  unfold half
  simp only [tooFar, Bool.or_eq_true, Bool.and_eq_true, decide_eq_true_eq, beq_iff_eq,
    UInt32.lt_iff_toNat_lt, UInt16.le_iff_toNat_le, ← UInt32.toNat_inj, UInt32.reduceToNat, UInt16.reduceToNat]
  omega

/-- The state after an accepted sample. -/
def moved (ctx : Epoch) (raw : Raw) : Epoch :=
  { ctx with symbols := ctx.symbols + periodsSince ctx raw, periods := raw.periods, fine := raw.fine }

/-- What one step of a live epoch does: it moves on or faults, by the arc alone. -/
theorem step_live (ctx : Epoch) (raw : Raw) (hc : Live ctx) (hr : valid raw = true) :
    step ctx raw =
      if arc ctx.raw raw < half then
        ((.ok, some ⟨ctx.symbols + periodsSince ctx raw, raw.fine⟩), moved ctx raw)
      else ((.timeError, none), { ctx with state := .fault }) := by
  obtain ⟨hcf, hcp⟩ := (valid_iff ctx.raw).1 hc.valid
  have hstate : ¬(ctx.state ≠ .ready ∨ finePeriod ≤ ctx.fine ∨ overflowPeriod ≤ ctx.periods) := by
    rintro (h | h | h)
    · exact h hc.ready
    · have h' := UInt16.le_iff_toNat_le.1 h
      simp only [finePeriod, UInt16.reduceToNat, Epoch.raw] at h' hcf
      omega
    · have h' := UInt32.le_iff_toNat_le.1 h
      simp only [overflowPeriod, UInt32.reduceToNat, Epoch.raw] at h' hcp
      omega
  have hfault : ¬(ctx.state = .fault) := by simp [hc.ready]
  unfold step
  rw [if_neg hfault, if_neg (by simp [hr]), if_neg hstate]
  simp only
  cases hd : distance ctx raw with
  | none =>
    have hfar := distance_none ctx raw hc.valid hr hd
    simp [Nat.not_lt.2 hfar]
  | some d =>
    obtain ⟨whole, fraction⟩ := d
    obtain ⟨harc, hfrac⟩ := distance_some ctx raw hc.valid hr whole fraction hd
    have hfar := tooFar_iff whole fraction hfrac
    rw [harc] at hfar
    simp only [hfar]
    by_cases hlt : arc ctx.raw raw < half
    · rw [if_pos hlt, if_neg (Nat.not_le.2 hlt)]
      rfl
    · rw [if_neg hlt, if_pos (Nat.not_lt.1 hlt)]

theorem moved_live (ctx : Epoch) (raw : Raw) (hc : Live ctx) (hr : valid raw = true) : Live (moved ctx raw) :=
  ⟨hc.ready, hr⟩

theorem moved_raw (ctx : Epoch) (raw : Raw) : (moved ctx raw).raw = raw := rfl

theorem step_fault (ctx : Epoch) (raw : Raw) (h : ctx.state = .fault) : step ctx raw = ((.timeError, none), ctx) := by
  simp [step, h]

/-- A step answers `ok` exactly on a live epoch with a valid sample less than
half a revolution ahead. -/
theorem step_ok_iff (ctx : Epoch) (raw : Raw) :
    (step ctx raw).1.1 = .ok ↔ Live ctx ∧ valid raw = true ∧ arc ctx.raw raw < half := by
  constructor
  · intro h
    by_cases hr : valid raw = true
    · by_cases hc : Live ctx
      · rw [step_live ctx raw hc hr] at h
        split at h
        next hlt => exact ⟨hc, hr, hlt⟩
        · cases h
      · exfalso
        unfold step at h
        split at h
        · cases h
        · rw [if_neg (by simp [hr])] at h
          split at h
          · cases h
          next hs =>
            simp only [not_or, not_not, UInt16.not_le, UInt32.not_le] at hs
            exact hc ⟨hs.1, by simp [valid, Epoch.raw, hs.2.1, hs.2.2]⟩
    · exfalso
      unfold step at h
      split at h
      · cases h
      · simp [hr] at h
  · rintro ⟨hc, hr, hlt⟩
    rw [step_live ctx raw hc hr, if_pos hlt]

end MacEpoch
