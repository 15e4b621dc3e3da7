import Cc2530Zigbee.ZclSensorRuns

/-!
# When a report is due

The reportable change is compared with the distance of the present value to the last one
reported. The source takes that distance in 16 bits, around the circle, and two values
that lie far apart may be near each other there.
-/
namespace ZclSensor

open Octets

/-- The distance of two values, read in their type: signed or unsigned. -/
def exactDistance (type : UInt8) (a b : UInt16) : Nat :=
  if type = 0x29 then (a.toInt16.toInt - b.toInt16.toInt).natAbs else ((a.toNat : Int) - b.toNat).natAbs

/-- The least distance that is reported. -/
def threshold (r : Reporting) : Nat := max r.change.toNat 1

/-- A report is due: enabled, past the minimum, and past the maximum or the change. -/
def DueExactly (r : Reporting) (type : UInt8) (current : UInt16) : Prop :=
  r.max ≠ 0xffff ∧ r.min ≤ r.age ∧ (r.max ≠ 0 ∧ r.max ≤ r.age ∨ threshold r ≤ exactDistance type current r.last)

/-- Only the change could make the report due, and the values are that far apart, but
nearer the other way around the circle. -/
def Wraps (r : Reporting) (type : UInt8) (current : UInt16) : Prop :=
  r.max ≠ 0xffff ∧ r.min ≤ r.age ∧ ¬(r.max ≠ 0 ∧ r.max ≤ r.age) ∧
    65536 - exactDistance type current r.last < threshold r ∧ threshold r ≤ exactDistance type current r.last

instance (r : Reporting) (type : UInt8) (current : UInt16) : Decidable (DueExactly r type current) :=
  inferInstanceAs (Decidable (_ ∧ _ ∧ _))

instance (r : Reporting) (type : UInt8) (current : UInt16) : Decidable (Wraps r type current) :=
  inferInstanceAs (Decidable (_ ∧ _ ∧ _ ∧ _ ∧ _))

theorem toInt16_toInt (a : UInt16) : a.toInt16.toInt = if a.toNat < 32768 then (a.toNat : Int) else a.toNat - 65536 := by
  have hlt := a.toNat_lt
  rw [show a.toInt16.toInt = a.toBitVec.toInt from rfl, BitVec.toInt_eq_toNat_cond, UInt16.toNat_toBitVec]
  split <;> split <;> omega

/-- The distance of the source is the nearer way around the circle. -/
theorem delta_toNat (type : UInt8) (a b : UInt16) :
    (delta a b).toNat = min (exactDistance type a b) (65536 - exactDistance type a b) ∧ exactDistance type a b ≤ 65535 := by
  have ha := a.toNat_lt
  have hb := b.toNat_lt
  have hsub := UInt16.toNat_sub a b
  have hneg : ((a - b).toInt16 < 0) ↔ 32768 ≤ (a - b).toNat := by
    rw [Int16.lt_iff_toInt_lt, toInt16_toInt, Int16.toInt_zero]
    have hd := (a - b).toNat_lt
    split <;> omega
  have hturn := UInt16.toNat_sub 0 (a - b)
  have hexact : exactDistance type a b ≤ 65535 ∧
      (exactDistance type a b = (a - b).toNat ∨ exactDistance type a b + (a - b).toNat = 65536) := by
    unfold exactDistance
    rw [toInt16_toInt, toInt16_toInt]
    split
    · split <;> split <;> omega
    · omega
  unfold delta
  simp only
  split
  next hover =>
    have hhalf := hneg.1 hover
    rw [UInt16.toNat_zero] at hturn
    omega
  next hunder =>
    have hhalf : ¬ 32768 ≤ (a - b).toNat := fun h => hunder (hneg.2 h)
    omega

theorem dueAt_eq (r : Reporting) (current : UInt16) :
    dueAt r current = true ↔
      r.max ≠ 0xffff ∧ r.min ≤ r.age ∧ (r.max ≠ 0 ∧ r.max ≤ r.age ∨ threshold r ≤ (delta current r.last).toNat) := by
  have hfar : (¬(delta current r.last = 0 ∨ delta current r.last < r.change)) ↔
      threshold r ≤ (delta current r.last).toNat := by
    rw [not_or, ← UInt16.toNat_inj, UInt16.lt_iff_toNat_lt, threshold, UInt16.toNat_zero]
    omega
  unfold dueAt
  split
  next hearly =>
    simp only [Bool.false_eq_true, false_iff]
    rintro ⟨hon, hmin, -⟩
    obtain hoff | hage := hearly
    · exact hon hoff
    · rw [UInt16.lt_iff_toNat_lt] at hage
      rw [UInt16.le_iff_toNat_le] at hmin
      omega
  next hlate =>
    rw [not_or, UInt16.not_lt] at hlate
    split
    next hmax => exact ⟨fun _ => ⟨hlate.1, hlate.2, .inl hmax⟩, fun _ => rfl⟩
    next hmax =>
      simp only [decide_eq_true_eq]
      rw [hfar]
      exact ⟨fun h => ⟨hlate.1, hlate.2, .inr h⟩, fun h => h.2.2.resolve_left hmax⟩

/-- The report is due when it should be, unless the values wrap. -/
theorem dueAt_exact (r : Reporting) (type : UInt8) (current : UInt16) :
    (dueAt r current = true ↔ DueExactly r type current) ↔ ¬ Wraps r type current := by
  obtain ⟨hdelta, hbound⟩ := delta_toNat type current r.last
  rw [dueAt_eq, DueExactly, Wraps, hdelta, Nat.le_min]
  by_cases hfar : threshold r ≤ exactDistance type current r.last
  · by_cases hround : threshold r ≤ 65536 - exactDistance type current r.last
    · simp only [hfar, hround, true_and, and_true, not_lt.2 hround, false_and, and_false, not_false_eq_true]
    · simp only [hfar, hround, not_le.1 hround, and_false, or_false, and_true]
      tauto
  · simp only [hfar, false_and, and_false, not_false_eq_true]

/-- In a poll every attribute is due when it should be. -/
def DueInPoll (v : Variant) (w : World) (e : Poll) : Prop :=
  ∀ entry < reports, due v e.host.last (served v w e) entry = true ↔
    DueExactly (reporting (served v w e) entry) (entryOf entry).type (value v e.host.last (served v w e) entry)

/-- In a poll no value is so far from the last reported one that it wraps. -/
def NoneWraps (v : Variant) (w : World) (e : Poll) : Prop :=
  ∀ entry < reports,
    ¬ Wraps (reporting (served v w e) entry) (entryOf entry).type (value v e.host.last (served v w e) entry)

instance (v : Variant) (w : World) (e : Poll) : Decidable (DueInPoll v w e) :=
  inferInstanceAs (Decidable (∀ entry < reports, _))

/-- Over every run, all reports are due when they should be exactly if no value wraps. -/
theorem due_unless_wrapped (v : Variant) (cfg : Config) (w : World) (polls : List Poll) :
    Runs.Meets (poll v cfg) (DueInPoll v) w polls ↔ Runs.Meets (poll v cfg) (NoneWraps v) w polls := by
  refine Runs.meets_congr (poll v cfg) (fun w e => ?_) w polls
  unfold DueInPoll NoneWraps due
  have hentry := fun entry => dueAt_exact (reporting (served v w e) entry) (entryOf entry).type
    (value v e.host.last (served v w e) entry)
  constructor
  · intro h entry hlt
    exact (hentry entry).1 (h entry hlt)
  · intro h entry hlt
    exact (hentry entry).2 (h entry hlt)

/-! A device with a climate sensor is told to report humidity on a change of 50 %. Then the
sensor fails, and the invalid value is not reported. -/

def climateVariant : Variant := ⟨true, true, false, fun _ => rfl⟩

/-- 45 % at 25 degrees. -/
def climateReading : Reading := ⟨7000, 11840, some (26214, 29491)⟩

/-- Configure Reporting for humidity: no intervals, a change of 5000. -/
def humidityChange : Bytes := [0x00, 0x01, 0x06, 0x00, 0x00, 0x00, 0x21, 0x00, 0x00, 0x00, 0x00, 0x88, 0x13]

theorem humidity_failure_not_due :
    ∃ s, init climateVariant deviceConfig 0 climateReading deviceIeee centerIeee = some s ∧
      ¬ Runs.Meets (poll climateVariant deviceConfig) (DueInPoll climateVariant) (World.start climateVariant 0 s)
        [⟨requestHost 0 0x0405 humidityChange, climateReading, true⟩,
          ⟨quietHost 625000, ⟨7000, 11840, none⟩, true⟩] :=
  ⟨_, rfl, by decide +kernel⟩

end ZclSensor
