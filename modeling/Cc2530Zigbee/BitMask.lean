import Mathlib.Tactic

/-!
# Masks of 32 bits as sets

A word of 32 bits stands for the set of the positions of its ones.
-/
namespace BitMask

/-- The position is in the mask. -/
def has (mask : UInt32) (i : Nat) : Bool := mask.toBitVec.getLsbD i

/-- The mask of one position below 32. -/
def single (i : Nat) : UInt32 := 1 <<< UInt32.ofNat i

/-- Every position of one mask is in the other. -/
def Within (a b : UInt32) : Prop := ∀ i, has a i = true → has b i = true

@[simp] theorem has_zero (i : Nat) : has 0 i = false := by
  simp [has]

@[simp] theorem has_or (a b : UInt32) (i : Nat) : has (a ||| b) i = (has a i || has b i) := by
  simp [has]

@[simp] theorem has_and (a b : UInt32) (i : Nat) : has (a &&& b) i = (has a i && has b i) := by
  simp [has]

theorem has_lt {a : UInt32} {i : Nat} (h : has a i = true) : i < 32 := BitVec.lt_of_getLsbD h

theorem has_and_not (a b : UInt32) (i : Nat) : has (a &&& ~~~b) i = (has a i && !has b i) := by
  by_cases hi : i < 32
  · simp [has, hi]
  · have hout : ∀ m, has m i = false := fun m => BitVec.getLsbD_of_ge _ _ (Nat.le_of_not_lt hi)
    rw [has_and, hout, hout]
    rfl

theorem has_single {i : Nat} (hi : i < 32) (j : Nat) : has (single i) j = decide (j = i) := by
  have hone : single i = UInt32.ofBitVec (BitVec.twoPow 32 i) := by
    interval_cases i <;> rfl
  rw [hone]
  simp only [has, BitVec.getLsbD_twoPow]
  by_cases hj : j = i
  · simp [hj, hi]
  · simp [hj, Ne.symm hj]

theorem eq_zero_iff (a : UInt32) : a = 0 ↔ ∀ i, has a i = false := by
  constructor
  · rintro rfl i
    exact has_zero i
  · intro h
    apply UInt32.toBitVec_inj.1
    apply BitVec.eq_of_getLsbD_eq
    intro i hi
    have := h i
    simpa [has] using this

/-- A mask meets a single position where it has it. -/
theorem and_single_eq_zero {i : Nat} (hi : i < 32) (a : UInt32) : a &&& single i = 0 ↔ has a i = false := by
  rw [eq_zero_iff]
  constructor
  · intro h
    have hat := h i
    simpa [has_single hi] using hat
  · intro h j
    rw [has_and, has_single hi]
    by_cases hj : j = i
    · simp [hj, h]
    · simp [hj]

theorem Within.refl (a : UInt32) : Within a a := fun _ h => h

theorem Within.trans {a b c : UInt32} (h : Within a b) (h' : Within b c) : Within a c := fun i hi => h' i (h i hi)

theorem zero_within (a : UInt32) : Within 0 a := fun i h => by simp at h

theorem and_not_within (a b : UInt32) : Within (a &&& ~~~b) a := fun i h => by
  rw [has_and_not] at h
  exact (Bool.and_eq_true_iff.1 h).1

end BitMask
