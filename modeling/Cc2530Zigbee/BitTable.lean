import Mathlib

/-!
# Tables of octets as sets

A table of octets stands for the set of the positions of its ones, eight to an octet.
-/
namespace BitTable

variable {n : Nat}

/-- An octet of the table. -/
def octetAt (t : Vector UInt8 n) (i : Nat) : UInt8 := t[i]?.getD 0

/-- The mask of one position below 8. -/
def bit (k : Nat) : UInt8 := 1 <<< UInt8.ofNat k

/-- The position is in the table. -/
def has (t : Vector UInt8 n) (k : Nat) : Bool := octetAt t (k / 8) &&& bit (k % 8) ≠ 0

/-- Some bits of an octet become ones. -/
def mark (t : Vector UInt8 n) (i : Nat) (mask : UInt8) : Vector UInt8 n := t.setIfInBounds i (octetAt t i ||| mask)

/-- A row of octets becomes zero. -/
def clear (t : Vector UInt8 n) (start count : Nat) : Vector UInt8 n :=
  Vector.ofFn fun i => if start ≤ i.val ∧ i.val < start + count then 0 else t[i]

theorem or_bit (x : UInt8) {a b : Nat} (ha : a < 8) (hb : b < 8) :
    ((x ||| bit a) &&& bit b ≠ 0) ↔ a = b ∨ x &&& bit b ≠ 0 := by
  have hall : ∀ a b : Fin 8, ∀ x : UInt8, (x ||| bit a) &&& bit b ≠ 0 ↔ a.val = b.val ∨ x &&& bit b ≠ 0 := by
    decide +kernel
  exact hall ⟨a, ha⟩ ⟨b, hb⟩ x

theorem octetAt_mark (t : Vector UInt8 n) {i : Nat} (hi : i < n) (mask : UInt8) (j : Nat) :
    octetAt (mark t i mask) j = if j = i then octetAt t i ||| mask else octetAt t j := by
  unfold octetAt mark
  rw [Vector.getElem?_setIfInBounds]
  by_cases h : i = j
  · rw [if_pos h, if_pos h.symm, if_pos hi]
    rfl
  · rw [if_neg h, if_neg (Ne.symm h)]

/-- A table gains the position it marks, and no other. -/
theorem has_mark (t : Vector UInt8 n) {k : Nat} (hk : k / 8 < n) (j : Nat) :
    has (mark t (k / 8) (bit (k % 8))) j = (decide (j = k) || has t j) := by
  unfold has
  rw [octetAt_mark t hk, Bool.eq_iff_iff]
  simp only [decide_eq_true_eq, Bool.or_eq_true]
  by_cases hrow : j / 8 = k / 8
  · rw [if_pos hrow, or_bit _ (Nat.mod_lt _ (by omega)) (Nat.mod_lt _ (by omega)), hrow]
    constructor
    · rintro (h | h)
      · exact .inl (by omega)
      · exact .inr h
    · rintro (h | h)
      · exact .inl (by omega)
      · exact .inr h
  · rw [if_neg hrow]
    constructor
    · exact .inr
    · rintro (h | h)
      · exact absurd (congrArg (· / 8) h) hrow
      · exact h

/-- A cleared table loses the positions of the row, and no other. -/
theorem has_clear (t : Vector UInt8 n) (start count j : Nat) :
    has (clear t start count) j = (has t j && !decide (start ≤ j / 8 ∧ j / 8 < start + count)) := by
  have hoctet : octetAt (clear t start count) (j / 8) =
      if start ≤ j / 8 ∧ j / 8 < start + count then 0 else octetAt t (j / 8) := by
    unfold octetAt clear
    rw [Vector.getElem?_ofFn]
    by_cases hj : j / 8 < n
    · simp only [hj, dif_pos, Option.getD_some, Vector.getElem?_eq_getElem, Fin.getElem_fin]
    · simp only [hj, dif_neg, not_false_eq_true, Option.getD_none, Vector.getElem?_eq_none (Nat.le_of_not_lt hj)]
      exact (ite_self _).symm
  unfold has
  rw [hoctet]
  by_cases hrow : start ≤ j / 8 ∧ j / 8 < start + count
  · simp [hrow]
  · simp [hrow]

end BitTable
