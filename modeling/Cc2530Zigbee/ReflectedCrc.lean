import Mathlib

/-!
# Reflected CRCs

The remainder of a bit stream, least significant bit first, under a polynomial of any
width. A shift of the remainder is linear in exclusive or, so several shifts are those of
its low bits, and the rest of it moved down.
-/
namespace ReflectedCrc

variable {w : Nat} (poly : BitVec w)

/-- One bit leaves the remainder. -/
def shift (c : BitVec w) : BitVec w := (c >>> 1) ^^^ if c.getLsbD 0 then poly else 0

/-- One octet enters the remainder. -/
def octet (c : BitVec w) (b : BitVec 8) : BitVec w := (shift poly)^[8] (c ^^^ b.setWidth w)

/-- The remainder behind some octets. -/
def feed (c : BitVec w) (bytes : List (BitVec 8)) : BitVec w := bytes.foldl (octet poly) c

theorem feed_append (c : BitVec w) (s t : List (BitVec 8)) : feed poly c (s ++ t) = feed poly (feed poly c s) t :=
  List.foldl_append

theorem shift_xor (a b : BitVec w) : shift poly (a ^^^ b) = shift poly a ^^^ shift poly b := by
  have hpoly : ∀ x y : Bool, (if (x ^^ y) = true then poly else 0) = (if x = true then poly else 0) ^^^
      if y = true then poly else 0 := by
    intro x y
    cases x <;> cases y <;> simp
  unfold shift
  rw [BitVec.ushiftRight_xor_distrib, BitVec.getLsbD_xor, hpoly]
  ac_rfl

theorem shift_iterate_xor (n : Nat) (a b : BitVec w) :
    (shift poly)^[n] (a ^^^ b) = (shift poly)^[n] a ^^^ (shift poly)^[n] b := by
  induction n generalizing a b with
  | zero => rfl
  | succ n ih => rw [Function.iterate_succ_apply, Function.iterate_succ_apply, Function.iterate_succ_apply, shift_xor, ih]

/-- A remainder without low bits only moves down. -/
theorem shift_iterate_high (n : Nat) (c : BitVec w) (h : ∀ i < n, c.getLsbD i = false) : (shift poly)^[n] c = c >>> n := by
  induction n with
  | zero => simp
  | succ n ih =>
    have hbit : (c >>> n).getLsbD 0 = false := by simpa using h n (Nat.lt_succ_self n)
    rw [Function.iterate_succ_apply', ih fun i hi => h i (Nat.lt_succ_of_lt hi), shift, hbit]
    simp [BitVec.shiftRight_add]

/-- Shifts of a remainder: those of its low bits, and the rest moved down. -/
theorem shift_iterate_split (n : Nat) (low c : BitVec w) (hlow : ∀ i < n, low.getLsbD i = c.getLsbD i)
    (hhigh : ∀ i, n ≤ i → low.getLsbD i = false) : (shift poly)^[n] c = (c >>> n) ^^^ (shift poly)^[n] low := by
  have hparts : c = (c ^^^ low) ^^^ low := by rw [BitVec.xor_assoc, BitVec.xor_self, BitVec.xor_zero]
  have hmoved : (c ^^^ low) >>> n = c >>> n := by
    apply BitVec.eq_of_getLsbD_eq
    intro i _
    simp [hhigh (n + i) (Nat.le_add_right n i)]
  conv_lhs => rw [hparts]
  rw [shift_iterate_xor, shift_iterate_high poly n (c ^^^ low) fun i hi => by simp [hlow i hi], hmoved]

end ReflectedCrc
