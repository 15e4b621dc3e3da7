import Mathlib.Tactic

/-!
# True time behind a clock of 32 bits

A clock shows the true time modulo `2 ^ 32`. A deadline counts as reached when
the clock is less than half its range past it, which is the truth as long as
nobody asks about a deadline that passed half a range ago.
-/
namespace WrappedClock

/-- What a clock of 32 bits shows at a true time. -/
def shown (time : Nat) : UInt32 := UInt32.ofNat time

theorem shown_toNat (time : Nat) : (shown time).toNat = time % 2 ^ 32 := by
  simp [shown]

@[simp] theorem shown_of_toNat (clock : UInt32) : shown clock.toNat = clock := by
  simp [shown]

theorem shown_add (time : Nat) (d : UInt32) : shown time + d = shown (time + d.toNat) := by
  apply UInt32.toNat_inj.mp
  simp [shown, UInt32.toNat_add]

/-- The true time advances by what the clock advances. -/
theorem shown_advance {time : Nat} {before after : UInt32} (h : shown time = before) :
    shown (time + (after - before).toNat) = after := by
  rw [← shown_add, h, UInt32.add_comm, UInt32.sub_add_cancel]

/-- Two readings less than a whole range apart differ by the true time between them. -/
theorem shown_sub {before now : Nat} (hle : before ≤ now) (hlt : now < before + 2 ^ 32) :
    (shown now - shown before).toNat = now - before := by
  rw [UInt32.toNat_sub]
  simp only [shown_toNat]
  omega

/-- Two readings differ by the true time between them, up to whole ranges. -/
theorem shown_sub_mod {before now : Nat} (hle : before ≤ now) :
    (shown now - shown before).toNat = (now - before) % 2 ^ 32 := by
  rw [UInt32.toNat_sub]
  simp only [shown_toNat]
  omega

/-- The half-range comparison tells the truth about a deadline that is not half a range old. -/
theorem since_lt_half (now born life : Nat) (hborn : born ≤ now) (hlife : life < 2 ^ 31)
    (hyoung : now < born + life + 2 ^ 31) :
    (shown now - shown (born + life)).toNat < 2 ^ 31 ↔ born + life ≤ now := by
  rw [UInt32.toNat_sub]
  simp only [shown_toNat]
  omega

/-- A deadline that has not passed never counts as reached. -/
theorem not_since_of_ahead (now born life : Nat) (hborn : born ≤ now) (hlife : life < 2 ^ 31)
    (hahead : now < born + life) : ¬(shown now - shown (born + life)).toNat < 2 ^ 31 := by
  rw [since_lt_half now born life hborn hlife (by omega)]
  omega

end WrappedClock
