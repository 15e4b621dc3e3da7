import Mathlib

/-!
# Iterated hashes

A message, padded to whole blocks, goes through a compression function one block after
the other. The padding is a mark, zeros up to the end of a block less the length field,
and the field.
-/
namespace BlockHash

variable {α σ : Type*}

/-- The whole blocks of a message. -/
def blocks (n : Nat) (m : List α) : List (List α) := (List.range (m.length / n)).map fun k => (m.drop (n * k)).take n

theorem blocks_nil (n : Nat) : blocks n ([] : List α) = [] := by simp [blocks]

theorem blocks_append {n : Nat} (hn : 0 < n) (b m : List α) (hb : b.length = n) : blocks n (b ++ m) = b :: blocks n m := by
  have hcount : (b ++ m).length / n = m.length / n + 1 := by
    rw [List.length_append, hb, Nat.add_comm, Nat.add_div_right _ hn]
  have hrest : ∀ k, (b ++ m).drop (n * (k + 1)) = m.drop (n * k) := by
    intro k
    rw [Nat.mul_succ, Nat.add_comm, ← List.drop_drop, List.drop_left' hb]
  rw [blocks, hcount, List.range_succ_eq_map, List.map_cons, List.map_map, Nat.mul_zero, List.drop_zero,
    List.take_left' hb]
  simp only [Function.comp_def, Nat.succ_eq_add_one, hrest, blocks]

theorem blocks_single {n : Nat} (hn : 0 < n) (b : List α) (hb : b.length = n) : blocks n b = [b] := by
  have h := blocks_append hn b [] hb
  rwa [List.append_nil, blocks_nil] at h

/-- The zeros between the mark and the length field. -/
def gap (n field length : Nat) : Nat := (n - (length + 1 + field) % n) % n

/-- A message of some length with its padding, of which the first blocks may be gone. -/
def padded (n : Nat) (mark zero : α) (field : Nat → List α) (length : Nat) (m : List α) : List α :=
  m ++ mark :: (List.replicate (gap n (field length).length m.length) zero ++ field length)

/-- The hash of a message. -/
def hash (n : Nat) (mark zero : α) (field : Nat → List α) (compress : σ → List α → σ) (start : σ) (m : List α) : σ :=
  (blocks n (padded n mark zero field m.length m)).foldl compress start

/-- The padding does not change when a whole block is taken off. -/
theorem gap_add (n field length : Nat) : gap n field (n + length) = gap n field length := by
  unfold gap
  rw [show n + length + 1 + field = (length + 1 + field) + n by omega, Nat.add_mod_right]

theorem padded_append (n : Nat) (mark zero : α) (field : Nat → List α) (length : Nat) (b m : List α) (hb : b.length = n) :
    padded n mark zero field length (b ++ m) = b ++ padded n mark zero field length m := by
  rw [padded, padded, List.length_append, hb, gap_add, List.append_assoc]

/-- The keyed hash of a message, with two pads of the key. -/
def keyed {κ : Type*} (h : List α → κ) (octets : κ → List α) (inner outer : α → α) (key m : List α) : κ :=
  h (key.map outer ++ octets (h (key.map inner ++ m)))

end BlockHash
