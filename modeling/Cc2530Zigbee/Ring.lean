import Mathlib.Tactic

/-!
# Ring buffers

A ring of `n` cells holds `count` items from a first index on. Indices may be
any numbers of the same remainder, so that counters may run past the ring.
-/
namespace Ring

variable {α : Type*} {n : Nat}

/-- The items of a ring, oldest first. -/
def contents (cells : Vector α n) (d : α) (first count : Nat) : List α :=
  (List.range count).map fun i => cells[(first + i) % n]?.getD d

@[simp] theorem contents_length (cells : Vector α n) (d : α) (first count : Nat) :
    (contents cells d first count).length = count := by
  simp [contents]

@[simp] theorem contents_empty (cells : Vector α n) (d : α) (first : Nat) : contents cells d first 0 = [] := rfl

/-- Only the remainder of the first index counts. -/
theorem contents_congr (cells : Vector α n) (d : α) (a b count : Nat) (h : a % n = b % n) :
    contents cells d a count = contents cells d b count := by
  apply List.map_congr_left
  intro i hi
  have hmod : (a + i) % n = (b + i) % n := by rw [Nat.add_mod, h, ← Nat.add_mod]
  simp only [hmod]

/-- Two items of one ring lie in different cells. -/
theorem cell_ne (first i j : Nat) (h : i < j) (hj : j < n) : (first + i) % n ≠ (first + j) % n := by
  intro heq
  have hmod : i ≡ j [MOD n] := Nat.ModEq.add_left_cancel' first heq
  have h1 := Nat.mod_eq_of_lt (show i < n by omega)
  have h2 := Nat.mod_eq_of_lt hj
  rw [Nat.ModEq, h1, h2] at hmod
  omega

/-- What lies past the items does not matter. -/
theorem contents_set_free (cells : Vector α n) (d x : α) (first count : Nat) (h : count < n) :
    contents (cells.setIfInBounds ((first + count) % n) x) d first count = contents cells d first count := by
  apply List.map_congr_left
  intro i hi
  have hne := cell_ne first i count (List.mem_range.1 hi) h
  simp only [Vector.getElem?_setIfInBounds_ne hne.symm]

/-- Writing the next free cell appends its item. -/
theorem contents_push (cells : Vector α n) (d x : α) (first count : Nat) (h : count < n) :
    contents (cells.setIfInBounds ((first + count) % n) x) d first (count + 1) = contents cells d first count ++ [x] := by
  have hlt : (first + count) % n < n := Nat.mod_lt _ (by omega)
  have hsplit : contents (cells.setIfInBounds ((first + count) % n) x) d first (count + 1) =
      contents (cells.setIfInBounds ((first + count) % n) x) d first count ++
        [(cells.setIfInBounds ((first + count) % n) x)[(first + count) % n]?.getD d] := by
    simp [contents, List.range_succ]
  rw [hsplit, contents_set_free cells d x first count h, Vector.getElem?_setIfInBounds_self_of_lt hlt]
  rfl

/-- The first item, and the ring without it. -/
theorem contents_pop (cells : Vector α n) (d : α) (first count : Nat) :
    contents cells d first (count + 1) = cells[first % n]?.getD d :: contents cells d (first + 1) count := by
  simp only [contents, List.range_succ_eq_map, List.map_cons, List.map_map, Nat.add_zero]
  congr 1
  apply List.map_congr_left
  intro i hi
  have hnext : first + (i + 1) = first + 1 + i := by omega
  simp only [Function.comp, Nat.succ_eq_add_one, hnext]

end Ring
