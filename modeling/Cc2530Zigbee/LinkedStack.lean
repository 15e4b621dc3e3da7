import Mathlib.Logic.Function.Basic
import Mathlib.Data.List.Basic

/-!
# Stacks threaded through a table

A table gives each node the node below it, and the stack is what one meets from
the top. A loop down the stack has no bound of its own; it ends because the
nodes on it are distinct.
-/
namespace LinkedStack

variable {α : Type*} {next : α → Option α} {top : Option α} {x : α} {xs : List α}

/-- The nodes from a top down, in order. -/
def Chained (next : α → Option α) : Option α → List α → Prop
  | top, [] => top = none
  | top, x :: xs => top = some x ∧ Chained next (next x) xs

/-- A loop down the stack that ends early at a node that stops it. It has no
answer when the steps run out. -/
def search (next : α → Option α) (stop : α → Bool) : Nat → Option α → Option Bool
  | _, none => some false
  | 0, some _ => none
  | n + 1, some x => if stop x then some true else search next stop n (next x)

/-- The nodes a loop down the stack meets. -/
def walk (next : α → Option α) : Nat → Option α → List α
  | _, none => []
  | 0, some _ => []
  | n + 1, some x => x :: walk next n (next x)

theorem Chained.walk_eq (h : Chained next top xs) {n : Nat} (hn : xs.length ≤ n) : walk next n top = xs := by
  induction xs generalizing top n with
  | nil =>
    rw [show top = none from h]
    cases n <;> rfl
  | cons x xs ih =>
    obtain ⟨rfl, hrest⟩ := h
    cases n with
    | zero => simp at hn
    | succ n =>
      rw [List.length_cons, Nat.add_le_add_iff_right] at hn
      simp only [walk, ih hrest hn]

theorem Chained.search_eq (h : Chained next top xs) (stop : α → Bool) {n : Nat} (hn : xs.length ≤ n) :
    search next stop n top = some (xs.any stop) := by
  induction xs generalizing top n with
  | nil =>
    rw [show top = none from h]
    cases n <;> rfl
  | cons x xs ih =>
    obtain ⟨rfl, hrest⟩ := h
    cases n with
    | zero => simp at hn
    | succ n =>
      rw [List.length_cons, Nat.add_le_add_iff_right] at hn
      simp only [search, ih hrest hn, List.any_cons]
      cases stop x <;> simp

theorem Chained.top_eq (h : Chained next top xs) : top = xs.head? := by
  cases xs with
  | nil => exact h
  | cons x xs => exact h.1

variable [DecidableEq α]

/-- A node that is not on the stack may change. -/
theorem Chained.update_off (h : Chained next top xs) (hx : x ∉ xs) (below : Option α) :
    Chained (Function.update next x below) top xs := by
  induction xs generalizing top with
  | nil => exact h
  | cons y ys ih =>
    rw [List.mem_cons, not_or] at hx
    refine ⟨h.1, ?_⟩
    rw [Function.update_of_ne (Ne.symm hx.1)]
    exact ih h.2 hx.2

theorem Chained.push (h : Chained next top xs) (hx : x ∉ xs) :
    Chained (Function.update next x top) (some x) (x :: xs) := by
  refine ⟨rfl, ?_⟩
  rw [Function.update_self]
  exact h.update_off hx top

theorem Chained.pop (h : Chained next top (x :: xs)) (hx : x ∉ xs) :
    Chained (Function.update next x none) (next x) xs := h.2.update_off hx none

end LinkedStack
