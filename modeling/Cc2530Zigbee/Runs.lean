import Mathlib.Data.List.Basic

/-!
# Runs of a step function

A machine answers each input with an output and a next state. A run collects
the outputs in order. What holds of the empty history and survives one more
step holds after every run.
-/
namespace Runs

variable {σ ι ο : Type*} (step : σ → ι → ο × σ)

/-- The outputs of a run, oldest first, and the state it ends in. -/
def run (s : σ) : List ι → List ο × σ
  | [] => ([], s)
  | i :: is =>
    let r := step s i
    let rest := run r.2 is
    (r.1 :: rest.1, rest.2)

/-- The invariant rule: the invariant may speak of the whole history. -/
theorem run_invariant (Inv : List ο → σ → Prop) (s : σ) (before : List ο) (h : Inv before s)
    (hstep : ∀ outs s i, Inv outs s → Inv (outs ++ [(step s i).1]) (step s i).2) (is : List ι) :
    Inv (before ++ (run step s is).1) (run step s is).2 := by
  induction is generalizing s before with
  | nil => simpa [run] using h
  | cons i is ih =>
    have hi := ih (step s i).2 (before ++ [(step s i).1]) (hstep before s i h)
    simpa [run] using hi

/-- The rule for an invariant of the state alone. -/
theorem state_invariant (Inv : σ → Prop) (s : σ) (h : Inv s) (hstep : ∀ s i, Inv s → Inv (step s i).2)
    (is : List ι) : Inv (run step s is).2 :=
  run_invariant step (fun _ => Inv) s [] h (fun _ s i => hstep s i) is

/-- Every step of a run meets a condition on the state before it and its input. -/
def Meets (P : σ → ι → Prop) (s : σ) : List ι → Prop
  | [] => True
  | i :: is => P s i ∧ Meets P (step s i).2 is

instance decidableMeets (P : σ → ι → Prop) [∀ s i, Decidable (P s i)] (s : σ) (is : List ι) :
    Decidable (Meets step P s is) :=
  match is with
  | [] => isTrue trivial
  | i :: is =>
    have := decidableMeets P (step s i).2 is
    inferInstanceAs (Decidable (P s i ∧ Meets step P (step s i).2 is))

/-- A property holds in every state of a run, the first and the last included. -/
def Throughout (Q : σ → Prop) (s : σ) : List ι → Prop
  | [] => Q s
  | i :: is => Q s ∧ Throughout Q (step s i).2 is

theorem Throughout.first {Q : σ → Prop} {s : σ} {is : List ι} (h : Throughout step Q s is) : Q s := by
  cases is with
  | nil => exact h
  | cons i is => exact h.1

theorem Throughout.last {Q : σ → Prop} {s : σ} {is : List ι} (h : Throughout step Q s is) :
    Q (run step s is).2 := by
  induction is generalizing s with
  | nil => exact h
  | cons i is ih => exact ih h.2

theorem meets_true (s : σ) (is : List ι) : Meets step (fun _ _ => True) s is := by
  induction is generalizing s with
  | nil => trivial
  | cons i is ih => exact ⟨trivial, ih (step s i).2⟩

theorem meets_congr {P R : σ → ι → Prop} (h : ∀ s i, P s i ↔ R s i) (s : σ) (is : List ι) :
    Meets step P s is ↔ Meets step R s is := by
  induction is generalizing s with
  | nil => exact Iff.rfl
  | cons i is ih => exact and_congr (h s i) (ih (step s i).2)

theorem Meets.and {P R : σ → ι → Prop} {s : σ} {is : List ι} (h : Meets step P s is) (g : Meets step R s is) :
    Meets step (fun s i => P s i ∧ R s i) s is := by
  induction is generalizing s with
  | nil => trivial
  | cons i is ih => exact ⟨⟨h.1, g.1⟩, ih h.2 g.2⟩

theorem run_append (s : σ) (is js : List ι) :
    run step s (is ++ js) =
      ((run step s is).1 ++ (run step (run step s is).2 js).1, (run step (run step s is).2 js).2) := by
  induction is generalizing s with
  | nil => rfl
  | cons i is ih => simp [run, ih]

/-- The last step of a run meets what every step meets. -/
theorem Meets.last {P : σ → ι → Prop} {s : σ} {is : List ι} {i : ι} (h : Meets step P s (is ++ [i])) :
    P (run step s is).2 i := by
  induction is generalizing s with
  | nil => exact h.1
  | cons j is ih => exact ih h.2

/-- What holds throughout a run holds after its last step. -/
theorem Throughout.snoc {Q : σ → Prop} {s : σ} {is : List ι} {i : ι} (h : Throughout step Q s (is ++ [i])) :
    Q (step (run step s is).2 i).2 := by
  have hlast := h.last
  rw [run_append] at hlast
  exact hlast

/-- The invariant rule under a condition on the steps. -/
theorem meets_invariant (P : σ → ι → Prop) (Inv : List ο → σ → Prop) (s : σ) (before : List ο)
    (h : Inv before s)
    (hstep : ∀ outs s i, P s i → Inv outs s → Inv (outs ++ [(step s i).1]) (step s i).2) (is : List ι)
    (hm : Meets step P s is) : Inv (before ++ (run step s is).1) (run step s is).2 := by
  induction is generalizing s before with
  | nil => simpa [run] using h
  | cons i is ih =>
    have hi := ih (step s i).2 (before ++ [(step s i).1]) (hstep before s i hm.1 h) hm.2
    simpa [run] using hi

/-- From a condition on every step to a property of every step. -/
theorem meets_imp (P R : σ → ι → Prop) (Inv : σ → Prop) (hstep : ∀ s i, Inv s → P s i → Inv (step s i).2)
    (himp : ∀ s i, Inv s → P s i → R s i) (s : σ) (h : Inv s) (is : List ι) (hm : Meets step P s is) :
    Meets step R s is := by
  induction is generalizing s with
  | nil => trivial
  | cons i is ih => exact ⟨himp s i h hm.1, ih (step s i).2 (hstep s i h hm.1) hm.2⟩

/-- From a condition on every step to a property of every state. -/
theorem throughout_of_invariant (P : σ → ι → Prop) (Q Inv : σ → Prop)
    (hstep : ∀ s i, Inv s → P s i → Inv (step s i).2) (himp : ∀ s, Inv s → Q s) (s : σ) (h : Inv s)
    (is : List ι) (hm : Meets step P s is) : Throughout step Q s is := by
  induction is generalizing s with
  | nil => exact himp s h
  | cons i is ih => exact ⟨himp s h, ih (step s i).2 (hstep s i h hm.1) hm.2⟩

/-- The invariant rule for a stretch of a run that keeps a property. -/
theorem throughout_invariant (P : σ → ι → Prop) (Q Inv : σ → Prop) (s : σ) (h : Inv s)
    (hstep : ∀ s i, P s i → Q s → Q (step s i).2 → Inv s → Inv (step s i).2) (is : List ι)
    (hm : Meets step P s is) (hq : Throughout step Q s is) : Inv (run step s is).2 := by
  induction is generalizing s with
  | nil => exact h
  | cons i is ih => exact ih (step s i).2 (hstep s i hm.1 hq.1 (Throughout.first step hq.2) h) hm.2 hq.2

end Runs
