import Mathlib.Tactic

/-!
# Walks over records

A request is a list of items cut into records by a parser that may fail. A walk visits
the records in order and stops at the first that cannot be parsed. What a walk visits
does not depend on what it does to the state, so a walk that only checks tells all
about one that acts.
-/
namespace RecordWalk

variable {α ρ σ : Type*} (parse : List α → Option ρ) (taken : ρ → Nat)

/-- Visit the records of a request: whether it was cut short, and the state. -/
def walk (visit : ρ → σ → σ) : (fuel : Nat) → List α → σ → Bool × σ
  | 0, _, s => (false, s)
  | fuel + 1, p, s =>
    if p.length = 0 then (false, s)
    else
      match parse p with
      | none => (true, s)
      | some r => walk visit fuel (p.drop (taken r)) (visit r s)

/-- A walk that checks, then, if nothing was wrong, one that acts. -/
def twice (visit : ρ → σ → σ) (p : List α) (s : σ) : Bool × σ :=
  match walk parse taken (fun _ s => s) p.length p s with
  | (true, s) => (true, s)
  | (false, s) => walk parse taken visit p.length p s

/-- The records a walk visits, and whether it was cut short. -/
def visited : (fuel : Nat) → List α → List ρ × Bool
  | 0, _ => ([], false)
  | fuel + 1, p =>
    if p.length = 0 then ([], false)
    else
      match parse p with
      | none => ([], true)
      | some r =>
        let rest := visited fuel (p.drop (taken r))
        (r :: rest.1, rest.2)

/-- A walk does to the state what its records do, whatever it does. -/
theorem walk_eq (visit : ρ → σ → σ) (fuel : Nat) (p : List α) (s : σ) :
    walk parse taken visit fuel p s =
      ((visited parse taken fuel p).2, (visited parse taken fuel p).1.foldl (fun s r => visit r s) s) := by
  induction fuel generalizing p s with
  | zero => rfl
  | succ fuel ih =>
    simp only [walk, visited]
    split
    · rfl
    · cases parse p with
      | none => rfl
      | some r => simp only [ih, List.foldl_cons]

theorem foldl_idle (l : List ρ) (s : σ) : l.foldl (fun s _ => s) s = s := by
  induction l with
  | nil => rfl
  | cons r l ih => exact ih

/-- Both walks visit the same records, and the second cannot fail. -/
theorem twice_eq (visit : ρ → σ → σ) (p : List α) (s : σ) :
    twice parse taken visit p s =
      let v := visited parse taken p.length p
      if v.2 then (true, s) else (false, v.1.foldl (fun s r => visit r s) s) := by
  unfold twice
  rw [walk_eq, foldl_idle]
  cases h : (visited parse taken p.length p).2 with
  | false =>
    simp only
    rw [walk_eq, h]
    simp
  | true => simp [h]

/-- Whole records behind what is there already, as long as they fit. -/
def fill (limit : Nat) : List (List α) → List α → List α
  | [], out => out
  | r :: records, out => if limit < out.length + r.length then out else fill limit records (out ++ r)

/-- A reader asks for the page from an index on, and then for the one behind what it got,
until a page is empty. -/
def pages (page : Nat → List α) : (fuel : Nat) → (start : Nat) → List α
  | 0, _ => []
  | fuel + 1, start => page start ++ if (page start).isEmpty then [] else pages page fuel (start + (page start).length)

/-- Pages with room for a record list everything, once and in order. -/
theorem pages_all (room : Nat) (hroom : 0 < room) (l : List α) (page : Nat → List α)
    (hpage : ∀ start ≤ l.length, page start = (l.drop start).take room) (fuel start : Nat) (hstart : start ≤ l.length)
    (hfuel : l.length < start + fuel) : pages page fuel start = l.drop start := by
  induction fuel generalizing start with
  | zero => omega
  | succ fuel ih =>
    simp only [pages]
    rw [hpage start hstart]
    split
    next hempty =>
      have hend : l.length - start = 0 := by
        have hnone := congrArg List.length (List.isEmpty_iff.1 hempty)
        rw [List.length_take, List.length_drop, List.length_nil] at hnone
        omega
      simp [List.drop_eq_nil_of_le (Nat.le_of_sub_eq_zero hend)]
    next hsome =>
      have hlength : ((l.drop start).take room).length = min room (l.length - start) := by simp
      have hleft : l.length - start ≠ 0 := fun hnone => hsome (by
        simp [List.drop_eq_nil_of_le (Nat.le_of_sub_eq_zero hnone)])
      rw [ih _ (by omega) (by omega), ← List.drop_drop, hlength]
      have hdrop : (l.drop start).drop (min room (l.length - start)) = (l.drop start).drop room := by
        rcases Nat.le_total room (l.length - start) with h | h
        · rw [Nat.min_eq_left h]
        · rw [Nat.min_eq_right h, List.drop_eq_nil_of_le (by simp), List.drop_eq_nil_of_le (by simpa using h)]
      rw [hdrop, List.take_append_drop]

/-- Records of one length, put together and cut again. -/
theorem cut_flatten (n : Nat) (records : List (List α)) (h : ∀ r ∈ records, r.length = n) :
    (List.range records.length).map (fun k => (records.flatten.drop (n * k)).take n) = records := by
  induction records with
  | nil => rfl
  | cons r records ih =>
    obtain rfl : r.length = n := h r List.mem_cons_self
    have hcut : ∀ k, (r ++ records.flatten).drop (r.length * (k + 1)) = records.flatten.drop (r.length * k) := by
      intro k
      rw [Nat.mul_succ, Nat.add_comm, ← List.drop_drop, List.drop_left]
    rw [List.length_cons, List.range_succ_eq_map, List.map_cons, List.map_map, List.flatten_cons]
    refine congrArg₂ List.cons ?_ ?_
    · rw [Nat.mul_zero, List.drop_zero, List.take_left]
    · simp only [Function.comp_def, Nat.succ_eq_add_one, hcut]
      exact ih fun x hx => h x (List.mem_cons_of_mem _ hx)

end RecordWalk
