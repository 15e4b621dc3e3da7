import Mathlib

/-!
# Tests over a stream

A repetition test looks for a long run of one value anywhere in a stream, a proportion
test counts, in each of the windows the stream is cut into, the value the window begins
with. Either can fail only by what one more value brings, and the first failure decides.
-/
namespace StreamTests

variable {α : Type*}

/-! ## Repetition -/

/-- A run of one value reached the cutoff. -/
def Repeats (cutoff : Nat) (h : List α) : Prop := ∃ b ∈ h, List.replicate cutoff b <:+: h

instance [DecidableEq α] (cutoff : Nat) (h : List α) : Decidable (Repeats cutoff h) := inferInstanceAs (Decidable (∃ b ∈ h, _))

/-- How often the last value was repeated at the end. -/
def trailing [DecidableEq α] (h : List α) : Nat :=
  match h.reverse with
  | [] => 0
  | b :: rest => (rest.takeWhile (· = b)).length + 1

theorem trailing_snoc [DecidableEq α] (h : List α) (b : α) :
    trailing (h ++ [b]) = if h.getLast? = some b then trailing h + 1 else 1 := by
  unfold trailing
  rw [List.reverse_append, List.reverse_singleton, List.singleton_append]
  cases hr : h.reverse with
  | nil =>
    obtain rfl := List.reverse_eq_nil_iff.1 hr
    simp
  | cons x rest =>
    have hlast : h.getLast? = some x := by rw [← List.head?_reverse, hr, List.head?_cons]
    rw [hlast]
    by_cases hx : x = b
    · subst hx
      simp
    · simp [hx]

theorem trailing_le [DecidableEq α] (h : List α) : trailing h ≤ h.length := by
  unfold trailing
  rw [← List.length_reverse]
  cases h.reverse with
  | nil => exact Nat.le_refl 0
  | cons b rest => exact Nat.succ_le_succ (List.takeWhile_prefix _).length_le

theorem trailing_pos [DecidableEq α] {h : List α} (hsome : h ≠ []) : 0 < trailing h := by
  unfold trailing
  cases hr : h.reverse with
  | nil => exact absurd (List.reverse_eq_nil_iff.1 hr) hsome
  | cons b rest => exact Nat.succ_pos _

theorem replicate_prefix_iff [DecidableEq α] (cutoff : Nat) (b : α) (l : List α) :
    List.replicate cutoff b <+: l ↔ cutoff ≤ (l.takeWhile (· = b)).length := by
  induction cutoff generalizing l with
  | zero => simp
  | succ cutoff ih =>
    cases l with
    | nil => simp
    | cons x l =>
      rw [List.replicate_succ, List.cons_prefix_cons, ih]
      by_cases hx : x = b
      · subst hx
        simp
      · simp [hx, Ne.symm hx]

/-- One more value makes a run by the values at the end. -/
theorem repeats_snoc [DecidableEq α] {cutoff : Nat} (hcutoff : 0 < cutoff) (h : List α) (b : α) :
    Repeats cutoff (h ++ [b]) ↔ Repeats cutoff h ∨ cutoff ≤ trailing (h ++ [b]) := by
  have hturn : ∀ (x : α) (l : List α), List.replicate cutoff x <:+: l ↔ List.replicate cutoff x <:+: l.reverse := by
    intro x l
    rw [← List.reverse_infix, List.reverse_replicate]
  have hmem : ∀ (x : α) (l : List α), List.replicate cutoff x <:+: l → x ∈ l := by
    intro x l hl
    exact hl.subset (List.mem_replicate.2 ⟨hcutoff.ne', rfl⟩)
  have hend : trailing (h ++ [b]) = ((b :: h.reverse).takeWhile (· = b)).length := by
    simp [trailing]
  rw [hend, ← replicate_prefix_iff]
  constructor
  · rintro ⟨x, -, hx⟩
    rw [hturn, List.reverse_append, List.reverse_singleton, List.singleton_append, List.infix_cons_iff] at hx
    obtain hhere | hold := hx
    · have hxb : x = b := by
        obtain ⟨n, rfl⟩ := Nat.exists_eq_succ_of_ne_zero hcutoff.ne'
        exact (List.cons_prefix_cons.1 (by simpa [List.replicate_succ] using hhere)).1
      exact .inr (hxb ▸ hhere)
    · rw [← hturn] at hold
      exact .inl ⟨x, hmem x h hold, hold⟩
  · rintro (⟨x, hx, hold⟩ | hhere)
    · exact ⟨x, List.mem_append_left _ hx, hold.trans (List.prefix_append h [b]).isInfix⟩
    · refine ⟨b, List.mem_append_right _ List.mem_cons_self, ?_⟩
      rw [hturn, List.reverse_append, List.reverse_singleton, List.singleton_append]
      exact hhere.isInfix

/-! ## Proportion -/

/-- One of the windows a stream is cut into. -/
def window (n : Nat) (h : List α) (k : Nat) : List α := (h.drop (n * k)).take n

/-- How often the first value occurs. -/
def firstCount [DecidableEq α] : List α → Nat
  | [] => 0
  | b :: l => (b :: l).count b

/-- In some window the first value reached the cutoff. -/
def Dominates [DecidableEq α] (n cutoff : Nat) (h : List α) : Prop := ∃ k < h.length, cutoff ≤ firstCount (window n h k)

instance [DecidableEq α] (n cutoff : Nat) (h : List α) : Decidable (Dominates n cutoff h) :=
  inferInstanceAs (Decidable (∃ k < h.length, _))

/-- What the window at the end holds so far. -/
def current (n : Nat) (h : List α) : List α := h.drop (n * (h.length / n))

theorem current_length (n : Nat) (h : List α) : (current n h).length = h.length % n := by
  rw [current, List.length_drop, Nat.mod_eq_sub_mul_div]

theorem firstCount_snoc [DecidableEq α] (l : List α) (b : α) :
    firstCount (l ++ [b]) = if l = [] then 1 else firstCount l + if l.head? = some b then 1 else 0 := by
  cases l with
  | nil => simp [firstCount]
  | cons x l =>
    simp only [firstCount, List.cons_append, List.head?_cons, Option.some.injEq, reduceCtorEq, if_false]
    rw [← List.cons_append, List.count_append, List.count_singleton]
    by_cases hx : x = b
    · simp [hx]
    · simp [hx, Ne.symm hx]

theorem firstCount_pos [DecidableEq α] {l : List α} (hsome : l ≠ []) : 0 < firstCount l := by
  cases l with
  | nil => exact absurd rfl hsome
  | cons x l => exact List.count_pos_iff.2 List.mem_cons_self

theorem firstCount_le [DecidableEq α] (l : List α) : firstCount l ≤ l.length := by
  cases l with
  | nil => simp [firstCount]
  | cons x l => exact List.count_le_length

/-- The window that a value enters. -/
theorem window_last {n : Nat} (hn : 0 < n) (h : List α) (b : α) :
    window n (h ++ [b]) (h.length / n) = current n h ++ [b] := by
  have hle := Nat.mul_div_le h.length n
  rw [window, List.drop_append_of_le_length hle, List.take_of_length_le]
  · rfl
  · rw [List.length_append, List.length_drop, List.length_singleton]
    have := Nat.div_add_mod h.length n
    have := Nat.mod_lt h.length hn
    omega

theorem window_early {n : Nat} (hn : 0 < n) (h : List α) (b : α) {k : Nat} (hk : k < h.length / n) :
    window n (h ++ [b]) k = window n h k := by
  have hend : n * k + n ≤ h.length := by
    have h1 := Nat.mul_le_mul_left n hk
    have h2 := Nat.mul_div_le h.length n
    rw [Nat.succ_eq_add_one, Nat.mul_add, Nat.mul_one] at h1
    omega
  rw [window, window, List.drop_append_of_le_length (by omega), List.take_append_of_le_length]
  rw [List.length_drop]
  omega

theorem window_beyond {n : Nat} (hn : 0 < n) (h : List α) {k : Nat} (hk : h.length / n < k) : window n h k = [] := by
  have hlt := Nat.lt_mul_div_succ h.length hn
  have hle := Nat.mul_le_mul_left n hk
  rw [Nat.succ_eq_add_one] at hle
  rw [window, List.drop_eq_nil_of_le (by omega), List.take_nil]

/-- One more value makes a window dominated by what it holds now. -/
theorem dominates_snoc [DecidableEq α] {n cutoff : Nat} (hn : 0 < n) (hcutoff : 0 < cutoff) (h : List α) (b : α)
    (hfits : ¬ Dominates n cutoff h) : Dominates n cutoff (h ++ [b]) ↔ cutoff ≤ firstCount (current n h ++ [b]) := by
  have hdiv : h.length / n ≤ h.length := Nat.div_le_self _ _
  constructor
  · rintro ⟨k, hk, hcount⟩
    rcases Nat.lt_trichotomy k (h.length / n) with hlt | rfl | hgt
    · rw [window_early hn h b hlt] at hcount
      exact absurd ⟨k, by omega, hcount⟩ hfits
    · rwa [window_last hn] at hcount
    · have hbeyond : (h ++ [b]).length / n < k ∨ (h ++ [b]).length / n = k := by
        have hstep : (h.length + 1) / n ≤ h.length / n + 1 := by
          rw [Nat.succ_div]
          split <;> omega
        rw [List.length_append, List.length_singleton]
        omega
      have hempty : window n (h ++ [b]) k = [] := by
        obtain hbeyond | hlast := hbeyond
        · exact window_beyond hn _ hbeyond
        · have hlong : (h ++ [b]).length ≤ n * k := by
            have hnext : h.length < n * (h.length / n) + n := Nat.lt_mul_div_succ h.length hn
            have hmul := Nat.mul_le_mul_left n hgt
            rw [Nat.succ_eq_add_one, Nat.mul_add, Nat.mul_one] at hmul
            rw [List.length_append, List.length_singleton]
            omega
          rw [window, List.drop_eq_nil_of_le hlong, List.take_nil]
      rw [hempty, firstCount] at hcount
      omega
  · intro hcount
    refine ⟨h.length / n, by rw [List.length_append, List.length_singleton]; omega, ?_⟩
    rwa [window_last hn]

/-- The window at the end goes on, or begins again when it is full. -/
theorem current_snoc {n : Nat} (hn : 0 < n) (h : List α) (b : α) :
    current n (h ++ [b]) = if h.length % n + 1 = n then [] else current n h ++ [b] := by
  have hsum := Nat.div_add_mod h.length n
  have hmod := Nat.mod_lt h.length hn
  split
  next hfull =>
    have hlong : (h ++ [b]).length = n * (h.length / n + 1) := by
      rw [List.length_append, List.length_singleton, Nat.mul_add, Nat.mul_one]
      omega
    rw [current, hlong, Nat.mul_div_cancel_left _ hn, ← hlong, List.drop_length]
  next hpart =>
    have hdiv : (h ++ [b]).length / n = h.length / n := by
      rw [List.length_append, List.length_singleton]
      apply Nat.div_eq_of_lt_le
      · rw [Nat.mul_comm]
        omega
      · rw [Nat.mul_comm, Nat.mul_add, Nat.mul_one]
        omega
    rw [current, hdiv, List.drop_append_of_le_length (Nat.mul_div_le _ _)]
    rfl

/-! ## The first failure -/

/-- What the first prefix that meets `bad` decides, if there is one. -/
def firstOf {ρ : Type*} (bad : List α → Prop) [DecidablePred bad] (decide : List α → ρ) (h : List α) : Option ρ :=
  (h.inits.find? fun p => bad p).map decide

theorem firstOf_snoc {ρ : Type*} (bad : List α → Prop) [DecidablePred bad] (decide : List α → ρ) (h : List α) (b : α) :
    firstOf bad decide (h ++ [b]) =
      match firstOf bad decide h with
      | some r => some r
      | none => if bad (h ++ [b]) then some (decide (h ++ [b])) else none := by
  have hinits : (h ++ [b]).inits = h.inits ++ [h ++ [b]] := by
    rw [List.inits_append]
    simp
  unfold firstOf
  rw [hinits, List.find?_append]
  cases hfind : h.inits.find? fun p => bad p with
  | some p => simp
  | none =>
    by_cases hbad : bad (h ++ [b])
    · simp [hbad]
    · simp [hbad]

/-- Without a failure the whole stream is good. -/
theorem good_of_firstOf {ρ : Type*} {bad : List α → Prop} [DecidablePred bad] {decide : List α → ρ} {h : List α}
    (hnone : firstOf bad decide h = none) : ¬ bad h := by
  have hfind : h.inits.find? (fun p => bad p) = none := by simpa [firstOf] using hnone
  have hall := List.find?_eq_none.1 hfind h ((List.mem_inits h h).2 (List.prefix_refl h))
  simpa using hall

end StreamTests
