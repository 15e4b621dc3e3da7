import Mathlib.Data.List.Nodup
import Mathlib.Data.List.Sort
import Mathlib.Data.Finset.Card
import Mathlib.Tactic

/-!
# Rosters

A bounded list of entries with distinct keys, fed by a stream. An entry that
does not fit withdraws its key, one that fits replaces the entry of its key or is
appended. A full roster refuses new keys or gives up its weakest entry for a
stronger one.
-/
namespace Roster

variable {α κ σ : Type*} [DecidableEq κ] [LinearOrder σ]

/-- The first position of the least value below `n`. -/
def weakest (f : Nat → σ) (n : Nat) : Nat :=
  (List.range' 1 (n - 1)).foldl (fun w i => if f i < f w then i else w) 0

theorem weakest_succ (f : Nat → σ) (n : Nat) :
    weakest f (n + 2) = if f (n + 1) < f (weakest f (n + 1)) then n + 1 else weakest f (n + 1) := by
  simp [weakest, List.range'_concat, Nat.add_comm 1 n]

theorem weakest_spec (f : Nat → σ) (n : Nat) :
    weakest f (n + 1) < n + 1 ∧ ∀ i < n + 1, f (weakest f (n + 1)) ≤ f i := by
  induction n with
  | zero => simp [weakest]
  | succ n ih =>
    rw [weakest_succ]
    split
    · rename_i hlt
      refine ⟨by omega, fun i hi => ?_⟩
      rcases Nat.lt_succ_iff_lt_or_eq.mp hi with hi | rfl
      · exact hlt.le.trans (ih.2 i hi)
      · exact le_refl _
    · rename_i hge
      refine ⟨by omega, fun i hi => ?_⟩
      rcases Nat.lt_succ_iff_lt_or_eq.mp hi with hi | rfl
      · exact ih.2 i hi
      · exact not_lt.mp hge

theorem weakest_congr {f g : Nat → σ} (n : Nat) (h : ∀ i < n + 1, f i = g i) :
    weakest f (n + 1) = weakest g (n + 1) := by
  induction n with
  | zero => simp [weakest]
  | succ n ih =>
    have hprev := ih fun i hi => h i (by omega)
    have hlt := (weakest_spec g n).1
    rw [weakest_succ, weakest_succ, hprev, h (n + 1) (by omega), h _ (by omega)]

/-- The first of the least values below `n` that pass, or `absent`. -/
def leastOf (passes : Nat → Bool) (better : Nat → Nat → Bool) (absent n : Nat) : Nat :=
  (List.range n).foldl (fun best i => if passes i && (best == absent || better i best) then i else best) absent

theorem leastOf_succ (passes : Nat → Bool) (better : Nat → Nat → Bool) (absent n : Nat) :
    leastOf passes better absent (n + 1) =
      if passes n && (leastOf passes better absent n == absent || better n (leastOf passes better absent n)) then n
      else leastOf passes better absent n := by
  simp [leastOf, List.range_succ]

theorem leastOf_spec (passes : Nat → Bool) (better : Nat → Nat → Bool) (absent : Nat) (f : Nat → σ) (n : Nat)
    (hbetter : ∀ i < n, ∀ j < n, passes i = true → passes j = true → (better i j = true ↔ f i < f j)) (hn : n ≤ absent) :
    (leastOf passes better absent n = absent ∧ ∀ i < n, passes i = false) ∨
      leastOf passes better absent n < n ∧ passes (leastOf passes better absent n) = true ∧
        ∀ i < n, passes i = true →
          toLex (f (leastOf passes better absent n), leastOf passes better absent n) ≤ toLex (f i, i) := by
  induction n with
  | zero => exact .inl ⟨rfl, fun i hi => absurd hi (Nat.not_lt_zero i)⟩
  | succ n ih =>
    rw [leastOf_succ]
    have hprev : ∀ i < n, ∀ j < n, passes i = true → passes j = true → (better i j = true ↔ f i < f j) :=
      fun i hi j hj => hbetter i (Nat.lt_succ_of_lt hi) j (Nat.lt_succ_of_lt hj)
    rcases ih hprev (Nat.le_of_succ_le hn) with ⟨habsent, hnone⟩ | ⟨hlt, hbest, hleast⟩
    · cases hp : passes n with
      | false =>
        refine .inl ⟨by simp [habsent], fun i hi => ?_⟩
        rcases Nat.lt_succ_iff_lt_or_eq.mp hi with hi | rfl
        · exact hnone i hi
        · exact hp
      | true =>
        refine .inr ?_
        simp only [habsent, Bool.true_and, beq_self_eq_true, Bool.true_or, if_true]
        refine ⟨Nat.lt_succ_self n, hp, fun i hi hpass => ?_⟩
        rcases Nat.lt_succ_iff_lt_or_eq.mp hi with hi | rfl
        · exact absurd hpass (by simp [hnone i hi])
        · exact le_refl _
    · refine .inr ?_
      split
      next hnew =>
        obtain ⟨hp, hor⟩ := Bool.and_eq_true_iff.mp hnew
        have hless : f n < f (leastOf passes better absent n) := by
          rcases Bool.or_eq_true_iff.mp hor with heq | hgood
          · have := beq_iff_eq.mp heq
            omega
          · exact (hbetter n (Nat.lt_succ_self n) _ (Nat.lt_succ_of_lt hlt) hp hbest).mp hgood
        refine ⟨Nat.lt_succ_self n, hp, fun i hi hpass => ?_⟩
        rcases Nat.lt_succ_iff_lt_or_eq.mp hi with hi | rfl
        · exact (Prod.Lex.toLex_le_toLex.mpr (.inl hless)).trans (hleast i hi hpass)
        · exact le_refl _
      next hold =>
        refine ⟨Nat.lt_succ_of_lt hlt, hbest, fun i hi hpass => ?_⟩
        rcases Nat.lt_succ_iff_lt_or_eq.mp hi with hi | rfl
        · exact hleast i hi hpass
        · -- a later value takes over only when it is strictly less
          have hge : ¬ f i < f (leastOf passes better absent i) := fun hless =>
            hold (by simp [hpass, (hbetter i (Nat.lt_succ_self i) _ (Nat.lt_succ_of_lt hlt) hpass hbest).mpr hless])
          rcases (not_lt.mp hge).lt_or_eq with hl | he
          · exact Prod.Lex.toLex_le_toLex.mpr (.inl hl)
          · exact Prod.Lex.toLex_le_toLex.mpr (.inr ⟨he, hlt.le⟩)

variable (key : α → κ) (fits : α → Bool) (score : α → σ) (capacity : Nat) (best : Bool)

/-- A full roster gives up its weakest entry for a stronger one. -/
def evict (l : List α) (a : α) : List α :=
  let w := weakest (fun i => score (l.getD i a)) l.length
  if score a ≤ score (l.getD w a) then l else l.set w a

/-- One entry of the stream. -/
def offer (l : List α) (a : α) : List α :=
  match l.findIdx? fun b => decide (key b = key a) with
  | some i => if fits a then l.set i a else l.eraseIdx i
  | none =>
    if !fits a then l
    else if l.length < capacity then l ++ [a]
    else if best then evict score l a
    else l

/-- The roster after a stream. -/
def roster (stream : List α) : List α := stream.foldl (offer key fits score capacity best) []

theorem roster_concat (stream : List α) (a : α) :
    roster key fits score capacity best (stream ++ [a]) =
      offer key fits score capacity best (roster key fits score capacity best stream) a := by
  simp [roster]

/-- What an eviction can do: the weakest entry stays, or the new one takes its place. -/
theorem evict_cases (l : List α) (a : α) (hl : l ≠ []) :
    ∃ u c v, l = u ++ c :: v ∧ (∀ b ∈ l, score c ≤ score b) ∧
      evict score l a = if score a ≤ score c then l else u ++ a :: v := by
  obtain ⟨n, hn⟩ := Nat.exists_eq_succ_of_ne_zero (List.length_pos_iff.mpr hl).ne'
  have hspec := weakest_spec (fun i => score (l.getD i a)) n
  rw [Nat.succ_eq_add_one] at hn
  rw [← hn] at hspec
  obtain ⟨hlt, hmin⟩ := hspec
  unfold evict
  simp only
  generalize weakest (fun i => score (l.getD i a)) l.length = w at hlt hmin ⊢
  have hget : l.getD w a = l[w] := by simp [hlt]
  refine ⟨l.take w, l[w], l.drop (w + 1), ?_, ?_, ?_⟩
  · rw [List.getElem_cons_drop, List.take_append_drop]
  · intro b hb
    obtain ⟨i, hi, rfl⟩ := List.mem_iff_getElem.mp hb
    have hle := hmin i hi
    rw [hget] at hle
    simpa [hi] using hle
  · rw [hget, List.set_eq_take_append_cons_drop, if_pos hlt]

/-- What one entry can do. -/
theorem offer_cases (l : List α) (a : α) :
    (∃ u c v, l = u ++ c :: v ∧ key c = key a ∧
      offer key fits score capacity best l a = if fits a then u ++ a :: v else u ++ v) ∨
    ((∀ b ∈ l, key b ≠ key a) ∧ offer key fits score capacity best l a =
      if !fits a then l else if l.length < capacity then l ++ [a] else if best then evict score l a else l) := by
  unfold offer
  cases hfind : l.findIdx? fun b => decide (key b = key a) with
  | some i =>
    left
    obtain ⟨hi, hkey, -⟩ := List.findIdx?_eq_some_iff_getElem.mp hfind
    refine ⟨l.take i, l[i], l.drop (i + 1), ?_, by simpa using hkey, ?_⟩
    · rw [List.getElem_cons_drop, List.take_append_drop]
    · simp only
      rw [List.set_eq_take_append_cons_drop, if_pos hi, List.eraseIdx_eq_take_drop_succ]
  | none =>
    right
    refine ⟨?_, rfl⟩
    simpa using hfind

/-! ## What a roster always is -/

structure Kept (l : List α) : Prop where
  nodup : (l.map key).Nodup
  fit : ∀ b ∈ l, fits b = true
  room : l.length ≤ capacity

variable {key fits score capacity best}

/-- Entries come from the stream. -/
theorem mem_offer {l : List α} {a b : α} (hb : b ∈ offer key fits score capacity best l a) : b ∈ l ∨ b = a := by
  rcases offer_cases key fits score capacity best l a with ⟨u, c, v, rfl, -, heq⟩ | ⟨-, heq⟩
  · rw [heq] at hb
    split at hb <;> simp at hb ⊢ <;> tauto
  · rw [heq] at hb
    split at hb
    · exact .inl hb
    split at hb
    · simpa using hb
    split at hb
    swap
    · exact .inl hb
    by_cases hl : l = []
    · subst hl
      simp [evict] at hb
    obtain ⟨u, c, v, hsplit, -, hevict⟩ := evict_cases score l a hl
    rw [hevict] at hb
    split at hb
    · exact .inl hb
    · rw [hsplit]
      simp at hb ⊢
      tauto

theorem Kept.offer {l : List α} (h : Kept key fits capacity l) (a : α) :
    Kept key fits capacity (offer key fits score capacity best l a) := by
  refine ⟨?_, ?_, ?_⟩
  · have hnodup := h.nodup
    rcases offer_cases key fits score capacity best l a with ⟨u, c, v, rfl, hkey, heq⟩ | ⟨hnew, heq⟩ <;> rw [heq]
    · split
      · simpa [hkey] using hnodup
      · refine hnodup.sublist (List.Sublist.map key ?_)
        exact List.Sublist.append (List.Sublist.refl u) (List.sublist_cons_self c v)
    · split
      · exact hnodup
      split
      · rw [List.map_append, List.nodup_append]
        refine ⟨hnodup, by simp, ?_⟩
        intro k hk k' hk' hkk
        obtain ⟨b, hb, rfl⟩ := List.mem_map.mp hk
        simp only [List.map_cons, List.map_nil, List.mem_singleton] at hk'
        exact hnew b hb (hkk.trans hk')
      split
      swap
      · exact hnodup
      unfold evict
      simp only
      split
      · exact hnodup
      · rw [List.map_set]
        refine hnodup.set ?_
        intro hmem
        obtain ⟨b, hb, hkey⟩ := List.mem_map.mp hmem
        exact hnew b hb hkey
  · intro b hb
    rcases mem_offer hb with hl | rfl
    · exact h.fit b hl
    -- The new entry is in the roster only when it fits.
    by_contra hfit
    rw [Bool.not_eq_true] at hfit
    rcases offer_cases key fits score capacity best l b with ⟨u, c, v, rfl, hkey, heq⟩ | ⟨hnew, heq⟩
    · rw [heq, hfit] at hb
      simp only [Bool.false_eq_true, if_false] at hb
      have hmem : b ∈ u ++ c :: v := by
        simp at hb ⊢
        tauto
      rw [h.fit b hmem] at hfit
      cases hfit
    · rw [heq, hfit] at hb
      exact hnew b hb rfl
  · have hroom := h.room
    rcases offer_cases key fits score capacity best l a with ⟨u, c, v, rfl, hkey, heq⟩ | ⟨hnew, heq⟩ <;> rw [heq]
    · split <;> simp at hroom ⊢ <;> omega
    · split
      · exact hroom
      split
      · simp
        omega
      split
      · unfold evict
        simp only
        split <;> simpa using hroom
      · exact hroom

theorem roster_kept (stream : List α) : Kept key fits capacity (roster key fits score capacity best stream) := by
  induction stream using List.reverseRecOn with
  | nil => exact ⟨by simp [roster], by simp [roster], by simp [roster]⟩
  | append_singleton stream a ih =>
    rw [roster_concat]
    exact ih.offer a

theorem mem_roster {stream : List α} {b : α} (hb : b ∈ roster key fits score capacity best stream) : b ∈ stream := by
  induction stream using List.reverseRecOn with
  | nil => simp [roster] at hb
  | append_singleton stream a ih =>
    rw [roster_concat] at hb
    rcases mem_offer hb with hb | rfl
    · exact List.mem_append_left _ (ih hb)
    · simp

/-! ## The last word of each key -/

/-- The last entry of a stream with a key. -/
def lastOf (key : α → κ) (stream : List α) (k : κ) : Option α := stream.reverse.find? fun b => decide (key b = k)

theorem lastOf_concat (stream : List α) (a : α) (k : κ) :
    lastOf key (stream ++ [a]) k = if key a = k then some a else lastOf key stream k := by
  by_cases h : key a = k <;> simp [lastOf, h]

theorem lastOf_key {stream : List α} {k : κ} {a : α} (h : lastOf key stream k = some a) : key a = k := by
  simpa using List.find?_some h

/-- The keys that fit somewhere in a stream. -/
def fitting (key : α → κ) (fits : α → Bool) (stream : List α) : Finset κ := ((stream.filter fits).map key).toFinset

theorem mem_fitting {stream : List α} {k : κ} :
    k ∈ fitting key fits stream ↔ ∃ a ∈ stream, fits a = true ∧ key a = k := by
  simp [fitting, and_assoc]

theorem fitting_mono {stream : List α} (a : α) : fitting key fits stream ⊆ fitting key fits (stream ++ [a]) := by
  intro k hk
  obtain ⟨b, hb, hfit, hkey⟩ := mem_fitting.mp hk
  exact mem_fitting.mpr ⟨b, List.mem_append_left _ hb, hfit, hkey⟩

/-- With room for its key, an entry replaces whatever its key had. -/
theorem mem_offer_iff {l : List α} (h : Kept key fits capacity l) (a : α)
    (hroom : fits a = true → (∀ b ∈ l, key b ≠ key a) → l.length < capacity) (b : α) :
    b ∈ offer key fits score capacity best l a ↔ (b = a ∧ fits a = true) ∨ (b ∈ l ∧ key b ≠ key a) := by
  rcases offer_cases key fits score capacity best l a with ⟨u, c, v, rfl, hkey, heq⟩ | ⟨hnew, heq⟩ <;> rw [heq]
  · -- The keys of the other entries differ from the one that is replaced.
    have hnodup := h.nodup
    rw [List.map_append, List.map_cons, List.nodup_append, List.nodup_cons] at hnodup
    obtain ⟨-, ⟨hv, -⟩, hdisjoint⟩ := hnodup
    have hu : ∀ x ∈ u, key x ≠ key a := fun x hx heq =>
      hdisjoint (key x) (List.mem_map_of_mem hx) (key c) (by simp) (heq.trans hkey.symm)
    have hv' : ∀ x ∈ v, key x ≠ key a := fun x hx heq =>
      hv (hkey ▸ heq ▸ List.mem_map_of_mem hx)
    have hmem : b ∈ u ++ c :: v ∧ key b ≠ key a ↔ b ∈ u ∨ b ∈ v := by
      constructor
      · rintro ⟨hb, hne⟩
        rcases List.mem_append.mp hb with hb | hb
        · exact .inl hb
        rcases List.mem_cons.mp hb with rfl | hb
        · exact absurd hkey hne
        · exact .inr hb
      · rintro (hb | hb)
        · exact ⟨List.mem_append_left _ hb, hu b hb⟩
        · exact ⟨List.mem_append_right _ (List.mem_cons_of_mem _ hb), hv' b hb⟩
    rw [hmem]
    split
    · rename_i hfit
      simp [hfit]
      tauto
    · rename_i hfit
      simp [hfit]
  · cases hfit : fits a with
    | false =>
      simp only [Bool.not_false, if_true, Bool.false_eq_true, and_false, false_or]
      exact ⟨fun hb => ⟨hb, hnew b hb⟩, fun hb => hb.1⟩
    | true =>
      simp only [Bool.not_true, Bool.false_eq_true, if_false, if_pos (hroom hfit hnew), and_true]
      rw [List.mem_append, List.mem_singleton]
      constructor
      · rintro (hb | hb)
        · exact .inr ⟨hb, hnew b hb⟩
        · exact .inl hb
      · rintro (hb | hb)
        · exact .inr hb
        · exact .inl hb.1

/-- A stream with no more fitting keys than there is room: the roster holds the
keys whose last entry fits, each with that entry. -/
theorem roster_last (stream : List α) (hfew : (fitting key fits stream).card ≤ capacity) (b : α) :
    b ∈ roster key fits score capacity best stream ↔ lastOf key stream (key b) = some b ∧ fits b = true := by
  induction stream using List.reverseRecOn generalizing b with
  | nil => simp [roster, lastOf]
  | append_singleton stream a ih =>
    have hprefix : (fitting key fits stream).card ≤ capacity :=
      (Finset.card_le_card (fitting_mono a)).trans hfew
    have hkept : Kept key fits capacity (roster key fits score capacity best stream) := roster_kept stream
    -- A full roster and a new fitting key would be one fitting key too many.
    have hroom : fits a = true →
        (∀ b ∈ roster key fits score capacity best stream, key b ≠ key a) →
        (roster key fits score capacity best stream).length < capacity := by
      intro hfit hnew
      have hsub : insert (key a) ((roster key fits score capacity best stream).map key).toFinset ⊆
          fitting key fits (stream ++ [a]) := by
        intro k hk
        rcases Finset.mem_insert.mp hk with rfl | hk
        · exact mem_fitting.mpr ⟨a, by simp, hfit, rfl⟩
        · obtain ⟨b, hb, rfl⟩ := List.mem_map.mp (List.mem_toFinset.mp hk)
          exact mem_fitting.mpr ⟨b, List.mem_append_left _ (mem_roster hb), hkept.fit b hb, rfl⟩
      have hcard := (Finset.card_le_card hsub).trans hfew
      rw [Finset.card_insert_of_notMem, List.toFinset_card_of_nodup hkept.nodup, List.length_map] at hcard
      · exact hcard
      · intro hmem
        obtain ⟨b, hb, hkey⟩ := List.mem_map.mp (List.mem_toFinset.mp hmem)
        exact hnew b hb hkey
    rw [roster_concat, mem_offer_iff hkept a hroom, lastOf_concat, ih hprefix]
    by_cases hkey : key a = key b
    · rw [if_pos hkey, Option.some_inj]
      constructor
      · rintro (⟨rfl, hfit⟩ | ⟨-, hne⟩)
        · exact ⟨rfl, hfit⟩
        · exact absurd hkey.symm hne
      · rintro ⟨rfl, hfit⟩
        exact .inl ⟨rfl, hfit⟩
    · rw [if_neg hkey]
      constructor
      · rintro (⟨rfl, -⟩ | ⟨h, -⟩)
        · exact absurd rfl hkey
        · exact h
      · intro h
        exact .inr ⟨h, fun heq => hkey heq.symm⟩

/-! ## The strongest entries -/

/-- The roster and what was given up: nothing while there is room, and never more
than what is kept. -/
structure Strongest (score : α → σ) (capacity : Nat) (l : List α) (rest : List σ) (stream : List α) : Prop where
  perm : (l.map score ++ rest).Perm (stream.map score)
  room : l.length < capacity → rest = []
  above : ∀ b ∈ l, ∀ x ∈ rest, x ≤ score b

theorem Strongest.offer {l : List α} {rest : List σ} {stream : List α} (h : Strongest score capacity l rest stream)
    (hcapacity : 0 < capacity) (a : α) (hfit : fits a = true) (hnew : ∀ b ∈ l, key b ≠ key a)
    (hroom : l.length ≤ capacity) :
    ∃ rest', Strongest score capacity (offer key fits score capacity true l a) rest' (stream ++ [a]) := by
  have heq : Roster.offer key fits score capacity true l a =
      if l.length < capacity then l ++ [a] else evict score l a := by
    rcases offer_cases key fits score capacity true l a with ⟨u, c, v, rfl, hkey, -⟩ | ⟨-, heq⟩
    · exact absurd hkey (hnew c (by simp))
    · simpa [hfit] using heq
  rw [heq]
  split
  · rename_i hlt
    have hnone := h.room hlt
    subst hnone
    refine ⟨[], ⟨?_, fun _ => rfl, by simp⟩⟩
    have hperm := h.perm
    simp only [List.append_nil, List.map_append] at hperm ⊢
    exact hperm.append_right _
  · rename_i hfull
    have hne : l ≠ [] := by
      rintro rfl
      exact hfull hcapacity
    obtain ⟨u, c, v, hsplit, hmin, hevict⟩ := evict_cases score l a hne
    rw [hevict]
    split
    · -- The new entry is no stronger than the weakest one.
      rename_i hle
      refine ⟨score a :: rest, ⟨?_, fun hlt => absurd hlt hfull, ?_⟩⟩
      · rw [List.map_append]
        exact List.perm_middle.trans ((h.perm.cons _).trans (List.perm_append_singleton _ _).symm)
      · intro b hb x hx
        rcases List.mem_cons.mp hx with rfl | hx
        · exact hle.trans (hmin b hb)
        · exact h.above b hb x hx
    · rename_i hlt
      rw [not_le] at hlt
      refine ⟨score c :: rest, ⟨?_, ?_, ?_⟩⟩
      · have hperm := h.perm
        rw [hsplit] at hperm
        simp only [List.map_append, List.map_cons, List.map_nil, List.append_assoc, List.cons_append] at hperm ⊢
        calc (u.map score ++ score a :: (v.map score ++ score c :: rest)).Perm
              (score a :: (u.map score ++ (v.map score ++ score c :: rest))) := List.perm_middle
          _ |>.Perm (score a :: (u.map score ++ score c :: (v.map score ++ rest))) :=
              (List.Perm.append_left _ List.perm_middle).cons _
          _ |>.Perm (score a :: stream.map score) := hperm.cons _
          _ |>.Perm (stream.map score ++ [score a]) := (List.perm_append_singleton _ _).symm
      · intro hlt'
        rw [hsplit] at hfull
        simp at hlt' hfull
        omega
      · intro b hb x hx
        have hb' : b = a ∨ b ∈ l := by
          rw [hsplit]
          simp at hb ⊢
          tauto
        have hc : score c ≤ score b := by
          rcases hb' with rfl | hb
          · exact hlt.le
          · exact hmin b hb
        rcases List.mem_cons.mp hx with rfl | hx
        · exact hc
        · exact (h.above c (by rw [hsplit]; simp) x hx).trans hc

/-- Of a stream of distinct fitting keys, the strongest entries are kept. -/
theorem roster_strongest (hcapacity : 0 < capacity) (stream : List α) (hfit : ∀ a ∈ stream, fits a = true)
    (hdistinct : (stream.map key).Nodup) :
    ((roster key fits score capacity true stream).map score : Multiset σ) =
      (((stream.map score).mergeSort fun x y => decide (y ≤ x)).take capacity : List σ) := by
  have hkeep : ∃ rest, Strongest score capacity (roster key fits score capacity true stream) rest stream := by
    induction stream using List.reverseRecOn with
    | nil => exact ⟨[], ⟨by simp [roster], fun _ => rfl, by simp⟩⟩
    | append_singleton stream a ih =>
      rw [List.map_append, List.nodup_append] at hdistinct
      obtain ⟨rest, hstrong⟩ := ih (fun b hb => hfit b (List.mem_append_left _ hb)) hdistinct.1
      rw [roster_concat]
      refine hstrong.offer hcapacity a (hfit a (by simp)) ?_ (roster_kept stream).room
      intro b hb
      exact hdistinct.2.2 _ (List.mem_map_of_mem (mem_roster hb)) _ (by simp)
  obtain ⟨rest, hstrong⟩ := hkeep
  have hkept : Kept key fits capacity (roster key fits score capacity true stream) := roster_kept stream
  have hroom := hkept.room
  clear hkept
  generalize roster key fits score capacity true stream = l at hstrong hroom ⊢
  -- Sorted apart and put together, what is kept and what is not is the sorted stream.
  have hsorted (x : List σ) : (x.mergeSort fun x y => decide (y ≤ x)).Pairwise fun x y => y ≤ x := by
    have h := @List.pairwise_mergeSort σ (fun x y => decide (y ≤ x))
      (by intro a b c; simp only [decide_eq_true_eq]; exact fun hab hbc => hbc.trans hab)
      (by intro a b; simp only [Bool.or_eq_true, decide_eq_true_eq]; exact le_total b a) x
    simpa using h
  have hall : ((stream.map score).mergeSort fun x y => decide (y ≤ x)) =
      ((l.map score).mergeSort fun x y => decide (y ≤ x)) ++ (rest.mergeSort fun x y => decide (y ≤ x)) := by
    refine List.Perm.eq_of_pairwise ?_ (hsorted _) ?_ ?_
    · exact fun x y _ _ hxy hyx => le_antisymm hyx hxy
    · rw [List.pairwise_append]
      refine ⟨hsorted _, hsorted _, ?_⟩
      intro x hx y hy
      rw [List.mem_mergeSort] at hx hy
      obtain ⟨b, hb, rfl⟩ := List.mem_map.mp hx
      exact hstrong.above b hb y hy
    · exact (List.mergeSort_perm _ _).trans (hstrong.perm.symm.trans
        ((List.mergeSort_perm _ _).symm.append (List.mergeSort_perm _ _).symm))
  have htake : ((stream.map score).mergeSort fun x y => decide (y ≤ x)).take capacity =
      (l.map score).mergeSort fun x y => decide (y ≤ x) := by
    rw [hall]
    rcases Nat.lt_or_eq_of_le hroom with hlt | heq
    · rw [hstrong.room hlt, List.mergeSort_nil, List.append_nil]
      exact List.take_of_length_le (by simp; omega)
    · exact List.take_left' (by simp [heq])
  rw [htake, Multiset.coe_eq_coe]
  exact (List.mergeSort_perm _ _).symm

end Roster
