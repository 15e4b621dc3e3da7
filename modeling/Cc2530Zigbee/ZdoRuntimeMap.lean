import Cc2530Zigbee.Runs
import Cc2530Zigbee.ZdoRuntimeLeave

/-!
# The address map

Device announcements fill a map of four entries, this device and the trust center in
front. An announcement may take a short address from one entry, move another entry and
use a free one, all at once.
-/
namespace ZdoRuntime

open Octets
open EdWire (Packet)
open NwkFrame (Ieee)
open NwkAps (Transport)

/-! ## The sweep -/

/-- An entry of another device that holds the announced short address. -/
def Address.held (ieee : Ieee) (address : UInt16) (m : Address) : Prop :=
  m.used = true ∧ m.ieee ≠ ieee ∧ m.valid = true ∧ m.address = address

instance (ieee : Ieee) (address : UInt16) (m : Address) : Decidable (m.held ieee address) :=
  inferInstanceAs (Decidable (_ ∧ _ ∧ _ ∧ _))

/-- An entry behind the sweep. -/
def Address.swept (ieee : Ieee) (address : UInt16) (m : Address) : Address :=
  if m.held ieee address then { m with valid := false } else m

@[simp] theorem swept_used (ieee : Ieee) (address : UInt16) (m : Address) : (m.swept ieee address).used = m.used := by
  unfold Address.swept
  split <;> rfl

@[simp] theorem swept_ieee (ieee : Ieee) (address : UInt16) (m : Address) : (m.swept ieee address).ieee = m.ieee := by
  unfold Address.swept
  split <;> rfl

@[simp] theorem swept_address (ieee : Ieee) (address : UInt16) (m : Address) :
    (m.swept ieee address).address = m.address := by
  unfold Address.swept
  split <;> rfl

/-- A valid entry was valid before, and did not hold the announced address. -/
theorem swept_valid (ieee : Ieee) (address : UInt16) (m : Address) :
    (m.swept ieee address).valid = true ↔ m.valid = true ∧ ¬m.held ieee address := by
  unfold Address.swept
  split
  next h => simp [h]
  next h => simp [h]

theorem get_set (map : Vector Address 4) (i j : Fin 4) (m : Address) :
    (map.set i m).get j = if i = j then m else map.get j := by
  rw [Vector.get_eq_getElem, Vector.getElem_set, Vector.get_eq_getElem]
  simp only [Fin.ext_iff]

/-- What one entry adds to the sweep. -/
structure Swept (ieee : Ieee) (address : UInt16) (s s' : Sweep) (is : List (Fin 4)) : Prop where
  map : ∀ i, s'.map.get i = if i ∈ is then (s.map.get i).swept ieee address else s.map.get i
  found : ∀ i, s'.found = some i → s.found = some i ∨ (i ∈ is ∧ (s.map.get i).used = true ∧ (s.map.get i).ieee = ieee)
  lost : s'.found = none → s.found = none ∧ ∀ i ∈ is, ¬((s.map.get i).used = true ∧ (s.map.get i).ieee = ieee)
  free : ∀ i, s'.free = some i → s.free = some i ∨ (i ∈ is ∧ (s.map.get i).used = false)
  conflict : s'.conflict = true ↔ s.conflict = true ∨ ∃ i ∈ is, i.val < 2 ∧ (s.map.get i).held ieee address

theorem sweepEntry_swept (ieee : Ieee) (address : UInt16) (s : Sweep) (i : Fin 4) :
    Swept ieee address s (sweepEntry ieee address s i) [i] := by
  have hstay : ∀ s' : Sweep, s'.map = s.map → ¬(s.map.get i).held ieee address →
      ∀ j, s'.map.get j = if j ∈ [i] then (s.map.get j).swept ieee address else s.map.get j := by
    intro s' hmap hfree j
    rw [hmap]
    split
    next hj =>
      obtain rfl := List.mem_singleton.1 hj
      rw [Address.swept, if_neg hfree]
    · rfl
  unfold sweepEntry
  simp only
  split
  next hunused =>
    rw [Bool.not_eq_true'] at hunused
    have hfree : ¬(s.map.get i).held ieee address := fun h => by rw [h.1] at hunused; cases hunused
    refine ⟨hstay _ rfl hfree, fun j hj => .inl hj, fun h => ⟨h, ?_⟩, ?_, ?_⟩
    · intro j hj
      obtain rfl := List.mem_singleton.1 hj
      rw [hunused]
      exact fun hin => by cases hin.1
    · intro j hj
      obtain rfl := Option.some.inj hj
      exact .inr ⟨List.mem_singleton_self _, hunused⟩
    · simp [hfree]
  next hused =>
  rw [Bool.not_eq_true', Bool.not_eq_false] at hused
  split
  next hieee =>
    have hfree : ¬(s.map.get i).held ieee address := fun h => h.2.1 hieee
    refine ⟨hstay _ rfl hfree, ?_, nofun, fun j hj => .inl hj, ?_⟩
    · intro j hj
      obtain rfl := Option.some.inj hj
      exact .inr ⟨List.mem_singleton_self _, hused, hieee⟩
    · simp [hfree]
  next hieee =>
  have hlost : ∀ j ∈ [i], ¬((s.map.get j).used = true ∧ (s.map.get j).ieee = ieee) := by
    intro j hj
    obtain rfl := List.mem_singleton.1 hj
    exact fun h => hieee h.2
  split
  next hholds =>
    have hheld : (s.map.get i).held ieee address := ⟨hused, hieee, hholds⟩
    refine ⟨fun j => ?_, fun j hj => .inl hj, fun h => ⟨h, hlost⟩, fun j hj => .inl hj, ?_⟩
    · rw [get_set]
      by_cases hj : i = j
      · subst hj
        rw [if_pos rfl, if_pos (List.mem_singleton_self _), Address.swept, if_pos hheld]
      · rw [if_neg hj, if_neg fun hin => hj (List.mem_singleton.1 hin).symm]
    · simp [hheld]
  next hholds =>
    have hfree : ¬(s.map.get i).held ieee address := fun h => hholds h.2.2
    exact ⟨hstay _ rfl hfree, fun j hj => .inl hj, fun h => ⟨h, hlost⟩, fun j hj => .inl hj, by simp [hfree]⟩

theorem sweep_swept (ieee : Ieee) (address : UInt16) (is : List (Fin 4)) (hnodup : is.Nodup) (s : Sweep) :
    Swept ieee address s (is.foldl (sweepEntry ieee address) s) is := by
  induction is generalizing s with
  | nil => exact ⟨fun i => by simp, fun i h => .inl h, fun h => ⟨h, by simp⟩, fun i h => .inl h, by simp⟩
  | cons i is ih =>
    rw [List.nodup_cons] at hnodup
    have hone := sweepEntry_swept ieee address s i
    have hrest := ih hnodup.2 (sweepEntry ieee address s i)
    rw [List.foldl_cons]
    generalize sweepEntry ieee address s i = b at hone hrest
    -- The entries still to come are as they were.
    have hlater : ∀ j ∈ is, b.map.get j = s.map.get j := by
      intro j hj
      rw [hone.map, if_neg]
      intro hin
      obtain rfl := List.mem_singleton.1 hin
      exact hnodup.1 hj
    constructor
    case map =>
      intro j
      rw [hrest.map]
      by_cases hj : j ∈ is
      · rw [if_pos hj, if_pos (List.mem_cons_of_mem _ hj), hlater j hj]
      · rw [if_neg hj, hone.map]
        simp [hj]
    case found =>
      intro j hj
      obtain hb | ⟨hin, hmatch⟩ := hrest.found j hj
      · obtain hs | ⟨hin, hmatch⟩ := hone.found j hb
        · exact .inl hs
        · exact .inr ⟨by simp [List.mem_singleton.1 hin], hmatch⟩
      · rw [hlater j hin] at hmatch
        exact .inr ⟨List.mem_cons_of_mem _ hin, hmatch⟩
    case lost =>
      intro hnone
      obtain ⟨hb, hrestNone⟩ := hrest.lost hnone
      obtain ⟨hs, hfirst⟩ := hone.lost hb
      refine ⟨hs, fun j hj => ?_⟩
      obtain rfl | hin := List.mem_cons.1 hj
      · exact hfirst _ (List.mem_singleton_self _)
      · rw [← hlater j hin]
        exact hrestNone j hin
    case free =>
      intro j hj
      obtain hb | ⟨hin, hunused⟩ := hrest.free j hj
      · obtain hs | ⟨hin, hunused⟩ := hone.free j hb
        · exact .inl hs
        · exact .inr ⟨by simp [List.mem_singleton.1 hin], hunused⟩
      · rw [hlater j hin] at hunused
        exact .inr ⟨List.mem_cons_of_mem _ hin, hunused⟩
    case conflict =>
      rw [hrest.conflict, hone.conflict, or_assoc]
      refine or_congr_right ?_
      constructor
      · rintro (⟨j, hj, hin⟩ | ⟨j, hj, hfront, hheld⟩)
        · exact ⟨j, by simp [List.mem_singleton.1 hj], hin⟩
        · rw [hlater j hj] at hheld
          exact ⟨j, List.mem_cons_of_mem _ hj, hfront, hheld⟩
      · rintro ⟨j, hj, hfront, hheld⟩
        obtain rfl | hin := List.mem_cons.1 hj
        · exact .inl ⟨_, List.mem_singleton_self _, hfront, hheld⟩
        · exact .inr ⟨j, hin, hfront, by rw [hlater j hin]; exact hheld⟩

/-! ## The map of a run -/

/-- A well-formed announcement. -/
def Announces (p : Packet) : Prop := 12 ≤ p.length ∧ p.nwk.destination = 0xFFFD ∧ u16At p.payload.toList 1 ≤ 0xFFF7

instance (p : Packet) : Decidable (Announces p) := inferInstanceAs (Decidable (_ ∧ _ ∧ _))

/-- An announcement of the short address of this device or of the trust center under another IEEE address, or of
their IEEE address with another short address. -/
def Claims (keys : Keys) (p : Packet) : Prop :=
  Announces p ∧
    ((u16At p.payload.toList 1 = keys.config.address ∧ p.field 3 8 ≠ keys.config.ownIeee) ∨
      (p.field 3 8 = keys.config.ownIeee ∧ u16At p.payload.toList 1 ≠ keys.config.address) ∨
      (u16At p.payload.toList 1 = 0 ∧ p.field 3 8 ≠ keys.config.tcIeee) ∨
      (p.field 3 8 = keys.config.tcIeee ∧ u16At p.payload.toList 1 ≠ 0))

instance (keys : Keys) (p : Packet) : Decidable (Claims keys p) := inferInstanceAs (Decidable (_ ∧ _))

/-- A map without entries. -/
def blankMap : Vector Address 4 := Vector.replicate 4 ⟨Vector.replicate 8 0, false, false, 0⟩

/-- No two valid entries share a short address, no two used ones an IEEE address. -/
structure Distinct (map : Vector Address 4) : Prop where
  used : ∀ i, (map.get i).valid = true → (map.get i).used = true
  address : ∀ i j, (map.get i).valid = true → (map.get j).valid = true → (map.get i).address = (map.get j).address → i = j
  ieee : ∀ i j, (map.get i).used = true → (map.get j).used = true → (map.get i).ieee = (map.get j).ieee → i = j

/-- This device and the trust center are in front. -/
structure Fronted (keys : Keys) (map : Vector Address 4) : Prop where
  own : (map.get 0).used = true ∧ (map.get 0).ieee = keys.config.ownIeee ∧ (map.get 0).address = keys.config.address
  center : (map.get 1).used = true ∧ (map.get 1).ieee = keys.config.tcIeee ∧ (map.get 1).address = 0

/-- What every sequence of announcements keeps. -/
structure Mapped (keys : Keys) (n : Node) : Prop where
  distinct : Distinct n.zdo.map
  front : (n.zdo.map = blankMap ∧ n.zdo.conflict = false) ∨ Fronted keys n.zdo.map
  intact : n.zdo.conflict = false → Fronted keys n.zdo.map → (n.zdo.map.get 0).valid = true ∧ (n.zdo.map.get 1).valid = true
  ready : n.zdo.conflict = true → n.transport.ready = false

/-- The key owner's own check of its configuration. -/
abbrev Configured (keys : Keys) : Prop := (SecurityKeys.provisioned keys.config SecurityKeys.zeroKey).ValidConfig

theorem blank_get (i : Fin 4) : blankMap.get i = ⟨Vector.replicate 8 0, false, false, 0⟩ := by
  rw [blankMap, Vector.get_eq_getElem, Vector.getElem_replicate]

theorem blank_distinct : Distinct blankMap := by
  constructor
  · intro i h
    rw [blank_get] at h
    cases h
  · intro i j h
    rw [blank_get] at h
    cases h
  · intro i j h
    rw [blank_get] at h
    cases h

/-- The first announcement puts this device and the trust center in front. -/
theorem seeded {keys : Keys} (hkeys : Configured keys) {n : Node} (h : Mapped keys n) :
    Distinct (seededMap n.zdo keys) ∧ Fronted keys (seededMap n.zdo keys) ∧
      (n.zdo.conflict = false → ((seededMap n.zdo keys).get 0).valid = true ∧ ((seededMap n.zdo keys).get 1).valid = true) := by
  unfold seededMap
  obtain ⟨hblank, hconflict⟩ | hfront := h.front
  · have hunused : n.zdo.map[0].used = false := by rw [hblank]; rfl
    rw [hunused, hblank]
    simp only [Bool.false_eq_true, if_false]
    generalize hm : (blankMap.set 0 ⟨keys.config.ownIeee, true, true, keys.config.address⟩).set 1
      { blankMap[1] with ieee := keys.config.tcIeee, used := true, valid := true } = map
    have hzero : map.get 0 = ⟨keys.config.ownIeee, true, true, keys.config.address⟩ := by
      rw [← hm]
      rfl
    have hone : map.get 1 = ⟨keys.config.tcIeee, true, true, 0⟩ := by
      rw [← hm]
      rfl
    have hrest : ∀ i : Fin 4, i ≠ 0 → i ≠ 1 → (map.get i).used = false ∧ (map.get i).valid = false := by
      intro i h0 h1
      rw [← hm]
      obtain rfl | rfl : i = 2 ∨ i = 3 := by omega
      · exact ⟨rfl, rfl⟩
      · exact ⟨rfl, rfl⟩
    have hcases : ∀ i, (map.get i).used = true → i = 0 ∨ i = 1 := by
      intro i hi
      by_contra hno
      rw [not_or] at hno
      rw [(hrest i hno.1 hno.2).1] at hi
      cases hi
    have hused : ∀ i, (map.get i).valid = true → (map.get i).used = true := by
      intro i hi
      by_cases h0 : i = 0
      · rw [h0, hzero]
      by_cases h1 : i = 1
      · rw [h1, hone]
      · rw [(hrest i h0 h1).2] at hi
        cases hi
    refine ⟨⟨hused, fun i j hi hj heq => ?_, fun i j hi hj heq => ?_⟩, ⟨by rw [hzero]; exact ⟨rfl, rfl, rfl⟩,
      by rw [hone]; exact ⟨rfl, rfl, rfl⟩⟩, fun _ => by rw [hzero, hone]; exact ⟨rfl, rfl⟩⟩
    · have hne : keys.config.address ≠ 0 := hkeys.nonzero
      obtain rfl | rfl := hcases i (hused i hi) <;> obtain rfl | rfl := hcases j (hused j hj)
      · rfl
      · rw [hzero, hone] at heq
        exact absurd heq hne
      · rw [hzero, hone] at heq
        exact absurd heq.symm hne
      · rfl
    · have hne : keys.config.ownIeee ≠ keys.config.tcIeee := hkeys.differ
      obtain rfl | rfl := hcases i hi <;> obtain rfl | rfl := hcases j hj
      · rfl
      · rw [hzero, hone] at heq
        exact absurd heq hne
      · rw [hzero, hone] at heq
        exact absurd heq.symm hne
      · rfl
  · have hused : n.zdo.map[0].used = true := hfront.own.1
    rw [if_pos hused]
    exact ⟨h.distinct, hfront, fun hc => h.intact hc hfront⟩

/-- A sweep keeps the entries distinct and the front. -/
theorem swept_distinct {ieee : Ieee} {address : UInt16} {map map' : Vector Address 4} (h : Distinct map)
    (hmap : ∀ i, map'.get i = (map.get i).swept ieee address) : Distinct map' := by
  constructor
  · intro i hi
    rw [hmap] at hi ⊢
    rw [swept_used]
    exact h.used i ((swept_valid _ _ _).1 hi).1
  · intro i j hi hj heq
    rw [hmap] at hi hj heq
    rw [hmap] at heq
    rw [swept_address, swept_address] at heq
    exact h.address i j ((swept_valid _ _ _).1 hi).1 ((swept_valid _ _ _).1 hj).1 heq
  · intro i j hi hj heq
    rw [hmap, swept_used] at hi hj
    rw [hmap, hmap, swept_ieee, swept_ieee] at heq
    exact h.ieee i j hi hj heq

theorem swept_fronted {keys : Keys} {ieee : Ieee} {address : UInt16} {map map' : Vector Address 4} (h : Fronted keys map)
    (hmap : ∀ i, map'.get i = (map.get i).swept ieee address) : Fronted keys map' := by
  constructor
  · rw [hmap, swept_used, swept_ieee, swept_address]
    exact h.own
  · rw [hmap, swept_used, swept_ieee, swept_address]
    exact h.center

/-- An entry that takes an address nobody holds any more, with an IEEE address nobody else has. -/
theorem set_distinct {ieee : Ieee} {address : UInt16} {map : Vector Address 4} (h : Distinct map) (i : Fin 4)
    (haddress : ∀ j, j ≠ i → (map.get j).valid = true → (map.get j).address ≠ address)
    (hieee : ∀ j, j ≠ i → (map.get j).used = true → (map.get j).ieee ≠ ieee) :
    Distinct (map.set i ⟨ieee, true, true, address⟩) := by
  constructor
  · intro j hj
    rw [get_set] at hj ⊢
    split
    · rfl
    next hne =>
      rw [if_neg hne] at hj
      exact h.used j hj
  · intro j k hj hk heq
    rw [get_set] at hj hk heq
    rw [get_set] at heq
    by_cases hij : i = j <;> by_cases hik : i = k
    · exact hij.symm.trans hik
    · rw [if_pos hij, if_neg hik] at heq
      rw [if_neg hik] at hk
      exact absurd heq.symm (haddress k (Ne.symm hik) hk)
    · rw [if_neg hij, if_pos hik] at heq
      rw [if_neg hij] at hj
      exact absurd heq (haddress j (Ne.symm hij) hj)
    · rw [if_neg hij, if_neg hik] at heq
      rw [if_neg hij] at hj
      rw [if_neg hik] at hk
      exact h.address j k hj hk heq
  · intro j k hj hk heq
    rw [get_set] at hj hk heq
    rw [get_set] at heq
    by_cases hij : i = j <;> by_cases hik : i = k
    · exact hij.symm.trans hik
    · rw [if_pos hij, if_neg hik] at heq
      rw [if_neg hik] at hk
      exact absurd heq.symm (hieee k (Ne.symm hik) hk)
    · rw [if_neg hij, if_pos hik] at heq
      rw [if_neg hij] at hj
      exact absurd heq (hieee j (Ne.symm hij) hj)
    · rw [if_neg hij, if_neg hik] at heq
      rw [if_neg hij] at hj
      rw [if_neg hik] at hk
      exact h.ieee j k hj hk heq

/-! ## One announcement -/

/-- The front of a seeded map, behind the sweep: what conflicts. -/
theorem front_conflict {keys : Keys} {ieee : Ieee} {address : UInt16} {s s' : Sweep} {is : List (Fin 4)}
    (h : Swept ieee address s s' is) (hall : ∀ i, i ∈ is) (hnone : s.found = none) (hclean : s.conflict = false)
    (hdistinct : Distinct s.map) (hfront : Fronted keys s.map)
    (hvalid : (s.map.get 0).valid = true ∧ (s.map.get 1).valid = true) :
    (s'.conflict = true ∨ ∃ i, s'.found = some i ∧ i.val < 2 ∧ (s'.map.get i).address ≠ address) ↔
      ((address = keys.config.address ∧ ieee ≠ keys.config.ownIeee) ∨
        (ieee = keys.config.ownIeee ∧ address ≠ keys.config.address) ∨
        (address = 0 ∧ ieee ≠ keys.config.tcIeee) ∨ (ieee = keys.config.tcIeee ∧ address ≠ 0)) := by
  obtain ⟨⟨hused0, hieee0, haddress0⟩, hused1, hieee1, haddress1⟩ := hfront
  have hheld0 : (s.map.get 0).held ieee address ↔ address = keys.config.address ∧ ieee ≠ keys.config.ownIeee := by
    simp only [Address.held, hused0, hieee0, haddress0, hvalid.1, true_and]
    exact ⟨fun h => ⟨h.2.symm, Ne.symm h.1⟩, fun h => ⟨Ne.symm h.2, h.1.symm⟩⟩
  have hheld1 : (s.map.get 1).held ieee address ↔ address = 0 ∧ ieee ≠ keys.config.tcIeee := by
    simp only [Address.held, hused1, hieee1, haddress1, hvalid.2, true_and]
    exact ⟨fun h => ⟨h.2.symm, Ne.symm h.1⟩, fun h => ⟨Ne.symm h.2, h.1.symm⟩⟩
  have hfound : ∀ i, (s.map.get i).used = true → (s'.found = some i ↔ (s.map.get i).ieee = ieee) := by
    intro i hi
    constructor
    · intro hs
      obtain hs | hin := h.found i hs
      · rw [hnone] at hs
        cases hs
      · exact hin.2.2
    · intro hmatch
      cases hs : s'.found with
      | none => exact absurd ⟨hi, hmatch⟩ ((h.lost hs).2 i (hall i))
      | some j =>
        obtain hno | hin := h.found j hs
        · rw [hnone] at hno
          cases hno
        · rw [hdistinct.ieee i j hi hin.2.1 (hmatch.trans hin.2.2.symm)]
  have haddress : ∀ i, (s'.map.get i).address = (s.map.get i).address := fun i => by
    rw [h.map, if_pos (hall i), swept_address]
  rw [h.conflict, hclean]
  constructor
  · rintro ((hno | ⟨i, -, hi, hheld⟩) | ⟨i, hi, hlt, hne⟩)
    · cases hno
    · match i with
      | 0 => exact .inl (hheld0.1 hheld)
      | 1 => exact .inr (.inr (.inl (hheld1.1 hheld)))
    · rw [haddress] at hne
      match i with
      | 0 =>
        rw [haddress0] at hne
        exact .inr (.inl ⟨((hfound 0 hused0).1 hi).symm.trans hieee0, Ne.symm hne⟩)
      | 1 =>
        rw [haddress1] at hne
        exact .inr (.inr (.inr ⟨((hfound 1 hused1).1 hi).symm.trans hieee1, Ne.symm hne⟩))
  · rintro (hclaim | ⟨hieee, hne⟩ | hclaim | ⟨hieee, hne⟩)
    · exact .inl (.inr ⟨0, hall 0, by decide, hheld0.2 hclaim⟩)
    · refine .inr ⟨0, (hfound 0 hused0).2 (hieee0.trans hieee.symm), by decide, ?_⟩
      rw [haddress, haddress0]
      exact Ne.symm hne
    · exact .inl (.inr ⟨1, hall 1, by decide, hheld1.2 hclaim⟩)
    · refine .inr ⟨1, (hfound 1 hused1).2 (hieee1.trans hieee.symm), by decide, ?_⟩
      rw [haddress, haddress1]
      exact Ne.symm hne

/-- An announcement in the map of a node without a conflict: the slot it takes keeps the map in order. -/
theorem slot_mapped {keys : Keys} {ieee : Ieee} {address : UInt16} {s s' : Sweep} {is : List (Fin 4)}
    (h : Swept ieee address s s' is) (hall : ∀ i, i ∈ is) (hnone : s.found = none) (hfree : s.free = none)
    (hdistinct : Distinct s.map) (hfront : Fronted keys s.map) (hfront' : Fronted keys s'.map)
    (hquiet : ∀ i, s'.found = some i → i.val < 2 → (s'.map.get i).address = address) {i : Fin 4}
    (hslot : s'.found.or s'.free = some i) :
    Distinct (s'.map.set i ⟨ieee, true, true, address⟩) ∧ Fronted keys (s'.map.set i ⟨ieee, true, true, address⟩) := by
  have hswept : ∀ j, s'.map.get j = (s.map.get j).swept ieee address := fun j => by rw [h.map, if_pos (hall j)]
  have hdistinct' := swept_distinct hdistinct hswept
  have hfound : ∀ j, s'.found = some j → (s.map.get j).used = true ∧ (s.map.get j).ieee = ieee := by
    intro j hj
    obtain hno | hin := h.found j hj
    · rw [hnone] at hno
      cases hno
    · exact hin.2
  -- No other used entry has the announced IEEE address.
  have hother : ∀ j, j ≠ i → (s.map.get j).used = true → (s.map.get j).ieee ≠ ieee := by
    intro j hj hused hieee
    cases hs : s'.found with
    | none => exact (h.lost hs).2 j (hall j) ⟨hused, hieee⟩
    | some k =>
      rw [hs, Option.some_or] at hslot
      obtain rfl := Option.some.inj hslot
      obtain ⟨husedK, hieeeK⟩ := hfound _ hs
      exact hj (hdistinct.ieee j _ hused husedK (hieee.trans hieeeK.symm))
  refine ⟨set_distinct hdistinct' i (fun j hj hvalid haddress => ?_) (fun j hj hused => ?_), ?_⟩
  · rw [hswept, swept_valid] at hvalid
    rw [hswept, swept_address] at haddress
    have hused := hdistinct.used j hvalid.1
    exact hvalid.2 ⟨hused, hother j hj hused, hvalid.1, haddress⟩
  · rw [hswept, swept_used] at hused
    rw [hswept, swept_ieee]
    exact hother j hj hused
  -- A slot in front is there because its IEEE address matched.
  · have hmatched : (s.map.get i).used = true → s'.found = some i := by
      intro hused
      cases hs : s'.found with
      | some k => rw [hs, Option.some_or] at hslot; exact hslot
      | none =>
        rw [hs, Option.none_or] at hslot
        obtain hno | hin := h.free i hslot
        · rw [hfree] at hno
          cases hno
        · rw [hused] at hin
          cases hin.2
    constructor
    · rw [get_set]
      split
      next hi =>
        subst hi
        have hs := hmatched hfront.own.1
        exact ⟨rfl, (hfound _ hs).2.symm.trans hfront.own.2.1, (hquiet _ hs (by decide)).symm.trans hfront'.own.2.2⟩
      · exact hfront'.own
    · rw [get_set]
      split
      next hi =>
        subst hi
        have hs := hmatched hfront.center.1
        exact ⟨rfl, (hfound _ hs).2.symm.trans hfront.center.2.1, (hquiet _ hs (by decide)).symm.trans hfront'.center.2.2⟩
      · exact hfront'.center

theorem mem_front (i : Fin 4) : i ∈ ([0, 1, 2, 3] : List (Fin 4)) := by
  fin_cases i <;> decide

/-- The sweep found the announcer in front, under another address. -/
def Sweep.moved (s : Sweep) (address : UInt16) : Bool :=
  match s.found with
  | some i => decide (i.val < 2) && (s.map.get i).address != address
  | none => false

theorem moved_iff {s : Sweep} {address : UInt16} :
    s.moved address = true ↔ ∃ i, s.found = some i ∧ i.val < 2 ∧ (s.map.get i).address ≠ address := by
  unfold Sweep.moved
  cases s.found with
  | none => simp
  | some i => simp

/-- The announcement after its checks, in terms of the finished sweep. -/
theorem announce_swept {n : Node} {keys : Keys} {p : Packet} (h : Announces p) :
    announce n keys p =
      let s := [0, 1, 2, 3].foldl (sweepEntry (p.field 3 8) (u16At p.payload.toList 1))
        ⟨seededMap n.zdo keys, none, none, n.zdo.conflict⟩
      let conflict := s.conflict || s.moved (u16At p.payload.toList 1)
      let z := { n.zdo with map := s.map, conflict := conflict }
      if conflict then (.conflict, { zdo := z, transport := { n.transport with ready := false } })
      else if p.field 3 8 = Vector.replicate 8 255 then (.ok, { n with zdo := z })
      else match s.found.or s.free with
        | none => (.full, { n with zdo := z })
        | some i =>
          (.ok, { n with zdo := { z with map := s.map.set i ⟨p.field 3 8, true, true, u16At p.payload.toList 1⟩ } }) := by
  obtain ⟨hlength, hdestination, hbound⟩ := h
  unfold announce
  rw [if_neg (fun hc => hc.elim (UInt8.not_lt.2 hlength) (fun hd => hd hdestination)), if_neg (UInt16.not_lt.2 hbound)]
  rfl

/-- Anything else leaves the node as it is. -/
theorem announce_refused {n : Node} {keys : Keys} {p : Packet} (h : ¬Announces p) :
    announce n keys p = (.format, n) := by
  unfold announce
  split
  · rfl
  next hlong =>
  rw [not_or, UInt8.not_lt, not_not] at hlong
  exact if_pos (UInt16.not_le.1 (fun hbound => h ⟨hlong.1, hlong.2, hbound⟩))

/-- An announcement keeps the map, and raises a conflict exactly when it claims an address of the front. -/
theorem announce_mapped {keys : Keys} (hkeys : Configured keys) {n : Node} (h : Mapped keys n) (p : Packet) :
    Mapped keys (announce n keys p).2 ∧ (Announces p → Fronted keys (announce n keys p).2.zdo.map) ∧
      ((announce n keys p).2.zdo.conflict = true ↔ n.zdo.conflict = true ∨ Claims keys p) := by
  by_cases hannounces : Announces p
  case neg =>
    rw [announce_refused hannounces]
    exact ⟨h, fun ha => absurd ha hannounces,
      fun hc => .inl hc, fun hc => hc.elim id (fun hclaims => absurd hclaims.1 hannounces)⟩
  rw [announce_swept hannounces]
  simp only
  obtain ⟨hdistinct, hfront, hvalid⟩ := seeded hkeys h
  have hsweep := sweep_swept (p.field 3 8) (u16At p.payload.toList 1) [0, 1, 2, 3] (by decide)
    ⟨seededMap n.zdo keys, none, none, n.zdo.conflict⟩
  generalize [0, 1, 2, 3].foldl (sweepEntry (p.field 3 8) (u16At p.payload.toList 1))
    ⟨seededMap n.zdo keys, none, none, n.zdo.conflict⟩ = s at hsweep ⊢
  have hmap : ∀ i, s.map.get i = ((seededMap n.zdo keys).get i).swept (p.field 3 8) (u16At p.payload.toList 1) :=
    fun i => by rw [hsweep.map, if_pos (mem_front i)]
  have hdistinct' := swept_distinct hdistinct hmap
  have hfront' := swept_fronted hfront hmap
  have hconflict : (s.conflict || s.moved (u16At p.payload.toList 1)) = true ↔ n.zdo.conflict = true ∨ Claims keys p := by
    cases hc : n.zdo.conflict with
    | true =>
      have hs : s.conflict = true := hsweep.conflict.2 (.inl hc)
      simp [hs]
    | false =>
      rw [Bool.or_eq_true, moved_iff, front_conflict hsweep mem_front rfl hc hdistinct hfront (hvalid hc)]
      simp only [Bool.false_eq_true, false_or, Claims, hannounces, true_and]
  split
  next hraised =>
    refine ⟨⟨hdistinct', .inr hfront', fun hc => ?_, fun _ => rfl⟩, fun _ => hfront', hconflict⟩
    exact absurd (hraised.symm.trans hc) (by decide)
  next hquiet =>
  have hquiet' := hquiet
  rw [Bool.not_eq_true, Bool.or_eq_false_iff] at hquiet'
  have hclean : n.zdo.conflict = false := by
    rw [Bool.eq_false_iff]
    intro hc
    exact absurd (hsweep.conflict.2 (.inl hc)) (by rw [hquiet'.1]; decide)
  -- The front is valid still, since nobody has taken its addresses.
  have hvalid' : (s.map.get 0).valid = true ∧ (s.map.get 1).valid = true := by
    have hheld : ∀ i : Fin 4, i.val < 2 → ¬((seededMap n.zdo keys).get i).held (p.field 3 8) (u16At p.payload.toList 1) := by
      intro i hi hheld
      exact absurd (hsweep.conflict.2 (.inr ⟨i, mem_front i, hi, hheld⟩)) (by rw [hquiet'.1]; decide)
    obtain ⟨hv0, hv1⟩ := hvalid hclean
    rw [hmap, hmap, swept_valid, swept_valid]
    exact ⟨⟨hv0, hheld 0 (by decide)⟩, hv1, hheld 1 (by decide)⟩
  rw [Bool.not_eq_true] at hquiet
  split
  · exact ⟨⟨hdistinct', .inr hfront', fun _ _ => hvalid', fun hc => absurd (hquiet.symm.trans hc) (by decide)⟩, fun _ => hfront', hconflict⟩
  split
  · exact ⟨⟨hdistinct', .inr hfront', fun _ _ => hvalid', fun hc => absurd (hquiet.symm.trans hc) (by decide)⟩, fun _ => hfront', hconflict⟩
  next i hslot =>
    have hagree : ∀ i, s.found = some i → i.val < 2 → (s.map.get i).address = u16At p.payload.toList 1 := by
      intro i hi hlt
      by_contra hne
      exact absurd (moved_iff.2 ⟨i, hi, hlt, hne⟩) (by rw [hquiet'.2]; decide)
    obtain ⟨hd, hf⟩ := slot_mapped hsweep mem_front rfl rfl hdistinct hfront hfront' hagree hslot
    refine ⟨⟨hd, .inr hf, fun _ _ => ?_, fun hc => absurd (hquiet.symm.trans hc) (by decide)⟩, fun _ => hf, hconflict⟩
    constructor
    · show ((s.map.set i ⟨p.field 3 8, true, true, u16At p.payload.toList 1⟩).get 0).valid = true
      rw [get_set]
      split
      · rfl
      · exact hvalid'.1
    · show ((s.map.set i ⟨p.field 3 8, true, true, u16At p.payload.toList 1⟩).get 1).valid = true
      rw [get_set]
      split
      · rfl
      · exact hvalid'.2

/-- The announcements that arrive, one after the other. -/
def announcements (keys : Keys) (n : Node) (packets : List Packet) : Node :=
  packets.foldl (fun n p => (announce n keys p).2) n

theorem announcements_mapped {keys : Keys} (hkeys : Configured keys) {n : Node} (h : Mapped keys n)
    (packets : List Packet) :
    Mapped keys (announcements keys n packets) ∧
      (Fronted keys n.zdo.map ∨ (∃ p, p ∈ packets ∧ Announces p) → Fronted keys (announcements keys n packets).zdo.map) ∧
      ((announcements keys n packets).zdo.conflict = true ↔
        n.zdo.conflict = true ∨ ∃ p, p ∈ packets ∧ Claims keys p) := by
  induction packets generalizing n with
  | nil => exact ⟨h, by simp [announcements], by simp [announcements]⟩
  | cons p packets ih =>
    obtain ⟨hmapped, hfront, hconflict⟩ := announce_mapped hkeys h p
    obtain ⟨hrest, hrestFront, hrestConflict⟩ := ih hmapped
    refine ⟨hrest, fun hcause => hrestFront ?_, hrestConflict.trans ?_⟩
    · obtain hheld | ⟨q, hq, hannounces⟩ := hcause
      · by_cases hannounces : Announces p
        · exact .inl (hfront hannounces)
        · rw [announce_refused hannounces]
          exact .inl hheld
      · obtain rfl | hq := List.mem_cons.1 hq
        · exact .inl (hfront hannounces)
        · exact .inr ⟨q, hq, hannounces⟩
    · rw [hconflict, or_assoc, List.exists_mem_cons_iff]

/-- Over every sequence of announcements valid entries have distinct short addresses and used ones distinct IEEE
addresses, this device and the trust center stay in front, and a conflict, which withdraws readiness for good, is
raised exactly when one of them claims an address of the front. -/
theorem addresses_distinct {keys : Keys} (hkeys : Configured keys) (descriptor : ZdoNode.Descriptor) (now : UInt32)
    (t : Transport) (packets : List Packet) :
    Distinct (announcements keys ⟨fresh descriptor now, t⟩ packets).zdo.map ∧
      ((announcements keys ⟨fresh descriptor now, t⟩ packets).zdo.map = blankMap ∨
        Fronted keys (announcements keys ⟨fresh descriptor now, t⟩ packets).zdo.map) ∧
      ((∃ p, p ∈ packets ∧ Announces p) → Fronted keys (announcements keys ⟨fresh descriptor now, t⟩ packets).zdo.map) ∧
      ((announcements keys ⟨fresh descriptor now, t⟩ packets).zdo.conflict = true ↔ ∃ p, p ∈ packets ∧ Claims keys p) ∧
      ((∃ p, p ∈ packets ∧ Claims keys p) →
        (announcements keys ⟨fresh descriptor now, t⟩ packets).transport.ready = false) := by
  have hblank : ¬(blankMap.get 0).used = true := by rw [blank_get]; decide
  have hstart : Mapped keys ⟨fresh descriptor now, t⟩ :=
    ⟨blank_distinct, .inl ⟨rfl, rfl⟩, fun _ hfront => absurd hfront.own.1 hblank, fun hc => absurd hc Bool.false_ne_true⟩
  obtain ⟨hmapped, hfront, hconflict⟩ := announcements_mapped hkeys hstart packets
  have hraised := hconflict.trans (or_iff_right Bool.false_ne_true)
  exact ⟨hmapped.distinct, hmapped.front.imp And.left id, fun ha => hfront (.inr ha), hraised,
    fun hclaims => hmapped.ready (hraised.2 hclaims)⟩

/-- An announcement of the own short address under the IEEE address of another device. -/
def rivalAnnouncement : Packet :=
  withPayload (base 0xFFFD 0x0013) ([0, 0x67, 0x45, 9, 9, 9, 9, 9, 9, 9, 9, 0x80])

theorem addresses_distinct_rival :
    (announcements sampleKeys ⟨fresh sampleDescriptor 0, sampleTransport⟩ [rivalAnnouncement]).zdo.conflict = true ∧
      (announcements sampleKeys ⟨fresh sampleDescriptor 0, sampleTransport⟩ [rivalAnnouncement]).transport.ready = false :=
  have hclaims : ∃ p, p ∈ [rivalAnnouncement] ∧ Claims sampleKeys p := ⟨rivalAnnouncement, by decide, by decide⟩
  have h := addresses_distinct (by decide) sampleDescriptor 0 sampleTransport [rivalAnnouncement]
  ⟨h.2.2.2.1.2 hclaims, h.2.2.2.2 hclaims⟩

end ZdoRuntime
