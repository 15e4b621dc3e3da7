import Cc2530Zigbee.NwkCandidates
import Cc2530Zigbee.Roster

/-!
# Choosing a parent

`nwk_parent_select`. Update identifiers are ordered by half their range, which is
not a transitive order: a parent is chosen only when its identifier is equal to or
newer than that of every eligible candidate, never by a running maximum.
-/
namespace NwkParent

open NwkCandidates (Candidate Table capacity entryAt validTable)

inductive Result where
  | ok | none | ambiguousUpdate | invalidArgument | invalidTable
  deriving DecidableEq, Repr

structure Policy where
  extendedPanId : Vector UInt8 8
  potentialMask : UInt8
  linkCost : Vector UInt8 capacity
  minimumKnown : UInt8
  minimumUpdateId : UInt8
  deriving DecidableEq

structure Choice where
  index : UInt8
  candidate : Candidate
  deriving DecidableEq

/-- The bit of a candidate. -/
def bit (mask : UInt8) (i : Nat) : Bool := mask &&& (1 <<< UInt8.ofNat i) != 0

/-- An octet kept for a candidate. -/
def octet (octets : Vector UInt8 capacity) (i : Nat) : UInt8 := octets[i]?.getD 0

/-- What the first pass keeps: the eligible candidates with their update identifiers and
depths. The last two are read for eligible candidates only. -/
structure Marks where
  eligible : UInt8
  updates : Vector UInt8 capacity
  depth : Vector UInt8 capacity
  deriving DecidableEq

def Marks.empty : Marks := ⟨0, Vector.replicate capacity 0, Vector.replicate capacity 0⟩

/-- The first pass at one candidate. -/
def mark (t : Table) (p : Policy) (m : Marks) (i : Nat) : Except Result Marks :=
  if ¬ bit p.potentialMask i ∨ octet p.linkCost i > 3 then .ok m
  else
    match NwkCandidates.get t (UInt8.ofNat i) with
    | .error _ => .error .invalidTable
    | .ok c =>
      let delta := c.network.updateId - p.minimumUpdateId
      if c.network.extendedPanId ≠ p.extendedPanId then .ok m
      else if p.minimumKnown ≠ 0 ∧ delta = 128 then .error .ambiguousUpdate
      else if p.minimumKnown ≠ 0 ∧ delta > 128 then .ok m
      else .ok
        { eligible := m.eligible ||| (1 <<< UInt8.ofNat i)
          updates := m.updates.setIfInBounds i c.network.updateId
          depth := m.depth.setIfInBounds i c.network.deviceDepth }

/-- No eligible candidate has a newer identifier. -/
def dominates (m : Marks) (count i : Nat) : Bool :=
  (List.range count).all fun j => !bit m.eligible j || octet m.updates i - octet m.updates j < 128

/-- A candidate takes the place of the best so far. Only a build with parent recovery looks
at the depth, and only in a rejoin. -/
def better (build : Build) (t : Table) (p : Policy) (m : Marks) (i best : Nat) : Bool :=
  if build.parentRecovery then
    t.rejoin && octet m.depth i < octet m.depth best ||
      (!t.rejoin || octet m.depth i == octet m.depth best) && octet p.linkCost i < octet p.linkCost best
  else octet p.linkCost i < octet p.linkCost best

/-- The second pass. The capacity stands for no candidate. -/
def bestOf (build : Build) (t : Table) (p : Policy) (m : Marks) : Nat :=
  (List.range t.count.toNat).foldl (fun best i =>
    if (bit m.eligible i && dominates m t.count.toNat i) && (best == capacity || better build t p m i best) then i
    else best) capacity

/-- An extended PAN identifier that is neither all zeros nor all ones, and a flag. -/
def wellFormed (p : Policy) : Bool :=
  ¬(p.minimumKnown > 1 ∨ p.extendedPanId.toList.foldl (· ||| ·) 0 = 0 ∨
    p.extendedPanId.toList.foldl (· &&& ·) 0xFF = 0xFF)

/-- The policy speaks of the candidates there are, and of all of them. -/
def bound (t : Table) (p : Policy) : Bool :=
  p.potentialMask &&& ~~~((1 <<< t.count) - 1) = 0 ∧
    (List.range t.count.toNat).all fun i => ¬(octet p.linkCost i < 1 ∨ octet p.linkCost i > 7)

/-- The choice among marked candidates. -/
def choose (build : Build) (t : Table) (p : Policy) (m : Marks) (output : Choice) : Result × Choice :=
  if m.eligible = 0 then (.none, output)
  else
    let best := bestOf build t p m
    if best = capacity then (.ambiguousUpdate, output)
    else
      match NwkCandidates.get t (UInt8.ofNat best) with
      | .error _ => (.invalidTable, output)
      | .ok c => (.ok, ⟨UInt8.ofNat best, c⟩)

/-- `nwk_parent_select`. -/
def select (build : Build) (t : Table) (p : Policy) (output : Choice) : Result × Choice :=
  if ¬ wellFormed p then (.invalidArgument, output)
  else if ¬ validTable t then (.invalidTable, output)
  else if ¬ bound t p then (.invalidArgument, output)
  else
    match (List.range t.count.toNat).foldlM (mark t p) Marks.empty with
    | .error e => (e, output)
    | .ok m => choose build t p m output

/-! ## What the choice is for -/

section Purpose

variable (build : Build) (t : Table) (p : Policy)

def update (i : Nat) : UInt8 := (entryAt t.entries i).network.updateId

/-- Potential, cheap enough and of the wanted network. -/
structure Considered (i : Nat) : Prop where
  present : i < t.count.toNat
  potential : bit p.potentialMask i = true
  cheap : octet p.linkCost i ≤ 3
  network : (entryAt t.entries i).network.extendedPanId = p.extendedPanId

/-- Nobody can tell whether the candidate is older or newer than the watermark. -/
def Unordered (i : Nat) : Prop :=
  Considered t p i ∧ p.minimumKnown = 1 ∧ update t i - p.minimumUpdateId = 128

structure Eligible (i : Nat) : Prop extends Considered t p i where
  recent : p.minimumKnown = 1 → update t i - p.minimumUpdateId < 128

/-- Equal to or newer than every eligible candidate. -/
structure Dominating (i : Nat) : Prop extends Eligible t p i where
  newest : ∀ j, Eligible t p j → update t i - update t j < 128

def rejoining : Bool := build.parentRecovery && t.rejoin

/-- Depth in a rejoin, then link cost. -/
def merit (i : Nat) : Nat ×ₗ Nat :=
  toLex (if rejoining build t then (entryAt t.entries i).network.deviceDepth.toNat else 0, (octet p.linkCost i).toNat)

/-- Depth in a rejoin, then link cost, then index. -/
def rank (i : Nat) : (Nat ×ₗ Nat) ×ₗ Nat := toLex (merit build t p i, i)

end Purpose

/-! ## The first pass -/

theorem bit_or (mask : UInt8) (i j : Nat) (hi : i < 4) (hj : j < 4) :
    bit (mask ||| (1 <<< UInt8.ofNat i)) j = (bit mask j || i == j) := by
  have hall : ∀ mask : UInt8, ∀ i j : Fin 4,
      bit (mask ||| (1 <<< UInt8.ofNat i.val)) j.val = (bit mask j.val || i.val == j.val) := by decide +kernel
  exact hall mask ⟨i, hi⟩ ⟨j, hj⟩

theorem or_lt_sixteen (mask : UInt8) (i : Nat) (hi : i < 4) (h : mask < 16) : mask ||| (1 <<< UInt8.ofNat i) < 16 := by
  have hall : ∀ mask : UInt8, ∀ i : Fin 4, mask < 16 → mask ||| (1 <<< UInt8.ofNat i.val) < 16 := by decide +kernel
  exact hall mask ⟨i, hi⟩ h

theorem eq_zero_iff_bits (mask : UInt8) (h : mask < 16) : mask = 0 ↔ ∀ i < 4, bit mask i = false := by
  have hall : ∀ mask : UInt8, mask < 16 → (mask = 0 ↔ ∀ i : Fin 4, bit mask i.val = false) := by decide +kernel
  rw [hall mask h]
  exact ⟨fun hbits i hi => hbits ⟨i, hi⟩, fun hbits i => hbits i.val i.isLt⟩

theorem octet_set (octets : Vector UInt8 capacity) (i j : Nat) (v : UInt8) (hi : i < 4) :
    octet (octets.setIfInBounds i v) j = if i = j then v else octet octets j := by
  unfold octet
  rw [Vector.getElem?_setIfInBounds]
  split_ifs with heq hlt
  · rfl
  · exact absurd hi hlt
  · rfl

/-- The marks of the candidates below `n`. -/
structure Marked (t : Table) (p : Policy) (n : Nat) (m : Marks) : Prop where
  low : m.eligible < 16
  eligible : ∀ i < 4, (bit m.eligible i = true ↔ i < n ∧ Eligible t p i)
  update : ∀ i < n, Eligible t p i → octet m.updates i = update t i
  depth : ∀ i < n, Eligible t p i → octet m.depth i = (entryAt t.entries i).network.deviceDepth

theorem Marked.empty (t : Table) (p : Policy) : Marked t p 0 Marks.empty where
  low := by decide
  eligible := by
    intro i hi
    interval_cases i <;> simp [Marks.empty, bit]
  update := fun i hi => absurd hi (Nat.not_lt_zero i)
  depth := fun i hi => absurd hi (Nat.not_lt_zero i)

/-- A candidate that is not eligible leaves no mark. -/
theorem Marked.skip {t : Table} {p : Policy} {n : Nat} {m : Marks} (h : Marked t p n m) (hnot : ¬ Eligible t p n) :
    Marked t p (n + 1) m where
  low := h.low
  eligible := by
    intro i hi
    rw [h.eligible i hi]
    constructor
    · exact fun ⟨hlt, helig⟩ => ⟨Nat.lt_succ_of_lt hlt, helig⟩
    · rintro ⟨hlt, helig⟩
      rcases Nat.lt_succ_iff_lt_or_eq.mp hlt with hlt | rfl
      · exact ⟨hlt, helig⟩
      · exact absurd helig hnot
  update := by
    intro i hi helig
    rcases Nat.lt_succ_iff_lt_or_eq.mp hi with hi | rfl
    · exact h.update i hi helig
    · exact absurd helig hnot
  depth := by
    intro i hi helig
    rcases Nat.lt_succ_iff_lt_or_eq.mp hi with hi | rfl
    · exact h.depth i hi helig
    · exact absurd helig hnot

theorem Marked.add {t : Table} {p : Policy} {n : Nat} {m : Marks} (h : Marked t p n m) (hn : n < 4)
    (helig : Eligible t p n) :
    Marked t p (n + 1)
      { eligible := m.eligible ||| (1 <<< UInt8.ofNat n)
        updates := m.updates.setIfInBounds n (NwkParent.update t n)
        depth := m.depth.setIfInBounds n (entryAt t.entries n).network.deviceDepth } where
  low := or_lt_sixteen _ n hn h.low
  eligible := by
    intro i hi
    rw [bit_or _ n i hn hi, Bool.or_eq_true_iff, h.eligible i hi, beq_iff_eq]
    constructor
    · rintro (⟨hlt, hi'⟩ | rfl)
      · exact ⟨Nat.lt_succ_of_lt hlt, hi'⟩
      · exact ⟨Nat.lt_succ_self n, helig⟩
    · rintro ⟨hlt, hi'⟩
      rcases Nat.lt_succ_iff_lt_or_eq.mp hlt with hlt | rfl
      · exact .inl ⟨hlt, hi'⟩
      · exact .inr rfl
  update := by
    intro i hi hi'
    simp only
    rw [octet_set _ n i _ hn]
    split
    next heq => rw [heq]
    next hne => exact h.update i (by omega) hi'
  depth := by
    intro i hi hi'
    simp only
    rw [octet_set _ n i _ hn]
    split
    next heq => rw [heq]
    next hne => exact h.depth i (by omega) hi'

theorem get_present {t : Table} (ht : validTable t = true) {i : Nat} (hi : i < t.count.toNat) :
    NwkCandidates.get t (UInt8.ofNat i) = .ok (entryAt t.entries i) := by
  have hsmall : i < 256 := hi.trans t.count.toNat_lt
  have hto : (UInt8.ofNat i).toNat = i := UInt8.toNat_ofNat_of_lt' hsmall
  have hnot : ¬ t.count ≤ UInt8.ofNat i := by
    rw [UInt8.le_iff_toNat_le, hto]
    omega
  unfold NwkCandidates.get
  simp [ht, hnot, hto]

theorem count_le_four {t : Table} (ht : validTable t = true) : t.count.toNat ≤ 4 := by
  simp only [validTable, Bool.and_eq_true, decide_eq_true_eq] at ht
  exact UInt8.le_iff_toNat_le.1 ht.1.2

theorem known_cases {p : Policy} (hp : wellFormed p = true) : p.minimumKnown = 0 ∨ p.minimumKnown = 1 := by
  have hle : ¬ p.minimumKnown > 1 := fun hgt => by simp [wellFormed, hgt] at hp
  have hall : ∀ u : UInt8, ¬ u > 1 → u = 0 ∨ u = 1 := by decide +kernel
  exact hall _ hle

theorem mark_cases {t : Table} {p : Policy} (ht : validTable t = true) (hp : wellFormed p = true) {n : Nat} {m : Marks}
    (hn : n < t.count.toNat) (h : Marked t p n m) :
    (mark t p m n = .error .ambiguousUpdate ∧ Unordered t p n) ∨
      ∃ m', mark t p m n = .ok m' ∧ Marked t p (n + 1) m' ∧ ¬ Unordered t p n := by
  have hfour := count_le_four ht
  unfold mark
  split
  next hout =>
    have hnot : ¬ Considered t p n := fun hc => by
      rcases hout with hbit | hcost
      · exact hbit hc.potential
      · exact absurd hc.cheap (UInt8.not_le.2 hcost)
    exact .inr ⟨m, rfl, h.skip fun he => hnot he.toConsidered, fun hu => hnot hu.1⟩
  next hin =>
    obtain ⟨hbit, hcost⟩ := not_or.1 hin
    rw [get_present ht hn]
    simp only
    split
    next hother =>
      have hnot : ¬ Considered t p n := fun hc => hother hc.network
      exact .inr ⟨m, rfl, h.skip fun he => hnot he.toConsidered, fun hu => hnot hu.1⟩
    next hsame =>
      have hconsidered : Considered t p n := ⟨hn, not_not.1 hbit, UInt8.not_lt.1 hcost, not_not.1 hsame⟩
      split
      next hhalf =>
        have hone := (known_cases hp).resolve_left hhalf.1
        exact .inl ⟨rfl, hconsidered, hone, hhalf.2⟩
      next hhalf =>
        have hordered : ¬ Unordered t p n := fun hu => hhalf ⟨by rw [hu.2.1]; decide, hu.2.2⟩
        split
        next hold =>
          refine .inr ⟨m, rfl, h.skip fun he => ?_, hordered⟩
          have hone := (known_cases hp).resolve_left hold.1
          have hrecent := UInt8.lt_iff_toNat_lt.1 (he.recent hone)
          have hgt := UInt8.lt_iff_toNat_lt.1 hold.2
          exact absurd hrecent (by unfold update; omega)
        next hyoung =>
          refine .inr ⟨_, rfl, h.add (by omega) ⟨hconsidered, fun hone => ?_⟩, hordered⟩
          have hall : ∀ d : UInt8, d ≠ 128 → ¬ d > 128 → d < 128 := by decide +kernel
          exact hall _ (fun heq => hhalf ⟨by rw [hone]; decide, heq⟩) fun hgt => hyoung ⟨by rw [hone]; decide, hgt⟩

theorem marks_cases {t : Table} {p : Policy} (ht : validTable t = true) (hp : wellFormed p = true) (n : Nat)
    (hn : n ≤ t.count.toNat) :
    ((List.range n).foldlM (mark t p) Marks.empty = .error .ambiguousUpdate ∧ ∃ i, Unordered t p i) ∨
      ∃ m, (List.range n).foldlM (mark t p) Marks.empty = .ok m ∧ Marked t p n m ∧ ∀ i < n, ¬ Unordered t p i := by
  induction n with
  | zero => exact .inr ⟨_, rfl, Marked.empty t p, fun i hi => absurd hi (Nat.not_lt_zero i)⟩
  | succ n ih =>
    rw [List.range_succ, List.foldlM_append]
    rcases ih (Nat.le_of_succ_le hn) with ⟨herror, hex⟩ | ⟨m, hok, hmarked, hordered⟩
    · exact .inl ⟨by rw [herror]; rfl, hex⟩
    · rw [hok]
      rcases mark_cases ht hp hn hmarked with ⟨herror, hun⟩ | ⟨m', hok', hmarked', hun⟩
      · refine .inl ⟨?_, n, hun⟩
        simp [herror, bind, Except.bind]
      · refine .inr ⟨m', ?_, hmarked', fun i hi => ?_⟩
        · simp [hok', bind, Except.bind, pure, Except.pure]
        · rcases Nat.lt_succ_iff_lt_or_eq.mp hi with hi | rfl
          · exact hordered i hi
          · exact hun

/-! ## The second pass -/

/-- The marks of the whole table. -/
theorem Marked.bit_iff {t : Table} {p : Policy} {m : Marks} (h : Marked t p t.count.toNat m) (ht : validTable t = true)
    {i : Nat} (hi : i < t.count.toNat) : bit m.eligible i = true ↔ Eligible t p i := by
  have := count_le_four ht
  rw [h.eligible i (by omega)]
  exact ⟨And.right, fun he => ⟨hi, he⟩⟩

theorem Marked.none_iff {t : Table} {p : Policy} {m : Marks} (h : Marked t p t.count.toNat m) (ht : validTable t = true) :
    m.eligible = 0 ↔ ¬ ∃ i, Eligible t p i := by
  rw [eq_zero_iff_bits _ h.low]
  constructor
  · rintro hbits ⟨i, hi⟩
    have hfour := count_le_four ht
    have hset := (h.bit_iff ht hi.present).2 hi
    rw [hbits i (hi.present.trans_le hfour)] at hset
    cases hset
  · intro hnone i hi
    by_contra hset
    rw [Bool.not_eq_false, h.eligible i hi] at hset
    exact hnone ⟨i, hset.2⟩

theorem Marked.dominates_iff {t : Table} {p : Policy} {m : Marks} (h : Marked t p t.count.toNat m)
    (ht : validTable t = true) {i : Nat} (hi : Eligible t p i) :
    dominates m t.count.toNat i = true ↔ Dominating t p i := by
  unfold dominates
  rw [List.all_eq_true]
  constructor
  · intro hall
    refine ⟨hi, fun j hj => ?_⟩
    have hnewer := hall j (List.mem_range.2 hj.present)
    rw [(h.bit_iff ht hj.present).2 hj, h.update i hi.present hi, h.update j hj.present hj] at hnewer
    simpa using hnewer
  · intro hd j hj
    have hpresent := List.mem_range.1 hj
    cases hbit : bit m.eligible j with
    | false => simp
    | true =>
      have hje := (h.bit_iff ht hpresent).1 hbit
      rw [h.update i hi.present hi, h.update j hpresent hje]
      simpa using hd.newest j hje

theorem Marked.better_iff {build : Build} {t : Table} {p : Policy} {m : Marks} (h : Marked t p t.count.toNat m)
    {i j : Nat} (hi : Eligible t p i) (hj : Eligible t p j) :
    better build t p m i j = true ↔ merit build t p i < merit build t p j := by
  unfold better merit rejoining
  rw [h.depth i hi.present hi, h.depth j hj.present hj, Prod.Lex.toLex_lt_toLex]
  cases build.parentRecovery <;> cases t.rejoin <;>
    simp [UInt8.lt_iff_toNat_lt, ← UInt8.toNat_inj]

theorem Marked.passes_iff {t : Table} {p : Policy} {m : Marks} (h : Marked t p t.count.toNat m)
    (ht : validTable t = true) {i : Nat} (hi : i < t.count.toNat) :
    (bit m.eligible i && dominates m t.count.toNat i) = true ↔ Dominating t p i := by
  rw [Bool.and_eq_true_iff]
  constructor
  · exact fun ⟨hbit, hdom⟩ => (h.dominates_iff ht ((h.bit_iff ht hi).1 hbit)).1 hdom
  · exact fun hd => ⟨(h.bit_iff ht hi).2 hd.toEligible, (h.dominates_iff ht hd.toEligible).2 hd⟩

theorem bestOf_cases (build : Build) {t : Table} {p : Policy} {m : Marks} (h : Marked t p t.count.toNat m)
    (ht : validTable t = true) :
    (bestOf build t p m = capacity ∧ ¬ ∃ i, Dominating t p i) ∨
      bestOf build t p m < t.count.toNat ∧ Dominating t p (bestOf build t p m) ∧
        ∀ i, Dominating t p i → rank build t p (bestOf build t p m) ≤ rank build t p i := by
  have hspec := Roster.leastOf_spec (fun i => bit m.eligible i && dominates m t.count.toNat i)
    (better build t p m) capacity (merit build t p) t.count.toNat
    (fun i hi j hj hpi hpj => h.better_iff ((h.passes_iff ht hi).1 hpi).toEligible ((h.passes_iff ht hj).1 hpj).toEligible)
    (count_le_four ht)
  rcases hspec with ⟨habsent, hnone⟩ | ⟨hlt, hbest, hleast⟩
  · refine .inl ⟨habsent, fun ⟨i, hi⟩ => ?_⟩
    have hpass := (h.passes_iff ht hi.present).2 hi
    rw [hnone i hi.present] at hpass
    cases hpass
  · exact .inr ⟨hlt, (h.passes_iff ht hlt).1 hbest, fun i hi => hleast i hi.present ((h.passes_iff ht hi.present).2 hi)⟩

/-- Two dominating candidates have one update identifier. -/
theorem Dominating.same_update {t : Table} {p : Policy} {i j : Nat} (hi : Dominating t p i) (hj : Dominating t p j) :
    update t i = update t j := by
  have hij := UInt8.lt_iff_toNat_lt.1 (hi.newest j hj.toEligible)
  have hji := UInt8.lt_iff_toNat_lt.1 (hj.newest i hi.toEligible)
  have h128 : (128 : UInt8).toNat = 128 := rfl
  have := (update t i).toNat_lt
  have := (update t j).toNat_lt
  rw [UInt8.toNat_sub] at hij hji
  apply UInt8.toNat_inj.1
  omega

/-- The table cannot be ordered: a considered candidate is half the range off the watermark,
or none of the eligible ones is newest. -/
def Ambiguous (t : Table) (p : Policy) : Prop :=
  (∃ i, Unordered t p i) ∨ (∃ i, Eligible t p i) ∧ ¬ ∃ i, Dominating t p i

/-- The best of the dominating candidates. -/
structure Best (build : Build) (t : Table) (p : Policy) (b : Nat) : Prop extends Dominating t p b where
  least : ∀ i, Dominating t p i → rank build t p b ≤ rank build t p i

/-- The three outcomes for a valid table and policy. -/
theorem select_cases (build : Build) {t : Table} {p : Policy} (output : Choice) (ht : validTable t = true)
    (hp : wellFormed p = true) (hb : bound t p = true) :
    (select build t p output = (.ambiguousUpdate, output) ∧ Ambiguous t p) ∨
      (select build t p output = (.none, output) ∧ ¬ Ambiguous t p ∧ ¬ ∃ i, Eligible t p i) ∨
      ∃ b, select build t p output = (.ok, ⟨UInt8.ofNat b, entryAt t.entries b⟩) ∧ ¬ Ambiguous t p ∧ Best build t p b := by
  unfold select
  simp only [hp, ht, hb, not_true_eq_false, if_false]
  rcases marks_cases ht hp t.count.toNat (Nat.le_refl _) with ⟨herror, hun⟩ | ⟨m, hok, hmarked, hordered⟩
  · rw [herror]
    exact .inl ⟨rfl, .inl hun⟩
  rw [hok]
  have hun : ¬ ∃ i, Unordered t p i := fun ⟨i, hi⟩ => hordered i hi.1.present hi
  simp only [choose]
  split
  next hzero =>
    have hnone := (hmarked.none_iff ht).1 hzero
    exact .inr (.inl ⟨rfl, fun hamb => hamb.elim hun fun hex => hnone hex.1, hnone⟩)
  next hsome =>
    have hex : ∃ i, Eligible t p i := by
      by_contra hnone
      exact hsome ((hmarked.none_iff ht).2 hnone)
    rcases bestOf_cases build hmarked ht with ⟨habsent, hnone⟩ | ⟨hlt, hdom, hleast⟩
    · rw [if_pos habsent]
      exact .inl ⟨rfl, .inr ⟨hex, hnone⟩⟩
    · have hne : bestOf build t p m ≠ capacity := fun heq => by
        have := count_le_four ht
        rw [heq] at hlt
        exact absurd hlt (by unfold capacity; omega)
      rw [if_neg hne, get_present ht hlt]
      exact .inr (.inr ⟨_, rfl, fun hamb => hamb.elim hun fun hex => hex.2 ⟨_, hdom⟩, hdom, hleast⟩)

/-! ## Relabelling -/

/-- One permutation of the candidates applied to the table and to the policy. -/
structure Relabelled (σ : Equiv.Perm Nat) (t : Table) (p : Policy) (t' : Table) (p' : Policy) : Prop where
  fixed : ∀ i, t.count.toNat ≤ i → σ i = i
  table : t' = { t with entries := t'.entries }
  policy : p' = { p with potentialMask := p'.potentialMask, linkCost := p'.linkCost }
  entry : ∀ i < t.count.toNat, entryAt t'.entries i = entryAt t.entries (σ i)
  cost : ∀ i < t.count.toNat, octet p'.linkCost i = octet p.linkCost (σ i)
  mask : ∀ i < 8, bit p'.potentialMask i = bit p.potentialMask (σ i)

section Relabel

variable {build : Build} {σ : Equiv.Perm Nat} {t t' : Table} {p p' : Policy}

theorem Relabelled.count (h : Relabelled σ t p t' p') : t'.count = t.count := by
  rw [h.table]

theorem Relabelled.known (h : Relabelled σ t p t' p') :
    p'.minimumKnown = p.minimumKnown ∧ p'.minimumUpdateId = p.minimumUpdateId ∧ p'.extendedPanId = p.extendedPanId := by
  rw [h.policy]
  exact ⟨rfl, rfl, rfl⟩

theorem Relabelled.rejoining_eq (h : Relabelled σ t p t' p') : rejoining build t' = rejoining build t := by
  rw [h.table]
  rfl

/-- A permutation that fixes everything from `n` on keeps what is below. -/
theorem lt_iff_of_fixed {n : Nat} (hfixed : ∀ i, n ≤ i → σ i = i) (i : Nat) : σ i < n ↔ i < n := by
  constructor
  · intro hlt
    by_contra hge
    rw [hfixed i (Nat.le_of_not_lt hge)] at hlt
    exact hge hlt
  · intro hlt
    by_contra hge
    have hself := hfixed (σ i) (Nat.le_of_not_lt hge)
    rw [σ.injective hself] at hge
    exact hge hlt

theorem Relabelled.update_eq (h : Relabelled σ t p t' p') {i : Nat} (hi : i < t.count.toNat) :
    update t' i = update t (σ i) := by
  unfold update
  rw [h.entry i hi]

theorem Relabelled.considered (h : Relabelled σ t p t' p') (ht : validTable t = true) (i : Nat) :
    Considered t' p' i ↔ Considered t p (σ i) := by
  have hfour := count_le_four ht
  have hlt := lt_iff_of_fixed h.fixed i
  constructor
  · rintro ⟨hpresent, hbit, hcost, hnet⟩
    rw [h.count] at hpresent
    rw [h.mask i (by omega)] at hbit
    rw [h.cost i hpresent] at hcost
    rw [h.entry i hpresent, h.known.2.2] at hnet
    exact ⟨hlt.2 hpresent, hbit, hcost, hnet⟩
  · rintro ⟨hpresent, hbit, hcost, hnet⟩
    have hi := hlt.1 hpresent
    refine ⟨by rw [h.count]; exact hi, ?_, ?_, ?_⟩
    · rw [h.mask i (by omega)]
      exact hbit
    · rw [h.cost i hi]
      exact hcost
    · rw [h.entry i hi, h.known.2.2]
      exact hnet

theorem Relabelled.eligible (h : Relabelled σ t p t' p') (ht : validTable t = true) (i : Nat) :
    Eligible t' p' i ↔ Eligible t p (σ i) := by
  have hsame := h.considered ht i
  constructor
  · rintro ⟨hc, hrecent⟩
    have hi := (lt_iff_of_fixed h.fixed i).1 (hsame.1 hc).present
    rw [h.known.1, h.known.2.1, h.update_eq hi] at hrecent
    exact ⟨hsame.1 hc, hrecent⟩
  · rintro ⟨hc, hrecent⟩
    have hi := (lt_iff_of_fixed h.fixed i).1 hc.present
    refine ⟨hsame.2 hc, ?_⟩
    rw [h.known.1, h.known.2.1, h.update_eq hi]
    exact hrecent

theorem Relabelled.unordered (h : Relabelled σ t p t' p') (ht : validTable t = true) (i : Nat) :
    Unordered t' p' i ↔ Unordered t p (σ i) := by
  unfold Unordered
  rw [h.considered ht i]
  constructor
  · rintro ⟨hc, hone, hhalf⟩
    rw [h.known.1] at hone
    rw [h.known.2.1, h.update_eq ((lt_iff_of_fixed h.fixed i).1 hc.present)] at hhalf
    exact ⟨hc, hone, hhalf⟩
  · rintro ⟨hc, hone, hhalf⟩
    rw [h.known.1, h.known.2.1, h.update_eq ((lt_iff_of_fixed h.fixed i).1 hc.present)]
    exact ⟨hc, hone, hhalf⟩

theorem Relabelled.dominating (h : Relabelled σ t p t' p') (ht : validTable t = true) (i : Nat) :
    Dominating t' p' i ↔ Dominating t p (σ i) := by
  have hpresent : ∀ {j}, Eligible t p (σ j) → j < t.count.toNat := fun he =>
    (lt_iff_of_fixed h.fixed _).1 he.present
  constructor
  · rintro ⟨he, hnewest⟩
    have hei := (h.eligible ht i).1 he
    refine ⟨hei, fun j hj => ?_⟩
    have hback : σ (σ.symm j) = j := σ.apply_symm_apply j
    have hj' : Eligible t p (σ (σ.symm j)) := by rwa [hback]
    have := hnewest (σ.symm j) ((h.eligible ht _).2 hj')
    rwa [h.update_eq (hpresent hei), h.update_eq (hpresent hj'), hback] at this
  · rintro ⟨he, hnewest⟩
    refine ⟨(h.eligible ht i).2 he, fun j hj => ?_⟩
    have hj' := (h.eligible ht j).1 hj
    rw [h.update_eq (hpresent he), h.update_eq (hpresent hj')]
    exact hnewest (σ j) hj'

/-- What holds of some candidate under one labelling holds of some under the other. -/
theorem exists_relabelled {P P' : Nat → Prop} (hiff : ∀ i, P' i ↔ P (σ i)) : (∃ i, P' i) ↔ ∃ i, P i := by
  constructor
  · exact fun ⟨i, hi⟩ => ⟨σ i, (hiff i).1 hi⟩
  · exact fun ⟨i, hi⟩ => ⟨σ.symm i, (hiff _).2 (by rwa [σ.apply_symm_apply])⟩

theorem Relabelled.ambiguous (h : Relabelled σ t p t' p') (ht : validTable t = true) : Ambiguous t' p' ↔ Ambiguous t p := by
  unfold Ambiguous
  rw [exists_relabelled (h.unordered ht), exists_relabelled (h.eligible ht), exists_relabelled (h.dominating ht)]

theorem Relabelled.merit_eq (h : Relabelled σ t p t' p') {i : Nat} (hi : i < t.count.toNat) :
    merit build t' p' i = merit build t p (σ i) := by
  unfold merit
  rw [h.rejoining_eq, h.entry i hi, h.cost i hi]

theorem mask_bound_iff (mask count : UInt8) (hcount : count ≤ 4) :
    mask &&& ~~~((1 <<< count) - 1) = 0 ↔ ∀ i < 8, count.toNat ≤ i → bit mask i = false := by
  have hall : ∀ mask : UInt8, ∀ count : Fin 5, mask &&& ~~~((1 <<< UInt8.ofNat count.val) - 1) = 0 ↔
      ∀ i : Fin 8, count.val ≤ i.val → bit mask i.val = false := by decide +kernel
  have hlt : count.toNat < 5 := Nat.lt_succ_of_le (UInt8.le_iff_toNat_le.1 hcount)
  have hc := hall mask ⟨count.toNat, hlt⟩
  rw [UInt8.ofNat_toNat] at hc
  rw [hc]
  exact ⟨fun hbits i hi => hbits ⟨i, hi⟩, fun hbits i => hbits i.val i.isLt⟩

theorem Relabelled.valid (h : Relabelled σ t p t' p') (ht : validTable t = true) : validTable t' = true := by
  rw [h.table]
  exact ht

theorem Relabelled.formed (h : Relabelled σ t p t' p') (hp : wellFormed p = true) : wellFormed p' = true := by
  rw [h.policy]
  exact hp

theorem Relabelled.bounded (h : Relabelled σ t p t' p') (ht : validTable t = true) (hb : bound t p = true) :
    bound t' p' = true := by
  have hcount : t.count ≤ 4 := UInt8.le_iff_toNat_le.2 (count_le_four ht)
  have hparts := of_decide_eq_true hb
  obtain ⟨hmask, hcosts⟩ := hparts
  rw [mask_bound_iff _ _ hcount] at hmask
  rw [List.all_eq_true] at hcosts
  refine decide_eq_true ?_
  rw [h.count, mask_bound_iff _ _ hcount, List.all_eq_true]
  refine ⟨fun i hi hge => ?_, fun i hi => ?_⟩
  · rw [h.mask i hi, h.fixed i hge]
    exact hmask i hi hge
  · have hlt := List.mem_range.1 hi
    rw [h.cost i hlt]
    exact hcosts (σ i) (List.mem_range.2 ((lt_iff_of_fixed h.fixed i).2 hlt))

/-- The best under either labelling have one merit. -/
theorem Relabelled.best_merit (h : Relabelled σ t p t' p') (ht : validTable t = true) {b b' : Nat} (hbest : Best build t p b)
    (hbest' : Best build t' p' b') : merit build t p (σ b') = merit build t p b := by
  have hdom := (h.dominating ht b').1 hbest'.toDominating
  have hpresent := (lt_iff_of_fixed h.fixed b').1 hdom.present
  have hback : σ (σ.symm b) = b := σ.apply_symm_apply b
  have hdom' : Dominating t p (σ (σ.symm b)) := by
    rw [hback]
    exact hbest.toDominating
  have hle : merit build t p b ≤ merit build t p (σ b') :=
    (Prod.Lex.toLex_le_toLex.1 (hbest.least _ hdom)).elim le_of_lt fun heq => heq.1.le
  have hge : merit build t' p' b' ≤ merit build t' p' (σ.symm b) :=
    (Prod.Lex.toLex_le_toLex.1 (hbest'.least _ ((h.dominating ht _).2 hdom'))).elim le_of_lt fun heq => heq.1.le
  rw [h.merit_eq hpresent, h.merit_eq ((lt_iff_of_fixed h.fixed _).1 hdom'.present), hback] at hge
  exact le_antisymm hge hle

end Relabel

/-- Two choices of equal worth: the same update identifier, depth in a rejoin, and link cost. -/
structure Alike (build : Build) (t : Table) (p p' : Policy) (c c' : Choice) : Prop where
  update : c.candidate.network.updateId = c'.candidate.network.updateId
  depth : rejoining build t = true → c.candidate.network.deviceDepth = c'.candidate.network.deviceDepth
  cost : octet p.linkCost c.index.toNat = octet p'.linkCost c'.index.toNat

theorem Relabelled.alike {build : Build} {σ : Equiv.Perm Nat} {t t' : Table} {p p' : Policy} (h : Relabelled σ t p t' p')
    (ht : validTable t = true) {b b' : Nat} (hbest : Best build t p b) (hbest' : Best build t' p' b') :
    Alike build t p p' ⟨UInt8.ofNat b, entryAt t.entries b⟩ ⟨UInt8.ofNat b', entryAt t'.entries b'⟩ := by
  have hdom := (h.dominating ht b').1 hbest'.toDominating
  have hpresent := (lt_iff_of_fixed h.fixed b').1 hdom.present
  have hmerit := h.best_merit ht hbest hbest'
  have hsmall : ∀ {i}, i < t.count.toNat → (UInt8.ofNat i).toNat = i := fun hi =>
    UInt8.toNat_ofNat_of_lt' (hi.trans t.count.toNat_lt)
  obtain ⟨hdepth, hcost⟩ := Prod.mk.inj (toLex.injective hmerit)
  refine ⟨?_, fun hrejoin => ?_, ?_⟩
  · rw [h.entry b' hpresent]
    exact hbest.toDominating.same_update hdom
  · rw [if_pos hrejoin, if_pos hrejoin] at hdepth
    rw [h.entry b' hpresent]
    exact (UInt8.toNat_inj.1 hdepth).symm
  · rw [hsmall hbest.present, hsmall hpresent, h.cost b' hpresent]
    exact (UInt8.toNat_inj.1 hcost).symm

/-- For every valid table and policy: the status, the choice, that all dominating candidates
carry one update identifier, and that labels decide only between choices of equal
worth. -/
theorem parent_choice (build : Build) (t : Table) (p : Policy) (output : Choice) (ht : validTable t = true)
    (hp : wellFormed p = true) (hb : bound t p = true) :
    ((select build t p output).1 = .ambiguousUpdate ↔ Ambiguous t p) ∧
      ((select build t p output).1 = .none ↔ ¬ Ambiguous t p ∧ ¬ ∃ i, Eligible t p i) ∧
      (¬ Ambiguous t p → (∃ i, Eligible t p i) →
        ∃ b, select build t p output = (.ok, ⟨UInt8.ofNat b, entryAt t.entries b⟩) ∧ Best build t p b) ∧
      (∀ i j, Dominating t p i → Dominating t p j → update t i = update t j) ∧
      ∀ σ t' p', Relabelled σ t p t' p' →
        (select build t' p' output).1 = (select build t p output).1 ∧
          ((select build t p output).1 = .ok →
            Alike build t p p' (select build t p output).2 (select build t' p' output).2) := by
  have hcases := select_cases build output ht hp hb
  refine ⟨?_, ?_, ?_, fun i j hi hj => hi.same_update hj, fun σ t' p' h => ?_⟩
  · rcases hcases with ⟨heq, hamb⟩ | ⟨heq, hnot, _⟩ | ⟨b, heq, hnot, _⟩
    · simp [heq, hamb]
    · simp [heq, hnot]
    · simp [heq, hnot]
  · rcases hcases with ⟨heq, hamb⟩ | ⟨heq, hnot, hnone⟩ | ⟨b, heq, _, hbest⟩
    · simp [heq, hamb]
    · simp only [heq, true_iff]
      exact ⟨hnot, hnone⟩
    · simp only [heq, reduceCtorEq, false_iff]
      exact fun h => h.2 ⟨b, hbest.toEligible⟩
  · intro hnot hex
    rcases hcases with ⟨_, hamb⟩ | ⟨_, _, hnone⟩ | ⟨b, heq, _, hbest⟩
    · exact absurd hamb hnot
    · exact absurd hex hnone
    · exact ⟨b, heq, hbest⟩
  · have hamb := h.ambiguous ht
    have hex := exists_relabelled (h.eligible ht)
    rcases select_cases build output (h.valid ht) (h.formed hp) (h.bounded ht hb) with
      ⟨heq', hamb'⟩ | ⟨heq', hnot', hnone'⟩ | ⟨b', heq', hnot', hbest'⟩ <;>
    rcases hcases with ⟨heq, hamb1⟩ | ⟨heq, hnot, hnone⟩ | ⟨b, heq, hnot, hbest⟩
    · simp [heq, heq']
    · exact absurd (hamb.1 hamb') hnot
    · exact absurd (hamb.1 hamb') hnot
    · exact absurd (hamb.2 hamb1) hnot'
    · simp [heq, heq']
    · exact absurd (hex.2 ⟨b, hbest.toEligible⟩) hnone'
    · exact absurd (hamb.2 hamb1) hnot'
    · exact absurd (hex.1 ⟨b', hbest'.toEligible⟩) hnone
    · rw [heq, heq']
      exact ⟨rfl, fun _ => h.alike ht hbest hbest'⟩

/-- A candidate of the network `01..` with the update identifier. -/
def sampleCandidate (updateId : UInt8) : Candidate :=
  { Candidate.zero with network := ⟨2, true, 0, 1, Vector.replicate 8 1, 0, updateId⟩ }

/-- Three candidates around the wrap of the identifier, the two newest of one age. -/
def sampleTable : Table where
  version := 1
  channelMask := 0x800
  count := 3
  rejoin := false
  entries := ⟨#[sampleCandidate 250, sampleCandidate 3, sampleCandidate 3, Candidate.zero], rfl⟩
  filtered := false
  parent := 0
  epidSeen := false
  mixed := false
  firstEpid := Vector.replicate 8 0

def samplePolicy : Policy where
  extendedPanId := Vector.replicate 8 1
  potentialMask := 7
  linkCost := ⟨#[1, 3, 2, 0], rfl⟩
  minimumKnown := 1
  minimumUpdateId := 249

/-- The cheaper of the two newest is chosen, not the cheapest of all. -/
theorem parent_choice_behind_wrap :
    select Build.plain sampleTable samplePolicy ⟨0, Candidate.zero⟩ = (.ok, ⟨2, sampleCandidate 3⟩) ∧
      ¬ Ambiguous sampleTable samplePolicy :=
  have hselect : select Build.plain sampleTable samplePolicy ⟨0, Candidate.zero⟩ = (.ok, ⟨2, sampleCandidate 3⟩) := by
    decide +kernel
  ⟨hselect, fun hamb => by
    have hstatus := (parent_choice Build.plain sampleTable samplePolicy ⟨0, Candidate.zero⟩ (by decide +kernel)
      (by decide +kernel) (by decide +kernel)).1.2 hamb
    rw [hselect] at hstatus
    cases hstatus⟩

end NwkParent
