import Cc2530Zigbee.NwkCandidates

/-!
# What the table of candidates holds

The four slots are a roster: its entries and then zeroed slots. A stream of
records leaves the roster of its valid beacons.
-/
namespace NwkCandidates

open Roster (offer roster weakest)

/-- The slots hold these entries, and zeroes behind them. -/
structure Holds (t : Table) (l : List Candidate) : Prop where
  count : t.count.toNat = l.length
  entries : t.entries.toList = l ++ List.replicate (capacity - l.length) .zero

theorem Holds.length_le {t : Table} {l : List Candidate} (h : Holds t l) : l.length ≤ capacity := by
  have hlength := congrArg List.length h.entries
  simp only [Vector.length_toList, List.length_append, List.length_replicate] at hlength
  omega

theorem Holds.live {t : Table} {l : List Candidate} (h : Holds t l) : t.entries.toList.take t.count.toNat = l := by
  rw [h.count, h.entries, List.take_left]

theorem Holds.entryAt {t : Table} {l : List Candidate} (h : Holds t l) (i : Nat) (d : Candidate) (hi : i < l.length) :
    entryAt t.entries i = l.getD i d := by
  rw [NwkCandidates.entryAt, h.entries]
  simp [List.getElem?_append_left hi, hi]

theorem toList_setIfInBounds (e : Vector Candidate capacity) (i : Nat) (c : Candidate) :
    (e.setIfInBounds i c).toList = e.toList.set i c := by
  simp [Vector.toList]

/-! ## One candidate -/

theorem Holds.position {t : Table} {l : List Candidate} (h : Holds t l) (c : Candidate) :
    position t c = l.findIdx? fun b => decide (identity b = identity c) := by
  have hentry : ∀ i (hi : i < l.length), NwkCandidates.entryAt t.entries i = l[i] := by
    intro i hi
    rw [h.entryAt i .zero hi]
    simp [hi]
  apply Option.ext
  intro i
  rw [NwkCandidates.position, h.count, List.find?_range_eq_some, List.findIdx?_eq_some_iff_getElem]
  simp only [List.mem_range, sameIdentity]
  constructor
  · rintro ⟨hsame, hi, hbefore⟩
    refine ⟨hi, by rw [← hentry i hi]; exact hsame, ?_⟩
    intro j hj
    rw [← hentry j (by omega)]
    simpa using hbefore j hj
  · rintro ⟨hi, hsame, hbefore⟩
    refine ⟨by rw [hentry i hi]; exact hsame, hi, ?_⟩
    intro j hj
    rw [hentry j (by omega)]
    simpa using hbefore j hj

theorem Holds.set {t : Table} {l : List Candidate} (h : Holds t l) (i : Nat) (hi : i < l.length) (c : Candidate) :
    Holds { t with entries := t.entries.setIfInBounds i c } (l.set i c) := by
  refine ⟨by simpa using h.count, ?_⟩
  rw [toList_setIfInBounds, h.entries, List.set_append_left _ _ hi, List.length_set]

/-- The loop moves the entries behind a slot down by one. -/
theorem toList_shift (u v z : List Candidate) (c : Candidate) (e : Vector Candidate capacity)
    (he : e.toList = u ++ c :: v ++ z) :
    ∃ x, ((List.range' u.length v.length).foldl (fun e j => e.setIfInBounds j (entryAt e (j + 1))) e).toList =
      u ++ v ++ x :: z := by
  induction v generalizing u c e with
  | nil => exact ⟨c, by simpa using he⟩
  | cons b v ih =>
    rw [List.length_cons, List.range'_succ, List.foldl_cons]
    have hnext : entryAt e (u.length + 1) = b := by
      rw [entryAt, he]
      simp
    have hset : (e.setIfInBounds u.length (entryAt e (u.length + 1))).toList = (u ++ [b]) ++ b :: v ++ z := by
      rw [hnext, toList_setIfInBounds, he]
      simp
    obtain ⟨x, hx⟩ := ih (u ++ [b]) b _ hset
    refine ⟨x, ?_⟩
    simpa using hx

theorem Holds.withdraw {t : Table} {l : List Candidate} (h : Holds t l) (i : Nat) (hi : i < l.length) :
    Holds (withdraw t i) (l.eraseIdx i) := by
  obtain ⟨u, c, v, hl, hu⟩ : ∃ u c v, l = u ++ c :: v ∧ u.length = i :=
    ⟨l.take i, l[i], l.drop (i + 1), by rw [List.getElem_cons_drop, List.take_append_drop], by simp; omega⟩
  have hlength : l.length = u.length + v.length + 1 := by
    rw [hl]
    simp
    omega
  have hcount : (t.count - 1).toNat = u.length + v.length := by
    have hlt := h.count
    rw [UInt8.toNat_sub_of_le _ _ (by rw [UInt8.le_iff_toNat_le]; simp; omega)]
    simp
    omega
  have hshift : t.count.toNat - 1 - i = v.length := by
    rw [h.count, hlength, hu]
    omega
  obtain ⟨x, hx⟩ := toList_shift u v (List.replicate (capacity - l.length) .zero) c t.entries
    (by rw [h.entries, hl])
  have herase : l.eraseIdx i = u ++ v := by
    rw [hl, ← hu]
    simp [List.eraseIdx_append_of_length_le]
  have hle := h.length_le
  refine ⟨?_, ?_⟩
  · rw [herase]
    simpa [NwkCandidates.withdraw] using hcount
  · have hzero : capacity - (u ++ v).length = capacity - l.length + 1 := by
      rw [List.length_append]
      omega
    simp only [NwkCandidates.withdraw, shiftDown]
    rw [herase, hzero, toList_setIfInBounds, hshift, ← hu, hx, hcount, List.replicate_succ]
    simp

theorem Holds.append {t : Table} {l : List Candidate} (h : Holds t l) (c : Candidate) :
    Holds (append t c).2 (if l.length < capacity then l ++ [c] else l) := by
  have hle := h.length_le
  have hcount := h.count
  unfold NwkCandidates.append
  split
  · rename_i hfull
    rw [hfull] at hcount
    have hfour : l.length = 4 := hcount.symm
    rw [if_neg (by rw [hfour]; decide)]
    exact h
  · rename_i hroom
    have hlt : l.length < capacity := by
      have hne : t.count.toNat ≠ 4 := fun heq => hroom (UInt8.toNat_inj.mp heq)
      have hcap : capacity = 4 := rfl
      omega
    have hnext : capacity - l.length = capacity - (l.length + 1) + 1 := by omega
    rw [if_pos hlt]
    refine ⟨?_, ?_⟩
    · simp only [List.length_append, List.length_cons, List.length_nil]
      have hcap : capacity = 4 := rfl
      rw [UInt8.toNat_add, hcount]
      simp
      omega
    · simp only [toList_setIfInBounds]
      rw [h.entries, hcount, hnext, List.replicate_succ]
      simp

theorem Holds.replaceWeakest {t : Table} {l : List Candidate} (h : Holds t l) (hne : l ≠ []) (c : Candidate) :
    Holds (replaceWeakest t c).2 (Roster.evict score l c) := by
  obtain ⟨n, hn⟩ := Nat.exists_eq_succ_of_ne_zero (List.length_pos_iff.mpr hne).ne'
  rw [Nat.succ_eq_add_one] at hn
  have hweakest : weakest (fun i => score (NwkCandidates.entryAt t.entries i)) t.count.toNat =
      weakest (fun i => score (l.getD i c)) l.length := by
    rw [h.count, hn]
    apply Roster.weakest_congr
    intro i hi
    rw [h.entryAt i c (by omega)]
  have hlt : weakest (fun i => score (l.getD i c)) l.length < l.length := by
    rw [hn]
    exact (Roster.weakest_spec _ n).1
  unfold NwkCandidates.replaceWeakest Roster.evict
  simp only
  rw [hweakest, h.entryAt _ c hlt]
  split
  · exact h
  · exact h.set _ hlt c

theorem noteEpid_holds {t : Table} {l : List Candidate} (h : Holds t l) (c : Candidate) : Holds (noteEpid t c) l := by
  unfold noteEpid
  split
  · exact ⟨h.count, h.entries⟩
  split
  · exact ⟨h.count, h.entries⟩
  · exact h

/-- The fields of a table that no record changes. -/
structure SameFilter (t t' : Table) : Prop where
  version : t'.version = t.version
  channelMask : t'.channelMask = t.channelMask
  rejoin : t'.rejoin = t.rejoin
  filtered : t'.filtered = t.filtered
  parent : t'.parent = t.parent

theorem SameFilter.refl (t : Table) : SameFilter t t := ⟨rfl, rfl, rfl, rfl, rfl⟩

theorem SameFilter.trans {t t' t'' : Table} (h : SameFilter t t') (h' : SameFilter t' t'') : SameFilter t t'' :=
  ⟨h'.version.trans h.version, h'.channelMask.trans h.channelMask, h'.rejoin.trans h.rejoin,
    h'.filtered.trans h.filtered, h'.parent.trans h.parent⟩

theorem SameFilter.eligible {t t' : Table} (h : SameFilter t t') (build : Build) :
    eligible build t' = eligible build t := by
  funext c
  simp only [NwkCandidates.eligible, h.rejoin, h.filtered, h.parent]

theorem noteEpid_filter (t : Table) (c : Candidate) : SameFilter t (noteEpid t c) := by
  unfold noteEpid
  split
  · exact ⟨rfl, rfl, rfl, rfl, rfl⟩
  split <;> exact ⟨rfl, rfl, rfl, rfl, rfl⟩

theorem append_filter (t : Table) (c : Candidate) : SameFilter t (append t c).2 := by
  unfold append
  split <;> exact ⟨rfl, rfl, rfl, rfl, rfl⟩

theorem replaceWeakest_filter (t : Table) (c : Candidate) : SameFilter t (replaceWeakest t c).2 := by
  unfold replaceWeakest
  simp only
  split <;> exact ⟨rfl, rfl, rfl, rfl, rfl⟩

theorem meet_filter (build : Build) (t : Table) (c : Candidate) : SameFilter t (meet build t c).2 := by
  unfold meet
  split
  · split <;> exact ⟨rfl, rfl, rfl, rfl, rfl⟩
  split
  · exact SameFilter.refl t
  split
  · simp only
    split
    · exact (noteEpid_filter t c).trans (replaceWeakest_filter _ c)
    · exact (noteEpid_filter t c).trans (append_filter _ c)
  · exact append_filter t c

/-- A full table is replaced by strength only when it takes any parent. -/
def keepsStrongest (build : Build) (t : Table) : Bool := build.routerJoin && !t.filtered

/-- One candidate moves the table as one entry moves a roster. -/
theorem Holds.meet {build : Build} {t : Table} {l : List Candidate} (h : Holds t l) (c : Candidate) :
    Holds (meet build t c).2
      (offer identity (eligible build t) score capacity (keepsStrongest build t) l c) := by
  unfold NwkCandidates.meet offer
  rw [h.position c]
  cases hfind : l.findIdx? fun b => decide (identity b = identity c) with
  | some i =>
    have hi := (List.findIdx?_eq_some_iff_getElem.mp hfind).1
    simp only
    split
    · exact h.set i hi c
    · exact h.withdraw i hi
  | none =>
    simp only
    split
    · exact h
    have hnote := noteEpid_holds h c
    split
    · rename_i hrouter
      by_cases hfull : (noteEpid t c).count = 4 ∧ (!(noteEpid t c).filtered) = true
      · have hfour : l.length = 4 := by
          have hcount := hnote.count
          rw [hfull.1] at hcount
          exact hcount.symm
        have hopen : t.filtered = false := by
          have hf := hfull.2
          rw [(noteEpid_filter t c).filtered] at hf
          simpa using hf
        rw [if_pos hfull, if_neg (by rw [hfour]; decide), if_pos (by simp [keepsStrongest, hrouter, hopen])]
        exact hnote.replaceWeakest (by rintro rfl; cases hfour) c
      · rw [if_neg hfull]
        have happend := hnote.append c
        split
        · rename_i hlt
          rw [if_pos hlt] at happend
          exact happend
        · rename_i hge
          rw [if_neg hge] at happend
          -- A full table that is not replaced is a filtered one.
          have hfour : (noteEpid t c).count = 4 := by
            have hle := h.length_le
            have hcap : capacity = 4 := rfl
            apply UInt8.toNat_inj.mp
            rw [hnote.count]
            change l.length = 4
            omega
          have hfiltered : t.filtered = true := by
            rw [← (noteEpid_filter t c).filtered]
            simpa [hfour] using hfull
          rw [if_neg (by simp [keepsStrongest, hfiltered])]
          exact happend
    · rename_i hrouter
      have happend := h.append c
      split
      · rename_i hlt
        rw [if_pos hlt] at happend
        exact happend
      · rename_i hge
        rw [if_neg hge] at happend
        rw [if_neg (by simp [keepsStrongest, hrouter])]
        exact happend

/-! ## Streams of records -/

/-- A new table, restricted to one short parent or not, for a rejoin or not. -/
def prepared (mask : UInt32) (only : Option UInt16) (rejoining : Bool) : Except Result Table :=
  match init mask with
  | .error e => .error e
  | .ok t =>
    let t := match only with
      | some address => (parent t address).2
      | none => t
    .ok (if rejoining then (rejoin t).2 else t)

/-- Nothing was fed to the table. -/
structure Blank (t : Table) : Prop where
  holds : Holds t []
  version : t.version = tableVersion
  mask : validMask t.channelMask = true
  unseen : t.epidSeen = false
  unmixed : t.mixed = false

theorem init_blank {mask : UInt32} {t : Table} (h : init mask = .ok t) : Blank t := by
  unfold init at h
  split at h
  · cases h
  rename_i hmask
  cases h
  exact ⟨⟨rfl, by simp⟩, rfl, by simpa using hmask, rfl, rfl⟩

theorem Blank.parent {t : Table} (h : Blank t) (address : UInt16) : Blank (parent t address).2 := by
  unfold NwkCandidates.parent
  split
  · exact h
  · exact ⟨⟨h.holds.count, h.holds.entries⟩, h.version, h.mask, h.unseen, h.unmixed⟩

theorem Blank.rejoin {t : Table} (h : Blank t) : Blank (rejoin t).2 := by
  unfold NwkCandidates.rejoin
  split
  · exact h
  · exact ⟨⟨h.holds.count, h.holds.entries⟩, h.version, h.mask, h.unseen, h.unmixed⟩

theorem prepared_blank {mask : UInt32} {only : Option UInt16} {rejoining : Bool} {t : Table}
    (h : prepared mask only rejoining = .ok t) : Blank t := by
  unfold prepared at h
  split at h
  · cases h
  rename_i t0 hinit
  have h0 := init_blank hinit
  cases only with
  | none =>
    cases rejoining with
    | false => cases h; exact h0
    | true => cases h; exact h0.rejoin
  | some address =>
    cases rejoining with
    | false => cases h; exact h0.parent address
    | true => cases h; exact (h0.parent address).rejoin

/-- The valid beacons of a stream. -/
def beacons (build : Build) (t : Table) (stream : List Record) : List Candidate :=
  stream.filterMap fun r => (screen build t r).toOption

/-- The table after a stream. -/
def fed (build : Build) (t : Table) (stream : List Record) : Table := (Runs.run (consider build) t stream).2

theorem fed_concat (build : Build) (t : Table) (stream : List Record) (r : Record) :
    fed build t (stream ++ [r]) = (consider build (fed build t stream) r).2 := by
  rw [fed, fed, Runs.run_append]
  rfl

theorem beacons_error {build : Build} {t : Table} {r : Record} {e : Result} (h : screen build t r = .error e)
    (stream : List Record) : beacons build t (stream ++ [r]) = beacons build t stream := by
  simp [beacons, h, Except.toOption]

theorem beacons_ok {build : Build} {t : Table} {r : Record} {c : Candidate} (h : screen build t r = .ok c)
    (stream : List Record) : beacons build t (stream ++ [r]) = beacons build t stream ++ [c] := by
  simp [beacons, h, Except.toOption]

/-- What a record says does not depend on what the table holds. -/
theorem SameFilter.screen {t t' : Table} (h : SameFilter t t') {l l' : List Candidate} (hl : Holds t l)
    (hl' : Holds t' l') (build : Build) (r : Record) : screen build t' r = screen build t r := by
  have hcount {u : Table} {m : List Candidate} (hm : Holds u m) : u.count ≤ 4 := by
    have hle := hm.length_le
    rw [UInt8.le_iff_toNat_le, hm.count]
    exact hle
  have hvalid : validTable t' = validTable t := by
    simp only [validTable, h.version, h.channelMask, hcount hl, hcount hl']
  simp only [NwkCandidates.screen, hvalid, h.channelMask]

/-- The table of a stream holds the roster of its valid beacons. -/
theorem fed_holds (build : Build) {t : Table} (ht : Blank t) (stream : List Record) :
    SameFilter t (fed build t stream) ∧
      Holds (fed build t stream)
        (roster identity (eligible build t) score capacity (keepsStrongest build t) (beacons build t stream)) := by
  induction stream using List.reverseRecOn with
  | nil => exact ⟨SameFilter.refl t, ht.holds⟩
  | append_singleton stream r ih =>
    obtain ⟨hfilter, hholds⟩ := ih
    have hscreen := hfilter.screen ht.holds hholds build r
    rw [fed_concat, consider, hscreen]
    cases hr : screen build t r with
    | error e =>
      rw [beacons_error hr]
      exact ⟨hfilter, hholds⟩
    | ok c =>
      rw [beacons_ok hr]
      refine ⟨hfilter.trans (meet_filter build _ c), ?_⟩
      have hnext := @Holds.meet build _ _ hholds c
      have hkeeps : keepsStrongest build (fed build t stream) = keepsStrongest build t := by
        simp only [keepsStrongest, hfilter.filtered]
      rw [hfilter.eligible build, hkeeps] at hnext
      rw [Roster.roster_concat]
      exact hnext

/-! ## The networks seen -/

/-- The first network and the mark of a second one, against the beacons so far. -/
structure Noted (fits : Candidate → Bool) (t : Table) (bs : List Candidate) : Prop where
  seen : (∃ a ∈ bs, fits a = true) → t.epidSeen = true
  first : t.epidSeen = true → ∃ a ∈ bs, fits a = true ∧ a.network.extendedPanId = t.firstEpid
  mixed : t.mixed = true ↔ ∃ a ∈ bs, fits a = true ∧ a.network.extendedPanId ≠ t.firstEpid

theorem Noted.congr {fits : Candidate → Bool} {t t' : Table} {bs : List Candidate} (h : Noted fits t bs)
    (hseen : t'.epidSeen = t.epidSeen) (hmixed : t'.mixed = t.mixed) (hfirst : t'.firstEpid = t.firstEpid) :
    Noted fits t' bs := by
  refine ⟨?_, ?_, ?_⟩
  · rw [hseen]
    exact h.seen
  · rw [hseen, hfirst]
    exact h.first
  · rw [hmixed, hfirst]
    exact h.mixed

/-- A beacon that brings no new network. -/
theorem Noted.skip {fits : Candidate → Bool} {t : Table} {bs : List Candidate} (h : Noted fits t bs) (c : Candidate)
    (hold : fits c = true → ∃ a ∈ bs, fits a = true ∧ a.network.extendedPanId = c.network.extendedPanId) :
    Noted fits t (bs ++ [c]) := by
  have hback : ∀ P : Vector UInt8 8 → Prop, (∃ a ∈ bs ++ [c], fits a = true ∧ P a.network.extendedPanId) ↔
      ∃ a ∈ bs, fits a = true ∧ P a.network.extendedPanId := by
    intro P
    constructor
    · rintro ⟨a, ha, hfit, hp⟩
      rcases List.mem_append.mp ha with ha | ha
      · exact ⟨a, ha, hfit, hp⟩
      · rw [List.mem_singleton.mp ha] at hfit hp
        obtain ⟨b, hb, hb', heq⟩ := hold hfit
        exact ⟨b, hb, hb', heq ▸ hp⟩
    · rintro ⟨a, ha, hfit, hp⟩
      exact ⟨a, List.mem_append_left _ ha, hfit, hp⟩
  refine ⟨?_, ?_, ?_⟩
  · intro hex
    have htrue := (hback fun _ => True).mp (by simpa using hex)
    exact h.seen (by simpa using htrue)
  · intro hseen
    exact (hback fun e => e = t.firstEpid).mpr (h.first hseen)
  · rw [h.mixed]
    exact (hback fun e => e ≠ t.firstEpid).symm

theorem Noted.noteEpid {fits : Candidate → Bool} {t : Table} {bs : List Candidate} (h : Noted fits t bs) (c : Candidate)
    (hfit : fits c = true) : Noted fits (noteEpid t c) (bs ++ [c]) := by
  unfold NwkCandidates.noteEpid
  split
  · rename_i hunseen
    have hnone : ∀ a ∈ bs, fits a = false := by
      intro a ha
      rw [Bool.eq_false_iff]
      intro hfit
      simp [h.seen ⟨a, ha, hfit⟩] at hunseen
    refine ⟨fun _ => rfl, fun _ => ⟨c, by simp, hfit, rfl⟩, ?_⟩
    simp only [h.mixed]
    constructor
    · rintro ⟨a, ha, hfit, -⟩
      rw [hnone a ha] at hfit
      cases hfit
    · rintro ⟨a, ha, hfit, hne⟩
      rcases List.mem_append.mp ha with ha | ha
      · rw [hnone a ha] at hfit
        cases hfit
      · rw [List.mem_singleton.mp ha] at hne
        exact absurd rfl hne
  rename_i hseen
  simp only [Bool.not_eq_true, Bool.not_eq_false'] at hseen
  split
  · rename_i hother
    refine ⟨fun _ => hseen, ?_, ?_⟩
    · intro _
      obtain ⟨a, ha, hrest⟩ := h.first hseen
      exact ⟨a, List.mem_append_left _ ha, hrest⟩
    · simp only [true_iff]
      exact ⟨c, by simp, hfit, fun heq => hother heq.symm⟩
  · rename_i hsame
    rw [not_not] at hsame
    obtain ⟨a, ha, ha', heq⟩ := h.first hseen
    exact h.skip c fun _ => ⟨a, ha, ha', heq.trans hsame⟩

/-- One candidate: the networks seen are noted, whatever becomes of the candidate. -/
theorem Noted.meet {build : Build} {t : Table} {l bs : List Candidate} (hrouter : build.routerJoin = true)
    (hl : Holds t l) (hsub : ∀ a ∈ l, a ∈ bs ∧ eligible build t a = true) (h : Noted (eligible build t) t bs)
    (c : Candidate) : Noted (eligible build t) (meet build t c).2 (bs ++ [c]) := by
  unfold NwkCandidates.meet
  rw [hl.position c]
  cases hfind : l.findIdx? fun b => decide (identity b = identity c) with
  | some i =>
    obtain ⟨hi, hkey, -⟩ := List.findIdx?_eq_some_iff_getElem.mp hfind
    have hepid : l[i].network.extendedPanId = c.network.extendedPanId :=
      congrArg Identity.extendedPanId (of_decide_eq_true hkey)
    obtain ⟨hmem, hfit⟩ := hsub l[i] (List.getElem_mem hi)
    have hskip := h.skip c fun _ => ⟨l[i], hmem, hfit, hepid⟩
    simp only
    split
    · exact hskip.congr rfl rfl rfl
    · exact hskip.congr rfl rfl rfl
  | none =>
    simp only
    cases hfit : eligible build t c with
    | false => exact h.skip c fun hc => by rw [hfit] at hc; cases hc
    | true =>
      have hnote := h.noteEpid c hfit
      simp only [Bool.not_true, Bool.false_eq_true, if_false, hrouter, if_true]
      split
      · unfold replaceWeakest
        simp only
        split
        · exact hnote
        · exact hnote.congr rfl rfl rfl
      · unfold append
        split
        · exact hnote
        · exact hnote.congr rfl rfl rfl

theorem fed_noted {build : Build} (hrouter : build.routerJoin = true) {t : Table} (ht : Blank t)
    (stream : List Record) : Noted (eligible build t) (fed build t stream) (beacons build t stream) := by
  induction stream using List.reverseRecOn with
  | nil =>
    refine ⟨by simp [beacons], ?_, ?_⟩
    · change t.epidSeen = true → _
      simp [ht.unseen]
    · change t.mixed = true ↔ _
      simp [ht.unmixed, beacons]
  | append_singleton stream r ih =>
    obtain ⟨hfilter, hholds⟩ := fed_holds build ht stream
    have hscreen := hfilter.screen ht.holds hholds build r
    rw [fed_concat, consider, hscreen]
    cases hr : screen build t r with
    | error e =>
      rw [beacons_error hr]
      exact ih
    | ok c =>
      rw [beacons_ok hr]
      have hsame := hfilter.eligible build
      rw [← hsame] at ih ⊢
      refine Noted.meet hrouter hholds ?_ ih c
      intro a ha
      rw [hsame]
      exact ⟨Roster.mem_roster ha, (Roster.roster_kept _).fit a ha⟩

/-! ## The table after a stream -/

/-- The entries of a table. -/
def live (t : Table) : List Candidate := t.entries.toList.take t.count.toNat

/-- A record that is turned away changes nothing. -/
theorem consider_rejected (build : Build) (t : Table) (r : Record)
    (h : r.crcValid ≠ 1 ∨ scanned t.channelMask r.channel = false ∨ ∃ e, beaconOf build r = .error e) :
    (consider build t r).2 = t := by
  unfold consider screen
  by_cases harguments : r.channel < 11 ∨ 26 < r.channel ∨ 1 < r.crcValid
  · rw [if_pos harguments]
  rw [if_neg harguments]
  by_cases hvalid : (!validTable t) = true
  · rw [if_pos hvalid]
  rw [if_neg hvalid]
  by_cases hcrc : r.crcValid = 0
  · rw [if_pos hcrc]
  rw [if_neg hcrc]
  rcases h with hbad | hmask | ⟨e, he⟩
  · rw [not_or, not_or] at harguments
    have hle := UInt8.le_iff_toNat_le.mp (UInt8.not_lt.mp harguments.2.2)
    have hpos : r.crcValid.toNat ≠ 0 := fun hz => hcrc (UInt8.toNat_inj.mp hz)
    have hone : r.crcValid.toNat = (1 : UInt8).toNat := by
      simp at hle ⊢
      omega
    exact absurd (UInt8.toNat_inj.mp hone) hbad
  · simp [hmask]
  · cases hmask : scanned t.channelMask r.channel with
    | false => simp
    | true => simp [he]

/-- The table after any stream: compact, with distinct and eligible entries and
zeroed slots behind them; exactly the last words of the identities while there
are few; the strongest and the mark of a second network in a build that joins
through routers. -/
theorem candidates_table (build : Build) {mask : UInt32} {only : Option UInt16} {rejoining : Bool} {t : Table}
    (h : prepared mask only rejoining = .ok t) (stream : List Record) :
    ((fed build t stream).count ≤ 4 ∧
      (fed build t stream).entries.toList.drop (fed build t stream).count.toNat =
        List.replicate (capacity - (fed build t stream).count.toNat) .zero ∧
      ((live (fed build t stream)).map identity).Nodup ∧
      ∀ c ∈ live (fed build t stream), eligible build t c = true) ∧
    ((Roster.fitting identity (eligible build t) (beacons build t stream)).card ≤ capacity →
      ∀ c, c ∈ live (fed build t stream) ↔
        Roster.lastOf identity (beacons build t stream) (identity c) = some c ∧ eligible build t c = true) ∧
    (∀ t' r, r.crcValid ≠ 1 ∨ scanned t'.channelMask r.channel = false ∨ (∃ e, beaconOf build r = .error e) →
      (consider build t' r).2 = t') ∧
    (build.routerJoin = true → t.filtered = false →
      ((∀ c ∈ beacons build t stream, eligible build t c = true) → ((beacons build t stream).map identity).Nodup →
        ((live (fed build t stream)).map score : Multiset Int) =
          ((((beacons build t stream).map score).mergeSort fun x y => decide (y ≤ x)).take capacity : List Int)) ∧
      ((fed build t stream).mixed = true ↔
        ∃ a ∈ beacons build t stream, ∃ b ∈ beacons build t stream, eligible build t a = true ∧
          eligible build t b = true ∧ a.network.extendedPanId ≠ b.network.extendedPanId)) := by
  have ht := prepared_blank h
  obtain ⟨-, hholds⟩ := fed_holds build ht stream
  have hkept : Roster.Kept identity (eligible build t) capacity
      (roster identity (eligible build t) score capacity (keepsStrongest build t) (beacons build t stream)) :=
    Roster.roster_kept _
  have hlive : live (fed build t stream) =
      roster identity (eligible build t) score capacity (keepsStrongest build t) (beacons build t stream) := hholds.live
  refine ⟨⟨?_, ?_, ?_, ?_⟩, ?_, consider_rejected build, ?_⟩
  · rw [UInt8.le_iff_toNat_le, hholds.count]
    exact hholds.length_le
  · rw [hholds.count, hholds.entries, List.drop_left]
  · rw [hlive]
    exact hkept.nodup
  · rw [hlive]
    exact hkept.fit
  · intro hfew c
    rw [hlive]
    exact Roster.roster_last _ hfew c
  · intro hrouter hopen
    have hkeeps : keepsStrongest build t = true := by simp [keepsStrongest, hrouter, hopen]
    refine ⟨?_, ?_⟩
    · intro hfit hdistinct
      rw [hlive, hkeeps]
      exact Roster.roster_strongest (by decide) _ hfit hdistinct
    · have hnoted := fed_noted hrouter ht stream
      rw [hnoted.mixed]
      constructor
      · rintro ⟨a, ha, hfit, hne⟩
        obtain ⟨b, hb, hfit', heq⟩ := hnoted.first (hnoted.seen ⟨a, ha, hfit⟩)
        exact ⟨a, ha, b, hb, hfit, hfit', heq ▸ hne⟩
      · -- One of two different networks is not the first one.
        rintro ⟨a, ha, b, hb, hfit, hfit', hne⟩
        by_cases hfirst : a.network.extendedPanId = (fed build t stream).firstEpid
        · exact ⟨b, hb, hfit', fun heq => hne (hfirst.trans heq.symm)⟩
        · exact ⟨a, ha, hfit, hfirst⟩

/-- A beacon of a coordinator that permits joining, of the network with these octets. -/
def sampleBeacon (network : UInt8) : Record where
  channel := 11
  crcValid := 1
  body := [0x00, 0x80, 7, 0x62, 0x1A, 0, 0, 0xFF, 0xCF, 0, 0, 0, 0x22, 0x84] ++ List.replicate 8 network ++
    [0xFF, 0xFF, 0xFF, 0]
  rssi := -40

def routerBuild : Build := ⟨true, true, false, false, by decide, by decide⟩

def sampleTable : Table :=
  { version := 1, channelMask := 0x800, count := 0, rejoin := false, entries := Vector.replicate capacity .zero
    filtered := false, parent := 0, epidSeen := false, mixed := false, firstEpid := Vector.replicate 8 0 }

theorem candidates_table_two_networks :
    prepared 0x800 none false = .ok sampleTable ∧
    (beacons routerBuild sampleTable [sampleBeacon 1, sampleBeacon 2]).length = 2 ∧
    (fed routerBuild sampleTable [sampleBeacon 1, sampleBeacon 2]).mixed = true := by
  have hmixed := ((candidates_table routerBuild (show prepared 0x800 none false = .ok sampleTable from rfl)
    [sampleBeacon 1, sampleBeacon 2]).2.2.2 rfl rfl).2
  refine ⟨rfl, by decide +kernel, hmixed.mpr ?_⟩
  decide +kernel

end NwkCandidates
