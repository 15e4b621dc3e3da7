import Cc2530Zigbee.LinkWorkspace

/-!
# The leases of the workspace

The live frames form a stack that the table of callers admits, their regions
are apart but for the shared one of the transmitter, and what is not zero in
the arena belongs to one of them.
-/
namespace LinkWorkspace

open LinkedStack

variable {L : Layout} {w : Workspace} {stack : List Frame}

/-- Every frame was entered from the one under it, the last from the root. -/
def Called : List Frame → Prop
  | [] => True
  | f :: rest => callerAllowed f rest.head? = true ∧ Called rest

/-- Some byte of the arena belongs to a frame. -/
def Owns (L : Layout) (stack : List Frame) (i : Nat) : Prop := ∃ f ∈ stack, (regions L f).Holds i

structure Leased (L : Layout) (w : Workspace) (stack : List Frame) : Prop where
  chained : Chained w.ancestors w.top stack
  nodup : stack.Nodup
  unused : ∀ f, f ∉ stack → w.ancestors f = none
  called : Called stack
  apart : stack.Pairwise fun f p => clash L f p = false
  granted : ∀ p, w.grant = some p → w.top = some p.owner
  owned : ∀ i < L.size, w.arena i ≠ 0 → Owns L stack i

theorem clean_leased (h : clean L w = true) : Leased L w [] := by
  simp only [clean, Bool.and_eq_true, Option.isNone_iff_eq_none, List.all_eq_true, List.mem_range, beq_iff_eq] at h
  obtain ⟨⟨⟨htop, hgrant⟩, hancestors⟩, hzero⟩ := h
  exact {
    chained := htop
    nodup := List.nodup_nil
    unused := fun f _ => hancestors f (Finset.mem_univ f)
    called := trivial
    apart := List.Pairwise.nil
    granted := fun p hp => by
      rw [hgrant] at hp
      cases hp
    owned := fun i hi hne => absurd (hzero i hi) hne }

theorem overlap_iff (r q : Region) : overlap r q = true ↔ ∃ i, r.Holds i ∧ q.Holds i := by
  constructor
  · intro h
    simp only [overlap, Bool.and_eq_true, bne_iff_ne] at h
    refine ⟨max r.first q.first, ?_⟩
    simp only [Region.Holds]
    obtain ⟨⟨hr, hq⟩, hc⟩ := h
    split at hc <;> simp only [decide_eq_true_eq] at hc <;> omega
  · rintro ⟨i, hr, hq⟩
    simp only [Region.Holds] at hr hq
    simp only [overlap, Bool.and_eq_true, bne_iff_ne]
    refine ⟨⟨by omega, by omega⟩, ?_⟩
    split <;> simp only [decide_eq_true_eq] <;> omega

/-- A frame that can stand over a transmit frame. -/
def overTx : Frame → Bool
  | .txStep | .txInterval | .macDecode | .beacon => true
  | _ => false

/-- A frame that cannot stand over a transmit frame has callers that are neither
transmit frames nor over one. -/
theorem callers_under (f p : Frame) (h : overTx f = false) (hp : p ∈ callers f) :
    txFrame p = false ∧ overTx p = false := by
  revert f p
  decide

/-- A caller of a transmit frame that is none itself is over none. -/
theorem callers_tx (f p : Frame) (hf : txFrame f = true) (hp : p ∈ callers f) (htx : txFrame p = false) :
    overTx p = false := by
  revert f p
  decide

theorem Called.not_tx {f : Frame} {rest : List Frame} (h : Called (f :: rest)) (hf : overTx f = false) :
    ∀ p ∈ rest, txFrame p = false := by
  induction rest generalizing f with
  | nil => simp
  | cons q rest ih =>
    have hq : q ∈ callers f := by simpa [callerAllowed] using h.1
    obtain ⟨htx, hover⟩ := callers_under f q hf hq
    intro p hp
    rcases List.mem_cons.mp hp with rfl | hp
    · exact htx
    · exact ih h.2 hover p hp

/-- A transmit frame that is entered by no transmit frame is the only one. -/
theorem Called.tx_outer {f : Frame} {rest : List Frame} (h : Called (f :: rest)) (hf : txFrame f = true)
    (hout : rest.head?.any txFrame = false) : ∀ p ∈ rest, txFrame p = false := by
  cases rest with
  | nil => simp
  | cons q rest =>
    have hq : q ∈ callers f := by simpa [callerAllowed] using h.1
    have htx : txFrame q = false := by simpa using hout
    have hover : overTx q = false := callers_tx f q hf hq htx
    intro p hp
    rcases List.mem_cons.mp hp with rfl | hp
    · exact htx
    · exact h.2.not_tx hover p hp

theorem regions_tx {f p : Frame} (hf : txFrame f = true) (hp : txFrame p = true) : regions L f = regions L p := by
  cases f <;> simp only [txFrame, Bool.false_eq_true] at hf <;> cases p <;>
    simp only [txFrame, Bool.false_eq_true] at hp <;> rfl

/-- The region of a frame lies in the arena. -/
theorem regions_fit (L : Layout) (f : Frame) : (regions L f).first + (regions L f).size ≤ L.size := by
  have hscan := L.scanned
  have hdecoded := L.fits .decoded
  cases f <;> first
    | exact L.fits _
    | exact Nat.zero_le _
    | (simp only [regions]; omega)

/-- What leaving clears belongs to no frame under it. -/
theorem Leased.wiped_apart {f : Frame} {rest : List Frame} (h : Leased L w (f :: rest)) {i : Nat}
    (hi : (wiped L w f).Holds i) : ¬ Owns L rest i := by
  rintro ⟨p, hp, hpi⟩
  have hbelow : w.ancestors f = rest.head? := h.chained.2.top_eq
  unfold wiped at hi
  rw [hbelow] at hi
  split at hi
  · simp only [Region.Holds] at hi
    omega
  rename_i hinner
  have hclash := (List.pairwise_cons.mp h.apart).1 p hp
  have hover : overlap (regions L f) (regions L p) = true := (overlap_iff _ _).mpr ⟨i, hi, hpi⟩
  -- The two regions meet, so both frames transmit, and the upper one is nested.
  simp only [clash, hover, Bool.true_and, Bool.not_eq_false', Bool.and_eq_true] at hclash
  simp only [hclash.1, Bool.true_and, Bool.not_eq_true] at hinner
  have hnone := h.called.tx_outer hclash.1 hinner p hp
  rw [hclash.2] at hnone
  cases hnone

theorem wiped_fits (L : Layout) (w : Workspace) (f : Frame) : (wiped L w f).first + (wiped L w f).size ≤ L.size := by
  unfold wiped
  split
  · exact Nat.zero_le _
  · exact regions_fit L f

/-- What a leaving frame owned is cleared or belongs to the frame under it. -/
theorem Leased.left_owned {f : Frame} {rest : List Frame} (h : Leased L w (f :: rest)) {i : Nat}
    (hsize : i < L.size) (hi : wipe (wiped L w f) w.arena i ≠ 0) : Owns L rest i := by
  unfold wipe at hi
  split at hi
  · exact absurd rfl hi
  rename_i hout
  obtain ⟨p, hp, hpi⟩ := h.owned i hsize hi
  rcases List.mem_cons.mp hp with rfl | hp
  · have hbelow : w.ancestors p = rest.head? := h.chained.2.top_eq
    unfold wiped at hout
    rw [hbelow] at hout
    split at hout
    · rename_i hinner
      rw [Bool.and_eq_true] at hinner
      cases rest with
      | nil => simp at hinner
      | cons q rest =>
        have hq : txFrame q = true := by simpa using hinner.2
        exact ⟨q, List.mem_cons_self, regions_tx hinner.1 hq ▸ hpi⟩
    · exact absurd hpi hout
  · exact ⟨p, hp, hpi⟩

theorem Leased.search_eq (h : Leased L w stack) (stop : Frame → Bool) :
    search w.ancestors stop frameCount w.top = some (stack.any stop) :=
  h.chained.search_eq stop (h.nodup.length_le_card.trans (by decide))

/-! ## One call -/

/-- Entering pushes a frame or changes nothing. -/
theorem Leased.enter (h : Leased L w stack) (number : UInt8) :
    (∃ b, (enter L w number).1 = some b) ∧
      (Leased L (enter L w number).2 stack ∨ ∃ f, Leased L (enter L w number).2 (f :: stack)) := by
  unfold LinkWorkspace.enter
  split
  · exact ⟨⟨_, rfl⟩, .inl h⟩
  rename_i frame _
  split
  · exact ⟨⟨_, rfl⟩, .inl h⟩
  rename_i hgo
  simp only [not_or, Bool.not_eq_true, Bool.not_eq_false', Option.isSome_eq_false_iff, Option.isNone_iff_eq_none] at hgo
  rw [h.search_eq]
  cases hany : stack.any fun p => p == frame || clash L frame p with
  | true => exact ⟨⟨_, rfl⟩, .inl h⟩
  | false =>
    refine ⟨⟨_, rfl⟩, .inr ⟨frame, ?_⟩⟩
    simp only [List.any_eq_false, Bool.or_eq_true, beq_iff_eq, not_or, Bool.not_eq_true] at hany
    have hfresh : frame ∉ stack := fun hin => (hany frame hin).1 rfl
    exact {
      chained := h.chained.push hfresh
      nodup := List.nodup_cons.mpr ⟨hfresh, h.nodup⟩
      unused := fun f hf => by
        rw [List.mem_cons, not_or] at hf
        exact (Function.update_of_ne hf.1 _ _).trans (h.unused f hf.2)
      called := ⟨h.chained.top_eq ▸ hgo.2.1, h.called⟩
      apart := List.pairwise_cons.mpr ⟨fun p hp => (hany p hp).2, h.apart⟩
      granted := fun p hp => by
        simp only [hgo.1] at hp
        cases hp
      owned := fun i hsize hi => by
        obtain ⟨f, hf, hfi⟩ := h.owned i hsize hi
        exact ⟨f, List.mem_cons_of_mem _ hf, hfi⟩ }

/-- Leaving pops the top frame. -/
theorem Leased.popped {f : Frame} {rest : List Frame} (h : Leased L w (f :: rest)) (hg : w.grant = none) :
    Leased L { w with
      arena := wipe (wiped L w f) w.arena
      top := w.ancestors f
      ancestors := Function.update w.ancestors f none } rest where
  chained := h.chained.pop (List.nodup_cons.mp h.nodup).1
  nodup := (List.nodup_cons.mp h.nodup).2
  unused := fun p hp => by
    by_cases heq : p = f
    · rw [heq]
      exact Function.update_self _ _ _
    · refine (Function.update_of_ne heq _ _).trans (h.unused p ?_)
      simp [heq, hp]
  called := h.called.2
  apart := (List.pairwise_cons.mp h.apart).2
  granted := fun p hp => by
    simp only [hg] at hp
    cases hp
  owned := fun _ hsize hi => h.left_owned hsize hi

theorem Leased.leave (h : Leased L w stack) (number : UInt8) :
    ((leave L w number).1 = false ∧ (leave L w number).2 = w) ∨
      ∃ f rest, frameOf number = some f ∧ stack = f :: rest ∧ (leave L w number).1 = true ∧
        (leave L w number).2.arena = wipe (wiped L w f) w.arena ∧ Leased L (leave L w number).2 rest := by
  unfold LinkWorkspace.leave
  split
  · exact .inl ⟨rfl, rfl⟩
  rename_i frame hframe
  split
  · exact .inl ⟨rfl, rfl⟩
  rename_i hgo
  simp only [not_or, not_not, Bool.not_eq_true, Option.isSome_eq_false_iff, Option.isNone_iff_eq_none] at hgo
  right
  have htop := h.chained.top_eq
  rw [hgo.1] at htop
  cases stack with
  | nil => cases htop
  | cons f rest =>
    cases htop
    exact ⟨frame, rest, hframe, rfl, rfl, rfl, h.popped hgo.2⟩

theorem Leased.grant (h : Leased L w stack) (number : UInt8) : Leased L (grant w number).2 stack := by
  unfold LinkWorkspace.grant
  split
  · exact h
  split
  · exact h
  rename_i hgo
  rw [not_or, not_not] at hgo
  refine { h with granted := fun p hp => ?_ }
  cases hp
  exact hgo.2

theorem Leased.callResult (h : Leased L w stack) (result : UInt8) : Leased L (callResult w result).2 stack := by
  unfold LinkWorkspace.callResult
  split
  · exact h
  · exact { h with granted := fun p hp => nomatch hp }

theorem Leased.live_eq (h : Leased L w stack) : live w = stack :=
  h.chained.walk_eq (h.nodup.length_le_card.trans (by decide))

/-- Every call returns and leaves a stack of leases. -/
theorem Leased.call (h : Leased L w stack) (c : Call) :
    (call L w c).1 ≠ none ∧ ∃ stack', Leased L (call L w c).2 stack' := by
  cases c with
  | enter number =>
    obtain ⟨⟨b, hb⟩, hleased⟩ := h.enter number
    refine ⟨by simp [LinkWorkspace.call, hb], ?_⟩
    rcases hleased with hsame | ⟨f, hpushed⟩
    · exact ⟨stack, hsame⟩
    · exact ⟨f :: stack, hpushed⟩
  | leave number =>
    refine ⟨by simp [LinkWorkspace.call], ?_⟩
    rcases h.leave number with ⟨-, hsame⟩ | ⟨f, rest, -, -, -, -, hrest⟩
    · refine ⟨stack, ?_⟩
      simp only [LinkWorkspace.call, hsame]
      exact h
    · exact ⟨rest, hrest⟩
  | grant number => exact ⟨by simp [LinkWorkspace.call], stack, h.grant number⟩
  | callResult result => exact ⟨by simp [LinkWorkspace.call], stack, h.callResult result⟩
  | store offset value =>
    unfold LinkWorkspace.call
    simp only
    split
    · rename_i hin
      refine ⟨by simp, stack, { h with owned := fun i hsize hi => ?_ }⟩
      by_cases heq : i = offset
      · rw [h.live_eq, List.any_eq_true] at hin
        obtain ⟨f, hf, hholds⟩ := hin
        exact ⟨f, hf, heq ▸ of_decide_eq_true hholds⟩
      · simp only [Function.update_of_ne heq] at hi
        exact h.owned i hsize hi
    · exact ⟨by simp, stack, h⟩

/-! ## Whole runs -/

theorem frameOf_numberOf (f : Frame) : frameOf (numberOf f) = some f := by
  revert f
  decide

theorem Leased.clean (h : Leased L w []) : clean L w = true := by
  have htop : w.top = none := h.chained
  simp only [LinkWorkspace.clean, Bool.and_eq_true, Option.isNone_iff_eq_none, List.all_eq_true, List.mem_range,
    beq_iff_eq]
  refine ⟨⟨⟨htop, ?_⟩, fun f _ => h.unused f List.not_mem_nil⟩, fun i hi => ?_⟩
  · cases hg : w.grant with
    | none => rfl
    | some p =>
      have howner := h.granted p hg
      rw [htop] at howner
      cases howner
  · by_contra hne
    obtain ⟨f, hf, -⟩ := h.owned i hi hne
    cases hf

theorem Leased.unwound (h : Leased L w stack) (hg : w.grant = none) :
    Leased L (stack.foldl (fun w frame => (LinkWorkspace.leave L w (numberOf frame)).2) w) [] := by
  induction stack generalizing w with
  | nil => exact h
  | cons f rest ih =>
    have hleave : (LinkWorkspace.leave L w (numberOf f)).2 = { w with
        arena := wipe (wiped L w f) w.arena
        top := w.ancestors f
        ancestors := Function.update w.ancestors f none } := by
      simp [LinkWorkspace.leave, frameOf_numberOf, h.chained.1, hg]
    rw [List.foldl_cons, hleave]
    exact ih (h.popped hg) hg

theorem callResult_grant (w : Workspace) (result : UInt8) : (callResult w result).2.grant = none := by
  unfold callResult
  split
  · rename_i hnone
    exact Option.isNone_iff_eq_none.mp hnone
  · rfl

/-- What the leases promise of a workspace. -/
structure Safe (L : Layout) (w : Workspace) : Prop where
  /-- The ancestors from the top are finitely many and end at the root. -/
  chained : Chained w.ancestors w.top (live w)
  acyclic : (live w).Nodup
  held : ∀ f, held w f = some (decide (f ∈ live w))
  entered : ∀ number, (enter L w number).1 ≠ none
  /-- Two live frames share bytes only if both are frames of the transmitter. -/
  apart : (live w).Pairwise fun f p =>
    (txFrame f = true ∧ txFrame p = true) ∨ ∀ i, ¬ ((regions L f).Holds i ∧ (regions L p).Holds i)
  /-- What a frame clears when it is left lies in the arena and out of the
  regions of the frames that stay. -/
  wiped : ∀ number, (leave L w number).1 = true → ∃ f, frameOf number = some f ∧
    (leave L w number).2.arena = wipe (wiped L w f) w.arena ∧
    ∀ i, (LinkWorkspace.wiped L w f).Holds i →
      i < L.size ∧ ∀ p ∈ live (leave L w number).2, ¬ (regions L p).Holds i
  granted : ∀ p, w.grant = some p → w.top = some p.owner
  root : w.top = none → LinkWorkspace.clean L w = true
  unwound : LinkWorkspace.clean L (unwind L w) = true

theorem Leased.safe (h : Leased L w stack) : Safe L w where
  chained := h.live_eq ▸ h.chained
  acyclic := h.live_eq ▸ h.nodup
  held f := by
    rw [LinkWorkspace.held, h.search_eq, h.live_eq]
    simp [List.any_beq']
  entered number := by
    obtain ⟨b, hb⟩ := (h.enter number).1
    simp [hb]
  apart := by
    rw [h.live_eq]
    refine h.apart.imp fun {f p} hclash => ?_
    by_cases hboth : txFrame f = true ∧ txFrame p = true
    · exact .inl hboth
    · right
      rintro i hi
      have hover := (overlap_iff _ _).mpr ⟨i, hi.1, hi.2⟩
      simp only [clash, hover, Bool.true_and, Bool.not_eq_false', Bool.and_eq_true] at hclash
      exact hboth hclash
  wiped number hok := by
    rcases h.leave number with ⟨hno, -⟩ | ⟨f, rest, hframe, hstack, -, harena, hrest⟩
    · rw [hno] at hok
      cases hok
    · refine ⟨f, hframe, harena, fun i hi => ⟨?_, fun p hp hpi => ?_⟩⟩
      · have hfit := wiped_fits L w f
        simp only [Region.Holds] at hi
        omega
      · rw [hrest.live_eq] at hp
        rw [hstack] at h
        exact h.wiped_apart hi ⟨p, hp, hpi⟩
  granted := h.granted
  root htop := by
    have hempty : stack = [] := by
      have hhead := h.chained.top_eq
      rw [htop] at hhead
      exact List.head?_eq_none_iff.mp hhead.symm
    exact (hempty ▸ h).clean
  unwound := by
    unfold unwind
    rw [h.live_eq]
    exact ((h.callResult 0).unwound (callResult_grant w 0)).clean

/-- From a clean workspace, every call returns and every workspace that is
reached keeps the promises of the leases. -/
theorem leases_safe (L : Layout) (w : Workspace) (h : clean L w = true) (calls : List Call) :
    (∀ answer ∈ (Runs.run (call L) w calls).1, answer ≠ none) ∧ Safe L (Runs.run (call L) w calls).2 := by
  have hrun := Runs.run_invariant (call L)
    (fun answers w => (∀ answer ∈ answers, answer ≠ none) ∧ ∃ stack, Leased L w stack) w []
    ⟨by simp, [], clean_leased h⟩
    (fun answers w c ⟨hanswers, stack, hleased⟩ => by
      obtain ⟨hanswer, hnext⟩ := hleased.call c
      refine ⟨fun answer hin => ?_, hnext⟩
      rcases List.mem_append.mp hin with hin | hin
      · exact hanswers answer hin
      · rw [List.mem_singleton.mp hin]
        exact hanswer) calls
  obtain ⟨hanswers, stack, hleased⟩ := hrun
  exact ⟨hanswers, hleased.safe⟩

/-- A packed arena of 617 octets. -/
def packed : Layout where
  size := 617
  offset
    | .keys | .join | .scan | .selected | .nwk | .zdoWork => 0
    | .poll => 218
    | .tx | .association => 327
    | .candidate => 462
    | .beacon => 490
    | .decoded => 73
    | .zdoServer => 64
    | .zdoNode => 128
  extent
    | .keys => 617
    | .join => 218
    | .poll => 109
    | .tx => 135
    | .candidate | .association => 28
    | .beacon => 9
    | .scan => 90
    | .decoded => 17
    | .selected => 36
    | .nwk => 29
    | .zdoWork | .zdoServer => 64
    | .zdoNode => 20
  fits m := by cases m <;> decide
  scanned := by decide
  fenced := true

/-- A join step over the three nested transmit frames and the decoder, with
bytes in each region: the arena is clean again when all are left. -/
theorem leases_safe_join :
    clean packed reset = true ∧
      (Runs.run (call packed) reset [.enter 4, .store 0 1, .enter 13, .store 327 2, .enter 12, .enter 11, .enter 15,
        .store 470 3]).1 = [some 1, some 0, some 1, some 0, some 1, some 1, some 1, some 0] ∧
      Safe packed (Runs.run (call packed) reset [.enter 4, .store 0 1, .enter 13, .store 327 2, .enter 12, .enter 11,
        .enter 15, .store 470 3]).2 :=
  ⟨by decide +kernel, by decide +kernel, (leases_safe packed reset (by decide +kernel) _).2⟩

end LinkWorkspace
