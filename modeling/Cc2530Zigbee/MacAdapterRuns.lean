import Cc2530Zigbee.MacAdapter

/-!
# The discipline of the observations

What a run of the adapter shows is judged by a log: the frames taken and seen,
the observation that is not yet consumed, the first stop of the present
closure and the losses. Every effect has to be allowed by the log before it.
-/
namespace MacAdapter

open MacEpoch (Stamp)

/-- What the effects so far amount to. -/
structure Log where
  /-- The frames the radio handed over. -/
  taken : List Frame
  /-- The frames that were published, with their serial numbers. -/
  seen : List (UInt32 × Frame)
  published : Nat
  unconsumed : Option Observation
  /-- The time of the first stop of the present closure, if there was one. -/
  first : Option Stamp
  /-- The time of the first stop of the latest closure that had one. -/
  mark : Stamp
  /-- A loss was reported since the last slot was prepared or the receiver opened. -/
  lossy : Bool

def Log.empty : Log := ⟨[], [], 0, none, none, ⟨0, 0⟩, false⟩

def Log.add (l : Log) : Effect → Log
  | .took frame => { l with taken := l.taken ++ [frame] }
  | .lost => { l with lossy := true }
  | .stopped time => { l with first := some (l.first.getD time), mark := l.first.getD time }
  | .closing => { l with first := none }
  | .prepared => { l with first := none, lossy := false }
  | .opened => { l with first := none, lossy := false }
  | .published o => { l with
      seen := if o.kind = .rx then l.seen ++ [(o.rxSerial, o.frame)] else l.seen
      published := l.published + 1
      unconsumed := some o }
  | .consumed _ => { l with unconsumed := none }

/-- Every frame that was taken has been published. -/
def Log.drained (l : Log) : Prop := l.seen.map Prod.snd = l.taken

/-- What may be shown after a log. -/
def Allowed (l : Log) : Effect → Prop
  | .took _ => l.drained
  | .published o =>
    l.unconsumed = none ∧ o.token.toNat = l.published + 1 ∧
      (o.kind = .rx → l.seen.map Prod.snd ++ [o.frame] = l.taken ∧ o.rxSerial.toNat = l.taken.length) ∧
      (o.closes = true → l.drained ∧ o.through = l.mark ∧ (∀ time, l.first = some time → o.through = time) ∧
        o.lossy = l.lossy)
  | .consumed token => ∃ o, l.unconsumed = some o ∧ o.token = token
  | _ => True

/-- The effects are allowed one after the other. -/
def Disciplined (l : Log) : List Effect → Prop
  | [] => True
  | e :: es => Allowed l e ∧ Disciplined (l.add e) es

theorem Disciplined.append {l : Log} {es fs : List Effect} (h : Disciplined l es)
    (hf : Disciplined (es.foldl Log.add l) fs) : Disciplined l (es ++ fs) := by
  induction es generalizing l with
  | nil => exact hf
  | cons e es ih => exact ⟨h.1, ih h.2 hf⟩

/-! ## Calls -/

/-- The calls after the first one, which starts the adapter and is refused from
then on. -/
inductive Call where
  | now (checked : Result) (timeout : UInt32) (limit : UInt16) (answer : Radio × Stamp)
  | prepare (address : Nat) (tx : MacTx.IntervalTx) (policy : Policy) (checked : Result) (timeout : UInt32)
      (limit : UInt16) (slot : Radio)
  | unprepare (address : Nat) (tx : MacTx.IntervalTx) (checked : Result) (timeout : UInt32) (limit : UInt16)
      (stop : Radio)
  | accept (address : Nat) (tx : MacTx.IntervalTx) (action : MacTx.IntervalAction) (checked : Result)
  | close (finish : Option Stamp) (checked : Result)
  | step (timeout : UInt32) (limit : UInt16) (x : Answers)
  | consume (token : UInt32)
  | configure (config : Config) (checked : Result) (timeout : UInt32) (limit : UInt16) (radio : Radio)
      (now : Radio × Stamp)
  | reopen (checked : Result) (timeout : UInt32) (limit : UInt16) (resume : Radio) (now : Radio × Stamp)

def answer (link : Bool) (a : Adapter) : Call → Answer
  | .now checked timeout limit reply => now a checked timeout limit reply
  | .prepare address tx policy checked timeout limit slot => prepare a address tx policy checked timeout limit slot
  | .unprepare address tx checked timeout limit stop => unprepare a address tx checked timeout limit stop
  | .accept address tx action checked => accept a address tx action checked
  | .close finish checked => close a finish checked
  | .step timeout limit x => step link a timeout limit x
  | .consume token => consume a token
  | .configure config checked timeout limit radio now => configure a config checked timeout limit radio now
  | .reopen checked timeout limit resume now => reopen a checked timeout limit resume now

/-- A call for a run: what it showed, and the adapter after it. -/
def call (link : Bool) (a : Adapter) (c : Call) : List Effect × Adapter :=
  ((answer link a c).effects, (answer link a c).adapter)

/-! ## The adapter and its log -/

/-- The frame that is held and not yet published. -/
def Adapter.waiting (a : Adapter) : List Frame :=
  if a.held ∧ ¬ (a.ready ∧ a.observation.kind = .rx) then [a.receipt.frame] else []

/-- The log agrees with the adapter. -/
structure Agrees (a : Adapter) (l : Log) : Prop where
  unconsumed : l.unconsumed = if a.ready then some a.observation else none
  published : a.deliveries.toNat = l.published
  frames : a.frames.toNat = l.taken.length
  taken : l.taken = l.seen.map Prod.snd ++ a.waiting
  held : a.ready = true → a.observation.kind = .rx → a.held = true
  /-- A slot is prepared only when no frame is held. -/
  free : a.phase = .prepared ∨ a.phase = .scheduled → a.held = false
  mark : l.mark = a.watermark
  first : l.first = if a.stopStarted then some a.watermark else none
  lossy : l.lossy = a.lossy

def Failed (a : Adapter) : Prop := ∃ why, why ≠ .ok ∧ a.fault = some why

/-- An answer keeps the discipline, and the log agrees unless the adapter failed. -/
structure Keeps (l : Log) (r : Answer) : Prop where
  disciplined : Disciplined l r.effects
  agrees : Failed r.adapter ∨ Agrees r.adapter (r.effects.foldl Log.add l)

theorem cold_agrees : Agrees cold Log.empty where
  unconsumed := rfl
  published := rfl
  frames := rfl
  taken := rfl
  held := fun h => nomatch h
  free := fun _ => rfl
  mark := rfl
  first := rfl
  lossy := rfl

section Keeping

variable {a a' : Adapter} {l : Log}

/-- An answer that shows nothing and touches none of what the log sees. -/
theorem Agrees.refuse (h : Agrees a l) (result : Result) : Keeps l (refuse a result) := ⟨trivial, .inr h⟩

theorem failed (l : Log) (a : Adapter) (why result : Result) (h : why ≠ .ok) : Keeps l (refuse (fail a why) result) :=
  ⟨trivial, .inl ⟨why, h, rfl⟩⟩

/-- The parts of an adapter the log sees. -/
structure Same (a a' : Adapter) : Prop where
  ready : a'.ready = a.ready
  observation : a'.observation = a.observation
  deliveries : a'.deliveries = a.deliveries
  frames : a'.frames = a.frames
  held : a'.held = a.held
  frame : a.held = true → a'.receipt.frame = a.receipt.frame
  watermark : a'.watermark = a.watermark
  stopStarted : a'.stopStarted = a.stopStarted
  lossy : a'.lossy = a.lossy

theorem Same.waiting (h : Same a a') : a'.waiting = a.waiting := by
  cases hheld : a.held with
  | true => simp [Adapter.waiting, h.ready, h.observation, h.held, h.frame hheld]
  | false => simp [Adapter.waiting, h.held, hheld]

theorem Agrees.same (h : Agrees a l) (hs : Same a a')
    (hfree : a'.phase = .prepared ∨ a'.phase = .scheduled → a.held = false) : Agrees a' l where
  unconsumed := by rw [hs.ready, hs.observation, h.unconsumed]
  published := by rw [hs.deliveries, h.published]
  frames := by rw [hs.frames, h.frames]
  taken := by rw [hs.waiting, h.taken]
  held := by
    rw [hs.ready, hs.observation, hs.held]
    exact h.held
  free hp := by
    rw [hs.held]
    exact hfree hp
  mark := by rw [h.mark, hs.watermark]
  first := by rw [h.first, hs.stopStarted, hs.watermark]
  lossy := by rw [h.lossy, hs.lossy]

theorem Agrees.steady (h : Agrees a l) (hs : Same a a')
    (hfree : a'.phase = .prepared ∨ a'.phase = .scheduled → a.held = false) (result : Result) :
    Keeps l (MacAdapter.refuse a' result) := (h.same hs hfree).refuse result

theorem Agrees.clock (h : Agrees a l) (now : Radio × Stamp) : Keeps l (MacAdapter.refuse (clock a now).2 (clock a now).1) := by
  unfold MacAdapter.clock
  split
  · exact failed l a _ _ (by decide)
  · refine h.steady ?_ ?_ _
    · exact ⟨rfl, rfl, rfl, rfl, rfl, fun _ => rfl, rfl, rfl, rfl⟩
    · exact h.free

/-- Publishing, with no observation waiting. -/
theorem Agrees.publish (h : Agrees a l) (hready : a.ready = false) (kind : Kind) (source : UInt8) (lower upper : Stamp)
    (hrx : kind = .rx → a.held = true)
    (hclose : kind ≠ .rx → (kind = .tx ∧ source = MacTx.eventSentInterval) ∨ a.held = false) :
    Keeps l (publish a kind source lower upper) := by
  have hwaiting : a.waiting = if a.held then [a.receipt.frame] else [] := by simp [Adapter.waiting, hready]
  have htaken := h.taken
  rw [hwaiting] at htaken
  unfold MacAdapter.publish
  split
  · exact failed l a _ _ (by decide)
  rename_i hmax
  have htoken : (a.deliveries + 1).toNat = a.deliveries.toNat + 1 := by
    have hlt := a.deliveries.toNat_lt
    have hne : a.deliveries.toNat ≠ 4294967295 := fun heq => hmax (UInt32.toNat_inj.mp heq)
    simp only [UInt32.toNat_add, UInt32.reduceToNat]
    omega
  simp only
  refine ⟨⟨⟨?_, ?_, fun hk => ?_, fun hc => ?_⟩, trivial⟩, .inr ?_⟩
  · simp [h.unconsumed, hready]
  · simp [observed, htoken, h.published]
  · have hheld := hrx hk
    rw [hheld, if_pos rfl] at htaken
    exact ⟨htaken.symm, by simp [observed, h.frames]⟩
  · have hfree : a.held = false := by
      by_cases hk : kind = .rx
      · simp [Observation.closes, observed, hk] at hc
      · rcases hclose hk with ⟨hk, hs⟩ | hfree
        · simp [Observation.closes, observed, hk, hs] at hc
        · exact hfree
    rw [hfree] at htaken
    refine ⟨by simpa [Log.drained] using htaken.symm, h.mark.symm, fun time ht => ?_, h.lossy.symm⟩
    rw [h.first] at ht
    simp only [observed]
    split at ht
    · exact Option.some.inj ht
    · cases ht
  · simp only [List.foldl_cons, List.foldl_nil, Log.add]
    exact {
      unconsumed := by simp
      published := by rw [htoken, h.published]
      frames := h.frames
      taken := by
        by_cases hk : kind = .rx
        · have hheld := hrx hk
          rw [hheld, if_pos rfl] at htaken
          simp [observed, hk, Adapter.waiting, htaken]
        · simp [observed, hk, Adapter.waiting, htaken]
      held := fun _ hk => hrx hk
      free := h.free
      mark := h.mark
      first := h.first
      lossy := h.lossy }

/-! ## One step -/

theorem Agrees.frame (h : Agrees a l) (hready : a.ready = false) (hheld : a.held = true) : Keeps l (frame a) := by
  unfold MacAdapter.frame
  generalize hb : (if a.boundValid = true then a
    else { a with receipt := { a.receipt with rxUpper := a.live }, boundValid := true }) = b
  have hsame : Same a b := by
    rw [← hb]
    split <;> exact ⟨rfl, rfl, rfl, rfl, rfl, fun _ => rfl, rfl, rfl, rfl⟩
  have hphase : b.phase = a.phase := by
    rw [← hb]
    split <;> rfl
  have hagrees : Agrees b l := h.same hsame (hphase ▸ h.free)
  simp only
  split
  · exact hagrees.refuse _
  · refine hagrees.publish (hsame.ready.trans hready) _ _ _ _ (fun _ => hsame.held.trans hheld) fun hne => ?_
    exact absurd rfl hne

theorem Agrees.took (h : Agrees a l) (hready : a.ready = false) (hheld : a.held = false)
    (hframes : a.frames ≠ 0xFFFFFFFF) (f : Frame) (hready' : a'.ready = false)
    (hdeliveries : a'.deliveries = a.deliveries) (hcount : a'.frames = a.frames + 1) (hheld' : a'.held = true)
    (hframe : a'.receipt.frame = f) (hphase : a'.phase ≠ .prepared ∧ a'.phase ≠ .scheduled)
    (hwatermark : a'.watermark = a.watermark) (hstop : a'.stopStarted = a.stopStarted) (hlossy : a'.lossy = a.lossy) :
    Allowed l (.took f) ∧ Agrees a' (l.add (.took f)) := by
  have htaken := h.taken
  have hwaiting : a.waiting = [] := by simp [Adapter.waiting, hheld]
  rw [hwaiting, List.append_nil] at htaken
  refine ⟨htaken.symm, ?_⟩
  exact {
    unconsumed := by simp [Log.add, h.unconsumed, hready, hready']
    published := by rw [hdeliveries, h.published]; rfl
    frames := by
      have hlt := a.frames.toNat_lt
      have hne : a.frames.toNat ≠ 4294967295 := fun heq => hframes (UInt32.toNat_inj.mp heq)
      simp only [hcount, Log.add, List.length_append, List.length_singleton, ← h.frames, UInt32.toNat_add,
        UInt32.reduceToNat]
      omega
    taken := by simp [Log.add, Adapter.waiting, hheld', hready', hframe, htaken]
    held := fun hr => by simp [hready'] at hr
    free := fun hp => by
      rcases hp with hp | hp
      · exact absurd hp hphase.1
      · exact absurd hp hphase.2
    mark := by rw [hwatermark, ← h.mark]; rfl
    first := by rw [hstop, hwatermark, ← h.first]; rfl
    lossy := by rw [hlossy, ← h.lossy]; rfl }

/-- A closure begins: nothing is stopped yet. -/
theorem Agrees.closing (h : Agrees a l) (hs : Same { a with stopStarted := false } a')
    (hphase : a'.phase ≠ .prepared ∧ a'.phase ≠ .scheduled) : Agrees a' (l.add .closing) := by
  have hfirst : Agrees { a with stopStarted := false } (l.add .closing) := { h with first := rfl }
  refine hfirst.same hs fun hp => ?_
  rcases hp with hp | hp
  · exact absurd hp hphase.1
  · exact absurd hp hphase.2

theorem Agrees.stepScheduled (h : Agrees a l) (hready : a.ready = false) (hphase : a.phase = .scheduled)
    (hframes : a.frames ≠ 0xFFFFFFFF) (link : Bool) (x : Answers) : Keeps l (stepScheduled link a x) := by
  have hheld : a.held = false := h.free (.inr hphase)
  unfold MacAdapter.stepScheduled
  split
  · exact h.refuse _
  split
  · exact h.refuse _
  simp only
  split
  · exact failed l _ _ _ (by decide)
  cases hreceived : x.run.2.received with
  | true =>
    simp only [if_true, List.cons_append, List.nil_append]
    have htook : Allowed l (.took x.run.2.frame) ∧ Agrees { a with
        began := a.live, receipt := x.run.2, transmitted := x.run.2.transmitted,
        normalRx := if link then x.run.2.autoack else a.normalRx, held := true, boundValid := true,
        frames := a.frames + 1, phase := .report } (l.add (.took x.run.2.frame)) :=
      h.took hready hheld hframes x.run.2.frame hready rfl rfl rfl rfl ⟨by simp, by simp⟩ rfl rfl rfl
    split
    · refine ⟨⟨htook.1, trivial, trivial⟩, .inr (htook.2.closing ?_ ⟨by simp, by simp⟩)⟩
      exact ⟨rfl, rfl, rfl, rfl, rfl, fun _ => rfl, rfl, rfl, rfl⟩
    · exact ⟨⟨htook.1, trivial⟩, .inr htook.2⟩
  | false =>
    simp only [Bool.false_eq_true, if_false, List.nil_append]
    have hheld' : ¬ a.held = true := by simp [hheld]
    split
    · refine ⟨⟨trivial, trivial⟩, .inr (h.closing ?_ ⟨by simp, by simp⟩)⟩
      exact ⟨rfl, rfl, rfl, rfl, hheld.symm, fun hh => absurd hh hheld', rfl, rfl, rfl⟩
    · refine ⟨trivial, .inr (h.same ?_ ?_)⟩
      · exact ⟨rfl, rfl, rfl, rfl, hheld.symm, fun hh => absurd hh hheld', rfl, rfl, rfl⟩
      · exact fun _ => hheld

theorem Agrees.stepReport (h : Agrees a l) (hready : a.ready = false) : Keeps l (stepReport a) := by
  unfold MacAdapter.stepReport
  split
  · exact failed l a _ _ (by decide)
  split
  · exact h.refuse _
  · exact h.publish hready _ _ _ _ (fun hk => nomatch hk) fun _ => .inl ⟨rfl, rfl⟩

theorem settle_same (a : Adapter) : Same a (settle a) := by
  unfold settle
  split <;> exact ⟨rfl, rfl, rfl, rfl, rfl, fun _ => rfl, rfl, rfl, rfl⟩

theorem settle_phase (a : Adapter) : (settle a).phase = a.phase := by
  unfold settle
  split <;> rfl

theorem Agrees.settle (h : Agrees a l) : Agrees (settle a) l :=
  h.same (settle_same a) (settle_phase a ▸ h.free)

theorem Agrees.stepRetired (h : Agrees a l) (hready : a.ready = false) (hheld : a.held = false) :
    Keeps l (stepRetired a) := by
  unfold MacAdapter.stepRetired
  simp only
  split
  · exact h.settle.refuse _
  · refine h.settle.publish ((settle_same a).ready.trans hready) _ _ _ _ (fun hk => nomatch hk) fun _ => ?_
    exact .inr ((settle_same a).held.trans hheld)

theorem Agrees.stepOff (h : Agrees a l) (hready : a.ready = false) (hheld : a.held = false) :
    Keeps l (stepOff a) := by
  have hpublish : ∀ kind source lower upper, kind ≠ Kind.rx →
      Keeps l (MacAdapter.publish (MacAdapter.settle a) kind source lower upper) := by
    intro kind source lower upper hk
    refine h.settle.publish ((settle_same a).ready.trans hready) _ _ _ _ (fun heq => absurd heq hk) fun _ => ?_
    exact .inr ((settle_same a).held.trans hheld)
  unfold MacAdapter.stepOff
  split
  · exact h.refuse _
  simp only
  split
  · exact h.settle.refuse _
  split
  · exact hpublish _ _ _ _ (by simp)
  · exact hpublish _ _ _ _ (by simp)
  · exact hpublish _ _ _ _ (by simp)
  · exact hpublish _ _ _ _ (by simp)

/-- The radio is told to stop; the first time is the one that counts. -/
theorem Agrees.stopped (h : Agrees a l)
    (hs : Same { a with watermark := if a.stopStarted then a.watermark else a.live, stopStarted := true } a')
    (hphase : a'.phase ≠ .prepared ∧ a'.phase ≠ .scheduled) : Agrees a' (l.add (.stopped a.live)) := by
  have hfirst : l.first.getD a.live = if a.stopStarted then a.watermark else a.live := by
    rw [h.first]
    cases a.stopStarted <;> rfl
  have hstopped : Agrees { a with
      watermark := if a.stopStarted then a.watermark else a.live, stopStarted := true } (l.add (.stopped a.live)) :=
    { h with mark := hfirst, first := congrArg some hfirst }
  refine hstopped.same hs fun hp => ?_
  rcases hp with hp | hp
  · exact absurd hp hphase.1
  · exact absurd hp hphase.2

theorem Agrees.stepStop (h : Agrees a l) (x : Answers) : Keeps l (stepStop a x) := by
  unfold MacAdapter.stepStop
  simp only
  split
  · refine ⟨⟨trivial, trivial⟩, .inr (h.stopped ?_ ⟨by simp, by simp⟩)⟩
    exact ⟨rfl, rfl, rfl, rfl, rfl, fun _ => rfl, rfl, rfl, rfl⟩
  split
  · refine ⟨⟨trivial, trivial⟩, .inr (h.stopped ?_ ⟨by simp, by simp⟩)⟩
    exact ⟨rfl, rfl, rfl, rfl, rfl, fun _ => rfl, rfl, rfl, rfl⟩
  · exact ⟨⟨trivial, trivial⟩, .inl ⟨_, by decide, rfl⟩⟩

theorem Agrees.drained (h : Agrees a l) : Agrees (drained a) l := by
  unfold MacAdapter.drained
  split
  · refine h.same ?_ fun hp => ?_
    · exact ⟨rfl, rfl, rfl, rfl, rfl, fun _ => rfl, rfl, rfl, rfl⟩
    · simp at hp
  · exact h

theorem Agrees.stepReceive (h : Agrees a l) (hready : a.ready = false) (hheld : a.held = false)
    (hframes : a.frames ≠ 0xFFFFFFFF) (hphase : a.phase ≠ .prepared ∧ a.phase ≠ .scheduled) (link : Bool)
    (x : Answers) : Keeps l (stepReceive link a x) := by
  unfold MacAdapter.stepReceive
  split
  · have htook : Allowed l (.took x.receive.2) ∧ Agrees { a with
        receipt := { a.receipt with frame := x.receive.2 }, held := true, boundValid := false,
        frames := a.frames + 1 } (l.add (.took x.receive.2)) :=
      h.took hready hheld hframes x.receive.2 hready rfl rfl rfl rfl hphase rfl rfl rfl
    exact ⟨⟨htook.1, trivial⟩, .inr htook.2⟩
  split
  · split
    · exact ⟨⟨trivial, trivial⟩, .inl ⟨_, by decide, rfl⟩⟩
    · refine ⟨⟨trivial, trivial⟩, .inr (Agrees.drained ?_)⟩
      exact { h with lossy := rfl }
  split
  · exact failed l a _ _ (by decide)
  · exact h.drained.refuse _

theorem endWindow_same (a : Adapter) : Same a (endWindow a) := by
  unfold endWindow
  split <;> exact ⟨rfl, rfl, rfl, rfl, rfl, fun _ => rfl, rfl, rfl, rfl⟩

theorem endWindow_phase (a : Adapter) (h : a.phase ≠ .prepared ∧ a.phase ≠ .scheduled) :
    (endWindow a).phase ≠ .prepared ∧ (endWindow a).phase ≠ .scheduled := by
  unfold endWindow
  split
  · simp
  · exact h

theorem Agrees.stepOpen (h : Agrees a l) (hready : a.ready = false) (hheld : a.held = false)
    (hframes : a.frames ≠ 0xFFFFFFFF) (hphase : a.phase ≠ .prepared ∧ a.phase ≠ .scheduled) (link : Bool)
    (x : Answers) : Keeps l (stepOpen link a x) := by
  unfold MacAdapter.stepOpen
  split
  · exact h.stepRetired hready hheld
  have hsame := endWindow_same a
  have hnow : Agrees (endWindow a) l := h.same hsame fun _ => hheld
  simp only
  split
  · exact hnow.stepStop x
  split
  · exact hnow.stepOff (hsame.ready.trans hready) (hsame.held.trans hheld)
  · exact hnow.stepReceive (hsame.ready.trans hready) (hsame.held.trans hheld) (hsame.frames ▸ hframes)
      (endWindow_phase a hphase) link x

theorem Agrees.stepFree (h : Agrees a l) (hready : a.ready = false) (hheld : a.held = false)
    (hframes : a.frames ≠ 0xFFFFFFFF) (hphase : a.phase ≠ .prepared ∧ a.phase ≠ .scheduled) (link : Bool)
    (x : Answers) : Keeps l (stepFree link a x) := by
  unfold MacAdapter.stepFree
  split
  · split
    · unfold stepHandoff
      split
      · exact failed l a _ _ (by decide)
      · refine h.steady ?_ ?_ _
        · exact ⟨rfl, rfl, rfl, rfl, rfl, fun _ => rfl, rfl, rfl, rfl⟩
        · exact fun _ => hheld
    split
    · refine h.steady ?_ ?_ _
      · exact ⟨rfl, rfl, rfl, rfl, rfl, fun _ => rfl, rfl, rfl, rfl⟩
      · exact fun _ => hheld
    · have hnow : Agrees { a with phase := .closing, waitThrough := false } l := by
        refine h.same ?_ fun _ => hheld
        exact ⟨rfl, rfl, rfl, rfl, rfl, fun _ => rfl, rfl, rfl, rfl⟩
      exact hnow.stepOpen hready hheld hframes ⟨by simp, by simp⟩ link x
  · exact h.stepOpen hready hheld hframes hphase link x

theorem Agrees.work (h : Agrees a l) (hready : a.ready = false) (hframes : a.frames ≠ 0xFFFFFFFF) (link : Bool)
    (x : Answers) : Keeps l (work link a x) := by
  unfold MacAdapter.work
  split
  · rename_i hphase
    exact h.stepScheduled hready hphase hframes link x
  · exact h.stepReport hready
  · exact h.refuse _
  · exact h.refuse _
  · rename_i hscheduled _ _ hprepared
    cases hheld : a.held with
    | true => exact h.frame hready hheld
    | false => exact h.stepFree hready hheld hframes ⟨hprepared, hscheduled⟩ link x

theorem Agrees.step (h : Agrees a l) (link : Bool) (timeout : UInt32) (limit : UInt16) (x : Answers) :
    Keeps l (step link a timeout limit x) := by
  unfold MacAdapter.step
  split
  · exact h.refuse _
  split
  · exact h.refuse _
  split
  · exact h.refuse _
  rename_i hready
  split
  · exact failed l a _ _ (by decide)
  rename_i hmax
  rw [not_or] at hmax
  simp only [MacAdapter.clock]
  split
  · exact failed l a _ _ (by decide)
  · have hnow : Agrees { a with live := x.now.2 } l := by
      refine h.same ?_ h.free
      exact ⟨rfl, rfl, rfl, rfl, rfl, fun _ => rfl, rfl, rfl, rfl⟩
    exact hnow.work (by simpa using hready) hmax.2 link x

/-! ## The other calls -/

theorem Agrees.accept (h : Agrees a l) (address : Nat) (tx : MacTx.IntervalTx) (action : MacTx.IntervalAction)
    (checked : Result) : Keeps l (accept a address tx action checked) := by
  unfold MacAdapter.accept
  split
  · exact h.refuse _
  split
  · exact h.refuse _
  split
  · exact h.refuse _
  split
  · split
    · exact h.refuse _
    · rename_i hgo
      simp only [not_or, not_not] at hgo
      refine h.steady ?_ ?_ _
      · exact ⟨rfl, rfl, rfl, rfl, rfl, fun _ => rfl, rfl, rfl, rfl⟩
      · exact fun _ => h.free (.inl hgo.1)
  · split
    · exact h.refuse _
    · refine h.steady ?_ ?_ _
      · exact ⟨rfl, rfl, rfl, rfl, rfl, fun _ => rfl, rfl, rfl, rfl⟩
      · simp
  · split
    · exact h.refuse _
    simp only
    split
    · refine h.steady ?_ ?_ _
      · exact ⟨rfl, rfl, rfl, rfl, rfl, fun _ => rfl, rfl, rfl, rfl⟩
      · simp
    · refine h.steady ?_ ?_ _
      · exact ⟨rfl, rfl, rfl, rfl, rfl, fun _ => rfl, rfl, rfl, rfl⟩
      · exact h.free
  · exact h.refuse _

theorem Agrees.close (h : Agrees a l) (finish : Option Stamp) (checked : Result) :
    Keeps l (close a finish checked) := by
  unfold MacAdapter.close
  split
  · exact h.refuse _
  split
  · exact h.refuse _
  split
  · refine ⟨⟨trivial, trivial⟩, .inr (h.closing ?_ ⟨by simp, by simp⟩)⟩
    exact ⟨rfl, rfl, rfl, rfl, rfl, fun _ => rfl, rfl, rfl, rfl⟩
  split
  · exact h.refuse _
  split
  · exact h.refuse _
  · refine ⟨⟨trivial, trivial⟩, .inr (h.closing ?_ ⟨by simp, by simp⟩)⟩
    exact ⟨rfl, rfl, rfl, rfl, rfl, fun _ => rfl, rfl, rfl, rfl⟩

theorem Agrees.consume (h : Agrees a l) (token : UInt32) : Keeps l (consume a token) := by
  unfold MacAdapter.consume
  split
  · exact h.refuse _
  split
  · exact h.refuse _
  rename_i hgo
  rw [not_or, Bool.not_eq_true, Bool.not_eq_false', not_not] at hgo
  obtain ⟨hready, htoken⟩ := hgo
  have hunconsumed : l.unconsumed = some a.observation := by rw [h.unconsumed, if_pos hready]
  refine ⟨⟨⟨a.observation, hunconsumed, htoken.symm⟩, trivial⟩, .inr ?_⟩
  have htaken := h.taken
  simp only [List.foldl_cons, List.foldl_nil, Log.add]
  exact {
    unconsumed := rfl
    published := h.published
    frames := h.frames
    taken := by
      cases hk : a.observation.kind with
      | rx => simpa [Adapter.waiting, hready, hk] using htaken
      | tx => simpa [Adapter.waiting, hready, hk] using htaken
      | closed => simpa [Adapter.waiting, hready, hk] using htaken
    held := fun hr => nomatch hr
    free := fun hp => by
      simp only at hp
      split at hp
      · simp at hp
      · simp [h.free hp]
    mark := h.mark
    first := h.first
    lossy := h.lossy }

theorem Agrees.prepare (h : Agrees a l) (address : Nat) (tx : MacTx.IntervalTx) (policy : Policy) (checked : Result)
    (timeout : UInt32) (limit : UInt16) (slot : Radio) :
    Keeps l (prepare a address tx policy checked timeout limit slot) := by
  unfold MacAdapter.prepare
  split
  · exact h.refuse _
  split
  · exact h.refuse _
  split
  · exact h.refuse _
  rename_i hgo
  simp only [not_or, Bool.not_eq_true] at hgo
  have hheld : a.held = false := hgo.2.2.1
  split
  · exact failed l a _ _ (by decide)
  simp only
  split
  · exact failed l _ _ _ (by decide)
  · refine ⟨⟨trivial, trivial⟩, .inr ?_⟩
    have hfresh : Agrees { a with stopStarted := false, lossy := false } (l.add .prepared) :=
      { h with first := rfl, lossy := rfl }
    refine hfresh.same ?_ fun _ => hheld
    exact ⟨rfl, rfl, rfl, rfl, rfl, fun hh => absurd hh (by simp [hheld]), rfl, rfl, rfl⟩

theorem Agrees.unprepare (h : Agrees a l) (address : Nat) (tx : MacTx.IntervalTx) (checked : Result)
    (timeout : UInt32) (limit : UInt16) (stop : Radio) :
    Keeps l (unprepare a address tx checked timeout limit stop) := by
  unfold MacAdapter.unprepare
  split
  · exact h.refuse _
  split
  · exact h.refuse _
  split
  · exact h.refuse _
  split
  · exact failed l a _ _ (by decide)
  · refine h.steady ?_ ?_ _
    · exact ⟨rfl, rfl, rfl, rfl, rfl, fun _ => rfl, rfl, rfl, rfl⟩
    · simp

theorem Agrees.configure (h : Agrees a l) (config : Config) (checked : Result) (timeout : UInt32) (limit : UInt16)
    (radio : Radio) (now : Radio × Stamp) : Keeps l (configure a config checked timeout limit radio now) := by
  unfold MacAdapter.configure
  split
  · exact h.refuse _
  split
  · exact h.refuse _
  split
  · exact h.refuse _
  split
  · exact h.refuse _
  split
  · exact h.refuse _
  split
  · exact failed l a _ _ (by decide)
  · exact h.clock now

theorem Agrees.reopen (h : Agrees a l) (checked : Result) (timeout : UInt32) (limit : UInt16) (resume : Radio)
    (now : Radio × Stamp) : Keeps l (reopen a checked timeout limit resume now) := by
  unfold MacAdapter.reopen
  split
  · exact h.refuse _
  split
  · exact h.refuse _
  split
  · exact h.refuse _
  split
  · exact failed l a _ _ (by decide)
  simp only [MacAdapter.clock]
  split
  · exact ⟨⟨trivial, trivial⟩, .inl ⟨_, by decide, rfl⟩⟩
  · refine ⟨⟨trivial, trivial⟩, .inr ?_⟩
    have hfresh : Agrees { a with stopStarted := false, lossy := false } (l.add .opened) :=
      { h with first := rfl, lossy := rfl }
    refine hfresh.same ?_ ?_
    · exact ⟨rfl, rfl, rfl, rfl, rfl, fun _ => rfl, rfl, rfl, rfl⟩
    · simp

theorem Agrees.now (h : Agrees a l) (checked : Result) (timeout : UInt32) (limit : UInt16)
    (reply : Radio × Stamp) : Keeps l (now a checked timeout limit reply) := by
  unfold MacAdapter.now
  split
  · exact h.refuse _
  split
  · exact h.refuse _
  split
  · exact h.refuse _
  · exact h.clock reply

theorem init_keeps (config : Config) (checked : Result) (timeout : UInt32) (limit : UInt16) (started : Radio)
    (reply : Radio × Stamp) : Keeps Log.empty (init cold config checked timeout limit started reply) := by
  unfold init
  split
  · exact cold_agrees.refuse _
  split
  · exact cold_agrees.refuse _
  split
  · exact cold_agrees.refuse _
  split
  · exact cold_agrees.refuse _
  simp only
  split
  · exact failed _ _ _ _ (by decide)
  · refine Agrees.clock (cold_agrees.same ?_ ?_) reply
    · exact ⟨rfl, rfl, rfl, rfl, rfl, fun _ => rfl, rfl, rfl, rfl⟩
    · simp

theorem Agrees.answer (h : Agrees a l) (link : Bool) (c : Call) : Keeps l (answer link a c) := by
  cases c with
  | now checked timeout limit reply => exact h.now checked timeout limit reply
  | prepare address tx policy checked timeout limit slot =>
    exact h.prepare address tx policy checked timeout limit slot
  | unprepare address tx checked timeout limit stop => exact h.unprepare address tx checked timeout limit stop
  | accept address tx action checked => exact h.accept address tx action checked
  | close finish checked => exact h.close finish checked
  | step timeout limit x => exact h.step link timeout limit x
  | consume token => exact h.consume token
  | configure config checked timeout limit radio now => exact h.configure config checked timeout limit radio now
  | reopen checked timeout limit resume now => exact h.reopen checked timeout limit resume now

/-- A failed adapter answers every call with its failure. -/
theorem Failed.answer (h : Failed a) (link : Bool) (c : Call) :
    ∃ why, MacAdapter.answer link a c = MacAdapter.refuse a why := by
  obtain ⟨why, hwhy, hfault⟩ := h
  have hbounds : ∀ timeout limit, bounds a timeout limit = why := fun _ _ => by simp [bounds, hfault]
  refine ⟨why, ?_⟩
  cases c with
  | now checked timeout limit reply => simp [MacAdapter.answer, MacAdapter.now, hbounds, hwhy]
  | prepare address tx policy checked timeout limit slot => simp [MacAdapter.answer, MacAdapter.prepare, hbounds, hwhy]
  | unprepare address tx checked timeout limit stop =>
    simp [MacAdapter.answer, MacAdapter.unprepare, hbounds, hwhy]
  | accept address tx action checked => simp [MacAdapter.answer, MacAdapter.accept, hfault]
  | close finish checked => simp [MacAdapter.answer, MacAdapter.close, hfault]
  | step timeout limit x => simp [MacAdapter.answer, MacAdapter.step, hbounds, hwhy]
  | consume token => simp [MacAdapter.answer, MacAdapter.consume, hfault]
  | configure config checked timeout limit radio now =>
    simp [MacAdapter.answer, MacAdapter.configure, hbounds, hwhy]
  | reopen checked timeout limit resume now => simp [MacAdapter.answer, MacAdapter.reopen, hbounds, hwhy]

end Keeping

/-! ## Whole runs -/

/-- The effects of a run, in order. -/
def trace (link : Bool) (a : Adapter) (calls : List Call) : List Effect := (Runs.run (call link) a calls).1.flatten

/-- The effects so far are in order, and the log agrees unless the adapter failed. -/
structure Observes (effects : List (List Effect)) (a : Adapter) : Prop where
  disciplined : Disciplined Log.empty effects.flatten
  agrees : Failed a ∨ Agrees a (effects.flatten.foldl Log.add Log.empty)

theorem Observes.call {effects : List (List Effect)} {a : Adapter} (h : Observes effects a) (link : Bool) (c : Call) :
    Observes (effects ++ [(call link a c).1]) (call link a c).2 := by
  have hflat : (effects ++ [(MacAdapter.call link a c).1]).flatten = effects.flatten ++ (answer link a c).effects := by
    simp [MacAdapter.call]
  have hkeeps : Keeps (effects.flatten.foldl Log.add Log.empty) (answer link a c) := by
    rcases h.agrees with hfailed | hagrees
    · obtain ⟨why, hwhy⟩ := hfailed.answer link c
      rw [hwhy]
      exact ⟨trivial, .inl hfailed⟩
    · exact hagrees.answer link c
  refine ⟨?_, ?_⟩
  · rw [hflat]
    exact h.disciplined.append hkeeps.disciplined
  · rw [hflat, List.foldl_append]
    exact hkeeps.agrees

/-- What the adapter shows in a run from its start is in order: one observation
at a time, every frame once and under the next serial number, and a closing
event only when all frames are out, with the time of the first stop and the
losses of its closure. Unless it failed, at most the last frame is still held. -/
theorem observations_disciplined (link : Bool) (config : Config) (checked : Result) (timeout : UInt32) (limit : UInt16)
    (started : Radio) (reply : Radio × Stamp) (calls : List Call) :
    let a := (init cold config checked timeout limit started reply).adapter
    let after := (Runs.run (call link) a calls).2
    Disciplined Log.empty (trace link a calls) ∧
      (after.fault = none →
        ((trace link a calls).foldl Log.add Log.empty).taken =
          ((trace link a calls).foldl Log.add Log.empty).seen.map Prod.snd ++ after.waiting) := by
  have hinit := init_keeps config checked timeout limit started reply
  have heffects : (init cold config checked timeout limit started reply).effects = [] := by
    unfold init refuse
    simp only
    repeat' split
    all_goals rfl
  have hagrees := hinit.agrees
  rw [heffects] at hagrees
  have hrun := Runs.run_invariant (call link) Observes (init cold config checked timeout limit started reply).adapter []
    ⟨trivial, hagrees⟩ (fun _ _ c h => h.call link c) calls
  rw [List.nil_append] at hrun
  refine ⟨hrun.disciplined, fun hfault => ?_⟩
  rcases hrun.agrees with ⟨why, -, hwhy⟩ | hagrees
  · rw [hfault] at hwhy
    cases hwhy
  · exact hagrees.taken

end MacAdapter
