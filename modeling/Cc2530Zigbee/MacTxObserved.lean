import Cc2530Zigbee.MacTxAck
import Cc2530Zigbee.MacTxInterval
import Cc2530Zigbee.MacEpochRuns

/-!
# The observed step against the plain one

The observed step polls first and replays its report on what the poll left. In
every phase this is what the plain step does with the report of the captured
event, but for the time from which the next attempt may start.
-/
namespace MacTx

open MacEpoch (Stamp)

variable {link : Bool}

/-- The same identity and stamp with the kind of a captured event. -/
def IntervalEvent.captured (e : IntervalEvent) (kind : UInt8) : IntervalEvent :=
  { e with source := { e.source with kind := kind } }

/-- The end of a stop, with the last time the frame may have been on the air. -/
def retire (c : Tx) (finish : UInt32) : Tx :=
  let c := if c.uncertain then spacing c (finish + if c.ackRequested then ackSymbols else 0) else c
  if c.retryPending then
    { c with retryPending := false, retries := c.retries + 1, nb := 0, be := minBe, outcome := .none, phase := .draw }
  else { c with phase := .done }

theorem observedRetired_eq (c : Tx) (upper : Stamp) : observedRetired c upper = retire c (intervalCeil upper) := rfl

/-- A stop that is reported is a poll and its end. -/
theorem stepStopping_quiesced (c : Tx) (now stamp : UInt32) (h : c.phase = .stopping) :
    stepStopping c now (some (.quiesced stamp)) =
      if (stepStopping c now none).phase = .stopping then retire (stepStopping c now none) stamp
      else stepStopping c now none := by
  have hend : ended c (some (.quiesced stamp)) = ended c none := by simp [ended]
  unfold stepStopping
  simp only [hend, reduceCtorEq, Option.some.injEq, or_false]
  generalize hd : (if c.retryPending = true ∧ (reached now c.deadline = true ∨ c.steps = 0) then
    { c with retryPending := false, outcome := ended c none } else c) = d
  have hphase : d.phase = .stopping := by
    rw [← hd]
    split <;> exact h
  split
  · simp [fault]
  · simp only [hphase]
    rfl

/-- A busy channel that is reported is a poll and its deferral. -/
theorem stepActive_busy (c : Tx) (now stamp : UInt32) (h : c.phase = .radio) :
    stepActive link c now (some (.busy stamp)) =
      if (stepActive link c now none).1.phase = .radio then
        (if !reached stamp (c.attemptAt + busyAfter) then fault (stepActive link c now none).1 .adapterError
          else stepBusy (stepActive link c now none).1, .none)
      else stepActive link c now none := by
  have hend : ended c (some (.busy stamp)) = ended c none := by simp [ended]
  unfold stepActive
  simp only [h, hend, reduceCtorEq, if_false, Option.some.injEq, or_false]
  split
  · simp [stop, h]
  · simp only [stepWork, if_true]
    split <;> rfl

/-- What the interval step makes of a step of its engine. -/
def wrapped (tx : IntervalTx) (r : Result × Tx × Option Action) : Result × IntervalTx × Option IntervalAction :=
  (r.1, { tx with engine := r.2.1 }, r.2.2.map fun control => ⟨control, windowEnd tx.txUpper⟩)

theorem step_result (tx : Tx) (now : UInt32) (event : Option Event) :
    (step link tx now event).2.2.isSome = true → (step link tx now event).1 = .ok := by
  unfold step
  split
  · simp
  · split <;> simp

/-- Outside the wait, an event of an ordinary kind goes to the engine. -/
theorem intervalStep_plain (tx : IntervalTx) (now : UInt32) (e : IntervalEvent) (hp : tx.engine.phase ≠ .ackWait)
    (hw : e.wellFormed = true) (hk : e.source.kind < eventSentInterval) :
    intervalStep link tx now (some e) = wrapped tx (step link tx.engine now (some e.source)) := by
  have hne : e.source.kind ≠ eventSentInterval := UInt8.ne_of_lt hk
  have hplain : plainEvent (some e) = some e.source := by simp [plainEvent, hk]
  have hok := @step_result link tx.engine now (some e.source)
  simp only [intervalStep, Option.all_some, hw, Bool.true_eq_false, if_false, hp, ne_eq, not_false_eq_true, if_true,
    intervalWork, hplain]
  unfold wrapped
  cases hr : (step link tx.engine now (some e.source)).2.2 with
  | none => rfl
  | some control =>
    rw [hr] at hok
    simp [hne, hok]

theorem intervalStep_poll (tx : IntervalTx) (now : UInt32) (hp : tx.engine.phase ≠ .ackWait) :
    intervalStep link tx now none = wrapped tx (step link tx.engine now none) := by
  have hok := @step_result link tx.engine now none
  simp only [intervalStep, Option.all_none, Bool.true_eq_false, if_false, hp, ne_eq, not_false_eq_true, if_true,
    intervalWork, plainEvent]
  unfold wrapped
  cases hr : (step link tx.engine now none).2.2 with
  | none => rfl
  | some control =>
    rw [hr] at hok
    simp [hok]

/-- In the wait an event of the two captured kinds says nothing. -/
theorem intervalStep_wait (tx : IntervalTx) (now : UInt32) (e : IntervalEvent) (hp : tx.engine.phase = .ackWait)
    (hw : e.wellFormed = true) (hk : e.source.kind = 2 ∨ e.source.kind = 5) :
    intervalStep link tx now (some e) = intervalStep link tx now none := by
  have hack : e.isAck = false := by
    rcases hk with hk | hk <;> simp [IntervalEvent.isAck, hk, eventAckInterval]
  have hwait : intervalAckWait link tx now (some e) = intervalAckWait link tx now none := by
    unfold intervalAckWait
    simp only [intervalHeard]
    by_cases hc : e.source.current tx.engine now = true
    · rcases hk with hk | hk <;> simp [hc, hk, hack, eventRxClosed]
    · simp [hc]
  simp [intervalStep, hw, hp, hwait]

/-- A poll keeps the identity of the attempt. -/
theorem advance_identity (tx : Tx) (now : UInt32) (h : tx.phase ≠ .idle) :
    (advance link tx now none).1.generation = tx.generation ∧ (advance link tx now none).1.retries = tx.retries ∧
      (advance link tx now none).1.nb = tx.nb := by
  rcases @advance_cases link now tx h none with ⟨-, hr⟩ | ⟨-, hr⟩ | ⟨-, -, -, hm⟩
  · simp [hr]
  · simp [hr, fault]
  · have hheard : heard tx now none = none := rfl
    rw [hheard] at hm
    generalize (advance link tx now none).1 = after at hm ⊢
    generalize (advance link tx now none).2 = kind at hm
    cases hm with
    | retries _ _ _ hs | ends _ _ hs | starts _ _ hs | expires _ _ hs | defers _ _ hs | jams _ _ hs
      | sends _ _ hs | finishes _ _ hs | hears _ _ _ _ hs => cases hs
    | leaves _ => cases ha : (clocked tx now).ackRequested <;> exact ⟨rfl, rfl, rfl⟩
    | _ => exact ⟨rfl, rfl, rfl⟩

/-- The two observed kinds: the phase that waits for each, and its replay. -/
def Replays (e : IntervalEvent) (awaited : Phase) (replay : Tx → Tx) : Prop :=
  (e.source.kind = eventBusyInterval ∧ awaited = .radio ∧ replay = fun c => observedBusy c e.lower) ∨
  (e.source.kind = eventRetired ∧ awaited = .stopping ∧ replay = fun c => observedRetired c e.upper)

theorem observedStep_kinds (tx : IntervalTx) (now : UInt32) (e : IntervalEvent) (awaited : Phase)
    (replay : Tx → Tx) (ho : e.observable = true) (hk : Replays e awaited replay) :
    let poll := intervalStep link tx now none
    observedStep link tx now (some e) =
      if poll.1 ≠ .ok then poll
      else if e.source.generation ≠ poll.2.1.engine.generation ∨ e.source.retry ≠ poll.2.1.engine.retries ∨
          e.source.nb ≠ poll.2.1.engine.nb ∨ !reached e.source.stamp tx.engine.last ∨ !reached now e.source.stamp then
        poll
      else if tx.engine.phase ≠ awaited ∨ poll.2.1.engine.phase ≠ awaited then poll
      else
        (.ok, { poll.2.1 with engine := replay poll.2.1.engine },
          some (intervalPublish { poll.2.1 with engine := replay poll.2.1.engine } now .none)) := by
  intro poll
  rcases hk with ⟨hk, rfl, rfl⟩ | ⟨hk, rfl, rfl⟩
  · simp only [observedStep, hk, ho]
    rfl
  · simp only [observedStep, hk, ho]
    rfl

/-- The observed step, by what its poll leaves. -/
theorem observedStep_eq (tx : IntervalTx) (now : UInt32) (e : IntervalEvent) (awaited : Phase)
    (replay : Tx → Tx) (ho : e.observable = true) (hk : Replays e awaited replay) :
    observedStep link tx now (some e) =
      if e.source.current tx.engine now = true ∧ tx.engine.phase = awaited ∧
          (step link tx.engine now none).2.1.phase = awaited then
        (.ok, { tx with engine := replay (step link tx.engine now none).2.1 },
          some (intervalPublish { tx with engine := replay (step link tx.engine now none).2.1 } now .none))
      else intervalStep link tx now none := by
  have hawaited : awaited ≠ .ackWait ∧ awaited ≠ .idle := by
    rcases hk with ⟨-, rfl, -⟩ | ⟨-, rfl, -⟩ <;> decide
  have hcurrent : e.source.current tx.engine now = true ↔
      e.source.generation = tx.engine.generation ∧ e.source.retry = tx.engine.retries ∧
        e.source.nb = tx.engine.nb ∧ reached e.source.stamp tx.engine.last = true ∧ reached now e.source.stamp = true := by
    simp only [Event.current, reached, Bool.and_eq_true, beq_iff_eq, decide_eq_true_eq, and_assoc]
  rw [observedStep_kinds tx now e awaited replay ho hk]
  by_cases hp : tx.engine.phase = awaited
  case neg =>
    simp only [hp, false_and, and_false, if_false, ne_eq, not_false_eq_true, true_or, if_true, ite_self]
  -- In an awaited phase the poll is a step of the engine that keeps the identity.
  have hidle : tx.engine.phase ≠ .idle := hp ▸ hawaited.2
  have hpoll : step link tx.engine now none =
      (.ok, (advance link tx.engine now none).1,
        some (publish (advance link tx.engine now none).1 now (advance link tx.engine now none).2)) := by
    simp [step, hidle]
  obtain ⟨hg, hr, hn⟩ := @advance_identity link tx.engine now hidle
  rw [intervalStep_poll tx now (hp ▸ hawaited.1)]
  simp only [wrapped, hpoll, hg, hr, hn, hp, ne_eq, not_true_eq_false, if_false, true_and, false_or]
  by_cases hc : e.source.current tx.engine now = true
  · obtain ⟨h1, h2, h3, h4, h5⟩ := hcurrent.1 hc
    by_cases hq : (advance link tx.engine now none).1.phase = awaited
    · simp [h1, h2, h3, h4, h5, hc, hq]
    · simp [h1, h2, h3, h4, h5, hc, hq]
  · have hstale : ¬ e.source.generation = tx.engine.generation ∨ ¬ e.source.retry = tx.engine.retries ∨
        ¬ e.source.nb = tx.engine.nb ∨ (!reached e.source.stamp tx.engine.last) = true ∨
        (!reached now e.source.stamp) = true := by
      rw [hcurrent] at hc
      simp only [Bool.not_eq_true', ← Bool.not_eq_true]
      tauto
    simp only [if_pos hstale, hc, Bool.false_eq_true, false_and, if_false]

/-- An observed step against a plain step on the captured event: nothing differs,
or only what the replay of a retirement puts in for the captured end. -/
structure Agrees (observed plain : Result × IntervalTx × Option IntervalAction) (ready : UInt32 → Prop) : Prop where
  result : observed.1 = plain.1
  action : observed.2.2 = plain.2.2
  lower : observed.2.1.txLower = plain.2.1.txLower
  upper : observed.2.1.txUpper = plain.2.1.txUpper
  engine : observed.2.1.engine = plain.2.1.engine ∨
    ready observed.2.1.engine.readyAt ∧
      observed.2.1.engine = { plain.2.1.engine with readyAt := observed.2.1.engine.readyAt }

theorem Agrees.of_eq {observed plain : Result × IntervalTx × Option IntervalAction} (ready : UInt32 → Prop)
    (h : observed = plain) : Agrees observed plain ready := by
  subst h
  exact ⟨rfl, rfl, rfl, rfl, .inl rfl⟩

/-- The end of a stop but for the time of the next attempt. -/
theorem retire_ready (c : Tx) (finish other : UInt32) :
    retire c other = retire c finish ∨
      c.uncertain = true ∧
        (retire c other).readyAt = other + (if c.ackRequested then ackSymbols else 0) + ifs c.length ∧
        retire c other = { retire c finish with readyAt := (retire c other).readyAt } := by
  cases hu : c.uncertain with
  | false => exact .inl (by simp [retire, hu])
  | true =>
    refine .inr ⟨rfl, ?_, ?_⟩
    · cases hr : c.retryPending <;> simp [retire, hu, hr, spacing]
    · cases hr : c.retryPending <;> simp [retire, hu, hr, spacing]

/-- A captured event that no one waits for makes a plain step a poll. -/
theorem intervalStep_stray (tx : IntervalTx) (now : UInt32) (e : IntervalEvent) (kind : UInt8)
    (hk : kind = 2 ∨ kind = 5) (hp : awaited tx.engine.phase kind = false) :
    intervalStep link tx now (some (e.captured kind)) = intervalStep link tx now none := by
  have hw : (e.captured kind).wellFormed = true := by
    rcases hk with rfl | rfl <;>
      simp [IntervalEvent.wellFormed, IntervalEvent.captured, eventRxClosed, eventAckInterval, eventSentInterval]
  by_cases hwait : tx.engine.phase = .ackWait
  · exact intervalStep_wait tx now (e.captured kind) hwait hw hk
  · have hplain : (e.captured kind).source.wellFormed = true := by
      rcases hk with rfl | rfl <;> simp [Event.wellFormed, IntervalEvent.captured]
    have hlt : (e.captured kind).source.kind < eventSentInterval := by
      rcases hk with rfl | rfl <;> simp [IntervalEvent.captured, eventSentInterval]
    have hurgent : urgent kind = false := by
      rcases hk with rfl | rfl <;> rfl
    have hstray : Stray tx.engine now (e.captured kind).source := .inr (.inr (.inl ⟨hp, hurgent⟩))
    rw [intervalStep_poll tx now hwait, intervalStep_plain tx now (e.captured kind) hwait hw hlt,
      step_stray hplain hstray]

theorem advance_eq (tx : Tx) (now : UInt32) (event : Option Event) (h : tx.phase = .radio ∨ tx.phase = .stopping) :
    advance link tx now event =
      if half ≤ now - tx.last then (fault tx .clockError, .none)
      else stepActive link (clocked tx now) now (heard tx now event) := by
  unfold advance
  rw [if_neg (by rcases h with h | h <;> simp [h])]
  rfl

/-- A plain step of an awaiting phase is a step of its engine. -/
theorem intervalStep_advance (tx : IntervalTx) (now : UInt32) (e : IntervalEvent) (kind : UInt8)
    (hk : kind = 2 ∨ kind = 5) (h : tx.engine.phase = .radio ∨ tx.engine.phase = .stopping) :
    let a := advance link tx.engine now (some (e.captured kind).source)
    intervalStep link tx now (some (e.captured kind)) =
      (.ok, { tx with engine := a.1 }, some (intervalPublish { tx with engine := a.1 } now a.2)) := by
  have hw : (e.captured kind).wellFormed = true := by
    rcases hk with rfl | rfl <;>
      simp [IntervalEvent.wellFormed, IntervalEvent.captured, eventRxClosed, eventAckInterval, eventSentInterval]
  have hplain : (e.captured kind).source.wellFormed = true := by
    rcases hk with rfl | rfl <;> simp [Event.wellFormed, IntervalEvent.captured]
  have hlt : (e.captured kind).source.kind < eventSentInterval := by
    rcases hk with rfl | rfl <;> simp [IntervalEvent.captured, eventSentInterval]
  have hwait : tx.engine.phase ≠ .ackWait := by rcases h with h | h <;> simp [h]
  have hidle : tx.engine.phase ≠ .idle := by rcases h with h | h <;> simp [h]
  rw [intervalStep_plain tx now (e.captured kind) hwait hw hlt]
  simp [wrapped, step, hplain, hidle, intervalPublish]

theorem intervalStep_advance_poll (tx : IntervalTx) (now : UInt32)
    (h : tx.engine.phase = .radio ∨ tx.engine.phase = .stopping) :
    let a := advance link tx.engine now none
    step link tx.engine now none = (.ok, a.1, some (publish a.1 now a.2)) ∧
    intervalStep link tx now none =
      (.ok, { tx with engine := a.1 }, some (intervalPublish { tx with engine := a.1 } now a.2)) := by
  have hwait : tx.engine.phase ≠ .ackWait := by rcases h with h | h <;> simp [h]
  have hidle : tx.engine.phase ≠ .idle := by rcases h with h | h <;> simp [h]
  rw [intervalStep_poll tx now hwait]
  simp [wrapped, step, hidle, intervalPublish]

/-- A captured event that is stale, or comes with a clock error, changes nothing
of a poll. -/
theorem advance_stale (tx : Tx) (now : UInt32) (e : Event) (h : tx.phase = .radio ∨ tx.phase = .stopping)
    (hc : ¬ (now - tx.last < half ∧ e.current tx now = true)) :
    advance link tx now (some e) = advance link tx now none := by
  rw [advance_eq tx now _ h, advance_eq tx now _ h]
  split
  · rfl
  next hclock =>
    have hcur : ¬ e.current tx now = true := fun hcur => hc ⟨UInt32.not_le.1 hclock, hcur⟩
    simp [heard, hcur]

theorem advance_phase_fault (tx : Tx) (now : UInt32) (h : tx.phase = .radio ∨ tx.phase = .stopping)
    (hc : ¬ now - tx.last < half) : (advance link tx now none).1.phase = .fault := by
  rw [advance_eq tx now _ h, if_pos (UInt32.not_lt.1 hc)]
  rfl

/-- A poll of a stop that goes on keeps what the end of the stop depends on. -/
theorem stepStopping_poll (c : Tx) (now : UInt32) (h : (stepStopping c now none).phase = .stopping) :
    (stepStopping c now none).uncertain = c.uncertain ∧ (stepStopping c now none).ackRequested = c.ackRequested ∧
      (stepStopping c now none).length = c.length := by
  unfold stepStopping at *
  simp only at *
  generalize hd : (if c.retryPending = true ∧ (reached now c.deadline = true ∨ c.steps = 0 ∨ none = some Signal.cancel) then
    { c with retryPending := false, outcome := ended c none } else c) = d at *
  have hfields : d.uncertain = c.uncertain ∧ d.ackRequested = c.ackRequested ∧ d.length = c.length := by
    rw [← hd]
    split <;> exact ⟨rfl, rfl, rfl⟩
  split at h
  · cases h
  next hgoes =>
    rw [if_neg hgoes]
    exact hfields

theorem retired_agrees (tx : IntervalTx) (now : UInt32) (e : IntervalEvent) (hk : e.source.kind = eventRetired)
    (ho : e.observable = true) :
    Agrees (observedStep link tx now (some e)) (intervalStep link tx now (some (e.captured 5)))
      (fun ready => tx.engine.phase = .stopping ∧ tx.engine.uncertain = true ∧
        ready = intervalCeil e.upper + (if tx.engine.ackRequested then ackSymbols else 0) + ifs tx.engine.length) := by
  have hreplays : Replays e .stopping (fun c => observedRetired c e.upper) := .inr ⟨hk, rfl, rfl⟩
  rw [observedStep_eq tx now e .stopping _ ho hreplays]
  by_cases hp : tx.engine.phase = .stopping
  case neg =>
    have hawaited : awaited tx.engine.phase 5 = false := by
      cases h : tx.engine.phase <;> simp_all [awaited]
    rw [if_neg fun h => hp h.2.1, intervalStep_stray tx now e 5 (.inr rfl) hawaited]
    exact Agrees.of_eq _ rfl
  obtain ⟨hstep, hpoll⟩ := @intervalStep_advance_poll link tx now (.inr hp)
  rw [intervalStep_advance tx now e 5 (.inr rfl) (.inr hp), hpoll, hstep]
  simp only
  by_cases hc : now - tx.engine.last < half ∧ e.source.current tx.engine now = true
  case neg =>
    rw [advance_stale tx.engine now (e.captured 5).source (.inr hp) hc]
    apply Agrees.of_eq
    apply if_neg
    rintro ⟨hcur, -, hphase⟩
    have hclock : ¬ now - tx.engine.last < half := fun h => hc ⟨h, hcur⟩
    rw [advance_phase_fault tx.engine now (.inr hp) hclock] at hphase
    cases hphase
  have hclock : ¬ half ≤ now - tx.engine.last := UInt32.not_le.2 hc.1
  have hheard : heard tx.engine now (some (e.captured 5).source) = some (.quiesced e.source.stamp) := by
    have hcur : (e.captured 5).source.current tx.engine now = true := hc.2
    simp only [heard, hcur, if_true]
    rfl
  have hnone : advance link tx.engine now none = (stepStopping (clocked tx.engine now) now none, .none) := by
    rw [advance_eq tx.engine now _ (.inr hp), if_neg hclock]
    simp [stepActive, clocked, hp, heard]
  have hsome : advance link tx.engine now (some (e.captured 5).source) =
      (stepStopping (clocked tx.engine now) now (some (.quiesced e.source.stamp)), .none) := by
    rw [advance_eq tx.engine now _ (.inr hp), if_neg hclock, hheard]
    simp [stepActive, clocked, hp]
  rw [hnone, hsome, stepStopping_quiesced (clocked tx.engine now) now e.source.stamp hp]
  simp only [hc.2, hp, true_and]
  by_cases hstop : (stepStopping (clocked tx.engine now) now none).phase = .stopping
  · rw [if_pos hstop, if_pos hstop]
    obtain ⟨hu, ha, hl⟩ := stepStopping_poll (clocked tx.engine now) now hstop
    generalize stepStopping (clocked tx.engine now) now none = d at hu ha hl
    rw [observedRetired_eq]
    rcases retire_ready d e.source.stamp (intervalCeil e.upper) with hsame | ⟨huncertain, hready, hsame⟩
    · rw [hsame]
      exact Agrees.of_eq _ rfl
    · rw [ha, hl] at hready
      refine ⟨rfl, ?_, rfl, rfl, .inr ⟨⟨hu.symm.trans huncertain, hready⟩, hsame⟩⟩
      rw [hsame]
      rfl
  · rw [if_neg hstop, if_neg hstop]
    exact Agrees.of_eq _ rfl

/-- A poll of an attempt that goes on keeps its start. -/
theorem stepActive_poll (c : Tx) (now : UInt32) (hp : c.phase = .radio)
    (h : (stepActive link c now none).1.phase = .radio) :
    (stepActive link c now none).1.attemptAt = c.attemptAt := by
  unfold stepActive at *
  simp only [hp, reduceCtorEq, if_false, or_false] at h ⊢
  split at h
  · simp [stop, hp] at h
  next hgoes =>
    rw [if_neg hgoes]
    simp [stepWork]

theorem observedBusy_eq (c : Tx) (lower : Stamp) (h : intervalOrdered ⟨c.attemptAt + busyAfter, 0⟩ lower = true) :
    observedBusy c lower = stepBusy c := by
  simp [observedBusy, h, stepBusy]

/-- Where the lower bound is no earlier than the assessment, both replays defer. -/
theorem busy_agrees (tx : IntervalTx) (now : UInt32) (e : IntervalEvent) (hk : e.source.kind = eventBusyInterval)
    (ho : e.observable = true) (hlower : intervalOrdered ⟨tx.engine.attemptAt + busyAfter, 0⟩ e.lower = true)
    (hstamp : reached e.source.stamp (tx.engine.attemptAt + busyAfter) = true) :
    observedStep link tx now (some e) = intervalStep link tx now (some (e.captured 2)) := by
  have hreplays : Replays e .radio (fun c => observedBusy c e.lower) := .inl ⟨hk, rfl, rfl⟩
  rw [observedStep_eq tx now e .radio _ ho hreplays]
  by_cases hp : tx.engine.phase = .radio
  case neg =>
    have hawaited : awaited tx.engine.phase 2 = false := by
      cases h : tx.engine.phase <;> simp_all [awaited]
    rw [if_neg fun h => hp h.2.1, intervalStep_stray tx now e 2 (.inl rfl) hawaited]
  obtain ⟨hstep, hpoll⟩ := @intervalStep_advance_poll link tx now (.inl hp)
  rw [intervalStep_advance tx now e 2 (.inl rfl) (.inl hp), hpoll, hstep]
  simp only
  by_cases hc : now - tx.engine.last < half ∧ e.source.current tx.engine now = true
  case neg =>
    rw [advance_stale tx.engine now (e.captured 2).source (.inl hp) hc]
    apply if_neg
    rintro ⟨hcur, -, hphase⟩
    have hclock : ¬ now - tx.engine.last < half := fun h => hc ⟨h, hcur⟩
    rw [advance_phase_fault tx.engine now (.inl hp) hclock] at hphase
    cases hphase
  have hclock : ¬ half ≤ now - tx.engine.last := UInt32.not_le.2 hc.1
  have hheard : heard tx.engine now (some (e.captured 2).source) = some (.busy e.source.stamp) := by
    have hcur : (e.captured 2).source.current tx.engine now = true := hc.2
    simp only [heard, hcur, if_true]
    rfl
  have hsome := @advance_eq link tx.engine now (some (e.captured 2).source) (.inl hp)
  have hnone := @advance_eq link tx.engine now none (.inl hp)
  rw [if_neg hclock, hheard, stepActive_busy (clocked tx.engine now) now e.source.stamp hp] at hsome
  rw [if_neg hclock] at hnone
  have hat : (clocked tx.engine now).attemptAt = tx.engine.attemptAt := rfl
  rw [hat, hstamp] at hsome
  rw [hsome, hnone]
  have hpolled : heard tx.engine now none = none := rfl
  simp only [hc.2, hp, true_and, hpolled]
  by_cases hradio : (stepActive link (clocked tx.engine now) now none).1.phase = .radio
  · have hkeeps := stepActive_poll (clocked tx.engine now) now hp hradio
    rw [if_pos hradio, if_pos hradio, observedBusy_eq _ _ (by rw [hkeeps]; exact hlower)]
    simp
  · rw [if_neg hradio, if_neg hradio]

/-! ## True times -/

/-- A busy report as its contract has it: the start of the attempt, the bounds and
the report are coordinates of one epoch, in order and less than half the circle
apart, and the lower bound is no earlier than the assessment. -/
def Sighted (tx : IntervalTx) (e : IntervalEvent) : Prop :=
  ∃ (base : UInt32) (start lower upper report : Nat),
    tx.engine.attemptAt = base + UInt32.ofNat start ∧ e.lower = MacEpoch.coordinate base lower ∧
    e.upper = MacEpoch.coordinate base upper ∧ e.source.stamp = base + UInt32.ofNat report ∧
    (start + 8) * 512 ≤ lower ∧ lower ≤ upper ∧ upper ≤ report * 512 ∧ report - start < 2 ^ 31

theorem ofNat_sub_toNat (base : UInt32) (a b : Nat) (h : a ≤ b) (hlt : b - a < 2 ^ 32) :
    (base + UInt32.ofNat b - (base + UInt32.ofNat a)).toNat = b - a := by
  have hbase := base.toNat_lt
  simp only [UInt32.toNat_sub, UInt32.toNat_add, UInt32.toNat_ofNat']
  omega

theorem add_busyAfter (base : UInt32) (start : Nat) :
    base + UInt32.ofNat start + busyAfter = base + UInt32.ofNat (start + 8) := by
  rw [UInt32.add_assoc, UInt32.ofNat_add]
  rfl

theorem intervalOrdered_from (first last : Stamp) (h : last.symbols - first.symbols < half) (hf : first.fine = 0) :
    intervalOrdered first last = true := by
  unfold intervalOrdered
  simp only [hf]
  split
  · simp
  · simpa using h

theorem sighted_order {tx : IntervalTx} {e : IntervalEvent} (h : Sighted tx e) :
    intervalOrdered ⟨tx.engine.attemptAt + busyAfter, 0⟩ e.lower = true ∧
      reached e.source.stamp (tx.engine.attemptAt + busyAfter) = true := by
  obtain ⟨base, start, lower, upper, report, hat, hlower, -, hstamp, h1, h2, h3, h4⟩ := h
  have hreport := ofNat_sub_toNat base (start + 8) report (by omega) (by omega)
  have hwhole := ofNat_sub_toNat base (start + 8) (lower / 512) (by omega) (by omega)
  rw [hat, hlower, hstamp, add_busyAfter]
  refine ⟨?_, ?_⟩
  · apply intervalOrdered_from
    · rw [UInt32.lt_iff_toNat_lt]
      exact lt_of_eq_of_lt hwhole (by unfold half; simp only [UInt32.reduceToNat]; omega)
    · rfl
  · unfold reached half
    rw [decide_eq_true_eq, UInt32.lt_iff_toNat_lt, hreport]
    simp only [UInt32.reduceToNat]
    omega

/-- The rounded coordinate of a time is the next symbol boundary. -/
theorem intervalCeil_coordinate (base : UInt32) (t : Nat) :
    intervalCeil (MacEpoch.coordinate base t) = base + UInt32.ofNat ((t + 511) / 512) := by
  have hfine : (UInt16.ofNat (t % 512) ≠ 0) ↔ t % 512 ≠ 0 := by
    rw [ne_eq, ne_eq, ← UInt16.toNat_inj, UInt16.toNat_ofNat', UInt16.toNat_zero]
    omega
  unfold intervalCeil MacEpoch.coordinate
  simp only [hfine]
  by_cases hz : t % 512 = 0
  · have hsame : (t + 511) / 512 = t / 512 := by omega
    simp [hz, hsame]
  · have hnext : (t + 511) / 512 = t / 512 + 1 := by omega
    rw [if_pos hz, hnext, UInt32.ofNat_add, UInt32.add_assoc]
    rfl

/-- The wait behind a retirement, in symbols. -/
def settling (c : Tx) : Nat := (if c.ackRequested then 54 else 0) + if c.length ≤ 16 then 12 else 40

/-- A time of the next attempt taken from the upper bound of a retirement: the next
symbol boundary and the settling time, so never before the true retirement and
the settling time. -/
def ReadyAfter (c : Tx) (upper : Stamp) (ready : UInt32) : Prop :=
  ready = intervalCeil upper + (if c.ackRequested then ackSymbols else 0) + ifs c.length ∧
  ∀ base retired, upper = MacEpoch.coordinate base retired → ∃ at', ready = base + UInt32.ofNat at' ∧
    retired + settling c * 512 ≤ at' * 512 ∧ at' * 512 < retired + settling c * 512 + 512

theorem readyAfter_ceil (c : Tx) (upper : Stamp) (ready : UInt32)
    (h : ready = intervalCeil upper + (if c.ackRequested then ackSymbols else 0) + ifs c.length) :
    ReadyAfter c upper ready := by
  refine ⟨h, ?_⟩
  rintro base retired rfl
  refine ⟨(retired + 511) / 512 + settling c, ?_, by omega, by omega⟩
  rw [h, intervalCeil_coordinate, UInt32.ofNat_add, ← UInt32.add_assoc]
  unfold settling ifs
  by_cases ha : c.ackRequested = true <;> by_cases hl : c.length ≤ 16 <;> simp [ha, hl, ackSymbols, UInt32.add_assoc]

/-- In every state, with every report in bounds, the observed step is the plain
step on the captured event: with the same result, action and engine, but for the
time of the next attempt after an uncertain stop, which follows the upper bound of
the retirement. -/
theorem observed_agrees (link : Bool) (tx : IntervalTx) (now : UInt32) (e : IntervalEvent)
    (ho : e.observable = true) :
    (e.source.kind = eventRetired →
      Agrees (observedStep link tx now (some e)) (intervalStep link tx now (some (e.captured 5)))
        (fun ready => tx.engine.phase = .stopping ∧ tx.engine.uncertain = true ∧ ReadyAfter tx.engine e.upper ready)) ∧
    (e.source.kind = eventBusyInterval → Sighted tx e →
      observedStep link tx now (some e) = intervalStep link tx now (some (e.captured 2))) := by
  refine ⟨?_, ?_⟩
  · intro hk
    have h := @retired_agrees link tx now e hk ho
    refine ⟨h.result, h.action, h.lower, h.upper, ?_⟩
    rcases h.engine with hsame | ⟨⟨hp, hu, hready⟩, hsame⟩
    · exact .inl hsame
    · exact .inr ⟨⟨hp, hu, readyAfter_ceil tx.engine e.upper _ hready⟩, hsame⟩
  · intro hk hs
    obtain ⟨hlower, hstamp⟩ := sighted_order hs
    exact busy_agrees tx now e hk ho hlower hstamp

/-- An attempt that was given up, with the radio not yet at rest. -/
def givingUp : IntervalTx :=
  { engine := { init 7 0 with
      phase := .stopping, outcome := .lifetime, uncertain := true, generation := 1, length := 20, stopAt := 1000
      stopSteps := 9, deadline := 50, last := 100 }
    txLower := ⟨0, 0⟩, txUpper := ⟨0, 0⟩ }

/-- Its retirement, some time before the report. -/
def givingUpRetired : IntervalEvent :=
  { source :=
      { generation := 1, stamp := 130, bytes := none, length := 0, kind := eventRetired, retry := 0, nb := 0, value := 0 }
    lower := ⟨0, 0⟩, upper := ⟨120, 7⟩ }

theorem observed_agrees_retired :
    givingUpRetired.observable = true ∧
    (observedStep false givingUp 140 (some givingUpRetired)).2.2 =
      (intervalStep false givingUp 140 (some (givingUpRetired.captured 5))).2.2 ∧
    (observedStep false givingUp 140 (some givingUpRetired)).2.1.engine.readyAt = 161 := by
  have ho : givingUpRetired.observable = true := by decide
  exact ⟨ho, ((observed_agrees false givingUp 140 givingUpRetired ho).1 rfl).action, by decide⟩

end MacTx
