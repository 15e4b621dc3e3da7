import Cc2530Zigbee.MacTxMoves
import Cc2530Zigbee.MacEpoch

/-!
# The transmitter with time intervals

Where the end of a frame is known only up to an interval, the wait for the
acknowledgment compares intervals. Everything else is the ordinary engine. The
observed step takes two more reports and replays them after a poll.
-/
namespace MacTx

open Octets
open MacEpoch (Stamp)

/-- The engine and the interval in which its frame ended. -/
structure IntervalTx where
  engine : Tx
  txLower : Stamp
  txUpper : Stamp
  deriving DecidableEq

structure IntervalEvent where
  source : Event
  lower : Stamp
  upper : Stamp

structure IntervalAction where
  control : Action
  through : Stamp
  deriving DecidableEq

def eventSentInterval : UInt8 := 8
def eventAckInterval : UInt8 := 9
def eventRxClosed : UInt8 := 10
def eventBusyInterval : UInt8 := 11
def eventRetired : UInt8 := 12

def intervalOrdered (first last : Stamp) : Bool :=
  let symbols := last.symbols - first.symbols
  if symbols = 0 then first.fine ≤ last.fine else symbols < half

def intervalCeil (point : Stamp) : UInt32 := point.symbols + if point.fine ≠ 0 then 1 else 0

/-- The end of the acknowledgment window that opens at a point. -/
def windowEnd (point : Stamp) : Stamp := { point with symbols := point.symbols + ackSymbols }

def intervalStop (link : Bool) (c : Tx) (now : UInt32) (outcome : Outcome) : Tx × ActionKind :=
  ({ c with outcome := outcome, phase := .stopping, stopAt := now + stopSymbols link, stopSteps := stopSteps link },
    .quiesce)

def intervalNoAck (link : Bool) (c : Tx) (now : UInt32) (txUpper : Stamp) : Tx × ActionKind :=
  let c := spacing c (intervalCeil txUpper + ackSymbols)
  intervalStop link { c with retryPending := c.retries < maxRetries } now .noAck

def intervalPublish (tx : IntervalTx) (now : UInt32) (kind : ActionKind) : IntervalAction :=
  { control := publish tx.engine now kind, through := windowEnd tx.txUpper }

/-- `mac_tx_interval_init`. -/
def intervalInit (dsn : UInt8) (now : UInt32) : IntervalTx := ⟨init dsn now, ⟨0, 0⟩, ⟨0, 0⟩⟩

/-- `mac_tx_interval_submit`. -/
def intervalSubmit (tx : IntervalTx) (body : Bytes) (now lifetime : UInt32) (work : UInt16) : Result × IntervalTx :=
  let r := submit tx.engine body now lifetime work
  if r.1 = .ok then (.ok, ⟨r.2, ⟨0, 0⟩, ⟨0, 0⟩⟩) else (r.1, { tx with engine := r.2 })

/-- `mac_tx_interval_release`. -/
def intervalRelease (tx : IntervalTx) : Result × IntervalTx :=
  let r := release tx.engine
  (r.1, { tx with engine := r.2 })

/-- The upper bound is a point in time no later than the report. -/
def IntervalEvent.bounded (e : IntervalEvent) : Bool :=
  e.upper.fine < 512 && reached e.source.stamp (intervalCeil e.upper)

/-- The lower bound is a point in time no later than the upper one. -/
def IntervalEvent.ordered (e : IntervalEvent) : Bool := e.lower.fine < 512 && intervalOrdered e.lower e.upper

/-- The exact reports are refused; the interval reports need bounds in order. -/
def IntervalEvent.wellFormed (e : IntervalEvent) : Bool :=
  let kind := e.source.kind
  1 ≤ kind && kind ≤ eventRxClosed && kind != 3 && kind != 4 &&
    !(kind == eventAckInterval && e.source.length != 0 && e.source.bytes.isNone) &&
    (kind < eventSentInterval || (e.bounded && (kind == eventRxClosed || e.ordered)))

/-- The report of the end of the frame. -/
def stepSentInterval (link : Bool) (tx : IntervalTx) (now : UInt32) (e : IntervalEvent) : IntervalTx × ActionKind :=
  let c := tx.engine
  if !intervalOrdered ⟨c.attemptAt + sentAfter c.length, 0⟩ e.lower then
    ({ tx with engine := fault c .adapterError }, .none)
  else
    let c := { c with transmissions := c.transmissions + 1, phase := .ackWait }
    let r := if c.ackRequested then (c, .collect)
      else intervalStop link (spacing c (intervalCeil e.upper)) now .unacknowledged
    (⟨r.1, e.lower, e.upper⟩, r.2)

/-- The event an ordinary engine understands. -/
def plainEvent (event : Option IntervalEvent) : Option Event :=
  match event with
  | some e => if e.source.kind < eventSentInterval then some e.source else none
  | none => none

/-- The ordinary phases. -/
def intervalWork (link : Bool) (tx : IntervalTx) (now : UInt32) (event : Option IntervalEvent) :
    Result × IntervalTx × Option IntervalAction :=
  let r := step link tx.engine now (plainEvent event)
  match r.2.2 with
  | none => (r.1, { tx with engine := r.2.1 }, none)
  | some control =>
    let after := { tx with engine := r.2.1 }
    let poll := (.ok, after, some ⟨control, windowEnd tx.txUpper⟩)
    match event with
    | none => poll
    | some e =>
      if after.engine.phase ≠ .radio ∨ e.source.kind ≠ eventSentInterval ∨
          e.source.generation ≠ after.engine.generation ∨ e.source.retry ≠ after.engine.retries ∨
          e.source.nb ≠ after.engine.nb ∨ !reached e.source.stamp tx.engine.last ∨ !reached now e.source.stamp then
        poll
      else
        let s := stepSentInterval link after now e
        (.ok, s.1, some (intervalPublish s.1 now s.2))

/-- An acknowledgment with an interval, against the interval of the frame. -/
def stepAckInterval (link : Bool) (tx : IntervalTx) (c : Tx) (now : UInt32) (e : IntervalEvent) : Tx × ActionKind :=
  let bytes := e.source.bytes.getD []
  if !intervalOrdered tx.txLower e.lower ∨ intervalOrdered e.upper tx.txLower then (fault c .adapterError, .none)
  else match MacFrame.decode [byteAt bytes 0 &&& (MacFrame.pending ||| 7), 0, byteAt bytes 2] with
    | .error _ => (c, .none)
    | .ok info =>
      if intervalOrdered e.upper (windowEnd tx.txLower) then
        if info.header.sequence = getElem c.frame 2 sequence_lt then
          intervalStop link
            (spacing { c with pending := MacFrame.has info.header.flags MacFrame.pending } (intervalCeil e.upper))
            now .acked
        else intervalNoAck link c now tx.txUpper
      else if intervalOrdered e.lower (windowEnd tx.txUpper) then
        intervalStop link (spacing c (intervalCeil tx.txUpper + ackSymbols)) now .timingUncertain
      else (c, .none)

/-- The receiver has closed; all frames through the upper bound were reported. -/
def stepRxClosed (link : Bool) (tx : IntervalTx) (c : Tx) (now : UInt32) (e : IntervalEvent) : Tx × ActionKind :=
  if !intervalOrdered (windowEnd tx.txUpper) e.upper then (fault c .adapterError, .none)
  else intervalNoAck link c now tx.txUpper

/-- The event that counts in the wait for the acknowledgment. -/
def intervalHeard (c : Tx) (now : UInt32) (event : Option IntervalEvent) : Option IntervalEvent :=
  match event with
  | none => none
  | some e => if e.source.current c now then some e else none

/-- A frame of three octets and the type of an acknowledgment. -/
def IntervalEvent.isAck (e : IntervalEvent) : Bool :=
  e.source.kind == eventAckInterval && e.source.length == 3 && byteAt (e.source.bytes.getD []) 0 &&& 7 == MacFrame.ack

/-- The wait for the acknowledgment. -/
def intervalAckWait (link : Bool) (tx : IntervalTx) (now : UInt32) (event : Option IntervalEvent) : Tx × ActionKind :=
  let c := tx.engine
  if half ≤ now - c.last then (fault c .clockError, .none)
  else
    let heard := intervalHeard c now event
    let kind := (heard.map fun e => e.source.kind).getD 0
    let c := { c with readyAt := readyFrom c now, last := now }
    if kind = 6 then (fault c .adapterError, .none)
    else if reached now c.deadline ∨ c.steps = 0 ∨ kind = 7 then
      intervalStop link (spacing c (intervalCeil tx.txUpper + ackSymbols)) now
        (if kind = 7 then .cancelled else if c.steps = 0 then .workLimit else .lifetime)
    else
      let c := { c with steps := c.steps - 1 }
      match heard with
      | none => (c, .none)
      | some e =>
        if e.isAck then stepAckInterval link tx c now e
        else if e.source.kind = eventRxClosed then stepRxClosed link tx c now e
        else (c, .none)

/-- `mac_tx_interval_step`. -/
def intervalStep (link : Bool) (tx : IntervalTx) (now : UInt32) (event : Option IntervalEvent) :
    Result × IntervalTx × Option IntervalAction :=
  if event.all IntervalEvent.wellFormed = false then (.invalid, tx, none)
  else if tx.engine.phase ≠ .ackWait then intervalWork link tx now event
  else
    let r := intervalAckWait link tx now event
    let after := { tx with engine := r.1 }
    (.ok, after, some (intervalPublish after now r.2))

/-- A report of the observed kinds with bounds in order. -/
def IntervalEvent.observable (e : IntervalEvent) : Bool :=
  e.bounded && (e.source.kind != eventBusyInterval || e.ordered)

/-- The replay of a busy channel. -/
def observedBusy (c : Tx) (lower : Stamp) : Tx :=
  if !intervalOrdered ⟨c.attemptAt + busyAfter, 0⟩ lower then fault c .adapterError
  else
    let c := { c with nb := c.nb + 1, be := if c.be < maxBe then c.be + 1 else c.be }
    if maxBackoffs < c.nb then { c with phase := .done, outcome := .channelAccess } else { c with phase := .draw }

/-- The replay of a retirement. -/
def observedRetired (c : Tx) (upper : Stamp) : Tx :=
  let c := if c.uncertain then spacing c (intervalCeil upper + if c.ackRequested then ackSymbols else 0) else c
  if c.retryPending then
    { c with retryPending := false, retries := c.retries + 1, nb := 0, be := minBe, outcome := .none, phase := .draw }
  else { c with phase := .done }

/-- `mac_tx_observed_step`. -/
def observedStep (link : Bool) (tx : IntervalTx) (now : UInt32) (event : Option IntervalEvent) :
    Result × IntervalTx × Option IntervalAction :=
  match event with
  | none => intervalStep link tx now none
  | some e =>
    let busy := e.source.kind = eventBusyInterval
    if ¬ busy ∧ e.source.kind ≠ eventRetired then intervalStep link tx now (some e)
    else if !e.observable then (.invalid, tx, none)
    else
      let poll := intervalStep link tx now none
      let after := poll.2.1
      let awaited := if busy then Phase.radio else Phase.stopping
      if poll.1 ≠ .ok then poll
      else if e.source.generation ≠ after.engine.generation ∨ e.source.retry ≠ after.engine.retries ∨
          e.source.nb ≠ after.engine.nb ∨ !reached e.source.stamp tx.engine.last ∨ !reached now e.source.stamp then
        poll
      else if tx.engine.phase ≠ awaited ∨ after.engine.phase ≠ awaited then poll
      else
        let c := if busy then observedBusy after.engine e.lower else observedRetired after.engine e.upper
        let done := { after with engine := c }
        (.ok, done, some (intervalPublish done now .none))

end MacTx
