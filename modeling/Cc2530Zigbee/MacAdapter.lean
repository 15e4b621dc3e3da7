import Cc2530Zigbee.MacTxInterval
import Cc2530Zigbee.Runs

/-!
# The adapter between the transmitter and the radio

The adapter takes the actions of the transmitter, drives the radio, and hands
out one observation at a time, which stays until it is consumed. What the radio
and the clock answer is an input of each call.
-/
namespace MacAdapter

open Octets
open MacEpoch (Stamp)
open MacTx (IntervalTx IntervalAction reached half ackSymbols eventSentInterval eventAckInterval eventRxClosed
  eventBusyInterval eventRetired)

inductive Result where
  | ok | wait | event | expired | invalid | range | storage | state | radioError | protocolError | exhausted
  deriving DecidableEq, Repr

/-- `mac_radio_result_t`. -/
inductive Radio where
  | ready | frame | badCrc | empty | drain | stopped | txDone | ccaBusy | invalidArgument | invalidRange
  | bufferOwnership | state | clockError | timerError | epochError | driverError | rxLost
  deriving DecidableEq, Repr

inductive Phase where
  | cold | rx | off | prepared | scheduled | report | waitMac | collect | retiring | closing | draining | fault
  deriving DecidableEq, Repr

/-- What a closure is for. -/
inductive Goal where
  | none | user | busy | ackWindow | retire
  deriving DecidableEq, Repr

inductive Policy where
  | stopRx | keepRaw | keepAutoack
  deriving DecidableEq, Repr

inductive Kind where
  | tx | rx | closed
  deriving DecidableEq, Repr

/-- `radio_autoack_frame_t`. -/
structure Frame where
  length : UInt8
  rssiRaw : UInt8
  crcCorrelation : UInt8
  body : Bytes
  deriving DecidableEq

/-- `mac_attempt_record_t`, as far as the adapter reads it. -/
structure Record where
  txLower : Stamp
  txUpper : Stamp
  rxUpper : Stamp
  armed : Stamp
  frame : Frame
  transmitted : Bool
  received : Bool
  autoack : Bool
  deriving DecidableEq

/-- `mac_adapter_observation_t`, with the frame it points to. -/
structure Observation where
  kind : Kind
  normalRx : Bool
  lossy : Bool
  token : UInt32
  rxSerial : UInt32
  frame : Frame
  through : Stamp
  source : UInt8
  generation : UInt32
  retry : UInt8
  nb : UInt8
  stamp : UInt32
  lower : Stamp
  upper : Stamp
  deriving DecidableEq

/-- The adapter; `owner` is the transmitter it is bound to, by its address. -/
structure Adapter where
  live : Stamp
  watermark : Stamp
  generation : UInt32
  deliveries : UInt32
  frames : UInt32
  phase : Phase
  fault : Option Result
  ready : Bool
  held : Bool
  retry : UInt8
  nb : UInt8
  length : UInt8
  policy : Policy
  normalRx : Bool
  transmitted : Bool
  boundValid : Bool
  goal : Goal
  stopStarted : Bool
  waitThrough : Bool
  lossy : Bool
  settled : Bool
  began : Stamp
  through : Stamp
  retired : Stamp
  owner : Option Nat
  requested : IntervalAction
  receipt : Record
  observation : Observation

/-- What a call does that can be seen from outside. -/
inductive Effect where
  /-- The radio handed over a frame. -/
  | took (frame : Frame)
  /-- The radio reported a loss. -/
  | lost
  /-- The radio was told to stop, at a time just read. -/
  | stopped (time : Stamp)
  /-- A closure of its own begins. -/
  | closing
  | prepared
  | opened
  | published (observation : Observation)
  | consumed (token : UInt32)

/-- The result of a call, the adapter after it and what could be seen. -/
structure Answer where
  result : Result
  adapter : Adapter
  effects : List Effect

/-- An answer that shows nothing outside. -/
def refuse (a : Adapter) (result : Result) : Answer := ⟨result, a, []⟩

def ordered (a b : Stamp) : Bool :=
  if a.symbols = b.symbols then a.fine ≤ b.fine else b.symbols - a.symbols < half

/-- A point in time has passed, rounded up to a symbol. -/
def passed (a : Adapter) (point : Stamp) : Bool := reached a.live.symbols (MacTx.intervalCeil point)

/-- `TIMEBASE_HALF_RANGE`. -/
def timebaseHalf : UInt32 := 0x00800000

def bounds (a : Adapter) (timeout : UInt32) (limit : UInt16) : Result :=
  match a.fault with
  | some result => result
  | none => if timeout ≠ 0 ∧ timeout < timebaseHalf ∧ limit ≠ 0 then .ok else .invalid

def fail (a : Adapter) (result : Result) : Adapter := { a with phase := .fault, fault := some result }

/-- `clock`: the answer of the radio is a time, or the adapter fails. -/
def clock (a : Adapter) (now : Radio × Stamp) : Result × Adapter :=
  if now.1 ≠ .ready then (.radioError, fail a .radioError) else (.ok, { a with live := now.2 })

/-- The observation `publish` builds before its caller adds the bounds. -/
def observed (a : Adapter) (kind : Kind) (source : UInt8) : Observation where
  kind := kind
  normalRx := a.normalRx
  lossy := a.lossy
  token := a.deliveries + 1
  rxSerial := a.frames
  frame := a.receipt.frame
  through := a.watermark
  source := source
  generation := a.generation
  retry := a.retry
  nb := a.nb
  stamp := a.live.symbols
  lower := ⟨0, 0⟩
  upper := ⟨0, 0⟩

/-- `publish`, with the bounds its callers add. -/
def publish (a : Adapter) (kind : Kind) (source : UInt8) (lower upper : Stamp) : Answer :=
  if a.deliveries = 0xFFFFFFFF then refuse (fail a .exhausted) .exhausted
  else
    let o := { observed a kind source with lower := lower, upper := upper }
    ⟨.event, { a with observation := o, deliveries := a.deliveries + 1, ready := true }, [.published o]⟩

/-- `frame`: the held frame, once its time is not ahead of the clock. -/
def frame (a : Adapter) : Answer :=
  let a := if a.boundValid then a
    else { a with receipt := { a.receipt with rxUpper := a.live }, boundValid := true }
  if !passed a a.receipt.rxUpper then refuse a .wait
  else
    let f := a.receipt.frame
    let ack := a.phase = .collect ∧ f.crcCorrelation &&& 0x80 ≠ 0 ∧ f.length = 3 ∧
      byteAt f.body 0 &&& 7 = MacFrame.ack
    publish a .rx (if ack then eventAckInterval else 0) a.receipt.txLower a.receipt.rxUpper

/-! ## Setting up -/

structure Config where
  channel : UInt8
  power : UInt8

def Config.valid (c : Config) : Bool :=
  11 ≤ c.channel && c.channel ≤ 26 && (c.power == 0x05 || c.power == 0xD5 || c.power == 0xF5)

def zeroRecord : Record := ⟨⟨0, 0⟩, ⟨0, 0⟩, ⟨0, 0⟩, ⟨0, 0⟩, ⟨0, 0, 0, []⟩, false, false, false⟩

def zeroAction : IntervalAction := ⟨⟨0, 0, 0, .none, 0, 0, 0, false, .idle, .none, 0, false, false⟩, ⟨0, 0⟩⟩

def zeroObservation : Observation :=
  ⟨.tx, false, false, 0, 0, ⟨0, 0, 0, []⟩, ⟨0, 0⟩, 0, 0, 0, 0, 0, ⟨0, 0⟩, ⟨0, 0⟩⟩

/-- The adapter after a reset. -/
def cold : Adapter where
  live := ⟨0, 0⟩
  watermark := ⟨0, 0⟩
  generation := 0
  deliveries := 0
  frames := 0
  phase := .cold
  fault := none
  ready := false
  held := false
  retry := 0
  nb := 0
  length := 0
  policy := .stopRx
  normalRx := false
  transmitted := false
  boundValid := false
  goal := .none
  stopStarted := false
  waitThrough := false
  lossy := false
  settled := false
  began := ⟨0, 0⟩
  through := ⟨0, 0⟩
  retired := ⟨0, 0⟩
  owner := none
  requested := zeroAction
  receipt := zeroRecord
  observation := zeroObservation

/-- `mac_adapter_init`; `checked` is the answer of the check of the addresses. -/
def init (a : Adapter) (config : Config) (checked : Result) (timeout : UInt32) (limit : UInt16) (started : Radio)
    (now : Radio × Stamp) : Answer :=
  if bounds a timeout limit ≠ .ok then refuse a (bounds a timeout limit)
  else if a.phase ≠ .cold then refuse a .state
  else if checked ≠ .ok then refuse a checked
  else if !config.valid then refuse a .invalid
  else
    let a := { cold with began := a.began, through := a.through, retired := a.retired }
    if started ≠ .ready then refuse (fail a .radioError) .radioError
    else
      let r := clock { a with phase := .rx, normalRx := true } now
      refuse r.2 r.1

/-- `mac_adapter_now`. -/
def now (a : Adapter) (checked : Result) (timeout : UInt32) (limit : UInt16) (answer : Radio × Stamp) : Answer :=
  if bounds a timeout limit ≠ .ok then refuse a (bounds a timeout limit)
  else if a.phase = .cold then refuse a .state
  else if checked ≠ .ok then refuse a checked
  else
    let r := clock a answer
    refuse r.2 r.1

/-- `mac_adapter_prepare` of the transmitter at an address. -/
def prepare (a : Adapter) (address : Nat) (tx : IntervalTx) (policy : Policy) (checked : Result) (timeout : UInt32)
    (limit : UInt16) (slot : Radio) : Answer :=
  if bounds a timeout limit ≠ .ok then refuse a (bounds a timeout limit)
  else if checked ≠ .ok then refuse a checked
  else if a.phase ≠ .off ∨ a.ready ∨ a.held ∨ (a.owner.isSome ∧ a.owner ≠ some address) ∨
      tx.engine.phase ≠ .draw ∨ tx.engine.generation = 0 ∨ tx.engine.length = 0 ∨ 125 < tx.engine.length ∨
      (policy = .keepAutoack ∧ !tx.engine.ackRequested) then refuse a .state
  else match MacTx.copy tx.engine 125 with
    | .error _ => refuse (fail a .protocolError) .protocolError
    | .ok body =>
      let copied := { a.receipt.frame with body := body ++ a.receipt.frame.body.drop body.length }
      let a := { a with receipt := { a.receipt with frame := copied }, length := tx.engine.length }
      if slot ≠ .ready then refuse (fail a .radioError) .radioError
      else ⟨.ok, { a with
        owner := some address, generation := tx.engine.generation, retry := tx.engine.retries, nb := tx.engine.nb,
        policy := policy, normalRx := false, transmitted := false, stopStarted := false, waitThrough := false,
        lossy := false, goal := .none, settled := false, phase := .prepared }, [.prepared]⟩

/-- `mac_adapter_unprepare`. The slot was not used and no coverage is claimed, so
its stop is not the stop of a closure. -/
def unprepare (a : Adapter) (address : Nat) (tx : IntervalTx) (checked : Result) (timeout : UInt32) (limit : UInt16)
    (stop : Radio) : Answer :=
  if bounds a timeout limit ≠ .ok then refuse a (bounds a timeout limit)
  else if checked ≠ .ok then refuse a checked
  else if a.owner ≠ some address ∨ a.ready ∨ a.phase ≠ .prepared ∨ tx.engine.phase ≠ .done ∨
      tx.engine.generation ≠ a.generation then refuse a .state
  else if stop ≠ .stopped then refuse (fail a .radioError) .radioError
  else refuse { a with phase := .off } .ok

/-! ## Accepting and closing -/

/-- The action is the present one of the transmitter the adapter is bound to. -/
def current (a : Adapter) (address : Nat) (tx : IntervalTx) (action : IntervalAction) : Bool :=
  !a.ready && a.owner == some address && action.control.generation == a.generation &&
    action.control.retry == a.retry && action.control.nb == a.nb && tx.engine.generation == a.generation &&
    tx.engine.retries == a.retry && tx.engine.nb == a.nb && action.control.phase == tx.engine.phase &&
    action.control.outcome == tx.engine.outcome

/-- `mac_adapter_accept`. -/
def accept (a : Adapter) (address : Nat) (tx : IntervalTx) (action : IntervalAction) (checked : Result) : Answer :=
  match a.fault with
  | some result => refuse a result
  | none =>
    if checked ≠ .ok then refuse a checked
    else if !current a address tx action then refuse a .state
    else match action.control.kind with
      | .attempt =>
        if a.phase ≠ .prepared ∨ tx.engine.phase ≠ .radio ∨ action.control.start ≠ tx.engine.attemptAt ∨
            action.control.untilAt ≠ tx.engine.deadline ∨ action.control.length ≠ a.length ∨
            action.control.ackRequested ≠ tx.engine.ackRequested then refuse a .state
        else refuse { a with requested := action, phase := .scheduled } .ok
      | .collect =>
        if a.phase ≠ .waitMac ∨ !a.transmitted ∨ tx.engine.phase ≠ .ackWait ∨
            action.through ≠ MacTx.windowEnd a.receipt.txUpper then refuse a .state
        else refuse { a with through := action.through, phase := .collect } .ok
      | .quiesce =>
        if tx.engine.phase ≠ .stopping ∨ a.phase = .rx ∨ a.phase = .cold ∨ a.phase = .retiring ∨
            action.control.untilAt ≠ tx.engine.stopAt then refuse a .state
        else
          let a := { a with requested := action, goal := .retire, settled := false }
          refuse (if a.phase ≠ .draining ∧ a.phase ≠ .off then { a with phase := .retiring } else a) .ok
      | _ => refuse a .invalid

/-- `mac_adapter_close`, at once or at a time to come. -/
def close (a : Adapter) (finish : Option Stamp) (checked : Result) : Answer :=
  match a.fault with
  | some result => refuse a result
  | none =>
    if a.phase ≠ .rx ∨ a.ready then refuse a .state
    else match finish with
      | none => ⟨.ok, { a with
          waitThrough := false, stopStarted := false, settled := false, goal := .user, phase := .closing }, [.closing]⟩
      | some point =>
        if checked ≠ .ok then refuse a checked
        else if 512 ≤ point.fine ∨ !ordered a.live point then refuse a .invalid
        else ⟨.ok, { a with
          through := point, waitThrough := true, stopStarted := false, settled := false, goal := .user,
          phase := .closing }, [.closing]⟩

/-! ## One step -/

/-- What the lower layer answers during a step. -/
structure Answers where
  now : Radio × Stamp
  run : Radio × Record
  handoff : Radio
  stop : Radio
  receive : Radio × Frame

def stepScheduled (link : Bool) (a : Adapter) (x : Answers) : Answer :=
  if reached a.live.symbols a.requested.control.untilAt then refuse a .expired
  else if !reached a.live.symbols a.requested.control.start then refuse a .wait
  else
    let record := x.run.2
    let a := { a with began := a.live, receipt := record }
    if x.run.1 ≠ .frame ∧ x.run.1 ≠ .badCrc ∧ x.run.1 ≠ .empty ∧ x.run.1 ≠ .ccaBusy then
      refuse (fail a .radioError) .radioError
    else
      let a := { a with
        transmitted := record.transmitted, normalRx := if link then record.autoack else a.normalRx,
        held := record.received, boundValid := record.received,
        frames := if record.received then a.frames + 1 else a.frames }
      let took := if record.received then [Effect.took record.frame] else []
      if x.run.1 = .ccaBusy then
        ⟨.wait, { a with goal := .busy, stopStarted := false, waitThrough := false, phase := .closing },
          took ++ [.closing]⟩
      else ⟨.wait, { a with phase := .report }, took⟩

def stepReport (a : Adapter) : Answer :=
  if !a.transmitted then refuse (fail a .protocolError) .protocolError
  else if !passed a a.receipt.txUpper then refuse a .wait
  else publish a .tx eventSentInterval a.receipt.txLower a.receipt.txUpper

/-- The time from which a closure counts as settled. -/
def settle (a : Adapter) : Adapter := if a.settled then a else { a with retired := a.live, settled := true }

/-- The end of a transaction that leaves the receiver on. -/
def stepRetired (a : Adapter) : Answer :=
  let a := settle a
  if !passed a a.retired then refuse a .wait
  else publish a .tx eventRetired ⟨0, 0⟩ a.retired

def stepStop (a : Adapter) (x : Answers) : Answer :=
  let a := { a with watermark := if a.stopStarted then a.watermark else a.live, stopStarted := true }
  if x.stop = .stopped then ⟨.wait, { a with phase := .off, settled := false }, [.stopped a.live]⟩
  else if x.stop = .drain then ⟨.wait, { a with phase := .draining }, [.stopped a.live]⟩
  else ⟨.radioError, fail a .radioError, [.stopped a.live]⟩

/-- The end of a closure. -/
def stepOff (a : Adapter) : Answer :=
  if a.goal = .none then refuse a .wait
  else
    let a := settle a
    if !passed a a.retired then refuse a .wait
    else match a.goal with
      | .busy => publish a .tx eventBusyInterval { a.began with symbols := a.began.symbols + 8 } a.receipt.armed
      | .ackWindow => publish a .tx eventRxClosed ⟨0, 0⟩ a.watermark
      | .retire => publish a .tx eventRetired ⟨0, 0⟩ a.retired
      | _ => publish a .closed 0 ⟨0, 0⟩ a.retired

/-- A loss that the adapter cannot answer for. -/
def fatalLoss (link : Bool) (a : Adapter) : Bool :=
  if link then
    (!a.normalRx && a.goal != .none && a.goal != .user) || (a.phase == .collect && !a.normalRx) ||
      (a.phase != .rx && a.phase != .collect && a.phase != .closing && a.phase != .draining)
  else
    a.normalRx || (a.goal != .none && a.goal != .user) ||
      (a.phase != .rx && a.phase != .closing && a.phase != .draining)

/-- After the last frame of a drain the radio is told to stop again. -/
def drained (a : Adapter) : Adapter :=
  if a.phase = .draining then { a with phase := .closing, waitThrough := false } else a

def stepReceive (link : Bool) (a : Adapter) (x : Answers) : Answer :=
  if x.receive.1 = .frame ∨ x.receive.1 = .badCrc then
    ⟨.wait, { a with
      receipt := { a.receipt with frame := x.receive.2 }, held := true, boundValid := false, frames := a.frames + 1 },
      [.took x.receive.2]⟩
  else if x.receive.1 = .rxLost then
    if fatalLoss link a then ⟨.radioError, fail a .radioError, [.lost]⟩
    else ⟨.wait, drained { a with lossy := true }, [.lost]⟩
  else if x.receive.1 ≠ .empty then refuse (fail a .radioError) .radioError
  else refuse (drained a) .wait

/-- The window for the acknowledgment has passed. -/
def endWindow (a : Adapter) : Adapter :=
  if a.phase = .collect ∧ ordered a.through a.live then
    { a with goal := .ackWindow, phase := .closing, waitThrough := false }
  else a

def stepOpen (link : Bool) (a : Adapter) (x : Answers) : Answer :=
  if a.phase = .rx ∧ a.goal = .retire then stepRetired a
  else
    let a := endWindow a
    if a.phase = .closing ∧ (!a.waitThrough ∨ ordered a.through a.live) then stepStop a x
    else if a.phase = .off then stepOff a
    else stepReceive link a x

/-- The receiver stays on after an acknowledged transaction. -/
def stepHandoff (link : Bool) (a : Adapter) (x : Answers) : Answer :=
  if !(link && a.normalRx) ∧ x.handoff ≠ .ready then refuse (fail a .radioError) .radioError
  else refuse { a with normalRx := true, phase := .rx, goal := .retire, settled := false } .wait

/-- Without a held frame. -/
def stepFree (link : Bool) (a : Adapter) (x : Answers) : Answer :=
  if a.phase = .retiring ∧ !a.stopStarted then
    if a.requested.control.outcome = .acked ∧ a.policy = .keepAutoack then stepHandoff link a x
    else if a.transmitted ∧ a.policy = .keepRaw ∧ a.requested.control.outcome = .unacknowledged then
      refuse { a with phase := .rx, goal := .retire, settled := false } .wait
    else stepOpen link { a with phase := .closing, waitThrough := false } x
  else stepOpen link a x

/-- The step after the clock was read. -/
def work (link : Bool) (a : Adapter) (x : Answers) : Answer :=
  match a.phase with
  | .scheduled => stepScheduled link a x
  | .report => stepReport a
  | .waitMac | .prepared => refuse a .wait
  | _ => if a.held then frame a else stepFree link a x

/-- `mac_adapter_step`. -/
def step (link : Bool) (a : Adapter) (timeout : UInt32) (limit : UInt16) (x : Answers) : Answer :=
  if bounds a timeout limit ≠ .ok then refuse a (bounds a timeout limit)
  else if a.phase = .cold then refuse a .state
  else if a.ready then refuse a .event
  else if a.deliveries = 0xFFFFFFFF ∨ a.frames = 0xFFFFFFFF then refuse (fail a .exhausted) .exhausted
  else
    let r := clock a x.now
    if r.1 ≠ .ok then refuse r.2 r.1 else work link r.2 x

/-- An event that ends a closure or a transaction. -/
def Observation.closes (o : Observation) : Bool :=
  o.kind == .closed || (o.kind == .tx && o.source != eventSentInterval)

/-- `mac_adapter_consume`. -/
def consume (a : Adapter) (token : UInt32) : Answer :=
  match a.fault with
  | some result => refuse a result
  | none =>
    if !a.ready ∨ token ≠ a.observation.token then refuse a .state
    else ⟨.ok, { a with
      ready := false
      held := a.held && a.observation.kind != .rx
      phase := if a.observation.source = eventSentInterval then .waitMac else a.phase
      goal := if a.observation.closes then .none else a.goal }, [.consumed token]⟩

/-! ## Changing the channel -/

def idleOff (a : Adapter) (timeout : UInt32) (limit : UInt16) : Result :=
  if bounds a timeout limit ≠ .ok then bounds a timeout limit
  else if a.phase ≠ .off ∨ a.ready ∨ a.held ∨ a.goal ≠ .none then .state
  else .ok

/-- `mac_adapter_configure`. -/
def configure (a : Adapter) (config : Config) (checked : Result) (timeout : UInt32) (limit : UInt16) (radio : Radio)
    (now : Radio × Stamp) : Answer :=
  if bounds a timeout limit ≠ .ok then refuse a (bounds a timeout limit)
  else if checked ≠ .ok then refuse a checked
  else if idleOff a timeout limit ≠ .ok then refuse a (idleOff a timeout limit)
  else if !config.valid then refuse a .invalid
  else if radio = .invalidArgument then refuse a .invalid
  else if radio ≠ .ready then refuse (fail a .radioError) .radioError
  else
    let r := clock a now
    refuse r.2 r.1

/-- `mac_adapter_open`. -/
def reopen (a : Adapter) (checked : Result) (timeout : UInt32) (limit : UInt16) (resume : Radio)
    (now : Radio × Stamp) : Answer :=
  if bounds a timeout limit ≠ .ok then refuse a (bounds a timeout limit)
  else if checked ≠ .ok then refuse a checked
  else if idleOff a timeout limit ≠ .ok then refuse a (idleOff a timeout limit)
  else if resume ≠ .ready then refuse (fail a .radioError) .radioError
  else
    let r := clock { a with
      phase := .rx, normalRx := true, stopStarted := false, waitThrough := false, lossy := false, settled := false } now
    ⟨r.1, r.2, [.opened]⟩

end MacAdapter
