import Cc2530Zigbee.NwkApsLayer

/-!
# The NWK and APS transport: sending

A step hands the transmitter the acknowledgment, then the request in the slot,
then the poll, and drives what it handed over until the transmitter is done.
-/
namespace NwkAps

open Octets
open EdWire (Packet at0)
open MacTx (IntervalTx IntervalEvent reached)

/-! ## Building a frame -/

/-- The packet to send with this device's address and the next sequence number. -/
def outbound (l : Layer) (acknowledgment : Bool) (s : SecurityKeys.Status) : Packet :=
  let p := if acknowledgment then l.acknowledgment else l.outgoing
  let nwk := p.nwk
  let flags := nwk.flags &&& ~~~ NwkFrame.endDeviceInitiator
  { p with nwk := { nwk with
      source := s.config.address
      sequence := l.nextNwk
      discoverRoute := if nwk.type = 0 ∧ l.special = 0 ∧ !isBroadcast nwk.destination then 1 else nwk.discoverRoute
      flags := if l.parentInformation ≠ 0 then flags ||| NwkFrame.endDeviceInitiator else flags } }

/-- The packet is kept as it is sent, and its sequence number is used up. -/
def numbered (l : Layer) (acknowledgment : Bool) (p : Packet) : Layer :=
  if acknowledgment then { l with acknowledgment := p, nextNwk := l.nextNwk + 1 }
  else { l with outgoing := p, nextNwk := l.nextNwk + 1 }

/-- What the key owner makes of the packet. -/
def secured (l : Layer) (acknowledgment : Bool) (p : Packet) (k : Keys) : Except SecurityKeys.Result Bytes :=
  if !acknowledgment ∧ l.special ≠ 0 then
    if l.special = 3 then k.leave p.nwk.sequence
    else if l.special = 1 then k.request p.nwk.sequence p.aps.counter
    else k.verify p.nwk.sequence p.aps.counter
  else k.send p (if acknowledgment then l.replySecure else l.secure)

/-- The frame is a broadcast of this device. -/
def ownBroadcast (l : Layer) (acknowledgment : Bool) (p : Packet) : Bool :=
  !acknowledgment && (l.special == 3 || (l.special == 0 && isBroadcast p.nwk.destination))

/-- A broadcast of this device is recorded like a received one. -/
def recordOwn (l : Layer) (acknowledgment : Bool) (p : Packet) (s : SecurityKeys.Status) (now : UInt32) :
    Except Result Layer :=
  if ownBroadcast l acknowledgment p then
    match broadcastSlot l.broadcast s.config.address p.nwk.sequence now with
    | .error .duplicate => .error .exhausted
    | .error e => .error e
    | .ok slot => .ok (broadcastPut l slot s.config.address p.nwk.sequence now)
  else .ok l

def shortAddress (a : UInt16) : MacFrame.Address :=
  #v[a.toUInt8, (a >>> 8).toUInt8, 0, 0, 0, 0, 0, 0]

/-- The header of a data frame to the parent. -/
def macHeader (build : Build) (l : Layer) (acknowledgment : Bool) (p : Packet) (s : SecurityKeys.Status) :
    MacFrame.Header where
  type := MacFrame.data
  version := 0
  flags :=
    -- A broadcast goes to the parent without an acknowledgment of the MAC.
    if acknowledgment ∨ (l.special ≠ 3 ∧ (l.special ≠ 0 ∨ !isBroadcast p.nwk.destination)) then
      MacFrame.panCompression ||| MacFrame.ackRequest
    else MacFrame.panCompression
  sequence := 0
  destinationMode := MacFrame.addressShort
  sourceMode := MacFrame.addressShort
  destinationPan := s.config.pan
  sourcePan := s.config.pan
  destination := shortAddress (if l.special = 0 ∧ p.nwk.type ≠ 0 ∧ getElem p.payload 0 at0 = 6 then rejoinAddress build s
    else parentAddress build s)
  source := shortAddress s.config.address

/-- `nwk_aps_poll_header`. -/
def pollHeader (build : Build) (rejoin : Bool) (s : SecurityKeys.Status) : MacFrame.Header where
  type := MacFrame.command
  version := 0
  flags := MacFrame.panCompression ||| MacFrame.ackRequest
  sequence := 0
  destinationMode := MacFrame.addressShort
  sourceMode := MacFrame.addressShort
  destinationPan := s.config.pan
  sourcePan := s.config.pan
  destination := shortAddress (if rejoin then rejoinAddress build s else parentAddress build s)
  source := shortAddress s.config.address

/-- `MAC_PREFIX`. -/
def macPrefix : Nat := 9

/-- `NWK_APS_SUBMIT`: the interval transmitter in a build with the link. -/
def submit (link : Bool) (owner : IntervalTx) (body : Bytes) (now : UInt32) : MacTx.Result × IntervalTx :=
  if link then MacTx.intervalSubmit owner body now txLifetime txWork
  else
    let r := MacTx.submit owner.engine body now txLifetime txWork
    (r.1, { owner with engine := r.2 })

/-- The transmitter has taken the frame. -/
def taken (l : Layer) (acknowledgment : Bool) : Layer :=
  { l with
    active := true, activeAck := acknowledgment, activePoll := false
    sent := if acknowledgment then l.sent else false }

/-- The MAC frame around a protected NPDU, from the buffer of the layer. -/
def transmitFrame (link : Bool) (build : Build) (l : Layer) (acknowledgment : Bool) (p : Packet)
    (s : SecurityKeys.Status) (npdu : Bytes) (now : UInt32) : Result × Layer :=
  if npdu.length = 0 ∨ NwkFrame.maxBody < npdu.length then (.wire, l)
  else match MacFrame.encode (macHeader build l acknowledgment p s) [] macPrefix with
    | .error _ => (.wire, l)
    | .ok front =>
      let l := { l with macLength := UInt8.ofNat front.length }
      if front.length ≠ macPrefix then (.wire, l)
      else
        let l := { l with macLength := l.macLength + l.length }
        let r := submit link l.owner (front ++ npdu) now
        if r.1 ≠ .ok then (.radio, { l with owner := r.2 }) else (.ok, taken { l with owner := r.2 } acknowledgment)

/-- `nwk_aps_transmit`. -/
def transmit (link : Bool) (build : Build) (l : Layer) (acknowledgment : Bool) (now : UInt32) (k : Keys) :
    Result × Layer :=
  match k.status with
  | .error _ => (.security, l)
  | .ok s =>
    let p := outbound l acknowledgment s
    let l := numbered l acknowledgment p
    match secured l acknowledgment p k with
    | .error e => (.security, { l with error := .security e })
    | .ok npdu =>
      let l := { l with length := UInt8.ofNat npdu.length }
      if !acknowledgment ∧ l.special = 3 ∧ npdu.length = 0 then
        -- A device without keys leaves without a frame.
        (.ok, { l with toTransport := complete { l.toTransport with quiet := true } .ok k.final })
      else match recordOwn l acknowledgment p s now with
        | .error e => (e, l)
        | .ok l => transmitFrame link build l acknowledgment p s npdu now

/-- `nwk_aps_transmit_poll`. -/
def transmitPoll (link : Bool) (build : Build) (l : Layer) (now : UInt32) (k : Keys) : Result × Layer :=
  match k.status with
  | .error _ => (.security, l)
  | .ok s =>
    match MacFrame.encode (pollHeader build (l.poll == 2) s) [MacFrame.dataRequest] (macPrefix + 1) with
    | .error _ => (.wire, l)
    | .ok body =>
      let l := { l with macLength := UInt8.ofNat body.length }
      if body.length ≠ macPrefix + 1 then (.wire, l)
      else
        let r := submit link l.owner body now
        if r.1 ≠ .ok then (.radio, { l with owner := r.2 })
        else (.ok, { l with owner := r.2, active := true, activePoll := true, activeAck := false, poll := 0 })

/-! ## One step -/

/-- What a step asks of the radio. -/
inductive Output where
  | none
  | arm (generation : UInt32) (retry nb : UInt8) (expires : UInt32)
  | disarm (generation : UInt32) (retry nb : UInt8)
  | plain (action : MacTx.Action)
  | interval (action : MacTx.IntervalAction)

/-- `NWK_APS_STEP`. -/
def macStep (link : Bool) (owner : IntervalTx) (now : UInt32) (event : Option IntervalEvent) :
    MacTx.Result × IntervalTx × Output :=
  if link then
    let r := MacTx.observedStep link owner now event
    (r.1, r.2.1, r.2.2.elim .none .interval)
  else
    let r := MacTx.step link owner.engine now (event.map IntervalEvent.source)
    (r.1, { owner with engine := r.2.1 }, r.2.2.elim .none .plain)

/-- `arm`. -/
def arm (l : Layer) : Layer × Output :=
  let e := l.owner.engine
  ({ l with armed := false, disarmed := false, armIssued := 1, armRetry := e.retries, armNb := e.nb },
    .arm e.generation e.retries e.nb e.deadline)

/-- The transmission that is going on has to end. -/
def stopsNow (l : Layer) : Bool := l.stopping || (l.cancel && !l.activeAck && !l.activePoll)

/-- The cancellation of the transmission that is going on. -/
def cancellation (l : Layer) (now : UInt32) : IntervalEvent :=
  let e := l.owner.engine
  ⟨⟨e.generation, now, none, 0, 7, e.retries, e.nb, 0⟩, ⟨0, 0⟩, ⟨0, 0⟩⟩

/-- The transmitter is done and released: what its outcome means. -/
def finished (l : Layer) (outcome : MacTx.Outcome) (now : UInt32) (k : Keys) : Result × Layer :=
  if l.activeAck then
    let l := { l with reply := false, cancelSent := false, replyResult := outcome }
    if outcome ≠ .acked ∧ !l.stopping then (.ackFailed, l) else (.ok, l)
  else if l.activePoll then (.ok, { l with activePoll := false, pollResult := .mac outcome })
  else if l.cancel then (.ok, { l with toTransport := complete l.toTransport l.cancelResult k.final })
  else if outcome ≠ .acked ∧ outcome ≠ .unacknowledged then
    (.ok, { l with toTransport := complete l.toTransport .radio k.final })
  else if l.special = 0 ∧ ApsFrame.has l.outgoing.aps.flags ApsFrame.ackRequest ∧ l.outgoing.nwk.type = 0 ∧
      !l.seenAck then
    (.ok, { l with waiting := true, deadline := now + l.ackWait })
  else (.ok, { l with toTransport := complete l.toTransport .ok k.final })

/-- After a step of the transmitter. -/
def stepped (link : Bool) (l : Layer) (output : Output) (now : UInt32) (k : Keys) : Result × Layer × Output :=
  let e := l.owner.engine
  let armed := if link ∧ e.phase = .draw ∧ !stopsNow l then arm l else (l, output)
  let l := armed.1
  let output := armed.2
  let l := if !l.activeAck ∧ !l.activePoll ∧ e.transmissions ≠ 0 then { l with sent := true } else l
  if e.phase = .fault then (.radio, { l with ready := false, error := .mac e.outcome }, output)
  else if e.phase ≠ .done then (.ok, l, output)
  else if link ∧ !l.disarmed then
    if l.armIssued ≠ 2 then (.ok, { l with armIssued := 2 }, .disarm e.generation e.retries e.nb) else (.ok, l, output)
  else
    let r := MacTx.release e
    let l := { l with owner := { l.owner with engine := r.2 } }
    if r.1 ≠ .ok then (.radio, l, output)
    else
      let l := { l with active := false }
      let l := if link then { l with armed := false, armIssued := 0 } else l
      let done := finished l e.outcome now k
      (done.1, done.2, output)

/-- One step of the transmitter and what follows from it. -/
def drive (link : Bool) (l : Layer) (now : UInt32) (event : Option IntervalEvent) (k : Keys) :
    Result × Layer × Output :=
  let m := macStep link l.owner now event
  let l := { l with owner := m.2.1 }
  if m.1 ≠ .ok then (.radio, l, .none) else stepped link l m.2.2 now k

/-- A step while the transmitter works. -/
def stepActive (link : Bool) (l : Layer) (now : UInt32) (event : Option IntervalEvent) (k : Keys) :
    Result × Layer × Output :=
  if link ∧ !l.armed ∧ l.owner.engine.phase = .draw ∧ !stopsNow l ∧ !reached now l.owner.engine.deadline then
    let result := if event.isSome then Result.ignored else .ok
    if l.armIssued = 0 then (result, arm l) else (result, l, .none)
  else if stopsNow l ∧ !l.cancelSent ∧ event.isNone then
    drive link { l with cancelSent := true } now (some (cancellation l now)) k
  else drive link l now event k

/-- The transmission a free transmitter takes next. -/
def launch (link : Bool) (build : Build) (l : Layer) (now : UInt32) (k : Keys) : Result × Layer × Output :=
  let go (l : Layer) : Result × Layer × Output :=
    if !l.active then (.ok, l, .none)
    else if link then
      let a := arm l
      (.ok, a.1, a.2)
    else
      let m := macStep link l.owner now none
      (if m.1 = .ok then .ok else .radio, { l with owner := m.2.1 }, m.2.2)
  if l.reply ∨ (l.queued ∧ !l.waiting) then
    let r := transmit link build l l.reply now k
    if r.1 ≠ .ok then
      (r.1, if r.2.reply then r.2 else { r.2 with toTransport := complete r.2.toTransport r.1 k.final }, .none)
    else go r.2
  else if l.poll ≠ 0 then
    let r := transmitPoll link build l now k
    if r.1 ≠ .ok then (.ok, { r.2 with poll := 0, pollResult := .refused r.1 }, .none) else go r.2
  else (.ok, l, .none)

/-- The layer is stopped once the transmitter is free. -/
def stopped (l : Layer) (k : Keys) : Layer :=
  let l := if l.reply then { l with reply := false, replyResult := .cancelled } else l
  let l := { l with poll := 0 }
  let l := if l.queued then { l with toTransport := complete l.toTransport .cancelled k.final } else l
  { l with stopping := false, cancel := false, cancelSent := false }

/-- A request that waits is completed, or waits no longer. -/
def settled (l : Layer) (now : UInt32) (k : Keys) : Layer :=
  let l := if l.cancel ∧ l.queued then { l with toTransport := complete l.toTransport l.cancelResult k.final } else l
  let l := if l.waiting ∧ l.seenAck then { l with toTransport := complete l.toTransport .ok k.final } else l
  if l.waiting ∧ reached now l.deadline then
    let l := { l with waiting := false }
    if l.retries = maxRetries then { l with toTransport := complete l.toTransport .timeout k.final }
    else { l with retries := l.retries + 1, sent := false, seenAck := false }
  else l

/-- A step while the transmitter is free. -/
def stepIdle (link : Bool) (build : Build) (l : Layer) (now : UInt32) (event : Option IntervalEvent) (k : Keys) :
    Result × Layer × Output :=
  if event.isSome then (.ignored, l, .none)
  else if l.owner.engine.phase ≠ .idle then (.state, l, .none)
  else if l.stopping then (.ok, stopped l k, .none)
  else launch link build (settled l now k) now k

/-- `nwk_aps_step`. -/
def step (link : Bool) (build : Build) (l : Layer) (now : UInt32) (event : Option IntervalEvent) (k : Keys) :
    Result × Layer × Output :=
  let r := advance l.toTransport now
  let l := { l with toTransport := r.2 }
  if r.1 ≠ .ok then (r.1, l, .none)
  else
    let l := if l.queued ∧ !l.cancel ∧ reached now l.transactionUntil then
      { l with cancel := true, cancelResult := .timeout } else l
    if l.active then stepActive link l now event k else stepIdle link build l now event k

/-- `nwk_aps_armed`. -/
def confirmArmed (l : Layer) (generation : UInt32) (retry nb : UInt8) : Result × Layer :=
  if !l.active ∨ l.armIssued ≠ 1 ∨ l.armed ∨ l.owner.engine.phase ≠ .draw ∨
      generation ≠ l.owner.engine.generation ∨ retry ≠ l.armRetry ∨ nb ≠ l.armNb then (.state, l)
  else (.ok, { l with armed := true, armIssued := 0 })

/-- `nwk_aps_disarmed`. -/
def confirmDisarmed (l : Layer) (generation : UInt32) (retry nb : UInt8) : Result × Layer :=
  if !l.active ∨ l.armIssued ≠ 2 ∨ l.disarmed ∨ l.owner.engine.phase ≠ .done ∨
      generation ≠ l.owner.engine.generation ∨ retry ≠ l.owner.engine.retries ∨ nb ≠ l.owner.engine.nb then
    (.state, l)
  else (.ok, { l with disarmed := true, armIssued := 0 })

/-! ## Every call -/

inductive Call where
  | queue (packet : Packet) (apsSecure : Bool) (now : UInt32)
  | keyExchange (which : UInt8) (now : UInt32)
  | rejoin (capability : UInt8) (now : UInt32) (k : Keys)
  | poll (rejoin : UInt8) (now : UInt32)
  | step (now : UInt32) (event : Option IntervalEvent) (k : Keys)
  | receive (npdu : Bytes) (now : UInt32) (admitted : Except SecurityKeys.Result SecurityKeys.Received)
  | take
  | confirm
  | cancel (now : UInt32)
  | stop (now : UInt32)
  | armed (generation : UInt32) (retry nb : UInt8)
  | disarmed (generation : UInt32) (retry nb : UInt8)

inductive Answer where
  | result (result : Result)
  | stepped (result : Result) (output : Output)
  | took (packet : Option (Packet × SecurityKeys.Event))
  | confirmed (result : Option Result)

/-- One call of the layer. -/
def perform (link : Bool) (build : Build) (l : Layer) : Call → Answer × Layer
  | .queue packet apsSecure now =>
    let r := l.queue packet apsSecure now
    (.result r.1, r.2)
  | .keyExchange which now =>
    let r := keyExchange l which now
    (.result r.1, r.2)
  | .rejoin capability now k =>
    let r := rejoin build l capability now k
    (.result r.1, r.2)
  | .poll rejoin now =>
    let r := pollRequest l rejoin now
    (.result r.1, r.2)
  | .step now event k =>
    let r := step link build l now event k
    (.stepped r.1 r.2.2, r.2.1)
  | .receive npdu now admitted =>
    let r := receive l npdu now admitted
    (.result r.1, r.2)
  | .take =>
    let r := l.take
    (.took r.1, r.2)
  | .confirm =>
    let r := l.confirm
    (.confirmed r.1, r.2)
  | .cancel now =>
    let r := l.cancelRequest now
    (.result r.1, r.2)
  | .stop now =>
    let r := stop l now
    (.result r.1, r.2)
  | .armed generation retry nb =>
    let r := confirmArmed l generation retry nb
    (.result r.1, r.2)
  | .disarmed generation retry nb =>
    let r := confirmDisarmed l generation retry nb
    (.result r.1, r.2)

end NwkAps
