import Cc2530Zigbee.NwkAps
import Cc2530Zigbee.MacTxInterval

/-!
# The NWK and APS transport: the whole layer

Around the two slots stand the tables of recent frames, the acknowledgment that
goes first, the poll that goes last and the transmitter all three share. What
the key owner answers during a call is an input of the call.
-/
namespace NwkAps

open Octets
open EdWire (Packet at0 at1 at2)
open MacTx (IntervalTx IntervalEvent reached)

/-- `nwk_aps_duplicate_t`. -/
structure Entry where
  expires : UInt32
  source : UInt16
  counter : UInt8
  kind : UInt8
  used : Bool
  deriving DecidableEq

def Entry.zero : Entry := ⟨0, 0, 0, 0, false⟩

/-- `NWK_APS_DUPLICATES`. -/
abbrev Table := Vector Entry 8

/-- What the octet `error` holds. -/
inductive Fault where
  | none
  | security (result : SecurityKeys.Result)
  | mac (outcome : MacTx.Outcome)
  deriving DecidableEq

/-- What the octet `poll_result` holds. -/
inductive PollResult where
  | mac (outcome : MacTx.Outcome)
  | refused (result : Result)
  deriving DecidableEq

/-- `nwk_aps_t`: the slots, and what only the layer itself reads. -/
structure Layer extends Transport where
  acknowledgment : Packet
  duplicate : Table
  broadcast : Table
  owner : IntervalTx
  deadline : UInt32
  ackWait : UInt32
  broadcastTime : UInt32
  nextNwk : UInt8
  length : UInt8
  macLength : UInt8
  active : Bool
  activeAck : Bool
  reply : Bool
  replySecure : Bool
  replyResult : MacTx.Outcome
  error : Fault
  poll : UInt8
  activePoll : Bool
  pollResult : PollResult
  armed : Bool
  armIssued : UInt8
  armRetry : UInt8
  armNb : UInt8
  disarmed : Bool
  deriving DecidableEq

/-- What the key owner answers during a call: its status, the protected frames,
and its status once more when a request is completed. -/
structure Keys where
  status : Except SecurityKeys.Result SecurityKeys.Status
  send : Packet → Bool → Except SecurityKeys.Result Bytes
  leave : UInt8 → Except SecurityKeys.Result Bytes
  request : UInt8 → UInt8 → Except SecurityKeys.Result Bytes
  verify : UInt8 → UInt8 → Except SecurityKeys.Result Bytes
  final : Except SecurityKeys.Result SecurityKeys.Status

/-- `NWK_APS_RETRIES`, `NWK_APS_TX_LIFETIME`, `NWK_APS_TX_WORK`, `NWK_APS_DUPLICATE_TIME`. -/
def maxRetries : UInt8 := 3
def txLifetime : UInt32 := 500000
def txWork : UInt16 := 256
def duplicateFloor : UInt32 := 1000000

/-- A destination of the NWK broadcasts. -/
def isBroadcast (address : UInt16) : Bool := 0xFFFB ≤ address

/-! ## Beginning and ending a request -/

structure Config where
  ackWait : UInt32
  broadcastTime : UInt32
  profile : UInt16
  endpoint : UInt8

/-- The parts of the configuration `nwk_aps_init` checks. -/
def Config.valid (c : Config) : Bool :=
  c.endpoint != 0 && c.endpoint != 255 && c.profile != 0 && 93750 ≤ c.ackWait && c.ackWait < 0x10000000 &&
    c.broadcastTime != 0 && c.broadcastTime < MacTx.half

/-- The time a duplicate is known for. -/
def duplicateTimeOf (link : Bool) (ackWait : UInt32) : UInt32 :=
  let time := (ackWait + txLifetime + MacTx.stopSymbols link) * 4
  if time < duplicateFloor then duplicateFloor else time

/-- `nwk_aps_init`. -/
def init (link : Bool) (owner : IntervalTx) (c : Config) (now : UInt32) : Except Result Layer :=
  if !c.valid then .error .argument
  else if owner.engine.phase ≠ .idle then .error .state
  else .ok {
    outgoing := Packet.zero, incoming := Packet.zero, last := now, counterUntil := 0
    duplicateTime := duplicateTimeOf link c.ackWait, transactionUntil := 0, profile := c.profile
    endpoint := c.endpoint, nextAps := 0, queued := false, waiting := false, retries := 0, seenAck := false
    sent := false, receiveReady := false, event := .data, secure := false, special := 0, completed := false
    result := .ok, announced := false, permitSent := false, ready := false, wrapWait := false, cancel := false
    cancelSent := false, cancelResult := .ok, parentInformation := 0, quiet := false, stopping := false
    acknowledgment := Packet.zero, duplicate := Vector.replicate 8 .zero, broadcast := Vector.replicate 8 .zero
    owner := owner, deadline := 0, ackWait := c.ackWait, broadcastTime := c.broadcastTime, nextNwk := 0, length := 0
    macLength := 0, active := false, activeAck := false, reply := false, replySecure := false
    replyResult := .none, error := .none, poll := 0, activePoll := false, pollResult := .mac .none
    armed := false, armIssued := 0, armRetry := 0, armNb := 0, disarmed := false }

/-- The completed packet was a Device_annce of this device. -/
def announces (p : Packet) (s : SecurityKeys.Status) : Bool :=
  p.aps.clusterId == 0x0013 && p.length == 12 && p.nwk.destination == 0xFFFD &&
    getElem p.payload 1 at1 == s.config.address.toUInt8 && getElem p.payload 2 at2 == (s.config.address >>> 8).toUInt8 &&
    p.field 3 8 == s.config.ownIeee && p.payload[11] &&& 0xF3 == 0x80

/-- The completed packet was the Mgmt_Permit_Joining that ends a join. -/
def permits (p : Packet) : Bool :=
  p.aps.clusterId == 0x0036 && p.length == 3 && (180 : UInt8) ≤ getElem p.payload 1 at1 &&
    getElem p.payload 2 at2 == 1 &&
    p.nwk.destination == 0xFFFC

/-- A ZDO broadcast. -/
def zdoBroadcast (p : Packet) : Bool :=
  p.nwk.type == 0 && p.aps.type == 0 && p.aps.profileId == 0 && p.aps.sourceEndpoint == 0 &&
    p.aps.destinationEndpoint == 0 && p.aps.deliveryMode == 2

/-- `nwk_aps_complete`. -/
def complete (t : Transport) (result : Result) (status : Except SecurityKeys.Result SecurityKeys.Status) : Transport :=
  let t := { t with
    queued := false, waiting := false, completed := true, result := result, cancel := false, cancelSent := false }
  if result ≠ .ok ∨ t.special ≠ 0 ∨ !zdoBroadcast t.outgoing then t
  else match status with
    | .error _ => t
    | .ok s =>
      let t := { t with announced := t.announced || announces t.outgoing s }
      if permits t.outgoing ∧ t.announced ∧ s.phase = .verified then { t with permitSent := true, ready := true } else t

/-- A request goes into the slot of the layer. -/
def Layer.queue (l : Layer) (packet : Packet) (apsSecure : Bool) (now : UInt32) : Result × Layer :=
  let r := NwkAps.queue l.toTransport packet apsSecure now
  (r.1, { l with toTransport := r.2 })

/-- `nwk_aps_key_exchange`. -/
def keyExchange (l : Layer) (which : UInt8) (now : UInt32) : Result × Layer :=
  if which < 1 ∨ 3 < which then (.argument, l)
  else
    let r := reserve l.toTransport now (which != 3)
    if r.1 ≠ .ok then (r.1, { l with toTransport := r.2 })
    else
      let p := { Packet.zero with aps := { Packet.zero.aps with type := EdWire.apsCommand } }
      let t := { r.2 with outgoing := p, special := which, secure := which == 1 }
      (.ok, { l with toTransport := allocated t now (which != 3) })

def parentAddress (build : Build) (s : SecurityKeys.Status) : UInt16 :=
  if build.parentRecovery && s.routerActive then s.routerAddress else 0

def rejoinAddress (build : Build) (s : SecurityKeys.Status) : UInt16 :=
  if build.parentRecovery && s.routerSelected then s.routerAddress else 0

def rejoinIeee (build : Build) (s : SecurityKeys.Status) : NwkFrame.Ieee :=
  if build.parentRecovery && s.routerSelected then s.routerIeee else s.config.tcIeee

/-- `nwk_aps_rejoin`. -/
def rejoin (build : Build) (l : Layer) (capability : UInt8) (now : UInt32) (k : Keys) : Result × Layer :=
  let r := reserve l.toTransport now false
  if r.1 ≠ .ok then (r.1, { l with toTransport := r.2 })
  else match k.status with
    | .error _ => (.security, { l with toTransport := r.2 })
    | .ok s =>
      let nwk := { Packet.zero.nwk with
        type := EdWire.nwkCommand, version := 2, radius := 1
        flags := NwkFrame.sourceIeeeFlag ||| NwkFrame.destinationIeeeFlag
        sourceIeee := s.config.ownIeee, destinationIeee := rejoinIeee build s, destination := rejoinAddress build s }
      let payload := (Packet.zero.payload.set 0 6 at0).set 1 (capability &&& 0x7F) at1
      let p := { Packet.zero with nwk := nwk, payload := payload, length := 2 }
      (.ok, { l with
        toTransport := allocated { r.2 with outgoing := p, secure := false, special := 0 } now false })

/-- `nwk_aps_poll`. -/
def pollRequest (l : Layer) (rejoin : UInt8) (now : UInt32) : Result × Layer :=
  let r := advance l.toTransport now
  let l := { l with toTransport := r.2 }
  if r.1 ≠ .ok then (r.1, l)
  else if 1 < rejoin then (.argument, l)
  else if l.stopping then (.state, l)
  else (.ok, { l with poll := 1 + rejoin })

def Layer.take (l : Layer) : Option (Packet × SecurityKeys.Event) × Layer :=
  let r := NwkAps.take l.toTransport
  (r.1, { l with toTransport := r.2 })

def Layer.confirm (l : Layer) : Option Result × Layer :=
  let r := NwkAps.confirm l.toTransport
  (r.1, { l with toTransport := r.2 })

def Layer.cancelRequest (l : Layer) (now : UInt32) : Result × Layer :=
  let r := NwkAps.cancel l.toTransport now
  (r.1, { l with toTransport := r.2 })

/-- `nwk_aps_stop`. -/
def stop (l : Layer) (now : UInt32) : Result × Layer :=
  let r := advance l.toTransport now
  let l := { l with toTransport := r.2 }
  if r.1 ≠ .ok then (r.1, l)
  else
    let l := { l with ready := false, stopping := true }
    (.ok, if l.queued then { l with cancel := true, cancelResult := .cancelled } else l)

/-! ## The table of broadcasts -/

/-- An entry that still counts at a time. -/
def Entry.live (e : Entry) (now : UInt32) : Bool := e.used && !reached now e.expires

/-- The last free slot of a table, if there is one. -/
def freeSlot (table : Table) (now : UInt32) : Option (Fin 8) :=
  (List.finRange 8).foldl (fun slot i => if (getElem table i (index8_lt i)).live now then slot else some i) none

/-- `nwk_aps_broadcast_slot`. A live entry of the frame ends the search. -/
def broadcastSlot (table : Table) (source : UInt16) (sequence : UInt8) (now : UInt32) : Except Result (Fin 8) :=
  if (List.finRange 8).any fun i => (getElem table i (index8_lt i)).live now &&
      (getElem table i (index8_lt i)).source == source && (getElem table i (index8_lt i)).counter == sequence then
    .error .duplicate
  else match freeSlot table now with
    | none => .error .full
    | some slot => .ok slot

/-- `nwk_aps_broadcast_put`; the kind of the entry is left as it was. -/
def broadcastPut (l : Layer) (slot : Fin 8) (source : UInt16) (sequence : UInt8) (now : UInt32) : Layer :=
  let entry := { getElem l.broadcast slot (index8_lt slot) with
    used := true, source := source, counter := sequence, expires := now + l.broadcastTime }
  { l with broadcast := l.broadcast.set slot entry (index8_lt slot) }

/-! ## Receiving -/

/-- The received acknowledgment is the one the request in the slot waits for. -/
def acknowledgmentMatches (l : Layer) (p : Packet) : Bool :=
  let sent := l.outgoing
  l.queued && l.sent && l.special == 0 && sent.nwk.type == 0 && !l.cancel && !reached l.last l.transactionUntil &&
    ApsFrame.has sent.aps.flags ApsFrame.ackRequest && p.nwk.source == sent.nwk.destination &&
    p.nwk.destination == sent.nwk.source && p.aps.counter == sent.aps.counter &&
    !ApsFrame.has p.aps.flags ApsFrame.ackFormat && p.aps.clusterId == sent.aps.clusterId &&
    p.aps.profileId == sent.aps.profileId && p.aps.sourceEndpoint == sent.aps.destinationEndpoint &&
    p.aps.destinationEndpoint == sent.aps.sourceEndpoint && (!l.waiting || !reached l.last l.deadline)

/-- `acknowledgment`: the answer to a packet, in front of everything else. -/
def acknowledge (l : Layer) (p : Packet) (secured : Bool) : Layer :=
  let nwk := { Packet.zero.nwk with version := 2, destination := p.nwk.source, radius := 30, discoverRoute := 1 }
  let aps := { Packet.zero.aps with type := EdWire.apsAck, counter := p.aps.counter }
  let aps := if p.aps.type = EdWire.apsCommand then { aps with flags := ApsFrame.ackFormat }
    else { aps with
      destinationEndpoint := p.aps.sourceEndpoint
      -- An acknowledgment names the endpoint that took a frame for all endpoints.
      sourceEndpoint := if p.aps.destinationEndpoint = 255 then l.endpoint else p.aps.destinationEndpoint
      profileId := p.aps.profileId, clusterId := p.aps.clusterId }
  { l with acknowledgment := { Packet.zero with nwk := nwk, aps := aps }, reply := true, replySecure := secured }

/-- The frame asks for an acknowledgment of the APS layer. -/
def asksAck (p : Packet) : Bool := p.nwk.type == 0 && ApsFrame.has p.aps.flags ApsFrame.ackRequest

/-- A transition of the key owner, which goes past the table of duplicates. -/
def isControl (r : SecurityKeys.Received) : Bool := r.packet.nwk.type != 0 || 2 ≤ r.event.code

/-- A transition that ends the request in the slot. -/
def interrupts (l : Layer) (r : SecurityKeys.Received) : Bool :=
  r.event == .leave || r.event == .update ||
    ((r.event == .rejoined || r.event == .rejoinRefused) && l.queued && l.special == 0 && l.outgoing.nwk.type != 0 &&
      l.outgoing.length == 2 && getElem l.outgoing.payload 0 at0 == 6)

/-- Data for an endpoint that does not take it. -/
def misdirected (l : Layer) (p : Packet) : Bool :=
  p.nwk.type == 0 && p.aps.type == 0 && (p.aps.destinationEndpoint != 0 || p.aps.profileId != 0) &&
    (!l.ready || (p.aps.destinationEndpoint != l.endpoint && p.aps.destinationEndpoint != 255) ||
      p.aps.profileId != l.profile)

/-- Expired entries are dropped. -/
def purged (table : Table) (now : UInt32) : Table :=
  table.map fun e => if reached now e.expires then { e with used := false } else e

/-- The live entry that expires first. -/
def oldest (table : Table) (now : UInt32) : Fin 8 :=
  (List.finRange 8).foldl
    (fun oldest i => if (getElem table i (index8_lt i)).used ∧ (getElem table i (index8_lt i)).expires - now <
      (getElem table oldest (index8_lt oldest)).expires - now then i else oldest) 0

/-- A live entry has the identity of a frame. -/
def known (table : Table) (source : UInt16) (counter kind : UInt8) : Bool :=
  (List.finRange 8).any fun i =>
    (getElem table i (index8_lt i)).used && (getElem table i (index8_lt i)).source == source &&
      (getElem table i (index8_lt i)).counter == counter && (getElem table i (index8_lt i)).kind == kind

/-- The last slot that is not used, else the one that expires first. -/
def victim (table : Table) (now : UInt32) : Fin 8 :=
  ((List.finRange 8).foldl (fun slot i => if (getElem table i (index8_lt i)).used then slot else some i) none).getD
    (oldest table now)

/-- The received packet does not stay. -/
def discard (l : Layer) (result : Result) : Result × Layer := (result, { l with incoming := Packet.zero })

/-- An ordinary frame against the table of duplicates. -/
def filter (l : Layer) (r : SecurityKeys.Received) (now : UInt32) : Result × Layer :=
  let p := r.packet
  let l := { l with duplicate := purged l.duplicate now }
  let duplicate := known l.duplicate p.nwk.source p.aps.counter p.aps.type
  if !duplicate ∧ l.receiveReady then discard l .full
  else if asksAck p ∧ l.reply then discard l .full
  else
    let l := if asksAck p then acknowledge l p r.apsSecured else l
    if duplicate then discard l .duplicate
    else (.ok, { l with
      duplicate := l.duplicate.set (victim l.duplicate now)
        ⟨now + l.duplicateTime, p.nwk.source, p.aps.counter, p.aps.type, true⟩
      event := r.event, receiveReady := true })

/-- A frame the key owner has admitted. -/
def deliver (l : Layer) (r : SecurityKeys.Received) (now : UInt32) : Result × Layer :=
  let p := r.packet
  if p.nwk.type = 0 ∧ isBroadcast p.nwk.destination ∧ ApsFrame.has p.aps.flags ApsFrame.ackRequest then
    discard l .wire
  else if p.nwk.type = 0 ∧ p.aps.type = EdWire.apsAck then
    if !acknowledgmentMatches l p ∨ (l.secure ∧ !r.apsSecured) then discard l .ignored
    else discard { l with seenAck := true } .ok
  else if misdirected l p then discard l .ignored
  else
    let l := if interrupts l r then
        { l with ready := false, cancel := l.cancel || l.queued
                 cancelResult := if l.queued then .cancelled else l.cancelResult }
      else l
    if isControl r then
      let l := if asksAck p then acknowledge l p r.apsSecured else l
      (.ok, { l with event := r.event, receiveReady := true })
    else filter l r now

/-- The broadcast a received frame is recorded as. -/
def broadcastOf (l : Layer) (hint : NwkFrame.Header) (now : UInt32) : Except Result (Option (Fin 8)) :=
  if isBroadcast hint.destination then (broadcastSlot l.broadcast hint.source hint.sequence now).map some else .ok none

/-- `nwk_aps_receive`, with the answer of `security_keys_receive`. -/
def receive (l : Layer) (npdu : Bytes) (now : UInt32) (admitted : Except SecurityKeys.Result SecurityKeys.Received) :
    Result × Layer :=
  let r := advance l.toTransport now
  let l := { l with toTransport := r.2 }
  if r.1 ≠ .ok then (r.1, l)
  else if l.stopping then (.state, l)
  else if l.receiveReady ∨ l.reply then (.full, l)
  else match EdWire.readNwk npdu with
    | .error _ => (.wire, l)
    | .ok hint => match broadcastOf l hint.header now with
      | .error e => (e, l)
      | .ok slot => match admitted with
        | .error e =>
          let l := { l with
            error := .security e
            ready := l.ready && e != .storage && e != .crypto && e != .exhausted }
          discard l .security
        | .ok received =>
          let l := { l with incoming := received.packet }
          let l := match slot with
            | none => l
            | some i => broadcastPut l i received.packet.nwk.source received.packet.nwk.sequence now
          deliver l received now

end NwkAps
