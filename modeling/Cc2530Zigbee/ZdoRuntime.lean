import Cc2530Zigbee.NwkAps
import Cc2530Zigbee.ZdoServer

/-!
# The ZDO runtime

One client query, one server response and one application packet over the
transport. The key owner is asked for its status at every call; a call comes with
what it answered, `none` when it has no status to give.
-/
namespace ZdoRuntime

open Octets
open EdWire (Packet at0 at1 at2 at3)
open NwkFrame (Ieee)
open NwkAps (Transport)

inductive Result where
  | ok | argument | state | full | format | ignored | timeout | transmit | remote | conflict | security | clock
  | dropped | cancelled | leave
  deriving DecidableEq, Repr

inductive Query where
  | node | nwkAddress | ieeeAddress | parent
  deriving DecidableEq, Repr

def Query.ofCode (which : UInt8) : Option Query :=
  if which = 1 then some .node
  else if which = 2 then some .nwkAddress
  else if which = 3 then some .ieeeAddress
  else if which = 4 then some .parent
  else none

structure Address where
  ieee : Ieee
  used : Bool
  valid : Bool
  address : UInt16
  deriving DecidableEq

/-- `zdo_runtime_t`. No query and no event are `none`. -/
structure Zdo where
  localDescriptor : ZdoNode.Descriptor
  tc : ZdoNode.Descriptor
  map : Vector Address 4
  response : Packet
  application : Packet
  last : UInt32
  deadline : UInt32
  nextTsn : UInt8
  sequence : UInt8
  query : Option Query
  queryTx : Bool
  txDone : Bool
  result : Option Result
  responsePending : Bool
  responseTx : Bool
  applicationReady : Bool
  securityEvent : Option SecurityKeys.Event
  parentInformation : UInt8
  parentKnown : Bool
  conflict : Bool
  responseResult : NwkAps.Result
  leave : Bool
  deriving DecidableEq

/-- The runtime and the transport it works over. -/
structure Node where
  zdo : Zdo
  transport : Transport
  deriving DecidableEq

abbrev Keys := SecurityKeys.Status

def parentIeee (keys : Keys) : Ieee := if keys.routerActive then keys.routerIeee else keys.config.tcIeee
def parentAddress (keys : Keys) : UInt16 := if keys.routerActive then keys.routerAddress else 0

def wait : UInt32 := 312500
def unknownDevice : UInt8 := 0xC8
def mgmtLeaveResponse : UInt16 := ZdoServer.mgmtLeaveRequest ||| 0x8000

def expired (now time : UInt32) : Bool := now - time < MacTx.half

/-- The clock of the runtime goes on, or the time is refused. -/
def advance (n : Node) (now : UInt32) : Option Node :=
  if MacTx.half ≤ now - n.zdo.last then none else some { n with zdo := { n.zdo with last := now } }

/-- A packet to a destination and a cluster, with an empty payload. -/
def base (destination cluster : UInt16) : Packet :=
  { NwkAps.Packet.zero with
    nwk := { NwkAps.Packet.zero.nwk with version := 2, radius := 30, destination := destination, discoverRoute := 1 }
    aps := { ApsFrame.Header.zero with clusterId := cluster } }

/-- A payload that starts with these octets. -/
def payload (octets : Bytes) : Vector UInt8 82 := Vector.ofFn fun i => byteAt octets i

/-- A packet with these octets as its payload. -/
def withPayload (p : Packet) (octets : Bytes) : Packet :=
  { p with payload := payload octets, length := UInt8.ofNat octets.length }

/-- The octets of a packet's payload. -/
def body (p : Packet) : Bytes := p.payload.toList.take p.length.toNat

/-- A runtime with nothing under way. -/
def fresh (descriptor : ZdoNode.Descriptor) (now : UInt32) : Zdo :=
  { localDescriptor := descriptor, tc := .zero
    map := Vector.replicate 4 ⟨Vector.replicate 8 0, false, false, 0⟩
    response := NwkAps.Packet.zero, application := NwkAps.Packet.zero, last := now, deadline := 0
    nextTsn := 0, sequence := 0, query := none, queryTx := false, txDone := false
    -- The stored result is 0, not the mark of no event, until the first query.
    result := some .ok
    responsePending := false, responseTx := false, applicationReady := false, securityEvent := none
    parentInformation := 0, parentKnown := false, conflict := false, responseResult := .ok, leave := false }

/-- `zdo_runtime_init`. -/
def init (descriptor : ZdoNode.Descriptor) (now : UInt32) : Except Result Zdo :=
  if descriptor.logicalType ≠ 2 then .error .argument
  else match ZdoNode.rspEncode ⟨descriptor, 1, 0, 0, false, 0⟩ 17 with
    | .error _ => .error .argument
    | .ok _ => .ok (fresh descriptor now)

/-- The packet of a client query. -/
def queryPacket (tsn : UInt8) (keys : Keys) : Query → Packet
  | .node => withPayload (base 0 2) [tsn, 0, 0]
  | .nwkAddress => withPayload (base 0 0) ([tsn] ++ keys.config.tcIeee.toList ++ [0, 0])
  | .ieeeAddress => withPayload (base 0 1) [tsn, 0, 0, 0, 0]
  | .parent =>
    let p := base 0 1
    withPayload { p with nwk := { p.nwk with
      type := EdWire.nwkCommand, radius := 1, flags := NwkFrame.sourceIeeeFlag ||| NwkFrame.destinationIeeeFlag
      sourceIeee := keys.config.ownIeee, destinationIeee := parentIeee keys, destination := parentAddress keys } }
      [0x0B, 1, 0]

/-- `zdo_runtime_request`. The response slot is the scratch of the query packet. -/
def request (n : Node) (keys : Option Keys) (which : UInt8) (now : UInt32) : Result × Node :=
  match advance n now with
  | none => (.clock, n)
  | some n =>
    match Query.ofCode which with
    | none => (.argument, n)
    | some query =>
      if n.zdo.query.isSome ∨ n.zdo.responsePending ∨ n.zdo.responseTx then (.full, n)
      else match keys with
        | none => (.security, n)
        | some keys =>
          let packet := queryPacket n.zdo.nextTsn keys query
          let n := { n with zdo := { n.zdo with response := packet } }
          let queued := NwkAps.queue n.transport packet false now
          let n := { n with transport := queued.2 }
          if queued.1 ≠ .ok then (if queued.1 = .full then .full else .transmit, n)
          else
            (.ok, { n with zdo := { n.zdo with
              sequence := n.zdo.nextTsn, nextTsn := n.zdo.nextTsn + 1, query := some query, queryTx := true
              txDone := false, result := none, deadline := now + wait } })

def broadcastPacket (p : Packet) : Bool := 0xFFFB ≤ p.nwk.destination || p.aps.deliveryMode == 2

/-- NWK_addr and IEEE_addr requests. -/
def addressRequest (z : Zdo) (keys : Keys) (p : Packet) : Result × Zdo :=
  let ieeeRequest := p.aps.clusterId == 1
  let octets := p.payload.toList
  if p.length.toNat < (if ieeeRequest then 5 else 11) then (.format, z)
  else
    let address := if ieeeRequest then u16At octets 1 else keys.config.address
    let known := if ieeeRequest then address == keys.config.address else p.field 1 8 == keys.config.ownIeee
    let type := if ieeeRequest then getElem p.payload 3 at3 else p.payload[9]
    if broadcastPacket p ∧ (!known ∨ 1 < type) then (.ignored, z)
    else
      let status := if !known then ZdoNode.deviceNotFound else if 1 < type then ZdoNode.invalidRequest else 0
      let ieee := if ieeeRequest then (if known then keys.config.ownIeee else Vector.replicate 8 255) else p.field 1 8
      let address := if !ieeeRequest ∧ !known then 0xFFFF else address
      let r := base p.nwk.source (p.aps.clusterId ||| 0x8000)
      let tail := if status = 0 ∧ type = 1 then [0] else []
      (.ok, { z with
        response := withPayload { r with aps := { r.aps with destinationEndpoint := p.aps.sourceEndpoint } }
          ([getElem p.payload 0 at0, status] ++ ieee.toList ++ put16 address ++ tail)
        responsePending := true })

/-- Whether a Mgmt_Leave request is for this device: its address or none. -/
def removesSelf (keys : Keys) (p : Packet) : Bool :=
  p.field 1 8 == keys.config.ownIeee || p.field 1 8 == Vector.replicate 8 0

/-- R22 2.4.3.3.5/2.4.4.4.5: unicast only. No or the own address accepts self
removal, answered before leaving; an end device has no other devices to remove. -/
def mgmtLeave (z : Zdo) (keys : Keys) (p : Packet) : Result × Zdo :=
  if broadcastPacket p then (.ignored, z)
  else if p.length < 10 then (.format, z)
  else
    let self := removesSelf keys p
    let r := base p.nwk.source mgmtLeaveResponse
    (.ok, { z with
      response := withPayload { r with aps := { r.aps with destinationEndpoint := p.aps.sourceEndpoint } }
        [getElem p.payload 0 at0, if self then 0 else unknownDevice]
      leave := self
      responsePending := true })

/-- The map with this device and the trust center in its first two entries. -/
def seededMap (z : Zdo) (keys : Keys) : Vector Address 4 :=
  if z.map[0].used then z.map
  else (z.map.set 0 ⟨keys.config.ownIeee, true, true, keys.config.address⟩).set 1
    { z.map[1] with ieee := keys.config.tcIeee, used := true, valid := true }

/-- One entry of the map against an announcement: the last match, the last free
entry and whether the device's own or the trust center's address is taken. -/
structure Sweep where
  map : Vector Address 4
  found : Option (Fin 4)
  free : Option (Fin 4)
  conflict : Bool

def sweepEntry (ieee : Ieee) (address : UInt16) (s : Sweep) (i : Fin 4) : Sweep :=
  let m := s.map.get i
  if !m.used then { s with free := some i }
  else if m.ieee = ieee then { s with found := some i }
  else if m.valid ∧ m.address = address then
    { s with map := s.map.set i { m with valid := false } (index4_lt i), conflict := s.conflict || decide (i.val < 2) }
  else s

/-- A device announcement. A conflict stops the transport. -/
def announce (n : Node) (keys : Keys) (p : Packet) : Result × Node :=
  if p.length < 12 ∨ p.nwk.destination ≠ 0xFFFD then (.format, n)
  else
    let address := u16At p.payload.toList 1
    let ieee := p.field 3 8
    if 0xFFF7 < address then (.format, n)
    else
      let s := [0, 1, 2, 3].foldl (sweepEntry ieee address) ⟨seededMap n.zdo keys, none, none, n.zdo.conflict⟩
      let own := match s.found with
        | some i => decide (i.val < 2) && (s.map.get i).address != address
        | none => false
      let conflict := s.conflict || own
      let z := { n.zdo with map := s.map, conflict := conflict }
      if conflict then (.conflict, { zdo := z, transport := { n.transport with ready := false } })
      else if ieee = Vector.replicate 8 255 then (.ok, { n with zdo := z })
      else match s.found.or s.free with
        | none => (.full, { n with zdo := z })
        | some i => (.ok, { n with zdo := { z with map := s.map.set i ⟨ieee, true, true, address⟩ (index4_lt i) } })

/-- The parent's answer to the timeout request. -/
def parentResponse (n : Node) (keys : Keys) : Result × Node :=
  let p := n.zdo.application
  if n.zdo.query ≠ some .parent ∨ n.zdo.result ≠ none ∨ (!n.zdo.txDone ∧ !n.transport.sent) ∨
      expired n.zdo.last n.zdo.deadline then (.ignored, n)
  else if p.length < 3 ∨ getElem p.payload 0 at0 ≠ 0x0C ∨ (1 : UInt8) < getElem p.payload 1 at1 ∨ p.nwk.source ≠ parentAddress keys ∨
      p.nwk.destination ≠ keys.config.address ∨ p.nwk.radius ≠ 1 ∨
      p.nwk.flags &&& (NwkFrame.sourceIeeeFlag ||| NwkFrame.destinationIeeeFlag) ≠
        NwkFrame.sourceIeeeFlag ||| NwkFrame.destinationIeeeFlag ∨
      p.nwk.sourceIeee ≠ parentIeee keys ∨ p.nwk.destinationIeee ≠ keys.config.ownIeee then (.format, n)
  else if getElem p.payload 1 at1 ≠ 0 then (.ok, { n with zdo := { n.zdo with result := some .remote } })
  else
    (.ok, { zdo := { n.zdo with result := some .ok, parentInformation := getElem p.payload 2 at2, parentKnown := true }
            transport := { n.transport with parentInformation := getElem p.payload 2 at2 } })

def responseCluster (query : Option Query) : UInt16 :=
  if query = some .node then 0x8002 else if query = some .nwkAddress then 0x8000 else 0x8001

/-- The trust center's answer to a client query. -/
def zdoResponse (n : Node) (keys : Keys) : Result × Node :=
  let p := n.zdo.application
  if n.zdo.query = none ∨ n.zdo.query = some .parent ∨ n.zdo.result ≠ none ∨ (!n.zdo.txDone ∧ !n.transport.sent) ∨
      expired n.zdo.last n.zdo.deadline ∨ p.nwk.source ≠ 0 ∨ p.nwk.destination ≠ keys.config.address ∨
      p.aps.sourceEndpoint ≠ 0 ∨ p.aps.deliveryMode ≠ 0 ∨ p.aps.clusterId ≠ responseCluster n.zdo.query ∨
      getElem p.payload 0 at0 ≠ n.zdo.sequence then (.ignored, n)
  else if n.zdo.query = some .node then
    match ZdoNode.rspDecode (body p) with
    | .error _ => (.format, n)
    | .ok node =>
      if node.hasAddress ∧ node.address ≠ 0 then (.format, n)
      else if node.status ≠ 0 then (.ok, { n with zdo := { n.zdo with result := some .remote } })
      else (.ok, { n with zdo := { n.zdo with result := some .ok, tc := node.descriptor } })
  else
    if p.length < 12 ∨ (getElem p.payload 1 at1 ≠ 0 ∧ getElem p.payload 1 at1 ≠ ZdoNode.deviceNotFound ∧
        getElem p.payload 1 at1 ≠ ZdoNode.invalidRequest) then (.format, n)
    else if getElem p.payload 1 at1 = 0 ∧ (u16At p.payload.toList 10 ≠ 0 ∨ p.field 2 8 ≠ keys.config.tcIeee) then (.format, n)
    else (.ok, { n with zdo := { n.zdo with result := some (if getElem p.payload 1 at1 ≠ 0 then .remote else .ok) } })

/-- All other server requests. The response slot is written also when nothing is
answered. -/
def serve (table : Option (List ZdoServer.SimpleDescriptor)) (n : Node) (keys : Keys) (p : Packet) : Result × Node :=
  let l : ZdoServer.Local :=
    ⟨n.zdo.localDescriptor, keys.config.address, n.transport.profile, n.transport.endpoint⟩
  let r := base p.nwk.source 0
  let n := { n with zdo := { n.zdo with response := r } }
  match ZdoServer.handle table l ⟨p.aps, broadcastPacket p⟩ (body p) 82 with
  | .error _ => (.format, n)
  | .ok info =>
    if info.kind ≠ .reply then (.ignored, n)
    else
      (.ok, { n with zdo := { n.zdo with
        response := withPayload { r with aps := { r.aps with
          clusterId := info.clusterId, destinationEndpoint := info.endpoint } } info.response
        responsePending := true } })

/-- What becomes of a received packet that is for the ZDO. -/
def dispatch (table : Option (List ZdoServer.SimpleDescriptor)) (n : Node) (keys : Keys) (p : Packet) : Result × Node :=
  let cluster := p.aps.clusterId
  if p.aps.type ≠ 0 ∨ p.length = 0 then (.format, n)
  else if cluster = ZdoServer.bindRequest ∨ cluster = ZdoServer.unbindRequest ∨ cluster = ZdoServer.mgmtBindRequest then
    (.ok, { n with zdo := { n.zdo with applicationReady := true } })
  else if cluster &&& 0x8000 ≠ 0 then zdoResponse n keys
  else if cluster = ZdoServer.deviceAnnce then announce n keys p
  else if n.zdo.responsePending then (.dropped, { n with zdo := { n.zdo with responseResult := .full } })
  else if cluster < 2 then
    let r := addressRequest n.zdo keys p
    (r.1, { n with zdo := r.2 })
  else if cluster = ZdoServer.mgmtLeaveRequest then
    let r := mgmtLeave n.zdo keys p
    (r.1, { n with zdo := r.2 })
  else serve table n keys p

/-- Take the received packet into the application slot and act on it. -/
def received (table : Option (List ZdoServer.SimpleDescriptor)) (n : Node) (keys : Option Keys) : Result × Node :=
  match NwkAps.take n.transport with
  | (none, _) => (.state, n)
  | (some (p, event), transport) =>
    let n := { zdo := { n.zdo with application := p }, transport := transport }
    match keys with
    | none => (.security, n)
    | some keys =>
      if event ≠ .data ∧ event ≠ .management then (.ok, { n with zdo := { n.zdo with securityEvent := some event } })
      else if p.nwk.type ≠ 0 then parentResponse n keys
      else if p.aps.destinationEndpoint ≠ 0 ∨ p.aps.profileId ≠ 0 then
        (.ok, { n with zdo := { n.zdo with applicationReady := true } })
      else dispatch table n keys p

/-- The completion of the packet in flight: a result at once, or the node to go on with. -/
def confirmed (n : Node) : Option Result × Node :=
  if (n.zdo.queryTx ∨ n.zdo.responseTx) ∧ n.transport.completed then
    let result := n.transport.result
    let transport := (NwkAps.confirm n.transport).2
    if n.zdo.queryTx then
      -- A cancelled delivery is not a lost one.
      let outcome := if result ≠ .ok ∧ n.zdo.result ≠ some .timeout ∧ n.zdo.result ≠ some .cancelled then
        some (if result = .cancelled then .cancelled else .transmit) else n.zdo.result
      (none, { zdo := { n.zdo with queryTx := false, txDone := true, result := outcome }, transport := transport })
    else
      let n : Node := { zdo := { n.zdo with responseTx := false, responseResult := result }, transport := transport }
      if n.zdo.leave then (some .leave, { n with zdo := { n.zdo with leave := false } })
      else if result ≠ .ok then (some .dropped, n)
      else (none, n)
  else (none, n)

/-- The deadline of the client query. -/
def timedOut (n : Node) (now : UInt32) : Option Result × Node :=
  if n.zdo.query.isSome ∧ n.zdo.result = none ∧ expired now n.zdo.deadline then
    let n := { n with zdo := { n.zdo with result := some .timeout } }
    if n.zdo.queryTx then
      let r := NwkAps.cancel n.transport now
      (if r.1 ≠ .ok then some .transmit else none, { n with transport := r.2 })
    else (none, n)
  else (none, n)

/-- The received packet, unless an application packet waits. -/
def taken (table : Option (List ZdoServer.SimpleDescriptor)) (n : Node) (keys : Option Keys) : Result × Node :=
  if n.transport.receiveReady ∧ !n.zdo.applicationReady then
    let r := received table n keys
    if r.2.zdo.applicationReady then r
    else (r.1, { r.2 with zdo := { r.2.zdo with application := NwkAps.Packet.zero } })
  else (.ok, n)

/-- The response that waits for the transport. -/
def answered (n : Node) (now : UInt32) (rc : Result) : Result × Node :=
  if n.zdo.responsePending ∧ !n.transport.queued ∧ !n.transport.completed then
    let queued := NwkAps.queue n.transport n.zdo.response false now
    let n := { n with transport := queued.2 }
    if queued.1 = .exhausted then
      let n := { n with zdo := { n.zdo with responsePending := false, responseResult := queued.1 } }
      if n.zdo.leave then (.leave, { n with zdo := { n.zdo with leave := false } }) else (.dropped, n)
    else if queued.1 ≠ .ok then (if queued.1 = .full then .full else .transmit, n)
    else (rc, { n with zdo := { n.zdo with responsePending := false, responseTx := true } })
  else (rc, n)

/-- A step after the completion: the deadline, a received packet, a waiting response. -/
def proceed (table : Option (List ZdoServer.SimpleDescriptor)) (n : Node) (keys : Option Keys) (now : UInt32) :
    Result × Node :=
  match timedOut n now with
  | (some result, n) => (result, n)
  | (none, n) =>
    let r := taken table n keys
    answered r.2 now r.1

/-- `zdo_runtime_step`. -/
def step (table : Option (List ZdoServer.SimpleDescriptor)) (n : Node) (keys : Option Keys) (now : UInt32) :
    Result × Node :=
  match advance n now with
  | none => (.clock, n)
  | some n =>
    match confirmed { n with zdo := { n.zdo with securityEvent := none } } with
    | (some result, n) => (result, n)
    | (none, n) => proceed table n keys now

/-- The packet of the runtime that is in flight is cancelled. -/
def cancelInFlight (n : Node) (now : UInt32) : NwkAps.Result × Transport :=
  if (n.zdo.queryTx ∨ n.zdo.responseTx) ∧ n.transport.queued then NwkAps.cancel n.transport now
  else (.ok, n.transport)

/-- `zdo_runtime_cancel`. -/
def cancel (n : Node) (now : UInt32) : Result × Node :=
  match advance n now with
  | none => (.clock, n)
  | some n =>
    let r := cancelInFlight n now
    if r.1 ≠ .ok then (.transmit, { n with transport := r.2 })
    else
      (.ok, { zdo := { n.zdo with
                result := if n.zdo.query.isSome then some .cancelled else n.zdo.result
                responsePending := false
                responseResult := if n.zdo.responsePending then .cancelled else n.zdo.responseResult
                leave := false }
              transport := r.2 })

/-- `zdo_runtime_take_result`. -/
def takeResult (z : Zdo) : Option (Query × Result) × Zdo :=
  match z.query, z.result with
  | some query, some result => if z.txDone then (some (query, result), { z with query := none }) else (none, z)
  | _, _ => (none, z)

/-- `zdo_runtime_take_application`. -/
def takeApplication (z : Zdo) : Option Packet × Zdo :=
  if z.applicationReady then
    (some z.application, { z with application := NwkAps.Packet.zero, applicationReady := false })
  else (none, z)

/-- `zdo_runtime_discard_application`. -/
def discardApplication (z : Zdo) : Result × Zdo :=
  if z.applicationReady then (.ok, { z with application := NwkAps.Packet.zero, applicationReady := false })
  else (.state, z)

/-- The two broadcasts of a join: the device announcement and the permit request. -/
inductive Broadcast where
  | announce | permit
  deriving DecidableEq, Repr

def Broadcast.ofCode (which : UInt8) : Option Broadcast :=
  if which = 1 then some .announce else if which = 2 then some .permit else none

/-- The packet of a broadcast. Only the announcement needs the key owner's answer. -/
def broadcastOf (z : Zdo) : Broadcast → Option Keys → Option Packet
  | .announce, none => none
  | .announce, some keys => some (withPayload (base 0xFFFD 0x0013)
      ([z.nextTsn] ++ put16 keys.config.address ++ keys.config.ownIeee.toList ++ [z.localDescriptor.macCapability]))
  | .permit, _ => some (withPayload (base 0xFFFC 0x0036) [z.nextTsn, 180, 1])

/-- `zdo_runtime_broadcast`. The application slot is its scratch. -/
def broadcast (n : Node) (keys : Option Keys) (which : UInt8) (now : UInt32) : Result × Node :=
  match advance n now with
  | none => (.clock, n)
  | some n =>
    match Broadcast.ofCode which with
    | none => (.argument, n)
    | some which =>
      if n.zdo.applicationReady then (.full, n)
      else match broadcastOf n.zdo which keys with
        | none => (.security, n)
        | some p =>
          let packet := { p with
            nwk := { p.nwk with discoverRoute := 0 }, aps := { p.aps with deliveryMode := ApsFrame.deliveryBroadcast } }
          let queued := NwkAps.queue n.transport packet false now
          (if queued.1 = .ok then .ok else if queued.1 = .full then .full else .transmit,
            { zdo := { n.zdo with nextTsn := n.zdo.nextTsn + 1, application := NwkAps.Packet.zero }
              transport := queued.2 })

end ZdoRuntime
