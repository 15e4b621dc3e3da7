import Cc2530Zigbee.ApsFrame
import Cc2530Zigbee.ZdoNode

/-!
# The ZDO server of an end device

Answers to descriptor and endpoint requests. A build with its own descriptor
table answers from the table; otherwise there is one fixed endpoint.
-/
namespace ZdoServer

open Octets ZdoNode

inductive Result where
  | argument | context | localState | truncated | tooLong | space | notRequest | notification
  deriving DecidableEq, Repr

inductive Kind where
  | reply | dropBroadcast | dropParent
  deriving DecidableEq, Repr

structure Local where
  descriptor : Descriptor
  address : UInt16
  profile : UInt16
  endpoint : UInt8

structure Rx where
  header : ApsFrame.Header
  broadcast : Bool

/-- What is said about a handled request, with the octets of a reply. -/
structure Info where
  clusterId : UInt16
  kind : Kind
  endpoint : UInt8
  sequence : UInt8
  status : UInt8
  consumed : UInt8
  response : Bytes
  deriving DecidableEq

def deviceAnnce : UInt16 := 0x0013
def parentAnnce : UInt16 := 0x001F
def updateNotify : UInt16 := 0x003B
def powerDescRequest : UInt16 := 0x0003
def simpleDescRequest : UInt16 := 0x0004
def activeEpRequest : UInt16 := 0x0005
def matchDescRequest : UInt16 := 0x0006
def invalidEp : UInt8 := 0x82
def notActive : UInt8 := 0x83
def bindRequest : UInt16 := 0x0021
def unbindRequest : UInt16 := 0x0022
def mgmtBindRequest : UInt16 := 0x0033
def mgmtLeaveRequest : UInt16 := 0x0034
def powerDescriptor : Bytes := [0x40, 0xC4]
def inputClusters : List UInt16 := [0x0000, 0x0001, 0x0002, 0x0003, 0x0402, 0x0405]
def device : UInt16 := 0xFFFF
def deviceVersion : UInt8 := 0
def descriptorMax : Nat := 26

/-- A simple descriptor of the table, without its length octet: endpoint, profile,
device, version and the input clusters. -/
abbrev SimpleDescriptor := Bytes

/-- The octets a reply is staged in. -/
def stagedSize (table : Option (List SimpleDescriptor)) : Nat := if table.isSome then 5 + descriptorMax + 1 else 25

def broadcastRequest (rx : Rx) : Bool := rx.broadcast || rx.header.deliveryMode == ApsFrame.deliveryBroadcast

/-- The request can come from a device the server answers. -/
def contextValid (rx : Rx) : Bool :=
  !(rx.header.type != 0 || rx.header.profileId != 0 || rx.header.destinationEndpoint != 0 ||
    rx.header.sourceEndpoint == 0xFF || rx.header.flags &&& ~~~ ApsFrame.ackRequest != 0 ||
    (rx.header.deliveryMode != 0 && rx.header.deliveryMode != ApsFrame.deliveryBroadcast) ||
    (rx.header.deliveryMode == ApsFrame.deliveryBroadcast && rx.header.flags != 0))

def localValid (l : Local) : Bool :=
  !(l.address == 0 || 0xFFF8 ≤ l.address || l.descriptor.logicalType != 2 || 0xF0 < l.endpoint ||
    (l.endpoint != 0 && l.profile == 0))

/-- Some cluster of the request's input list is one of the given ones. -/
def listed (body : Bytes) (finish : Nat) (clusters : List UInt16) : Bool :=
  (List.range ((finish - 6) / 2)).any fun i => clusters.contains (u16At body (6 + 2 * i))

/-- The input clusters of a table entry. -/
def SimpleDescriptor.clusters (d : SimpleDescriptor) : List UInt16 :=
  (List.range (byteAt d 6).toNat).map fun i => u16At d (7 + 2 * i)

/-- The endpoints that match a Match_Desc request. -/
def matching (table : Option (List SimpleDescriptor)) (l : Local) (body : Bytes) (finish : Nat) : List UInt8 :=
  let profile := u16At body 3
  match table with
  | some descriptors =>
    (descriptors.filter fun d =>
      (profile == 0xFFFF || u16At d 1 == profile) && listed body finish (SimpleDescriptor.clusters d)).map
      fun d => byteAt d 0
  | none =>
    if l.endpoint ≠ 0 ∧ (profile = l.profile ∨ profile = 0xFFFF) ∧ listed body finish inputClusters then [l.endpoint]
    else []

/-- The status, the reply and the octets consumed; `none` for a dropped broadcast. -/
abbrev Answer := UInt8 × Option Bytes × UInt8

/-- R22 2.4.4.2.4: an end device answers only for its own address. -/
def powerDesc (l : Local) (body : Bytes) : Except Result Answer :=
  if body.length < 3 then .error .truncated
  else if u16At body 1 ≠ l.address then
    .ok (invalidRequest, some [byteAt body 0, invalidRequest, byteAt body 1, byteAt body 2], 3)
  else .ok (success, some ([byteAt body 0, success, byteAt body 1, byteAt body 2] ++ powerDescriptor), 3)

/-- R22 2.4.4.2.7 steps 1-7 for an end device without children. -/
def matchDesc (table : Option (List SimpleDescriptor)) (l : Local) (body : Bytes) (broadcast : Bool) :
    Except Result Answer :=
  if body.length < 6 then .error .truncated
  else
    let finish := 6 + 2 * (byteAt body 5).toNat
    if body.length ≤ finish ∨ body.length < finish + 1 + 2 * (byteAt body finish).toNat then .error .truncated
    else
      let consumed := UInt8.ofNat (finish + 1 + 2 * (byteAt body finish).toNat)
      let address := u16At body 1
      if address ≠ l.address ∧ address < 0xFFFB then
        .ok (invalidRequest, if broadcast then none else some [byteAt body 0, invalidRequest, 0], consumed)
      else
        let endpoints := matching table l body finish
        .ok (success,
          if endpoints.isEmpty ∧ broadcast then none
          else some ([byteAt body 0, success, byteAt body 1, byteAt body 2, UInt8.ofNat endpoints.length] ++ endpoints),
          consumed)

/-- The fixed endpoint's simple descriptor with its length octet. -/
def fixedDescriptor (l : Local) : Bytes :=
  [20, l.endpoint] ++ put16 l.profile ++ put16 device ++ [deviceVersion, UInt8.ofNat inputClusters.length] ++
    inputClusters.flatMap put16 ++ [0]

/-- Active_EP and Simple_Desc requests. -/
def endpointDesc (table : Option (List SimpleDescriptor)) (l : Local) (body : Bytes) (simple : Bool) :
    Except Result Answer :=
  if body.length < (if simple then 4 else 3) then .error .truncated
  else
    let consumed : UInt8 := if simple then 4 else 3
    let answer (status : UInt8) (tail : Bytes) : Except Result Answer :=
      .ok (status, some ([byteAt body 0, status, byteAt body 1, byteAt body 2] ++ tail), consumed)
    if simple ∧ (byteAt body 3 = 0 ∨ byteAt body 3 = 0xFF) then answer invalidEp [0]
    else if u16At body 1 ≠ l.address then answer invalidRequest [0]
    else match table with
      | some descriptors =>
        if !simple then answer success (UInt8.ofNat descriptors.length :: descriptors.map fun d => byteAt d 0)
        else match descriptors.find? fun d => byteAt d 0 == byteAt body 3 with
          | none => answer notActive [0]
          | some d => if descriptorMax < d.length then answer notActive [0] else answer success (UInt8.ofNat d.length :: d)
      | none =>
        if !simple then answer success (if l.endpoint ≠ 0 then [1, l.endpoint] else [0])
        else if byteAt body 3 ≠ l.endpoint then answer notActive [0]
        else answer success (fixedDescriptor l)

/-- Node descriptor requests, and everything that is not supported. -/
def nodeDesc (table : Option (List SimpleDescriptor)) (l : Local) (cluster : UInt16) (body : Bytes) :
    Except Result Answer :=
  let reply (status : UInt8) (address : UInt16) (consumed : UInt8) : Except Result Answer :=
    match rspEncode ⟨l.descriptor, address, byteAt body 0, status, false, 0⟩ (stagedSize table) with
    | .error _ => .error .localState
    | .ok staged => .ok (status, some staged, consumed)
  if cluster = requestCluster then
    match reqDecode body with
    | .error _ => .error .truncated
    | .ok request => reply (if request.address ≠ l.address then invalidRequest else success) request.address request.consumed
  else reply notSupported l.address 1

/-- The answer to a request that is neither a notification nor a dropped broadcast. -/
def answer (table : Option (List SimpleDescriptor)) (l : Local) (cluster : UInt16) (broadcast : Bool) (body : Bytes) :
    Except Result Answer :=
  if cluster = powerDescRequest then powerDesc l body
  else if cluster = matchDescRequest then matchDesc table l body broadcast
  else if cluster = activeEpRequest then endpointDesc table l body false
  else if cluster = simpleDescRequest then endpointDesc table l body true
  else nodeDesc table l cluster body

/-- `zdo_srv_handle`. -/
def handle (table : Option (List SimpleDescriptor)) (l : Local) (rx : Rx) (body : Bytes) (capacity : Nat) :
    Except Result Info :=
  let cluster := rx.header.clusterId
  let broadcast := broadcastRequest rx
  let info (kind : Kind) : Info := ⟨0, kind, 0, byteAt body 0, 0, 1, []⟩
  if !contextValid rx then .error .context
  else if !localValid l then .error .localState
  else if maxBody < body.length then .error .tooLong
  else if body.length = 0 then .error .truncated
  else match rspEncode ⟨l.descriptor, l.address, byteAt body 0, success, false, 0⟩ (stagedSize table) with
    | .error _ => .error .localState
    | .ok _ =>
      if cluster &&& 0x8000 ≠ 0 then .error .notRequest
      else if cluster = deviceAnnce ∨ cluster = updateNotify then .error .notification
      else if cluster = parentAnnce then .ok (info .dropParent)
      else if broadcast ∧ cluster ≠ matchDescRequest then .ok (info .dropBroadcast)
      else
        match answer table l cluster broadcast body with
        | .error e => .error e
        | .ok (_, none, consumed) => .ok { info .dropBroadcast with consumed := consumed }
        | .ok (status, some staged, consumed) =>
          if capacity < staged.length then .error .space
          else .ok
            { clusterId := cluster ||| 0x8000, kind := .reply, endpoint := rx.header.sourceEndpoint
              sequence := byteAt body 0, status := status, consumed := consumed, response := staged }

/-- A reply goes to the response cluster of its request. -/
theorem handle_reply {table : Option (List SimpleDescriptor)} {l : Local} {rx : Rx} {body : Bytes} {capacity : Nat}
    {info : Info} (h : handle table l rx body capacity = .ok info) (hk : info.kind = .reply) :
    info.clusterId = rx.header.clusterId ||| 0x8000 := by
  unfold handle at h
  extract_lets cluster broadcast at h
  split at h
  · cases h
  split at h
  · cases h
  split at h
  · cases h
  split at h
  · cases h
  split at h
  · cases h
  split at h
  · cases h
  split at h
  · cases h
  split at h
  · cases h
    cases hk
  split at h
  · cases h
    cases hk
  split at h
  · cases h
  · cases h
    cases hk
  · split at h
    · cases h
    · cases h
      rfl

end ZdoServer
