import Cc2530Zigbee.Octets

/-!
# Node descriptors

The request and the response for a node descriptor, with their sequence number.
-/
namespace ZdoNode

open Octets

inductive Result where
  | invalidArgument | truncated | tooLong | space | invalidDescriptor | unsupportedStatus
  deriving DecidableEq, Repr

structure Descriptor where
  manufacturer : UInt16
  maxIncoming : UInt16
  maxOutgoing : UInt16
  logicalType : UInt8
  available : UInt8
  frequencyBand : UInt8
  macCapability : UInt8
  maxBuffer : UInt8
  serverFlags : UInt8
  stackRevision : UInt8
  descriptorCapability : UInt8
  deriving DecidableEq

/-- A zeroed descriptor. -/
def Descriptor.zero : Descriptor := ⟨0, 0, 0, 0, 0, 0, 0, 0, 0, 0, 0⟩

structure Request where
  address : UInt16
  sequence : UInt8
  consumed : UInt8

structure Response where
  descriptor : Descriptor
  address : UInt16
  sequence : UInt8
  status : UInt8
  hasAddress : Bool
  consumed : UInt8
  deriving DecidableEq

def requestCluster : UInt16 := 0x0002
def maxBody : Nat := 100

def success : UInt8 := 0x00
def invalidRequest : UInt8 := 0x80
def deviceNotFound : UInt8 := 0x81
def notSupported : UInt8 := 0x84
def noDescriptor : UInt8 := 0x89

/-- The octets of a response, or none for an unknown status. -/
def responseSize (status : UInt8) : Option Nat :=
  if status = success then some 17
  else if status = invalidRequest ∨ status = deviceNotFound ∨ status = noDescriptor then some 4
  else if status = notSupported then some 2
  else none

def descriptorValid (d : Descriptor) : Bool :=
  d.logicalType ≤ 2 && d.available ≤ 3 && d.frequencyBand &&& 0xE2 == 0 && d.macCapability &&& 0x30 == 0 &&
    d.maxBuffer ≤ 0x7F && d.maxIncoming ≤ 0x7FFF && d.maxOutgoing ≤ 0x7FFF && d.serverFlags ≤ 0x7F &&
    d.stackRevision ≤ 0x7F && d.descriptorCapability ≤ 3

def readDescriptor (p : Bytes) : Descriptor where
  logicalType := byteAt p 0 &&& 7
  available := (byteAt p 0 >>> 3) &&& 3
  frequencyBand := byteAt p 1 >>> 3
  macCapability := byteAt p 2
  manufacturer := u16At p 3
  maxBuffer := byteAt p 5
  maxIncoming := u16At p 6
  serverFlags := byteAt p 8 &&& 0x7F
  stackRevision := byteAt p 9 >>> 1
  maxOutgoing := u16At p 10
  descriptorCapability := byteAt p 12

def writeDescriptor (d : Descriptor) : Bytes :=
  [d.logicalType ||| (d.available <<< 3), d.frequencyBand <<< 3, d.macCapability] ++ put16 d.manufacturer ++
    [d.maxBuffer] ++ put16 d.maxIncoming ++ put16 (d.serverFlags.toUInt16 ||| (d.stackRevision.toUInt16 <<< 9)) ++
    put16 d.maxOutgoing ++ [d.descriptorCapability]

/-- `zdo_node_req_decode`. -/
def reqDecode (body : Bytes) : Except Result Request :=
  if maxBody < body.length then .error .tooLong
  else if body.length < 3 then .error .truncated
  else .ok ⟨u16At body 1, byteAt body 0, 3⟩

/-- `zdo_node_rsp_decode`. -/
def rspDecode (body : Bytes) : Except Result Response :=
  if maxBody < body.length then .error .tooLong
  else if body.length < 2 then .error .truncated
  else match responseSize (byteAt body 1) with
    | none => .error .unsupportedStatus
    | some needed =>
      if body.length < needed then .error .truncated
      else
        let candidate : Response :=
          { descriptor := .zero, address := if 4 ≤ needed then u16At body 2 else 0, sequence := byteAt body 0
            status := byteAt body 1, hasAddress := 4 ≤ needed, consumed := UInt8.ofNat needed }
        if candidate.status ≠ success then .ok candidate
        -- Reserved bits are checked before the descriptor drops them.
        else if byteAt body 4 &&& 0xE0 ≠ 0 ∨ byteAt body 5 &&& 7 ≠ 0 ∨ byteAt body 12 &&& 0x80 ≠ 0 ∨
            byteAt body 13 &&& 1 ≠ 0 then .error .invalidDescriptor
        else
          let d := readDescriptor (body.drop 4)
          if !descriptorValid d then .error .invalidDescriptor else .ok { candidate with descriptor := d }

/-- `zdo_node_rsp_encode`. -/
def rspEncode (response : Response) (capacity : Nat) : Except Result Bytes :=
  match responseSize response.status with
  | none => .error .unsupportedStatus
  | some needed =>
    if response.status = success ∧ !descriptorValid response.descriptor then .error .invalidDescriptor
    else if capacity < needed then .error .space
    else .ok ([response.sequence, response.status] ++ (if 4 ≤ needed then put16 response.address else []) ++
      if response.status = success then writeDescriptor response.descriptor else [])

end ZdoNode
