import Cc2530Zigbee.Octets

/-!
# The APS data frame codec
-/
namespace ApsFrame

open Octets

inductive Codec where
  | ok | invalidArgument | truncated | tooLong | bufferTooSmall | unsupportedType | unsupportedDelivery
  | unsupportedSecurity | unsupportedLayout | invalidHeader
  deriving DecidableEq, Repr

structure Header where
  type : UInt8
  deliveryMode : UInt8
  flags : UInt8
  destinationEndpoint : UInt8
  clusterId : UInt16
  profileId : UInt16
  sourceEndpoint : UInt8
  counter : UInt8
  deriving DecidableEq

/-- A zeroed header. -/
def Header.zero : Header := ⟨0, 0, 0, 0, 0, 0, 0, 0⟩

structure Info where
  header : Header
  payloadOffset : Nat
  payloadLength : Nat

def maxBody : Nat := 108
def headerSize : Nat := 8

def ackFormat : UInt8 := 0x10
def security : UInt8 := 0x20
def ackRequest : UInt8 := 0x40
def extendedHeader : UInt8 := 0x80

def deliveryBroadcast : UInt8 := 2

/-- A flag is set. -/
def has (flags flag : UInt8) : Bool := flags &&& flag != 0

def validateHeader (h : Header) : Codec :=
  if h.type ≠ 0 then .unsupportedType
  else if has h.flags security then .unsupportedSecurity
  else if has h.flags (ackFormat ||| extendedHeader) then .unsupportedLayout
  else if has h.flags (~~~ ackRequest) then .invalidHeader
  else if h.deliveryMode = 1 ∨ 3 < h.deliveryMode then .invalidHeader
  else if h.deliveryMode ≠ 0 then .unsupportedDelivery
  else if h.sourceEndpoint = 0xFF then .invalidHeader
  else .ok

/-- `aps_frame_decode`: only the header octets of the body are read. -/
def decode (body : Bytes) (length : Nat) : Except Codec Info :=
  if maxBody < length then .error .tooLong
  else if length = 0 then .error .truncated
  else if byteAt body 0 &&& 3 ≠ 0 then .error .unsupportedType
  else if length < headerSize then .error .truncated
  else
    let h : Header := {
      type := byteAt body 0 &&& 3
      deliveryMode := (byteAt body 0 >>> 2) &&& 3
      flags := byteAt body 0 &&& 0xF0
      destinationEndpoint := byteAt body 1
      clusterId := u16At body 2
      profileId := u16At body 4
      sourceEndpoint := byteAt body 6
      counter := byteAt body 7 }
    match validateHeader h with
    | .ok => .ok ⟨h, headerSize, length - headerSize⟩
    | e => .error e

def emitFrame (h : Header) (payload : Bytes) : Bytes :=
  [h.type ||| (h.deliveryMode <<< 2) ||| h.flags, h.destinationEndpoint] ++ put16 h.clusterId ++
  put16 h.profileId ++ [h.sourceEndpoint, h.counter] ++ payload

/-- `aps_frame_encode`. -/
def encode (h : Header) (payload : Bytes) (capacity : Nat) : Except Codec Bytes :=
  match validateHeader h with
  | .ok =>
    if maxBody - headerSize < payload.length then .error .tooLong
    else if capacity < headerSize + payload.length then .error .bufferTooSmall
    else .ok (emitFrame h payload)
  | e => .error e

end ApsFrame
