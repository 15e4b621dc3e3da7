import Cc2530Zigbee.Octets

/-!
# The NWK frame codec

Data-frame headers of protocol version 2 with optional IEEE addresses. Offsets
and lengths never exceed 116 and are natural numbers.
-/
namespace NwkFrame

open Octets

abbrev Ieee := Vector UInt8 8

inductive Codec where
  | ok | invalidArgument | truncated | tooLong | bufferTooSmall | unsupportedType | unsupportedVersion
  | unsupportedSecurity | unsupportedLayout | invalidHeader
  deriving DecidableEq, Repr

structure Header where
  type : UInt8
  version : UInt8
  discoverRoute : UInt8
  flags : UInt16
  destination : UInt16
  source : UInt16
  radius : UInt8
  sequence : UInt8
  destinationIeee : Ieee
  sourceIeee : Ieee
  deriving DecidableEq

structure Info where
  header : Header
  payloadOffset : Nat
  payloadLength : Nat

def maxBody : Nat := 116
def minHeader : Nat := 8

def multicast : UInt16 := 0x0100
def security : UInt16 := 0x0200
def sourceRoute : UInt16 := 0x0400
def destinationIeeeFlag : UInt16 := 0x0800
def sourceIeeeFlag : UInt16 := 0x1000
def endDeviceInitiator : UInt16 := 0x2000

/-- A flag is set. -/
def has (flags flag : UInt16) : Bool := flags &&& flag != 0

def headerSize (flags : UInt16) : Nat :=
  minHeader + (if has flags destinationIeeeFlag then 8 else 0) + (if has flags sourceIeeeFlag then 8 else 0)

def headerShape (h : Header) : Except Codec Nat :=
  if h.type ≠ 0 then .error .unsupportedType
  else if h.version ≠ 2 then .error .unsupportedVersion
  else if has h.flags security then .error .unsupportedSecurity
  else if has h.flags (multicast ||| sourceRoute) then .error .unsupportedLayout
  else if has h.flags (~~~ (destinationIeeeFlag ||| sourceIeeeFlag ||| endDeviceInitiator)) then
    .error .invalidHeader
  else if 1 < h.discoverRoute ∨ 0xFFF8 ≤ h.source then .error .invalidHeader
  else if 0xFFF8 ≤ h.destination ∧ (h.destination < 0xFFFB ∨ h.destination = 0xFFFE ∨
      h.discoverRoute ≠ 0 ∨ has h.flags destinationIeeeFlag = true) then .error .invalidHeader
  else .ok (headerSize h.flags)

/-- The header fields before their shape is checked. -/
def candidate (body : Bytes) : Header :=
  let control := u16At body 0
  let discoverRoute := ((control >>> 6) &&& 3).toUInt8
  let destination := u16At body 2
  { type := (control &&& 3).toUInt8
    version := ((control >>> 2) &&& 15).toUInt8
    discoverRoute := if discoverRoute = 2 ∧ destination < 0xFFF8 then 1 else discoverRoute
    flags := control &&& 0xFF00
    destination := destination
    source := u16At body 4
    radius := byteAt body 6
    sequence := byteAt body 7
    destinationIeee := Vector.replicate 8 0
    sourceIeee := Vector.replicate 8 0 }

/-- `nwk_frame_decode`: only the header octets of the body are read. -/
def decode (body : Bytes) (length : Nat) : Except Codec Info :=
  if maxBody < length then .error .tooLong
  else if length < minHeader then .error .truncated
  else
    let h := candidate body
    match headerShape h with
    | .error e => .error e
    | .ok size =>
      if length < size then .error .truncated
      else
        let destination := has h.flags destinationIeeeFlag
        .ok {
          header := { h with
            destinationIeee := if destination then fieldAt body minHeader 8 else h.destinationIeee
            sourceIeee := if has h.flags sourceIeeeFlag then
              fieldAt body (minHeader + if destination then 8 else 0) 8 else h.sourceIeee }
          payloadOffset := size
          payloadLength := length - size }

def emitFrame (h : Header) (payload : Bytes) : Bytes :=
  [h.type ||| (h.version <<< 2) ||| (h.discoverRoute <<< 6), (h.flags >>> 8).toUInt8] ++
  put16 h.destination ++ put16 h.source ++ [h.radius, h.sequence] ++
  (if has h.flags destinationIeeeFlag then h.destinationIeee.toList else []) ++
  (if has h.flags sourceIeeeFlag then h.sourceIeee.toList else []) ++ payload

/-- `nwk_frame_encode`. -/
def encode (h : Header) (payload : Bytes) (capacity : Nat) : Except Codec Bytes :=
  match headerShape h with
  | .error e => .error e
  | .ok size =>
    if maxBody - size < payload.length then .error .tooLong
    else if capacity < size + payload.length then .error .bufferTooSmall
    else .ok (emitFrame h payload)

theorem emitFrame_length (h : Header) (payload : Bytes) :
    (emitFrame h payload).length = headerSize h.flags + payload.length := by
  unfold emitFrame headerSize minHeader
  split <;> split <;> simp [put16] <;> omega

theorem headerShape_ok {h : Header} {size : Nat} (hs : headerShape h = .ok size) :
    size = headerSize h.flags := by
  unfold headerShape at hs
  repeat' split at hs
  all_goals cases hs
  rfl

end NwkFrame
