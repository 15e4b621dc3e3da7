import Cc2530Zigbee.Octets

/-!
# The MAC frame codec

Unsecured beacons, data frames, acknowledgments and commands without the PHY
length and the checksum. Reception has two profiles; the second also admits an
Association Response with both PAN identifiers. Offsets and lengths never exceed
125 and are natural numbers.
-/
namespace MacFrame

open Octets

/-- Address octets are in wire order. A short address uses the first two. -/
abbrev Address := Vector UInt8 8

inductive Codec where
  | ok | invalidArgument | truncated | tooLong | bufferTooSmall | unsupportedType | unsupportedVersion
  | unsupportedSecurity | unsupportedAddressing | invalidHeader | unsupportedCommand | invalidCommand
  | unsupportedBeacon | invalidBeacon
  deriving DecidableEq, Repr

structure Header where
  type : UInt8
  version : UInt8
  flags : UInt8
  sequence : UInt8
  destinationMode : UInt8
  sourceMode : UInt8
  destinationPan : UInt16
  sourcePan : UInt16
  destination : Address
  source : Address
  deriving DecidableEq

structure Info where
  header : Header
  payloadOffset : Nat
  payloadLength : Nat
  deriving DecidableEq

structure Command where
  identifier : UInt8
  capability : UInt8
  shortAddress : UInt16
  status : UInt8
  reason : UInt8
  deriving DecidableEq

structure BeaconInfo where
  superframeSpecification : UInt16
  gtsPermit : UInt8
  shortCount : Nat
  extendedCount : Nat
  shortOffset : Nat
  extendedOffset : Nat
  payloadOffset : Nat
  payloadLength : Nat
  deriving DecidableEq

def maxBody : Nat := 125
def commandMaxPayload : Nat := 4
def beaconMaxPayload : Nat := 52
def beaconMaxPending : Nat := 7

/-- `MAC_RX_IEEE2006`, `MAC_RX_R22_ASSOCIATION_RESPONSE`. -/
def rxIeee2006 : UInt8 := 0
def rxR22AssociationResponse : UInt8 := 1

def beacon : UInt8 := 0
def data : UInt8 := 1
def ack : UInt8 := 2
def command : UInt8 := 3

def addressNone : UInt8 := 0
def addressShort : UInt8 := 2
def addressExtended : UInt8 := 3

def security : UInt8 := 0x08
def pending : UInt8 := 0x10
def ackRequest : UInt8 := 0x20
def panCompression : UInt8 := 0x40

def associationRequest : UInt8 := 0x01
def associationResponse : UInt8 := 0x02
def disassociation : UInt8 := 0x03
def dataRequest : UInt8 := 0x04
def beaconRequest : UInt8 := 0x07

/-- A flag is set. -/
def has (flags flag : UInt8) : Bool := flags &&& flag != 0

theorem at0 : 0 < 8 := by decide
theorem at1 : 1 < 8 := by decide

/-- A short address. -/
def short (a : Address) : UInt16 := le16 a[0] a[1]

/-! Commands. -/

def commandSize (identifier : UInt8) : Nat :=
  if identifier = associationRequest ∨ identifier = disassociation then 2
  else if identifier = associationResponse then 4
  else if identifier = dataRequest ∨ identifier = beaconRequest then 1
  else 0

def commandPolicy (c : Command) : Codec :=
  if c.identifier = associationRequest then
    if has c.capability 0x30 then .invalidCommand else .ok
  else if c.identifier = associationResponse then
    if 2 < c.status ∨ (c.status = 0 ∧ c.shortAddress = 0xFFFF) ∨ (c.status ≠ 0 ∧ c.shortAddress ≠ 0xFFFF) then
      .invalidCommand
    else .ok
  else if c.identifier = disassociation then
    if c.reason ≠ 1 ∧ c.reason ≠ 2 then .invalidCommand else .ok
  else if c.identifier = dataRequest ∨ c.identifier = beaconRequest then .ok
  else .unsupportedCommand

/-- `mac_command_decode`. -/
def commandDecode (payload : Bytes) : Except Codec Command :=
  if commandMaxPayload < payload.length then .error .tooLong
  else if payload.length = 0 then .error .truncated
  else
    let size := commandSize (byteAt payload 0)
    if size = 0 then .error .unsupportedCommand
    else if payload.length < size then .error .truncated
    else if payload.length ≠ size then .error .invalidCommand
    else
      let identifier := byteAt payload 0
      let response := identifier = associationResponse
      let candidate : Command := {
        identifier := identifier
        capability := if identifier = associationRequest then byteAt payload 1 else 0
        shortAddress := if response then u16At payload 1 else 0
        status := if response then byteAt payload 3 else 0
        reason := if identifier = disassociation then byteAt payload 1 else 0 }
      match commandPolicy candidate with
      | .ok => .ok candidate
      | e => .error e

/-! Beacons. -/

/-- A pending short address is the broadcast address. -/
def broadcastPending (payload : Bytes) (count : Nat) : Bool :=
  (List.range count).any fun k => u16At payload (4 + 2 * k) == 0xFFFF

def beaconFields (payload : Bytes) : Except Codec BeaconInfo :=
  if 4 + 8 * beaconMaxPending + beaconMaxPayload < payload.length then .error .tooLong
  else if payload.length < 4 then .error .truncated
  else if has (byteAt payload 1) 0x20 ∨ has (byteAt payload 2) 0x78 then .error .invalidBeacon
  else if has (byteAt payload 2) 7 then .error .unsupportedBeacon
  else if has (byteAt payload 3) 0x88 then .error .invalidBeacon
  else
    let shortCount := (byteAt payload 3 &&& 7).toNat
    let extendedCount := ((byteAt payload 3 >>> 4) &&& 7).toNat
    if beaconMaxPending < shortCount + extendedCount then .error .invalidBeacon
    else
      let extendedOffset := 4 + 2 * shortCount
      let payloadOffset := extendedOffset + 8 * extendedCount
      if payload.length < payloadOffset then .error .truncated
      else if payloadOffset + beaconMaxPayload < payload.length then .error .tooLong
      else if broadcastPending payload shortCount then .error .invalidBeacon
      else .ok {
        superframeSpecification := u16At payload 0
        gtsPermit := byteAt payload 2 >>> 7
        shortCount := shortCount
        extendedCount := extendedCount
        shortOffset := 4
        extendedOffset := extendedOffset
        payloadOffset := payloadOffset
        payloadLength := payload.length - payloadOffset }

/-! Headers. -/

/-- The sizes a header asks for. -/
structure Shape where
  destinationSize : Nat
  sourceSize : Nat
  headerSize : Nat
  deriving DecidableEq

def headerShape (h : Header) : Except Codec Shape :=
  if 1 < h.version ∨ ((h.type = beacon ∨ h.type = ack ∨ h.type = command) ∧ h.version ≠ 0) then
    .error .unsupportedVersion
  else if has h.flags security then .error .unsupportedSecurity
  else if has h.flags (~~~ (pending ||| ackRequest ||| panCompression)) then .error .invalidHeader
  else if h.type = beacon then
    if h.destinationMode ≠ addressNone ∨ (h.sourceMode ≠ addressShort ∧ h.sourceMode ≠ addressExtended) then
      .error .unsupportedAddressing
    else if has h.flags (ackRequest ||| panCompression) then .error .invalidHeader
    else
      let source := if h.sourceMode = addressShort then 2 else 8
      .ok ⟨0, source, 5 + source⟩
  else if h.type = ack then
    if h.destinationMode ≠ addressNone ∨ h.sourceMode ≠ addressNone ∨
        has h.flags (ackRequest ||| panCompression) = true then .error .invalidHeader
    else .ok ⟨0, 0, 3⟩
  else if h.type ≠ data ∧ h.type ≠ command then .error .unsupportedType
  else if addressExtended < h.destinationMode ∨ h.destinationMode = 1 ∨ addressExtended < h.sourceMode ∨
      h.sourceMode = 1 then .error .unsupportedAddressing
  else if (h.destinationMode = addressNone ∨ h.sourceMode = addressNone) ∧
      (h.type = data ∨ has h.flags panCompression = true ∨ h.destinationMode = h.sourceMode) then
    .error .unsupportedAddressing
  else
    let destination := if h.destinationMode = addressNone then 0 else if h.destinationMode = addressShort then 2 else 8
    let source := if h.sourceMode = addressNone then 0 else if h.sourceMode = addressShort then 2 else 8
    .ok ⟨destination, source, 3 + destination + source + (if destination ≠ 0 then 2 else 0) +
      (if source ≠ 0 ∧ has h.flags panCompression = false then 2 else 0)⟩

def addressPolicy (h : Header) : Codec :=
  if h.type = ack then .ok
  else if has h.flags panCompression = true ∧ h.sourcePan ≠ h.destinationPan then .invalidHeader
  else if h.sourceMode = addressShort ∧ short h.source = 0xFFFF then .invalidHeader
  else if h.type = beacon ∧ (h.sourcePan = 0xFFFF ∨
      (h.sourceMode = addressShort ∧ short h.source = 0xFFFE)) then .invalidHeader
  else if has h.flags ackRequest = true ∧ h.destinationMode = addressShort ∧ short h.destination = 0xFFFF then
    .invalidHeader
  else .ok

/-- The address rules of a command. Mode 0 is reception, 1 transmission, 2 the
reception of uncompressed Association Responses. -/
def commandHeaderPolicy (h : Header) (payload : Bytes) (mode : UInt8) : Codec :=
  let compressed := has h.flags panCompression
  if payload.length = 0 then .truncated
  else match commandDecode payload with
    | .error e => e
    | .ok c =>
      if mode = 1 ∧ has h.flags pending = true then .invalidHeader
      else if c.identifier = beaconRequest then
        if h.destinationMode ≠ addressShort ∨ h.sourceMode ≠ addressNone ∨ h.destinationPan ≠ 0xFFFF ∨
            short h.destination ≠ 0xFFFF ∨ has h.flags ackRequest = true then .invalidHeader
        else .ok
      else if has h.flags ackRequest = false ∨ (h.destinationMode = addressShort ∧ 0xFFFE ≤ short h.destination) ∨
          (h.sourceMode = addressShort ∧ 0xFFFE ≤ short h.source) then .invalidHeader
      else if c.identifier = dataRequest then
        if h.sourceMode = addressNone ∨ compressed ≠ decide (h.destinationMode ≠ addressNone) then .invalidHeader
        else .ok
      else if h.sourceMode ≠ addressExtended ∨ h.destinationMode = addressNone then .invalidHeader
      else if c.identifier = associationRequest then
        if compressed = true ∨ h.sourcePan ≠ 0xFFFF then .invalidHeader else .ok
      else if (c.identifier = associationResponse ∧ h.destinationMode ≠ addressExtended) ∨
          (compressed = false ∧ ¬ (mode = 2 ∧ c.identifier = associationResponse)) then .invalidHeader
      else .ok

/-! Frames. -/

/-- An address of `size` octets on the wire, the rest zero. -/
def addressAt (body : Bytes) (i size : Nat) : Address :=
  Vector.ofFn fun k => if k.val < size then byteAt body (i + k) else 0

/-- The fields of the control octets and the sequence number. -/
def control (body : Bytes) : Header where
  type := byteAt body 0 &&& 7
  version := (byteAt body 1 >>> 4) &&& 3
  flags := byteAt body 0 &&& 0xF8
  sequence := byteAt body 2
  destinationMode := (byteAt body 1 >>> 2) &&& 3
  sourceMode := (byteAt body 1 >>> 6) &&& 3
  destinationPan := 0
  sourcePan := 0
  destination := Vector.replicate 8 0
  source := Vector.replicate 8 0

/-- Where the source fields begin. -/
def sourceStart (s : Shape) : Nat := if s.destinationSize ≠ 0 then 5 + s.destinationSize else 3

/-- The addressing fields behind the control octets. -/
def addresses (h : Header) (s : Shape) (body : Bytes) : Header :=
  let destinationPan := if s.destinationSize ≠ 0 then u16At body 3 else 0
  let compressed := has h.flags panCompression
  let start := sourceStart s
  { h with
    destinationPan := destinationPan
    destination := if s.destinationSize ≠ 0 then addressAt body 5 s.destinationSize else h.destination
    sourcePan := if s.sourceSize = 0 then 0 else if compressed then destinationPan else u16At body start
    source := if s.sourceSize = 0 then h.source
      else addressAt body (if compressed then start else start + 2) s.sourceSize }

/-- What a frame of a type carries. -/
def payloadPolicy (h : Header) (payload : Bytes) (mode : UInt8) : Codec :=
  if h.type = command then commandHeaderPolicy h payload mode
  else if h.type = beacon then
    match beaconFields payload with
    | .error e => e
    | .ok _ => .ok
  else .ok

/-- `mac_frame_decode_profile`. -/
def decodeProfile (body : Bytes) (profile : UInt8) : Except Codec Info :=
  if rxR22AssociationResponse < profile then .error .invalidArgument
  else if maxBody < body.length then .error .tooLong
  else if body.length < 3 then .error .truncated
  else if has (byteAt body 1) 3 then .error .invalidHeader
  else match headerShape (control body) with
    | .error e => .error e
    | .ok s =>
      if body.length < s.headerSize then .error .truncated
      else if (control body).type = ack ∧ body.length ≠ s.headerSize then .error .invalidHeader
      else
        let h := addresses (control body) s body
        match addressPolicy h with
        | .ok => match payloadPolicy h (body.drop s.headerSize) (profile <<< 1) with
          | .ok => .ok ⟨h, s.headerSize, body.length - s.headerSize⟩
          | e => .error e
        | e => .error e

/-- `mac_frame_decode`. -/
def decode (body : Bytes) : Except Codec Info := decodeProfile body rxIeee2006

def emitFrame (h : Header) (s : Shape) (payload : Bytes) : Bytes :=
  [h.type ||| h.flags, (h.destinationMode <<< 2) ||| (h.version <<< 4) ||| (h.sourceMode <<< 6), h.sequence] ++
  (if s.destinationSize ≠ 0 then put16 h.destinationPan ++ h.destination.toList.take s.destinationSize else []) ++
  (if s.sourceSize ≠ 0 then (if has h.flags panCompression then [] else put16 h.sourcePan) ++
    h.source.toList.take s.sourceSize else []) ++ payload

/-- `mac_frame_encode`. -/
def encode (h : Header) (payload : Bytes) (capacity : Nat) : Except Codec Bytes :=
  match headerShape h with
  | .error e => .error e
  | .ok s => match addressPolicy h with
    | .ok =>
      if h.type = ack ∧ payload.length ≠ 0 then .error .invalidHeader
      else if maxBody - s.headerSize < payload.length then .error .tooLong
      else match payloadPolicy h payload 1 with
        | .ok =>
          if capacity < s.headerSize + payload.length then .error .bufferTooSmall
          else .ok (emitFrame h s payload)
        | e => .error e
    | e => .error e

/-! The calls, with the objects of their caller. -/

/-- A decode writes its result only when it succeeds. -/
def decodeInto (body : Bytes) (result : Info) (profile : UInt8) : Codec × Info :=
  match decodeProfile body profile with
  | .error e => (e, result)
  | .ok info => (.ok, info)

/-- An encode writes the front of the buffer and the length only when it succeeds. -/
def encodeInto (h : Header) (payload body : Bytes) (length : UInt8) : Codec × Bytes × UInt8 :=
  match encode h payload body.length with
  | .error e => (e, body, length)
  | .ok frame => (.ok, frame ++ body.drop frame.length, UInt8.ofNat frame.length)

end MacFrame
