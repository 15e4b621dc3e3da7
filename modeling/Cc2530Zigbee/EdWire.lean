import Cc2530Zigbee.NwkFrame
import Cc2530Zigbee.ApsFrame
import Cc2530Zigbee.KeyHash

/-!
# The end-device wire format

NWK data and command frames, APS data, command and acknowledgment frames, and
their level-5 protection. The header readers normalize a copy of the header and
use the strict codecs.
-/
namespace EdWire

open Octets NwkFrame CcmStar

/-- How a call can fail. -/
inductive Result where
  | argument | length | header | level | aux | counter | selector | source | space | aes | auth | ccm
  deriving DecidableEq, Repr

def payloadMax : Nat := 82

/-! The octets of a payload that are read by index. -/

theorem at0 : 0 < 82 := by decide
theorem at1 : 1 < 82 := by decide
theorem at2 : 2 < 82 := by decide
theorem at3 : 3 < 82 := by decide
theorem at18 : 18 < 82 := by decide

def nwkCommand : UInt8 := 1
def apsCommand : UInt8 := 1
def apsAck : UInt8 := 2

structure Packet where
  nwk : NwkFrame.Header
  aps : ApsFrame.Header
  length : UInt8
  payload : Vector UInt8 82
  deriving DecidableEq

/-- A field of a packet's payload buffer. -/
def Packet.field (p : Packet) (i n : Nat) : Vector UInt8 n := fieldAt p.payload.toList i n

def readNwk (frame : Bytes) : Except Result NwkFrame.Info :=
  if frame.length < 8 ∨ NwkFrame.maxBody < frame.length then .error .length
  else
    let type := byteAt frame 0 &&& 3
    if nwkCommand < type then .error .header
    else
      let h := 8 + (if byteAt frame 1 &&& 8 ≠ 0 then 8 else 0) + (if byteAt frame 1 &&& 16 ≠ 0 then 8 else 0)
      if frame.length < h then .error .length
      else
        let copy := (byteAt frame 0 &&& 0xFC) :: (byteAt frame 1 &&& ~~~ 2) :: (frame.take h).drop 2
        match NwkFrame.decode copy frame.length with
        | .error _ => .error .header
        | .ok info => .ok { info with header := { info.header with
            type := type, flags := info.header.flags ||| ((byteAt frame 1 &&& 2).toUInt16 <<< 8) } }

/-- An APS frame whose header is a control octet and a counter. -/
def shortHeader (type flags : UInt8) : Bool :=
  type == apsCommand || (type == apsAck && ApsFrame.has flags ApsFrame.ackFormat)

def readAps (frame : Bytes) : Except Result ApsFrame.Info :=
  if frame.length < 2 ∨ ApsFrame.maxBody < frame.length then .error .length
  else
    let control := byteAt frame 0
    let type := control &&& 3
    let delivery := (control >>> 2) &&& 3
    let flags := control &&& 0xF0
    if apsAck < type ∨ (delivery ≠ 0 ∧ delivery ≠ ApsFrame.deliveryBroadcast) ∨
        ApsFrame.has flags ApsFrame.extendedHeader = true ∨ (type ≠ 0 ∧ delivery ≠ 0) ∨
        (type ≠ apsAck ∧ ApsFrame.has flags ApsFrame.ackFormat = true) ∨
        ((type = apsAck ∨ delivery ≠ 0) ∧ ApsFrame.has flags ApsFrame.ackRequest = true) then .error .header
    else
      let publish (h : ApsFrame.Header) (offset : Nat) : Except Result ApsFrame.Info :=
        .ok ⟨{ h with type := type, deliveryMode := delivery, flags := flags }, offset, frame.length - offset⟩
      if shortHeader type flags then publish { ApsFrame.Header.zero with counter := byteAt frame 1 } 2
      else if frame.length < 8 then .error .length
      else match ApsFrame.decode ((control &&& ApsFrame.ackRequest) :: (frame.take 8).drop 1) frame.length with
        | .error _ => .error .header
        | .ok info => publish info.header info.payloadOffset

/-- The payload buffer of a decoded packet. -/
def buffer (frame : Bytes) (offset size : Nat) : Vector UInt8 82 :=
  Vector.ofFn fun k => if k.val < size then byteAt frame (offset + k) else 0

/-- `ed_wire_decode`. -/
def decode (frame : Bytes) : Except Result Packet :=
  match readNwk frame with
  | .error e => .error e
  | .ok nwk =>
    if has nwk.header.flags NwkFrame.security then .error .header
    else
      let publish (aps : ApsFrame.Header) (offset size : Nat) : Except Result Packet :=
        if payloadMax < size then .error .length
        else .ok ⟨nwk.header, aps, UInt8.ofNat size, buffer frame offset size⟩
      if nwk.header.type = 0 then
        match readAps (frame.drop nwk.payloadOffset) with
        | .error e => .error e
        | .ok aps =>
          if ApsFrame.has aps.header.flags ApsFrame.security then .error .header
          else if aps.header.type = apsAck ∧ aps.payloadLength ≠ 0 then .error .length
          else if aps.header.type = apsCommand ∧ aps.payloadLength = 0 then .error .length
          else publish aps.header (nwk.payloadOffset + aps.payloadOffset) aps.payloadLength
      else if nwk.payloadLength = 0 then .error .length
      else publish ApsFrame.Header.zero nwk.payloadOffset nwk.payloadLength

/-- The body of an APS packet before the NWK header goes in front. -/
def encodeAps (p : Packet) : Except Result Bytes :=
  let control := p.aps.type ||| (p.aps.deliveryMode <<< 2) ||| p.aps.flags
  let payload := p.payload.toList.take p.length.toNat
  let body := if shortHeader p.aps.type p.aps.flags then some (control :: p.aps.counter :: payload)
    else match ApsFrame.encode { p.aps with
        type := 0, deliveryMode := 0, flags := p.aps.flags &&& ApsFrame.ackRequest } payload 116 with
      | .error _ => none
      | .ok encoded => some (control :: encoded.drop 1)
  match body with
  | none => .error .header
  | some body =>
    match readAps body with
    | .error _ => .error .header
    | .ok _ =>
      if (p.aps.type = apsAck ∧ p.length ≠ 0) ∨ (p.aps.type = apsCommand ∧ p.length = 0) then .error .header
      else .ok body

/-- `ed_wire_encode`. -/
def encode (p : Packet) (capacity : Nat) : Except Result Bytes :=
  if payloadMax < p.length.toNat ∨ nwkCommand < p.nwk.type ∨ has p.nwk.flags NwkFrame.security = true ∨
      ApsFrame.has p.aps.flags ApsFrame.security = true then .error .argument
  else if p.nwk.type = 0 ∧ (apsAck < p.aps.type ∨ 3 < p.aps.deliveryMode ∨ p.aps.flags &&& 0x0F ≠ 0) then
    .error .argument
  else
    let body := if p.nwk.type ≠ 0 then
        if p.length = 0 then .error .length else .ok (p.payload.toList.take p.length.toNat)
      else encodeAps p
    match body with
    | .error e => .error e
    | .ok body =>
      match NwkFrame.encode { p.nwk with type := 0 } body NwkFrame.maxBody with
      | .error _ => .error .header
      | .ok frame =>
        if capacity < frame.length then .error .space
        else .ok (frame.modifyHead (· ||| p.nwk.type))

/-! Protection. -/

/-- `ZIGBEE_SECURITY_NWK`, `ZIGBEE_SECURITY_APS`. -/
inductive Layer where
  | nwk | aps
  deriving DecidableEq, Repr

structure Key where
  key : Block
  source : Ieee
  counter : UInt32
  level : UInt8
  keyIdentifier : UInt8
  keySequence : UInt8
  extendedNonce : UInt8
  limits : Limits

structure Meta where
  counter : UInt32
  source : Ieee
  level : UInt8
  keyIdentifier : UInt8
  keySequence : UInt8
  extendedNonce : UInt8
  headerLength : Nat
  auxiliaryLength : Nat
  payloadLength : Nat

/-- The octet with a layer's security bit, and the bit. -/
def securityIndex : Layer → Nat
  | .nwk => 1
  | .aps => 0

def securityBit : Layer → UInt8
  | .nwk => 2
  | .aps => ApsFrame.security

/-- The size of a layer's header, and the APS frame type. -/
def header (layer : Layer) (frame : Bytes) : Except Result (Nat × UInt8) :=
  match layer with
  | .nwk => match readNwk frame with
    | .error e => .error e
    | .ok info => .ok (info.payloadOffset, 0)
  | .aps => match readAps frame with
    | .error e => .error e
    | .ok info => .ok (info.payloadOffset, info.header.type)

/-- `ed_wire_inspect`, with the APS frame type for the caller that goes on. -/
def inspect (layer : Layer) (frame : Bytes) : Except Result (Meta × UInt8) :=
  match header layer frame with
  | .error e => .error e
  | .ok (h, type) =>
    if byteAt frame (securityIndex layer) &&& securityBit layer = 0 then .error .header
    else if frame.length < h + 5 then .error .length
    else
      let c := byteAt frame h
      let extended := c &&& 0x20 ≠ 0
      let identifier := (c >>> 3) &&& 3
      let a := 5 + (if extended then 8 else 0) + (if identifier = 1 then 1 else 0)
      if c &&& 0xC0 ≠ 0 ∨ frame.length < h + a + 4 then .error .length
      else
        let m : Meta := {
          counter := u32At frame (h + 1)
          source := if extended then fieldAt frame (h + 5) 8 else Vector.replicate 8 0
          level := 5
          keyIdentifier := identifier
          keySequence := if identifier = 1 then byteAt frame (h + a - 1) else 0
          extendedNonce := (c >>> 5) &&& 1
          headerLength := h
          auxiliaryLength := a
          payloadLength := frame.length - h - a - 4 }
        if m.counter = 0xFFFFFFFF then .error .counter
        else if layer = .nwk ∧ (identifier ≠ 1 ∨ ¬ extended) then .error .selector
        else if layer = .aps ∧ (identifier = 1 ∨ ¬ extended ∨ (type ≠ apsCommand ∧ identifier ≠ 0)) then
          .error .selector
        else .ok (m, type)

/-- Replace one octet. -/
def put (frame : Bytes) (i : Nat) (v : UInt8) : Bytes := frame.set i v

/-- The nonce of a protected frame with its header at `h`. -/
def nonce (source : Ieee) (frame : Bytes) (h : Nat) : Vector UInt8 13 :=
  fieldAt (source.toList ++ (frame.drop (h + 1)).take 4 ++ [byteAt frame h]) 0 13

/-- The descriptor fits the layer. -/
def selects (layer : Layer) (key : Key) : Bool :=
  match layer with
  | .nwk => key.keyIdentifier == 1
  | .aps => key.keyIdentifier != 1 && key.keyIdentifier ≤ 3

/-- APS commands carry a payload, acknowledgments none. -/
def badSize (layer : Layer) (type : UInt8) (p : Nat) : Bool :=
  layer == .aps && ((type == apsCommand && p == 0) || (type == apsAck && p != 0))

def ccmResult : CcmStar.Result → Result
  | .auth => .auth
  | .aes => .aes
  | _ => .ccm

/-- `ed_wire_crypt` opening a frame. -/
def openFrame (aes : Aes) (layer : Layer) (key : Key) (frame : Bytes) (capacity : Nat) :
    Except Result Bytes :=
  if key.level ≠ 5 ∨ key.extendedNonce ≠ 1 then .error .level
  else if !selects layer key then .error .selector
  else match inspect layer frame with
    | .error e => .error e
    | .ok (m, type) =>
      if m.keyIdentifier ≠ key.keyIdentifier ∨ (key.keyIdentifier = 1 ∧ m.keySequence ≠ key.keySequence) ∨
          m.source ≠ key.source then .error .source
      else if badSize layer type m.payloadLength then .error .length
      else if capacity < m.headerLength + m.payloadLength then .error .space
      else
        let h := m.headerLength
        let body := h + m.auxiliaryLength
        let work := put frame h ((byteAt frame h &&& 0xF8) ||| 5)
        match CcmStar.crypt aes true key.key (nonce key.source work h) (work.take body) (work.drop body) 4 116
            key.limits with
        | .error e => .error (ccmResult e)
        | .ok text =>
          let i := securityIndex layer
          .ok ((put work i (byteAt work i &&& ~~~ securityBit layer)).take h ++ text)

/-- `ed_wire_crypt` sealing a frame. -/
def sealFrame (aes : Aes) (layer : Layer) (key : Key) (frame : Bytes) (capacity : Nat) :
    Except Result Bytes :=
  if key.level ≠ 5 ∨ key.extendedNonce ≠ 1 then .error .level
  else if !selects layer key then .error .selector
  else match header layer frame with
    | .error e => .error e
    | .ok (h, type) =>
      let i := securityIndex layer
      if byteAt frame i &&& securityBit layer ≠ 0 then .error .header
      else if key.counter = 0xFFFFFFFF then .error .counter
      else if layer = .aps ∧ type ≠ apsCommand ∧ key.keyIdentifier ≠ 0 then .error .selector
      else
        let a := if key.keyIdentifier = 1 then 14 else 13
        let p := frame.length - h
        let total := h + a + p + 4
        if (match layer with | .nwk => NwkFrame.maxBody | .aps => ApsFrame.maxBody) < total then .error .length
        else if badSize layer type p then .error .length
        else if capacity < total then .error .space
        else
          let control := (0x25 : UInt8) ||| (key.keyIdentifier <<< 3)
          let auxiliary := [control] ++ put32 key.counter ++ key.source.toList ++
            (if key.keyIdentifier = 1 then [key.keySequence] else [])
          let front := (put frame i (byteAt frame i ||| securityBit layer)).take h
          let work := front ++ auxiliary
          match CcmStar.crypt aes false key.key (nonce key.source work h) work (frame.drop h) 4 116
              key.limits with
          | .error e => .error (ccmResult e)
          | .ok text => .ok (put work h (byteAt work h &&& 0xF8) ++ text)

end EdWire
