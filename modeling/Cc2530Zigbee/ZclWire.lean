import Cc2530Zigbee.Octets
import Cc2530Zigbee.OctetBits

/-!
# ZCL values and frames on the wire

`zcl_value.c` and `zcl_frame.c`. A value is octets of a typed width or a string
with a length octet; a frame is a header of three or five octets before its
payload. Lists of records are walked by the length a value consumed, so decoding
and encoding must agree on it for every type.
-/
namespace Zcl
open Octets

inductive Codec where
  | ok | invalidArgument | truncated | tooLong | bufferTooSmall | unsupportedFrameType | unsupportedDataType
  | unsupportedLayout | invalidHeader | invalidValue | invalidTable | unsupportedCommand | unsupportedContext
  | unsupportedNoResponse
  deriving DecidableEq, Repr

structure Header where
  type : UInt8
  flags : UInt8
  manufacturerCode : UInt16
  sequence : UInt8
  commandId : UInt8
  deriving DecidableEq, Repr

structure FrameInfo where
  header : Header
  ignoredControlBits : UInt8
  payloadOffset : Nat
  payloadLength : Nat
  deriving DecidableEq, Repr

/-- A value to write: its octets, or the mark of a string without a value. -/
structure Value where
  type : UInt8
  stringNonValue : UInt8
  data : Bytes
  deriving DecidableEq, Repr

/-- Where a value was found. -/
structure ValueInfo where
  type : UInt8
  dataOffset : Nat
  dataLength : Nat
  encodedLength : Nat
  nonValuePattern : Bool
  deriving DecidableEq, Repr

def frameMaxBody : Nat := 100
def frameMinHeader : Nat := 3
def frameMaxHeader : Nat := 5

def frameGlobal : UInt8 := 0
def frameClusterSpecific : UInt8 := 1

def flagManufacturerSpecific : UInt8 := 0x04
def flagServerToClient : UInt8 := 0x08
def flagDisableDefaultResponse : UInt8 := 0x10

def typeNoData : UInt8 := 0x00
def typeData8 : UInt8 := 0x08
def typeData64 : UInt8 := 0x0f
def typeBoolean : UInt8 := 0x10
def typeBitmap8 : UInt8 := 0x18
def typeUint8 : UInt8 := 0x20
def typeUint16 : UInt8 := 0x21
def typeInt8 : UInt8 := 0x28
def typeInt16 : UInt8 := 0x29
def typeInt64 : UInt8 := 0x2f
def typeEnum8 : UInt8 := 0x30
def typeEnum16 : UInt8 := 0x31
def typeOctetString : UInt8 := 0x41
def typeCharacterString : UInt8 := 0x42

/-- The bits of `flag` in `flags`. -/
def has (flags flag : UInt8) : Bool := flags &&& flag != 0

/-! ## Values -/

inductive Kind where
  | raw | unsigned | signed | boolean | string
  deriving DecidableEq, Repr

/-- The kind and the fixed width (zero for strings) of a type. -/
structure Shape where
  kind : Kind
  width : Nat
  deriving DecidableEq, Repr

def valueShape (type : UInt8) : Option Shape :=
  if type = typeNoData then some ⟨.raw, 0⟩
  else if (typeData8 ≤ type ∧ type ≤ typeData64) ∨ (typeBitmap8 ≤ type ∧ type ≤ typeInt64) then
    some ⟨if typeInt8 ≤ type then .signed else if typeUint8 ≤ type then .unsigned else .raw,
      (type &&& 7).toNat + 1⟩
  else if type = typeBoolean then some ⟨.boolean, 1⟩
  else if type = typeEnum8 ∨ type = typeEnum16 then some ⟨.unsigned, (type - typeEnum8).toNat + 1⟩
  else if type = typeOctetString ∨ type = typeCharacterString then some ⟨.string, 0⟩
  else none

def valueTypeSupported (type : UInt8) : Bool := (valueShape type).isSome

/-- The octets below `width`, from the top one down: the first is `expected`, and
under a signed type the rest are zero. -/
def patternBelow (kind : Kind) (data : Bytes) : (width : Nat) → (expected : UInt8) → Bool
  | 0, _ => true
  | width + 1, expected =>
    if byteAt data width ≠ expected then false
    else patternBelow kind data width (if kind = .signed then 0 else expected)

def nonValuePattern (kind : Kind) (data : Bytes) (width : Nat) : Bool :=
  if kind = .raw then false
  else patternBelow kind data width (if kind = .signed then 0x80 else 0xff)

/-- How many octets a string's length octet announces; 0xff marks an absent string. -/
def stringLength (first : UInt8) : Nat := if first == 0xff then 0 else first.toNat

/-- The octets a Boolean may have. -/
def booleanOctet (b : UInt8) : Bool := b = 0 ∨ b = 1 ∨ b = 0xff

def valueDecode (type : UInt8) (body : Bytes) : Except Codec ValueInfo :=
  match valueShape type with
  | none => .error .unsupportedDataType
  | some shape =>
    if shape.kind = .string then
      if body.length = 0 then .error .truncated
      else
        let width := stringLength (byteAt body 0)
        if body.length < 1 + width then .error .truncated
        else .ok ⟨type, 1, width, 1 + width, byteAt body 0 == 0xff⟩
    else if body.length < shape.width then .error .truncated
    else if shape.kind = .boolean ∧ ¬ booleanOctet (byteAt body 0) then .error .invalidValue
    else .ok ⟨type, 0, shape.width, shape.width, nonValuePattern shape.kind body shape.width⟩

def valueEncode (value : Value) (capacity : Nat) : Except Codec Bytes :=
  match valueShape value.type with
  | none => .error .unsupportedDataType
  | some shape =>
    if shape.kind = .string then
      if value.stringNonValue > 1 ∨ (value.stringNonValue ≠ 0 ∧ value.data.length ≠ 0) then .error .invalidValue
      else if value.data.length > 254 then .error .tooLong
      else if capacity < 1 + value.data.length then .error .bufferTooSmall
      else
        let first : UInt8 := if value.stringNonValue ≠ 0 then 0xff else octet value.data.length 0
        .ok (first :: value.data)
    else if value.stringNonValue ≠ 0 ∨ value.data.length ≠ shape.width then .error .invalidValue
    else if shape.kind = .boolean ∧ ¬ booleanOctet (byteAt value.data 0) then .error .invalidValue
    else if capacity < shape.width then .error .bufferTooSmall
    else .ok value.data

/-- The value found in `body`. -/
def ValueInfo.value (info : ValueInfo) (body : Bytes) : Value where
  type := info.type
  stringNonValue := if info.dataOffset = 1 ∧ info.nonValuePattern then 1 else 0
  data := (body.drop info.dataOffset).take info.dataLength

/-! ## Frames -/

def headerSize (flags : UInt8) : Nat :=
  if has flags flagManufacturerSpecific then frameMaxHeader else frameMinHeader

/-- The header fields of a body. -/
def frameHeader (body : Bytes) : Header :=
  let flags := byteAt body 0 &&& 0x1c
  if has flags flagManufacturerSpecific then
    ⟨byteAt body 0 &&& 3, flags, u16At body 1, byteAt body 3, byteAt body 4⟩
  else ⟨byteAt body 0 &&& 3, flags, 0, byteAt body 1, byteAt body 2⟩

def frameDecode (body : Bytes) : Except Codec FrameInfo :=
  if body.length > frameMaxBody then .error .tooLong
  else if body.length = 0 then .error .truncated
  else if byteAt body 0 &&& 3 > frameClusterSpecific then .error .unsupportedFrameType
  else if has (byteAt body 0) flagManufacturerSpecific ∧ byteAt body 0 &&& 0xe0 ≠ 0 then .error .unsupportedLayout
  else
    let size := headerSize (byteAt body 0)
    if body.length < size then .error .truncated
    else .ok ⟨frameHeader body, byteAt body 0 &&& 0xe0, size, body.length - size⟩

/-- The octets of a header. -/
def Header.octets (h : Header) : Bytes :=
  (h.type ||| h.flags) ::
    ((if has h.flags flagManufacturerSpecific then put16 h.manufacturerCode else []) ++ [h.sequence, h.commandId])

def frameEncode (h : Header) (payload : Bytes) (capacity : Nat) : Except Codec Bytes :=
  if h.type > frameClusterSpecific then .error .unsupportedFrameType
  else if h.flags &&& 0xe3 ≠ 0 then .error .invalidHeader
  else
    let size := headerSize h.flags
    if payload.length > frameMaxBody - size then .error .tooLong
    else if capacity < size + payload.length then .error .bufferTooSmall
    else .ok (h.octets ++ payload)

/-! An error is never the status of success. -/

theorem valueDecode_error (type : UInt8) (body : Bytes) : valueDecode type body ≠ .error .ok := by
  unfold valueDecode
  split
  · simp
  · simp only
    split_ifs <;> simp

theorem valueEncode_error (value : Value) (capacity : Nat) : valueEncode value capacity ≠ .error .ok := by
  unfold valueEncode
  split
  · simp
  · simp only
    split_ifs <;> simp

theorem frameDecode_error (body : Bytes) : frameDecode body ≠ .error .ok := by
  unfold frameDecode
  simp only
  split_ifs <;> simp

theorem frameEncode_error (h : Header) (payload : Bytes) (capacity : Nat) : frameEncode h payload capacity ≠ .error .ok := by
  unfold frameEncode
  simp only
  split_ifs <;> simp

/-! ## The calls, with the objects of their caller -/

/-- Octets written over the front of a buffer. -/
def overwrite (buffer octets : Bytes) : Bytes := octets ++ buffer.drop octets.length

def valueDecodeInto (type : UInt8) (body : Bytes) (result : ValueInfo) : Codec × ValueInfo :=
  match valueDecode type body with
  | .error e => (e, result)
  | .ok info => (.ok, info)

def valueEncodeInto (value : Value) (body : Bytes) (capacity : Nat) (length : UInt8) : Codec × Bytes × UInt8 :=
  match valueEncode value capacity with
  | .error e => (e, body, length)
  | .ok octets => (.ok, overwrite body octets, UInt8.ofNat octets.length)

def frameDecodeInto (body : Bytes) (result : FrameInfo) : Codec × FrameInfo :=
  match frameDecode body with
  | .error e => (e, result)
  | .ok info => (.ok, info)

def frameEncodeInto (h : Header) (payload body : Bytes) (capacity : Nat) (length : UInt8) : Codec × Bytes × UInt8 :=
  match frameEncode h payload capacity with
  | .error e => (e, body, length)
  | .ok octets => (.ok, overwrite body octets, UInt8.ofNat octets.length)

/-! ## What the value codec accepts -/

theorem shape_boolean {type : UInt8} {shape : Shape} (h : valueShape type = some shape) (hk : shape.kind = .boolean) :
    shape.width = 1 := by
  have hall : ∀ t : UInt8, ∀ s ∈ valueShape t, s.kind = .boolean → s.width = 1 := by decide +kernel
  exact hall type _ h hk

theorem shape_width {type : UInt8} {shape : Shape} (h : valueShape type = some shape) : shape.width ≤ 8 := by
  have hall : ∀ t : UInt8, ∀ s ∈ valueShape t, s.width ≤ 8 := by decide +kernel
  exact hall type _ h

/-- The length octet of a string. -/
def Value.lengthOctet (value : Value) : UInt8 := if value.stringNonValue ≠ 0 then 0xff else octet value.data.length 0

/-- A string the encoder takes. -/
structure EncodedString (value : Value) (capacity : Nat) (octets : Bytes) : Prop where
  mark : value.stringNonValue = 0 ∨ (value.stringNonValue = 1 ∧ value.data = [])
  short : value.data.length ≤ 254
  room : 1 + value.data.length ≤ capacity
  octets_eq : octets = value.lengthOctet :: value.data

/-- A value of fixed width the encoder takes. -/
structure EncodedFixed (value : Value) (shape : Shape) (capacity : Nat) (octets : Bytes) : Prop where
  mark : value.stringNonValue = 0
  width : value.data.length = shape.width
  legal : shape.kind = .boolean → booleanOctet (byteAt value.data 0) = true
  room : shape.width ≤ capacity
  octets_eq : octets = value.data

theorem mark_cases {value : Value}
    (h : ¬(value.stringNonValue > 1 ∨ (value.stringNonValue ≠ 0 ∧ value.data.length ≠ 0))) :
    value.stringNonValue = 0 ∨ (value.stringNonValue = 1 ∧ value.data = []) := by
  obtain ⟨hmark, hempty⟩ := not_or.1 h
  by_cases hzero : value.stringNonValue = 0
  · exact .inl hzero
  · have hle : value.stringNonValue.toNat ≤ 1 := Nat.le_of_not_lt hmark
    have hne : value.stringNonValue.toNat ≠ 0 := fun hz => hzero (UInt8.toNat_inj.1 hz)
    have hone : value.stringNonValue.toNat = 1 := by omega
    have hlen : value.data.length = 0 := by
      by_contra hlen
      exact hempty ⟨hzero, hlen⟩
    exact .inr ⟨UInt8.toNat_inj.1 hone, List.length_eq_zero_iff.1 hlen⟩

/-- What an encoded value is, by the kind of its type. -/
theorem valueEncode_cases {value : Value} {capacity : Nat} {octets : Bytes} (h : valueEncode value capacity = .ok octets) :
    ∃ shape, valueShape value.type = some shape ∧
      (shape.kind = .string ∧ EncodedString value capacity octets ∨
        shape.kind ≠ .string ∧ EncodedFixed value shape capacity octets) := by
  unfold valueEncode at h
  split at h
  next => cases h
  next shape hshape =>
    refine ⟨shape, hshape, ?_⟩
    by_cases hk : shape.kind = .string
    · rw [if_pos hk] at h
      split at h
      · cases h
      next hmark =>
        split at h
        · cases h
        split at h
        · cases h
        exact .inl ⟨hk, mark_cases hmark, by omega, by omega, (Except.ok.inj h).symm⟩
    · rw [if_neg hk] at h
      split at h
      · cases h
      next hbad =>
        obtain ⟨hmark, hwidth⟩ := not_or.1 hbad
        split at h
        · cases h
        next hbool =>
          split at h
          · cases h
          refine .inr ⟨hk, not_not.1 hmark, not_not.1 hwidth, fun hb => ?_, by omega, (Except.ok.inj h).symm⟩
          by_contra hne
          exact hbool ⟨hb, hne⟩

theorem valueEncode_string {value : Value} {shape : Shape} {capacity : Nat} {octets : Bytes}
    (hshape : valueShape value.type = some shape) (hk : shape.kind = .string) (h : EncodedString value capacity octets) :
    valueEncode value capacity = .ok octets := by
  have hmark : ¬(value.stringNonValue > 1 ∨ (value.stringNonValue ≠ 0 ∧ value.data.length ≠ 0)) := by
    rcases h.mark with hz | ⟨hz, hd⟩
    · simp [hz]
    · simp [hz, hd]
  have hshort := h.short
  have hroom := h.room
  unfold valueEncode
  simp only [hshape]
  rw [if_pos hk, if_neg hmark, if_neg (by omega), if_neg (by omega), h.octets_eq]
  rfl

theorem valueEncode_fixed {value : Value} {shape : Shape} {capacity : Nat} {octets : Bytes}
    (hshape : valueShape value.type = some shape) (hk : shape.kind ≠ .string) (h : EncodedFixed value shape capacity octets) :
    valueEncode value capacity = .ok octets := by
  have hbad : ¬(value.stringNonValue ≠ 0 ∨ value.data.length ≠ shape.width) := by simp [h.mark, h.width]
  have hbool : ¬(shape.kind = .boolean ∧ ¬ booleanOctet (byteAt value.data 0) = true) := by
    rintro ⟨hb, hne⟩
    exact hne (h.legal hb)
  have hroom := h.room
  unfold valueEncode
  simp only [hshape]
  rw [if_neg hk, if_neg hbad, if_neg hbool, if_neg (by omega), h.octets_eq]

theorem valueEncode_length {value : Value} {capacity : Nat} {octets : Bytes} (h : valueEncode value capacity = .ok octets) :
    octets.length ≤ capacity ∧ octets.length ≤ 255 := by
  obtain ⟨shape, hshape, ⟨_, hs⟩ | ⟨_, hf⟩⟩ := valueEncode_cases h
  · have hshort := hs.short
    have hroom := hs.room
    rw [hs.octets_eq]
    simp only [List.length_cons]
    omega
  · have hroom := hf.room
    have hwidth := shape_width hshape
    rw [hf.octets_eq, hf.width]
    omega

/-- What the decoder finds in a string: its length octet and the octets after it. -/
structure DecodedString (type : UInt8) (body : Bytes) (info : ValueInfo) : Prop where
  present : body ≠ []
  info_eq : info = ⟨type, 1, stringLength (byteAt body 0), 1 + stringLength (byteAt body 0), byteAt body 0 == 0xff⟩
  room : info.encodedLength ≤ body.length

structure DecodedFixed (type : UInt8) (shape : Shape) (body : Bytes) (info : ValueInfo) : Prop where
  room : shape.width ≤ body.length
  legal : shape.kind = .boolean → booleanOctet (byteAt body 0) = true
  info_eq : info = ⟨type, 0, shape.width, shape.width, nonValuePattern shape.kind body shape.width⟩

theorem valueDecode_cases {type : UInt8} {body : Bytes} {info : ValueInfo} (h : valueDecode type body = .ok info) :
    ∃ shape, valueShape type = some shape ∧
      (shape.kind = .string ∧ DecodedString type body info ∨
        shape.kind ≠ .string ∧ DecodedFixed type shape body info) := by
  unfold valueDecode at h
  split at h
  next => cases h
  next shape hshape =>
    refine ⟨shape, hshape, ?_⟩
    by_cases hk : shape.kind = .string
    · rw [if_pos hk] at h
      split at h
      · cases h
      next hempty =>
        simp only at h
        split at h
        · cases h
        next hlen =>
          have hinfo := (Except.ok.inj h).symm
          refine .inl ⟨hk, fun hnil => hempty (by rw [hnil]; rfl), hinfo, ?_⟩
          rw [hinfo]
          exact Nat.le_of_not_lt hlen
    · rw [if_neg hk] at h
      split at h
      · cases h
      split at h
      · cases h
      next hbool =>
        refine .inr ⟨hk, by omega, fun hb => ?_, (Except.ok.inj h).symm⟩
        by_contra hne
        exact hbool ⟨hb, hne⟩

theorem valueDecode_string {type : UInt8} {shape : Shape} {body : Bytes} {info : ValueInfo}
    (hshape : valueShape type = some shape) (hk : shape.kind = .string) (h : DecodedString type body info) :
    valueDecode type body = .ok info := by
  have hroom := h.room
  rw [h.info_eq] at hroom
  have hlen : body.length ≠ 0 := fun hz => h.present (List.length_eq_zero_iff.1 hz)
  unfold valueDecode
  simp only [hshape]
  rw [if_pos hk, if_neg hlen, if_neg (Nat.not_lt.2 hroom), h.info_eq]

theorem valueDecode_fixed {type : UInt8} {shape : Shape} {body : Bytes} {info : ValueInfo}
    (hshape : valueShape type = some shape) (hk : shape.kind ≠ .string) (h : DecodedFixed type shape body info) :
    valueDecode type body = .ok info := by
  have hbool : ¬(shape.kind = .boolean ∧ ¬ booleanOctet (byteAt body 0) = true) := by
    rintro ⟨hb, hne⟩
    exact hne (h.legal hb)
  unfold valueDecode
  simp only [hshape]
  rw [if_neg hk, if_neg (Nat.not_lt.2 h.room), if_neg hbool, h.info_eq]

/-- The most octets a value takes. -/
def valueMaxSize : Nat := 255

/-- The capacity only decides whether a value that can be encoded fits. -/
theorem valueEncode_capacity (value : Value) (capacity : Nat) :
    valueEncode value capacity =
      match valueEncode value valueMaxSize with
      | .error e => .error e
      | .ok octets => if capacity < octets.length then .error .bufferTooSmall else .ok octets := by
  unfold valueEncode
  split
  next => rfl
  next shape hshape =>
    have hwidth := shape_width hshape
    by_cases hk : shape.kind = .string
    · simp only [if_pos hk]
      split
      · rfl
      split
      · rfl
      next hshort =>
        rw [if_neg (show ¬ valueMaxSize < 1 + value.data.length by unfold valueMaxSize; omega)]
        simp only [List.length_cons, Nat.add_comm value.data.length 1]
    · simp only [if_neg hk]
      split
      · rfl
      next hbad =>
        obtain ⟨_, hlength⟩ := not_or.1 hbad
        split
        · rfl
        rw [if_neg (show ¬ valueMaxSize < shape.width by unfold valueMaxSize; omega)]
        simp only [not_not.1 hlength]

/-- Every value that can be encoded fits the largest size. -/
theorem valueEncode_max (value : Value) : valueEncode value valueMaxSize ≠ .error .bufferTooSmall := by
  intro h
  unfold valueEncode at h
  split at h
  next => cases h
  next shape hshape =>
    have hwidth := shape_width hshape
    split at h
    · split at h
      · cases h
      split at h
      · cases h
      rw [if_neg (show ¬ valueMaxSize < 1 + value.data.length by unfold valueMaxSize; omega)] at h
      cases h
    · split at h
      · cases h
      split at h
      · cases h
      rw [if_neg (show ¬ valueMaxSize < shape.width by unfold valueMaxSize; omega)] at h
      cases h

/-! ## Round trips of values -/

theorem byteAt_front (l s : Bytes) (i : Nat) (h : i < l.length) : byteAt (l ++ s) i = byteAt l i := by
  simp [byteAt, List.getElem?_append_left h]

theorem octet_zero_toNat {n : Nat} (h : n < 256) : (octet n 0).toNat = n := by
  simp
  omega

/-- The length octet tells an absent string from every length it can have. -/
theorem lengthOctet_absent {value : Value} (hmark : value.stringNonValue = 0 ∨ (value.stringNonValue = 1 ∧ value.data = []))
    (hshort : value.data.length ≤ 254) :
    (value.lengthOctet == 0xff) = decide (value.stringNonValue ≠ 0) ∧
      stringLength value.lengthOctet = value.data.length := by
  rcases hmark with hz | ⟨hone, hempty⟩
  · have hnat : value.lengthOctet.toNat = value.data.length := by
      rw [Value.lengthOctet, if_neg (not_not.2 hz)]
      exact octet_zero_toNat (by omega)
    have hne : value.lengthOctet ≠ 0xff := by
      intro heq
      rw [heq] at hnat
      have h255 : (0xff : UInt8).toNat = 255 := rfl
      omega
    simp [stringLength, hz, hne, hnat]
  · have hff : value.lengthOctet = 0xff := by
      rw [Value.lengthOctet, if_pos (by rw [hone]; decide)]
    simp [stringLength, hone, hff, hempty]

/-- Decoding what was encoded, whatever follows it. -/
theorem value_decode_encode {value : Value} {capacity : Nat} {octets : Bytes} (h : valueEncode value capacity = .ok octets)
    (suffix : Bytes) :
    ∃ info, valueDecode value.type (octets ++ suffix) = .ok info ∧ info.encodedLength = octets.length ∧
      info.value (octets ++ suffix) = value := by
  obtain ⟨shape, hshape, ⟨hk, hs⟩ | ⟨hk, hf⟩⟩ := valueEncode_cases h
  · obtain ⟨habsent, hlen⟩ := lengthOctet_absent hs.mark hs.short
    have hoctets := hs.octets_eq
    subst hoctets
    refine ⟨⟨value.type, 1, value.data.length, 1 + value.data.length, decide (value.stringNonValue ≠ 0)⟩,
      valueDecode_string hshape hk ⟨by simp, ?_, ?_⟩, ?_, ?_⟩
    · rw [List.cons_append, byteAt_here, hlen, habsent]
    · simp
      omega
    · simp only [List.length_cons]
      omega
    · rcases hs.mark with hz | ⟨hone, _⟩
      · cases value
        simp_all [ValueInfo.value]
      · cases value
        simp_all [ValueInfo.value]
  · have hoctets := hf.octets_eq
    subst hoctets
    have hwidth := hf.width
    refine ⟨⟨value.type, 0, shape.width, shape.width, nonValuePattern shape.kind (value.data ++ suffix) shape.width⟩,
      valueDecode_fixed hshape hk ⟨?_, ?_, rfl⟩, hwidth.symm, ?_⟩
    · rw [List.length_append]
      omega
    · intro hb
      have hone := shape_boolean hshape hb
      rw [byteAt_front _ _ _ (by omega)]
      exact hf.legal hb
    · have hmark := hf.mark
      cases value
      simp_all [ValueInfo.value, ← hwidth]

/-- Encoding what was decoded gives the octets it was decoded from. -/
theorem value_encode_decode {type : UInt8} {body : Bytes} {info : ValueInfo} (h : valueDecode type body = .ok info)
    {capacity : Nat} (hcapacity : info.encodedLength ≤ capacity) :
    info.encodedLength ≤ body.length ∧ valueEncode (info.value body) capacity = .ok (body.take info.encodedLength) := by
  obtain ⟨shape, hshape, ⟨hk, hs⟩ | ⟨hk, hf⟩⟩ := valueDecode_cases h
  · obtain ⟨first, rest, rfl⟩ := List.exists_cons_of_ne_nil hs.present
    have hroom := hs.room
    have hinfo := hs.info_eq
    subst hinfo
    refine ⟨hroom, ?_⟩
    simp only [byteAt_here, List.length_cons] at hroom hcapacity ⊢
    by_cases hff : first = 0xff
    · subst hff
      refine valueEncode_string (by exact hshape) hk ⟨.inr ⟨by simp [ValueInfo.value], by simp [ValueInfo.value, stringLength]⟩, ?_, ?_, ?_⟩
      · simp [ValueInfo.value, stringLength]
      · simpa [ValueInfo.value, stringLength] using hcapacity
      · simp [ValueInfo.value, Value.lengthOctet, stringLength]
    · have hlt : first.toNat ≤ 254 := by
        have hlt := first.toNat_lt
        have hne : first.toNat ≠ 255 := fun h255 => hff (UInt8.toNat_inj.1 h255)
        omega
      have hbeq : (first == 0xff) = false := beq_false_of_ne hff
      have hlength : stringLength first = first.toNat := by rw [stringLength, hbeq]; rfl
      simp only [hbeq, hlength] at hroom hcapacity ⊢
      have hdata : (rest.take first.toNat).length = first.toNat := by
        rw [List.length_take]
        omega
      refine valueEncode_string (by exact hshape) hk ⟨.inl (by simp [ValueInfo.value]), ?_, ?_, ?_⟩
      · simp only [ValueInfo.value, List.drop_succ_cons, List.drop_zero, hdata]
        exact hlt
      · simp only [ValueInfo.value, List.drop_succ_cons, List.drop_zero, hdata]
        exact hcapacity
      · have hoctet : octet first.toNat 0 = first := UInt8.toNat_inj.1 (octet_zero_toNat first.toNat_lt)
        simp [ValueInfo.value, Value.lengthOctet, Nat.add_comm 1, hdata, hoctet]
  · have hinfo := hf.info_eq
    subst hinfo
    have hroom := hf.room
    refine ⟨hroom, valueEncode_fixed (by exact hshape) hk ⟨by simp [ValueInfo.value], ?_, ?_, hcapacity, ?_⟩⟩
    · simp only [ValueInfo.value, List.drop_zero, List.length_take]
      omega
    · intro hb
      have hone := shape_boolean hshape hb
      have hfront : byteAt (body.take shape.width) 0 = byteAt body 0 := by
        simp [byteAt, hone]
      simp only [ValueInfo.value, List.drop_zero, hfront]
      exact hf.legal hb
    · simp [ValueInfo.value]

/-! ## Round trips of frames -/

/-- A header as it is read back: without the flag there is no manufacturer code. -/
def Header.canonical (h : Header) : Header :=
  if has h.flags flagManufacturerSpecific then h else { h with manufacturerCode := 0 }

/-- The first octet takes type and flags apart again. -/
theorem control_fields (type flags : UInt8) (htype : ¬ type > frameClusterSpecific) (hflags : flags &&& 0xe3 = 0) :
    (type ||| flags) &&& 3 = type ∧ (type ||| flags) &&& 0x1c = flags ∧ (type ||| flags) &&& 0xe0 = 0 ∧
      has (type ||| flags) flagManufacturerSpecific = has flags flagManufacturerSpecific := by
  have hall : ∀ f : UInt8, f &&& 0xe3 = 0 → ∀ t ∈ [(0 : UInt8), 1],
      (t ||| f) &&& 3 = t ∧ (t ||| f) &&& 0x1c = f ∧ (t ||| f) &&& 0xe0 = 0 ∧
        has (t ||| f) flagManufacturerSpecific = has f flagManufacturerSpecific := by decide +kernel
  have hle : type.toNat ≤ 1 := Nat.le_of_not_lt htype
  have hmem : type ∈ [(0 : UInt8), 1] := by
    rcases Nat.le_one_iff_eq_zero_or_eq_one.1 hle with hz | hone
    · have : type = 0 := UInt8.toNat_inj.1 hz
      simp [this]
    · have : type = 1 := UInt8.toNat_inj.1 hone
      simp [this]
  exact hall flags hflags type hmem

/-- Type and flags as they are read always encode again. -/
theorem control_read (c : UInt8) (htype : ¬ c &&& 3 > frameClusterSpecific) :
    (c &&& 0x1c) &&& 0xe3 = 0 ∧ (c &&& 3) ||| (c &&& 0x1c) = c &&& 0x1f ∧
      has (c &&& 0x1c) flagManufacturerSpecific = has c flagManufacturerSpecific := by
  revert c
  decide +kernel

@[simp] theorem Header.octets_length (h : Header) : h.octets.length = headerSize h.flags := by
  unfold Header.octets headerSize frameMaxHeader frameMinHeader
  split_ifs <;> simp

theorem headerSize_cases (flags : UInt8) :
    has flags flagManufacturerSpecific = true ∧ headerSize flags = 5 ∨
      has flags flagManufacturerSpecific = false ∧ headerSize flags = 3 := by
  unfold headerSize frameMaxHeader frameMinHeader
  cases has flags flagManufacturerSpecific <;> simp

/-- A frame the encoder takes. -/
structure EncodedFrame (h : Header) (payload : Bytes) (capacity : Nat) (octets : Bytes) : Prop where
  type : ¬ h.type > frameClusterSpecific
  flags : h.flags &&& 0xe3 = 0
  short : headerSize h.flags + payload.length ≤ frameMaxBody
  room : headerSize h.flags + payload.length ≤ capacity
  octets_eq : octets = h.octets ++ payload

theorem frameEncode_ok {h : Header} {payload octets : Bytes} {capacity : Nat} :
    frameEncode h payload capacity = .ok octets ↔ EncodedFrame h payload capacity octets := by
  have hsize : headerSize h.flags ≤ frameMaxBody := by
    rcases headerSize_cases h.flags with ⟨_, hs⟩ | ⟨_, hs⟩ <;> rw [hs] <;> decide
  constructor
  · intro he
    unfold frameEncode at he
    split at he
    · cases he
    next htype =>
      split at he
      · cases he
      next hflags =>
        simp only at he
        split at he
        · cases he
        split at he
        · cases he
        exact ⟨htype, not_not.1 hflags, by omega, by omega, (Except.ok.inj he).symm⟩
  · rintro ⟨htype, hflags, hshort, hroom, heq⟩
    unfold frameEncode
    rw [if_neg htype, if_neg (not_not.2 hflags)]
    simp only
    rw [if_neg (by omega), if_neg (by omega), heq]

theorem EncodedFrame.length {h : Header} {payload octets : Bytes} {capacity : Nat} (e : EncodedFrame h payload capacity octets) :
    octets.length = headerSize h.flags + payload.length := by
  rw [e.octets_eq, List.length_append, Header.octets_length]

/-- A frame the decoder takes. -/
structure DecodedFrame (body : Bytes) (info : FrameInfo) : Prop where
  short : body.length ≤ frameMaxBody
  type : ¬ byteAt body 0 &&& 3 > frameClusterSpecific
  layout : has (byteAt body 0) flagManufacturerSpecific = true → byteAt body 0 &&& 0xe0 = 0
  room : headerSize (byteAt body 0) ≤ body.length
  info_eq : info = ⟨frameHeader body, byteAt body 0 &&& 0xe0, headerSize (byteAt body 0),
    body.length - headerSize (byteAt body 0)⟩

theorem frameDecode_ok {body : Bytes} {info : FrameInfo} : frameDecode body = .ok info ↔ DecodedFrame body info := by
  constructor
  · intro hd
    unfold frameDecode at hd
    split at hd
    · cases hd
    split at hd
    · cases hd
    split at hd
    · cases hd
    next htype =>
      split at hd
      · cases hd
      next hlayout =>
        simp only at hd
        split at hd
        · cases hd
        refine ⟨by omega, htype, fun hm => ?_, by omega, (Except.ok.inj hd).symm⟩
        by_contra hne
        exact hlayout ⟨hm, hne⟩
  · rintro ⟨hshort, htype, hlayout, hroom, heq⟩
    have hsize : 3 ≤ headerSize (byteAt body 0) := by
      rcases headerSize_cases (byteAt body 0) with ⟨_, hs⟩ | ⟨_, hs⟩ <;> omega
    have hbad : ¬(has (byteAt body 0) flagManufacturerSpecific = true ∧ byteAt body 0 &&& 0xe0 ≠ 0) := by
      rintro ⟨hm, hne⟩
      exact hne (hlayout hm)
    unfold frameDecode
    rw [if_neg (by omega), if_neg (by omega), if_neg htype, if_neg hbad]
    simp only
    rw [if_neg (by omega), heq]

/-- What later stages use of a decoded frame. -/
structure GoodFrame (body : Bytes) (info : FrameInfo) : Prop where
  type : ¬ info.header.type > frameClusterSpecific
  flags : info.header.flags &&& 0xe3 = 0
  offset : info.payloadOffset = headerSize info.header.flags
  length : info.payloadOffset + info.payloadLength = body.length
  short : body.length ≤ frameMaxBody

theorem frameDecode_good {body : Bytes} {info : FrameInfo} (h : frameDecode body = .ok info) : GoodFrame body info := by
  have d := frameDecode_ok.1 h
  obtain ⟨hflags, _, hm⟩ := control_read (byteAt body 0) d.type
  have hfields : (frameHeader body).type = byteAt body 0 &&& 3 ∧ (frameHeader body).flags = byteAt body 0 &&& 0x1c := by
    simp only [frameHeader]
    split <;> simp
  have hroom := d.room
  have hinfo := d.info_eq
  subst hinfo
  refine ⟨?_, ?_, ?_, ?_, d.short⟩
  · rw [hfields.1]
    exact d.type
  · rw [hfields.2]
    exact hflags
  · simp only [hfields.2, headerSize, hm]
  · simp only
    omega

/-- The header is read back from its octets. -/
theorem frameHeader_octets {h : Header} (htype : ¬ h.type > frameClusterSpecific) (hflags : h.flags &&& 0xe3 = 0)
    (payload : Bytes) : frameHeader (h.octets ++ payload) = h.canonical := by
  obtain ⟨ht, hf, _, _⟩ := control_fields h.type h.flags htype hflags
  rcases headerSize_cases h.flags with ⟨hm, _⟩ | ⟨hm, _⟩
  · cases h
    simp_all [frameHeader, Header.octets, Header.canonical, put16, u16At, byteAt, le16_put]
  · cases h
    simp_all [frameHeader, Header.octets, Header.canonical, byteAt]

theorem frame_decode_encode {h : Header} {payload octets : Bytes} {capacity : Nat}
    (he : frameEncode h payload capacity = .ok octets) :
    frameDecode octets = .ok ⟨h.canonical, 0, headerSize h.flags, payload.length⟩ ∧
      octets.drop (headerSize h.flags) = payload := by
  have e := frameEncode_ok.1 he
  obtain ⟨ht, _, hi, hm⟩ := control_fields h.type h.flags e.type e.flags
  have hlength := e.length
  have hshort := e.short
  have hfirst : byteAt octets 0 = h.type ||| h.flags := by
    rw [e.octets_eq]
    rfl
  have hsize : headerSize (h.type ||| h.flags) = headerSize h.flags := by rw [headerSize, hm, headerSize]
  refine ⟨frameDecode_ok.2 ⟨by omega, ?_, ?_, ?_, ?_⟩, ?_⟩
  · rw [hfirst, ht]
    exact e.type
  · rw [hfirst]
    exact fun _ => hi
  · rw [hfirst, hsize]
    omega
  · rw [hfirst, hsize, hi, hlength, Nat.add_sub_cancel_left, e.octets_eq, frameHeader_octets e.type e.flags]
  · rw [e.octets_eq, ← Header.octets_length, List.drop_left]

theorem three_front {body : Bytes} (h : 3 ≤ body.length) : ∃ a b c rest, body = a :: b :: c :: rest := by
  obtain ⟨a, rest, rfl⟩ := List.exists_cons_of_length_pos (show 0 < body.length by omega)
  simp only [List.length_cons] at h
  obtain ⟨b, rest, rfl⟩ := List.exists_cons_of_length_pos (show 0 < rest.length by omega)
  simp only [List.length_cons] at h
  obtain ⟨c, rest, rfl⟩ := List.exists_cons_of_length_pos (show 0 < rest.length by omega)
  exact ⟨a, b, c, rest, rfl⟩

theorem five_front {body : Bytes} (h : 5 ≤ body.length) : ∃ a b c e f rest, body = a :: b :: c :: e :: f :: rest := by
  obtain ⟨a, b, c, rest, rfl⟩ := three_front (show 3 ≤ body.length by omega)
  simp only [List.length_cons] at h
  obtain ⟨e, rest, rfl⟩ := List.exists_cons_of_length_pos (show 0 < rest.length by omega)
  simp only [List.length_cons] at h
  obtain ⟨f, rest, rfl⟩ := List.exists_cons_of_length_pos (show 0 < rest.length by omega)
  exact ⟨a, b, c, e, f, rest, rfl⟩

/-- The octets of the header that was read, with the ignored bits of the first one cleared. -/
theorem frameHeader_octets_read {body : Bytes} {info : FrameInfo} (d : DecodedFrame body info) :
    (frameHeader body).octets = (byteAt body 0 &&& 0x1f) :: (body.take (headerSize (byteAt body 0))).tail := by
  obtain ⟨_, hor, hm⟩ := control_read (byteAt body 0) d.type
  have hroom := d.room
  rcases headerSize_cases (byteAt body 0) with ⟨hflag, hs⟩ | ⟨hflag, hs⟩
  · rw [hs] at hroom ⊢
    obtain ⟨a, b, c, e, f, rest, rfl⟩ := five_front hroom
    simp only [byteAt_here] at hor hm hflag
    have hput : put16 (u16At (a :: b :: c :: e :: f :: rest) 1) = [b, c] := put16_le16 b c
    simp [frameHeader, Header.octets, hm, hflag, hor, hput, byteAt]
  · rw [hs] at hroom ⊢
    obtain ⟨a, b, c, rest, rfl⟩ := three_front hroom
    simp only [byteAt_here] at hor hm hflag
    simp [frameHeader, Header.octets, hm, hflag, hor, byteAt]

theorem take_tail_append_drop (body : Bytes) {n : Nat} (h : 1 ≤ n) : (body.take n).tail ++ body.drop n = body.tail := by
  obtain ⟨m, rfl⟩ := Nat.exists_eq_add_of_le' h
  cases body with
  | nil => rfl
  | cons a rest => simp

theorem frame_encode_decode {body : Bytes} {info : FrameInfo} (hd : frameDecode body = .ok info) {capacity : Nat}
    (hcapacity : body.length ≤ capacity) :
    frameEncode info.header (body.drop info.payloadOffset) capacity = .ok ((byteAt body 0 &&& 0x1f) :: body.tail) := by
  have d := frameDecode_ok.1 hd
  have g := frameDecode_good hd
  have hlength := g.length
  have hshort := g.short
  have hpos : 1 ≤ headerSize (byteAt body 0) := by
    rcases headerSize_cases (byteAt body 0) with ⟨_, hs⟩ | ⟨_, hs⟩ <;> omega
  refine frameEncode_ok.2 ⟨g.type, g.flags, ?_, ?_, ?_⟩
  · rw [← g.offset, List.length_drop]
    omega
  · rw [← g.offset, List.length_drop]
    omega
  · rw [d.info_eq]
    simp only [frameHeader_octets_read d, List.cons_append]
    rw [take_tail_append_drop body hpos]

/-- What a call of the frame encoder does. -/
theorem frameEncodeInto_cases (h : Header) (payload body : Bytes) (capacity : Nat) (length : UInt8) :
    (∃ octets, EncodedFrame h payload capacity octets ∧
      frameEncodeInto h payload body capacity length = (.ok, overwrite body octets, UInt8.ofNat octets.length)) ∨
    ∃ e, e ≠ .ok ∧ (∀ octets, ¬ EncodedFrame h payload capacity octets) ∧
      frameEncodeInto h payload body capacity length = (e, body, length) := by
  unfold frameEncodeInto
  cases he : frameEncode h payload capacity with
  | error e =>
    refine .inr ⟨e, fun hok => frameEncode_error h payload capacity (hok ▸ he), fun octets hoctets => ?_, rfl⟩
    rw [frameEncode_ok.2 hoctets] at he
    cases he
  | ok octets => exact .inl ⟨octets, frameEncode_ok.1 he, rfl⟩

/-! ## The codecs as a whole -/

/-- Values round trip both ways, whatever follows them in a list. Frames round trip
with the manufacturer code a header without the flag cannot carry read as zero, and
with the reserved bits of a received control octet dropped. A call that fails leaves
the objects of its caller as they were. -/
theorem codecs_round_trip :
    (∀ value capacity octets, valueEncode value capacity = .ok octets → ∀ suffix, ∃ info,
      valueDecode value.type (octets ++ suffix) = .ok info ∧ info.encodedLength = octets.length ∧
        info.value (octets ++ suffix) = value) ∧
    (∀ type body info, valueDecode type body = .ok info → info.encodedLength ≤ body.length ∧
      ∀ capacity ≥ info.encodedLength, valueEncode (info.value body) capacity = .ok (body.take info.encodedLength)) ∧
    (∀ h payload capacity octets, frameEncode h payload capacity = .ok octets →
      frameDecode octets = .ok ⟨h.canonical, 0, headerSize h.flags, payload.length⟩ ∧
        octets.drop (headerSize h.flags) = payload) ∧
    (∀ body info, frameDecode body = .ok info → ∀ capacity ≥ body.length,
      frameEncode info.header (body.drop info.payloadOffset) capacity =
        .ok ((byteAt body 0 &&& ~~~info.ignoredControlBits) :: body.tail)) ∧
    (∀ type body result, (valueDecodeInto type body result).1 ≠ .ok → (valueDecodeInto type body result).2 = result) ∧
    (∀ value body capacity length, (valueEncodeInto value body capacity length).1 ≠ .ok →
      (valueEncodeInto value body capacity length).2 = (body, length)) ∧
    (∀ body result, (frameDecodeInto body result).1 ≠ .ok → (frameDecodeInto body result).2 = result) ∧
    (∀ h payload body capacity length, (frameEncodeInto h payload body capacity length).1 ≠ .ok →
      (frameEncodeInto h payload body capacity length).2 = (body, length)) := by
  refine ⟨fun value capacity octets h suffix => value_decode_encode h suffix, fun type body info h => ?_,
    fun h payload capacity octets he => frame_decode_encode he, fun body info hd capacity hcapacity => ?_, ?_, ?_, ?_, ?_⟩
  · exact ⟨(value_encode_decode h le_rfl).1, fun capacity hcapacity => (value_encode_decode h hcapacity).2⟩
  · have hclear : ∀ c : UInt8, c &&& ~~~(c &&& 0xe0) = c &&& 0x1f := by decide +kernel
    have hinfo := (frameDecode_ok.1 hd).info_eq
    rw [frame_encode_decode hd hcapacity, hinfo, hclear]
  · intro type body result h
    unfold valueDecodeInto at h ⊢
    split <;> simp_all
  · intro value body capacity length h
    unfold valueEncodeInto at h ⊢
    split <;> simp_all
  · intro body result h
    unfold frameDecodeInto at h ⊢
    split <;> simp_all
  · intro h payload body capacity length hne
    unfold frameEncodeInto at hne ⊢
    split <;> simp_all

/-- A reserved control bit is accepted and does not come back, and a manufacturer code
without its flag is accepted and is not sent. -/
theorem frame_round_trip_loses :
    (∃ info, frameDecode [0x20, 7, 0] = .ok info ∧
      frameEncode info.header (([0x20, 7, 0] : Bytes).drop info.payloadOffset) 100 ≠ .ok [0x20, 7, 0]) ∧
    ∃ octets info, frameEncode ⟨0, 0, 0x1234, 7, 0⟩ [] 100 = .ok octets ∧ frameDecode octets = .ok info ∧
      info.header ≠ ⟨0, 0, 0x1234, 7, 0⟩ :=
  ⟨⟨⟨⟨0, 0, 0, 7, 0⟩, 0x20, 3, 0⟩, by decide, by decide⟩,
    [0, 7, 0], ⟨⟨0, 0, 0, 7, 0⟩, 0, 3, 0⟩, by decide, by decide, by decide⟩

end Zcl
