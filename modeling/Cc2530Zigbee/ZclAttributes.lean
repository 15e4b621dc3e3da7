import Cc2530Zigbee.ZclWire

/-!
# Attribute tables and Read Attributes

`zcl_attributes.c`. A table holds the attributes of one cluster side. A Read
Attributes request is answered with one record for each identifier, in order, as
long as a record without a value still fits; a value that does not fit is answered
with a status alone.
-/
namespace Zcl
open Octets

structure Attribute where
  id : UInt16
  readable : UInt8
  value : Value
  deriving DecidableEq, Repr

structure AttributeSet where
  attributes : List Attribute
  side : UInt8
  manufacturerSpecific : UInt8
  manufacturerCode : UInt16
  deriving DecidableEq, Repr

structure ReadInfo where
  length : Nat
  commandId : UInt8
  requestedCount : Nat
  returnedCount : Nat
  deriving DecidableEq, Repr

def attributeMaxCount : Nat := 16
def attributeClient : UInt8 := 1

def commandReadAttributes : UInt8 := 0x00
def commandReadAttributesResponse : UInt8 := 0x01
def commandDefaultResponse : UInt8 := 0x0b

def statusSuccess : UInt8 := 0x00
def statusNotAuthorized : UInt8 := 0x7e
def statusMalformedCommand : UInt8 := 0x80
def statusUnsupportedAttribute : UInt8 := 0x86
def statusInsufficientSpace : UInt8 := 0x89

/-- An identifier outside the ranges of standard attributes. -/
def reservedId (id : UInt16) : Bool := (0x5000 ≤ id ∧ id < 0xf000) ∨ id = 0xffff

/-- The rest of a table behind the attributes already checked. -/
def attrsCheck (manufacturerSpecific : UInt8) (prior : List Attribute) : List Attribute → Codec
  | [] => .ok
  | a :: rest =>
    if a.readable > 1 ∨ (manufacturerSpecific = 0 ∧ reservedId a.id) then .invalidTable
    else if prior.any (fun b => b.id = a.id) then .invalidTable
    else attrsCheck manufacturerSpecific (prior ++ [a]) rest

def attrSetCheck (set : AttributeSet) : Codec :=
  if set.attributes.length > attributeMaxCount ∨ set.side > attributeClient ∨ set.manufacturerSpecific > 1 then
    .invalidTable
  else attrsCheck set.manufacturerSpecific [] set.attributes

/-- A flag as the octet 0 or 1. -/
def flagOctet (flags flag : UInt8) : UInt8 := if has flags flag then 1 else 0

def findAttribute (set : AttributeSet) (id : UInt16) : Option Attribute := set.attributes.find? fun a => a.id = id

/-- The identifiers of a request payload of even length. -/
def idsOf : Bytes → List UInt16
  | a :: b :: rest => le16 a b :: idsOf rest
  | _ => []

/-- The record for one identifier, in `remaining` octets (three or more). -/
def readRecord (set : AttributeSet) (id : UInt16) (remaining : Nat) : Except Codec Bytes :=
  match findAttribute set id with
  | none => .ok (put16 id ++ [statusUnsupportedAttribute])
  | some a =>
    if a.readable = 0 then .ok (put16 id ++ [statusNotAuthorized])
    else
      -- With only three octets left the value is validated and not written.
      match valueEncode a.value (if remaining ≥ 4 then remaining - 4 else 0) with
      | .error e =>
        if e = .bufferTooSmall then .ok (put16 id ++ [statusInsufficientSpace]) else .error e
      | .ok octets =>
        if remaining < 4 then .ok (put16 id ++ [statusInsufficientSpace])
        else .ok (put16 id ++ [statusSuccess, a.value.type] ++ octets)

/-- The records that fit behind `payload` in `room` octets, and how many they are. -/
def readRecords (set : AttributeSet) (room : Nat) : List UInt16 → (payload : Bytes) → (returned : Nat) →
    Except Codec (Bytes × Nat)
  | [], payload, returned => .ok (payload, returned)
  | id :: ids, payload, returned =>
    let remaining := room - payload.length
    if remaining < 3 then .ok (payload, returned)
    else
      match readRecord set id remaining with
      | .error e => .error e
      | .ok record => readRecords set room ids (payload ++ record) (returned + 1)

/-- Whether a frame speaks to the side and the manufacturer of a table. -/
def contextMatches (set : AttributeSet) (h : Header) : Bool :=
  flagOctet h.flags flagManufacturerSpecific = set.manufacturerSpecific ∧
    (set.manufacturerSpecific = 0 ∨ h.manufacturerCode = set.manufacturerCode)

/-- The flags of an answer. -/
def replyFlags (flags : UInt8) : UInt8 := (flags ^^^ flagServerToClient) ||| flagDisableDefaultResponse

/-- The header of an answer to the sender of `h`. -/
def replyHeader (h : Header) (commandId : UInt8) : Header :=
  { h with flags := replyFlags h.flags, commandId := commandId }

/-- The space a response may take. -/
def budget (capacity : Nat) : Nat := if capacity < frameMaxBody then capacity else frameMaxBody

/-- The payload of the answer, its command, and how many records were asked for and given. -/
def readAnswer (set : AttributeSet) (frame : FrameInfo) (payload : Bytes) (capacity : Nat) :
    Except Codec (Bytes × ReadInfo) :=
  if frame.payloadLength = 0 ∨ frame.payloadLength % 2 = 1 then
    .ok ([commandReadAttributes, statusMalformedCommand], ⟨0, commandDefaultResponse, 0, 0⟩)
  else if budget capacity < frame.payloadOffset + 3 then .error .bufferTooSmall
  else
    match readRecords set (budget capacity - frame.payloadOffset) (idsOf payload) [] 0 with
    | .error e => .error e
    | .ok (records, returned) =>
      .ok (records, ⟨0, commandReadAttributesResponse, frame.payloadLength / 2, returned⟩)

def readAttrsUnicast (set : AttributeSet) (request response : Bytes) (capacity : Nat) (info : ReadInfo) :
    Codec × Bytes × ReadInfo :=
  match attrSetCheck set with
  | .ok =>
    match frameDecode request with
    | .error e => (e, response, info)
    | .ok frame =>
      if frame.header.type ≠ frameGlobal ∨ frame.header.commandId ≠ commandReadAttributes then
        (.unsupportedCommand, response, info)
      else if flagOctet frame.header.flags flagServerToClient ≠ set.side ∨ ¬ contextMatches set frame.header then
        (.unsupportedContext, response, info)
      else
        match readAnswer set frame (request.drop frame.payloadOffset) capacity with
        | .error e => (e, response, info)
        | .ok (payload, candidate) =>
          match frameEncodeInto (replyHeader frame.header candidate.commandId) payload response capacity 0 with
          | (.ok, response, length) => (.ok, response, { candidate with length := length.toNat })
          | (e, response, _) => (e, response, info)
  | e => (e, response, info)

/-! ## One record -/

/-- The record an identifier deserves when `room` octets are left: the status of an
unknown or unreadable attribute, the type and the value where they fit, and the
status for lack of space where they do not. -/
def Answers (set : AttributeSet) (id : UInt16) (room : Nat) (record : Bytes) : Prop :=
  match findAttribute set id with
  | none => record = put16 id ++ [statusUnsupportedAttribute]
  | some a =>
    if a.readable = 0 then record = put16 id ++ [statusNotAuthorized]
    else ∃ octets, valueEncode a.value valueMaxSize = .ok octets ∧
      record = if 4 + octets.length ≤ room then put16 id ++ [statusSuccess, a.value.type] ++ octets
        else put16 id ++ [statusInsufficientSpace]

theorem Answers.length {set : AttributeSet} {id : UInt16} {room : Nat} {record : Bytes} (h : Answers set id room record)
    (hroom : 3 ≤ room) : 3 ≤ record.length ∧ record.length ≤ room := by
  unfold Answers at h
  split at h
  · subst h
    simpa using hroom
  · split at h
    · subst h
      simpa using hroom
    · obtain ⟨octets, _, rfl⟩ := h
      split
      · simp only [List.length_append, put16_length, List.length_cons, List.length_nil]
        omega
      · simpa using hroom

theorem readRecord_answers {set : AttributeSet} {id : UInt16} {room : Nat} {record : Bytes}
    (h : readRecord set id room = .ok record) : Answers set id room record := by
  unfold readRecord at h
  unfold Answers
  split at h
  next => exact (Except.ok.inj h).symm
  next a hsome =>
    split at h
    next hread =>
      rw [if_pos hread]
      exact (Except.ok.inj h).symm
    next hread =>
      rw [if_neg hread]
      rw [valueEncode_capacity] at h
      cases hmax : valueEncode a.value valueMaxSize with
      | error e =>
        simp only [hmax] at h
        have hne : e ≠ .bufferTooSmall := fun he => valueEncode_max a.value (he ▸ hmax)
        rw [if_neg hne] at h
        cases h
      | ok octets =>
        refine ⟨octets, rfl, ?_⟩
        simp only [hmax] at h
        by_cases hfour : room ≥ 4
        · by_cases hfit : 4 + octets.length ≤ room
          · rw [if_pos hfour, if_neg (show ¬ room - 4 < octets.length by omega)] at h
            simp only [if_neg (Nat.not_lt.2 hfour)] at h
            rw [if_pos hfit]
            exact (Except.ok.inj h).symm
          · rw [if_pos hfour, if_pos (show room - 4 < octets.length by omega)] at h
            rw [if_neg hfit]
            exact (Except.ok.inj h).symm
        · rw [if_neg (show ¬ 4 + octets.length ≤ room by omega)]
          rw [if_neg hfour] at h
          -- With three octets left both the empty and the longer value are refused.
          split at h
          next e he =>
            split at he
            · cases he
              exact (Except.ok.inj h).symm
            · cases he
          next o ho =>
            rw [if_pos (by omega)] at h
            exact (Except.ok.inj h).symm

/-- Whether every value the table lets be read has an encoding. -/
def Encodable (set : AttributeSet) : Prop :=
  ∀ a ∈ set.attributes, a.readable ≠ 0 → ∃ octets, valueEncode a.value valueMaxSize = .ok octets

theorem readRecord_total {set : AttributeSet} (h : Encodable set) (id : UInt16) (room : Nat) :
    ∃ record, readRecord set id room = .ok record := by
  unfold readRecord
  split
  · exact ⟨_, rfl⟩
  next a hsome =>
    split
    · exact ⟨_, rfl⟩
    next hread =>
      obtain ⟨octets, hmax⟩ := h a (List.mem_of_find?_eq_some hsome) hread
      rw [valueEncode_capacity, hmax]
      by_cases hfit : (if room ≥ 4 then room - 4 else 0) < octets.length
      · simp only [if_pos hfit, if_true]
        exact ⟨_, rfl⟩
      · simp only [if_neg hfit]
        split <;> exact ⟨_, rfl⟩

/-! ## The list of records -/

/-- Records for a prefix of the identifiers, packed into `room` octets behind `before`
of them, that end only where not even a status fits. -/
structure Packed (set : AttributeSet) (room before : Nat) (ids : List UInt16) (records : List Bytes) : Prop where
  count : records.length ≤ ids.length
  answers : ∀ i id record, ids[i]? = some id → records[i]? = some record →
    Answers set id (room - (before + (records.take i).flatten.length)) record
  fits : before + records.flatten.length ≤ room
  full : records.length < ids.length → room - (before + records.flatten.length) < 3

theorem Packed.nil {set : AttributeSet} {room before : Nat} {ids : List UInt16} (hbefore : before ≤ room)
    (hfull : ids ≠ [] → room - before < 3) : Packed set room before ids [] := by
  refine ⟨Nat.zero_le _, fun i id record _ hr => by simp at hr, by simpa using hbefore, fun h => ?_⟩
  simpa using hfull (List.ne_nil_of_length_pos h)

theorem Packed.cons {set : AttributeSet} {room before : Nat} {ids : List UInt16} {records : List Bytes} {id : UInt16}
    {record : Bytes} (h : Packed set room (before + record.length) ids records)
    (ha : Answers set id (room - before) record) : Packed set room before (id :: ids) (record :: records) := by
  have hflat : (record :: records).flatten.length = record.length + records.flatten.length := by
    simp only [List.flatten_cons, List.length_append]
  refine ⟨Nat.succ_le_succ h.count, ?_, ?_, ?_⟩
  · intro i id' record' hid hrecord
    cases i with
    | zero =>
      simp only [List.getElem?_cons_zero, Option.some.injEq] at hid hrecord
      subst hid hrecord
      simpa using ha
    | succ i =>
      have hi := h.answers i id' record' (by simpa using hid) (by simpa using hrecord)
      have hlen : before + ((record :: records).take (i + 1)).flatten.length =
          before + record.length + (records.take i).flatten.length := by
        simp only [List.take_succ_cons, List.flatten_cons, List.length_append]
        omega
      rw [hlen]
      exact hi
  · rw [hflat]
    have := h.fits
    omega
  · intro hlt
    rw [hflat]
    have := h.full (by simpa using hlt)
    omega

theorem readRecords_packed {set : AttributeSet} {room : Nat} {ids : List UInt16} {payload out : Bytes} {returned count : Nat}
    (hbefore : payload.length ≤ room) (h : readRecords set room ids payload returned = .ok (out, count)) :
    ∃ records, Packed set room payload.length ids records ∧ out = payload ++ records.flatten ∧
      count = returned + records.length := by
  induction ids generalizing payload returned with
  | nil =>
    cases h
    exact ⟨[], Packed.nil hbefore (fun hne => absurd rfl hne), by simp, by simp⟩
  | cons id ids ih =>
    simp only [readRecords] at h
    split at h
    next hfull =>
      cases h
      exact ⟨[], Packed.nil hbefore (fun _ => hfull), by simp, by simp⟩
    next hroom =>
      split at h
      · cases h
      next record hrecord =>
        have ha := readRecord_answers hrecord
        have hlen := ha.length (by omega)
        obtain ⟨records, hpacked, hout, hcount⟩ := ih (by rw [List.length_append]; omega) h
        rw [List.length_append] at hpacked
        refine ⟨record :: records, hpacked.cons ha, ?_, ?_⟩
        · rw [hout, List.flatten_cons, List.append_assoc]
        · rw [hcount, List.length_cons]
          omega

theorem readRecords_total {set : AttributeSet} (hset : Encodable set) (room : Nat) (ids : List UInt16) (payload : Bytes)
    (returned : Nat) : ∃ out, readRecords set room ids payload returned = .ok out := by
  induction ids generalizing payload returned with
  | nil => exact ⟨_, rfl⟩
  | cons id ids ih =>
    simp only [readRecords]
    split
    · exact ⟨_, rfl⟩
    · obtain ⟨record, hrecord⟩ := readRecord_total hset id (room - payload.length)
      simp only [hrecord]
      exact ih _ _

/-! ## The answer -/

theorem replyFlags_fields {flags : UInt8} (h : flags &&& 0xe3 = 0) :
    replyFlags flags &&& 0xe3 = 0 ∧ headerSize (replyFlags flags) = headerSize flags := by
  have hall : ∀ f : UInt8, f &&& 0xe3 = 0 → replyFlags f &&& 0xe3 = 0 ∧ headerSize (replyFlags f) = headerSize f := by
    decide +kernel
  exact hall flags h

@[simp] theorem idsOf_length (payload : Bytes) : (idsOf payload).length = payload.length / 2 := by
  induction payload using idsOf.induct with
  | case1 a b rest ih =>
    simp only [idsOf, List.length_cons, ih]
    omega
  | case2 payload hshort =>
    match payload, hshort with
    | [], _ => rfl
    | [_], _ => simp [idsOf]
    | a :: b :: rest, hshort => exact absurd rfl (hshort a b rest)

theorem budget_eq (capacity : Nat) : budget capacity = min capacity frameMaxBody := by
  unfold budget
  split <;> omega

theorem budget_le (capacity : Nat) : budget capacity ≤ capacity ∧ budget capacity ≤ frameMaxBody := by
  rw [budget_eq]
  exact ⟨min_le_left _ _, min_le_right _ _⟩

/-- A payload that fits the budget encodes behind the header of an answer. -/
theorem replyEncode {body : Bytes} {frame : FrameInfo} (g : GoodFrame body frame) {payload : Bytes} {capacity : Nat}
    (commandId : UInt8) (hfit : frame.payloadOffset + payload.length ≤ budget capacity) :
    EncodedFrame (replyHeader frame.header commandId) payload capacity
      ((replyHeader frame.header commandId).octets ++ payload) := by
  obtain ⟨hflags, hsize⟩ := replyFlags_fields g.flags
  obtain ⟨hcapacity, hmax⟩ := budget_le capacity
  have hoffset := g.offset
  refine ⟨g.type, hflags, ?_, ?_, rfl⟩
  · simp only [replyHeader, hsize]
    omega
  · simp only [replyHeader, hsize]
    omega

/-- The octets of an answer and what is said about them. -/
structure ReadResponse (set : AttributeSet) (frame : FrameInfo) (payload : Bytes) (capacity : Nat) (octets : Bytes)
    (info : ReadInfo) : Prop where
  fits : octets.length ≤ min capacity frameMaxBody
  length : info.length = octets.length
  malformed : payload.length = 0 ∨ payload.length % 2 = 1 →
    info.commandId = commandDefaultResponse ∧ info.returnedCount = 0 ∧
      octets = (replyHeader frame.header commandDefaultResponse).octets ++ [commandReadAttributes, statusMalformedCommand]
  records : ¬(payload.length = 0 ∨ payload.length % 2 = 1) → ∃ records,
    Packed set (min capacity frameMaxBody - frame.payloadOffset) 0 (idsOf payload) records ∧
      octets = (replyHeader frame.header commandReadAttributesResponse).octets ++ records.flatten ∧
      info.commandId = commandReadAttributesResponse ∧ info.requestedCount = (idsOf payload).length ∧
      info.returnedCount = records.length

theorem readRecord_error (set : AttributeSet) (id : UInt16) (room : Nat) : readRecord set id room ≠ .error .ok := by
  unfold readRecord
  split
  · simp
  · split
    · simp
    · split
      next e he =>
        split
        · simp
        · intro heq
          cases heq
          exact valueEncode_error _ _ he
      next => split <;> simp

theorem readRecords_error (set : AttributeSet) (room : Nat) (ids : List UInt16) (payload : Bytes) (returned : Nat) :
    readRecords set room ids payload returned ≠ .error .ok := by
  induction ids generalizing payload returned with
  | nil => simp [readRecords]
  | cons id ids ih =>
    simp only [readRecords]
    split
    · simp
    · split
      next e he =>
        intro heq
        cases heq
        exact readRecord_error set id _ he
      next => exact ih _ _

theorem readAnswer_error (set : AttributeSet) (frame : FrameInfo) (payload : Bytes) (capacity : Nat) :
    readAnswer set frame payload capacity ≠ .error .ok := by
  unfold readAnswer
  split
  · simp
  split
  · simp
  split
  next e he =>
    intro heq
    cases heq
    exact readRecords_error set _ _ _ _ he
  next => simp

/-- What an answer's payload is. -/
theorem readAnswer_response {set : AttributeSet} {body : Bytes} {frame : FrameInfo} {capacity : Nat} {answer : Bytes}
    {candidate : ReadInfo} {octets : Bytes} (g : GoodFrame body frame)
    (h : readAnswer set frame (body.drop frame.payloadOffset) capacity = .ok (answer, candidate))
    (he : EncodedFrame (replyHeader frame.header candidate.commandId) answer capacity octets) :
    ReadResponse set frame (body.drop frame.payloadOffset) capacity octets { candidate with length := octets.length } := by
  have hlength : (body.drop frame.payloadOffset).length = frame.payloadLength := by
    have := g.length
    rw [List.length_drop]
    omega
  have hfits : octets.length ≤ min capacity frameMaxBody := by
    rw [he.length]
    exact le_min he.room he.short
  have hoctets := he.octets_eq
  unfold readAnswer at h
  split at h
  next hbad =>
    cases h
    exact ⟨hfits, rfl, fun _ => ⟨rfl, rfl, hoctets⟩, fun hgood => absurd (by rw [hlength]; exact hbad) hgood⟩
  next hgood =>
    split at h
    · cases h
    split at h
    · cases h
    next records returned hrecords =>
      cases h
      obtain ⟨list, hpacked, hout, hcount⟩ := readRecords_packed (Nat.zero_le _) hrecords
      refine ⟨hfits, rfl, fun hbad => absurd (by rw [← hlength]; exact hbad) hgood, fun _ => ⟨list, ?_, ?_, rfl, ?_, ?_⟩⟩
      · rw [← budget_eq]
        exact hpacked
      · rw [hoctets, hout, List.nil_append]
      · rw [idsOf_length, hlength]
      · simpa using hcount

/-- What a call does: it fails and writes nothing, or encodes an answer. -/
theorem readAttrsUnicast_cases (set : AttributeSet) (request response : Bytes) (capacity : Nat) (info : ReadInfo) :
    (∃ e, e ≠ .ok ∧ readAttrsUnicast set request response capacity info = (e, response, info)) ∨
    ∃ frame answer candidate octets, frameDecode request = .ok frame ∧
      readAnswer set frame (request.drop frame.payloadOffset) capacity = .ok (answer, candidate) ∧
      EncodedFrame (replyHeader frame.header candidate.commandId) answer capacity octets ∧
      readAttrsUnicast set request response capacity info =
        (.ok, overwrite response octets, { candidate with length := octets.length }) := by
  unfold readAttrsUnicast
  split
  next hset =>
    split
    next e he => exact .inl ⟨e, fun hok => frameDecode_error request (hok ▸ he), rfl⟩
    next frame hframe =>
      split
      · exact .inl ⟨_, by decide, rfl⟩
      split
      · exact .inl ⟨_, by decide, rfl⟩
      split
      next e he => exact .inl ⟨e, fun hok => readAnswer_error set frame _ capacity (hok ▸ he), rfl⟩
      next answer candidate hanswer =>
        rcases frameEncodeInto_cases (replyHeader frame.header candidate.commandId) answer response capacity 0 with
          ⟨octets, hencoded, heq⟩ | ⟨e, hne, _, heq⟩
        · have hshort : octets.length < 256 := by
            have := hencoded.short
            rw [← hencoded.length] at this
            exact Nat.lt_of_le_of_lt this (by decide)
          refine .inr ⟨frame, answer, candidate, octets, hframe, hanswer, hencoded, ?_⟩
          simp only [heq, UInt8.toNat_ofNat_of_lt' hshort]
        · refine .inl ⟨e, hne, ?_⟩
          cases e <;> first
            | exact absurd rfl hne
            | simp only [heq]
  next hne => exact .inl ⟨attrSetCheck set, hne, rfl⟩

/-- A request the table can answer is answered. -/
theorem readAnswer_total {set : AttributeSet} {frame : FrameInfo} {capacity : Nat} (hset : Encodable set) (payload : Bytes)
    (hroom : frame.payloadOffset + 3 ≤ budget capacity) :
    ∃ answer candidate, readAnswer set frame payload capacity = .ok (answer, candidate) ∧
      frame.payloadOffset + answer.length ≤ budget capacity := by
  unfold readAnswer
  split
  · exact ⟨_, _, rfl, by simp only [List.length_cons, List.length_nil]; omega⟩
  · rw [if_neg (by omega)]
    obtain ⟨⟨out, returned⟩, hrecords⟩ := readRecords_total hset (budget capacity - frame.payloadOffset) (idsOf payload) [] 0
    obtain ⟨list, hpacked, hout, _⟩ := readRecords_packed (Nat.zero_le _) hrecords
    have hfits := hpacked.fits
    simp only [hrecords]
    refine ⟨_, _, rfl, ?_⟩
    rw [hout, List.nil_append]
    simp only [List.length_nil] at hfits
    omega

/-- Every Read Attributes call leaves its outputs alone or answers with whole, correct
records for a prefix of the identifiers that ends only where no record fits; and a
request that fits the table is answered whenever its values can be encoded and the
shortest record fits. -/
theorem read_attributes_answered (set : AttributeSet) (request response : Bytes) (capacity : Nat) (info : ReadInfo) :
    ((readAttrsUnicast set request response capacity info).1 ≠ .ok →
      (readAttrsUnicast set request response capacity info).2 = (response, info)) ∧
    ((readAttrsUnicast set request response capacity info).1 = .ok → ∃ frame octets,
      frameDecode request = .ok frame ∧
      (readAttrsUnicast set request response capacity info).2.1 = overwrite response octets ∧
      ReadResponse set frame (request.drop frame.payloadOffset) capacity octets
        (readAttrsUnicast set request response capacity info).2.2) ∧
    (∀ frame, attrSetCheck set = .ok → Encodable set → frameDecode request = .ok frame →
      frame.header.type = frameGlobal → frame.header.commandId = commandReadAttributes →
      flagOctet frame.header.flags flagServerToClient = set.side → contextMatches set frame.header = true →
      frame.payloadOffset + 3 ≤ min capacity frameMaxBody →
      (readAttrsUnicast set request response capacity info).1 = .ok) := by
  refine ⟨fun hne => ?_, fun hok => ?_, ?_⟩
  · rcases readAttrsUnicast_cases set request response capacity info with ⟨e, _, heq⟩ | ⟨_, _, _, _, _, _, _, heq⟩
    · rw [heq]
    · rw [heq] at hne
      exact absurd rfl hne
  · rcases readAttrsUnicast_cases set request response capacity info with
      ⟨e, hne, heq⟩ | ⟨frame, answer, candidate, octets, hframe, hanswer, hencoded, heq⟩
    · rw [heq] at hok
      exact absurd hok hne
    · rw [heq]
      exact ⟨frame, octets, hframe, rfl, readAnswer_response (frameDecode_good hframe) hanswer hencoded⟩
  · intro frame hset hvalues hframe htype hcommand hside hcontext hroom
    rw [← budget_eq] at hroom
    obtain ⟨answer, candidate, hanswer, hfit⟩ := readAnswer_total hvalues (request.drop frame.payloadOffset) hroom
    have hencoded := replyEncode (frameDecode_good hframe) candidate.commandId hfit
    unfold readAttrsUnicast
    simp only [hset, hframe]
    rw [if_neg (by simp [htype, hcommand]), if_neg (by simp [hside, hcontext])]
    simp only [hanswer, frameEncodeInto, frameEncode_ok.2 hencoded]

end Zcl
