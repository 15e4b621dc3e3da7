import Cc2530Zigbee.ZclAttributes

/-!
# Write Attributes

`zcl_write.c`. One pass over the records of a Write Attributes request decides the
status of each and remembers the last value for the one writable attribute; only
after the whole list was walked and the answer encoded is that value handed to the
caller.
-/
namespace Zcl
open Octets

inductive DispatchKind where
  | response | defaultReceived | silent
  deriving DecidableEq, Repr

structure DispatchInfo where
  kind : DispatchKind
  length : Nat
  commandId : UInt8
  sequence : UInt8
  requestedCount : Nat
  returnedCount : Nat
  discoveryComplete : UInt8
  defaultCommand : UInt8
  defaultStatus : UInt8
  defaultRawStatus : UInt8
  deriving DecidableEq, Repr

/-- A cleared record. -/
def DispatchInfo.zero : DispatchInfo := ⟨.response, 0, 0, 0, 0, 0, 0, 0, 0, 0⟩

def commandWriteAttributes : UInt8 := 0x02
def commandWriteUndivided : UInt8 := 0x03
def commandWriteResponse : UInt8 := 0x04
def commandWriteNoResponse : UInt8 := 0x05

def statusReadOnly : UInt8 := 0x88
def statusInvalidDataType : UInt8 := 0x8d

/-- The one writable attribute, and what was written to it. -/
structure Edit where
  id : UInt16
  value : UInt16
  written : Bool
  deriving DecidableEq, Repr

/-- How many octets the value of a record takes. A Boolean with a wrong octet still has
one, so that the records behind it are read. -/
def writeLength (type : UInt8) (rest : Bytes) : Except Codec Nat :=
  match valueDecode type rest with
  | .ok value => .ok value.encodedLength
  | .error e => if e = .invalidValue ∧ type = typeBoolean then .ok 1 else .error e

/-- Whether `edit` names an attribute. -/
def Edit.names (edit : Option Edit) (id : UInt16) : Bool := edit.any fun e => e.id = id

/-- Existence, then type, then permission. -/
def writeStatus (set : AttributeSet) (edit : Option Edit) (id : UInt16) (type : UInt8) : UInt8 :=
  match findAttribute set id with
  | none => statusUnsupportedAttribute
  | some a =>
    if a.value.type ≠ type then statusInvalidDataType
    else if Edit.names edit id then statusSuccess
    else statusReadOnly

structure WriteState where
  body : Bytes
  last : UInt16
  wrote : Bool
  count : Nat
  errors : Nat
  deriving DecidableEq, Repr

def WriteState.start : WriteState := ⟨[], 0, false, 0, 0⟩

/-- One record: the value of the writable attribute is kept, any other gets its status. -/
def writeStep (set : AttributeSet) (edit : Option Edit) (id : UInt16) (type : UInt8) (value : Bytes) (s : WriteState) :
    Except Codec WriteState :=
  let status := writeStatus set edit id type
  if status = statusSuccess then
    if type ≠ typeUint16 then .error .invalidTable
    else .ok { s with last := u16At value 0, wrote := true, count := s.count + 1 }
  else .ok { s with body := s.body ++ status :: put16 id, errors := s.errors + 1, count := s.count + 1 }

/-- The records of a payload. Each takes three octets or more, so the length of the
payload is fuel enough. The first part of the result is the status the walk ended with. -/
def writeRecords (set : AttributeSet) (edit : Option Edit) : (fuel : Nat) → (rc : Codec) → (payload : Bytes) →
    WriteState → Except Codec (Codec × WriteState)
  | 0, rc, _, s => .ok (rc, s)
  | fuel + 1, rc, payload, s =>
    if payload.length = 0 then .ok (rc, s)
    else if payload.length < 3 then .ok (.truncated, s)
    else
      let id := u16At payload 0
      let type := byteAt payload 2
      let rest := payload.drop 3
      match writeLength type rest with
      | .error e => .ok (e, s)
      | .ok length =>
        match writeStep set edit id type rest s with
        | .error e => .error e
        | .ok s => writeRecords set edit fuel .ok (rest.drop length) s

/-- What the caller is told was written. -/
def finishEdit (edit : Option Edit) (wrote : Bool) (last : UInt16) : Option Edit :=
  edit.map fun e => { e with written := wrote, value := if wrote then last else e.value }

/-- The command, the payload and the record of the answer, and whether the value stands. -/
structure WriteAnswer where
  commandId : UInt8
  body : Bytes
  info : DispatchInfo
  wrote : Bool

def writeAnswer (command : UInt8) (rc : Codec) (s : WriteState) (info : DispatchInfo) : WriteAnswer :=
  if rc ≠ .ok then
    -- Missing fields: the whole command is not carried out.
    { commandId := commandDefaultResponse
      body := [command, statusMalformedCommand]
      info := { info with
        defaultCommand := command
        defaultStatus := statusMalformedCommand
        defaultRawStatus := statusMalformedCommand }
      wrote := false }
  else
    { commandId := commandWriteResponse
      body := if s.body.length = 0 then [statusSuccess] else s.body
      info := { info with
        requestedCount := s.count
        returnedCount := if s.body.length = 0 then 1 else s.errors }
      wrote := if s.body.length ≠ 0 ∧ command = commandWriteUndivided then false else s.wrote }

def wrHandle (set : AttributeSet) (frame : FrameInfo) (payload response : Bytes) (capacity : Nat) (info : DispatchInfo)
    (edit : Option Edit) : Codec × Bytes × DispatchInfo × Option Edit :=
  let info := { info with sequence := frame.header.sequence }
  let command := frame.header.commandId
  match writeRecords set edit payload.length .truncated payload .start with
  | .error e => (e, response, info, edit)
  | .ok (rc, s) =>
    if rc ≠ .ok ∧ rc ≠ .truncated then (rc, response, info, edit)
    else if command = commandWriteNoResponse then
      if rc ≠ .ok then (rc, response, info, edit)
      else (.ok, response, { info with kind := .silent }, finishEdit edit s.wrote s.last)
    else
      let answer := writeAnswer command rc s info
      match frameEncodeInto (replyHeader frame.header answer.commandId) answer.body response capacity 0 with
      | (.ok, response, length) =>
        (.ok, response, { answer.info with length := length.toNat, commandId := answer.commandId },
          finishEdit edit answer.wrote s.last)
      | (e, response, _) => (e, response, answer.info, edit)

/-! ## The records of a request -/

/-- A record: the attribute, the type and the octets of its value. -/
structure WriteRecord where
  id : UInt16
  type : UInt8
  value : Bytes
  deriving DecidableEq, Repr

def WriteRecord.octets (r : WriteRecord) : Bytes := put16 r.id ++ r.type :: r.value

/-- A payload that is a list of whole records. -/
inductive Parsed : Bytes → List WriteRecord → Prop
  | nil : Parsed [] []
  | cons {r : WriteRecord} {rest : Bytes} {records : List WriteRecord}
      (length : writeLength r.type (r.value ++ rest) = .ok r.value.length) (parsed : Parsed rest records) :
      Parsed (r.octets ++ rest) (r :: records)

/-- A structurally sound request: one whole record or more. -/
def Sound (payload : Bytes) (records : List WriteRecord) : Prop := records ≠ [] ∧ Parsed payload records

section Records

variable (set : AttributeSet) (edit : Option Edit)

def WriteRecord.status (r : WriteRecord) : UInt8 := writeStatus set edit r.id r.type

/-- A record that is applied. -/
def WriteRecord.valid (r : WriteRecord) : Bool := r.status set edit = statusSuccess

/-- The value a record writes. -/
def WriteRecord.number (r : WriteRecord) : UInt16 := u16At r.value 0

/-- The failing records, in the order of the request. -/
def failing (records : List WriteRecord) : List WriteRecord := records.filter fun r => !r.valid set edit

/-- The values written, in the order of the request. -/
def written (records : List WriteRecord) : List UInt16 :=
  (records.filter fun r => r.valid set edit).map WriteRecord.number

/-- The response records of the failing ones. -/
def failures (records : List WriteRecord) : Bytes :=
  (failing set edit records).flatMap fun r => r.status set edit :: put16 r.id

/-- A record for the writable attribute whose type is not the one that can be written. -/
def WriteRecord.mismatched (r : WriteRecord) : Bool := r.valid set edit && r.type != typeUint16

/-- The state of the walk behind a list of records. -/
def WriteState.behind (s : WriteState) (records : List WriteRecord) : WriteState where
  body := s.body ++ failures set edit records
  last := (written set edit records).getLast?.getD s.last
  wrote := s.wrote || records.any (WriteRecord.valid set edit)
  count := s.count + records.length
  errors := s.errors + (failing set edit records).length

@[simp] theorem behind_nil (s : WriteState) : s.behind set edit [] = s := by
  simp [WriteState.behind, failures, failing, written]

/-- One record more at the front. -/
theorem behind_cons (s : WriteState) (r : WriteRecord) (records : List WriteRecord) :
    s.behind set edit (r :: records) = (s.behind set edit [r]).behind set edit records := by
  cases hv : r.valid set edit with
  | true =>
    have hlast : (r.number :: written set edit records).getLast?.getD s.last =
        (written set edit records).getLast?.getD r.number := by
      rw [List.getLast?_cons]
      rfl
    simp only [WriteState.behind, failures, failing, written, List.filter_cons, hv, Bool.not_true, Bool.false_eq_true,
      if_false, if_true, List.map_cons, List.filter_nil, List.map_nil, List.any_cons, List.any_nil, List.length_cons,
      List.length_nil, List.flatMap_nil, List.append_nil, List.getLast?_singleton, Option.getD_some, Bool.true_or,
      Bool.or_true, Nat.add_zero, WriteState.mk.injEq, true_and, and_true]
    exact ⟨hlast, by omega⟩
  | false =>
    simp only [WriteState.behind, failures, failing, written, List.filter_cons, hv, Bool.not_false, if_true,
      Bool.false_eq_true, if_false, List.flatMap_cons, List.flatMap_nil, List.append_nil, List.append_assoc,
      List.filter_nil, List.map_nil, List.getLast?_nil, Option.getD_none, List.any_cons, List.any_nil, Bool.or_false,
      Bool.false_or, List.length_cons, List.length_nil, WriteState.mk.injEq, true_and]
    exact ⟨by omega, by omega⟩

theorem u16At_front (l s : Bytes) (h : 2 ≤ l.length) : u16At (l ++ s) 0 = u16At l 0 := by
  rw [u16At, u16At, byteAt_front l s 0 (by omega), byteAt_front l s 1 (by omega)]

theorem writeLength_uint16 {rest : Bytes} {n : Nat} (h : writeLength typeUint16 rest = .ok n) : n = 2 := by
  unfold writeLength at h
  split at h
  next info hinfo =>
    obtain ⟨shape, hshape, ⟨hk, _⟩ | ⟨_, hf⟩⟩ := valueDecode_cases hinfo
    · cases hshape
      cases hk
    · cases hshape
      cases h
      rw [hf.info_eq]
      rfl
  next e he =>
    rw [if_neg (fun hb => absurd hb.2 (by decide))] at h
    cases h

theorem valid_iff (r : WriteRecord) : r.valid set edit = true ↔ writeStatus set edit r.id r.type = statusSuccess := by
  rw [WriteRecord.valid, decide_eq_true_iff, WriteRecord.status]

/-- What one step does with a record. -/
theorem writeStep_record {r : WriteRecord} {rest : Bytes} (s : WriteState)
    (hlength : writeLength r.type (r.value ++ rest) = .ok r.value.length) :
    writeStep set edit r.id r.type (r.value ++ rest) s =
      if r.mismatched set edit then .error .invalidTable else .ok (s.behind set edit [r]) := by
  unfold writeStep
  simp only
  by_cases hvalid : r.valid set edit = true
  · have hstatus := (valid_iff set edit r).1 hvalid
    rw [if_pos hstatus]
    by_cases htype : r.type = typeUint16
    · have hvalue : u16At (r.value ++ rest) 0 = r.number := by
        rw [htype] at hlength
        exact u16At_front _ _ (by rw [writeLength_uint16 hlength])
      rw [if_neg (not_not.2 htype), if_neg (by simp [WriteRecord.mismatched, htype]), hvalue]
      simp [WriteState.behind, failures, failing, written, hvalid]
    · rw [if_pos htype, if_pos (by simp [WriteRecord.mismatched, hvalid, htype])]
  · have hstatus : writeStatus set edit r.id r.type ≠ statusSuccess := fun hs => hvalid ((valid_iff set edit r).2 hs)
    have hfalse : r.valid set edit = false := by simpa using hvalid
    rw [if_neg hstatus, if_neg (by simp [WriteRecord.mismatched, hfalse])]
    simp [WriteState.behind, failures, failing, written, hfalse, WriteRecord.status]

theorem octets_fields (r : WriteRecord) (rest : Bytes) :
    u16At (r.octets ++ rest) 0 = r.id ∧ byteAt (r.octets ++ rest) 2 = r.type ∧
      (r.octets ++ rest).drop 3 = r.value ++ rest ∧ 3 + r.value.length = r.octets.length := by
  refine ⟨?_, ?_, ?_, ?_⟩
  · rw [WriteRecord.octets, List.append_assoc, u16At_here]
  · simp [WriteRecord.octets, put16, byteAt]
  · simp [WriteRecord.octets, put16]
  · simp [WriteRecord.octets]
    omega

/-- One turn of the walk over a whole record. -/
theorem writeRecords_turn {r : WriteRecord} {rest : Bytes} (fuel : Nat) (rc : Codec) (s : WriteState)
    (hlength : writeLength r.type (r.value ++ rest) = .ok r.value.length) :
    writeRecords set edit (fuel + 1) rc (r.octets ++ rest) s =
      if r.mismatched set edit then .error .invalidTable
      else writeRecords set edit fuel .ok rest (s.behind set edit [r]) := by
  obtain ⟨hid, htype, hdrop, hsize⟩ := octets_fields r rest
  have hlen : (r.octets ++ rest).length = 3 + r.value.length + rest.length := by rw [List.length_append, hsize]
  rw [writeRecords, if_neg (by omega), if_neg (by omega)]
  simp only [hid, htype, hdrop, hlength, writeStep_record set edit s hlength]
  by_cases hbad : r.mismatched set edit = true
  · simp only [if_pos hbad]
  · simp only [if_neg hbad, List.drop_left]

/-- The walk over a list of whole records. -/
theorem writeRecords_parsed {payload : Bytes} {records : List WriteRecord} (h : Parsed payload records) (fuel : Nat)
    (hfuel : payload.length ≤ fuel) (rc : Codec) (s : WriteState) :
    writeRecords set edit fuel rc payload s =
      if records.any (WriteRecord.mismatched set edit) then .error .invalidTable
      else .ok (if records = [] then rc else .ok, s.behind set edit records) := by
  induction h generalizing fuel rc s with
  | nil => cases fuel <;> simp [writeRecords]
  | @cons r rest records hlength hparsed ih =>
    obtain ⟨_, _, _, hsize⟩ := octets_fields r rest
    rw [List.length_append] at hfuel
    obtain ⟨fuel, rfl⟩ : ∃ n, fuel = n + 1 := ⟨fuel - 1, by omega⟩
    rw [writeRecords_turn set edit fuel rc s hlength, ih fuel (by omega)]
    by_cases hbad : r.mismatched set edit = true
    · rw [if_pos hbad, if_pos (by simp [hbad])]
    · have hfalse : r.mismatched set edit = false := by simpa using hbad
      rw [if_neg hbad, List.any_cons, hfalse, Bool.false_or, ← behind_cons]
      split
      · rfl
      · simp

theorem writeLength_le {type : UInt8} {rest : Bytes} {n : Nat} (h : writeLength type rest = .ok n) : n ≤ rest.length := by
  unfold writeLength at h
  split at h
  next info hinfo =>
    cases h
    exact (value_encode_decode hinfo le_rfl).1
  next e he =>
    split at h
    next hbool =>
      cases h
      obtain ⟨rfl, rfl⟩ := hbool
      -- The Boolean was refused for its octet, so it has one.
      by_contra hlen
      have hnil : rest = [] := List.length_eq_zero_iff.1 (by omega)
      subst hnil
      exact absurd he (by decide)
    · cases h

theorem writeLength_error {type : UInt8} {rest : Bytes} : writeLength type rest ≠ .error .ok := by
  unfold writeLength
  split
  · simp
  next e he =>
    split
    · simp
    · intro heq
      cases heq
      exact valueDecode_error type rest he

/-- Only a table that cannot be written ends the walk at once. -/
theorem writeRecords_error {fuel : Nat} {rc e : Codec} {payload : Bytes} {s : WriteState}
    (h : writeRecords set edit fuel rc payload s = .error e) : e = .invalidTable := by
  induction fuel generalizing rc payload s with
  | zero => cases h
  | succ fuel ih =>
    simp only [writeRecords] at h
    split at h
    · cases h
    split at h
    · cases h
    split at h
    · cases h
    split at h
    next e' he' =>
      cases h
      unfold writeStep at he'
      simp only at he'
      split_ifs at he'
      exact (Except.error.inj he').symm
    next => exact ih h

/-- The record at the front of a payload of three octets or more. -/
theorem record_front (payload : Bytes) (length : Nat) (hthree : 3 ≤ payload.length) (hlength : length ≤ (payload.drop 3).length) :
    ∃ r : WriteRecord, r.id = u16At payload 0 ∧ r.type = byteAt payload 2 ∧ r.value.length = length ∧
      payload = r.octets ++ (payload.drop 3).drop length ∧ r.value ++ (payload.drop 3).drop length = payload.drop 3 := by
  refine ⟨⟨u16At payload 0, byteAt payload 2, (payload.drop 3).take length⟩, rfl, rfl, ?_, ?_, List.take_append_drop _ _⟩
  · rw [List.length_take]
    omega
  · match payload, hthree with
    | a :: b :: c :: rest, _ =>
      have hput : put16 (u16At (a :: b :: c :: rest) 0) = [a, b] := put16_le16 a b
      simp [WriteRecord.octets, hput, byteAt]

/-- A walk that ends with success read whole records. -/
theorem writeRecords_sound (fuel : Nat) (rc : Codec) (payload : Bytes) (s s' : WriteState) (hfuel : payload.length ≤ fuel)
    (h : writeRecords set edit fuel rc payload s = .ok (.ok, s')) :
    (payload = [] ∧ rc = .ok) ∨ ∃ records, Sound payload records := by
  induction fuel generalizing rc payload s with
  | zero =>
    have hnil : payload = [] := List.length_eq_zero_iff.1 (Nat.le_zero.1 hfuel)
    simp only [writeRecords, Except.ok.injEq, Prod.mk.injEq] at h
    exact .inl ⟨hnil, h.1⟩
  | succ fuel ih =>
    simp only [writeRecords] at h
    split at h
    next hnil =>
      simp only [Except.ok.injEq, Prod.mk.injEq] at h
      exact .inl ⟨List.length_eq_zero_iff.1 hnil, h.1⟩
    split at h
    · simp at h
    next hthree =>
      split at h
      next e he =>
        simp only [Except.ok.injEq, Prod.mk.injEq] at h
        exact absurd (h.1 ▸ he) writeLength_error
      next length hlength =>
        split at h
        · cases h
        next s1 _ =>
          have hle := writeLength_le hlength
          obtain ⟨r, _, htype, hvalue, hpayload, hrest⟩ := record_front payload length (by omega) hle
          have hr : writeLength r.type (r.value ++ (payload.drop 3).drop length) = .ok r.value.length := by
            rw [hrest, htype, hvalue, hlength]
          have hshort : ((payload.drop 3).drop length).length ≤ fuel := by
            rw [List.length_drop, List.length_drop]
            omega
          refine .inr ?_
          rcases ih .ok _ s1 hshort h with ⟨hnil, _⟩ | ⟨records, _, hparsed⟩
          · refine ⟨[r], by simp, ?_⟩
            rw [hpayload]
            rw [hnil] at hr ⊢
            exact .cons hr .nil
          · refine ⟨r :: records, by simp, ?_⟩
            rw [hpayload]
            exact .cons hr hparsed

/-! ## The answer -/

/-- The records of the answer: the failing ones, or one success. -/
def answerBody (records : List WriteRecord) : Bytes :=
  if failing set edit records = [] then [statusSuccess] else failures set edit records

theorem failures_length (records : List WriteRecord) :
    (failures set edit records).length = 3 * (failing set edit records).length := by
  unfold failures
  induction failing set edit records with
  | nil => rfl
  | cons r rest ih =>
    simp only [List.flatMap_cons, List.length_append, List.length_cons, put16_length, ih]
    omega

theorem failures_eq_nil (records : List WriteRecord) :
    (failures set edit records).length = 0 ↔ failing set edit records = [] := by
  rw [failures_length, ← List.length_eq_zero_iff]
  omega

theorem Parsed.length {payload : Bytes} {records : List WriteRecord} (h : Parsed payload records) :
    3 * records.length ≤ payload.length := by
  induction h with
  | nil => simp
  | @cons r rest records _ _ ih =>
    have hsize := (octets_fields r rest).2.2.2
    rw [List.length_append, List.length_cons]
    omega

/-- The answer is never longer than the request. -/
theorem answerBody_length {payload : Bytes} {records : List WriteRecord} (h : Sound payload records) :
    (answerBody set edit records).length ≤ payload.length := by
  have hlength := h.2.length
  have hpos : 0 < records.length := List.length_pos_iff.2 h.1
  have hfew : (failing set edit records).length ≤ records.length := List.length_filter_le _ _
  unfold answerBody
  split
  · simp only [List.length_cons, List.length_nil]
    omega
  · rw [failures_length]
    omega

/-- The value a call hands to its caller to store. -/
def applied (out : Codec × Bytes × DispatchInfo × Option Edit) : Option UInt16 :=
  if out.1 = .ok then out.2.2.2.bind fun e => if e.written then some e.value else none else none

theorem written_nil {records : List WriteRecord} (h : records.any (WriteRecord.valid set edit) = false) :
    written set edit records = [] := by
  have hall : ∀ r ∈ records, ¬ r.valid set edit = true := by simpa using h
  simp [written, List.filter_eq_nil_iff.2 hall]

theorem written_some {records : List WriteRecord} (h : records.any (WriteRecord.valid set edit) = true) :
    ∃ v, (written set edit records).getLast? = some v := by
  obtain ⟨r, hr, hv⟩ := List.any_eq_true.1 h
  have hmem : r.number ∈ written set edit records := List.mem_map.2 ⟨r, List.mem_filter.2 ⟨hr, hv⟩, rfl⟩
  exact ⟨_, List.getLast?_eq_some_getLast (List.ne_nil_of_mem hmem)⟩

/-- The writable attribute is an unsigned 16-bit one. -/
def Writable (set : AttributeSet) (edit : Option Edit) : Prop :=
  ∀ e ∈ edit, ∀ a, findAttribute set e.id = some a → a.value.type = typeUint16

theorem not_mismatched {set : AttributeSet} {edit : Option Edit} (h : Writable set edit) (records : List WriteRecord) :
    records.any (WriteRecord.mismatched set edit) = false := by
  rw [List.any_eq_false]
  intro r _ hbad
  simp only [WriteRecord.mismatched, Bool.and_eq_true, bne_iff_ne] at hbad
  have hstatus := (valid_iff set edit r).1 hbad.1
  unfold writeStatus at hstatus
  split at hstatus
  · exact absurd hstatus (by decide)
  next a ha =>
    split at hstatus
    · exact absurd hstatus (by decide)
    next htype =>
      split at hstatus
      next hnames =>
        cases edit with
        | none => cases hnames
        | some e =>
          have hid : e.id = r.id := by simpa [Edit.names] using hnames
          exact hbad.2 ((not_not.1 htype).symm.trans (h e rfl a (hid ▸ ha)))
      · exact absurd hstatus (by decide)

end Records

/-- What a call does: it fails and hands over nothing, or keeps silent, or answers. -/
theorem wrHandle_cases (set : AttributeSet) (frame : FrameInfo) (payload response : Bytes) (capacity : Nat)
    (info : DispatchInfo) (edit : Option Edit) :
    (∃ e info', e ≠ .ok ∧ wrHandle set frame payload response capacity info edit = (e, response, info', edit)) ∨
    ∃ rc s, writeRecords set edit payload.length .truncated payload .start = .ok (rc, s) ∧
      ((frame.header.commandId = commandWriteNoResponse ∧ rc = .ok ∧
        wrHandle set frame payload response capacity info edit =
          (.ok, response, { info with sequence := frame.header.sequence, kind := .silent },
            finishEdit edit s.wrote s.last)) ∨
      (frame.header.commandId ≠ commandWriteNoResponse ∧ (rc = .ok ∨ rc = .truncated) ∧
        ∃ answer octets, answer = writeAnswer frame.header.commandId rc s { info with sequence := frame.header.sequence } ∧
          EncodedFrame (replyHeader frame.header answer.commandId) answer.body capacity octets ∧
          wrHandle set frame payload response capacity info edit =
            (.ok, overwrite response octets,
              { answer.info with length := octets.length, commandId := answer.commandId },
              finishEdit edit answer.wrote s.last))) := by
  unfold wrHandle
  simp only
  split
  next e he =>
    have hinvalid := writeRecords_error set edit he
    exact .inl ⟨e, _, by rw [hinvalid]; decide, rfl⟩
  next rc s hs =>
    split
    next hbad => exact .inl ⟨rc, _, hbad.1, rfl⟩
    next hrc =>
      have hrc' : rc = .ok ∨ rc = .truncated := by
        by_contra hne
        exact hrc (not_or.1 hne)
      split
      next hsilent =>
        split
        next hne => exact .inl ⟨rc, _, hne, rfl⟩
        next hok => exact .inr ⟨rc, s, hs, .inl ⟨hsilent, not_not.1 hok, rfl⟩⟩
      next hloud =>
        generalize hanswer : writeAnswer frame.header.commandId rc s
          { info with sequence := frame.header.sequence } = answer
        rcases frameEncodeInto_cases (replyHeader frame.header answer.commandId) answer.body response capacity 0 with
          ⟨octets, hencoded, heq⟩ | ⟨e, hne, _, heq⟩
        · have hshort : octets.length < 256 := by
            have := hencoded.short
            rw [← hencoded.length] at this
            exact Nat.lt_of_le_of_lt this (by decide)
          refine .inr ⟨rc, s, hs, .inr ⟨hloud, hrc', answer, octets, hanswer.symm, hencoded, ?_⟩⟩
          simp only [heq, UInt8.toNat_ofNat_of_lt' hshort]
        · refine .inl ⟨e, answer.info, hne, ?_⟩
          cases e <;> first
            | exact absurd rfl hne
            | simp only [heq]

/-- The walk over a sound request of a table that can be written. -/
theorem walk_sound {set : AttributeSet} {edit : Option Edit} {payload : Bytes} {records : List WriteRecord} {rc : Codec}
    {s : WriteState} (h : Sound payload records)
    (hs : writeRecords set edit payload.length .truncated payload .start = .ok (rc, s)) :
    rc = .ok ∧ s = WriteState.start.behind set edit records := by
  rw [writeRecords_parsed set edit h.2 _ le_rfl] at hs
  split at hs
  · cases hs
  · rw [if_neg h.1] at hs
    cases hs
    exact ⟨rfl, rfl⟩

/-- The value handed over is the last one written, if any. -/
theorem applied_finish {set : AttributeSet} {edit : Option Edit} (response : Bytes) (info : DispatchInfo)
    (records : List WriteRecord) :
    applied (.ok, response, info, finishEdit edit (WriteState.start.behind set edit records).wrote
      (WriteState.start.behind set edit records).last) = (written set edit records).getLast? := by
  cases edit with
  | none =>
    have hnone : records.any (WriteRecord.valid set none) = false := by
      rw [List.any_eq_false]
      intro r _ hv
      have hstatus := (valid_iff set none r).1 hv
      unfold writeStatus at hstatus
      split at hstatus
      · exact absurd hstatus (by decide)
      · split at hstatus
        · exact absurd hstatus (by decide)
        · simp only [Edit.names, Option.any_none, Bool.false_eq_true, if_false] at hstatus
          exact absurd hstatus (by decide)
    simp [applied, finishEdit, written_nil set none hnone]
  | some e =>
    cases hany : records.any (WriteRecord.valid set (some e)) with
    | false => simp [applied, finishEdit, WriteState.behind, WriteState.start, hany, written_nil set _ hany]
    | true =>
      obtain ⟨v, hv⟩ := written_some set (some e) hany
      simp [applied, finishEdit, WriteState.behind, WriteState.start, hany, hv]

theorem applied_dropped (edit : Option Edit) (response : Bytes) (info : DispatchInfo) (last : UInt16) :
    applied (.ok, response, info, finishEdit edit false last) = none := by
  cases edit <;> simp [applied, finishEdit]

/-- The answer to a sound request. -/
structure WriteResponse (set : AttributeSet) (edit : Option Edit) (frame : FrameInfo) (records : List WriteRecord)
    (capacity : Nat) (octets : Bytes) (info : DispatchInfo) : Prop where
  fits : octets.length ≤ min capacity frameMaxBody
  octets_eq : octets = (replyHeader frame.header commandWriteResponse).octets ++ answerBody set edit records
  length : info.length = octets.length
  requested : info.requestedCount = records.length
  returned : info.returnedCount = if failing set edit records = [] then 1 else (failing set edit records).length

/-- A malformed request writes nothing. -/
theorem wrHandle_malformed (set : AttributeSet) (frame : FrameInfo) (payload response : Bytes) (capacity : Nat)
    (info : DispatchInfo) (edit : Option Edit) (h : ¬ ∃ records, Sound payload records) :
    applied (wrHandle set frame payload response capacity info edit) = none := by
  have hwalk : ∀ s, writeRecords set edit payload.length .truncated payload .start ≠ .ok (.ok, s) := by
    intro s hs
    rcases writeRecords_sound set edit _ _ _ _ _ le_rfl hs with ⟨_, hrc⟩ | hsound
    · cases hrc
    · exact h hsound
  rcases wrHandle_cases set frame payload response capacity info edit with
    ⟨e, info', hne, heq⟩ | ⟨rc, s, hs, ⟨_, hrc, _⟩ | ⟨_, hrc, answer, octets, hanswer, _, heq⟩⟩
  · rw [heq, applied, if_neg hne]
  · exact absurd (hrc ▸ hs) (hwalk s)
  · have hne : rc ≠ .ok := fun hok => hwalk s (hok ▸ hs)
    have hwrote : answer.wrote = false := by rw [hanswer, writeAnswer, if_pos hne]
    rw [heq, hwrote]
    exact applied_dropped edit _ _ _

/-- The answer that is made of a walk over a sound request. -/
theorem writeAnswer_sound (set : AttributeSet) (edit : Option Edit) (command : UInt8) (records : List WriteRecord)
    (info : DispatchInfo) :
    writeAnswer command .ok (WriteState.start.behind set edit records) info =
      { commandId := commandWriteResponse
        body := answerBody set edit records
        info := { info with
          requestedCount := records.length
          returnedCount := if failing set edit records = [] then 1 else (failing set edit records).length }
        wrote := if failing set edit records ≠ [] ∧ command = commandWriteUndivided then false
          else (WriteState.start.behind set edit records).wrote } := by
  have hbody : (WriteState.start.behind set edit records).body = failures set edit records := by
    simp [WriteState.behind, WriteState.start]
  have hcount : (WriteState.start.behind set edit records).count = records.length := by
    simp [WriteState.behind, WriteState.start]
  have herrors : (WriteState.start.behind set edit records).errors = (failing set edit records).length := by
    simp [WriteState.behind, WriteState.start]
  rw [writeAnswer, if_neg (by simp)]
  simp only [hbody, hcount, herrors, answerBody, ne_eq, failures_eq_nil]

theorem wrHandle_sound {set : AttributeSet} {frame : FrameInfo} {payload response : Bytes} {capacity : Nat}
    {info : DispatchInfo} {edit : Option Edit} {records : List WriteRecord} (h : Sound payload records)
    (hok : (wrHandle set frame payload response capacity info edit).1 = .ok) :
    let out := wrHandle set frame payload response capacity info edit
    (applied out = if frame.header.commandId = commandWriteUndivided ∧ failing set edit records ≠ [] then none
      else (written set edit records).getLast?) ∧
    (frame.header.commandId = commandWriteNoResponse → out.2.1 = response ∧ out.2.2.1.kind = .silent) ∧
    (frame.header.commandId ≠ commandWriteNoResponse → ∃ octets, out.2.1 = overwrite response octets ∧
      WriteResponse set edit frame records capacity octets out.2.2.1) := by
  rcases wrHandle_cases set frame payload response capacity info edit with
    ⟨e, info', hne, heq⟩ | ⟨rc, s, hs, ⟨hsilent, _, heq⟩ | ⟨hloud, _, answer, octets, hanswer, hencoded, heq⟩⟩
  · rw [heq] at hok
    exact absurd hok hne
  · obtain ⟨_, rfl⟩ := walk_sound h hs
    have hplain : ¬(frame.header.commandId = commandWriteUndivided ∧ failing set edit records ≠ []) := by
      rw [hsilent]
      exact fun hc => absurd hc.1 (by decide)
    simp only [heq]
    rw [if_neg hplain]
    exact ⟨applied_finish response _ records, fun _ => by simp, fun hc => absurd hsilent hc⟩
  · obtain ⟨rfl, rfl⟩ := walk_sound h hs
    rw [writeAnswer_sound] at hanswer
    subst hanswer
    simp only [heq]
    refine ⟨?_, fun hc => absurd hc hloud, fun _ => ⟨octets, rfl, ?_, hencoded.octets_eq, rfl, rfl, rfl⟩⟩
    · by_cases hundivided : frame.header.commandId = commandWriteUndivided ∧ failing set edit records ≠ []
      · have hdropped : failing set edit records ≠ [] ∧ frame.header.commandId = commandWriteUndivided :=
          ⟨hundivided.2, hundivided.1⟩
        simp only [if_pos hundivided, if_pos hdropped]
        exact applied_dropped edit _ _ _
      · have hkept : ¬(failing set edit records ≠ [] ∧ frame.header.commandId = commandWriteUndivided) :=
          fun hc => hundivided ⟨hc.2, hc.1⟩
        simp only [if_neg hundivided, if_neg hkept]
        exact applied_finish _ _ records
    · rw [hencoded.length]
      exact le_min hencoded.room hencoded.short

theorem wrHandle_total {set : AttributeSet} {request : Bytes} {frame : FrameInfo} {payload response : Bytes} {capacity : Nat}
    {info : DispatchInfo} {edit : Option Edit} {records : List WriteRecord} (g : GoodFrame request frame)
    (h : Sound payload records) (hset : Writable set edit)
    (hfit : frame.payloadOffset + (answerBody set edit records).length ≤ budget capacity) :
    (wrHandle set frame payload response capacity info edit).1 = .ok := by
  have hwalk := writeRecords_parsed set edit h.2 _ le_rfl .truncated .start
  rw [not_mismatched hset records, if_neg (by simp), if_neg h.1] at hwalk
  unfold wrHandle
  simp only [hwalk]
  rw [if_neg (by simp)]
  split
  · rw [if_neg (by simp)]
  · simp only [writeAnswer_sound, frameEncodeInto, frameEncode_ok.2 (replyEncode g commandWriteResponse hfit)]

theorem written_all {set : AttributeSet} {edit : Option Edit} {records : List WriteRecord}
    (h : failing set edit records = []) : written set edit records = records.map WriteRecord.number := by
  have hall : ∀ r ∈ records, r.valid set edit = true := by simpa [failing, List.filter_eq_nil_iff] using h
  rw [written, List.filter_eq_self.2 hall]

/-- Write Attributes, for every table, request and capacity: a call that fails hands over
nothing; a malformed request writes nothing; a sound one writes its valid records in
order, or none of them when it is undivided and one fails; the answer lists exactly the
failing records, or one success, and always fits a frame. -/
theorem write_attributes_applied (set : AttributeSet) (request response : Bytes) (capacity : Nat) (frame : FrameInfo)
    (info : DispatchInfo) (edit : Option Edit) (hframe : frameDecode request = .ok frame) :
    let payload := request.drop frame.payloadOffset
    let command := frame.header.commandId
    let out := wrHandle set frame payload response capacity info edit
    (out.1 ≠ .ok → out.2.1 = response ∧ out.2.2.2 = edit) ∧
    ((¬ ∃ records, Sound payload records) → applied out = none) ∧
    (∀ records, Sound payload records → out.1 = .ok →
      (applied out = if command = commandWriteUndivided ∧ failing set edit records ≠ [] then none
        else (written set edit records).getLast?) ∧
      (failing set edit records = [] → written set edit records = records.map WriteRecord.number) ∧
      (command = commandWriteNoResponse → out.2.1 = response ∧ out.2.2.1.kind = .silent) ∧
      (command ≠ commandWriteNoResponse → ∃ octets, out.2.1 = overwrite response octets ∧
        WriteResponse set edit frame records capacity octets out.2.2.1)) ∧
    (∀ records, Sound payload records → frame.payloadOffset + (answerBody set edit records).length ≤ frameMaxBody) ∧
    (∀ records, Sound payload records → Writable set edit →
      frame.payloadOffset + (answerBody set edit records).length ≤ capacity → out.1 = .ok) := by
  intro payload command out
  have g := frameDecode_good hframe
  have hlength : payload.length = frame.payloadLength := by
    have := g.length
    rw [List.length_drop]
    omega
  have hbody : ∀ records, Sound payload records →
      frame.payloadOffset + (answerBody set edit records).length ≤ frameMaxBody := by
    intro records hsound
    have hanswer := answerBody_length set edit hsound
    have hframe := g.length
    have hshort := g.short
    omega
  refine ⟨fun hne => ?_, wrHandle_malformed set frame payload response capacity info edit, fun records hsound hok => ?_,
    hbody, fun records hsound hset hroom => ?_⟩
  · rcases wrHandle_cases set frame payload response capacity info edit with
      ⟨e, info', _, heq⟩ | ⟨_, _, _, ⟨_, _, heq⟩ | ⟨_, _, _, _, _, _, heq⟩⟩
    · simp only [out, heq, and_self]
    · exact absurd (by simp only [out, heq]) hne
    · exact absurd (by simp only [out, heq]) hne
  · obtain ⟨happlied, hsilent, hanswer⟩ := wrHandle_sound hsound hok
    exact ⟨happlied, written_all, hsilent, hanswer⟩
  · refine wrHandle_total g hsound hset ?_
    rw [budget_eq]
    exact le_min hroom (hbody records hsound)

/-- A table with one unsigned 16-bit attribute, and a request that writes 60 to it after
a record for an attribute it does not have. -/
def identifyTable : AttributeSet := ⟨[⟨0, 1, ⟨typeUint16, 0, [0, 0]⟩⟩], 0, 0, 0⟩

def identifyRecords : List WriteRecord := [⟨7, typeBoolean, [2]⟩, ⟨0, typeUint16, [60, 0]⟩]

theorem identifyRecords_sound : Sound [7, 0, 0x10, 2, 0, 0, 0x21, 60, 0] identifyRecords := by
  have hlast : Parsed ((⟨0, typeUint16, [60, 0]⟩ : WriteRecord).octets ++ []) [⟨0, typeUint16, [60, 0]⟩] :=
    .cons (by decide) .nil
  have hboth : Parsed ((⟨7, typeBoolean, [2]⟩ : WriteRecord).octets ++
      ((⟨0, typeUint16, [60, 0]⟩ : WriteRecord).octets ++ [])) identifyRecords := .cons (by decide) hlast
  exact ⟨by decide, hboth⟩

theorem write_attributes_applied_identify :
    frameDecode [0x00, 0x2a, 0x02, 7, 0, 0x10, 2, 0, 0, 0x21, 60, 0] = .ok ⟨⟨0, 0, 0, 0x2a, 2⟩, 0, 3, 9⟩ ∧
      applied (wrHandle identifyTable ⟨⟨0, 0, 0, 0x2a, 2⟩, 0, 3, 9⟩ [7, 0, 0x10, 2, 0, 0, 0x21, 60, 0] [] 100 .zero
        (some ⟨0, 0, false⟩)) = some 60 := by
  have hframe : frameDecode [0x00, 0x2a, 0x02, 7, 0, 0x10, 2, 0, 0, 0x21, 60, 0] = .ok ⟨⟨0, 0, 0, 0x2a, 2⟩, 0, 3, 9⟩ := by
    decide
  have h := write_attributes_applied identifyTable [0x00, 0x2a, 0x02, 7, 0, 0x10, 2, 0, 0, 0x21, 60, 0] [] 100
    ⟨⟨0, 0, 0, 0x2a, 2⟩, 0, 3, 9⟩ .zero (some ⟨0, 0, false⟩) hframe
  refine ⟨hframe, (h.2.2.1 identifyRecords identifyRecords_sound (by decide)).1.trans (by decide)⟩

end Zcl
