import Cc2530Zigbee.BoundedAccess
import Cc2530Zigbee.OctetBits
import Cc2530Zigbee.ZdoServer

/-!
# The ZDO server, octet by octet

The server as it goes through the request, the descriptor table and its staging
buffer. The table is the octets of its records, each after its length, up to a zero
length.
-/
namespace ZdoServer

open Octets ZdoNode BoundedAccess

/-- The staging buffer of a build with a table. -/
def tableStaged : Nat := 5 + descriptorMax + 1

/-- Two octets of the table are two octets of the request. The second ones are read after the first ones agree. -/
def pairAt (table body : Bytes) (i j : Nat) : Except Fault Bool := do
  let low ← read table i
  let wanted ← read body j
  if low ≠ wanted then return false
  else
    let high ← read table (i + 1)
    let wantedHigh ← read body (j + 1)
    return high == wantedHigh

/-- The innermost loop: the input clusters of the record, from `count` on. -/
def scanClusters (table body : Bytes) (record index : Nat) : Nat → Nat → Except Fault Bool
  | 0, _ => return false
  | left + 1, count => do
    if ← pairAt table body (record + 8 + 2 * count) index then return true
    else scanClusters table body record index left (count + 1)

/-- The clusters the request lists, from `index` on. -/
def scanInputs (table body : Bytes) (record : Nat) : Nat → Nat → Except Fault Bool
  | 0, _ => return false
  | left + 1, index => do
    let count ← read table (record + 7)
    if ← scanClusters table body record index count.toNat 0 then return true
    else scanInputs table body record left (index + 2)

/-- The profile of the record is not the one asked for. -/
def profileDiffers (table : Bytes) (record : Nat) (profile : UInt16) : Except Fault Bool := do
  if profile = 0xFFFF then return false
  else
    let low ← read table (record + 2)
    if low ≠ profile.toUInt8 then return true
    else
      let high ← read table (record + 3)
      return high != (profile >>> 8).toUInt8

/-- The loop over the table of a Match_Desc request. The end of the table is found within its length. -/
def matchTable (table body : Bytes) (profile : UInt16) (inputs size : Nat) : Nat → Nat → Bytes → Except Fault Bytes
  | 0, _, _ => .error .read
  | fuel + 1, record, staged => do
    let length ← read table record
    let next := record + length.toNat + 1
    if length = 0 then return staged
    else if ← profileDiffers table record profile then matchTable table body profile inputs size fuel next staged
    else if ← scanInputs table body record inputs 6 then
      let endpoint ← read table (record + 1)
      let staged ← push size staged endpoint
      matchTable table body profile inputs size fuel next staged
    else matchTable table body profile inputs size fuel next staged

/-- The loop over the table of an Active_EP request, with the count that is staged before the endpoints. -/
def listTable (table : Bytes) (size : Nat) : Nat → Nat → Bytes → UInt8 → Except Fault (Bytes × UInt8)
  | 0, _, _, _ => .error .read
  | fuel + 1, record, staged, count => do
    let length ← read table record
    if length = 0 then return (staged, count)
    else
      let endpoint ← read table (record + 1)
      let staged ← push size staged endpoint
      listTable table size fuel (record + length.toNat + 1) staged (count + 1)

/-- The loop over the table of a Simple_Desc request: the first record of the endpoint, or the end of the table. -/
def findTable (table : Bytes) (endpoint : UInt8) : Nat → Nat → Except Fault Nat
  | 0, _ => .error .read
  | fuel + 1, record => do
    let length ← read table record
    if length = 0 then return record
    else
      let found ← read table (record + 1)
      if found = endpoint then return record else findTable table endpoint fuel (record + length.toNat + 1)

/-- Octets copied from a position on to the end of a buffer of `size` octets. -/
def copyFrom (object : Bytes) (size : Nat) : Nat → Nat → Bytes → Except Fault Bytes
  | 0, _, staged => return staged
  | left + 1, i, staged => do
    let octet ← read object i
    let staged ← push size staged octet
    copyFrom object size left (i + 1) staged

/-- The loop of the fixed endpoint, from the last listed cluster to the first. -/
def scanFixed (body : Bytes) : Nat → Bool → Except Fault Bool
  | 0, simple => return simple
  | left + 1, simple => do
    let low ← read body (6 + 2 * left)
    let high ← read body (6 + 2 * left + 1)
    scanFixed body left (simple || inputClusters.contains (le16 low high))

def powerDescAt (l : Local) (body : Bytes) : Except Fault (Except Result Answer) := do
  if body.length < 3 then return .error .truncated
  else
    let tsn ← read body 0
    let low ← read body 1
    let high ← read body 2
    if le16 low high ≠ l.address then return .ok (invalidRequest, some [tsn, invalidRequest, low, high], 3)
    else return .ok (success, some ([tsn, success, low, high] ++ powerDescriptor), 3)

/-- What a Match_Desc request with its lists complete is answered. -/
def matchReplyAt (table : Option Bytes) (l : Local) (body : Bytes) (broadcast : Bool) (inputs : Nat) (consumed : UInt8) :
    Except Fault (Except Result Answer) := do
  let tsn ← read body 0
  let low ← read body 1
  let high ← read body 2
  if le16 low high ≠ l.address ∧ le16 low high < 0xFFFB then
    return .ok (invalidRequest, if broadcast then none else some [tsn, invalidRequest, 0], consumed)
  else
    let profileLow ← read body 3
    let profileHigh ← read body 4
    let profile := le16 profileLow profileHigh
    match table with
    | some table =>
      let staged ← matchTable table body profile inputs tableStaged table.length 0 [tsn, success, low, high, 0]
      let count := UInt8.ofNat (staged.length - 5)
      return .ok (success, if count = 0 ∧ broadcast then none else some (staged.set 4 count), consumed)
    | none =>
      let simple ← if l.endpoint ≠ 0 ∧ (profile = l.profile ∨ profile = 0xFFFF) then scanFixed body inputs false
        else pure false
      return .ok (success,
        if !simple ∧ broadcast then none
        else some ([tsn, success, low, high, if simple then 1 else 0] ++ if simple then [l.endpoint] else []), consumed)

def matchDescAt (table : Option Bytes) (l : Local) (body : Bytes) (broadcast : Bool) :
    Except Fault (Except Result Answer) := do
  if body.length < 6 then return .error .truncated
  else
    let inputs ← read body 5
    let finish := 6 + 2 * inputs.toNat
    if body.length ≤ finish then return .error .truncated
    else
      let outputs ← read body finish
      let needed := finish + 1 + 2 * outputs.toNat
      if body.length < needed then return .error .truncated
      else matchReplyAt table l body broadcast inputs.toNat (UInt8.ofNat needed)

/-- What an Active_EP or Simple_Desc request for this device is answered from the table. -/
def endpointReplyAt (table : Bytes) (tsn low high : UInt8) (endpoint : Option UInt8) (consumed : UInt8) :
    Except Fault (Except Result Answer) :=
  match endpoint with
  | none => do
    let (staged, count) ← listTable table tableStaged table.length 0 [tsn, success, low, high, 0] 0
    return .ok (success, some (staged.set 4 count), consumed)
  | some endpoint => do
    let record ← findTable table endpoint table.length 0
    let length ← read table record
    if length = 0 ∨ UInt8.ofNat descriptorMax < length then
      return .ok (notActive, some [tsn, notActive, low, high, 0], consumed)
    else
      let staged ← copyFrom table tableStaged (length.toNat + 1) record [tsn, success, low, high]
      return .ok (success, some staged, consumed)

def endpointDescAt (table : Option Bytes) (l : Local) (body : Bytes) (simple : Bool) :
    Except Fault (Except Result Answer) := do
  if body.length < (if simple then 4 else 3) then return .error .truncated
  else
    let consumed : UInt8 := if simple then 4 else 3
    let tsn ← read body 0
    let low ← read body 1
    let high ← read body 2
    let endpoint ← if simple then some <$> read body 3 else pure none
    if endpoint = some 0 ∨ endpoint = some 0xFF then
      return .ok (invalidEp, some [tsn, invalidEp, low, high, 0], consumed)
    else if le16 low high ≠ l.address then
      return .ok (invalidRequest, some [tsn, invalidRequest, low, high, 0], consumed)
    else match table with
      | some table => endpointReplyAt table tsn low high endpoint consumed
      | none =>
        match endpoint with
        | none =>
          return .ok (success, some ([tsn, success, low, high] ++ if l.endpoint ≠ 0 then [1, l.endpoint] else [0]), consumed)
        | some endpoint =>
          if endpoint ≠ l.endpoint then return .ok (notActive, some [tsn, notActive, low, high, 0], consumed)
          else return .ok (success, some ([tsn, success, low, high] ++ fixedDescriptor l), consumed)

/-- The node descriptor codec reads the request within its own length check. -/
def answerAt (table : Option Bytes) (l : Local) (cluster : UInt16) (broadcast : Bool) (body : Bytes) :
    Except Fault (Except Result Answer) :=
  if cluster = powerDescRequest then powerDescAt l body
  else if cluster = matchDescRequest then matchDescAt table l body broadcast
  else if cluster = activeEpRequest then endpointDescAt table l body false
  else if cluster = simpleDescRequest then endpointDescAt table l body true
  else return nodeDesc (table.map fun _ => []) l cluster body

/-- What a call leaves: its result, the response buffer and the information. -/
structure Outcome where
  result : Option Result
  response : Bytes
  info : Info

/-- `zdo_srv_handle` with the objects of the caller. -/
def handleAt (table : Option Bytes) (l : Local) (rx : Rx) (body response : Bytes) (info : Info) : Except Fault Outcome := do
  let cluster := rx.header.clusterId
  let broadcast := broadcastRequest rx
  let refused (e : Result) : Outcome := ⟨some e, response, info⟩
  if !contextValid rx then return refused .context
  else if !localValid l then return refused .localState
  else if maxBody < body.length then return refused .tooLong
  else if body.length = 0 then return refused .truncated
  else
    let tsn ← read body 0
    let candidate (kind : Kind) : Info := ⟨0, kind, 0, tsn, 0, 1, []⟩
    match rspEncode ⟨l.descriptor, l.address, tsn, success, false, 0⟩ (stagedSize (table.map fun _ => [])) with
    | .error _ => return refused .localState
    | .ok _ =>
      if cluster &&& 0x8000 ≠ 0 then return refused .notRequest
      else if cluster = deviceAnnce ∨ cluster = updateNotify then return refused .notification
      else if cluster = parentAnnce then return ⟨none, response, candidate .dropParent⟩
      else if broadcast ∧ cluster ≠ matchDescRequest then return ⟨none, response, candidate .dropBroadcast⟩
      else
        match ← answerAt table l cluster broadcast body with
        | .error e => return refused e
        | .ok (_, none, consumed) => return ⟨none, response, { candidate .dropBroadcast with consumed := consumed }⟩
        | .ok (status, some staged, consumed) =>
          if response.length < staged.length then return refused .space
          else return ⟨none, staged ++ response.drop staged.length,
            { clusterId := cluster ||| 0x8000, kind := .reply, endpoint := rx.header.sourceEndpoint
              sequence := tsn, status := status, consumed := consumed, response := staged }⟩

/-! ## The table -/

/-- A record of the table, as long as its count of input clusters says, with a length of one octet. -/
structure Record where
  octets : SimpleDescriptor
  counted : octets.length = 8 + 2 * (byteAt octets 6).toNat
  short : octets.length < 256

namespace Record

def endpoint (r : Record) : UInt8 := byteAt r.octets 0
def profile (r : Record) : UInt16 := u16At r.octets 1
def inputs (r : Record) : List UInt16 := SimpleDescriptor.clusters r.octets

/-- The record in the table: its length and its octets. -/
def stored (r : Record) : Bytes := UInt8.ofNat r.octets.length :: r.octets

theorem length_toNat (r : Record) : (UInt8.ofNat r.octets.length).toNat = r.octets.length :=
  UInt8.toNat_ofNat_of_lt' r.short

theorem length_ne_zero (r : Record) : UInt8.ofNat r.octets.length ≠ 0 := by
  intro h
  have hz := congrArg UInt8.toNat h
  rw [length_toNat, r.counted] at hz
  simp at hz

end Record

/-- The octets of a table. -/
def rawTable (records : List Record) : Bytes := records.flatMap Record.stored ++ [0]

theorem rawTable_cons (r : Record) (records : List Record) :
    rawTable (r :: records) = r.stored ++ rawTable records := by
  simp [rawTable]

theorem length_lt_rawTable (records : List Record) : records.length < (rawTable records).length := by
  induction records with
  | nil => decide
  | cons r records ih =>
    rw [rawTable_cons, List.length_append, List.length_cons, Record.stored, List.length_cons]
    omega

/-- Where a record lies: at the end of `before`, with `after` behind it. -/
structure Placed (table : Bytes) (r : Record) (position : Nat) : Prop where
  length : read table position = .ok (UInt8.ofNat r.octets.length)
  octet : ∀ i, i < r.octets.length → read table (position + 1 + i) = .ok (byteAt r.octets i)

theorem placed_here (before : Bytes) (r : Record) (records : List Record) :
    Placed (before ++ rawTable (r :: records)) r before.length := by
  have hread : ∀ i, read (before ++ rawTable (r :: records)) (before.length + i) = read (r.stored ++ rawTable records) i :=
    fun i => by rw [read_skip, rawTable_cons]
  constructor
  · exact hread 0
  · intro i hi
    rw [Nat.add_assoc, hread, Nat.add_comm 1 i, read_inside (by simp [Record.stored]; omega)]
    simp [Record.stored, byteAt, List.getElem?_append_left hi]

theorem read_end (before : Bytes) : read (before ++ rawTable []) before.length = .ok 0 := by
  rw [show before.length = before.length + 0 from rfl, read_skip]
  rfl

/-- The table after a record is the table with the record before it. -/
theorem before_next (before : Bytes) (r : Record) (records : List Record) :
    before ++ rawTable (r :: records) = (before ++ r.stored) ++ rawTable records := by
  rw [rawTable_cons, List.append_assoc]

theorem next_position (before : Bytes) (r : Record) :
    before.length + (UInt8.ofNat r.octets.length).toNat + 1 = (before ++ r.stored).length := by
  rw [r.length_toNat, List.length_append, Record.stored, List.length_cons]
  omega

/-! ## The loops -/

/-- The clusters a Match_Desc request asks for. -/
def asked (body : Bytes) : List UInt16 := (List.range (byteAt body 5).toNat).map fun i => u16At body (6 + 2 * i)

/-- The record answers the request: its profile or any, and one of its input clusters. -/
def Record.Matches (body : Bytes) (r : Record) : Prop :=
  (u16At body 3 = 0xFFFF ∨ u16At body 3 = r.profile) ∧ ∃ c, c ∈ asked body ∧ c ∈ r.inputs

instance (body : Bytes) : DecidablePred (Record.Matches body) := fun _ => inferInstanceAs (Decidable (_ ∧ _))

theorem le16_inj {a b c d : UInt8} : le16 a b = le16 c d ↔ a = c ∧ b = d := by
  rw [← UInt16.toNat_inj, le16_toNat, le16_toNat, ← UInt8.toNat_inj, ← UInt8.toNat_inj]
  have ha := a.toNat_lt
  have hc := c.toNat_lt
  omega

theorem le16_octets (v : UInt16) : le16 v.toUInt8 (v >>> 8).toUInt8 = v := by
  rw [← UInt16.toNat_inj, le16_toNat, UInt16.toNat_toUInt8, UInt16.toNat_toUInt8, UInt16.toNat_shiftRight]
  have hv := v.toNat_lt
  simp only [Nat.shiftRight_eq_div_pow, show (8 : UInt16).toNat % 16 = 8 from rfl]
  omega

/-- The octets the innermost loop compares at a record and at a place of the request. -/
theorem pairAt_eq {table body : Bytes} {r : Record} {position i j : Nat} (h : Placed table r position)
    (hi : i + 1 < r.octets.length) (hj : j + 1 < body.length) :
    pairAt table body (position + 1 + i) j = .ok (u16At r.octets i == u16At body j) := by
  rw [pairAt, h.octet i (by omega), read_inside (by omega), Nat.add_assoc (position + 1) i 1, h.octet (i + 1) hi,
    read_inside hj]
  simp only [ok_bind, pure_ok]
  have heq : (u16At r.octets i == u16At body j) =
      (byteAt r.octets i == byteAt body j && byteAt r.octets (i + 1) == byteAt body (j + 1)) := by
    rw [Bool.eq_iff_iff, Bool.and_eq_true, beq_iff_eq, beq_iff_eq, beq_iff_eq]
    exact le16_inj
  rw [heq]
  split
  next hne => rw [beq_eq_false_iff_ne.2 hne, Bool.false_and]
  next heq => rw [not_not] at heq; rw [beq_iff_eq.2 heq, Bool.true_and]

theorem scanClusters_eq {table body : Bytes} {r : Record} {position j : Nat} (h : Placed table r position)
    (hj : j + 1 < body.length) (left count : Nat) (hcount : count + left = (byteAt r.octets 6).toNat) :
    scanClusters table body position j left count =
      .ok ((List.range' count left).any fun k => u16At r.octets (7 + 2 * k) == u16At body j) := by
  induction left generalizing count with
  | zero => rfl
  | succ left ih =>
    have hr := r.counted
    rw [scanClusters, show position + 8 + 2 * count = position + 1 + (7 + 2 * count) by omega,
      pairAt_eq h (by omega) hj, List.range'_succ, List.any_cons]
    simp only [ok_bind, pure_ok]
    split
    next heq => rw [heq, Bool.true_or]
    next hne => rw [Bool.not_eq_true] at hne; rw [hne, Bool.false_or, ih (count + 1) (by omega)]

theorem asked_any {body : Bytes} {r : Record} :
    ((List.range (byteAt body 5).toNat).any fun i =>
        (List.range (byteAt r.octets 6).toNat).any fun k => u16At r.octets (7 + 2 * k) == u16At body (6 + 2 * i)) = true ↔
      ∃ c, c ∈ asked body ∧ c ∈ r.inputs := by
  simp only [List.any_eq_true, beq_iff_eq, asked, Record.inputs, SimpleDescriptor.clusters, List.mem_map]
  constructor
  · rintro ⟨i, hi, k, hk, heq⟩
    exact ⟨_, ⟨i, hi, rfl⟩, k, hk, heq⟩
  · rintro ⟨c, ⟨i, hi, rfl⟩, k, hk, heq⟩
    exact ⟨i, hi, k, hk, heq⟩

theorem scanInputs_eq {table body : Bytes} {r : Record} {position : Nat} (h : Placed table r position)
    (left start : Nat) (hbody : 6 + 2 * (start + left) ≤ body.length) :
    scanInputs table body position left (6 + 2 * start) =
      .ok ((List.range' start left).any fun i =>
        (List.range (byteAt r.octets 6).toNat).any fun k => u16At r.octets (7 + 2 * k) == u16At body (6 + 2 * i)) := by
  induction left generalizing start with
  | zero => rfl
  | succ left ih =>
    have hr := r.counted
    rw [scanInputs, show position + 7 = position + 1 + 6 from rfl, h.octet 6 (by omega), List.range'_succ, List.any_cons]
    simp only [ok_bind]
    rw [scanClusters_eq h (by omega) _ 0 (Nat.zero_add _), ← List.range_eq_range']
    simp only [ok_bind, pure_ok]
    split
    next heq => rw [heq, Bool.true_or]
    next hne =>
      rw [Bool.not_eq_true] at hne
      rw [hne, Bool.false_or, show 6 + 2 * start + 2 = 6 + 2 * (start + 1) by omega, ih (start + 1) (by omega)]

theorem profileDiffers_eq {table : Bytes} {r : Record} {position : Nat} (h : Placed table r position) (profile : UInt16) :
    profileDiffers table position profile = .ok (!decide (profile = 0xFFFF ∨ profile = r.profile)) := by
  unfold profileDiffers
  split
  next hany => simp [hany]
  next hone =>
    have hr := r.counted
    rw [show position + 2 = position + 1 + 1 from rfl, h.octet 1 (by omega), show position + 3 = position + 1 + 2 from rfl,
      h.octet 2 (by omega)]
    simp only [ok_bind, pure_ok]
    have hiff : profile = r.profile ↔ byteAt r.octets 1 = profile.toUInt8 ∧ byteAt r.octets 2 = (profile >>> 8).toUInt8 := by
      rw [← le16_inj, le16_octets]
      exact eq_comm
    simp only [hone, false_or, hiff]
    split
    next hlow => simp [hlow]
    next hlow => rw [not_not] at hlow; simp [hlow, bne, beq_eq_decide]

/-- The loop over the table stages the endpoints of the records that match, or runs out of its buffer. -/
theorem matchTable_eq {body : Bytes} (hbody : 6 + 2 * (byteAt body 5).toNat ≤ body.length) (size : Nat)
    (records : List Record) (before staged : Bytes) (fuel : Nat) (hfuel : records.length < fuel)
    (hstaged : staged.length ≤ size) :
    matchTable (before ++ rawTable records) body (u16At body 3) (byteAt body 5).toNat size fuel before.length staged =
      if staged.length + (records.filter (Record.Matches body)).length ≤ size then
        .ok (staged ++ (records.filter (Record.Matches body)).map Record.endpoint)
      else .error .write := by
  induction records generalizing before staged fuel with
  | nil =>
    obtain _ | fuel := fuel
    · cases hfuel
    · rw [matchTable, read_end]
      simp [hstaged]
  | cons r records ih =>
    obtain _ | fuel := fuel
    · cases hfuel
    have h := placed_here before r records
    have hr := r.counted
    have hrest := fun staged hs => ih (before ++ r.stored) staged fuel (Nat.lt_of_succ_lt_succ hfuel) hs
    rw [matchTable, h.length]
    simp only [ok_bind, if_neg r.length_ne_zero]
    rw [profileDiffers_eq h, show (6 : Nat) = 6 + 2 * 0 from rfl, scanInputs_eq h _ 0 (by omega), ← List.range_eq_range']
    simp only [ok_bind, Bool.not_eq_true', decide_eq_false_iff_not, List.filter_cons, decide_eq_true_eq]
    rw [next_position, before_next]
    split
    next hprofile =>
      rw [if_neg (fun hm : r.Matches body => hprofile hm.1)]
      exact hrest staged hstaged
    next hprofile =>
    rw [not_not] at hprofile
    split
    next hlisted =>
      rw [if_pos (show r.Matches body from ⟨hprofile, asked_any.1 hlisted⟩), List.map_cons, List.length_cons, ← before_next,
        show before.length + 1 = before.length + 1 + 0 from rfl, h.octet 0 (by omega)]
      simp only [ok_bind]
      obtain hroom | hfull := Nat.lt_or_ge staged.length size
      · rw [push_inside hroom, before_next]
        simp only [ok_bind]
        rw [hrest _ (by rw [List.length_append]; exact hroom), List.length_append, List.append_assoc]
        simp only [List.length_singleton, Nat.add_assoc, Nat.add_comm 1]
        rfl
      · rw [push_full hfull, if_neg (by omega)]
        rfl
    next hlisted =>
      rw [if_neg (fun hm : r.Matches body => hlisted (asked_any.2 hm.2))]
      exact hrest staged hstaged

theorem listTable_eq (size : Nat) (records : List Record) (before staged : Bytes) (count : UInt8) (fuel : Nat)
    (hfuel : records.length < fuel) (hstaged : staged.length ≤ size) :
    listTable (before ++ rawTable records) size fuel before.length staged count =
      if staged.length + records.length ≤ size then
        .ok (staged ++ records.map Record.endpoint, count + UInt8.ofNat records.length)
      else .error .write := by
  induction records generalizing before staged count fuel with
  | nil =>
    obtain _ | fuel := fuel
    · cases hfuel
    · rw [listTable, read_end]
      simp [hstaged]
  | cons r records ih =>
    obtain _ | fuel := fuel
    · cases hfuel
    have h := placed_here before r records
    have hr := r.counted
    rw [listTable, h.length]
    simp only [ok_bind, if_neg r.length_ne_zero]
    rw [show before.length + 1 = before.length + 1 + 0 from rfl, h.octet 0 (by omega), List.length_cons]
    simp only [ok_bind]
    obtain hroom | hfull := Nat.lt_or_ge staged.length size
    · rw [push_inside hroom, next_position, before_next]
      simp only [ok_bind]
      rw [ih _ _ _ _ (Nat.lt_of_succ_lt_succ hfuel) (by rw [List.length_append]; exact hroom), List.length_append,
        List.append_assoc, List.length_singleton, Nat.add_assoc, Nat.add_comm 1, UInt8.add_assoc, UInt8.ofNat_add,
        UInt8.add_comm 1]
      rfl
    · rw [push_full hfull, if_neg (by omega)]
      rfl

/-- The search ends at the first record of the endpoint, or at the end of the table. -/
theorem findTable_eq (endpoint : UInt8) (records : List Record) (before : Bytes) (fuel : Nat)
    (hfuel : records.length < fuel) :
    ∃ position, findTable (before ++ rawTable records) endpoint fuel before.length = .ok position ∧
      match records.find? fun r => r.endpoint == endpoint with
      | some r => Placed (before ++ rawTable records) r position
      | none => read (before ++ rawTable records) position = .ok 0 := by
  induction records generalizing before fuel with
  | nil =>
    obtain _ | fuel := fuel
    · cases hfuel
    · refine ⟨before.length, ?_, read_end before⟩
      rw [findTable, read_end]
      rfl
  | cons r records ih =>
    obtain _ | fuel := fuel
    · cases hfuel
    have h := placed_here before r records
    have hr := r.counted
    have hendpoint : read (before ++ rawTable (r :: records)) (before.length + 1) = .ok r.endpoint := h.octet 0 (by omega)
    rw [findTable, h.length]
    simp only [ok_bind, if_neg r.length_ne_zero]
    rw [hendpoint, List.find?_cons]
    simp only [ok_bind]
    by_cases heq : r.endpoint = endpoint
    · rw [if_pos heq, beq_iff_eq.2 heq]
      exact ⟨before.length, rfl, h⟩
    · rw [if_neg heq, beq_eq_false_iff_ne.2 heq, next_position, before_next]
      exact ih _ fuel (Nat.lt_of_succ_lt_succ hfuel)

theorem copyFrom_eq {object : Bytes} (size : Nat) (source : Bytes) (i : Nat) (staged : Bytes)
    (h : ∀ k, k < source.length → read object (i + k) = .ok (byteAt source k))
    (hroom : staged.length + source.length ≤ size) :
    copyFrom object size source.length i staged = .ok (staged ++ source) := by
  induction source generalizing i staged with
  | nil => rw [List.append_nil]; rfl
  | cons octet source ih =>
    rw [List.length_cons] at h hroom
    have hfirst : read object i = .ok octet := h 0 (Nat.zero_lt_succ _)
    rw [List.length_cons, copyFrom, hfirst]
    simp only [ok_bind]
    rw [push_inside (by omega)]
    simp only [ok_bind]
    rw [ih (i + 1) _ (fun k hk => ?_) (by rw [List.length_append, List.length_singleton]; omega), List.append_assoc]
    · rfl
    · rw [Nat.add_right_comm, Nat.add_assoc, h (k + 1) (Nat.succ_lt_succ hk), byteAt_cons]

theorem copyFrom_record {table : Bytes} {r : Record} {position : Nat} (h : Placed table r position) (size : Nat)
    (staged : Bytes) (hroom : staged.length + (r.octets.length + 1) ≤ size) :
    copyFrom table size (r.octets.length + 1) position staged = .ok (staged ++ r.stored) := by
  refine copyFrom_eq size r.stored position staged (fun k hk => ?_) hroom
  cases k with
  | zero => exact h.length
  | succ k =>
    rw [← Nat.add_assoc, Nat.add_right_comm, h.octet k (Nat.lt_of_succ_lt_succ hk), Record.stored, byteAt_cons]

theorem scanFixed_eq {body : Bytes} (left : Nat) (simple : Bool) (hbody : 6 + 2 * left ≤ body.length) :
    scanFixed body left simple =
      .ok (simple || (List.range left).any fun i => inputClusters.contains (u16At body (6 + 2 * i))) := by
  induction left generalizing simple with
  | zero => simp [scanFixed]
  | succ left ih =>
    rw [scanFixed, read_inside (by omega), read_inside (by omega)]
    simp only [ok_bind]
    rw [ih _ (by omega), List.range_succ, List.any_append, Bool.or_assoc]
    simp [u16At, Bool.or_comm]

end ZdoServer
