import Cc2530Zigbee.ZdoServerReads

/-!
# Replies of the ZDO server

The server octet by octet does what the server over the records of its table does,
unless it has more endpoints to list than its staging buffer holds.
-/
namespace ZdoServer

open Octets ZdoNode BoundedAccess

/-! ## One request -/

/-- The octets of a Match_Desc request with its two lists. -/
def matchLength (body : Bytes) : Nat :=
  6 + 2 * (byteAt body 5).toNat + 1 + 2 * (byteAt body (6 + 2 * (byteAt body 5).toNat)).toNat

/-- The address of interest is the own one or a broadcast. -/
def OfInterest (l : Local) (body : Bytes) : Prop := u16At body 1 = l.address ∨ 0xFFFB ≤ u16At body 1

instance (l : Local) (body : Bytes) : Decidable (OfInterest l body) := inferInstanceAs (Decidable (_ ∨ _))

/-- The endpoints that match a Match_Desc request, in the order of the table. -/
def matched (table : Option (List Record)) (l : Local) (body : Bytes) : List UInt8 :=
  match table with
  | some records => (records.filter (Record.Matches body)).map Record.endpoint
  | none =>
    if l.endpoint ≠ 0 ∧ (u16At body 3 = l.profile ∨ u16At body 3 = 0xFFFF) ∧ ∃ c, c ∈ asked body ∧ c ∈ inputClusters then
      [l.endpoint]
    else []

/-- The endpoints that a request has staged. -/
def listedEndpoints (table : Option (List Record)) (l : Local) (cluster : UInt16) (body : Bytes) : Nat :=
  match table with
  | none => 0
  | some records =>
    if cluster = activeEpRequest ∧ 3 ≤ body.length ∧ u16At body 1 = l.address then records.length
    else if cluster = matchDescRequest ∧ matchLength body ≤ body.length ∧ OfInterest l body then
      (records.filter (Record.Matches body)).length
    else 0

theorem listed_none (l : Local) (cluster : UInt16) (body : Bytes) : listedEndpoints none l cluster body = 0 := rfl

theorem listed_incomplete {table : Option (List Record)} {l : Local} {body : Bytes}
    (h : ¬(matchLength body ≤ body.length ∧ OfInterest l body)) : listedEndpoints table l matchDescRequest body = 0 := by
  cases table with
  | none => rfl
  | some records => rw [listedEndpoints, if_neg (fun hc => absurd hc.1 (by decide)), if_neg (fun hc => h hc.2)]

theorem listed_complete {records : List Record} {l : Local} {body : Bytes} (h : matchLength body ≤ body.length)
    (hi : OfInterest l body) :
    listedEndpoints (some records) l matchDescRequest body = (records.filter (Record.Matches body)).length := by
  rw [listedEndpoints, if_neg (fun hc => absurd hc.1 (by decide)), if_pos ⟨rfl, h, hi⟩]

/-- A staging buffer with room for the endpoints to list. -/
theorem room_of_none {n : Nat} (h : n = 0) : ¬tableStaged < 5 + n := by
  rw [h]
  decide

theorem listed_iff {body : Bytes} {clusters : List UInt16} :
    listed body (6 + 2 * (byteAt body 5).toNat) clusters = true ↔ ∃ c, c ∈ asked body ∧ c ∈ clusters := by
  rw [listed, Nat.add_sub_cancel_left, Nat.mul_div_cancel_left _ (by decide : 0 < 2), asked]
  simp

theorem matching_eq (table : Option (List Record)) (l : Local) (body : Bytes) :
    matching (table.map (List.map Record.octets)) l body (6 + 2 * (byteAt body 5).toNat) = matched table l body := by
  unfold matching matched
  cases table with
  | none =>
    simp only [Option.map_none, listed_iff]
  | some records =>
    simp only [Option.map_some, List.filter_map, List.map_map]
    have hmatches : ∀ r : Record, (((fun d => (u16At body 3 == 0xFFFF || u16At d 1 == u16At body 3) &&
        listed body (6 + 2 * (byteAt body 5).toNat) (SimpleDescriptor.clusters d)) ∘ Record.octets) r) =
          decide (Record.Matches body r) := by
      intro r
      rw [Bool.eq_iff_iff, decide_eq_true_iff, Function.comp_apply, Bool.and_eq_true, Bool.or_eq_true, beq_iff_eq, beq_iff_eq,
        listed_iff, @eq_comm _ (u16At r.octets 1)]
      rfl
    rw [List.filter_congr (fun r _ => hmatches r)]
    rfl

theorem powerDescAt_eq (l : Local) (body : Bytes) : powerDescAt l body = .ok (powerDesc l body) := by
  unfold powerDescAt powerDesc
  split
  · rfl
  next hlong =>
    rw [read_inside (by omega), read_inside (by omega), read_inside (by omega)]
    simp only [ok_bind, pure_ok]
    rw [show le16 (byteAt body 1) (byteAt body 2) = u16At body 1 from rfl]
    split <;> rfl

theorem matchReplyAt_eq (table : Option (List Record)) (l : Local) {body : Bytes} (h : matchLength body ≤ body.length)
    (broadcast : Bool) (consumed : UInt8) :
    matchReplyAt (table.map rawTable) l body broadcast (byteAt body 5).toNat consumed =
      if tableStaged < 5 + listedEndpoints table l matchDescRequest body then .error .write
      else .ok (if u16At body 1 ≠ l.address ∧ u16At body 1 < 0xFFFB then
          .ok (invalidRequest, if broadcast then none else some [byteAt body 0, invalidRequest, 0], consumed)
        else
          .ok (success,
            if (matched table l body).isEmpty ∧ broadcast then none
            else some ([byteAt body 0, success, byteAt body 1, byteAt body 2, UInt8.ofNat (matched table l body).length] ++
              matched table l body),
            consumed)) := by
  have hlength := h
  unfold matchLength at hlength
  unfold matchReplyAt
  rw [read_inside (by omega), read_inside (by omega), read_inside (by omega), read_inside (by omega),
    read_inside (by omega)]
  simp only [ok_bind, pure_ok]
  rw [show le16 (byteAt body 1) (byteAt body 2) = u16At body 1 from rfl,
    show le16 (byteAt body 3) (byteAt body 4) = u16At body 3 from rfl]
  split
  next hother =>
    rw [if_neg (room_of_none (listed_incomplete fun hc => ?_))]
    obtain hown | hbroadcast := hc.2
    · exact hother.1 hown
    · exact absurd hother.2 (UInt16.not_lt.2 hbroadcast)
  next hown =>
  have hinterest : OfInterest l body := by
    by_cases haddress : u16At body 1 = l.address
    · exact .inl haddress
    · exact .inr (UInt16.not_lt.1 fun hlt => hown ⟨haddress, hlt⟩)
  cases table with
  | some records =>
    rw [listed_complete h hinterest]
    have hstaged := matchTable_eq (by omega : 6 + 2 * (byteAt body 5).toNat ≤ body.length) tableStaged records []
      [byteAt body 0, success, byteAt body 1, byteAt body 2, 0] _ (length_lt_rawTable records) (by simp [tableStaged, descriptorMax])
    have hfive : [byteAt body 0, success, byteAt body 1, byteAt body 2, 0].length = 5 := rfl
    rw [List.nil_append, List.length_nil, hfive] at hstaged
    simp only [Option.map_some]
    rw [hstaged, show matched (some records) l body = (records.filter (Record.Matches body)).map Record.endpoint from rfl]
    generalize records.filter (Record.Matches body) = found
    obtain hroom | hfull := Nat.lt_or_ge tableStaged (5 + found.length)
    · rw [if_neg (Nat.not_le.2 hroom), if_pos hroom]
      rfl
    · rw [if_pos hfull, if_neg (Nat.not_lt.2 hfull)]
      simp only [ok_bind]
      have hcount : ([byteAt body 0, success, byteAt body 1, byteAt body 2, 0] ++ found.map Record.endpoint).length - 5 =
          (found.map Record.endpoint).length := by simp
      have hempty : UInt8.ofNat (found.map Record.endpoint).length = 0 ↔ (found.map Record.endpoint).isEmpty = true := by
        rw [List.isEmpty_iff_length_eq_zero, ← UInt8.toNat_inj, List.length_map]
        simp only [tableStaged, descriptorMax] at hfull
        simp only [UInt8.toNat_ofNat', UInt8.toNat_zero]
        omega
      rw [hcount]
      simp only [hempty]
      rfl
  | none =>
    rw [if_neg (room_of_none (listed_none _ _ _))]
    simp only [Option.map_none]
    by_cases hserved : l.endpoint ≠ 0 ∧ (u16At body 3 = l.profile ∨ u16At body 3 = 0xFFFF)
    · have hscan := @scanFixed_eq body (byteAt body 5).toNat false (by omega)
      rw [if_pos hserved, hscan, Bool.false_or]
      simp only [ok_bind]
      have hiff := @listed_iff body inputClusters
      rw [listed, Nat.add_sub_cancel_left, Nat.mul_div_cancel_left _ (by decide : 0 < 2)] at hiff
      by_cases hlisted : ∃ c, c ∈ asked body ∧ c ∈ inputClusters
      · have hmatched : matched none l body = [l.endpoint] := if_pos ⟨hserved.1, hserved.2, hlisted⟩
        rw [hiff.2 hlisted, hmatched]
        rfl
      · have hmatched : matched none l body = [] := if_neg (fun hc => hlisted hc.2.2)
        rw [Bool.eq_false_iff.2 (fun hc => hlisted (hiff.1 hc)), hmatched]
        simp
    · have hmatched : matched none l body = [] := if_neg (fun hc => hserved ⟨hc.1, hc.2.1⟩)
      rw [if_neg hserved, hmatched]
      simp

theorem matchDescAt_eq (table : Option (List Record)) (l : Local) (body : Bytes) (broadcast : Bool) :
    matchDescAt (table.map rawTable) l body broadcast =
      if tableStaged < 5 + listedEndpoints table l matchDescRequest body then .error .write
      else .ok (matchDesc (table.map (List.map Record.octets)) l body broadcast) := by
  by_cases hcomplete : matchLength body ≤ body.length
  case neg =>
    rw [if_neg (room_of_none (listed_incomplete fun hc => hcomplete hc.1))]
    unfold matchDescAt matchDesc
    unfold matchLength at hcomplete
    by_cases hlong : body.length < 6
    · rw [if_pos hlong, if_pos hlong]
      rfl
    rw [if_neg hlong, if_neg hlong, read_inside (by omega)]
    simp only [ok_bind]
    by_cases hinputs : body.length ≤ 6 + 2 * (byteAt body 5).toNat
    · rw [if_pos hinputs, if_pos (.inl hinputs)]
      rfl
    · rw [if_neg hinputs, read_inside (by omega)]
      simp only [ok_bind]
      rw [if_pos (by omega), if_pos (.inr (by omega))]
      rfl
  case pos =>
    have hneeded : ¬body.length < matchLength body := Nat.not_lt.2 hcomplete
    unfold matchLength at hneeded
    have hlong : ¬body.length < 6 := by omega
    have hinputs : ¬body.length ≤ 6 + 2 * (byteAt body 5).toNat := by omega
    unfold matchDescAt matchDesc
    rw [if_neg hlong, if_neg hlong, read_inside (by omega)]
    simp only [ok_bind]
    rw [if_neg hinputs, if_neg (not_or.2 ⟨hinputs, hneeded⟩), read_inside (by omega)]
    simp only [ok_bind]
    rw [if_neg hneeded, matchReplyAt_eq table l hcomplete, matching_eq]

theorem listed_endpoints {records : List Record} {l : Local} {body : Bytes} (hlength : 3 ≤ body.length)
    (haddress : u16At body 1 = l.address) : listedEndpoints (some records) l activeEpRequest body = records.length := by
  rw [listedEndpoints, if_pos ⟨rfl, hlength, haddress⟩]

theorem listed_other {table : Option (List Record)} {l : Local} {cluster : UInt16} {body : Bytes}
    (h : ¬(cluster = activeEpRequest ∧ 3 ≤ body.length ∧ u16At body 1 = l.address)) (hm : cluster ≠ matchDescRequest) :
    listedEndpoints table l cluster body = 0 := by
  cases table with
  | none => rfl
  | some records => rw [listedEndpoints, if_neg h, if_neg (fun hc => hm hc.1)]

theorem activeReplyAt_eq (records : List Record) (tsn low high consumed : UInt8) :
    endpointReplyAt (rawTable records) tsn low high none consumed =
      if tableStaged < 5 + records.length then .error .write
      else .ok (.ok (success, some ([tsn, success, low, high] ++
        (UInt8.ofNat (records.map Record.octets).length :: (records.map Record.octets).map fun d => byteAt d 0)), consumed)) := by
  have hlisted := listTable_eq tableStaged records [] [tsn, success, low, high, 0] 0 _ (length_lt_rawTable records)
    (by simp [tableStaged, descriptorMax])
  have hfive : [tsn, success, low, high, 0].length = 5 := rfl
  rw [List.nil_append, List.length_nil, hfive] at hlisted
  rw [endpointReplyAt, hlisted]
  obtain hroom | hfull := Nat.lt_or_ge tableStaged (5 + records.length)
  · rw [if_neg (Nat.not_le.2 hroom), if_pos hroom]
    rfl
  · rw [if_pos hfull, if_neg (Nat.not_lt.2 hfull)]
    simp only [ok_bind, pure_ok, UInt8.zero_add, List.length_map, List.map_map]
    rfl

theorem simpleReplyAt_eq (records : List Record) (tsn low high endpoint consumed : UInt8) :
    endpointReplyAt (rawTable records) tsn low high (some endpoint) consumed =
      .ok (match (records.map Record.octets).find? fun d => byteAt d 0 == endpoint with
        | none => .ok (notActive, some [tsn, notActive, low, high, 0], consumed)
        | some d =>
          if descriptorMax < d.length then .ok (notActive, some [tsn, notActive, low, high, 0], consumed)
          else .ok (success, some ([tsn, success, low, high] ++ (UInt8.ofNat d.length :: d)), consumed)) := by
  obtain ⟨position, hfind, hfound⟩ := findTable_eq endpoint records [] _ (length_lt_rawTable records)
  rw [List.nil_append] at hfind hfound
  rw [List.length_nil] at hfind
  rw [endpointReplyAt, hfind, List.find?_map]
  simp only [ok_bind]
  rw [show ((fun d => byteAt d 0 == endpoint) ∘ Record.octets) = fun r => r.endpoint == endpoint from rfl]
  generalize records.find? (fun r => r.endpoint == endpoint) = found at hfound
  cases found with
  | none =>
    rw [hfound]
    simp only [ok_bind, true_or, if_true]
    rfl
  | some r =>
    have hlong : UInt8.ofNat descriptorMax < UInt8.ofNat r.octets.length ↔ descriptorMax < r.octets.length := by
      rw [UInt8.lt_iff_toNat_lt, r.length_toNat]
      rfl
    rw [hfound.length]
    simp only [ok_bind, hlong, r.length_ne_zero, false_or, Option.map_some]
    split
    · rfl
    next hshort =>
      rw [r.length_toNat, copyFrom_record hfound tableStaged _ (by simp [tableStaged, descriptorMax] at hshort ⊢; omega)]
      rfl

theorem endpointDescAt_eq (table : Option (List Record)) (l : Local) (body : Bytes) (simple : Bool) :
    endpointDescAt (table.map rawTable) l body simple =
      if tableStaged < 5 + listedEndpoints table l (if simple then simpleDescRequest else activeEpRequest) body then
        .error .write
      else .ok (endpointDesc (table.map (List.map Record.octets)) l body simple) := by
  unfold endpointDescAt endpointDesc
  cases simple with
  | true =>
    rw [if_neg (room_of_none (listed_other (fun hc => absurd hc.1 (by decide)) (by decide)))]
    simp only [if_true]
    split
    · rfl
    next hlong =>
    rw [read_inside (by omega), read_inside (by omega), read_inside (by omega), read_inside (by omega)]
    simp only [ok_bind, true_and]
    rw [show (some <$> Except.ok (byteAt body 3) : Except Fault (Option UInt8)) = .ok (some (byteAt body 3)) from rfl,
      show le16 (byteAt body 1) (byteAt body 2) = u16At body 1 from rfl]
    simp only [ok_bind, pure_ok, Option.some.injEq]
    split
    · rfl
    split
    · rfl
    cases table with
    | some records =>
      simp only [Option.map_some]
      rw [simpleReplyAt_eq]
      rfl
    | none =>
      simp only [Option.map_none]
      split <;> rfl
  | false =>
    simp only [Bool.false_eq_true, if_false]
    split
    next hshort =>
      rw [if_neg (room_of_none (listed_other (fun hc => absurd hc.2.1 (by omega)) (by decide)))]
      rfl
    next hlong =>
    rw [read_inside (by omega), read_inside (by omega), read_inside (by omega)]
    simp only [ok_bind, pure_ok, reduceCtorEq, or_self, if_false, false_and]
    rw [show le16 (byteAt body 1) (byteAt body 2) = u16At body 1 from rfl]
    split
    next hother =>
      rw [if_neg (room_of_none (listed_other (fun hc => hother hc.2.2) (by decide)))]
      rfl
    next hown =>
    cases table with
    | some records =>
      simp only [Option.map_some]
      rw [activeReplyAt_eq, listed_endpoints (by omega) (not_not.1 hown)]
      rfl
    | none =>
      rw [if_neg (room_of_none (listed_none _ _ _))]
      rfl

/-- The answer octet by octet, while the staging buffer holds the endpoints to list. -/
theorem answerAt_eq (table : Option (List Record)) (l : Local) (cluster : UInt16) (broadcast : Bool) (body : Bytes) :
    answerAt (table.map rawTable) l cluster broadcast body =
      if tableStaged < 5 + listedEndpoints table l cluster body then .error .write
      else .ok (answer (table.map (List.map Record.octets)) l cluster broadcast body) := by
  unfold answerAt answer
  split
  next hpower =>
    rw [hpower, if_neg (room_of_none (listed_other (fun hc => absurd hc.1 (by decide)) (by decide))), powerDescAt_eq]
  split
  next hmatch => rw [hmatch, matchDescAt_eq]
  next hmatch =>
  split
  next hactive =>
    rw [hactive]
    exact endpointDescAt_eq table l body false
  next hactive =>
  split
  next hsimple =>
    rw [hsimple]
    exact endpointDescAt_eq table l body true
  next hsimple =>
    rw [if_neg (room_of_none (listed_other (fun hc => hactive hc.1) hmatch))]
    cases table <;> rfl

/-! ## The call -/

/-- The request is one that the server answers. -/
structure Served (l : Local) (rx : Rx) (body : Bytes) : Prop where
  context : contextValid rx = true
  own : localValid l = true
  short : body.length ≤ maxBody
  some : 0 < body.length
  descriptor : descriptorValid l.descriptor = true
  request : rx.header.clusterId &&& 0x8000 = 0
  notification : rx.header.clusterId ≠ deviceAnnce ∧ rx.header.clusterId ≠ updateNotify ∧ rx.header.clusterId ≠ parentAnnce
  addressed : broadcastRequest rx = true → rx.header.clusterId = matchDescRequest

/-- A request with more endpoints to list than the staging buffer holds after its first five octets. -/
def Overruns (table : Option (List Record)) (l : Local) (rx : Rx) (body : Bytes) : Prop :=
  Served l rx body ∧ tableStaged < 5 + listedEndpoints table l rx.header.clusterId body

/-- What the caller has after a call. -/
def settle (response : Bytes) (info : Info) : Except Result Info → Outcome
  | .error e => ⟨some e, response, info⟩
  | .ok i => ⟨none, i.response ++ response.drop i.response.length, i⟩

theorem rspEncode_ok (l : Local) (tsn : UInt8) (table : Option (List SimpleDescriptor)) :
    (∃ staged, rspEncode ⟨l.descriptor, l.address, tsn, success, false, 0⟩ (stagedSize table) = .ok staged) ↔
      descriptorValid l.descriptor = true := by
  have hsize : ¬stagedSize table < 17 := by cases table <;> simp [stagedSize, descriptorMax]
  simp only [rspEncode, responseSize, if_true, true_and, Bool.not_eq_true', if_neg hsize]
  split
  next h => rw [h]; simp
  next h => rw [Bool.not_eq_false] at h; simp [h]

/-- The call octet by octet is the call over the records, or the staging buffer is overrun. -/
theorem handleAt_eq (table : Option (List Record)) (l : Local) (rx : Rx) (body response : Bytes) (info : Info) :
    (Overruns table l rx body → handleAt (table.map rawTable) l rx body response info = .error .write) ∧
      (¬Overruns table l rx body → handleAt (table.map rawTable) l rx body response info =
        .ok (settle response info (handle (table.map (List.map Record.octets)) l rx body response.length))) := by
  by_cases hserved : Served l rx body
  · have hread := read_inside hserved.some
    have hsize : ∀ t : Option (List Record), stagedSize ((t.map rawTable).map fun _ => []) =
        stagedSize (t.map (List.map Record.octets)) := fun t => by cases t <;> rfl
    obtain ⟨staged, hencoded⟩ := (rspEncode_ok l (byteAt body 0) (table.map (List.map Record.octets))).2 hserved.descriptor
    have hanswer := answerAt_eq table l rx.header.clusterId (broadcastRequest rx) body
    unfold handleAt handle
    simp only [hserved.context, hserved.own, Bool.not_true, Bool.false_eq_true, if_false, if_neg (Nat.not_lt.2 hserved.short),
      if_neg (Nat.pos_iff_ne_zero.1 hserved.some), hread, ok_bind, hsize, hencoded, hserved.request, ne_eq, not_true,
      hserved.notification, or_self, hanswer]
    have haddressed : ¬(broadcastRequest rx = true ∧ ¬rx.header.clusterId = matchDescRequest) :=
      fun hc => hc.2 (hserved.addressed hc.1)
    rw [if_neg haddressed, if_neg haddressed]
    constructor
    · intro hover
      rw [if_pos hover.2]
      rfl
    · intro hroom
      rw [if_neg (fun hover => hroom ⟨hserved, hover⟩)]
      simp only [ok_bind]
      generalize answer (table.map (List.map Record.octets)) l rx.header.clusterId (broadcastRequest rx) body = answered
      obtain e | ⟨status, _ | staged, consumed⟩ := answered
      · rfl
      · rfl
      · simp only
        split <;> rfl
  · refine ⟨fun h => absurd h.1 hserved, fun _ => ?_⟩
    unfold handleAt handle
    simp only
    split
    · rfl
    next hcontext =>
    split
    · rfl
    next hown =>
    split
    · rfl
    next hshort =>
    split
    · rfl
    next hsome =>
    rw [read_inside (Nat.pos_iff_ne_zero.2 hsome)]
    simp only [ok_bind]
    rw [show stagedSize ((table.map rawTable).map fun _ => []) = stagedSize (table.map (List.map Record.octets)) by
      cases table <;> rfl]
    have hencoded := rspEncode_ok l (byteAt body 0) (table.map (List.map Record.octets))
    generalize rspEncode ⟨l.descriptor, l.address, byteAt body 0, success, false, 0⟩
      (stagedSize (table.map (List.map Record.octets))) = encoded at hencoded
    cases encoded with
    | error e => rfl
    | ok staged =>
    simp only
    split
    · rfl
    next hrequest =>
    split
    · rfl
    next hnotification =>
    split
    · rfl
    next hparent =>
    split
    · rfl
    next haddressed =>
    refine absurd ⟨by simpa using hcontext, by simpa using hown, Nat.not_lt.1 hshort, Nat.pos_iff_ne_zero.2 hsome,
      hencoded.1 ⟨staged, rfl⟩, not_not.1 hrequest, ?_, fun hb => ?_⟩ hserved
    · exact ⟨fun h => hnotification (.inl h), fun h => hnotification (.inr h), hparent⟩
    · exact by_contra fun h => haddressed ⟨hb, h⟩

/-! ## What a call answers -/

/-- The octets a request has to have. -/
def needed (cluster : UInt16) (body : Bytes) : Nat :=
  if cluster = matchDescRequest then matchLength body
  else if cluster = powerDescRequest ∨ cluster = activeEpRequest ∨ cluster = requestCluster then 3
  else if cluster = simpleDescRequest then 4
  else 1

/-- The reply octets of a Match_Desc request, or none for a dropped broadcast. -/
def matchReply (table : Option (List Record)) (l : Local) (broadcast : Bool) (body : Bytes) : Option Bytes :=
  if OfInterest l body then
    if matched table l body = [] ∧ broadcast then none
    else some ([byteAt body 0, success, byteAt body 1, byteAt body 2, UInt8.ofNat (matched table l body).length] ++
      matched table l body)
  else if broadcast then none
  else some [byteAt body 0, invalidRequest, 0]

/-- What a call has to do: it stages within its buffer, answers Match_Desc with the endpoints that match, refuses
exactly the requests that are too short, and leaves the objects of the caller alone when it refuses. -/
structure Answers (table : Option (List Record)) (l : Local) (rx : Rx) (body response : Bytes) (info : Info)
    (o : Outcome) : Prop where
  staged : o.result = none → o.info.response.length ≤ stagedSize (table.map (List.map Record.octets))
  matched : Served l rx body → rx.header.clusterId = matchDescRequest → matchLength body ≤ body.length →
    match matchReply table l (broadcastRequest rx) body with
    | none => o.result = none ∧ o.info.kind = .dropBroadcast ∧ o.response = response
    | some reply =>
      if response.length < reply.length then o.result = some .space
      else o.result = none ∧ o.info.kind = .reply ∧ o.info.response = reply ∧ o.response = reply ++ response.drop reply.length
  truncated : o.result = some .truncated ↔ contextValid rx = true ∧ localValid l = true ∧ body.length ≤ maxBody ∧
    (body.length = 0 ∨ (Served l rx body ∧ body.length < needed rx.header.clusterId body))
  untouched : o.result ≠ none → o.response = response ∧ o.info = info

/-- A request that is answered, over the records. -/
theorem handle_served {l : Local} {rx : Rx} {body : Bytes} (h : Served l rx body) (table : Option (List SimpleDescriptor))
    (capacity : Nat) :
    handle table l rx body capacity =
      match answer table l rx.header.clusterId (broadcastRequest rx) body with
      | .error e => .error e
      | .ok (_, none, consumed) => .ok ⟨0, .dropBroadcast, 0, byteAt body 0, 0, consumed, []⟩
      | .ok (status, some staged, consumed) =>
        if capacity < staged.length then .error .space
        else .ok ⟨rx.header.clusterId ||| 0x8000, .reply, rx.header.sourceEndpoint, byteAt body 0, status, consumed, staged⟩ := by
  obtain ⟨staged, hencoded⟩ := (rspEncode_ok l (byteAt body 0) table).2 h.descriptor
  have haddressed : ¬(broadcastRequest rx = true ∧ ¬rx.header.clusterId = matchDescRequest) :=
    fun hc => hc.2 (h.addressed hc.1)
  unfold handle
  simp only [h.context, h.own, Bool.not_true, Bool.false_eq_true, if_false, if_neg (Nat.not_lt.2 h.short),
    if_neg (Nat.pos_iff_ne_zero.1 h.some), hencoded, h.request, ne_eq, not_true, h.notification, or_self, haddressed]
    <;> rfl

/-- Any other request is refused, or dropped without a reply. -/
theorem handle_unserved {l : Local} {rx : Rx} {body : Bytes} (h : ¬Served l rx body) (table : Option (List SimpleDescriptor))
    (capacity : Nat) {r : Except Result Info} (hr : handle table l rx body capacity = r) :
    (∃ e, r = .error e ∧
      (e = .truncated ↔ contextValid rx = true ∧ localValid l = true ∧ body.length ≤ maxBody ∧ body.length = 0)) ∨
    (0 < body.length ∧ ∃ i, r = .ok i ∧ i.response = []) := by
  unfold handle at hr
  extract_lets cluster broadcast at hr
  split at hr
  next hcontext =>
    rw [Bool.not_eq_true'] at hcontext
    exact .inl ⟨_, hr.symm, by simp [hcontext]⟩
  next hcontext =>
  split at hr
  next hown =>
    rw [Bool.not_eq_true'] at hown
    exact .inl ⟨_, hr.symm, by simp [hown]⟩
  next hown =>
  split at hr
  next hlong => exact .inl ⟨_, hr.symm, iff_of_false nofun fun hc => absurd hc.2.2.1 (Nat.not_le.2 hlong)⟩
  next hshort =>
  split at hr
  next hsome =>
    exact .inl ⟨_, hr.symm, iff_of_true rfl ⟨by simpa using hcontext, by simpa using hown, Nat.not_lt.1 hshort, hsome⟩⟩
  next hsome =>
  have hempty : ∀ e : Result, e ≠ .truncated →
      (e = .truncated ↔ contextValid rx = true ∧ localValid l = true ∧ body.length ≤ maxBody ∧ body.length = 0) :=
    fun e he => iff_of_false he fun hc => hsome hc.2.2.2
  split at hr
  next => exact .inl ⟨_, hr.symm, hempty _ nofun⟩
  next staged hstaged =>
  split at hr
  · exact .inl ⟨_, hr.symm, hempty _ nofun⟩
  next hrequest =>
  split at hr
  · exact .inl ⟨_, hr.symm, hempty _ nofun⟩
  next hnotification =>
  split at hr
  · exact .inr ⟨Nat.pos_iff_ne_zero.2 hsome, _, hr.symm, rfl⟩
  next hparent =>
  split at hr
  · exact .inr ⟨Nat.pos_iff_ne_zero.2 hsome, _, hr.symm, rfl⟩
  next haddressed =>
  refine absurd ⟨by simpa using hcontext, by simpa using hown, Nat.not_lt.1 hshort, Nat.pos_iff_ne_zero.2 hsome,
    (rspEncode_ok l (byteAt body 0) table).1 ⟨staged, hstaged⟩, not_not.1 hrequest, ?_, fun hb => ?_⟩ h
  · exact ⟨fun h => hnotification (.inl h), fun h => hnotification (.inr h), hparent⟩
  · exact by_contra fun h => haddressed ⟨hb, h⟩

/-- The answer is an error for want of octets exactly when the request has fewer than it needs. -/
theorem answer_truncated (table : Option (List SimpleDescriptor)) (l : Local) (cluster : UInt16) (broadcast : Bool)
    {body : Bytes} (hshort : body.length ≤ maxBody) (hsome : 0 < body.length) :
    answer table l cluster broadcast body = .error .truncated ↔ body.length < needed cluster body := by
  unfold answer needed
  split
  next hpower =>
    rw [if_neg (by rw [hpower]; decide), if_pos (.inl hpower)]
    unfold powerDesc
    split
    next h => exact iff_of_true rfl h
    next h => split <;> exact iff_of_false nofun h
  next hpower =>
  split
  next hmatch =>
    rw [matchDesc, matchLength]
    split
    next h => exact iff_of_true rfl (by omega)
    next h =>
      simp only
      split
      next hlists => exact iff_of_true rfl (by omega)
      next hlists =>
        refine iff_of_false ?_ (by omega)
        split <;> exact nofun
  next hmatch =>
  have hendpoint : ∀ simple, endpointDesc table l body simple = .error .truncated ↔
      body.length < if simple then 4 else 3 := by
    intro simple
    unfold endpointDesc
    extract_lets consumed answer
    have hanswer : ∀ status tail, answer status tail ≠ .error .truncated := fun _ _ => nofun
    by_cases hlong : body.length < if simple then 4 else 3
    · rw [if_pos hlong]
      exact iff_of_true rfl hlong
    rw [if_neg hlong]
    refine iff_of_false ?_ hlong
    split
    · exact hanswer _ _
    split
    · exact hanswer _ _
    split
    · split
      · exact hanswer _ _
      split
      · exact hanswer _ _
      split <;> exact hanswer _ _
    · split
      · exact hanswer _ _
      split <;> exact hanswer _ _
  split
  next hactive =>
    rw [if_pos (.inr (.inl hactive))]
    exact hendpoint false
  next hactive =>
  split
  next hsimple =>
    rw [if_neg (by rw [hsimple]; decide)]
    exact hendpoint true
  next hsimple =>
  unfold nodeDesc
  extract_lets reply
  have hreply : ∀ status address consumed, reply status address consumed ≠ .error .truncated := by
    intro status address consumed
    simp only [reply]
    split <;> exact nofun
  split
  next hnode =>
    rw [if_pos (.inr (.inr hnode)), reqDecode, if_neg (Nat.not_lt.2 hshort)]
    by_cases hlong : body.length < 3
    · rw [if_pos hlong]
      exact iff_of_true rfl hlong
    · rw [if_neg hlong]
      exact iff_of_false (hreply _ _ _) hlong
  next hnode =>
    rw [if_neg (not_or.2 ⟨hpower, not_or.2 ⟨hactive, hnode⟩⟩)]
    exact iff_of_false (hreply _ _ _) (by omega)

theorem writeDescriptor_length (d : Descriptor) : (writeDescriptor d).length = 13 := rfl

theorem rspEncode_length {response : Response} {capacity : Nat} {staged : Bytes}
    (h : rspEncode response capacity = .ok staged) : staged.length ≤ capacity := by
  unfold rspEncode at h
  split at h
  · cases h
  next needed hneeded =>
  split at h
  · cases h
  split at h
  · cases h
  next hroom =>
  cases h
  refine Nat.le_trans (Nat.le_of_eq ?_) (Nat.not_lt.1 hroom)
  unfold responseSize at hneeded
  split at hneeded
  next hs => cases hneeded; rw [hs]; rfl
  next hs =>
  split at hneeded
  · cases hneeded
    simp [hs, put16]
  split at hneeded
  · cases hneeded
    simp [hs]
  · cases hneeded

theorem staged_fixed (table : Option (List SimpleDescriptor)) : 25 ≤ stagedSize table := by
  cases table <;> simp [stagedSize, descriptorMax]

theorem matchDesc_staged {table : Option (List Record)} {l : Local} {broadcast : Bool} {body : Bytes}
    (hroom : ¬tableStaged < 5 + listedEndpoints table l matchDescRequest body) {status consumed : UInt8} {staged : Bytes}
    (h : matchDesc (table.map (List.map Record.octets)) l body broadcast = .ok (status, some staged, consumed)) :
    staged.length ≤ stagedSize (table.map (List.map Record.octets)) := by
  have hfixed := staged_fixed (table.map (List.map Record.octets))
  unfold matchDesc at h
  split at h
  · cases h
  next hlong =>
  simp only [matching_eq] at h
  split at h
  · cases h
  next hlists =>
  split at h
  next hother =>
    split at h
    · cases h
    · cases h
      exact Nat.le_trans (by decide : 3 ≤ 25) hfixed
  next hown =>
    have hcomplete : matchLength body ≤ body.length := by
      unfold matchLength
      omega
    have hinterest : OfInterest l body := by
      by_cases haddress : u16At body 1 = l.address
      · exact .inl haddress
      · exact .inr (UInt16.not_lt.1 fun hlt => hown ⟨haddress, hlt⟩)
    split at h
    · cases h
    · cases h
      cases table with
      | none =>
        refine Nat.le_trans ?_ hfixed
        simp only [matched]
        split <;> simp
      | some records =>
        rw [listed_complete hcomplete hinterest] at hroom
        simp only [tableStaged] at hroom
        simp only [Option.map_some, stagedSize, matched, List.length_append, List.length_cons, List.length_nil, List.length_map,
          Option.isSome_some, if_true]
        omega

theorem endpointDesc_staged {table : Option (List Record)} {l : Local} {simple : Bool} {body : Bytes}
    (hroom : ¬tableStaged < 5 + listedEndpoints table l (if simple then simpleDescRequest else activeEpRequest) body)
    {status consumed : UInt8} {staged : Bytes}
    (h : endpointDesc (table.map (List.map Record.octets)) l body simple = .ok (status, some staged, consumed)) :
    staged.length ≤ stagedSize (table.map (List.map Record.octets)) := by
  have hfixed := staged_fixed (table.map (List.map Record.octets))
  unfold endpointDesc at h
  by_cases hlong : body.length < if simple then 4 else 3
  · rw [if_pos hlong] at h
    cases h
  rw [if_neg hlong] at h
  extract_lets counted answer at h
  have hanswer : ∀ reply tail, answer reply tail = .ok (status, some staged, consumed) → staged.length = 4 + tail.length := by
    intro reply tail hr
    simp only [answer, Except.ok.injEq, Prod.mk.injEq, Option.some.injEq] at hr
    rw [← hr.2.1, List.length_append]
    rfl
  have hempty : ∀ reply, answer reply [0] = .ok (status, some staged, consumed) →
      staged.length ≤ stagedSize (table.map (List.map Record.octets)) := by
    intro reply hr
    rw [hanswer _ _ hr]
    exact Nat.le_trans (by decide : 5 ≤ 25) hfixed
  split at h
  · exact hempty _ h
  split at h
  · exact hempty _ h
  next hown =>
  cases table with
  | some records =>
    simp only [Option.map_some] at h hfixed ⊢
    split at h
    next hactive =>
      have hactive : simple = false := by simpa using hactive
      rw [hactive] at hroom hlong
      simp only [Bool.false_eq_true, if_false] at hroom hlong
      rw [listed_endpoints (by omega) (not_not.1 hown), tableStaged] at hroom
      rw [hanswer _ _ h, List.length_cons, List.length_map, List.length_map]
      simp only [stagedSize, Option.isSome_some, if_true]
      omega
    split at h
    · exact hempty _ h
    next d hd =>
    split at h
    · exact hempty _ h
    next hshort =>
      rw [hanswer _ _ h, List.length_cons]
      simp only [stagedSize, Option.isSome_some, if_true]
      omega
  | none =>
    simp only [Option.map_none] at h hfixed ⊢
    split at h
    · rw [hanswer _ _ h]
      refine Nat.le_trans ?_ hfixed
      split <;> simp
    split at h
    · exact hempty _ h
    · rw [hanswer _ _ h]
      exact hfixed

/-- A reply of the server over the records stays within the staging buffer. -/
theorem answer_staged {table : Option (List Record)} {l : Local} {cluster : UInt16} {broadcast : Bool} {body : Bytes}
    (hroom : ¬tableStaged < 5 + listedEndpoints table l cluster body) {status consumed : UInt8} {staged : Bytes}
    (h : answer (table.map (List.map Record.octets)) l cluster broadcast body = .ok (status, some staged, consumed)) :
    staged.length ≤ stagedSize (table.map (List.map Record.octets)) := by
  have hfixed : 25 ≤ stagedSize (table.map (List.map Record.octets)) := by
    cases table <;> simp [stagedSize, descriptorMax]
  unfold answer at h
  split at h
  next hpower =>
    unfold powerDesc at h
    split at h
    · cases h
    split at h
    · cases h
      exact Nat.le_trans (by decide : 4 ≤ 25) hfixed
    · cases h
      exact Nat.le_trans (by decide : 6 ≤ 25) hfixed
  split at h
  next hmatch =>
    rw [hmatch] at hroom
    exact matchDesc_staged hroom h
  split at h
  next hactive =>
    rw [hactive] at hroom
    exact @endpointDesc_staged table l false body hroom status consumed staged h
  split at h
  next hsimple =>
    rw [hsimple] at hroom
    exact @endpointDesc_staged table l true body hroom status consumed staged h
  unfold nodeDesc at h
  extract_lets reply at h
  have hreply : ∀ code address count, reply code address count = .ok (status, some staged, consumed) →
      staged.length ≤ stagedSize (table.map (List.map Record.octets)) := by
    intro code address count hr
    simp only [reply] at hr
    split at hr
    · cases hr
    next hencoded =>
      simp only [Except.ok.injEq, Prod.mk.injEq, Option.some.injEq] at hr
      rw [← hr.2.1]
      exact rspEncode_length hencoded
  split at h
  · split at h
    · cases h
    · exact hreply _ _ _ h
  · exact hreply _ _ _ h

theorem matchDesc_complete (table : Option (List Record)) (l : Local) {body : Bytes} (h : matchLength body ≤ body.length)
    (broadcast : Bool) :
    ∃ status consumed, matchDesc (table.map (List.map Record.octets)) l body broadcast =
      .ok (status, matchReply table l broadcast body, consumed) := by
  unfold matchLength at h
  unfold matchDesc matchReply
  rw [if_neg (by omega)]
  simp only [matching_eq, List.isEmpty_iff]
  rw [if_neg (by omega)]
  by_cases hinterest : OfInterest l body
  · rw [if_neg (fun hc => hinterest.elim hc.1 fun hb => absurd hc.2 (UInt16.not_lt.2 hb)), if_pos hinterest]
    exact ⟨_, _, rfl⟩
  · have hother := hinterest
    rw [OfInterest, not_or, UInt16.not_le] at hother
    rw [if_pos hother, if_neg hinterest]
    exact ⟨_, _, rfl⟩

/-- A call that stays within its staging buffer answers as it has to. -/
theorem settle_answers {table : Option (List Record)} {l : Local} {rx : Rx} {body : Bytes} (hroom : ¬Overruns table l rx body)
    (response : Bytes) (info : Info) :
    Answers table l rx body response info
      (settle response info (handle (table.map (List.map Record.octets)) l rx body response.length)) := by
  by_cases hserved : Served l rx body
  case neg =>
    obtain ⟨e, hrefused, htruncated⟩ | ⟨hsome, i, hdropped, hempty⟩ := handle_unserved hserved
      (table.map (List.map Record.octets)) response.length rfl
    · rw [hrefused]
      refine ⟨nofun, fun h => absurd h hserved, ?_, fun _ => ⟨rfl, rfl⟩⟩
      simp only [settle, Option.some.injEq, htruncated, hserved, false_and, or_false]
    · rw [hdropped]
      refine ⟨fun _ => ?_, fun h => absurd h hserved, ?_, fun h => absurd rfl h⟩
      · simp [settle, hempty]
      · simp only [settle, reduceCtorEq, hserved, false_and, or_false, Nat.pos_iff_ne_zero.1 hsome, and_false]
  have hlisted : ¬tableStaged < 5 + listedEndpoints table l rx.header.clusterId body := fun h => hroom ⟨hserved, h⟩
  have htruncated := answer_truncated (table.map (List.map Record.octets)) l rx.header.clusterId (broadcastRequest rx)
    hserved.short hserved.some
  have hshort : ∀ o : Outcome, (o.result = some .truncated ↔ body.length < needed rx.header.clusterId body) →
      (o.result = some .truncated ↔ contextValid rx = true ∧ localValid l = true ∧ body.length ≤ maxBody ∧
        (body.length = 0 ∨ (Served l rx body ∧ body.length < needed rx.header.clusterId body))) := by
    intro o h
    simp only [h, hserved.context, hserved.own, hserved.short, Nat.pos_iff_ne_zero.1 hserved.some, hserved, true_and, false_or]
  have hmatched : rx.header.clusterId = matchDescRequest → matchLength body ≤ body.length → ∃ status consumed,
      answer (table.map (List.map Record.octets)) l rx.header.clusterId (broadcastRequest rx) body =
        .ok (status, matchReply table l (broadcastRequest rx) body, consumed) := by
    intro hcluster hcomplete
    rw [hcluster, answer, if_neg (by decide), if_pos rfl]
    exact matchDesc_complete table l hcomplete _
  rw [handle_served hserved]
  cases hanswer : answer (table.map (List.map Record.octets)) l rx.header.clusterId (broadcastRequest rx) body with
  | error e =>
    rw [hanswer] at htruncated hmatched
    refine ⟨nofun, fun _ hcluster hcomplete => ?_, hshort _ (Iff.trans ?_ htruncated), fun _ => ⟨rfl, rfl⟩⟩
    · obtain ⟨_, _, h⟩ := hmatched hcluster hcomplete
      cases h
    · simp [settle]
  | ok a =>
    obtain ⟨status, reply, consumed⟩ := a
    rw [hanswer] at htruncated hmatched
    cases reply with
    | none =>
      refine ⟨fun _ => Nat.zero_le _, fun _ hcluster hcomplete => ?_, hshort _ (iff_of_false nofun fun h => ?_),
        fun h => absurd rfl h⟩
      · obtain ⟨_, _, h⟩ := hmatched hcluster hcomplete
        simp only [Except.ok.injEq, Prod.mk.injEq] at h
        rw [← h.2.1]
        exact ⟨rfl, rfl, rfl⟩
      · cases htruncated.2 h
    | some staged =>
      simp only
      split
      next hspace =>
        refine ⟨nofun, fun _ hcluster hcomplete => ?_, hshort _ (iff_of_false nofun fun h => ?_), fun _ => ⟨rfl, rfl⟩⟩
        · obtain ⟨_, _, h⟩ := hmatched hcluster hcomplete
          simp only [Except.ok.injEq, Prod.mk.injEq] at h
          rw [← h.2.1]
          exact (if_pos hspace).mpr rfl
        · cases htruncated.2 h
      next hfits =>
        refine ⟨fun _ => answer_staged hlisted hanswer, fun _ hcluster hcomplete => ?_,
          hshort _ (iff_of_false nofun fun h => ?_), fun h => absurd rfl h⟩
        · obtain ⟨_, _, h⟩ := hmatched hcluster hcomplete
          simp only [Except.ok.injEq, Prod.mk.injEq] at h
          rw [← h.2.1]
          exact (if_neg hfits).mpr ⟨rfl, rfl, rfl, rfl⟩
        · cases htruncated.2 h

/-- The server goes through every call within its objects and answers as it has to, exactly when its staging buffer
holds the endpoints that the request has it list. -/
theorem answers_exact (table : Option (List Record)) (l : Local) (rx : Rx) (body response : Bytes) (info : Info) :
    (∃ o, handleAt (table.map rawTable) l rx body response info = .ok o ∧ Answers table l rx body response info o) ↔
      ¬Overruns table l rx body := by
  constructor
  · rintro ⟨o, ho, -⟩ hover
    rw [(handleAt_eq table l rx body response info).1 hover] at ho
    cases ho
  · intro hroom
    exact ⟨_, (handleAt_eq table l rx body response info).2 hroom, settle_answers hroom response info⟩

/-- An endpoint of the home automation profile with the basic cluster. -/
def basicRecord (endpoint : UInt8) : Record := ⟨[endpoint, 4, 1, 0, 0, 0, 1, 0, 0, 0], rfl, by simp⟩

/-- A table of one endpoint more than the staging buffer takes. -/
def crowdedTable : List Record := (List.range 28).map fun i => basicRecord (UInt8.ofNat (i + 1))

def crowdedLocal : Local := ⟨⟨0x1234, 82, 82, 2, 0, 8, 0x80, 82, 0, 22, 0⟩, 0x4567, 0x0104, 1⟩

def matchRx : Rx := ⟨{ ApsFrame.Header.zero with clusterId := matchDescRequest }, false⟩

/-- Any profile, with the basic cluster as the only input cluster. -/
def basicRequest : Bytes := [1, 0x67, 0x45, 0xFF, 0xFF, 1, 0, 0, 0]

/-- The last of the endpoints that match is written behind the staging buffer. -/
theorem crowded_overruns :
    ¬∃ o, handleAt (some (rawTable crowdedTable)) crowdedLocal matchRx basicRequest (List.replicate 82 0)
        ⟨0, .reply, 0, 0, 0, 0, []⟩ = .ok o ∧
      Answers (some crowdedTable) crowdedLocal matchRx basicRequest (List.replicate 82 0) ⟨0, .reply, 0, 0, 0, 0, []⟩ o := by
  rintro ⟨o, ho, -⟩
  have hover : Overruns (some crowdedTable) crowdedLocal matchRx basicRequest :=
    ⟨⟨by decide, by decide, by decide, by decide, by decide, by decide, by decide, by decide⟩, by decide⟩
  rw [show some (rawTable crowdedTable) = (some crowdedTable).map rawTable from rfl,
    (handleAt_eq _ _ _ _ _ _).1 hover] at ho
  cases ho

end ZdoServer
