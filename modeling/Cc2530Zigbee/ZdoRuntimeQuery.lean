import Cc2530Zigbee.ZdoRuntimeLeave

/-!
# The client query

One query at a time, from its request to the result that is taken. What the calls of
the runtime do to it, one phase of a step after the other: the completion, the deadline,
the received packet, the waiting response.
-/
namespace ZdoRuntime

open Octets
open EdWire (Packet at0 at1)
open NwkAps (Transport)

/-- What a query and its slot of the transport are, the result apart. -/
structure View where
  query : Option Query
  sequence : UInt8
  deadline : UInt32
  queryTx : Bool
  txDone : Bool
  queued : Bool
  completed : Bool
  sent : Bool
  outgoing : Packet
  outcome : NwkAps.Result

def view (n : Node) : View :=
  ⟨n.zdo.query, n.zdo.sequence, n.zdo.deadline, n.zdo.queryTx, n.zdo.txDone, n.transport.queued, n.transport.completed,
    n.transport.sent, n.transport.outgoing, n.transport.result⟩

/-- A trust center's answer that says success, in the format of the query. -/
def Answer.Succeeds (keys : Keys) (p : Packet) : Query → Prop
  | .node => ∃ node, ZdoNode.rspDecode (body p) = .ok node ∧ node.status = 0 ∧ ¬(node.hasAddress = true ∧ node.address ≠ 0)
  | .nwkAddress | .ieeeAddress =>
    12 ≤ p.length ∧ getElem p.payload 1 at1 = 0 ∧ u16At p.payload.toList 10 = 0 ∧ p.field 2 8 = keys.config.tcIeee
  | .parent => getElem p.payload 1 at1 = 0

/-- The packet is the answer of the trust center to the query with this sequence number. -/
structure Answer.Central (query : Query) (sequence : UInt8) (keys : Keys) (p : Packet) : Prop where
  kind : query ≠ .parent
  frame : p.nwk.type = 0 ∧ p.aps.type = 0 ∧ p.aps.destinationEndpoint = 0 ∧ p.aps.profileId = 0 ∧ p.aps.sourceEndpoint = 0 ∧
    p.aps.deliveryMode = 0
  cluster : p.aps.clusterId = responseCluster (some query)
  sequence : getElem p.payload 0 at0 = sequence
  source : p.nwk.source = 0
  destination : p.nwk.destination = keys.config.address
  succeeds : Answer.Succeeds keys p query

/-- The packet is the timeout response of the parent. It carries no sequence number. -/
structure Answer.Parental (query : Query) (keys : Keys) (p : Packet) : Prop where
  kind : query = .parent
  command : p.nwk.type ≠ 0 ∧ 3 ≤ p.length ∧ getElem p.payload 0 at0 = 0x0C
  source : p.nwk.source = parentAddress keys ∧ p.nwk.sourceIeee = parentIeee keys
  destination : p.nwk.destination = keys.config.address ∧ p.nwk.destinationIeee = keys.config.ownIeee
  succeeds : Answer.Succeeds keys p query

/-- A received packet that answers the query at this time with success. -/
structure Answer (query : Query) (sequence : UInt8) (deadline : UInt32) (keys : Keys) (now : UInt32) (t : Transport) :
    Prop where
  arrived : t.receiveReady = true
  authenticated : t.event = .data ∨ t.event = .management
  timely : expired now deadline = false
  matching : Answer.Central query sequence keys t.incoming ∨ Answer.Parental query keys t.incoming

/-! ## The received packet -/

/-- The result stays, or a query without one gets one after it was sent: a success for an answer alone. -/
def Decided (n : Node) (keys : Keys) (n' : Node) : Prop :=
  n'.zdo.result = n.zdo.result ∨
    (n.zdo.result = none ∧ (n.zdo.txDone = true ∨ n.transport.sent = true) ∧
      ∃ query, n.zdo.query = some query ∧
        (n'.zdo.result = some .remote ∨
          (n'.zdo.result = some .ok ∧ expired n.zdo.last n.zdo.deadline = false ∧
            (Answer.Central query n.zdo.sequence keys n.zdo.application ∨ Answer.Parental query keys n.zdo.application))))

theorem parentResponse_decided (n : Node) (keys : Keys) (hcommand : n.zdo.application.nwk.type ≠ 0) :
    view (parentResponse n keys).2 = view n ∧ Decided n keys (parentResponse n keys).2 := by
  unfold parentResponse
  extract_lets p
  split
  · exact ⟨rfl, .inl rfl⟩
  next hopen =>
  simp only [not_or, not_not] at hopen
  split
  · exact ⟨rfl, .inl rfl⟩
  next hformat =>
  simp only [not_or, not_not] at hformat
  have hsent : n.zdo.txDone = true ∨ n.transport.sent = true := by
    by_contra hno
    rw [not_or, Bool.not_eq_true, Bool.not_eq_true] at hno
    exact hopen.2.2.1 (by simp [hno.1, hno.2])
  split
  · exact ⟨rfl, .inr ⟨hopen.2.1, hsent, .parent, hopen.1, .inl rfl⟩⟩
  next hstatus =>
    refine ⟨rfl, .inr ⟨hopen.2.1, hsent, .parent, hopen.1, .inr ⟨rfl, by simpa using hopen.2.2.2, .inr ?_⟩⟩⟩
    exact ⟨rfl, ⟨hcommand, UInt8.not_lt.1 hformat.1, hformat.2.1⟩, ⟨hformat.2.2.2.1, hformat.2.2.2.2.2.2.2.1⟩,
      ⟨hformat.2.2.2.2.1, hformat.2.2.2.2.2.2.2.2⟩, not_not.1 hstatus⟩

theorem zdoResponse_decided (n : Node) (keys : Keys) (hframe : n.zdo.application.nwk.type = 0)
    (hdata : n.zdo.application.aps.type = 0) (hendpoint : n.zdo.application.aps.destinationEndpoint = 0)
    (hprofile : n.zdo.application.aps.profileId = 0) :
    view (zdoResponse n keys).2 = view n ∧ Decided n keys (zdoResponse n keys).2 := by
  unfold zdoResponse
  extract_lets p
  split
  · exact ⟨rfl, .inl rfl⟩
  next hopen =>
  simp only [not_or, not_not] at hopen
  obtain ⟨hquery, hparent, hresult, htx, htime, hsource, hdestination, hendpoint0, hmode, hcluster, hsequence⟩ := hopen
  obtain ⟨query, hq⟩ := Option.ne_none_iff_exists'.1 hquery
  have hsent : n.zdo.txDone = true ∨ n.transport.sent = true := by
    by_contra hno
    rw [not_or, Bool.not_eq_true, Bool.not_eq_true] at hno
    exact htx (by simp [hno.1, hno.2])
  have hcentral : Answer.Succeeds keys p query → Answer.Central query n.zdo.sequence keys p := fun hs =>
    ⟨fun hp => hparent (by rw [hq, hp]), ⟨hframe, hdata, hendpoint, hprofile, hendpoint0, hmode⟩, by rw [hcluster, hq],
      hsequence, hsource, hdestination, hs⟩
  have htime : expired n.zdo.last n.zdo.deadline = false := by simpa using htime
  split
  next hnode =>
    have hkind : query = .node := Option.some.inj (hq.symm.trans hnode)
    split
    · exact ⟨rfl, .inl rfl⟩
    next node hdecoded =>
    split
    · exact ⟨rfl, .inl rfl⟩
    next haddress =>
    split
    · exact ⟨rfl, .inr ⟨hresult, hsent, query, hq, .inl rfl⟩⟩
    next hstatus =>
      refine ⟨rfl, .inr ⟨hresult, hsent, query, hq, .inr ⟨rfl, htime, .inl (hcentral ?_)⟩⟩⟩
      rw [hkind]
      exact ⟨node, hdecoded, not_not.1 hstatus, haddress⟩
  next hnode =>
  split
  · exact ⟨rfl, .inl rfl⟩
  next hformat =>
  split
  · exact ⟨rfl, .inl rfl⟩
  next hcontent =>
    by_cases hstatus : p.payload[1] = 0
    · refine ⟨rfl, .inr ⟨hresult, hsent, query, hq, .inr ⟨?_, htime, .inl (hcentral ?_)⟩⟩⟩
      · exact congrArg some (if_neg (not_not.2 hstatus))
      · rw [not_or, UInt8.not_lt] at hformat
        rw [not_and, not_or, not_not, not_not] at hcontent
        have hs := hcontent hstatus
        cases query with
        | node => exact absurd hq hnode
        | nwkAddress => exact ⟨hformat.1, hstatus, hs.1, hs.2⟩
        | ieeeAddress => exact ⟨hformat.1, hstatus, hs.1, hs.2⟩
        | parent => exact hstatus
    · exact ⟨rfl, .inr ⟨hresult, hsent, query, hq, .inl (congrArg some (if_pos hstatus))⟩⟩

/-- Neither the query nor its result is touched. -/
def Kept (n n' : Node) : Prop := view n' = view n ∧ n'.zdo.result = n.zdo.result

theorem announce_kept (n : Node) (keys : Keys) (p : Packet) : Kept n (announce n keys p).2 := by
  unfold announce
  split
  · exact ⟨rfl, rfl⟩
  extract_lets address ieee s own conflict z
  split
  · exact ⟨rfl, rfl⟩
  split
  · exact ⟨rfl, rfl⟩
  split
  · exact ⟨rfl, rfl⟩
  split <;> exact ⟨rfl, rfl⟩

theorem addressRequest_kept (n : Node) (keys : Keys) (p : Packet) :
    Kept n { n with zdo := (addressRequest n.zdo keys p).2 } := by
  unfold addressRequest
  extract_lets ieeeRequest octets address known type status ieee address' r tail
  generalize (if ieeeRequest then 5 else 11) = shortest
  split
  · exact ⟨rfl, rfl⟩
  split <;> exact ⟨rfl, rfl⟩

theorem mgmtLeave_kept (n : Node) (keys : Keys) (p : Packet) : Kept n { n with zdo := (mgmtLeave n.zdo keys p).2 } := by
  unfold mgmtLeave
  split
  · exact ⟨rfl, rfl⟩
  split <;> exact ⟨rfl, rfl⟩

theorem serve_kept (table : Option (List ZdoServer.SimpleDescriptor)) (n : Node) (keys : Keys) (p : Packet) :
    Kept n (serve table n keys p).2 := by
  unfold serve
  extract_lets l r n'
  split
  · exact ⟨rfl, rfl⟩
  split <;> exact ⟨rfl, rfl⟩

theorem Kept.decided {n n' : Node} (h : Kept n n') (keys : Keys) : view n' = view n ∧ Decided n keys n' := ⟨h.1, .inl h.2⟩

theorem dispatch_decided (table : Option (List ZdoServer.SimpleDescriptor)) (n : Node) (keys : Keys)
    (hframe : n.zdo.application.nwk.type = 0) (hendpoint : n.zdo.application.aps.destinationEndpoint = 0)
    (hprofile : n.zdo.application.aps.profileId = 0) :
    view (dispatch table n keys n.zdo.application).2 = view n ∧ Decided n keys (dispatch table n keys n.zdo.application).2 := by
  unfold dispatch
  extract_lets cluster r r'
  split
  · exact ⟨rfl, .inl rfl⟩
  next hdata =>
  rw [not_or, not_not] at hdata
  split
  · exact ⟨rfl, .inl rfl⟩
  split
  · exact zdoResponse_decided n keys hframe hdata.1 hendpoint hprofile
  split
  · exact (announce_kept n keys _).decided keys
  split
  · exact ⟨rfl, .inl rfl⟩
  split
  · exact (addressRequest_kept n keys _).decided keys
  split
  · exact (mgmtLeave_kept n keys _).decided keys
  · exact (serve_kept table n keys _).decided keys

/-- What taking in a packet does to the query: nothing, or the packet decides it. -/
def Takes (n : Node) (keys : Option Keys) (n' : Node) : Prop :=
  n'.zdo.result = n.zdo.result ∨
    (n.zdo.result = none ∧ (n.zdo.txDone = true ∨ n.transport.sent = true) ∧
      ∃ query known, n.zdo.query = some query ∧ keys = some known ∧
        (n'.zdo.result = some .remote ∨
          (n'.zdo.result = some .ok ∧ Answer query n.zdo.sequence n.zdo.deadline known n.zdo.last n.transport)))

theorem received_takes (table : Option (List ZdoServer.SimpleDescriptor)) (n : Node) (keys : Option Keys)
    (hready : n.transport.receiveReady = true) :
    view (received table n keys).2 = view n ∧ Takes n keys (received table n keys).2 := by
  unfold received
  simp only [NwkAps.take, hready, if_true]
  cases keys with
  | none => exact ⟨rfl, .inl rfl⟩
  | some known =>
  simp only
  split
  · exact ⟨rfl, .inl rfl⟩
  next hevent =>
  have hevent : n.transport.event = .data ∨ n.transport.event = .management := by
    by_contra hno
    rw [not_or] at hno
    exact hevent hno
  have htakes : ∀ n' : Node, view n' = view n ∧ Decided
      { zdo := { n.zdo with application := n.transport.incoming }
        transport := { n.transport with incoming := NwkAps.Packet.zero, receiveReady := false } } known n' →
      view n' = view n ∧ Takes n (some known) n' := by
    rintro n' ⟨hview, hdecided⟩
    refine ⟨hview, hdecided.imp id ?_⟩
    rintro ⟨hnone, hsent, query, hquery, hremote | ⟨hok, htime, hmatching⟩⟩
    · exact ⟨hnone, hsent, query, known, hquery, rfl, .inl hremote⟩
    · exact ⟨hnone, hsent, query, known, hquery, rfl, .inr ⟨hok, hready, hevent, htime, hmatching⟩⟩
  split
  next hcommand => exact htakes _ (parentResponse_decided _ known hcommand)
  next hframe =>
  rw [not_not] at hframe
  split
  · exact ⟨rfl, .inl rfl⟩
  next hzdo =>
  rw [not_or, not_not, not_not] at hzdo
  exact htakes _ (dispatch_decided table
    { zdo := { n.zdo with application := n.transport.incoming }
      transport := { n.transport with incoming := NwkAps.Packet.zero, receiveReady := false } } known hframe hzdo.1 hzdo.2)

theorem taken_takes (table : Option (List ZdoServer.SimpleDescriptor)) (n : Node) (keys : Option Keys) :
    view (taken table n keys).2 = view n ∧ Takes n keys (taken table n keys).2 := by
  unfold taken
  split
  next hready =>
    have h := received_takes table n keys hready.1
    simp only
    split <;> exact h
  · exact ⟨rfl, .inl rfl⟩

/-! ## The other phases -/

/-- What the packet in flight is to a node, and what has arrived. -/
def inbox (n : Node) : Bool × Packet × SecurityKeys.Event × UInt32 :=
  (n.transport.receiveReady, n.transport.incoming, n.transport.event, n.zdo.last)

/-- The completion of a query says done, and fails a query without a result unless the packet was delivered. -/
theorem confirmed_view (n : Node) :
    inbox (confirmed n).2 = inbox n ∧
      ((Kept n (confirmed n).2 ∧ (n.zdo.queryTx = true → n.transport.completed = false)) ∨
      (n.zdo.queryTx = true ∧ n.transport.completed = true ∧
        view (confirmed n).2 = { view n with queryTx := false, txDone := true, completed := false } ∧
        ((confirmed n).2.zdo.result = n.zdo.result ∧ (n.transport.result = .ok ∨ n.zdo.result ≠ none) ∨
          (confirmed n).2.zdo.result = some .cancelled ∨ (confirmed n).2.zdo.result = some .transmit)) ∨
      (n.zdo.queryTx = false ∧ view (confirmed n).2 = { view n with completed := false } ∧
        (confirmed n).2.zdo.result = n.zdo.result)) := by
  unfold confirmed
  split
  next hdone =>
    rw [show NwkAps.confirm n.transport = (some n.transport.result, { n.transport with completed := false }) from
      if_pos hdone.2]
    simp only
    split
    next hquery =>
      refine ⟨rfl, .inr (.inl ⟨hquery, hdone.2, rfl, ?_⟩)⟩
      simp only
      split
      next hlost =>
        split
        · exact .inr (.inl rfl)
        · exact .inr (.inr rfl)
      next hkept =>
        refine .inl ⟨rfl, ?_⟩
        by_cases hok : n.transport.result = .ok
        · exact .inl hok
        · refine .inr fun hnone => hkept ⟨hok, ?_, ?_⟩ <;> rw [hnone] <;> exact fun hn => by cases hn
    next hresponse =>
      have hresponse := Bool.eq_false_iff.2 hresponse
      split
      · exact ⟨rfl, .inr (.inr ⟨hresponse, rfl, rfl⟩)⟩
      split
      · exact ⟨rfl, .inr (.inr ⟨hresponse, rfl, rfl⟩)⟩
      · exact ⟨rfl, .inr (.inr ⟨hresponse, rfl, rfl⟩)⟩
  next hnone =>
    refine ⟨rfl, .inl ⟨⟨rfl, rfl⟩, fun hquery => ?_⟩⟩
    exact Bool.eq_false_iff.2 fun hcompleted => hnone ⟨.inl hquery, hcompleted⟩

theorem cancel_view (t : Transport) (now : UInt32) :
    (NwkAps.cancel t now).2.queued = t.queued ∧ (NwkAps.cancel t now).2.completed = t.completed ∧
      (NwkAps.cancel t now).2.sent = t.sent ∧ (NwkAps.cancel t now).2.outgoing = t.outgoing ∧
      (NwkAps.cancel t now).2.result = t.result ∧ (NwkAps.cancel t now).2.receiveReady = t.receiveReady ∧
      (NwkAps.cancel t now).2.incoming = t.incoming ∧ (NwkAps.cancel t now).2.event = t.event := by
  unfold NwkAps.cancel NwkAps.advance
  by_cases hclock : MacTx.half ≤ now - t.last
  · simp [hclock]
  · by_cases hqueued : t.queued = true
    · simp [hclock, hqueued]
    · simp [hclock, hqueued]

/-- The deadline gives a query without a result its timeout. -/
theorem timedOut_view (n : Node) (now : UInt32) :
    view (timedOut n now).2 = view n ∧ inbox (timedOut n now).2 = inbox n ∧
      ((timedOut n now).2.zdo.result = n.zdo.result ∨
        (n.zdo.result = none ∧ (timedOut n now).2.zdo.result = some .timeout)) ∧
      (n.zdo.query ≠ none → expired now n.zdo.deadline = true → (timedOut n now).2.zdo.result ≠ none) := by
  unfold timedOut
  split
  next hdue =>
    obtain ⟨hqueued, hcompleted, hsent, houtgoing, houtcome, hready, hincoming, hevent⟩ := cancel_view n.transport now
    simp only
    split
    · refine ⟨?_, ?_, .inr ⟨hdue.2.1, rfl⟩, fun _ _ hn => by cases hn⟩
      · simp only [view, hqueued, hcompleted, hsent, houtgoing, houtcome]
      · simp only [inbox, hready, hincoming, hevent]
    · exact ⟨rfl, rfl, .inr ⟨hdue.2.1, rfl⟩, fun _ _ hn => by cases hn⟩
  next hopen =>
    refine ⟨rfl, rfl, .inl rfl, fun hquery hexpired hnone => hopen ⟨?_, hnone, hexpired⟩⟩
    exact Option.isSome_iff_ne_none.2 hquery

theorem reserve_slot (t : Transport) (now : UInt32) (aps : Bool) :
    (NwkAps.reserve t now aps).2.queued = t.queued ∧ (NwkAps.reserve t now aps).2.completed = t.completed ∧
      (NwkAps.reserve t now aps).2.sent = t.sent ∧ (NwkAps.reserve t now aps).2.outgoing = t.outgoing ∧
      (NwkAps.reserve t now aps).2.result = t.result := by
  unfold NwkAps.reserve NwkAps.advance
  by_cases hclock : MacTx.half ≤ now - t.last
  · simp [hclock]
  simp only [hclock, if_false]
  by_cases hbusy : t.queued = true ∨ t.completed = true ∨ t.stopping = true
  · simp [hbusy]
  cases aps with
  | false => simp [hbusy]
  | true =>
    by_cases hwrap : t.wrapWait = true ∧ MacTx.reached now t.counterUntil = false
    · simp [hbusy, hwrap]
    · simp [hbusy, if_neg hwrap]

/-- A queue call refuses and leaves the slot alone, or fills it. -/
theorem queue_slot (t : Transport) (packet : Packet) (secure : Bool) (now : UInt32) :
    ((NwkAps.queue t packet secure now).1 ≠ .ok ∧ (NwkAps.queue t packet secure now).2.queued = t.queued ∧
      (NwkAps.queue t packet secure now).2.completed = t.completed ∧
      (NwkAps.queue t packet secure now).2.sent = t.sent ∧ (NwkAps.queue t packet secure now).2.outgoing = t.outgoing ∧
      (NwkAps.queue t packet secure now).2.result = t.result) ∨
    ((NwkAps.queue t packet secure now).1 = .ok ∧ t.queued = false ∧ t.completed = false ∧
      (NwkAps.queue t packet secure now).2.queued = true ∧ (NwkAps.queue t packet secure now).2.completed = false ∧
      (NwkAps.queue t packet secure now).2.outgoing.aps.clusterId = packet.aps.clusterId ∧
      (NwkAps.queue t packet secure now).2.outgoing.payload = packet.payload) := by
  obtain ⟨hrefused, -⟩ | ⟨hok, hqueued, hcompleted, hfilled, hopen, counter, houtgoing⟩ :=
    NwkAps.queue_cases t packet secure now
  · refine .inl ⟨hrefused, ?_⟩
    have hslot := reserve_slot t now (packet.nwk.type == 0)
    unfold NwkAps.queue at hrefused ⊢
    split
    · exact ⟨rfl, rfl, rfl, rfl, rfl⟩
    next hlength =>
    rw [if_neg hlength] at hrefused
    simp only at hrefused ⊢
    split
    · exact hslot
    next hreserved =>
    rw [if_neg hreserved] at hrefused
    split
    · exact hslot
    next hready =>
    rw [if_neg hready] at hrefused
    split
    · exact hslot
    next htype =>
      rw [if_neg htype] at hrefused
      exact absurd rfl hrefused
  · exact .inr ⟨hok, hqueued, hcompleted, hfilled, hopen, by rw [houtgoing], by rw [houtgoing]⟩

/-- A packet of another purpose has filled the free slot of the transport. -/
structure Filled (n n' : Node) : Prop where
  free : n.transport.queued = false ∧ n.transport.completed = false
  query : n'.zdo.query = n.zdo.query ∧ n'.zdo.sequence = n.zdo.sequence ∧ n'.zdo.deadline = n.zdo.deadline
  progress : n'.zdo.queryTx = n.zdo.queryTx ∧ n'.zdo.txDone = n.zdo.txDone ∧ n'.zdo.result = n.zdo.result

theorem answered_view (n : Node) (now : UInt32) (rc : Result) :
    Kept n (answered n now rc).2 ∨ Filled n (answered n now rc).2 := by
  unfold answered
  split
  next hwaiting =>
    have hfree : n.transport.queued = false ∧ n.transport.completed = false := by simpa using hwaiting.2
    simp only
    obtain ⟨hrefused, hqueued, hcompleted, hsent, houtgoing, houtcome⟩ | ⟨hok, -⟩ :=
      queue_slot n.transport n.zdo.response false now
    · left
      split
      · split
        · exact ⟨by simp only [view, hqueued, hcompleted, hsent, houtgoing, houtcome], rfl⟩
        · exact ⟨by simp only [view, hqueued, hcompleted, hsent, houtgoing, houtcome], rfl⟩
      · split
        · exact ⟨by simp only [view, hqueued, hcompleted, hsent, houtgoing, houtcome], rfl⟩
        · exact ⟨by simp only [view, hqueued, hcompleted, hsent, houtgoing, houtcome], rfl⟩
    · right
      rw [if_neg (by rw [hok]; decide), if_neg (by rw [hok]; decide)]
      exact ⟨hfree, ⟨rfl, rfl, rfl⟩, rfl, rfl, rfl⟩
  · exact .inl ⟨rfl, rfl⟩

/-! ## The record of a query -/

/-- A call of the runtime or a move of the transport, and the node before it. -/
structure Entry where
  op : Op
  before : Node

/-- The transport has completed the packet of the query, and the runtime takes note of it. -/
structure Entry.Retires (packet : Packet) (x : Entry) : Prop where
  step : ∃ keys now, x.op = .step keys now
  own : x.before.zdo.queryTx = true
  completed : x.before.transport.completed = true
  packet : x.before.transport.outgoing.aps.clusterId = packet.aps.clusterId ∧
    x.before.transport.outgoing.payload = packet.payload

/-- The packet of the query has been transmitted at least once. -/
def Entry.Transmitted (x : Entry) : Prop := x.before.zdo.queryTx = true ∧ x.before.transport.sent = true

/-- The step takes in a packet that answers the query. -/
def Entry.Answers (query : Query) (sequence : UInt8) (deadline : UInt32) (x : Entry) : Prop :=
  ∃ keys now, x.op = .step (some keys) now ∧ Answer query sequence deadline keys now x.before.transport

/-- Since its request a query was transmitted, and then answered. -/
def Answered (query : Query) (sequence : UInt8) (deadline : UInt32) (since : List Entry) : Prop :=
  ∃ earlier x later, since = earlier ++ x :: later ∧ x.Answers query sequence deadline ∧
    ∃ y, y ∈ earlier ++ [x] ∧ y.Transmitted

/-- What holds of the query since its request, from when on `packet` was queued for it. -/
structure Pursued (n : Node) (packet : Packet) (since : List Entry) : Prop where
  held : n.zdo.queryTx = true → n.transport.queued = true ∨ n.transport.completed = true
  asked : n.zdo.queryTx = true → n.zdo.query ≠ none ∧ n.zdo.txDone = false
  own : n.zdo.queryTx = true → n.transport.outgoing.aps.clusterId = packet.aps.clusterId ∧
    n.transport.outgoing.payload = packet.payload
  honest : n.zdo.queryTx = true → n.transport.completed = true → n.transport.result = .ok → n.transport.sent = true
  due : n.zdo.query ≠ none → n.zdo.txDone = false → n.zdo.queryTx = true
  retired : n.zdo.query ≠ none → n.zdo.txDone = true → ∃ x, x ∈ since ∧ x.Retires packet
  transmitted : n.zdo.query ≠ none → n.zdo.txDone = true → n.zdo.result = none → ∃ x, x ∈ since ∧ x.Transmitted
  answered : ∀ query, n.zdo.query = some query → n.zdo.result = some .ok →
    Answered query n.zdo.sequence n.zdo.deadline since

theorem Answered.extend {query : Query} {sequence : UInt8} {deadline : UInt32} {since : List Entry}
    (h : Answered query sequence deadline since) (x : Entry) : Answered query sequence deadline (since ++ [x]) := by
  obtain ⟨earlier, y, later, rfl, hanswers, hsent⟩ := h
  exact ⟨earlier, y, later ++ [x], by simp, hanswers, hsent⟩

/-- More entries do no harm. -/
theorem Pursued.extend {n : Node} {packet : Packet} {since : List Entry} (h : Pursued n packet since) (x : Entry) :
    Pursued n packet (since ++ [x]) where
  held := h.held
  asked := h.asked
  own := h.own
  honest := h.honest
  due := h.due
  retired hq hd := by
    obtain ⟨y, hy, hretires⟩ := h.retired hq hd
    exact ⟨y, List.mem_append_left _ hy, hretires⟩
  transmitted hq hd hr := by
    obtain ⟨y, hy, hsent⟩ := h.transmitted hq hd hr
    exact ⟨y, List.mem_append_left _ hy, hsent⟩
  answered query hq hr := (h.answered query hq hr).extend x

theorem Pursued.congr {n n' : Node} {packet : Packet} {since : List Entry} (h : Pursued n packet since) (hkept : Kept n n') :
    Pursued n' packet since := by
  obtain ⟨hview, hresult⟩ := hkept
  simp only [view, View.mk.injEq] at hview
  obtain ⟨hquery, hsequence, hdeadline, hqueryTx, htxDone, hqueued, hcompleted, hsent, houtgoing, houtcome⟩ := hview
  constructor
  · rw [hqueryTx, hqueued, hcompleted]; exact h.held
  · rw [hqueryTx, hquery, htxDone]; exact h.asked
  · rw [hqueryTx, houtgoing]; exact h.own
  · rw [hqueryTx, hcompleted, houtcome, hsent]; exact h.honest
  · rw [hquery, htxDone, hqueryTx]; exact h.due
  · rw [hquery, htxDone]; exact h.retired
  · rw [hquery, htxDone, hresult]; exact h.transmitted
  · rw [hquery, hresult, hsequence, hdeadline]; exact h.answered

theorem Pursued.filled {n n' : Node} {packet : Packet} {since : List Entry} (h : Pursued n packet since)
    (hfilled : Filled n n') : Pursued n' packet since := by
  obtain ⟨⟨hqueued, hcompleted⟩, ⟨hquery, hsequence, hdeadline⟩, hqueryTx, htxDone, hresult⟩ := hfilled
  have hidle : n'.zdo.queryTx = false := by
    rw [hqueryTx, Bool.eq_false_iff]
    intro htx
    obtain hq | hc := h.held htx
    · rw [hqueued] at hq
      cases hq
    · rw [hcompleted] at hc
      cases hc
  constructor
  · rw [hidle]; exact fun hn => by cases hn
  · rw [hidle]; exact fun hn => by cases hn
  · rw [hidle]; exact fun hn => by cases hn
  · rw [hidle]; exact fun hn => by cases hn
  · rw [hquery, htxDone, hqueryTx]; exact h.due
  · rw [hquery, htxDone]; exact h.retired
  · rw [hquery, htxDone, hresult]; exact h.transmitted
  · rw [hquery, hresult, hsequence, hdeadline]; exact h.answered

/-! ## One call -/

/-- A result that is no success settles a query for good. -/
theorem Pursued.settled {n n' : Node} {packet : Packet} {since : List Entry} (h : Pursued n packet since)
    (hview : view n' = view n) {r : Result} (hr : r ≠ .ok) (hresult : n'.zdo.result = some r) : Pursued n' packet since := by
  simp only [view, View.mk.injEq] at hview
  obtain ⟨hquery, hsequence, hdeadline, hqueryTx, htxDone, hqueued, hcompleted, hsent, houtgoing, houtcome⟩ := hview
  constructor
  · rw [hqueryTx, hqueued, hcompleted]; exact h.held
  · rw [hqueryTx, hquery, htxDone]; exact h.asked
  · rw [hqueryTx, houtgoing]; exact h.own
  · rw [hqueryTx, hcompleted, houtcome, hsent]; exact h.honest
  · rw [hquery, htxDone, hqueryTx]; exact h.due
  · rw [hquery, htxDone]; exact h.retired
  · rw [hresult]; exact fun _ _ hn => by cases hn
  · rw [hresult]
    intro query _ hok
    exact absurd (Option.some.inj hok) hr

/-- The completion of the query's packet is an entry of its record. -/
theorem Pursued.completes {n n' : Node} {packet : Packet} {since : List Entry} {x : Entry} (h : Pursued n packet since)
    (hx : x ∈ since) (hretires : n.zdo.queryTx = true → n.transport.completed = true → x.Retires packet)
    (hsent : n.zdo.queryTx = true → n.transport.sent = true → x.Transmitted)
    (hqueryTx : n.zdo.queryTx = true) (hcompleted : n.transport.completed = true)
    (hview : view n' = { view n with queryTx := false, txDone := true, completed := false })
    (hresult : (n'.zdo.result = n.zdo.result ∧ (n.transport.result = .ok ∨ n.zdo.result ≠ none)) ∨
      n'.zdo.result = some .cancelled ∨ n'.zdo.result = some .transmit) : Pursued n' packet since := by
  simp only [view, View.mk.injEq] at hview
  obtain ⟨hquery, hsequence, hdeadline, hidle, hdone, -⟩ := hview
  constructor
  · rw [hidle]; exact fun hn => by cases hn
  · rw [hidle]; exact fun hn => by cases hn
  · rw [hidle]; exact fun hn => by cases hn
  · rw [hidle]; exact fun hn => by cases hn
  · rw [hdone]; exact fun _ hn => by cases hn
  · exact fun _ _ => ⟨x, hx, hretires hqueryTx hcompleted⟩
  · intro _ _ hnone
    obtain ⟨hsame, hok | hsome⟩ | hcancelled | hlost := hresult
    · exact ⟨x, hx, hsent hqueryTx (h.honest hqueryTx hcompleted hok)⟩
    · exact absurd (hsame.symm.trans hnone) hsome
    · rw [hcancelled] at hnone
      cases hnone
    · rw [hlost] at hnone
      cases hnone
  · intro query hq hok
    obtain ⟨hsame, -⟩ | hcancelled | hlost := hresult
    · rw [hsequence, hdeadline]
      exact h.answered query (hquery.symm.trans hq) (hsame.symm.trans hok)
    · rw [hcancelled] at hok
      cases hok
    · rw [hlost] at hok
      cases hok

/-- The completion of another packet. -/
theorem Pursued.idle {n n' : Node} {packet : Packet} {since : List Entry} (h : Pursued n packet since)
    (hqueryTx : n.zdo.queryTx = false) (hview : view n' = { view n with completed := false })
    (hresult : n'.zdo.result = n.zdo.result) : Pursued n' packet since := by
  simp only [view, View.mk.injEq] at hview
  obtain ⟨hquery, hsequence, hdeadline, hidle, hdone, -⟩ := hview
  rw [hqueryTx] at hidle
  constructor
  · rw [hidle]; exact fun hn => by cases hn
  · rw [hidle]; exact fun hn => by cases hn
  · rw [hidle]; exact fun hn => by cases hn
  · rw [hidle]; exact fun hn => by cases hn
  · intro hq hd
    rw [hquery] at hq
    rw [hdone] at hd
    exact absurd (h.due hq hd) (by rw [hqueryTx]; decide)
  · rw [hquery, hdone]; exact h.retired
  · rw [hquery, hdone, hresult]; exact h.transmitted
  · rw [hquery, hresult, hsequence, hdeadline]; exact h.answered

theorem advance_some {n n' : Node} {now : UInt32} (h : advance n now = some n') :
    n' = { n with zdo := { n.zdo with last := now } } := by
  unfold advance at h
  split at h
  · cases h
  · exact (Option.some.inj h).symm

/-- A step keeps the record of the query: it is entered itself, and what decides the query is in it. -/
theorem Pursued.step {n : Node} {packet : Packet} {since : List Entry} (h : Pursued n packet since)
    (table : Option (List ZdoServer.SimpleDescriptor)) (keys : Option Keys) (now : UInt32) :
    Pursued (step table n keys now).2 packet (since ++ [⟨.step keys now, n⟩]) := by
  have hx : (⟨.step keys now, n⟩ : Entry) ∈ since ++ [⟨.step keys now, n⟩] := List.mem_append_right _ (List.mem_singleton_self _)
  generalize hsince : since ++ [⟨.step keys now, n⟩] = since' at hx ⊢
  have hlonger : Pursued n packet since' := hsince ▸ h.extend _
  unfold ZdoRuntime.step
  cases hadvance : advance n now with
  | none => exact hlonger
  | some n0 =>
  simp only
  obtain rfl := advance_some hadvance
  generalize hn1 : ({ zdo := { { n.zdo with last := now } with securityEvent := none }, transport := n.transport } : Node) = n1
  have hkept : Kept n n1 := by rw [← hn1]; exact ⟨rfl, rfl⟩
  have hinbox : inbox n1 = (n.transport.receiveReady, n.transport.incoming, n.transport.event, now) := by rw [← hn1]; rfl
  have h1 : Pursued n1 packet since' := hlonger.congr hkept
  have hslot : n1.zdo.queryTx = n.zdo.queryTx ∧ n1.transport = n.transport := by rw [← hn1]; exact ⟨rfl, rfl⟩
  -- The completion.
  obtain ⟨hinbox2, hphase⟩ := confirmed_view n1
  have h2 : Pursued (confirmed n1).2 packet since' := by
    obtain ⟨hsame, -⟩ | ⟨hqueryTx, hcompleted, hview, hresult⟩ | ⟨hidle, hview, hresult⟩ := hphase
    · exact h1.congr hsame
    · refine h1.completes hx (fun hq hc => ?_) (fun hq hs => ?_) hqueryTx hcompleted hview hresult
      · rw [hslot.1] at hq
        rw [hslot.2] at hc
        exact ⟨⟨keys, now, rfl⟩, hq, hc, h.own hq⟩
      · rw [hslot.1] at hq
        rw [hslot.2] at hs
        exact ⟨hq, hs⟩
    · exact h1.idle hidle hview hresult
  -- A query that is still in flight has not been touched.
  have hflight : (confirmed n1).2.zdo.queryTx = true →
      n.zdo.queryTx = true ∧ (confirmed n1).2.transport.sent = n.transport.sent := by
    intro hq
    obtain ⟨⟨hview, -⟩, -⟩ | ⟨-, -, hview, -⟩ | ⟨hidle, hview, -⟩ := hphase
    all_goals
      simp only [view, View.mk.injEq] at hview
    · exact ⟨by rw [← hslot.1, ← hview.2.2.2.1]; exact hq, by rw [hview.2.2.2.2.2.2.2.1, hslot.2]⟩
    · rw [hview.2.2.2.1] at hq
      cases hq
    · rw [hview.2.2.2.1, hidle] at hq
      cases hq
  generalize hconfirmed : confirmed n1 = c at hinbox2 h2 hflight
  obtain ⟨_ | early, n2⟩ := c
  swap
  · exact h2
  simp only at hinbox2 h2 hflight ⊢
  unfold proceed
  -- The deadline.
  obtain ⟨hview3, hinbox3, hresult3, -⟩ := timedOut_view n2 now
  have h3 : Pursued (timedOut n2 now).2 packet since' := by
    obtain hsame | ⟨-, htimeout⟩ := hresult3
    · exact h2.congr ⟨hview3, hsame⟩
    · exact h2.settled hview3 (by decide) htimeout
  generalize htimed : timedOut n2 now = d at hview3 hinbox3 h3
  obtain ⟨_ | early, n3⟩ := d
  swap
  · exact h3
  simp only at hview3 hinbox3 h3 ⊢
  -- The received packet.
  obtain ⟨hview4, htakes⟩ := taken_takes table n3 keys
  have h4 : Pursued (taken table n3 keys).2 packet since' := by
    obtain hsame | ⟨hnone, hsent, query, known, hquery, rfl, hremote | ⟨hok, hanswer⟩⟩ := htakes
    · exact h3.congr ⟨hview4, hsame⟩
    · exact h3.settled hview4 (by decide) hremote
    · have hfields := hview4
      simp only [view, View.mk.injEq] at hfields
      obtain ⟨hq4, hsequence4, hdeadline4, hqueryTx4, htxDone4, hqueued4, hcompleted4, hsent4, houtgoing4, houtcome4⟩ := hfields
      have hinside := (hinbox3.trans hinbox2).trans hinbox
      simp only [inbox, Prod.mk.injEq] at hinside
      obtain ⟨hready, hincoming, hevent, hlast⟩ := hinside
      have hanswers : (⟨.step (some known) now, n⟩ : Entry).Answers query n3.zdo.sequence n3.zdo.deadline := by
        refine ⟨known, now, rfl, ?_⟩
        obtain ⟨harrived, hauthentic, htimely, hmatching⟩ := hanswer
        exact ⟨hready ▸ harrived, hevent ▸ hauthentic, hlast ▸ htimely, hincoming ▸ hmatching⟩
      have htransmitted : ∃ y, y ∈ since' ∧ y.Transmitted := by
        cases hdone : n3.zdo.txDone with
        | true => exact h3.transmitted (by rw [hquery]; exact fun hn => by cases hn) hdone hnone
        | false =>
          have hq3 : n3.zdo.queryTx = true := h3.due (by rw [hquery]; exact fun hn => by cases hn) hdone
          have hs3 : n3.transport.sent = true := hsent.resolve_left (by rw [hdone]; exact fun hn => by cases hn)
          simp only [view, View.mk.injEq] at hview3
          obtain ⟨hq, hs⟩ := hflight (by rw [← hview3.2.2.2.1]; exact hq3)
          exact ⟨_, hx, hq, by rw [← hs, ← hview3.2.2.2.2.2.2.2.1]; exact hs3⟩
      constructor
      · rw [hqueryTx4, hqueued4, hcompleted4]; exact h3.held
      · rw [hqueryTx4, hq4, htxDone4]; exact h3.asked
      · rw [hqueryTx4, houtgoing4]; exact h3.own
      · rw [hqueryTx4, hcompleted4, houtcome4, hsent4]; exact h3.honest
      · rw [hq4, htxDone4, hqueryTx4]; exact h3.due
      · rw [hq4, htxDone4]; exact h3.retired
      · rw [hok]; exact fun _ _ hn => by cases hn
      · intro query' hquery' _
        rw [hq4, hquery] at hquery'
        obtain rfl := Option.some.inj hquery'
        rw [hsequence4, hdeadline4]
        obtain ⟨y, hy, hysent⟩ := htransmitted
        exact ⟨since, _, [], hsince.symm, hanswers, y, hsince ▸ hy, hysent⟩
  -- The waiting response.
  obtain hsame | hfilled := answered_view (taken table n3 keys).2 now (taken table n3 keys).1
  · exact h4.congr hsame
  · exact h4.filled hfilled

theorem advance_kept {n n' : Node} {now : UInt32} (h : advance n now = some n') : Kept n n' := by
  rw [advance_some h]
  exact ⟨rfl, rfl⟩

/-- A request is refused and changes nothing of a query, or there was none and it starts one. -/
theorem request_cases (n : Node) (keys : Option Keys) (which : UInt8) (now : UInt32) :
    ((request n keys which now).1 ≠ .ok ∧ Kept n (request n keys which now).2) ∨
    ((request n keys which now).1 = .ok ∧ n.zdo.query = none ∧ ∃ query, Query.ofCode which = some query ∧
      (request n keys which now).2.zdo.query = some query ∧ (request n keys which now).2.zdo.sequence = n.zdo.nextTsn ∧
      (request n keys which now).2.zdo.deadline = now + wait ∧ (request n keys which now).2.zdo.queryTx = true ∧
      (request n keys which now).2.zdo.txDone = false ∧ (request n keys which now).2.zdo.result = none ∧
      (request n keys which now).2.transport.queued = true ∧ (request n keys which now).2.transport.completed = false) := by
  unfold request
  cases hadvance : advance n now with
  | none => exact .inl ⟨(fun hn => by cases hn), rfl, rfl⟩
  | some n0 =>
  obtain rfl := advance_some hadvance
  simp only
  cases hcode : Query.ofCode which with
  | none => exact .inl ⟨(fun hn => by cases hn), rfl, rfl⟩
  | some query =>
  simp only
  split
  · exact .inl ⟨(fun hn => by cases hn), rfl, rfl⟩
  next hopen =>
  cases keys with
  | none => exact .inl ⟨(fun hn => by cases hn), rfl, rfl⟩
  | some known =>
  simp only
  obtain ⟨hrefused, hqueued, hcompleted, hsent, houtgoing, houtcome⟩ | ⟨hok, -, -, hfilled, hempty, -, -⟩ :=
    queue_slot n.transport (queryPacket n.zdo.nextTsn known query) false now
  · rw [if_pos hrefused]
    refine .inl ⟨?_, by simp only [view, hqueued, hcompleted, hsent, houtgoing, houtcome], rfl⟩
    split <;> exact fun hn => by cases hn
  · rw [if_neg (by rw [hok]; decide)]
    have hnone : n.zdo.query = none := by
      rw [not_or] at hopen
      exact Option.not_isSome_iff_eq_none.1 hopen.1
    exact .inr ⟨rfl, hnone, query, rfl, rfl, rfl, rfl, rfl, rfl, rfl, hfilled, hempty⟩

theorem cancel_cases (n : Node) (now : UInt32) :
    view (cancel n now).2 = view n ∧
      ((cancel n now).2.zdo.result = n.zdo.result ∨ (cancel n now).2.zdo.result = some .cancelled) := by
  unfold cancel
  cases hadvance : advance n now with
  | none => exact ⟨rfl, .inl rfl⟩
  | some n0 =>
  obtain rfl := advance_some hadvance
  simp only
  generalize hr : cancelInFlight { n with zdo := { n.zdo with last := now } } now = r
  have hslot : r.2.queued = n.transport.queued ∧ r.2.completed = n.transport.completed ∧ r.2.sent = n.transport.sent ∧
      r.2.outgoing = n.transport.outgoing ∧ r.2.result = n.transport.result := by
    rw [← hr, cancelInFlight]
    split
    · obtain ⟨hqueued, hcompleted, hsent, houtgoing, houtcome, -⟩ := cancel_view n.transport now
      exact ⟨hqueued, hcompleted, hsent, houtgoing, houtcome⟩
    · exact ⟨rfl, rfl, rfl, rfl, rfl⟩
  obtain ⟨hqueued, hcompleted, hsent, houtgoing, houtcome⟩ := hslot
  split
  · exact ⟨by simp only [view, hqueued, hcompleted, hsent, houtgoing, houtcome], .inl rfl⟩
  · refine ⟨by simp only [view, hqueued, hcompleted, hsent, houtgoing, houtcome], ?_⟩
    simp only
    split
    · exact .inr rfl
    · exact .inl rfl

theorem broadcast_cases (n : Node) (keys : Option Keys) (which : UInt8) (now : UInt32) :
    Kept n (broadcast n keys which now).2 ∨ Filled n (broadcast n keys which now).2 := by
  unfold broadcast
  cases hadvance : advance n now with
  | none => exact .inl ⟨rfl, rfl⟩
  | some n0 =>
  obtain rfl := advance_some hadvance
  simp only
  split
  · exact .inl ⟨rfl, rfl⟩
  split
  · exact .inl ⟨rfl, rfl⟩
  split
  · exact .inl ⟨rfl, rfl⟩
  next p hp =>
    generalize ({ p with
      nwk := { p.nwk with discoverRoute := 0 }, aps := { p.aps with deliveryMode := ApsFrame.deliveryBroadcast } } : Packet) = sent
    obtain ⟨-, hqueued, hcompleted, hsent, houtgoing, houtcome⟩ | ⟨-, hfree, hempty, hfilled, hdone, -⟩ :=
      queue_slot n.transport sent false now
    · exact .inl ⟨by simp only [view, hqueued, hcompleted, hsent, houtgoing, houtcome], rfl⟩
    · exact .inr ⟨⟨hfree, hempty⟩, ⟨rfl, rfl, rfl⟩, rfl, rfl, rfl⟩

/-- A completion that says delivered was transmitted. -/
def Delivers (t : Transport) : Prop := t.completed = true → t.result = .ok → t.sent = true

instance (t : Transport) : Decidable (Delivers t) := inferInstanceAs (Decidable (_ → _ → _))

/-- What a call returns and leaves. Moves that the transport does not make while it holds a packet of the runtime are
left out. -/
def call (table : Option (List ZdoServer.SimpleDescriptor)) (n : Node) : Op → Option Result × Node
  | .step keys now => ((step table n keys now).1, (step table n keys now).2)
  | .request keys which now => ((request n keys which now).1, (request n keys which now).2)
  | .cancel now => ((cancel n now).1, (cancel n now).2)
  | .broadcast keys which now => ((broadcast n keys which now).1, (broadcast n keys which now).2)
  | .takeResult => (none, { n with zdo := (takeResult n.zdo).2 })
  | .takeApplication => (none, { n with zdo := (takeApplication n.zdo).2 })
  | .discardApplication => ((discardApplication n.zdo).1, { n with zdo := (discardApplication n.zdo).2 })
  | .transport t =>
    if (n.zdo.queryTx ∨ n.zdo.responseTx) ∧ ¬(SlotKept n.transport t ∧ Delivers t) then (none, n)
    else (none, { n with transport := t })

/-- A query as it was requested, with the packet that is queued for it. -/
structure Ask where
  query : Query
  sequence : UInt8
  deadline : UInt32
  packet : Packet
  deriving DecidableEq

/-- What a run reports: a request that was accepted, or a result that was taken with all that happened since its
request. -/
inductive Mark where
  | requested (ask : Ask)
  | taken (ask : Ask) (result : Result) (since : List Entry)
  | other

/-- A node with the packet of its last query and all that happened since that was requested. -/
structure Inquiry where
  node : Node
  packet : Packet
  since : List Entry

/-- The query that waits for its result. -/
def Inquiry.pending (d : Inquiry) : Option Ask :=
  d.node.zdo.query.map fun query => ⟨query, d.node.zdo.sequence, d.node.zdo.deadline, d.packet⟩

/-- Requests and results in turn, each result that of the request before it; the query that is left open. -/
def ledger : Option Ask → List Mark → Option (Option Ask)
  | opened, [] => some opened
  | opened, .other :: marks => ledger opened marks
  | none, .requested ask :: marks => ledger (some ask) marks
  | some ask, .taken ask' _ _ :: marks => if ask' = ask then ledger none marks else none
  | _, _ => none

/-- A result is taken after the transport has retired the packet of the query, and says success only when an answer to
this query came after it was transmitted. -/
def Mark.Sound : Mark → Prop
  | .taken ask result since =>
    (∃ x, x ∈ since ∧ x.Retires ask.packet) ∧ (result = .ok → Answered ask.query ask.sequence ask.deadline since)
  | _ => True

theorem Kept.query {n n' : Node} (h : Kept n n') :
    n'.zdo.query = n.zdo.query ∧ n'.zdo.sequence = n.zdo.sequence ∧ n'.zdo.deadline = n.zdo.deadline := by
  have hview := h.1
  simp only [view, View.mk.injEq] at hview
  exact ⟨hview.1, hview.2.1, hview.2.2.1⟩

theorem step_query (table : Option (List ZdoServer.SimpleDescriptor)) (n : Node) (keys : Option Keys) (now : UInt32) :
    (step table n keys now).2.zdo.query = n.zdo.query ∧ (step table n keys now).2.zdo.sequence = n.zdo.sequence ∧
      (step table n keys now).2.zdo.deadline = n.zdo.deadline := by
  unfold step
  cases hadvance : advance n now with
  | none => exact ⟨rfl, rfl, rfl⟩
  | some n0 =>
  obtain rfl := advance_some hadvance
  simp only
  generalize hn1 : ({ zdo := { { n.zdo with last := now } with securityEvent := none }, transport := n.transport } : Node) = n1
  have h0 : n1.zdo.query = n.zdo.query ∧ n1.zdo.sequence = n.zdo.sequence ∧ n1.zdo.deadline = n.zdo.deadline := by
    rw [← hn1]
    exact ⟨rfl, rfl, rfl⟩
  have h1 : (confirmed n1).2.zdo.query = n.zdo.query ∧ (confirmed n1).2.zdo.sequence = n.zdo.sequence ∧
      (confirmed n1).2.zdo.deadline = n.zdo.deadline := by
    rw [← h0.1, ← h0.2.1, ← h0.2.2]
    obtain ⟨-, ⟨hsame, -⟩ | ⟨-, -, hview, -⟩ | ⟨-, hview, -⟩⟩ := confirmed_view n1
    · exact hsame.query
    · simp only [view, View.mk.injEq] at hview
      exact ⟨hview.1, hview.2.1, hview.2.2.1⟩
    · simp only [view, View.mk.injEq] at hview
      exact ⟨hview.1, hview.2.1, hview.2.2.1⟩
  generalize confirmed n1 = c at h1
  obtain ⟨_ | early, n2⟩ := c
  swap
  · exact h1
  simp only at h1 ⊢
  unfold proceed
  obtain ⟨hview3, -⟩ := timedOut_view n2 now
  generalize timedOut n2 now = d at hview3
  simp only [view, View.mk.injEq] at hview3
  have h3 := And.intro (hview3.1.trans h1.1) (And.intro (hview3.2.1.trans h1.2.1) (hview3.2.2.1.trans h1.2.2))
  obtain ⟨_ | early, n3⟩ := d
  swap
  · exact h3
  simp only at h3 ⊢
  obtain ⟨hview4, -⟩ := taken_takes table n3 keys
  simp only [view, View.mk.injEq] at hview4
  have h4 := And.intro (hview4.1.trans h3.1) (And.intro (hview4.2.1.trans h3.2.1) (hview4.2.2.1.trans h3.2.2))
  obtain hsame | hfilled := answered_view (taken table n3 keys).2 now (taken table n3 keys).1
  · obtain ⟨hq, hs, hd⟩ := hsame.query
    exact ⟨hq.trans h4.1, hs.trans h4.2.1, hd.trans h4.2.2⟩
  · obtain ⟨hq, hs, hd⟩ := hfilled.query
    exact ⟨hq.trans h4.1, hs.trans h4.2.1, hd.trans h4.2.2⟩

/-- Calls other than a request and a taken result keep the record and the open query. -/
theorem Pursued.called {n : Node} {packet : Packet} {since : List Entry} (h : Pursued n packet since)
    (table : Option (List ZdoServer.SimpleDescriptor)) {op : Op} (hrequest : ∀ keys which now, op ≠ .request keys which now)
    (htake : op ≠ .takeResult) :
    Pursued (call table n op).2 packet (since ++ [⟨op, n⟩]) ∧ (call table n op).2.zdo.query = n.zdo.query ∧
      (call table n op).2.zdo.sequence = n.zdo.sequence ∧ (call table n op).2.zdo.deadline = n.zdo.deadline := by
  have hlonger := h.extend ⟨op, n⟩
  cases op with
  | request keys which now => exact absurd rfl (hrequest keys which now)
  | takeResult => exact absurd rfl htake
  | step keys now => exact ⟨h.step table keys now, step_query table n keys now⟩
  | cancel now =>
    obtain ⟨hview, hresult⟩ := cancel_cases n now
    have hfields := hview
    simp only [view, View.mk.injEq] at hfields
    refine ⟨?_, hfields.1, hfields.2.1, hfields.2.2.1⟩
    obtain hsame | hcancelled := hresult
    · exact hlonger.congr ⟨hview, hsame⟩
    · exact hlonger.settled hview (by decide) hcancelled
  | broadcast keys which now =>
    obtain hsame | hfilled := broadcast_cases n keys which now
    · exact ⟨hlonger.congr hsame, hsame.query⟩
    · exact ⟨hlonger.filled hfilled, hfilled.query⟩
  | takeApplication =>
    have hsame : Kept n (call table n .takeApplication).2 := by
      simp only [ZdoRuntime.call, takeApplication]
      split <;> exact ⟨rfl, rfl⟩
    exact ⟨hlonger.congr hsame, hsame.query⟩
  | discardApplication =>
    have hsame : Kept n (call table n .discardApplication).2 := by
      simp only [ZdoRuntime.call, discardApplication]
      split <;> exact ⟨rfl, rfl⟩
    exact ⟨hlonger.congr hsame, hsame.query⟩
  | transport t =>
    simp only [ZdoRuntime.call]
    split
    · exact ⟨hlonger, rfl, rfl, rfl⟩
    next hmoves =>
    rw [not_and, not_not] at hmoves
    refine ⟨⟨fun hq => ?_, h.asked, fun hq => ?_, fun hq => (hmoves (.inl hq)).2, h.due, hlonger.retired,
      hlonger.transmitted, hlonger.answered⟩, rfl, rfl, rfl⟩
    · obtain ⟨⟨hqueued, hcompleted, -⟩, -⟩ := hmoves (.inl hq)
      obtain hq' | hc' := h.held hq
      · exact hqueued hq'
      · exact .inr (hcompleted hc')
    · obtain ⟨⟨-, -, hcluster, hpayload⟩, -⟩ := hmoves (.inl hq)
      obtain ⟨hc, hp⟩ := h.own hq
      exact ⟨hcluster.trans hc, hpayload.trans hp⟩

/-- A runtime that was just initialised, over any transport. -/
def opened (descriptor : ZdoNode.Descriptor) (now : UInt32) (t : Transport) : Inquiry :=
  ⟨⟨fresh descriptor now, t⟩, NwkAps.Packet.zero, []⟩

/-- The timeout response of the parent, which answers any timeout request. -/
def timeoutResponse : Packet :=
  { withPayload (base 0x4567 0) [0x0C, 0, 3] with
    nwk := { (base 0x4567 0).nwk with
      type := EdWire.nwkCommand, radius := 1, flags := NwkFrame.sourceIeeeFlag ||| NwkFrame.destinationIeeeFlag
      sourceIeee := sampleKeys.config.tcIeee, destinationIeee := sampleKeys.config.ownIeee } }

/-- The transport has delivered the parent query with this packet. -/
def delivery (sent : Packet) (received : Bool) : Op :=
  .transport { sampleTransport with
    outgoing := sent, completed := true, sent := true, incoming := timeoutResponse, receiveReady := received }

end ZdoRuntime
