import Cc2530Zigbee.Runs
import Cc2530Zigbee.ZdoRuntime

/-!
# Answered before leaving

The runtime has one `leave` flag for a response being built, a response that
waits and a response in flight. Over any run in which no leave request is
answered while the flag already belongs to a response in flight, the flag is
paired with exactly one granted Mgmt_Leave response, and a step returns `leave`
exactly when that response is retired.
-/
namespace ZdoRuntime

open Octets
open EdWire (Packet at1)
open NwkAps (Transport)

/-- A Mgmt_Leave response with status 0. -/
def isLeaveResponse (p : Packet) : Bool := p.aps.clusterId == mgmtLeaveResponse && getElem p.payload 1 at1 == 0

/-- A retired server response. It was withdrawn when the runtime was cancelled
while it was in flight. -/
structure Retired where
  packet : Packet
  withdrawn : Bool
  deriving DecidableEq

def Retired.granted (r : Retired) : Bool := isLeaveResponse r.packet && !r.withdrawn

/-- The node, and whether the response in flight was withdrawn. -/
structure Watch where
  node : Node
  withdrawn : Bool
  deriving DecidableEq

/-- What the transport and its other users keep of a packet that the runtime
has queued and not confirmed: it stays queued until it is completed, and its
cluster and payload are not touched. -/
def SlotKept (t t' : Transport) : Prop :=
  (t.queued → t'.queued ∨ t'.completed) ∧ (t.completed → t'.completed) ∧
    t'.outgoing.aps.clusterId = t.outgoing.aps.clusterId ∧ t'.outgoing.payload = t.outgoing.payload

instance (t t' : Transport) : Decidable (SlotKept t t') := inferInstanceAs (Decidable (_ ∧ _ ∧ _ ∧ _))

/-- The calls of the runtime, and any move of the transport: received packets,
completions and the packets of other users. -/
inductive Op where
  | step (keys : Option Keys) (now : UInt32)
  | request (keys : Option Keys) (which : UInt8) (now : UInt32)
  | cancel (now : UInt32)
  | broadcast (keys : Option Keys) (which : UInt8) (now : UInt32)
  | takeResult
  | takeApplication
  | discardApplication
  | transport (t : Transport)

/-- The result of a call, and the server responses it retired. -/
structure Report where
  result : Option Result
  retired : List Retired
  deriving DecidableEq

/-- A step confirms a response the transport has completed. -/
def confirmsResponse (n : Node) (now : UInt32) : Bool :=
  !decide (MacTx.half ≤ now - n.zdo.last) && !n.zdo.queryTx && n.zdo.responseTx && n.transport.completed

/-- The transport has no counter for the waiting response. -/
def drops (n : Node) (now : UInt32) : Bool :=
  n.zdo.responsePending && !n.transport.queued && !n.transport.completed &&
    decide ((NwkAps.queue n.transport n.zdo.response false now).1 = .exhausted)

/-- The response that a step drops as exhausted after the completion was dealt with. -/
def dropped (table : Option (List ZdoServer.SimpleDescriptor)) (n : Node) (keys : Option Keys) (now : UInt32) :
    List Retired :=
  match timedOut n now with
  | (some _, _) => []
  | (none, n) =>
    let n := (taken table n keys).2
    if drops n now then [⟨n.zdo.response, false⟩] else []

/-- The responses a step retires: the confirmed one, and the one dropped as exhausted. -/
def retires (table : Option (List ZdoServer.SimpleDescriptor)) (w : Watch) (keys : Option Keys) (now : UInt32) :
    List Retired :=
  match advance w.node now with
  | none => []
  | some n =>
    (if confirmsResponse w.node now then [⟨w.node.transport.outgoing, w.withdrawn⟩] else []) ++
      match confirmed { n with zdo := { n.zdo with securityEvent := none } } with
      | (some _, _) => []
      | (none, n) => dropped table n keys now

def perform (table : Option (List ZdoServer.SimpleDescriptor)) (w : Watch) : Op → Report × Watch
  | .step keys now =>
    let r := step table w.node keys now
    (⟨some r.1, retires table w keys now⟩, ⟨r.2, w.withdrawn && !confirmsResponse w.node now⟩)
  | .request keys which now =>
    let r := request w.node keys which now
    (⟨some r.1, []⟩, ⟨r.2, w.withdrawn⟩)
  | .cancel now =>
    let r := cancel w.node now
    (⟨some r.1, []⟩, ⟨r.2, w.withdrawn || (decide (r.1 = .ok) && w.node.zdo.responseTx)⟩)
  | .broadcast keys which now =>
    let r := broadcast w.node keys which now
    (⟨some r.1, []⟩, ⟨r.2, w.withdrawn⟩)
  | .takeResult => (⟨none, []⟩, ⟨{ w.node with zdo := (takeResult w.node.zdo).2 }, w.withdrawn⟩)
  | .takeApplication => (⟨none, []⟩, ⟨{ w.node with zdo := (takeApplication w.node.zdo).2 }, w.withdrawn⟩)
  | .discardApplication =>
    let r := discardApplication w.node.zdo
    (⟨some r.1, []⟩, ⟨{ w.node with zdo := r.2 }, w.withdrawn⟩)
  | .transport t =>
    if (w.node.zdo.queryTx ∨ w.node.zdo.responseTx) ∧ ¬ SlotKept w.node.transport t then (⟨none, []⟩, w)
    else (⟨none, []⟩, ⟨{ w.node with transport := t }, w.withdrawn⟩)

/-- The number of leaves a result is: one or none. -/
def leaves (r : Result) : Nat := if r = .leave then 1 else 0

/-- As many leaves as granted leave responses that were retired. -/
def Report.Paired (r : Report) : Prop := r.retired.countP Retired.granted = (r.result.map leaves).getD 0

instance (r : Report) : Decidable r.Paired := inferInstanceAs (Decidable (_ = _))

/-- The received packet is a Mgmt_Leave request that the runtime will answer. -/
def answersLeave (n : Node) : Bool :=
  let p := n.transport.incoming
  n.transport.receiveReady && !n.zdo.applicationReady && !n.zdo.responsePending &&
    (n.transport.event == .data || n.transport.event == .management) && p.nwk.type == 0 &&
    p.aps.destinationEndpoint == 0 && p.aps.profileId == 0 && p.aps.type == 0 &&
    p.aps.clusterId == ZdoServer.mgmtLeaveRequest && !broadcastPacket p && 10 ≤ p.length

/-- A leave request that is answered while a server response is in flight leaves
the flag clear: it is clear before, and the request is for another device. -/
def Orderly (w : Watch) : Op → Prop
  | .step (some keys) now =>
    ¬ MacTx.half ≤ now - w.node.zdo.last → answersLeave w.node → w.node.zdo.responseTx → ¬ w.node.transport.completed →
      ¬ w.node.zdo.leave ∧ ¬ removesSelf keys w.node.transport.incoming
  | _ => True

instance (w : Watch) (op : Op) : Decidable (Orderly w op) :=
  match op with
  | .step (some _) _ => inferInstanceAs (Decidable (_ → _ → _ → _ → _ ∧ _))
  | .step none _ | .request _ _ _ | .cancel _ | .broadcast _ _ _ | .takeResult | .takeApplication
  | .discardApplication | .transport _ => isTrue trivial

/-! ## The pairing of the flag -/

/-- The flag is set exactly for a granted leave response that waits or that is
in flight and not withdrawn. -/
structure FlagPaired (n : Node) (withdrawn : Bool) : Prop where
  one : n.zdo.queryTx = true → n.zdo.responseTx = false
  held : n.zdo.queryTx = true ∨ n.zdo.responseTx = true → n.transport.queued = true ∨ n.transport.completed = true
  live : withdrawn = true → n.zdo.responseTx = true
  apart : n.zdo.responseTx = true → n.zdo.responsePending = true → isLeaveResponse n.zdo.response = false
  flag : n.zdo.leave = ((n.zdo.responsePending && isLeaveResponse n.zdo.response) ||
    (n.zdo.responseTx && isLeaveResponse n.transport.outgoing && !withdrawn))

theorem isLeaveResponse_counter (p : Packet) (counter : UInt8) :
    isLeaveResponse { p with aps := { p.aps with counter := counter } } = isLeaveResponse p := rfl

theorem isLeaveResponse_congr {p q : Packet} (hc : q.aps.clusterId = p.aps.clusterId) (hp : q.payload = p.payload) :
    isLeaveResponse q = isLeaveResponse p := by
  simp only [isLeaveResponse, hc, hp]

theorem isLeaveResponse_other {p : Packet} (h : p.aps.clusterId ≠ mgmtLeaveResponse) : isLeaveResponse p = false := by
  simp [isLeaveResponse, h]

/-- Only the Mgmt_Leave request has the Mgmt_Leave response. -/
theorem response_cluster {c : UInt16} (hrequest : c &&& 0x8000 = 0) (hc : c ≠ ZdoServer.mgmtLeaveRequest) :
    c ||| 0x8000 ≠ mgmtLeaveResponse := by
  intro h
  apply hc
  have hbits : c.toBitVec &&& 0x8000#16 = 0 := congrArg UInt16.toBitVec hrequest
  have hor : c.toBitVec ||| 0x8000#16 = 0x8034#16 := congrArg UInt16.toBitVec h
  rw [← BitVec.add_eq_or_of_and_eq_zero _ _ hbits] at hor
  apply UInt16.toBitVec_inj.mp
  have : c.toBitVec = 0x34#16 := by bv_omega
  exact this

/-! ## What taking in a packet can do -/

/-- The slots of the transport and their owners stay, and no leave is returned. -/
structure Frame (n : Node) (r : Result × Node) : Prop where
  result : r.1 ≠ .leave
  queryTx : r.2.zdo.queryTx = n.zdo.queryTx
  responseTx : r.2.zdo.responseTx = n.zdo.responseTx
  queued : r.2.transport.queued = n.transport.queued
  completed : r.2.transport.completed = n.transport.completed
  outgoing : r.2.transport.outgoing = n.transport.outgoing

/-- The waiting response and the flag stay. -/
def Quiet (n n' : Node) : Prop :=
  n'.zdo.responsePending = n.zdo.responsePending ∧ n'.zdo.leave = n.zdo.leave ∧
    (n.zdo.responsePending = true → n'.zdo.response = n.zdo.response)

/-- A response that is no leave response now waits. -/
def Serves (n n' : Node) : Prop :=
  n.zdo.responsePending = false ∧ n'.zdo.responsePending = true ∧ n'.zdo.leave = n.zdo.leave ∧
    isLeaveResponse n'.zdo.response = false

/-- The answer to a leave request now waits. -/
def Grants (keys : Keys) (p : Packet) (n n' : Node) : Prop :=
  n.zdo.responsePending = false ∧ n'.zdo.responsePending = true ∧ n'.zdo.leave = removesSelf keys p ∧
    isLeaveResponse n'.zdo.response = removesSelf keys p

theorem parentResponse_frame (n : Node) (keys : Keys) :
    Frame n (parentResponse n keys) ∧ Quiet n (parentResponse n keys).2 := by
  unfold parentResponse
  extract_lets p
  split
  · exact ⟨⟨by simp, rfl, rfl, rfl, rfl, rfl⟩, rfl, rfl, fun _ => rfl⟩
  split
  · exact ⟨⟨by simp, rfl, rfl, rfl, rfl, rfl⟩, rfl, rfl, fun _ => rfl⟩
  split
  · exact ⟨⟨by simp, rfl, rfl, rfl, rfl, rfl⟩, rfl, rfl, fun _ => rfl⟩
  · exact ⟨⟨by simp, rfl, rfl, rfl, rfl, rfl⟩, rfl, rfl, fun _ => rfl⟩

theorem zdoResponse_frame (n : Node) (keys : Keys) :
    Frame n (zdoResponse n keys) ∧ Quiet n (zdoResponse n keys).2 := by
  unfold zdoResponse
  extract_lets p
  split
  · exact ⟨⟨by simp, rfl, rfl, rfl, rfl, rfl⟩, rfl, rfl, fun _ => rfl⟩
  split
  · split
    · exact ⟨⟨by simp, rfl, rfl, rfl, rfl, rfl⟩, rfl, rfl, fun _ => rfl⟩
    split
    · exact ⟨⟨by simp, rfl, rfl, rfl, rfl, rfl⟩, rfl, rfl, fun _ => rfl⟩
    split
    · exact ⟨⟨by simp, rfl, rfl, rfl, rfl, rfl⟩, rfl, rfl, fun _ => rfl⟩
    · exact ⟨⟨by simp, rfl, rfl, rfl, rfl, rfl⟩, rfl, rfl, fun _ => rfl⟩
  split
  · exact ⟨⟨by simp, rfl, rfl, rfl, rfl, rfl⟩, rfl, rfl, fun _ => rfl⟩
  split
  · exact ⟨⟨by simp, rfl, rfl, rfl, rfl, rfl⟩, rfl, rfl, fun _ => rfl⟩
  · exact ⟨⟨by simp, rfl, rfl, rfl, rfl, rfl⟩, rfl, rfl, fun _ => rfl⟩

theorem announce_frame (n : Node) (keys : Keys) (p : Packet) :
    Frame n (announce n keys p) ∧ Quiet n (announce n keys p).2 := by
  unfold announce
  split
  · exact ⟨⟨by simp, rfl, rfl, rfl, rfl, rfl⟩, rfl, rfl, fun _ => rfl⟩
  extract_lets address ieee s own conflict z
  split
  · exact ⟨⟨by simp, rfl, rfl, rfl, rfl, rfl⟩, rfl, rfl, fun _ => rfl⟩
  split
  · exact ⟨⟨by simp, rfl, rfl, rfl, rfl, rfl⟩, rfl, rfl, fun _ => rfl⟩
  split
  · exact ⟨⟨by simp, rfl, rfl, rfl, rfl, rfl⟩, rfl, rfl, fun _ => rfl⟩
  split
  · exact ⟨⟨by simp, rfl, rfl, rfl, rfl, rfl⟩, rfl, rfl, fun _ => rfl⟩
  · exact ⟨⟨by simp, rfl, rfl, rfl, rfl, rfl⟩, rfl, rfl, fun _ => rfl⟩

/-- An address request is refused, or its response waits. -/
theorem addressRequest_cases (z : Zdo) (keys : Keys) (p : Packet) (hc : p.aps.clusterId < 2) :
    ((addressRequest z keys p).1 ≠ .leave ∧ (addressRequest z keys p).2 = z) ∨
    ((addressRequest z keys p).1 = .ok ∧ ∃ response, isLeaveResponse response = false ∧
      (addressRequest z keys p).2 = { z with response := response, responsePending := true }) := by
  unfold addressRequest
  extract_lets ieeeRequest octets address known type status ieee address' r tail
  generalize (if ieeeRequest then 5 else 11) = shortest
  split
  · exact .inl ⟨by simp, rfl⟩
  split
  · exact .inl ⟨by simp, rfl⟩
  · refine .inr ⟨rfl, _, ?_, rfl⟩
    apply isLeaveResponse_other
    have hcases : p.aps.clusterId = 0 ∨ p.aps.clusterId = 1 := by
      rw [UInt16.lt_iff_toNat_lt] at hc
      rw [← UInt16.toNat_inj, ← UInt16.toNat_inj]
      have h2 : (2 : UInt16).toNat = 2 := rfl
      have h1 : (1 : UInt16).toNat = 1 := rfl
      have h0 : (0 : UInt16).toNat = 0 := rfl
      omega
    change p.aps.clusterId ||| 0x8000 ≠ mgmtLeaveResponse
    rcases hcases with h | h <;> rw [h] <;> decide

/-- The answer to a leave request has status 0 exactly for this device. -/
theorem mgmtLeave_cases (z : Zdo) (keys : Keys) (p : Packet) :
    ((mgmtLeave z keys p).1 ≠ .leave ∧ (mgmtLeave z keys p).2 = z) ∨
    ((mgmtLeave z keys p).1 = .ok ∧ broadcastPacket p = false ∧ 10 ≤ p.length ∧
      ∃ response, isLeaveResponse response = removesSelf keys p ∧
        (mgmtLeave z keys p).2 =
          { z with response := response, leave := removesSelf keys p, responsePending := true }) := by
  unfold mgmtLeave
  extract_lets self r
  split
  · exact .inl ⟨by simp, rfl⟩
  rename_i hb
  split
  · exact .inl ⟨by simp, rfl⟩
  rename_i hlength
  refine .inr ⟨rfl, by simpa using hb, UInt8.not_lt.mp hlength, _, ?_, rfl⟩
  cases hself : removesSelf keys p with
  | false => simp [isLeaveResponse, withPayload, payload, self, hself, byteAt, unknownDevice]
  | true =>
    rw [isLeaveResponse, Bool.and_eq_true]
    exact ⟨beq_self_eq_true mgmtLeaveResponse, by simp [withPayload, payload, self, hself, byteAt]⟩

/-- The server answers other requests than leave requests. -/
theorem serve_cases (table : Option (List ZdoServer.SimpleDescriptor)) (n : Node) (keys : Keys) (p : Packet)
    (hpending : n.zdo.responsePending = false) (hrequest : p.aps.clusterId &&& 0x8000 = 0)
    (hc : p.aps.clusterId ≠ ZdoServer.mgmtLeaveRequest) :
    Frame n (serve table n keys p) ∧ (Quiet n (serve table n keys p).2 ∨ Serves n (serve table n keys p).2) := by
  have hquiet (response : Packet) : Quiet n { n with zdo := { n.zdo with response := response } } :=
    ⟨rfl, rfl, by simp [hpending]⟩
  unfold serve
  extract_lets l r n'
  split
  · exact ⟨⟨by simp, rfl, rfl, rfl, rfl, rfl⟩, .inl (hquiet r)⟩
  rename_i info hinfo
  split
  · exact ⟨⟨by simp, rfl, rfl, rfl, rfl, rfl⟩, .inl (hquiet r)⟩
  rename_i hkind
  refine ⟨⟨by simp, rfl, rfl, rfl, rfl, rfl⟩, .inr ⟨hpending, rfl, rfl, ?_⟩⟩
  apply isLeaveResponse_other
  have hreply := ZdoServer.handle_reply hinfo (by simpa using hkind)
  change info.clusterId ≠ mgmtLeaveResponse
  rw [hreply]
  exact response_cluster hrequest hc

theorem dispatch_cases (table : Option (List ZdoServer.SimpleDescriptor)) (n : Node) (keys : Keys) (p : Packet) :
    Frame n (dispatch table n keys p) ∧
    (Quiet n (dispatch table n keys p).2 ∨ Serves n (dispatch table n keys p).2 ∨
      (p.aps.type = 0 ∧ p.aps.clusterId = ZdoServer.mgmtLeaveRequest ∧ broadcastPacket p = false ∧
        10 ≤ p.length ∧ Grants keys p n (dispatch table n keys p).2)) := by
  have hself : Quiet n n := ⟨rfl, rfl, fun _ => rfl⟩
  unfold dispatch
  extract_lets cluster a l
  split
  · exact ⟨⟨by simp, rfl, rfl, rfl, rfl, rfl⟩, .inl hself⟩
  rename_i hformat
  rw [not_or, not_not] at hformat
  split
  · exact ⟨⟨by simp, rfl, rfl, rfl, rfl, rfl⟩, .inl hself⟩
  split
  · obtain ⟨hframe, hquiet⟩ := zdoResponse_frame n keys
    exact ⟨hframe, .inl hquiet⟩
  rename_i hrequest
  rw [not_not] at hrequest
  split
  · obtain ⟨hframe, hquiet⟩ := announce_frame n keys p
    exact ⟨hframe, .inl hquiet⟩
  split
  · exact ⟨⟨by simp, rfl, rfl, rfl, rfl, rfl⟩, .inl hself⟩
  rename_i hpending
  rw [Bool.not_eq_true] at hpending
  split
  · rename_i haddress
    rcases addressRequest_cases n.zdo keys p haddress with ⟨hne, heq⟩ | ⟨hok, response, hr, heq⟩
    · exact ⟨⟨hne, by rw [heq], by rw [heq], rfl, rfl, rfl⟩, .inl (by rw [heq]; exact hself)⟩
    · refine ⟨⟨by rw [hok]; simp, by rw [heq], by rw [heq], rfl, rfl, rfl⟩, .inr (.inl ?_)⟩
      rw [heq]
      exact ⟨hpending, rfl, rfl, hr⟩
  split
  · rename_i hleave
    rcases mgmtLeave_cases n.zdo keys p with ⟨hne, heq⟩ | ⟨hok, hunicast, hlength, response, hr, heq⟩
    · exact ⟨⟨hne, by rw [heq], by rw [heq], rfl, rfl, rfl⟩, .inl (by rw [heq]; exact hself)⟩
    · refine ⟨⟨by rw [hok]; simp, by rw [heq], by rw [heq], rfl, rfl, rfl⟩, .inr (.inr ?_)⟩
      refine ⟨hformat.1, hleave, hunicast, hlength, ?_⟩
      rw [heq]
      exact ⟨hpending, rfl, rfl, hr⟩
  · rename_i hleave
    obtain ⟨hframe, hquiet | hserves⟩ := serve_cases table n keys p hpending hrequest hleave
    · exact ⟨hframe, .inl hquiet⟩
    · exact ⟨hframe, .inr (.inl hserves)⟩

theorem received_cases (table : Option (List ZdoServer.SimpleDescriptor)) (n : Node) (keys : Option Keys)
    (hready : n.transport.receiveReady = true) (hfree : n.zdo.applicationReady = false) :
    Frame n (received table n keys) ∧
    (Quiet n (received table n keys).2 ∨ Serves n (received table n keys).2 ∨
      ∃ known, keys = some known ∧ answersLeave n = true ∧
        Grants known n.transport.incoming n (received table n keys).2) := by
  have hself : Quiet n n := ⟨rfl, rfl, fun _ => rfl⟩
  unfold received
  simp only [NwkAps.take, hready, if_true]
  cases keys with
  | none => exact ⟨⟨by simp, rfl, rfl, rfl, rfl, rfl⟩, .inl hself⟩
  | some known =>
    simp only
    split
    · exact ⟨⟨by simp, rfl, rfl, rfl, rfl, rfl⟩, .inl hself⟩
    rename_i hevent
    split
    · obtain ⟨hframe, hquiet⟩ := parentResponse_frame _ known
      exact ⟨⟨hframe.1, hframe.2, hframe.3, hframe.4, hframe.5, hframe.6⟩, .inl hquiet⟩
    rename_i htype
    split
    · exact ⟨⟨by simp, rfl, rfl, rfl, rfl, rfl⟩, .inl hself⟩
    rename_i hzdo
    obtain ⟨hframe, hcases⟩ := dispatch_cases table _ known n.transport.incoming
    refine ⟨⟨hframe.1, hframe.2, hframe.3, hframe.4, hframe.5, hframe.6⟩, ?_⟩
    rcases hcases with hquiet | hserves | ⟨haps, hcluster, hunicast, hlength, hgrants⟩
    · exact .inl hquiet
    · exact .inr (.inl hserves)
    · refine .inr (.inr ⟨known, rfl, ?_, hgrants⟩)
      have hpending : n.zdo.responsePending = false := hgrants.1
      rw [not_and_or, not_not, not_not] at hevent
      rw [not_or, not_not, not_not] at hzdo
      rw [not_not] at htype
      simp [answersLeave, hready, hfree, hpending, hevent, htype, hzdo, haps, hcluster, hunicast, hlength]

/-- Taking in a packet leaves the waiting response alone, or builds one; it sets the
flag only for a leave request that is answered. -/
theorem taken_cases (table : Option (List ZdoServer.SimpleDescriptor)) (n : Node) (keys : Option Keys) :
    Frame n (taken table n keys) ∧
    (Quiet n (taken table n keys).2 ∨ Serves n (taken table n keys).2 ∨
      ∃ known, keys = some known ∧ answersLeave n = true ∧
        Grants known n.transport.incoming n (taken table n keys).2) := by
  unfold taken
  by_cases hready : n.transport.receiveReady ∧ !n.zdo.applicationReady
  · rw [if_pos hready]
    simp only
    obtain ⟨hframe, hcases⟩ := received_cases table n keys hready.1 (by simpa using hready.2)
    split
    · exact ⟨hframe, hcases⟩
    · exact ⟨⟨hframe.1, hframe.2, hframe.3, hframe.4, hframe.5, hframe.6⟩, hcases⟩
  · rw [if_neg hready]
    exact ⟨⟨by simp, rfl, rfl, rfl, rfl, rfl⟩, .inl ⟨rfl, rfl, fun _ => rfl⟩⟩

/-! ## One step -/

/-- Taking in a packet keeps the pairing when the flag is not taken from a response
in flight. -/
theorem FlagPaired.taken {table : Option (List ZdoServer.SimpleDescriptor)} {n : Node} {withdrawn : Bool}
    (h : FlagPaired n withdrawn) (keys : Option Keys)
    (horderly : ∀ known, keys = some known → answersLeave n = true → n.zdo.responseTx = true →
      n.zdo.leave = false ∧ removesSelf known n.transport.incoming = false) :
    FlagPaired (taken table n keys).2 withdrawn := by
  obtain ⟨hframe, hcases⟩ := taken_cases table n keys
  have hone : (ZdoRuntime.taken table n keys).2.zdo.queryTx = true →
      (ZdoRuntime.taken table n keys).2.zdo.responseTx = false := by
    rw [hframe.queryTx, hframe.responseTx]
    exact h.one
  have hheld : (ZdoRuntime.taken table n keys).2.zdo.queryTx = true ∨
      (ZdoRuntime.taken table n keys).2.zdo.responseTx = true →
      (ZdoRuntime.taken table n keys).2.transport.queued = true ∨
        (ZdoRuntime.taken table n keys).2.transport.completed = true := by
    rw [hframe.queryTx, hframe.responseTx, hframe.queued, hframe.completed]
    exact h.held
  have hlive : withdrawn = true → (ZdoRuntime.taken table n keys).2.zdo.responseTx = true := by
    rw [hframe.responseTx]
    exact h.live
  refine ⟨hone, hheld, hlive, ?_, ?_⟩ <;> rw [hframe.responseTx]
  · intro htx hpending
    rcases hcases with ⟨hp, -, hr⟩ | ⟨-, -, -, hr⟩ | ⟨known, hkeys, hanswers, -, -, -, hr⟩
    · rw [hp] at hpending
      rw [hr hpending]
      exact h.apart htx hpending
    · exact hr
    · rw [hr]
      exact (horderly known hkeys hanswers htx).2
  · rw [hframe.outgoing]
    have hflag := h.flag
    rcases hcases with ⟨hp, hl, hr⟩ | ⟨hp0, hp, hl, hr⟩ | ⟨known, hkeys, hanswers, hp0, hp, hl, hr⟩
    · rw [hp, hl, hflag]
      cases hpending : n.zdo.responsePending with
      | false => rfl
      | true => rw [hr hpending]
    · rw [hp, hl, hr, hflag, hp0]
      simp
    · rw [hp, hl, hr, Bool.true_and]
      cases htx : n.zdo.responseTx with
      | false => simp
      | true =>
        -- The flag was clear, so the response in flight is not a granted one.
        obtain ⟨hclear, hother⟩ := horderly known hkeys hanswers htx
        rw [hclear, hp0, htx, Bool.false_and, Bool.false_or, Bool.true_and] at hflag
        rw [hother, Bool.true_and, ← hflag]
        rfl

/-- The confirmation of a response: the flag says whether it was a granted leave. -/
theorem FlagPaired.confirm {n : Node} {withdrawn : Bool} (h : FlagPaired n withdrawn)
    (htx : n.zdo.responseTx = true) (hcompleted : n.transport.completed = true) :
    FlagPaired (confirmed n).2 false ∧ (confirmed n).2.zdo.responseTx = false ∧
      (confirmed n).1 = if Retired.granted ⟨n.transport.outgoing, withdrawn⟩ then some .leave
        else if n.transport.result ≠ .ok then some .dropped else none := by
  have hquery : n.zdo.queryTx = false := by
    cases hq : n.zdo.queryTx with
    | false => rfl
    | true => simp [h.one hq] at htx
  have hflag : n.zdo.leave = Retired.granted ⟨n.transport.outgoing, withdrawn⟩ := by
    have hflag := h.flag
    cases hpending : n.zdo.responsePending with
    | false => simpa [hpending, htx, Retired.granted] using hflag
    | true => simpa [hpending, htx, h.apart htx hpending, Retired.granted] using hflag
  -- What still waits is no leave response, so the flag is clear afterwards.
  have hwaits : (n.zdo.responsePending && isLeaveResponse n.zdo.response) = false := by
    cases hpending : n.zdo.responsePending with
    | false => rfl
    | true => simp [h.apart htx hpending]
  unfold confirmed
  rw [if_pos ⟨.inr htx, hcompleted⟩]
  simp only [hquery, Bool.false_eq_true, if_false]
  rw [hflag]
  split
  · exact ⟨⟨by simp, by simp, by simp, by simp, by simp [hwaits]⟩, rfl, rfl⟩
  · rename_i hgranted
    rw [Bool.not_eq_true] at hgranted
    split <;> exact ⟨⟨by simp, by simp, by simp, by simp, by simp [hwaits, hgranted]⟩, rfl, rfl⟩

/-- Without a response to confirm, the flag and the waiting response stay. -/
theorem FlagPaired.unconfirmed {n : Node} {withdrawn : Bool} (h : FlagPaired n withdrawn)
    (hnone : ¬ (n.zdo.responseTx = true ∧ n.transport.completed = true)) :
    FlagPaired (confirmed n).2 withdrawn ∧ (confirmed n).1 = none ∧
      (confirmed n).2.zdo.responseTx = n.zdo.responseTx ∧ (confirmed n).2.zdo.leave = n.zdo.leave ∧
      (confirmed n).2.transport.incoming = n.transport.incoming ∧
      answersLeave (confirmed n).2 = answersLeave n := by
  unfold confirmed
  by_cases hconfirm : (n.zdo.queryTx ∨ n.zdo.responseTx) ∧ n.transport.completed
  · have hquery : n.zdo.queryTx = true := by
      rcases hconfirm with ⟨hq | hr, hc⟩
      · exact hq
      · exact absurd ⟨hr, hc⟩ hnone
    have htx := h.one hquery
    rw [if_pos hconfirm]
    simp only [hquery, if_true]
    have hcomplete : NwkAps.confirm n.transport = (some n.transport.result, { n.transport with completed := false }) := by
      rw [NwkAps.confirm, if_pos hconfirm.2]
    rw [hcomplete]
    exact ⟨⟨by simp, by simp [htx], h.live, h.apart, h.flag⟩, trivial, trivial, trivial, rfl, rfl⟩
  · rw [if_neg hconfirm]
    exact ⟨h, rfl, rfl, rfl, rfl, rfl⟩

theorem cancel_slot (t : Transport) (now : UInt32) :
    (NwkAps.cancel t now).2.queued = t.queued ∧ (NwkAps.cancel t now).2.completed = t.completed ∧
      (NwkAps.cancel t now).2.outgoing = t.outgoing ∧ (NwkAps.cancel t now).2.incoming = t.incoming ∧
      (NwkAps.cancel t now).2.receiveReady = t.receiveReady ∧ (NwkAps.cancel t now).2.event = t.event := by
  unfold NwkAps.cancel NwkAps.advance
  by_cases hclock : MacTx.half ≤ now - t.last
  · simp [hclock]
  · simp only [hclock, if_false]
    cases ht : t.queued with
    | false => simp
    | true => simp

theorem FlagPaired.timedOut {n : Node} {withdrawn : Bool} (h : FlagPaired n withdrawn) (now : UInt32) :
    FlagPaired (timedOut n now).2 withdrawn ∧ (timedOut n now).1 ≠ some .leave ∧
      (timedOut n now).2.zdo.responseTx = n.zdo.responseTx ∧ (timedOut n now).2.zdo.leave = n.zdo.leave ∧
      (timedOut n now).2.transport.incoming = n.transport.incoming ∧
      answersLeave (timedOut n now).2 = answersLeave n := by
  obtain ⟨hq, hc, ho, hi, hr, he⟩ := cancel_slot n.transport now
  unfold ZdoRuntime.timedOut
  split
  · extract_lets n' r
    split
    · refine ⟨⟨h.one, ?_, h.live, h.apart, ?_⟩, by split <;> simp, rfl, rfl, hi, ?_⟩
      · change _ → (NwkAps.cancel n.transport now).2.queued = true ∨ (NwkAps.cancel n.transport now).2.completed = true
        rw [hq, hc]
        exact h.held
      · change n.zdo.leave = (_ || (_ && isLeaveResponse (NwkAps.cancel n.transport now).2.outgoing && _))
        rw [ho]
        exact h.flag
      · unfold answersLeave
        change (let p := (NwkAps.cancel n.transport now).2.incoming
          (NwkAps.cancel n.transport now).2.receiveReady && _ && _ &&
            ((NwkAps.cancel n.transport now).2.event == _ || _) && _ && _ && _ && _ && _ && _ && _) = _
        rw [hi, hr, he]
    · exact ⟨⟨h.one, h.held, h.live, h.apart, h.flag⟩, by simp, rfl, rfl, rfl, rfl⟩
  · exact ⟨h, by simp, rfl, rfl, rfl, rfl⟩

/-- A free slot belongs to no packet of the runtime. -/
theorem FlagPaired.free {n : Node} {withdrawn : Bool} (h : FlagPaired n withdrawn)
    (hqueued : n.transport.queued = false) (hcompleted : n.transport.completed = false) :
    n.zdo.queryTx = false ∧ n.zdo.responseTx = false := by
  constructor
  · cases hq : n.zdo.queryTx with
    | false => rfl
    | true => simpa [hqueued, hcompleted] using h.held (.inl hq)
  · cases ht : n.zdo.responseTx with
    | false => rfl
    | true => simpa [hqueued, hcompleted] using h.held (.inr ht)

/-- The waiting response is given to the transport, or it is dropped. -/
theorem FlagPaired.answered {n : Node} {withdrawn : Bool} (h : FlagPaired n withdrawn) (now : UInt32) {rc : Result}
    (hrc : rc ≠ .leave) :
    FlagPaired (answered n now rc).2 withdrawn ∧
      ((answered n now rc).1 = .leave ↔ drops n now = true ∧ isLeaveResponse n.zdo.response = true) := by
  unfold ZdoRuntime.answered
  by_cases hwait : n.zdo.responsePending ∧ !n.transport.queued ∧ !n.transport.completed
  swap
  · rw [if_neg hwait]
    refine ⟨h, ?_⟩
    have hdrops : drops n now = false := by
      rw [Bool.eq_false_iff]
      intro hdrops
      simp only [drops, Bool.and_eq_true] at hdrops
      exact hwait ⟨hdrops.1.1.1, hdrops.1.1.2, hdrops.1.2⟩
    simp [hrc, hdrops]
  rw [if_pos hwait]
  obtain ⟨hpending, hfree, hnone⟩ := hwait
  simp only [Bool.not_eq_true'] at hfree hnone
  obtain ⟨hquery, htx⟩ := h.free hfree hnone
  have hlive : withdrawn = false := by
    cases hw : withdrawn with
    | false => rfl
    | true => simpa [htx] using h.live hw
  have hflag : n.zdo.leave = isLeaveResponse n.zdo.response := by simpa [hpending, htx] using h.flag
  have hdrops : drops n now =
      decide ((NwkAps.queue n.transport n.zdo.response false now).1 = .exhausted) := by
    simp [drops, hpending, hfree, hnone]
  simp only [hdrops, decide_eq_true_eq]
  rcases NwkAps.queue_cases n.transport n.zdo.response false now with
    ⟨hne, hq, hc, ho⟩ | ⟨hok, -, -, hq, hc, counter, ho⟩
  · split
    · rename_i hexhausted
      simp only [hflag, hexhausted]
      split
      · rename_i hleave
        exact ⟨⟨by simp [hquery], by simp [hquery, htx], h.live, by simp, by simp [htx]⟩, by simp [hleave]⟩
      · rename_i hleave
        exact ⟨⟨by simp [hquery], by simp [hquery, htx], h.live, by simp, by simp [htx, hleave]⟩,
          by simp [hleave]⟩
    · rename_i hexhausted
      refine ⟨⟨h.one, by simp [hquery, htx], h.live, h.apart, ?_⟩, by split <;> simp [hexhausted]⟩
      simp [htx, hpending, hflag]
  · rw [hok]
    simp only [reduceCtorEq, if_false, ne_eq, not_true_eq_false]
    refine ⟨⟨by simp [hquery], by simp [hq], by simp [hlive], by simp, ?_⟩, by simp [hrc]⟩
    simp only [Bool.false_and, Bool.false_or, Bool.true_and, ho, isLeaveResponse_counter, hflag, hlive]
    simp

theorem Retired.countP_singleton (r : Retired) :
    [r].countP Retired.granted = if r.granted = true then 1 else 0 := by
  simp [List.countP_cons]

/-- After the completion a leave is returned exactly for a dropped leave response. -/
theorem FlagPaired.proceed {n : Node} {withdrawn : Bool} (h : FlagPaired n withdrawn)
    (table : Option (List ZdoServer.SimpleDescriptor)) (keys : Option Keys) (now : UInt32)
    (horderly : ∀ known, keys = some known → answersLeave n = true → n.zdo.responseTx = true →
      n.zdo.leave = false ∧ removesSelf known n.transport.incoming = false) :
    FlagPaired (proceed table n keys now).2 withdrawn ∧
      (dropped table n keys now).countP Retired.granted = leaves (proceed table n keys now).1 := by
  obtain ⟨hpaired, hne, htx, hleave, hincoming, hanswers⟩ := h.timedOut now
  unfold ZdoRuntime.proceed dropped
  cases hout : ZdoRuntime.timedOut n now with
  | mk outcome n1 =>
    rw [hout] at hpaired hne htx hleave hincoming hanswers
    cases outcome with
    | some result =>
      have hresult : result ≠ .leave := fun heq => hne (congrArg some heq)
      exact ⟨hpaired, by simp [leaves, hresult]⟩
    | none =>
      simp only at hpaired hne htx hleave hincoming hanswers ⊢
      have htaken : FlagPaired (ZdoRuntime.taken table n1 keys).2 withdrawn := by
        apply hpaired.taken
        intro known hkeys ha ht
        rw [hleave, hincoming]
        exact horderly known hkeys (hanswers ▸ ha) (htx ▸ ht)
      obtain ⟨hfinal, hiff⟩ := htaken.answered now (taken_cases table n1 keys).1.result
      refine ⟨hfinal, ?_⟩
      unfold leaves
      by_cases hdrops : drops (ZdoRuntime.taken table n1 keys).2 now = true
      · rw [if_pos hdrops, Retired.countP_singleton]
        simp only [Retired.granted, Bool.not_false, Bool.and_true]
        by_cases hl : isLeaveResponse (ZdoRuntime.taken table n1 keys).2.zdo.response = true
        · rw [if_pos hl, if_pos (hiff.mpr ⟨hdrops, hl⟩)]
        · rw [if_neg hl, if_neg fun hresult => hl (hiff.mp hresult).2]
      · rw [if_neg hdrops, if_neg fun hresult => hdrops (hiff.mp hresult).1]
        rfl

/-- A step that is in order keeps the pairing, and it returns leave exactly for a
granted leave response that it retires. -/
theorem FlagPaired.step {n : Node} {withdrawn : Bool} (h : FlagPaired n withdrawn)
    (table : Option (List ZdoServer.SimpleDescriptor)) (keys : Option Keys) (now : UInt32)
    (horderly : Orderly ⟨n, withdrawn⟩ (.step keys now)) :
    FlagPaired (step table n keys now).2 (withdrawn && !confirmsResponse n now) ∧
      (retires table ⟨n, withdrawn⟩ keys now).countP Retired.granted =
        leaves (step table n keys now).1 := by
  unfold ZdoRuntime.step retires advance
  by_cases hclock : MacTx.half ≤ now - n.zdo.last
  · have hnone : confirmsResponse n now = false := by simp [confirmsResponse, hclock]
    rw [if_pos hclock, hnone, Bool.not_false, Bool.and_true]
    exact ⟨h, rfl⟩
  rw [if_neg hclock]
  simp only
  generalize hn0 : ({ n with zdo := { n.zdo with last := now, securityEvent := none } } : Node) = n0
  have h0 : FlagPaired n0 withdrawn := by
    rw [← hn0]
    exact ⟨h.one, h.held, h.live, h.apart, h.flag⟩
  have htx0 : n0.zdo.responseTx = n.zdo.responseTx := by rw [← hn0]
  have ht0 : n0.transport = n.transport := by rw [← hn0]
  by_cases hconfirm : n0.zdo.responseTx = true ∧ n0.transport.completed = true
  · have hquery : n.zdo.queryTx = false := by
      cases hq : n.zdo.queryTx with
      | false => rfl
      | true => simpa [htx0, h.one hq] using hconfirm.1
    have hconfirms : confirmsResponse n now = true := by
      simp [confirmsResponse, hclock, hquery, ← htx0, ← ht0, hconfirm]
    obtain ⟨hpaired, htx, hresult⟩ := h0.confirm hconfirm.1 hconfirm.2
    rw [hconfirms, if_pos rfl, Bool.not_true, Bool.and_false, List.countP_append, Retired.countP_singleton, ← ht0]
    cases hout : confirmed n0 with
    | mk outcome n1 =>
      rw [hout] at hpaired htx hresult
      by_cases hgranted : Retired.granted ⟨n0.transport.outgoing, withdrawn⟩ = true
      · rw [if_pos hgranted] at hresult ⊢
        simp only at hresult
        subst hresult
        exact ⟨hpaired, by simp [leaves]⟩
      · rw [if_neg hgranted] at hresult ⊢
        cases outcome with
        | some result =>
          have hne : result ≠ .leave := by
            intro heq
            rw [heq] at hresult
            split at hresult <;> simp at hresult
          exact ⟨hpaired, by simp [leaves, hne]⟩
        | none =>
          have horder : ∀ known, keys = some known → answersLeave n1 = true → n1.zdo.responseTx = true →
              n1.zdo.leave = false ∧ removesSelf known n1.transport.incoming = false := by
            intro known _ _ ht
            simp only at htx
            rw [htx] at ht
            cases ht
          simpa using hpaired.proceed table keys now horder
  · have hconfirms : confirmsResponse n now = false := by
      rw [htx0, ht0, not_and_or, Bool.not_eq_true, Bool.not_eq_true] at hconfirm
      rcases hconfirm with hc | hc <;> simp [confirmsResponse, hc]
    obtain ⟨hpaired, hresult, htx, hleave, hincoming, hanswers⟩ := h0.unconfirmed hconfirm
    rw [hconfirms, Bool.not_false, Bool.and_true]
    cases hout : confirmed n0 with
    | mk outcome n1 =>
      rw [hout] at hpaired hresult htx hleave hincoming hanswers
      simp only at hpaired hresult htx hleave hincoming hanswers
      subst hresult
      have horder : ∀ known, keys = some known → answersLeave n1 = true → n1.zdo.responseTx = true →
          n1.zdo.leave = false ∧ removesSelf known n1.transport.incoming = false := by
        intro known hkeys ha ht
        subst hkeys
        have hresponse : n.zdo.responseTx = true := by rw [← htx0, ← htx, ht]
        have hopen : ¬ n.transport.completed = true := by
          intro hc
          exact hconfirm ⟨by rw [htx0, hresponse], by rw [ht0, hc]⟩
        have ha' : answersLeave n = true := by
          rw [hanswers, ← hn0] at ha
          exact ha
        obtain ⟨hflag, hother⟩ := horderly hclock ha' hresponse hopen
        rw [hleave, hincoming, ht0, ← hn0]
        exact ⟨by simpa using hflag, by simpa using hother⟩
      simpa using hpaired.proceed table keys now horder

/-! ## The other calls -/

/-- A change of the node that keeps what the pairing speaks of. -/
theorem FlagPaired.congr {n n' : Node} {withdrawn : Bool} (h : FlagPaired n withdrawn)
    (hquery : n'.zdo.queryTx = n.zdo.queryTx) (htx : n'.zdo.responseTx = n.zdo.responseTx)
    (hpending : n'.zdo.responsePending = n.zdo.responsePending)
    (hresponse : n.zdo.responsePending = true → n'.zdo.response = n.zdo.response) (hleave : n'.zdo.leave = n.zdo.leave)
    (hqueued : n'.transport.queued = n.transport.queued) (hcompleted : n'.transport.completed = n.transport.completed)
    (houtgoing : n'.transport.outgoing = n.transport.outgoing) : FlagPaired n' withdrawn := by
  refine ⟨by rw [hquery, htx]; exact h.one, by rw [hquery, htx, hqueued, hcompleted]; exact h.held,
    by rw [htx]; exact h.live, ?_, ?_⟩
  · intro ht hp
    rw [hpending] at hp
    rw [htx] at ht
    rw [hresponse hp]
    exact h.apart ht hp
  · rw [hleave, hpending, htx, houtgoing, h.flag]
    cases hp : n.zdo.responsePending with
    | false => rfl
    | true => rw [hresponse hp]

theorem FlagPaired.advance {n n0 : Node} {withdrawn : Bool} (h : FlagPaired n withdrawn) {now : UInt32}
    (hn0 : advance n now = some n0) : FlagPaired n0 withdrawn := by
  unfold ZdoRuntime.advance at hn0
  split at hn0
  · cases hn0
  · cases hn0
    exact h.congr rfl rfl rfl (fun _ => rfl) rfl rfl rfl rfl

/-- A packet given to the transport is not taken for the response in flight. -/
theorem FlagPaired.queue {n : Node} {withdrawn : Bool} (h : FlagPaired n withdrawn) (packet : Packet) (secure : Bool)
    (now : UInt32) :
    FlagPaired { n with transport := (NwkAps.queue n.transport packet secure now).2 } withdrawn := by
  rcases NwkAps.queue_cases n.transport packet secure now with ⟨-, hq, hc, ho⟩ | ⟨-, hfree, hnone, hq, hc, -⟩
  · exact h.congr rfl rfl rfl (fun _ => rfl) rfl hq hc ho
  · obtain ⟨hquery, htx⟩ := h.free hfree hnone
    refine ⟨h.one, by simp [hquery, htx], h.live, h.apart, ?_⟩
    have hflag := h.flag
    simp only [htx, Bool.false_and, Bool.or_false] at hflag ⊢
    exact hflag

theorem FlagPaired.request {n : Node} {withdrawn : Bool} (h : FlagPaired n withdrawn) (keys : Option Keys)
    (which : UInt8) (now : UInt32) :
    FlagPaired (request n keys which now).2 withdrawn ∧ leaves (request n keys which now).1 = 0 := by
  unfold ZdoRuntime.request
  split
  · exact ⟨h, rfl⟩
  rename_i n0 hn0
  have h0 := h.advance hn0
  split
  · exact ⟨h0, rfl⟩
  rename_i query _
  by_cases hbusy : n0.zdo.query.isSome ∨ n0.zdo.responsePending ∨ n0.zdo.responseTx
  · rw [if_pos hbusy]
    exact ⟨h0, rfl⟩
  rw [if_neg hbusy]
  rw [not_or, not_or, Bool.not_eq_true, Bool.not_eq_true, Bool.not_eq_true] at hbusy
  obtain ⟨-, hpending, htx⟩ := hbusy
  cases keys with
  | none => exact ⟨h0, rfl⟩
  | some known =>
    simp only
    have hqueue := h0.queue (queryPacket n0.zdo.nextTsn known query) false now
    rcases NwkAps.queue_cases n0.transport (queryPacket n0.zdo.nextTsn known query) false now with
      ⟨hne, -⟩ | ⟨hok, -, -, hq, -⟩
    · rw [if_pos hne]
      refine ⟨hqueue.congr rfl rfl rfl ?_ rfl rfl rfl rfl, by split <;> rfl⟩
      simp [hpending]
    · rw [if_neg (by simp [hok])]
      refine ⟨⟨fun _ => htx, by simp [hq], h0.live, by simp [hpending], ?_⟩, rfl⟩
      have hclear : n0.zdo.leave = false := by simpa [hpending, htx] using h0.flag
      simp [hpending, htx, hclear]

theorem FlagPaired.broadcast {n : Node} {withdrawn : Bool} (h : FlagPaired n withdrawn) (keys : Option Keys)
    (which : UInt8) (now : UInt32) :
    FlagPaired (broadcast n keys which now).2 withdrawn ∧ leaves (broadcast n keys which now).1 = 0 := by
  unfold ZdoRuntime.broadcast
  split
  · exact ⟨h, rfl⟩
  rename_i n0 hn0
  have h0 := h.advance hn0
  split
  · exact ⟨h0, rfl⟩
  split
  · exact ⟨h0, rfl⟩
  split
  · exact ⟨h0, rfl⟩
  refine ⟨(h0.queue _ false now).congr rfl rfl rfl (fun _ => rfl) rfl rfl rfl rfl, ?_⟩
  simp only
  split
  · rfl
  split <;> rfl

theorem advance_responseTx {n n0 : Node} {now : UInt32} (hn0 : advance n now = some n0) :
    n0.zdo.responseTx = n.zdo.responseTx := by
  unfold advance at hn0
  split at hn0
  · cases hn0
  · cases hn0
    rfl

theorem cancelInFlight_slot (n : Node) (now : UInt32) :
    (cancelInFlight n now).2.queued = n.transport.queued ∧ (cancelInFlight n now).2.completed = n.transport.completed ∧
      (cancelInFlight n now).2.outgoing = n.transport.outgoing := by
  unfold cancelInFlight
  split
  · obtain ⟨hq, hc, ho, -⟩ := cancel_slot n.transport now
    exact ⟨hq, hc, ho⟩
  · exact ⟨rfl, rfl, rfl⟩

/-- A cancelled runtime has no flag, and the response in flight is withdrawn. -/
theorem FlagPaired.cancel {n : Node} {withdrawn : Bool} (h : FlagPaired n withdrawn) (now : UInt32) :
    FlagPaired (cancel n now).2 (withdrawn || (decide ((cancel n now).1 = .ok) && n.zdo.responseTx)) ∧
      leaves (cancel n now).1 = 0 := by
  unfold ZdoRuntime.cancel
  split
  · exact ⟨by simpa using h, rfl⟩
  rename_i n0 hn0
  have h0 := h.advance hn0
  have htx : n0.zdo.responseTx = n.zdo.responseTx := advance_responseTx hn0
  obtain ⟨hq, hc, ho⟩ := cancelInFlight_slot n0 now
  by_cases hok : (cancelInFlight n0 now).1 = .ok
  swap
  · simp only [hok, ne_eq, not_false_eq_true, if_true]
    refine ⟨?_, rfl⟩
    simp only [reduceCtorEq, decide_false, Bool.false_and, Bool.or_false]
    exact h0.congr rfl rfl rfl (fun _ => rfl) rfl hq hc ho
  simp only [hok, ne_eq, not_true_eq_false, if_false, decide_true, Bool.true_and, ← htx]
  refine ⟨⟨h0.one, ?_, ?_, by simp, ?_⟩, rfl⟩
  · simp only [hq, hc]
    exact h0.held
  · rw [Bool.or_eq_true]
    exact fun hw => hw.elim h0.live id
  · cases n0.zdo.responseTx <;> simp

/-- What the transport and its other users do keeps the pairing. -/
theorem FlagPaired.transport {n : Node} {withdrawn : Bool} (h : FlagPaired n withdrawn) (t : Transport)
    (hkept : (n.zdo.queryTx = true ∨ n.zdo.responseTx = true) → SlotKept n.transport t) :
    FlagPaired { n with transport := t } withdrawn := by
  refine ⟨h.one, ?_, h.live, h.apart, ?_⟩
  · intro htx
    obtain ⟨hq, hc, -⟩ := hkept htx
    exact (h.held htx).elim hq fun hcompleted => .inr (hc hcompleted)
  · change n.zdo.leave = (_ || (n.zdo.responseTx && isLeaveResponse t.outgoing && _))
    rw [h.flag]
    cases htx : n.zdo.responseTx with
    | false => rfl
    | true =>
      obtain ⟨-, -, hcluster, hpayload⟩ := hkept (.inr htx)
      rw [isLeaveResponse_congr hcluster hpayload]

/-! ## Whole runs -/

/-- A call that is in order keeps the pairing, and its report is paired. -/
theorem FlagPaired.perform {w : Watch} (h : FlagPaired w.node w.withdrawn)
    (table : Option (List ZdoServer.SimpleDescriptor)) (op : Op) (horderly : Orderly w op) :
    FlagPaired (perform table w op).2.node (perform table w op).2.withdrawn ∧ (perform table w op).1.Paired := by
  cases op with
  | step keys now => exact h.step table keys now horderly
  | request keys which now =>
    obtain ⟨hpaired, hnone⟩ := h.request keys which now
    exact ⟨hpaired, hnone.symm⟩
  | cancel now =>
    obtain ⟨hpaired, hnone⟩ := h.cancel now
    exact ⟨hpaired, hnone.symm⟩
  | broadcast keys which now =>
    obtain ⟨hpaired, hnone⟩ := h.broadcast keys which now
    exact ⟨hpaired, hnone.symm⟩
  | takeResult =>
    refine ⟨?_, rfl⟩
    change FlagPaired { w.node with zdo := (takeResult w.node.zdo).2 } w.withdrawn
    unfold takeResult
    split
    · split <;> exact h.congr rfl rfl rfl (fun _ => rfl) rfl rfl rfl rfl
    · exact h
  | takeApplication =>
    refine ⟨?_, rfl⟩
    change FlagPaired { w.node with zdo := (takeApplication w.node.zdo).2 } w.withdrawn
    unfold takeApplication
    split <;> exact h.congr rfl rfl rfl (fun _ => rfl) rfl rfl rfl rfl
  | discardApplication =>
    change FlagPaired { w.node with zdo := (discardApplication w.node.zdo).2 } w.withdrawn ∧
      0 = leaves (discardApplication w.node.zdo).1
    unfold discardApplication
    split <;> exact ⟨h.congr rfl rfl rfl (fun _ => rfl) rfl rfl rfl rfl, rfl⟩
  | transport t =>
    simp only [ZdoRuntime.perform]
    split
    · exact ⟨h, rfl⟩
    · rename_i hkept
      rw [not_and, not_not] at hkept
      exact ⟨h.transport t hkept, rfl⟩

/-- A runtime that was just initialised, over any transport. -/
def started (descriptor : ZdoNode.Descriptor) (now : UInt32) (t : Transport) : Watch :=
  ⟨⟨fresh descriptor now, t⟩, false⟩

theorem started_paired (descriptor : ZdoNode.Descriptor) (now : UInt32) (t : Transport) :
    FlagPaired (started descriptor now t).node (started descriptor now t).withdrawn :=
  ⟨by simp [started, fresh], by simp [started, fresh], by simp [started], by simp [started, fresh],
    by simp [started, fresh]⟩

/-- From an initialised runtime, every call of an orderly run returns exactly one
leave for each granted leave response that it retires, and none otherwise. -/
theorem leave_answered (table : Option (List ZdoServer.SimpleDescriptor)) (descriptor : ZdoNode.Descriptor)
    (now : UInt32) (t : Transport) (ops : List Op)
    (horderly : Runs.Meets (perform table) Orderly (started descriptor now t) ops) :
    ∀ r ∈ (Runs.run (perform table) (started descriptor now t) ops).1, r.Paired := by
  have hinv := Runs.meets_invariant (perform table) Orderly
    (fun outs w => FlagPaired w.node w.withdrawn ∧ ∀ r ∈ outs, r.Paired) (started descriptor now t) []
    ⟨started_paired descriptor now t, by simp⟩
    (by
      rintro outs w op hop ⟨hpaired, houts⟩
      obtain ⟨hnext, hreport⟩ := hpaired.perform table op hop
      refine ⟨hnext, ?_⟩
      intro r hr
      rcases List.mem_append.mp hr with hr | hr
      · exact houts r hr
      · rw [List.mem_singleton.mp hr]
        exact hreport)
    ops horderly
  simpa using hinv.2

/-- An end device, the status of its keys, and a transport without traffic. -/
def sampleDescriptor : ZdoNode.Descriptor := ⟨0x1234, 82, 82, 2, 0, 8, 0x80, 82, 0, 22, 0⟩

def sampleKeys : Keys :=
  { config := ⟨Vector.replicate 8 1, Vector.replicate 8 2, Vector.replicate 8 3, 0x1A62, 0x4567, 11, 0⟩
    phase := .verified, activeSequence := 0, slotValid := fun _ => false, newerPending := false
    parentInformation := 0, timeoutPending := false, result := .ok, routerKnown := false, routerActive := false
    routerSelected := false, routerIeee := Vector.replicate 8 0, routerAddress := 0 }

def sampleTransport : Transport :=
  { outgoing := NwkAps.Packet.zero, incoming := NwkAps.Packet.zero, last := 0, counterUntil := 0
    duplicateTime := 1000, transactionUntil := 0, profile := 0x0104, endpoint := 1, nextAps := 0, queued := false
    waiting := false, retries := 0, seenAck := false, sent := false, receiveReady := false, event := .data
    secure := false, special := 0, completed := false, result := .ok, announced := true, permitSent := true
    ready := true, wrapWait := false, cancel := false, cancelSent := false, cancelResult := .ok
    parentInformation := 0, quiet := false, stopping := false }

/-- A request to this device with these octets. -/
def sampleRequest (cluster : UInt16) (octets : Bytes) : Packet :=
  let p := withPayload (base 0x4567 cluster) octets
  { p with nwk := { p.nwk with source := 0 } }

/-- The transport has received a request, with an answer of the device still queued or not. -/
def arrival (answer : Packet) (queued : Bool) (request : Packet) : Op :=
  .transport { sampleTransport with
    outgoing := answer, queued := queued, incoming := request, receiveReady := true, nextAps := 1 }

def completion (answer : Packet) : Op :=
  .transport { sampleTransport with outgoing := answer, completed := true, sent := true, nextAps := 1 }

def addressRequestPacket : Packet := sampleRequest 0 ([7] ++ List.replicate 8 1 ++ [0, 0])
def addressResponsePacket : Packet :=
  withPayload (base 0 0x8000) ([7, 0] ++ List.replicate 8 1 ++ put16 0x4567)
def leaveRequestPacket : Packet := sampleRequest 0x0034 ([8] ++ List.replicate 8 0 ++ [0])
def leaveResponsePacket : Packet := withPayload (base 0 0x8034) [8, 0]

/-- A leave request that is answered, and then confirmed. -/
def plainLeave : List Op :=
  [arrival NwkAps.Packet.zero false leaveRequestPacket, .step (some sampleKeys) 1,
    completion leaveResponsePacket, .step (some sampleKeys) 2]

/-- The leave request arrives while the answer to an address request is in flight. -/
def crossedLeave : List Op :=
  [arrival NwkAps.Packet.zero false addressRequestPacket, .step (some sampleKeys) 1,
    arrival addressResponsePacket true leaveRequestPacket, .step (some sampleKeys) 2,
    completion addressResponsePacket, .step (some sampleKeys) 3, .step (some sampleKeys) 4,
    completion leaveResponsePacket, .step (some sampleKeys) 5]

theorem leave_answered_plain :
    init sampleDescriptor 0 = .ok (fresh sampleDescriptor 0) ∧
    Runs.Meets (perform none) Orderly (started sampleDescriptor 0 sampleTransport) plainLeave ∧
    (Runs.run (perform none) (started sampleDescriptor 0 sampleTransport) plainLeave).1.map Report.result =
      [none, some .ok, none, some .leave] ∧
    ∀ r ∈ (Runs.run (perform none) (started sampleDescriptor 0 sampleTransport) plainLeave).1, r.Paired := by
  have horderly : Runs.Meets (perform none) Orderly (started sampleDescriptor 0 sampleTransport) plainLeave := by
    decide +kernel
  exact ⟨rfl, horderly, by decide +kernel,
    leave_answered none sampleDescriptor 0 sampleTransport plainLeave horderly⟩

/-- The leave is returned for the NWK_addr response; the leave response that was
granted is then retired without one. -/
theorem leave_crossed :
    init sampleDescriptor 0 = .ok (fresh sampleDescriptor 0) ∧
    ((Runs.run (perform none) (started sampleDescriptor 0 sampleTransport) crossedLeave).1.map fun r =>
      (r.result, r.retired.map fun q => q.packet.aps.clusterId)) =
      [(none, []), (some .ok, []), (none, []), (some .ok, []), (none, []), (some .leave, [0x8000]), (some .ok, []),
        (none, []), (some .ok, [0x8034])] ∧
    ¬ ∀ r ∈ (Runs.run (perform none) (started sampleDescriptor 0 sampleTransport) crossedLeave).1, r.Paired := by
  exact ⟨rfl, by decide +kernel, by decide +kernel⟩

end ZdoRuntime
