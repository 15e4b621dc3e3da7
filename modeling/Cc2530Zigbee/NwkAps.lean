import Cc2530Zigbee.EdWire
import Cc2530Zigbee.MacTx
import Cc2530Zigbee.SecurityKeys

/-!
# The NWK and APS transport: its slots

One packet to send, one received packet. A caller queues a packet, the transport
completes it and the caller confirms the completion. What moves a queued packet
to its completion is the transport's own step.
-/
namespace NwkAps

open Octets
open EdWire (Packet)

inductive Result where
  | ok | argument | state | full | security | wire | clock | timeout | radio | duplicate | ignored | exhausted
  | cancelled | ackFailed
  deriving DecidableEq, Repr

/-- A zeroed packet. -/
def Packet.zero : Packet :=
  { nwk := ⟨0, 0, 0, 0, 0, 0, 0, 0, Vector.replicate 8 0, Vector.replicate 8 0⟩, aps := .zero, length := 0
    payload := Vector.replicate 82 0 }

/-- The fields of `nwk_aps_t` that its callers meet. -/
structure Transport where
  outgoing : Packet
  incoming : Packet
  last : UInt32
  counterUntil : UInt32
  duplicateTime : UInt32
  transactionUntil : UInt32
  profile : UInt16
  endpoint : UInt8
  nextAps : UInt8
  queued : Bool
  waiting : Bool
  retries : UInt8
  seenAck : Bool
  sent : Bool
  receiveReady : Bool
  event : SecurityKeys.Event
  secure : Bool
  special : UInt8
  completed : Bool
  result : Result
  announced : Bool
  permitSent : Bool
  ready : Bool
  wrapWait : Bool
  cancel : Bool
  cancelSent : Bool
  cancelResult : Result
  parentInformation : UInt8
  quiet : Bool
  stopping : Bool
  deriving DecidableEq

def advance (t : Transport) (now : UInt32) : Result × Transport :=
  if MacTx.half ≤ now - t.last then (.clock, t) else (.ok, { t with last := now })

def reserve (t : Transport) (now : UInt32) (aps : Bool) : Result × Transport :=
  let r := advance t now
  let t := r.2
  if r.1 ≠ .ok then r
  else if t.queued ∨ t.completed ∨ t.stopping then (.full, t)
  else if aps then
    if t.wrapWait ∧ !MacTx.reached now t.counterUntil then (.exhausted, t) else (.ok, { t with wrapWait := false })
  else (.ok, t)

def allocated (t : Transport) (now : UInt32) (aps : Bool) : Transport :=
  let t := if aps then
    let next := t.nextAps + 1
    { t with
      outgoing := { t.outgoing with aps := { t.outgoing.aps with counter := t.nextAps } }
      nextAps := next
      wrapWait := if next = 0 then true else t.wrapWait
      counterUntil := if next = 0 then now + t.duplicateTime else t.counterUntil }
    else t
  { t with
    queued := true, retries := 0, seenAck := false, sent := false, quiet := false
    transactionUntil := now + t.duplicateTime }

/-- `nwk_aps_queue`. -/
def queue (t : Transport) (packet : Packet) (apsSecure : Bool) (now : UInt32) : Result × Transport :=
  if EdWire.payloadMax < packet.length.toNat then (.argument, t)
  else
    let aps := packet.nwk.type == 0
    let r := reserve t now aps
    let t := r.2
    if r.1 ≠ .ok then r
    -- ZDO owns source endpoint 0 and profile 0 even when it replies to another endpoint.
    else if aps ∧ packet.aps.type = 0 ∧
        (packet.aps.sourceEndpoint ≠ 0 ∨ packet.aps.destinationEndpoint ≠ 0 ∨ packet.aps.profileId ≠ 0) ∧
        (!t.ready ∨ ((packet.aps.sourceEndpoint ≠ 0 ∨ packet.aps.profileId ≠ 0) ∧
          (packet.aps.sourceEndpoint ≠ t.endpoint ∨ packet.aps.profileId ≠ t.profile))) then (.state, t)
    else if aps ∧ packet.aps.type ≠ 0 then (.argument, t)
    else (.ok, allocated { t with outgoing := packet, secure := apsSecure, special := 0 } now aps)

/-- `nwk_aps_take`: the received packet and its event. -/
def take (t : Transport) : Option (Packet × SecurityKeys.Event) × Transport :=
  if t.receiveReady then (some (t.incoming, t.event), { t with incoming := Packet.zero, receiveReady := false })
  else (none, t)

/-- `nwk_aps_confirm`: the result of the completed packet. -/
def confirm (t : Transport) : Option Result × Transport :=
  if t.completed then (some t.result, { t with completed := false }) else (none, t)

/-- `nwk_aps_cancel`. -/
def cancel (t : Transport) (now : UInt32) : Result × Transport :=
  let r := advance t now
  if r.1 ≠ .ok then r
  else if !r.2.queued then (.state, r.2)
  else (.ok, { r.2 with cancel := true, cancelResult := .cancelled })

theorem reserve_cases (t : Transport) (now : UInt32) (aps : Bool) :
    ((reserve t now aps).1 ≠ .ok ∧ (reserve t now aps).2.queued = t.queued ∧
      (reserve t now aps).2.completed = t.completed ∧ (reserve t now aps).2.outgoing = t.outgoing) ∨
    ((reserve t now aps).1 = .ok ∧ t.queued = false ∧ t.completed = false ∧ (reserve t now aps).2.queued = false ∧
      (reserve t now aps).2.completed = false ∧ (reserve t now aps).2.outgoing = t.outgoing) := by
  unfold reserve advance
  by_cases hclock : MacTx.half ≤ now - t.last
  · simp [hclock]
  simp only [hclock, if_false]
  by_cases hbusy : t.queued = true ∨ t.completed = true ∨ t.stopping = true
  · simp [hbusy]
  rw [not_or, not_or] at hbusy
  simp only [Bool.not_eq_true] at hbusy
  cases aps with
  | false => simp [hbusy]
  | true =>
    by_cases hwrap : t.wrapWait = true ∧ MacTx.reached now t.counterUntil = false
    · simp [hbusy, hwrap]
    · simp [hbusy, if_neg hwrap]

/-- What a queue call can do: refuse and leave the slot alone, or fill it. -/
theorem queue_cases (t : Transport) (packet : Packet) (apsSecure : Bool) (now : UInt32) :
    ((queue t packet apsSecure now).1 ≠ .ok ∧
      (queue t packet apsSecure now).2.queued = t.queued ∧
      (queue t packet apsSecure now).2.completed = t.completed ∧
      (queue t packet apsSecure now).2.outgoing = t.outgoing) ∨
    ((queue t packet apsSecure now).1 = .ok ∧ t.queued = false ∧ t.completed = false ∧
      (queue t packet apsSecure now).2.queued = true ∧
      (queue t packet apsSecure now).2.completed = false ∧
      ∃ counter, (queue t packet apsSecure now).2.outgoing =
        { packet with aps := { packet.aps with counter := counter } }) := by
  unfold queue
  split
  · exact .inl ⟨by simp, rfl, rfl, rfl⟩
  simp only
  rcases reserve_cases t now (packet.nwk.type == 0) with ⟨hne, hq, hc, ho⟩ | ⟨hok, hq, hc, hq', hc', ho⟩
  · rw [if_pos hne]
    exact .inl ⟨hne, hq, hc, ho⟩
  · rw [if_neg (by simp [hok])]
    split
    · exact .inl ⟨by simp, hq'.trans hq.symm, hc'.trans hc.symm, ho⟩
    split
    · exact .inl ⟨by simp, hq'.trans hq.symm, hc'.trans hc.symm, ho⟩
    · refine .inr ⟨rfl, hq, hc, rfl, ?_, ?_⟩
      · unfold allocated
        split <;> exact hc'
      · unfold allocated
        split
        · exact ⟨_, rfl⟩
        · exact ⟨packet.aps.counter, rfl⟩

end NwkAps
