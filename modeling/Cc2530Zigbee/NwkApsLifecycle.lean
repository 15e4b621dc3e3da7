import Cc2530Zigbee.NwkApsSlot
import Cc2530Zigbee.Runs

/-!
# The life of a request

A request is accepted into an empty slot, completed once by a step and read
once by a confirmation before the next one is accepted. In between it is sent
at most once more than it may be retried.
-/
namespace NwkAps

open Octets
open EdWire (Packet)
open MacTx (IntervalEvent reached)

/-- The layer, what is known of its request, and the books. -/
structure Ledger where
  layer : Layer
  track : Track
  accepted : Nat
  results : List Result
  reads : List Result

/-- The call has taken a new request. -/
def acceptsRequest : Call → Answer → Bool
  | .queue .., .result .ok => true
  | .keyExchange .., .result .ok => true
  | .rejoin .., .result .ok => true
  | _, _ => false

/-- The call hands the request in the slot to `nwk_aps_transmit`. -/
def tries (l : Layer) : Call → Bool
  | .step now event k =>
    decide (now - l.last < MacTx.half) && !l.active && event.isNone && decide (l.owner.engine.phase = .idle) &&
      !l.stopping && attempting (settled (expired { l with last := now } now) now k)
  | _ => false

/-- After the call the request has been on the air. -/
def airs (l : Layer) (c : Call) (l' : Layer) : Bool :=
  match c with
  | .step .. => application l && l'.owner.engine.transmissions != 0
  | _ => false

/-- The acknowledgment the call has taken. -/
def acknowledgments (t : Track) (l : Layer) : Call → Answer → List Evidence
  | .receive _ now (.ok r), .result .ok =>
    if r.packet.nwk.type = 0 ∧ r.packet.aps.type = EdWire.apsAck then [⟨t.attempts, t.aired, { l with last := now }, r⟩]
    else []
  | _, _ => []

/-- What is known of the request after a call. -/
def Track.after (t : Track) (l : Layer) (c : Call) (a : Answer) (l' : Layer) : Track :=
  if acceptsRequest c a then ⟨l'.outgoing.aps.counter, 0, false, []⟩
  else
    let u := t.next (tries l c)
    { u with aired := u.aired || airs l c l', acks := u.acks ++ acknowledgments t l c a }

/-- The results a confirmation has read. -/
def readings : Answer → List Result
  | .confirmed (some r) => [r]
  | _ => []

section Books
variable (link : Bool) (build : Build)

def book (g : Ledger) (c : Call) : Answer × Ledger :=
  let r := perform link build g.layer c
  (r.1, {
    layer := r.2
    track := g.track.after g.layer c r.1 r.2
    accepted := g.accepted + if acceptsRequest c r.1 then 1 else 0
    results := g.results ++ if !g.layer.completed && r.2.completed then [r.2.result] else []
    reads := g.reads ++ readings r.1 })

/-- A layer at its initialization. -/
def opened (l : Layer) : Ledger := ⟨l, ⟨0, 0, false, []⟩, 0, [], []⟩

/-- The books balance: every accepted request is in the slot or has its one result, every result is read or
still to be read, and the request in the slot keeps its counter through at most four tries. -/
structure Balanced (g : Ledger) : Prop where
  accepted : g.accepted = g.results.length + if g.layer.queued then 1 else 0
  results : g.results = g.reads ++ if g.layer.completed then [g.layer.result] else []
  one : g.layer.queued = true → g.layer.completed = false
  attempts : g.track.attempts ≤ 4
  counter : g.layer.queued = true → g.layer.outgoing.aps.counter = g.track.counter

/-- What one call may do to the slot. -/
inductive Lived (l : Layer) (c : Call) (a : Answer) (l' : Layer) : Prop where
  | stays (queued : l'.queued = l.queued) (completed : l'.completed = l.completed) (result : l'.result = l.result)
      (refused : acceptsRequest c a = false) (unread : readings a = [])
  | accepts (free : l.queued = false) (read : l.completed = false) (queued : l'.queued = true)
      (open_ : l'.completed = false) (accepted : acceptsRequest c a = true) (unread : readings a = [])
  | ends (now : UInt32) (event : Option IntervalEvent) (k : Keys) (step : c = .step now event k)
      (queued : l.queued = true) (gone : l'.queued = false) (completed : l'.completed = true)
      (refused : acceptsRequest c a = false) (unread : readings a = [])
  | reads (completed : l.completed = true) (gone : l'.completed = false) (queued : l'.queued = l.queued)
      (refused : acceptsRequest c a = false) (read : readings a = [l.result])

/-- What every call keeps to. -/
structure Lawful (g : Ledger) (c : Call) (a : Answer) (l' : Layer) : Prop where
  lived : Lived g.layer c a l'
  /-- A request that wanted an acknowledgment ends well only with one for its current try. -/
  earned : g.layer.queued = true → l'.completed = true → l'.result = .ok → wantsAck g.layer = true →
    ∃ e ∈ g.track.acks, e.Proves g.layer g.track
  /-- The transmitter takes the request only in a try. -/
  submitted : application g.layer = false → application l' = true → tries g.layer c = true
  /-- A step for an acknowledgment or a poll leaves the request as it is. -/
  shared : ∀ now event k, c = .step now event k → now - g.layer.last < MacTx.half → g.layer.active = true →
    application g.layer = false → Same (expired { g.layer with last := now } now) l'
  /-- A completion that is due happens in the first step that finds the transmitter free. -/
  due : ∀ now k, c = .step now none k → now - g.layer.last < MacTx.half → g.layer.active = false →
    g.layer.owner.engine.phase = .idle → g.layer.queued = true →
    (g.layer.stopping = true ∨ reached now g.layer.transactionUntil = true ∨ NwkAps.due g.layer now = true) →
    l'.queued = false ∧ l'.completed = true

/-- A call of the run is lawful. -/
def Obeys (g : Ledger) (c : Call) : Prop :=
  let r := perform link build g.layer c
  Lawful g c r.1 r.2

end Books

variable {link : Bool} {build : Build}

/-! ## Calls other than the step -/

/-- What a call must do for the books to stay right. -/
structure Booked (g : Ledger) (c : Call) (a : Answer) (l' : Layer) : Prop where
  fit : Fit l' (g.track.after g.layer c a l')
  lawful : Lawful g c a l'

/-- A call that is no step, takes no request and takes no acknowledgment. -/
theorem booked_of_quiet {g : Ledger} {c : Call} {a : Answer} {l' : Layer} (h : Fit l' g.track)
    (happ : application l' = application g.layer) (hone : g.layer.queued = true → g.layer.completed = false)
    (hlived : Lived g.layer c a l') (hstep : ∀ now event k, c ≠ .step now event k) (haccept : acceptsRequest c a = false)
    (hacks : acknowledgments g.track g.layer c a = []) : Booked g c a l' := by
  have htries : tries g.layer c = false := by
    cases c with
    | step now event k => exact absurd rfl (hstep now event k)
    | _ => rfl
  have hairs : airs g.layer c l' = false := by
    cases c with
    | step now event k => exact absurd rfl (hstep now event k)
    | _ => rfl
  refine ⟨?_, hlived, ?_, ?_, ?_, ?_⟩
  · have htrack : g.track.after g.layer c a l' = g.track := by
      simp [Track.after, Track.next, haccept, htries, hairs, hacks]
    rw [htrack]
    exact h
  · intro hq hc
    cases hlived with
    | stays _ hsame => simp [hsame, hone hq] at hc
    | accepts hfree => simp [hfree] at hq
    | ends now event k hc => exact absurd hc (hstep now event k)
    | reads hdone => simp [hone hq] at hdone
  · intro hno hyes
    rw [happ, hno] at hyes
    cases hyes
  · intro now event k hc
    exact absurd hc (hstep now event k)
  · intro now k hc
    exact absurd hc (hstep now none k)

/-- A call that leaves the slot alone. -/
theorem booked_of_same {g : Ledger} {c : Call} {a : Answer} {l' : Layer} (h : Fit g.layer g.track) (hsame : Same g.layer l')
    (hstep : ∀ now event k, c ≠ .step now event k) (haccept : acceptsRequest c a = false) (hread : readings a = [])
    (hacks : acknowledgments g.track g.layer c a = []) : Booked g c a l' :=
  booked_of_quiet (h.same hsame) hsame.application h.one
    (.stays hsame.queued hsame.completed hsame.result haccept hread) hstep haccept hacks

/-- A call that may mark the request for cancellation. -/
theorem booked_of_cancel {g : Ledger} {c : Call} {a : Answer} {m : Layer} (h : Fit g.layer g.track) (hsame : Same g.layer m)
    (flag : Bool) {result : Result} (hresult : result ≠ .ok) {l' : Layer}
    (hl' : Same { m with cancel := flag, cancelResult := result } l') (hstep : ∀ now event k, c ≠ .step now event k)
    (haccept : acceptsRequest c a = false) (hread : readings a = [])
    (hacks : acknowledgments g.track g.layer c a = []) : Booked g c a l' := by
  refine booked_of_quiet (((h.same hsame).cancel flag result hresult).same hl') (hl'.application.trans hsame.application)
    h.one ?_ hstep haccept hacks
  exact .stays (hl'.queued.trans hsame.queued) (hl'.completed.trans hsame.completed) (hl'.result.trans hsame.result)
    haccept hread

/-- The slot of a transport is part of the layer. -/
theorem reserve_same (l : Layer) (now : UInt32) (aps : Bool) :
    Same l { l with toTransport := (reserve l.toTransport now aps).2 } := by
  unfold reserve
  rcases advance_cases l.toTransport now with ⟨-, h⟩ | ⟨-, h⟩
  · simp only [h, ne_eq, reduceCtorEq, not_false_eq_true, if_true]
    constructor <;> rfl
  · simp only [h, ne_eq, not_true_eq_false, if_false]
    split
    · constructor <;> rfl
    split
    · split <;> constructor <;> rfl
    · constructor <;> rfl

/-- The layer with a new request. -/
def filled (l : Layer) (t : Transport) (now : UInt32) (aps : Bool) : Layer := { l with toTransport := allocated t now aps }

/-- A new request in an empty slot. -/
theorem booked_of_accept {g : Ledger} {c : Call} {a : Answer} (h : Fit g.layer g.track) (now : UInt32) (aps : Bool)
    (hok : (reserve g.layer.toTransport now aps).1 = .ok) (packet : Packet) (secure : Bool) (special : UInt8)
    (hstep : ∀ now event k, c ≠ .step now event k) (haccept : acceptsRequest c a = true) (hread : readings a = []) :
    Booked g c a (filled g.layer
      { (reserve g.layer.toTransport now aps).2 with outgoing := packet, secure := secure, special := special } now aps) := by
  have hsame := reserve_same g.layer now aps
  have hfree : g.layer.queued = false ∧ g.layer.completed = false := by
    rcases reserve_cases g.layer.toTransport now aps with ⟨hne, -⟩ | ⟨-, hq, hc, -⟩
    · exact absurd hok hne
    · exact ⟨hq, hc⟩
  have hwaiting : g.layer.waiting = false := by
    by_contra hw
    have := h.waits (by simpa using hw)
    simp [hfree.1] at this
  have happ : application g.layer = false := by
    by_contra ha
    have := (h.serves (by simpa using ha)).1
    simp [hfree.1] at this
  generalize (reserve g.layer.toTransport now aps).2 = r at hsame
  generalize hl : filled g.layer { r with outgoing := packet, secure := secure, special := special } now aps = l'
  -- What filling the slot sets, and what it leaves.
  have hset : l'.queued = true ∧ l'.retries = 0 ∧ l'.seenAck = false ∧ l'.sent = false := by
    rw [← hl]
    unfold filled allocated
    split <;> exact ⟨rfl, rfl, rfl, rfl⟩
  have hleft : l'.completed = g.layer.completed ∧ l'.waiting = g.layer.waiting ∧ l'.cancel = g.layer.cancel ∧
      l'.cancelResult = g.layer.cancelResult ∧ application l' = application g.layer := by
    rw [← hl]
    unfold filled allocated
    split <;> exact ⟨hsame.completed, hsame.waiting, hsame.cancel, hsame.cancelResult, rfl⟩
  have htried : tried l' = false := by simp [tried, hleft.2.1, hwaiting, hleft.2.2.2.2, happ]
  refine ⟨?_, .accepts hfree.1 hfree.2 hset.1 (hleft.1.trans hfree.2) haccept hread, ?_, ?_, ?_, ?_⟩
  · rw [Track.after, if_pos haccept]
    refine ⟨fun _ => hleft.1.trans hfree.2, fun _ => hset.1, fun hf => ?_, fun hc => ?_, ?_, fun _ => ?_, by simp,
      fun _ => rfl, fun _ hs => ?_, fun _ hs => ?_⟩
    · rw [hleft.2.2.2.2, happ] at hf
      cases hf
    · rw [hleft.2.2.2.1]
      exact h.ends (hleft.2.2.1 ▸ hc)
    · rw [hset.2.1]
      decide
    · rw [hset.2.1, htried]
      rfl
    · rw [hset.2.2.2] at hs
      cases hs
    · rw [hset.2.2.1] at hs
      cases hs
  · intro hq
    simp [hfree.1] at hq
  · intro _ hyes
    rw [hleft.2.2.2.2, happ] at hyes
    cases hyes
  · intro now event k hc
    exact absurd hc (hstep now event k)
  · intro now k hc
    exact absurd hc (hstep now none k)

theorem queue_booked {g : Ledger} (h : Fit g.layer g.track) (packet : Packet) (apsSecure : Bool) (now : UInt32) :
    Booked g (.queue packet apsSecure now) (.result (g.layer.queue packet apsSecure now).1)
      (g.layer.queue packet apsSecure now).2 := by
  have hsame := reserve_same g.layer now (packet.nwk.type == 0)
  have hrefused : ∀ {r : Result} {l' : Layer}, r ≠ .ok → Same g.layer l' →
      Booked g (.queue packet apsSecure now) (.result r) l' := by
    intro r l' hr hs
    refine booked_of_same h hs (by simp) ?_ rfl rfl
    cases r <;> first | rfl | exact absurd rfl hr
  unfold Layer.queue NwkAps.queue
  split
  · exact hrefused (by simp) (.refl _)
  simp only
  split
  · rename_i hne
    exact hrefused hne hsame
  rename_i hok
  split
  · exact hrefused (by simp) hsame
  split
  · exact hrefused (by simp) hsame
  · refine booked_of_accept h now _ (not_not.mp hok) packet apsSecure 0 ?_ rfl rfl
    simp

theorem keyExchange_booked {g : Ledger} (h : Fit g.layer g.track) (which : UInt8) (now : UInt32) :
    Booked g (.keyExchange which now) (.result (keyExchange g.layer which now).1) (keyExchange g.layer which now).2 := by
  have hsame := reserve_same g.layer now (which != 3)
  have hrefused : ∀ {r : Result} {l' : Layer}, r ≠ .ok → Same g.layer l' →
      Booked g (.keyExchange which now) (.result r) l' := by
    intro r l' hr hs
    refine booked_of_same h hs (by simp) ?_ rfl rfl
    cases r <;> first | rfl | exact absurd rfl hr
  unfold keyExchange
  split
  · exact hrefused (by simp) (.refl _)
  simp only
  split
  · rename_i hne
    exact hrefused hne hsame
  · rename_i hok
    refine booked_of_accept h now _ (not_not.mp hok) _ _ which ?_ rfl rfl
    simp

theorem rejoin_booked {g : Ledger} (h : Fit g.layer g.track) (capability : UInt8) (now : UInt32) (k : Keys) :
    Booked g (.rejoin capability now k) (.result (rejoin build g.layer capability now k).1)
      (rejoin build g.layer capability now k).2 := by
  have hsame := reserve_same g.layer now false
  have hrefused : ∀ {r : Result} {l' : Layer}, r ≠ .ok → Same g.layer l' →
      Booked g (.rejoin capability now k) (.result r) l' := by
    intro r l' hr hs
    refine booked_of_same h hs (by simp) ?_ rfl rfl
    cases r <;> first | rfl | exact absurd rfl hr
  unfold rejoin
  simp only
  split
  · rename_i hne
    exact hrefused hne hsame
  rename_i hok
  split
  · exact hrefused (by simp) hsame
  · refine booked_of_accept h now _ (not_not.mp hok) _ _ 0 ?_ rfl rfl
    simp

/-- The frame is an acknowledgment of the APS layer. -/
def isAck (p : Packet) : Prop := p.nwk.type = 0 ∧ p.aps.type = EdWire.apsAck

/-- What a received frame does to the slot. -/
inductive Noted (l : Layer) (r : SecurityKeys.Received) : Result → Layer → Prop where
  | same (result : Result) (l' : Layer) (hsame : Same l l') (hno : isAck r.packet → result ≠ .ok) : Noted l r result l'
  | cancels (result : Result) (l' : Layer) (flag : Bool)
      (hsame : Same { l with cancel := flag, cancelResult := .cancelled } l') (hno : ¬isAck r.packet) : Noted l r result l'
  | acked (l' : Layer) (hack : isAck r.packet) (hmatch : acknowledgmentMatches l r.packet = true)
      (hsecure : l.secure = true → r.apsSecured = true) (hsame : Same { l with seenAck := true } l') : Noted l r .ok l'

theorem discard_same (l : Layer) (result : Result) : Same l (discard l result).2 := by constructor <;> rfl

theorem filter_same (l : Layer) (r : SecurityKeys.Received) (now : UInt32) : Same l (filter l r now).2 := by
  unfold filter
  simp only
  split
  · constructor <;> rfl
  split
  · constructor <;> rfl
  split <;> split <;> constructor <;> rfl

theorem deliver_noted (l : Layer) (r : SecurityKeys.Received) (now : UInt32) :
    Noted l r (deliver l r now).1 (deliver l r now).2 := by
  unfold deliver
  simp only
  split
  · exact .same _ _ (discard_same l _) (by simp [discard])
  split
  · rename_i hack
    split
    · exact .same _ _ (discard_same l _) (by simp [discard])
    · rename_i hgood
      rw [not_or] at hgood
      refine .acked _ hack (by simpa using hgood.1) (fun hs => ?_) (discard_same _ _)
      by_contra hf
      exact hgood.2 ⟨hs, by simpa using hf⟩
  rename_i hnot
  split
  · exact .same _ _ (discard_same l _) (by simp [discard])
  -- Past this point the frame is no acknowledgment, and the slot can only be marked.
  generalize hm : (if interrupts l r = true then
    { l with ready := false, cancel := l.cancel || l.queued,
             cancelResult := if l.queued then .cancelled else l.cancelResult } else l) = m
  have hmarked : Same l m ∨ Same { l with cancel := true, cancelResult := .cancelled } m := by
    rw [← hm]
    split
    · cases hq : l.queued with
      | true =>
        refine .inr ?_
        simp only [Bool.or_true, if_true]
        constructor <;> rfl
      | false =>
        refine .inl ?_
        simp only [Bool.or_false, Bool.false_eq_true, if_false]
        constructor <;> first | rfl | exact hq.symm
    · exact .inl (.refl l)
  have hlast : ∀ (result : Result) (l' : Layer), Same m l' → Noted l r result l' := by
    intro result l' hl'
    rcases hmarked with hsame | hsame
    · exact .same _ _ (hsame.trans hl') fun hack => absurd hack hnot
    · exact .cancels _ _ true (hsame.trans hl') hnot
  split
  · refine hlast _ _ ?_
    split <;> constructor <;> rfl
  · exact hlast _ _ (filter_same m r now)

theorem recorded_same (l : Layer) (slot : Option (Fin 8)) (p : Packet) (now : UInt32) :
    Same l (recorded l slot p now) := by
  cases slot <;> constructor <;> rfl

/-- A frame the slot does not notice, or one the key owner has admitted. -/
theorem receive_noted (l : Layer) (npdu : Bytes) (now : UInt32)
    (admitted : Except SecurityKeys.Result SecurityKeys.Received) :
    (Same l (receive l npdu now admitted).2 ∧ (receive l npdu now admitted).1 ≠ .ok) ∨
      ∃ (r : SecurityKeys.Received) (m : Layer), admitted = .ok r ∧ Same { l with last := now } m ∧ m.last = now ∧
        m.deadline = l.deadline ∧ Noted m r (receive l npdu now admitted).1 (receive l npdu now admitted).2 := by
  unfold receive
  rcases advance_cases l.toTransport now with ⟨-, h⟩ | ⟨-, h⟩
  · simp only [h, ne_eq, reduceCtorEq, not_false_eq_true, if_true]
    exact .inl ⟨.refl l, trivial⟩
  simp only [h, ne_eq, not_true_eq_false, if_false]
  have hlast := last_same l now
  split
  · exact .inl ⟨hlast, by simp⟩
  split
  · exact .inl ⟨hlast, by simp⟩
  split
  · exact .inl ⟨hlast, by simp⟩
  rename_i hint _
  split
  · rename_i e hslot
    refine .inl ⟨hlast, ?_⟩
    unfold broadcastOf at hslot
    split at hslot
    · rcases broadcastSlot_cases l.broadcast hint.header.source hint.header.sequence now with
        ⟨hs, -⟩ | ⟨hs, -⟩ | ⟨slot, hs, -⟩
      · simp only [hs, Except.map, Except.error.injEq] at hslot
        simp [← hslot]
      · simp only [hs, Except.map, Except.error.injEq] at hslot
        simp [← hslot]
      · simp [hs, Except.map] at hslot
    · cases hslot
  rename_i slot _
  split
  · exact .inl ⟨hlast.trans (by constructor <;> rfl), by simp [discard]⟩
  · rename_i r
    refine .inr ⟨r, recorded { l with last := now } slot r.packet now, rfl, recorded_same _ slot r.packet now, ?_, ?_,
      deliver_noted _ r now⟩
    · cases slot <;> rfl
    · cases slot <;> rfl

theorem Same.matches {l m : Layer} (h : Same l m) (hlast : m.last = l.last) (hdeadline : m.deadline = l.deadline)
    (p : Packet) : acknowledgmentMatches m p = acknowledgmentMatches l p := by
  simp only [acknowledgmentMatches, h.queued, h.sent, h.special, h.outgoing, h.cancel, h.transactionUntil, h.waiting,
    hlast, hdeadline]

theorem receive_booked {g : Ledger} (h : Fit g.layer g.track) (npdu : Bytes) (now : UInt32)
    (admitted : Except SecurityKeys.Result SecurityKeys.Received) :
    Booked g (.receive npdu now admitted) (.result (receive g.layer npdu now admitted).1)
      (receive g.layer npdu now admitted).2 := by
  have hnone : ∀ (result : Result) (r : SecurityKeys.Received), (isAck r.packet → result ≠ .ok) →
      acknowledgments g.track g.layer (.receive npdu now (.ok r)) (.result result) = [] := by
    intro result r hno
    cases result with
    | ok => exact if_neg fun hack => hno hack rfl
    | _ => rfl
  rcases receive_noted g.layer npdu now admitted with ⟨hsame, hne⟩ | ⟨r, m, rfl, hm, hlast, hdeadline, hnoted⟩
  · refine booked_of_same h hsame (by simp) rfl rfl ?_
    cases admitted with
    | error e => rfl
    | ok r => exact hnone _ r fun _ => hne
  have hsame := (last_same g.layer now).trans hm
  generalize (receive g.layer npdu now (.ok r)).1 = result at *
  generalize (receive g.layer npdu now (.ok r)).2 = l' at *
  cases hnoted with
  | same _ _ hl' hno => exact booked_of_same h (hsame.trans hl') (by simp) rfl rfl (hnone _ r hno)
  | cancels _ _ flag hl' hno =>
    exact booked_of_cancel h hsame flag (by simp) hl' (by simp) rfl rfl (hnone _ r fun hack => absurd hack hno)
  | acked _ hack hmatch hsecure hl' =>
    have hfit := h.same hsame
    have hmatch' : acknowledgmentMatches { g.layer with last := now } r.packet = true :=
      (hm.matches hlast hdeadline r.packet).symm.trans hmatch
    have hfacts : m.queued = true ∧ m.sent = true := by
      simp only [acknowledgmentMatches, Bool.and_eq_true] at hmatch
      simp only [hmatch, and_self]
    have hsent := hfit.sent hfacts.1 hfacts.2
    have hacks : acknowledgments g.track g.layer (.receive npdu now (.ok r)) (.result .ok) =
        [⟨g.track.attempts, g.track.aired, { g.layer with last := now }, r⟩] := if_pos hack
    have htrack : g.track.after g.layer (.receive npdu now (.ok r)) (.result .ok) l' =
        { g.track with acks := g.track.acks ++ [⟨g.track.attempts, g.track.aired, { g.layer with last := now }, r⟩] } := by
      simp only [Track.after, acceptsRequest, tries, airs, hacks, Track.next, Bool.false_eq_true, if_false, Bool.or_false]
    have happ : application l' = application m := hl'.application
    have htried : tried l' = tried m := by
      simp only [tried, happ]
      rw [show l'.waiting = m.waiting from hl'.waiting]
    refine ⟨?_, .stays (hl'.queued.trans hsame.queued) (hl'.completed.trans hsame.completed)
      (hl'.result.trans hsame.result) rfl rfl, ?_, ?_, fun _ _ _ hc => (by cases hc), fun _ _ hc => (by cases hc)⟩
    · rw [htrack]
      have hseen : Fit { m with seenAck := true }
          { g.track with acks := g.track.acks ++ [⟨g.track.attempts, g.track.aired, { g.layer with last := now }, r⟩] } := by
        refine ⟨hfit.one, hfit.waits, hfit.serves, hfit.ends, hfit.retries, hfit.spent, hfit.bounded, hfit.counter, hfit.sent,
          fun _ _ => ⟨hsent.2, _, List.mem_append_right _ List.mem_cons_self, ?_⟩⟩
        refine ⟨rfl, hsent.1, hmatch', fun hs => hsecure ?_, hm.outgoing.symm, hm.secure.symm, hm.transactionUntil.symm⟩
        exact hm.secure.trans hs
      exact hseen.same hl'
    · intro hq hc
      rw [hl'.completed, hsame.completed, h.one hq] at hc
      cases hc
    · intro hno hyes
      rw [happ, hsame.application, hno] at hyes
      cases hyes

/-! ## The step -/

theorem stopped_active (l : Layer) (k : Keys) : (stopped l k).active = l.active := by
  rw [stopped_eq]
  unfold dropped
  split <;> exact (silenced_same l).2

theorem stopped_done (l : Layer) (k : Keys) (hq : l.queued = true) :
    (stopped l k).queued = false ∧ (stopped l k).completed = true := by
  rw [stopped_eq]
  unfold dropped
  rw [if_pos ((silenced_same l).1.queued.trans hq)]
  obtain ⟨hgone, -, hc, -⟩ := complete_queued (silenced l).toTransport .cancelled k.final
  exact ⟨hgone, hc⟩

/-- What a step does to the slot, when its time is accepted. -/
inductive Stepped (link : Bool) (build : Build) (l m : Layer) (now : UInt32) (event : Option IntervalEvent) (k : Keys) :
    Layer → Prop where
  | active (hactive : l.active = true) : Stepped link build l m now event k (stepActive link m now event k).2.1
  | rests (hidle : l.active = false) (hrest : event.isSome = true ∨ l.owner.engine.phase ≠ .idle) :
      Stepped link build l m now event k m
  | stops (hidle : l.active = false) (hstop : l.stopping = true) : Stepped link build l m now event k (stopped m k)
  | launches (hidle : l.active = false) (hevent : event = none) (hphase : l.owner.engine.phase = .idle)
      (hgo : l.stopping = false) :
      Stepped link build l m now event k (launch link build (settled m now k) now k).2.1

theorem step_stepped {l : Layer} {t : Track} (h : Fit l t) {now : UInt32} (hnow : now - l.last < MacTx.half)
    (event : Option IntervalEvent) (k : Keys) :
    Stepped link build l (expired { l with last := now } now) now event k (step link build l now event k).2.1 := by
  obtain ⟨-, hactive, howner, hstopping, -⟩ := expired_piece (h.same (last_same l now)) now
  rw [step_eq hnow]
  by_cases ha : l.active = true
  · rw [if_pos ha]
    exact .active ha
  rw [if_neg ha]
  have hidle : l.active = false := by simpa using ha
  generalize expired { l with last := now } now = m at *
  unfold stepIdle
  split
  · rename_i hevent
    exact .rests hidle (.inl hevent)
  rename_i hevent
  split
  · rename_i hphase
    exact .rests hidle (.inr fun hf => hphase (by rw [howner]; exact hf))
  rename_i hphase
  split
  · rename_i hstop
    exact .stops hidle (hstopping.symm.trans hstop)
  · rename_i hgo
    refine .launches hidle (by simpa using hevent) ?_ ?_
    · have := not_not.mp hphase
      rwa [howner] at this
    · exact hstopping.symm.trans (by simpa using hgo)

theorem tries_of_launch {l : Layer} {now : UInt32} {k : Keys} (hnow : now - l.last < MacTx.half) (hidle : l.active = false)
    (hphase : l.owner.engine.phase = .idle) (hgo : l.stopping = false) :
    tries l (.step now none k) = attempting (settled (expired { l with last := now } now) now k) := by
  simp [tries, hnow, hidle, hphase, hgo]

/-- A turn of the slot is a lawful one. -/
theorem booked_of_turn {g : Ledger} {now : UInt32} {event : Option IntervalEvent} {k : Keys} {r : Result} {o : Output}
    {l' : Layer} (h : Fit g.layer g.track)
    (hfit : Fit l' (g.track.after g.layer (.step now event k) (.stepped r o) l')) (hturn : Turn g.layer l')
    (hsubmitted : application g.layer = false → application l' = true → tries g.layer (.step now event k) = true)
    (hshared : now - g.layer.last < MacTx.half → g.layer.active = true → application g.layer = false →
      Same (expired { g.layer with last := now } now) l')
    (hdue : event = none → now - g.layer.last < MacTx.half → g.layer.active = false →
      g.layer.owner.engine.phase = .idle → g.layer.queued = true →
      (g.layer.stopping = true ∨ reached now g.layer.transactionUntil = true ∨ NwkAps.due g.layer now = true) →
      l'.queued = false ∧ l'.completed = true) :
    Booked g (.step now event k) (.stepped r o) l' := by
  refine ⟨hfit, ?_, ?_, hsubmitted, ?_, ?_⟩
  · cases hturn with
    | stays hq hc hr => exact .stays hq hc hr rfl rfl
    | ends hq hgone hc _ => exact .ends now event k rfl hq hgone hc rfl rfl
  · intro hq hc hok hwants
    cases hturn with
    | stays _ hsame _ =>
      rw [hsame, h.one hq] at hc
      cases hc
    | ends _ _ _ hearned => exact (h.acked hq (hearned hok hwants)).2
  · intro now' event' k' hc
    cases hc
    exact hshared
  · intro now' k' hc
    cases hc
    exact hdue rfl

theorem step_booked {g : Ledger} (h : Fit g.layer g.track) (now : UInt32) (event : Option IntervalEvent) (k : Keys) :
    Booked g (.step now event k)
      (.stepped (step link build g.layer now event k).1 (step link build g.layer now event k).2.2)
      (step link build g.layer now event k).2.1 := by
  have hafter : ∀ (t : Track) (r : Result) (o : Output) (l' : Layer), g.track.next (tries g.layer (.step now event k)) = t →
      g.track.after g.layer (.step now event k) (.stepped r o) l' =
        { t with aired := t.aired || airs g.layer (.step now event k) l' } := by
    intro t r o l' ht
    simp only [Track.after, acceptsRequest, Bool.false_eq_true, if_false, ht, acknowledgments, List.append_nil]
  rcases advance_cases g.layer.toTransport now with ⟨hclock, hadvance⟩ | ⟨hnow, -⟩
  · have hsame : (step link build g.layer now event k).2.1 = g.layer := by
      unfold step
      simp only [hadvance, ne_eq, reduceCtorEq, not_false_eq_true, if_true]
    have hlate : ¬now - g.layer.last < MacTx.half := UInt32.not_lt.mpr hclock
    have htries : tries g.layer (.step now event k) = false := by simp [tries, hlate]
    rw [hsame]
    refine booked_of_turn h ?_ (.stays rfl rfl rfl) ?_ (fun hf => absurd hf hlate) (fun _ hf => absurd hf hlate)
    · rw [hafter g.track _ _ _ (by simp [Track.next, htries])]
      exact h.air _
    · intro hno hyes
      rw [hno] at hyes
      cases hyes
  obtain ⟨hpiece, hactive, howner, hstopping, happ⟩ := expired_piece (h.same (last_same g.layer now)) now
  have hstepped := @step_stepped link build g.layer g.track h now hnow event k
  have hfirst := ((last_same g.layer now).piece h).trans hpiece
  have happ : application (expired { g.layer with last := now } now) = application g.layer := happ
  have hqueued : (expired { g.layer with last := now } now).queued = g.layer.queued := by
    unfold expired
    split <;> rfl
  have hmarked : reached now g.layer.transactionUntil = true ∨ NwkAps.due g.layer now = true → g.layer.queued = true →
      NwkAps.due (expired { g.layer with last := now } now) now = true := by
    intro hcause hq
    unfold expired
    split
    · simp [NwkAps.due]
    · rename_i hno
      rcases hcause with hreached | hdue
      · have hcancel : g.layer.cancel = true := by
          by_contra hf
          exact hno ⟨hq, by simpa using hf, hreached⟩
        simp [NwkAps.due, hcancel]
      · exact hdue
  generalize hm : expired { g.layer with last := now } now = m at *
  generalize hl' : (step link build g.layer now event k).2.1 = l' at *
  have hquiet : g.layer.active = false → ∀ l'', airs g.layer (.step now event k) l'' = false := by
    intro hidle l''
    simp [airs, idle_application hidle]
  cases hstepped with
  | active ha =>
    have htries : tries g.layer (.step now event k) = false := by simp [tries, ha]
    have hair := hfirst.fit.air (airs g.layer (.step now event k) (stepActive link m now event k).2.1)
    have hstep := stepActive_piece hair (hactive.trans ha) now event k fun ha' hne => (by
      have hairs : airs g.layer (.step now event k) (stepActive link m now event k).2.1 = true := by
        simp only [airs, Bool.and_eq_true, bne_iff_ne]
        exact ⟨happ.symm.trans ha', hne⟩
      simp [hairs])
    refine booked_of_turn h ?_ ?_ ?_ ?_ (fun _ _ hf => by simp [ha] at hf)
    · rw [hafter g.track _ _ _ (by simp [Track.next, htries])]
      exact hstep.fit
    · exact (hfirst.trans hstep).turn
    · intro hno hyes
      rw [(stepActive_shared (hactive.trans ha) (happ.trans hno) now event k).application, happ, hno] at hyes
      cases hyes
    · intro _ _ hno
      rw [hm]
      exact stepActive_shared (hactive.trans ha) (happ.trans hno) now event k
  | rests hidle hrest =>
    have htries : tries g.layer (.step now event k) = false := by
      rcases hrest with hevent | hphase
      · simp [tries, Option.isSome_iff_ne_none.mp hevent]
      · simp [tries, hphase]
    refine booked_of_turn h ?_ hfirst.turn ?_ (fun _ hf => by simp [hidle] at hf) ?_
    · rw [hafter g.track _ _ _ (by simp [Track.next, htries]), hquiet hidle]
      exact hfirst.fit.air false
    · intro hno hyes
      rw [happ, hno] at hyes
      cases hyes
    · rintro rfl _ _ hphase
      rcases hrest with hevent | hne
      · cases hevent
      · exact absurd hphase hne
  | stops hidle hstop =>
    have htries : tries g.layer (.step now event k) = false := by simp [tries, hstop]
    have hpiece := stopped_piece hfirst.fit (hactive.trans hidle) k
    refine booked_of_turn h ?_ (hfirst.trans hpiece).turn ?_ (fun _ hf => by simp [hidle] at hf) ?_
    · rw [hafter g.track _ _ _ (by simp [Track.next, htries]), hquiet hidle]
      exact hpiece.fit.air false
    · intro _ hyes
      rw [idle_application ((stopped_active m k).trans (hactive.trans hidle))] at hyes
      cases hyes
    · intro _ _ _ _ hq _
      exact stopped_done m k (hqueued.trans hq)
  | launches hidle hevent hphase hgo =>
    subst hevent
    obtain ⟨hsettled, hfree⟩ := settled_piece hfirst.fit (hactive.trans hidle) now k
    obtain ⟨hlaunch, hsubmitted⟩ := @launch_piece link build _ _ hsettled.fit hfree now k
    have htries : tries g.layer (.step now none k) = attempting (settled m now k) := by
      rw [tries_of_launch hnow hidle hphase hgo, hm]
    refine booked_of_turn h ?_ ((hfirst.trans hsettled).trans hlaunch).turn ?_ (fun _ hf => by simp [hidle] at hf) ?_
    · rw [hafter _ _ _ _ (by rw [htries]), hquiet hidle]
      exact hlaunch.fit.air false
    · intro _ hyes
      rw [htries]
      exact hsubmitted hyes
    · intro _ _ _ _ hq hcause
      have hcause := hcause.resolve_left (by simp [hgo])
      obtain ⟨hgone, hc⟩ := settled_due (l := m) now k (hqueued.trans hq) (hmarked hcause hq)
      cases hlaunch.turn with
      | stays gq gc _ => exact ⟨gq.trans hgone, gc.trans hc⟩
      | ends gq _ _ _ =>
        rw [hgone] at gq
        cases gq

/-! ## Every call, every run -/

theorem perform_booked {g : Ledger} (h : Fit g.layer g.track) (c : Call) :
    Booked g c (perform link build g.layer c).1 (perform link build g.layer c).2 := by
  have hlast := last_same g.layer
  cases c with
  | queue packet apsSecure now => exact queue_booked h packet apsSecure now
  | keyExchange which now => exact keyExchange_booked h which now
  | rejoin capability now k => exact rejoin_booked h capability now k
  | step now event k => exact step_booked h now event k
  | receive npdu now admitted => exact receive_booked h npdu now admitted
  | poll rejoin now =>
    refine booked_of_same h ?_ (by simp) rfl rfl rfl
    simp only [perform, pollRequest]
    rcases advance_cases g.layer.toTransport now with ⟨-, hadvance⟩ | ⟨-, hadvance⟩
    · simp only [hadvance, ne_eq, reduceCtorEq, not_false_eq_true, if_true]
      exact .refl _
    · simp only [hadvance, ne_eq, not_true_eq_false, if_false]
      split
      · exact hlast now
      split
      · exact hlast now
      · exact (hlast now).trans (by constructor <;> rfl)
  | take =>
    refine booked_of_same h ?_ (by simp) rfl rfl rfl
    simp only [perform, Layer.take, NwkAps.take]
    split <;> constructor <;> rfl
  | confirm =>
    simp only [perform, Layer.confirm, NwkAps.confirm]
    split
    · rename_i hc
      have hempty : g.layer.queued = false := by
        by_contra hq
        have := h.one (by simpa using hq)
        simp [hc] at this
      have hfit : Fit { g.layer with completed := false } g.track :=
        ⟨fun _ => rfl, h.waits, h.serves, h.ends, h.retries, h.spent, h.bounded, h.counter, h.sent,
          fun hq => absurd hq (by change ¬g.layer.queued = true; simp [hempty])⟩
      refine booked_of_quiet hfit rfl h.one (.reads hc rfl rfl rfl rfl) (by simp) rfl rfl
    · refine booked_of_same h ?_ (by simp) rfl rfl rfl
      constructor <;> rfl
  | cancel now =>
    simp only [perform, Layer.cancelRequest, NwkAps.cancel]
    rcases advance_cases g.layer.toTransport now with ⟨-, hadvance⟩ | ⟨-, hadvance⟩
    · simp only [hadvance, ne_eq, reduceCtorEq, not_false_eq_true, if_true]
      exact booked_of_same h (.refl _) (by simp) rfl rfl rfl
    · simp only [hadvance, ne_eq, not_true_eq_false, if_false]
      split
      · exact booked_of_same h (hlast now) (by simp) rfl rfl rfl
      · refine booked_of_cancel h (hlast now) true (show Result.cancelled ≠ .ok by simp) ?_ (by simp) rfl rfl rfl
        constructor <;> rfl
  | stop now =>
    simp only [perform, stop]
    rcases advance_cases g.layer.toTransport now with ⟨-, hadvance⟩ | ⟨-, hadvance⟩
    · simp only [hadvance, ne_eq, reduceCtorEq, not_false_eq_true, if_true]
      exact booked_of_same h (.refl _) (by simp) rfl rfl rfl
    · simp only [hadvance, ne_eq, not_true_eq_false, if_false]
      split
      · refine booked_of_cancel h (hlast now) true (show Result.cancelled ≠ .ok by simp) ?_ (by simp) rfl rfl rfl
        constructor <;> rfl
      · refine booked_of_same h ((hlast now).trans ?_) (by simp) rfl rfl rfl
        constructor <;> rfl
  | armed generation retry nb =>
    refine booked_of_same h ?_ (by simp) rfl rfl rfl
    simp only [perform, confirmArmed]
    split <;> constructor <;> rfl
  | disarmed generation retry nb =>
    refine booked_of_same h ?_ (by simp) rfl rfl rfl
    simp only [perform, confirmDisarmed]
    split <;> constructor <;> rfl

/-- The books and the slot agree. -/
structure Sane (g : Ledger) : Prop where
  fit : Fit g.layer g.track
  accepted : g.accepted = g.results.length + if g.layer.queued then 1 else 0
  results : g.results = g.reads ++ if g.layer.completed then [g.layer.result] else []

theorem Sane.balanced {g : Ledger} (h : Sane g) : Balanced g :=
  ⟨h.accepted, h.results, h.fit.one, h.fit.bounded, h.fit.counter⟩

/-- A turn of the slot keeps the books right. -/
theorem Lived.books {g : Ledger} {c : Call} {a : Answer} {l' : Layer} (h : Lived g.layer c a l')
    (hone : g.layer.queued = true → g.layer.completed = false)
    (haccepted : g.accepted = g.results.length + if g.layer.queued then 1 else 0)
    (hresults : g.results = g.reads ++ if g.layer.completed then [g.layer.result] else []) :
    (g.accepted + if acceptsRequest c a then 1 else 0) =
      (g.results ++ if !g.layer.completed && l'.completed then [l'.result] else []).length +
        (if l'.queued then 1 else 0) ∧
    (g.results ++ if !g.layer.completed && l'.completed then [l'.result] else []) =
      (g.reads ++ readings a) ++ if l'.completed then [l'.result] else [] := by
  cases h with
  | stays hq hc hr hno hnone => simp [hq, hc, hr, hno, hnone, haccepted, hresults]
  | accepts hfree hread hq hopen hyes hnone => simp [haccepted, hresults, hfree, hread, hq, hopen, hyes, hnone]
  | ends _ _ _ _ hq hgone hc hno hnone => simp [haccepted, hresults, hq, hgone, hc, hno, hone hq, hnone]
  | reads hdone hgone hq hno hread => simp [haccepted, hresults, hdone, hgone, hq, hno, hread]

theorem Sane.call {g : Ledger} (h : Sane g) (c : Call) : Sane (book link build g c).2 := by
  have hbooked := @perform_booked link build g h.fit c
  obtain ⟨haccepted, hresults⟩ := hbooked.lawful.lived.books h.fit.one h.accepted h.results
  exact ⟨hbooked.fit, haccepted, hresults⟩

theorem init_sane {owner : MacTx.IntervalTx} {config : Config} {now : UInt32} {l : Layer}
    (h : init link owner config now = .ok l) : Sane (opened l) := by
  unfold init at h
  split at h
  · cases h
  split at h
  · cases h
  cases h
  refine ⟨.empty rfl rfl rfl (fun hf => (by cases hf)) ?_ (Nat.zero_le 4), rfl, rfl⟩
  exact (show (0 : UInt8) ≤ maxRetries by decide)

/-- Over every run each accepted request is completed once and read once before the next is accepted, is sent
at most four times with its own counter, ends well only with the acknowledgment of its current try if it wants
one, and is not touched by the acknowledgments and polls that share its transmitter. -/
theorem request_lifecycle (owner : MacTx.IntervalTx) (config : Config) (now : UInt32) (l : Layer)
    (hinit : init link owner config now = .ok l) (calls : List Call) :
    Runs.Throughout (book link build) Balanced (opened l) calls ∧
      Runs.Meets (book link build) (Obeys link build) (opened l) calls := by
  have hsane := @init_sane link owner config now l hinit
  have hfree := Runs.meets_true (book link build) (opened l) calls
  refine ⟨?_, ?_⟩
  · exact Runs.throughout_of_invariant _ (fun _ _ => True) Balanced Sane (fun g c h _ => h.call c)
      (fun g h => h.balanced) _ hsane calls hfree
  · exact Runs.meets_imp _ (fun _ _ => True) _ Sane (fun g c h _ => h.call c)
      (fun g c h _ => (perform_booked h.fit c).lawful) _ hsane calls hfree

/-- A request that the key owner refuses to secure, and two confirmations. -/
def exchange : List Call :=
  let request := { Packet.zero with aps := { Packet.zero.aps with flags := ApsFrame.ackRequest } }
  let keys : Keys := {
    status := .error .state, send := fun _ _ => .error .state, leave := fun _ => .error .state
    request := fun _ _ => .error .state, verify := fun _ _ => .error .state, final := .error .state }
  [.queue request false 0, .step 1 none keys, .confirm, .confirm]

theorem request_lifecycle_exchange :
    ∃ l, init false (MacTx.intervalInit 0 0) ⟨100000, 500000, 0x0104, 1⟩ 0 = .ok l ∧
      Runs.Throughout (book false .plain) Balanced (opened l) exchange ∧
      Runs.Meets (book false .plain) (Obeys false .plain) (opened l) exchange :=
  ⟨_, rfl, request_lifecycle (MacTx.intervalInit 0 0) ⟨100000, 500000, 0x0104, 1⟩ 0 _ rfl exchange⟩

end NwkAps
