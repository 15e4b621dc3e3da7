import Cc2530Zigbee.NwkApsRecords

/-!
# The APS counter and its quarantine

Counter 255 begins a quarantine: the next request for a counter waits for the lifetime of
a duplicate. The flag of the quarantine is only looked at, and only cleared, by such a
request.
-/
namespace NwkAps

open EdWire (Packet)
open MacTx (IntervalEvent reached)
open WrappedClock (shown)

variable {link : Bool} {build : Build}

/-- The next counter and the quarantine. -/
def Transport.counting (t : Transport) : UInt8 × Bool × UInt32 := (t.nextAps, t.wrapWait, t.counterUntil)

/-! ## Who leaves the counter alone -/

@[simp] theorem complete_counting (t : Transport) (result : Result)
    (status : Except SecurityKeys.Result SecurityKeys.Status) : (complete t result status).counting = t.counting := by
  unfold complete
  simp only
  split
  · rfl
  split
  · rfl
  · split <;> rfl

theorem transmitFrame_counting (l : Layer) (acknowledgment : Bool) (p : Packet) (s : SecurityKeys.Status)
    (npdu : Octets.Bytes) (now : UInt32) :
    (transmitFrame link build l acknowledgment p s npdu now).2.counting = l.counting := by
  unfold transmitFrame
  split
  · rfl
  split
  · rfl
  simp only
  split
  · rfl
  · split <;> rfl

theorem recordOwn_counting {l l' : Layer} {acknowledgment : Bool} {p : Packet} {s : SecurityKeys.Status} {now : UInt32}
    (h : recordOwn l acknowledgment p s now = .ok l') : l'.counting = l.counting := by
  unfold recordOwn at h
  split at h
  · split at h
    · cases h
    · cases h
    · cases h
      rfl
  · cases h
    rfl

theorem transmit_counting (l : Layer) (acknowledgment : Bool) (now : UInt32) (k : Keys) :
    (transmit link build l acknowledgment now k).2.counting = l.counting := by
  unfold transmit
  split
  · rfl
  next s _ =>
  have hnumbered : (numbered l acknowledgment (outbound l acknowledgment s)).counting = l.counting := by
    unfold numbered
    split <;> rfl
  simp only
  generalize numbered l acknowledgment (outbound l acknowledgment s) = b at hnumbered ⊢
  split
  · exact hnumbered
  split
  · exact (complete_counting _ _ _).trans hnumbered
  split
  · exact hnumbered
  next hrecord => exact (transmitFrame_counting _ _ _ _ _ _).trans ((recordOwn_counting hrecord).trans hnumbered)

theorem transmitPoll_counting (l : Layer) (now : UInt32) (k : Keys) :
    (transmitPoll link build l now k).2.counting = l.counting := by
  unfold transmitPoll
  split
  · rfl
  split
  · rfl
  simp only
  split
  · rfl
  · split <;> rfl

theorem launch_counting (l : Layer) (now : UInt32) (k : Keys) : (launch link build l now k).2.1.counting = l.counting := by
  unfold launch
  simp only
  split
  · have htransmit := @transmit_counting link build l l.reply now k
    generalize transmit link build l l.reply now k = r at htransmit ⊢
    split
    · split
      · exact htransmit
      · exact (complete_counting _ _ _).trans htransmit
    split
    · exact htransmit
    · split <;> exact htransmit
  split
  · have hpoll := @transmitPoll_counting link build l now k
    generalize transmitPoll link build l now k = r at hpoll ⊢
    split
    · exact hpoll
    split
    · exact hpoll
    · split <;> exact hpoll
  · rfl

theorem ite_counting {c : Prop} [Decidable c] {l a b : Layer} (ha : a.counting = l.counting) (hb : b.counting = l.counting) :
    (if c then a else b).counting = l.counting := by
  split
  · exact ha
  · exact hb

theorem settled_counting (l : Layer) (now : UInt32) (k : Keys) : (settled l now k).counting = l.counting := by
  unfold settled
  simp only
  generalize hm : (if l.cancel ∧ l.queued then { l with toTransport := complete l.toTransport l.cancelResult k.final }
    else l : Layer) = m
  have hm' : m.counting = l.counting := hm ▸ ite_counting (complete_counting _ _ _) rfl
  generalize hn : (if m.waiting ∧ m.seenAck then { m with toTransport := complete m.toTransport .ok k.final }
    else m : Layer) = n
  have hn' : n.counting = m.counting := hn ▸ ite_counting (complete_counting _ _ _) rfl
  rw [← hm', ← hn']
  exact ite_counting (ite_counting (complete_counting _ _ _) rfl) rfl

theorem stopped_counting (l : Layer) (k : Keys) : (stopped l k).counting = l.counting := by
  unfold stopped
  simp only
  split <;> split <;> rfl

theorem finished_counting (l : Layer) (outcome : MacTx.Outcome) (now : UInt32) (k : Keys) :
    (finished l outcome now k).2.counting = l.counting := by
  unfold finished
  simp only
  split
  · split <;> rfl
  split
  · rfl
  split
  · exact complete_counting _ _ _
  split
  · exact complete_counting _ _ _
  split
  · rfl
  · exact complete_counting _ _ _

theorem stepped_counting (l : Layer) (output : Output) (now : UInt32) (k : Keys) :
    (stepped link l output now k).2.1.counting = l.counting := by
  unfold stepped
  simp only
  generalize harm : (if link ∧ l.owner.engine.phase = .draw ∧ !stopsNow l then arm l else (l, output)) = a
  have ha : a.1.counting = l.counting := by
    rw [← harm]
    split <;> rfl
  generalize hsent : (if (!a.1.activeAck) = true ∧ (!a.1.activePoll) = true ∧ l.owner.engine.transmissions ≠ 0 then
    { a.1 with sent := true } else a.1) = b
  have hb : b.counting = l.counting := hsent ▸ ite_counting ha ha
  split
  · exact hb
  split
  · exact hb
  split
  · split <;> exact hb
  split
  · exact hb
  · exact (finished_counting _ _ now k).trans (ite_counting hb hb)

theorem drive_counting (l : Layer) (now : UInt32) (event : Option IntervalEvent) (k : Keys) :
    (drive link l now event k).2.1.counting = l.counting := by
  unfold drive
  simp only
  split
  · rfl
  · exact stepped_counting _ _ now k

theorem stepActive_counting (l : Layer) (now : UInt32) (event : Option IntervalEvent) (k : Keys) :
    (stepActive link l now event k).2.1.counting = l.counting := by
  unfold stepActive
  split
  · simp only
    split <;> rfl
  split
  · exact drive_counting _ now _ k
  · exact drive_counting l now event k

theorem stepIdle_counting (l : Layer) (now : UInt32) (event : Option IntervalEvent) (k : Keys) :
    (stepIdle link build l now event k).2.1.counting = l.counting := by
  unfold stepIdle
  split
  · rfl
  split
  · rfl
  split
  · exact stopped_counting l k
  · exact (launch_counting _ now k).trans (settled_counting l now k)

theorem advance_counting (t : Transport) (now : UInt32) : (advance t now).2.counting = t.counting := by
  unfold advance
  split <;> rfl

theorem step_counting (l : Layer) (now : UInt32) (event : Option IntervalEvent) (k : Keys) :
    (step link build l now event k).2.1.counting = l.counting := by
  unfold step
  rcases advance_cases l.toTransport now with ⟨-, h⟩ | ⟨-, h⟩
  · simp only [h, ne_eq, reduceCtorEq, not_false_eq_true, if_true]
  simp only [h, ne_eq, not_true_eq_false, if_false]
  generalize hm : (if l.queued = true ∧ (!l.cancel) = true ∧ reached now l.transactionUntil = true then
    ({ l with toTransport := { l.toTransport with last := now, cancel := true, cancelResult := .timeout } } : Layer)
    else { l with last := now }) = m
  have hmc : m.counting = l.counting := hm ▸ ite_counting rfl rfl
  split
  · exact (stepActive_counting m now event k).trans hmc
  · exact (stepIdle_counting m now event k).trans hmc

theorem filter_counting (l : Layer) (r : SecurityKeys.Received) (now : UInt32) : (filter l r now).2.counting = l.counting := by
  unfold filter discard
  simp only
  split
  · rfl
  split
  · rfl
  split <;> split <;> rfl

theorem deliver_counting (l : Layer) (r : SecurityKeys.Received) (now : UInt32) :
    (deliver l r now).2.counting = l.counting := by
  unfold deliver discard
  simp only
  split
  · rfl
  split
  · split <;> rfl
  split
  · rfl
  split
  · split <;> split <;> rfl
  · refine (filter_counting _ r now).trans ?_
    split <;> rfl

theorem receive_counting (l : Layer) (npdu : Octets.Bytes) (now : UInt32)
    (admitted : Except SecurityKeys.Result SecurityKeys.Received) : (receive l npdu now admitted).2.counting = l.counting := by
  have hadvance := advance_counting l.toTransport now
  unfold receive
  simp only
  split
  · exact hadvance
  split
  · exact hadvance
  split
  · exact hadvance
  split
  · exact hadvance
  split
  · exact hadvance
  split
  · exact hadvance
  · refine (deliver_counting _ _ now).trans ?_
    split <;> exact hadvance

/-! ## Requests for a counter -/

/-- A call that asks for a counter once its arguments are in order, and its time. -/
def asks : Call → Option UInt32
  | .queue packet _ now => if packet.nwk.type = 0 ∧ packet.length.toNat ≤ EdWire.payloadMax then some now else none
  | .keyExchange which now => if which = 1 ∨ which = 2 then some now else none
  | _ => none

/-- The counter a call was given. -/
def given (c : Call) (a : Answer) (l' : Layer) : Option UInt8 :=
  match asks c, a with
  | some _, .result .ok => some l'.outgoing.aps.counter
  | _, _ => none

/-- The layer, the true time, and every allocation of a counter with its time. -/
structure Counted where
  layer : Layer
  time : Nat
  log : List (Nat × UInt8)

section Count
variable (link : Bool) (build : Build)

/-- One call and what it adds to the log. -/
def count (s : Counted) (c : Call) : Answer × Counted :=
  let r := perform link build s.layer c
  let time := s.time + (r.2.last - s.layer.last).toNat
  (r.1, { layer := r.2, time := time, log := s.log ++ (given c r.1 r.2).toList.map fun counter => (time, counter) })

end Count

/-- A layer at its initialization. -/
def Counted.start (l : Layer) : Counted := ⟨l, l.last.toNat, []⟩

/-- What a request for a counter leaves: the clock alone, the clock and an ended quarantine, or
an allocation. -/
inductive Asked (l : Layer) (now : UInt32) (l' : Layer) : Result → Prop where
  | refused (result : Result) (hne : result ≠ .ok ∧ result ≠ .exhausted)
      (hbusy : ¬(now - l.last < MacTx.half ∧ l.queued = false ∧ l.completed = false ∧ l.stopping = false))
      (hcounting : l'.counting = l.counting) : Asked l now l' result
  | exhausted (hfree : l.queued = false ∧ l.completed = false ∧ l.stopping = false) (hnow : l'.last = now)
      (hclock : now - l.last < MacTx.half) (hwait : l.wrapWait = true) (huntil : reached now l.counterUntil = false)
      (hcounting : l'.counting = l.counting) : Asked l now l' .exhausted
  | cleared (result : Result) (hne : result ≠ .ok ∧ result ≠ .exhausted) (hnow : l'.last = now)
      (hclock : now - l.last < MacTx.half)
      (huntil : l.wrapWait = true → reached now l.counterUntil = true)
      (hcounting : l'.counting = (l.nextAps, false, l.counterUntil)) : Asked l now l' result
  | allocated (hnow : l'.last = now) (hclock : now - l.last < MacTx.half)
      (huntil : l.wrapWait = true → reached now l.counterUntil = true)
      (hcounter : l'.outgoing.aps.counter = l.nextAps)
      (hcounting : l'.counting = (l.nextAps + 1, decide (l.nextAps + 1 = 0),
        if l.nextAps + 1 = 0 then now + l.duplicateTime else l.counterUntil)) : Asked l now l' .ok

/-- What `reserve` answers a request for a counter. -/
theorem reserve_asked (t : Transport) (now : UInt32) :
    (((reserve t now true).1 ≠ .ok ∧ (reserve t now true).1 ≠ .exhausted) ∧
      ¬(now - t.last < MacTx.half ∧ t.queued = false ∧ t.completed = false ∧ t.stopping = false) ∧
      (reserve t now true).2.counting = t.counting) ∨
    ((reserve t now true).1 = .exhausted ∧ (t.queued = false ∧ t.completed = false ∧ t.stopping = false) ∧
      (reserve t now true).2.last = now ∧ now - t.last < MacTx.half ∧ t.wrapWait = true ∧
      reached now t.counterUntil = false ∧ (reserve t now true).2.counting = t.counting) ∨
    ((reserve t now true).1 = .ok ∧ now - t.last < MacTx.half ∧ (t.wrapWait = true → reached now t.counterUntil = true) ∧
      reserve t now true = (.ok, { t with last := now, wrapWait := false })) := by
  unfold reserve
  rcases advance_cases t now with ⟨hlate, h⟩ | ⟨hnow, h⟩
  · simp only [h]
    exact .inl ⟨⟨nofun, nofun⟩, fun hin => UInt32.not_lt.2 hlate hin.1, rfl⟩
  simp only [h, ne_eq, not_true_eq_false, if_false, if_true]
  by_cases hbusy : t.queued = true ∨ t.completed = true ∨ t.stopping = true
  · rw [if_pos hbusy]
    refine .inl ⟨⟨nofun, nofun⟩, fun hin => ?_, rfl⟩
    rw [hin.2.1, hin.2.2.1, hin.2.2.2] at hbusy
    simp at hbusy
  rw [if_neg hbusy]
  simp only [not_or, Bool.not_eq_true] at hbusy
  by_cases hwait : t.wrapWait = true ∧ (!reached now t.counterUntil) = true
  · rw [if_pos hwait]
    exact .inr (.inl ⟨rfl, hbusy, rfl, hnow, hwait.1, by simpa using hwait.2, rfl⟩)
  · rw [if_neg hwait]
    refine .inr (.inr ⟨rfl, hnow, fun hw => ?_, rfl⟩)
    by_contra hlate
    exact hwait ⟨hw, by simpa using hlate⟩

theorem allocated_asked (t : Transport) (now : UInt32) :
    (NwkAps.allocated t now true).last = t.last ∧ (NwkAps.allocated t now true).outgoing.aps.counter = t.nextAps ∧
      (NwkAps.allocated t now true).counting = (t.nextAps + 1, if t.nextAps + 1 = 0 then true else t.wrapWait,
        if t.nextAps + 1 = 0 then now + t.duplicateTime else t.counterUntil) := ⟨rfl, rfl, rfl⟩

theorem queue_asked {packet : Packet} (htype : packet.nwk.type = 0) (hlength : packet.length.toNat ≤ EdWire.payloadMax)
    (l : Layer) (apsSecure : Bool) (now : UInt32) :
    Asked l now (l.queue packet apsSecure now).2 (l.queue packet apsSecure now).1 := by
  unfold Layer.queue NwkAps.queue
  rw [if_neg (by omega)]
  simp only [htype, beq_self_eq_true]
  rcases reserve_asked l.toTransport now with ⟨hne, hbusy, hcounting⟩ |
    ⟨hex, hfree, hlast, hclock, hwait, huntil, hcounting⟩ | ⟨-, hclock, huntil, heq⟩
  · rw [if_pos hne.1]
    exact .refused _ hne hbusy hcounting
  · rw [if_pos (by rw [hex]; nofun), hex]
    exact .exhausted hfree hlast hclock hwait huntil hcounting
  · rw [heq]
    simp only [ne_eq, not_true_eq_false, if_false]
    split
    · exact .cleared _ ⟨nofun, nofun⟩ rfl hclock huntil rfl
    split
    · exact .cleared _ ⟨nofun, nofun⟩ rfl hclock huntil rfl
    · refine .allocated rfl hclock huntil rfl ?_
      by_cases hwrap : l.nextAps + 1 = 0
      · simp [NwkAps.allocated, Transport.counting, hwrap]
      · simp [NwkAps.allocated, Transport.counting, hwrap]

theorem keyExchange_asked {which : UInt8} (hwhich : which = 1 ∨ which = 2) (l : Layer) (now : UInt32) :
    Asked l now (keyExchange l which now).2 (keyExchange l which now).1 := by
  unfold keyExchange
  have hin : ¬(which < 1 ∨ 3 < which) ∧ (which != 3) = true := by
    obtain rfl | rfl := hwhich <;> decide
  rw [if_neg hin.1, hin.2]
  simp only
  rcases reserve_asked l.toTransport now with ⟨hne, hbusy, hcounting⟩ |
    ⟨hex, hfree, hlast, hclock, hwait, huntil, hcounting⟩ | ⟨-, hclock, huntil, heq⟩
  · rw [if_pos hne.1]
    exact .refused _ hne hbusy hcounting
  · rw [if_pos (by rw [hex]; nofun), hex]
    exact .exhausted hfree hlast hclock hwait huntil hcounting
  · rw [heq]
    simp only [ne_eq, not_true_eq_false, if_false]
    refine .allocated rfl hclock huntil rfl ?_
    by_cases hwrap : l.nextAps + 1 = 0
    · simp [NwkAps.allocated, Transport.counting, hwrap]
    · simp [NwkAps.allocated, Transport.counting, hwrap]

theorem perform_asked {c : Call} {now : UInt32} (h : asks c = some now) (l : Layer) :
    ∃ result, (perform link build l c).1 = .result result ∧ Asked l now (perform link build l c).2 result := by
  cases c with
  | queue packet apsSecure t =>
    simp only [asks] at h
    split at h
    next hok =>
      cases h
      exact ⟨_, rfl, queue_asked hok.1 hok.2 l apsSecure now⟩
    · cases h
  | keyExchange which t =>
    simp only [asks] at h
    split at h
    next hok =>
      cases h
      exact ⟨_, rfl, keyExchange_asked hok l now⟩
    · cases h
  | _ => cases h

theorem reserve_plain (t : Transport) (now : UInt32) : (reserve t now false).2.counting = t.counting := by
  unfold reserve
  rcases advance_cases t now with ⟨-, h⟩ | ⟨-, h⟩
  · simp [h]
  simp only [h, ne_eq, not_true_eq_false, if_false]
  split
  · rfl
  · rfl

/-- A call that asks for no counter leaves it alone. -/
theorem perform_counting {c : Call} (h : asks c = none) (l : Layer) : (perform link build l c).2.counting = l.counting := by
  cases c with
  | queue packet apsSecure now =>
    simp only [perform, Layer.queue, NwkAps.queue]
    split
    · rfl
    next hlength =>
    have htype : (packet.nwk.type == 0) = false := by
      rw [beq_eq_false_iff_ne]
      intro htype
      simp only [asks] at h
      rw [if_pos ⟨htype, by omega⟩] at h
      cases h
    have hreserve := reserve_plain l.toTransport now
    simp only [htype]
    split
    · exact hreserve
    split
    · exact hreserve
    split
    · exact hreserve
    · exact hreserve
  | keyExchange which now =>
    simp only [perform, keyExchange]
    split
    · rfl
    next hrange =>
    have hleave : (which != 3) = false := by
      simp only [asks] at h
      split at h
      · cases h
      next hnot =>
      rw [bne_eq_false_iff_eq]
      have hn : ¬(which.toNat < 1 ∨ 3 < which.toNat) := hrange
      rw [not_or] at hnot
      have h1 : which.toNat ≠ 1 := fun he => hnot.1 (UInt8.toNat_inj.1 he)
      have h2 : which.toNat ≠ 2 := fun he => hnot.2 (UInt8.toNat_inj.1 he)
      exact UInt8.toNat_inj.1 (show which.toNat = 3 by omega)
    have hreserve := reserve_plain l.toTransport now
    simp only [hleave]
    split
    · exact hreserve
    · exact hreserve
  | rejoin capability now k =>
    have hreserve := reserve_plain l.toTransport now
    simp only [perform, rejoin]
    split
    · exact hreserve
    split
    · exact hreserve
    · exact hreserve
  | poll rejoin now =>
    have hadvance := advance_counting l.toTransport now
    simp only [perform, pollRequest]
    split
    · exact hadvance
    split
    · exact hadvance
    split <;> exact hadvance
  | step now event k => exact step_counting l now event k
  | receive npdu now admitted => exact receive_counting l npdu now admitted
  | take =>
    simp only [perform, Layer.take, NwkAps.take]
    split <;> rfl
  | confirm =>
    simp only [perform, Layer.confirm, NwkAps.confirm]
    split <;> rfl
  | cancel now =>
    have hadvance := advance_counting l.toTransport now
    simp only [perform, Layer.cancelRequest, NwkAps.cancel]
    split
    · exact hadvance
    split <;> exact hadvance
  | stop now =>
    have hadvance := advance_counting l.toTransport now
    simp only [perform, stop]
    split
    · exact hadvance
    · split <;> exact hadvance
  | armed generation retry nb =>
    simp only [perform, confirmArmed]
    split <;> rfl
  | disarmed generation retry nb =>
    simp only [perform, confirmDisarmed]
    split <;> rfl

/-! ## The quarantine keeps equal counters apart -/

/-- The `i`-th entry of a log. -/
abbrev At (log : List (Nat × UInt8)) (i : Nat) (e : Nat × UInt8) : Prop := log[i]? = some e

theorem at_lt {log : List (Nat × UInt8)} {i : Nat} {e : Nat × UInt8} (h : At log i e) : i < log.length :=
  (List.getElem?_eq_some_iff.1 h).1

theorem at_concat {log : List (Nat × UInt8)} {x e : Nat × UInt8} {i : Nat} :
    At (log ++ [x]) i e ↔ At log i e ∨ (i = log.length ∧ e = x) := by
  unfold At
  rw [List.getElem?_append]
  split
  next hlt =>
    constructor
    · exact .inl
    · rintro (h | ⟨rfl, -⟩)
      · exact h
      · omega
  next hge =>
    constructor
    · intro h
      obtain ⟨hi, he⟩ := List.getElem?_eq_some_iff.1 h
      rw [List.length_singleton] at hi
      exact .inr ⟨by omega, by simpa using he.symm⟩
    · rintro (h | ⟨rfl, rfl⟩)
      · exact absurd (at_lt h) hge
      · simp

/-- The counters count, their times do not go back, counter 0 keeps off the 255 before it, and
the flag of the quarantine is right. -/
structure Quarantined (s : Counted) : Prop where
  clock : shown s.time = s.layer.last
  life : s.layer.duplicateTime.toNat < 2 ^ 31
  next : s.layer.nextAps = UInt8.ofNat s.log.length
  numbered : ∀ i e, At s.log i e → e.2 = UInt8.ofNat i
  sorted : ∀ i j e f, i ≤ j → At s.log i e → At s.log j f → e.1 ≤ f.1
  past : ∀ i e, At s.log i e → e.1 ≤ s.time
  spaced : ∀ i e f, 256 ∣ i + 1 → At s.log i e → At s.log (i + 1) f → e.1 + s.layer.duplicateTime.toNat ≤ f.1
  waits : s.layer.wrapWait = true → 256 ∣ s.log.length ∧ ∃ i e, i + 1 = s.log.length ∧ At s.log i e ∧
    s.layer.counterUntil = shown (e.1 + s.layer.duplicateTime.toNat)
  free : s.layer.wrapWait = false → 256 ∣ s.log.length → ∀ i e, i + 1 = s.log.length → At s.log i e →
    e.1 + s.layer.duplicateTime.toNat ≤ s.time

/-- The true time of a call. -/
def Counted.at (s : Counted) (now : UInt32) : Nat := s.time + (now - s.layer.last).toNat

theorem Quarantined.at_clock {s : Counted} (h : Quarantined s) (now : UInt32) : shown (s.at now) = now :=
  WrappedClock.shown_advance h.clock

theorem reached_iff (now expires : UInt32) : reached now expires = true ↔ (now - expires).toNat < 2 ^ 31 := by
  rw [reached, decide_eq_true_eq]
  exact Iff.rfl

/-- A quarantine that does not bar a request is over. -/
theorem Quarantined.elapsed {s : Counted} (h : Quarantined s) {now : UInt32}
    (huntil : s.layer.wrapWait = true → reached now s.layer.counterUntil = true) (hfull : 256 ∣ s.log.length) {i : Nat}
    {e : Nat × UInt8} (hi : i + 1 = s.log.length) (he : At s.log i e) :
    e.1 + s.layer.duplicateTime.toNat ≤ s.at now := by
  cases hwait : s.layer.wrapWait with
  | false => exact (h.free hwait hfull i e hi he).trans (Nat.le_add_right _ _)
  | true =>
    obtain ⟨-, i', e', hi', he', hcounter⟩ := h.waits hwait
    obtain rfl : i' = i := by omega
    obtain rfl : e' = e := Option.some.inj (he'.symm.trans he)
    by_contra hahead
    have hborn : e'.1 ≤ s.at now := (h.past _ _ he').trans (Nat.le_add_right _ _)
    have hreached := (reached_iff _ _).1 (huntil hwait)
    rw [hcounter, ← h.at_clock now] at hreached
    exact WrappedClock.not_since_of_ahead _ _ _ hborn h.life (by omega) hreached

/-- Equal counters are the lifetime of a duplicate apart. -/
theorem Quarantined.apart {s : Counted} (h : Quarantined s) {i j : Nat} {e f : Nat × UInt8} (hij : i < j)
    (he : At s.log i e) (hf : At s.log j f) (heq : e.2 = f.2) : e.1 + s.layer.duplicateTime.toNat ≤ f.1 := by
  have hmod : i % 256 = j % 256 := by
    rw [h.numbered i e he, h.numbered j f hf] at heq
    simpa using congrArg UInt8.toNat heq
  -- A counter 0 was allocated after the first of the two and not after the second.
  obtain ⟨m, hm, him, hmj⟩ : ∃ m, 256 ∣ m + 1 ∧ i ≤ m ∧ m + 1 ≤ j := ⟨256 * (i / 256) + 255, by omega, by omega, by omega⟩
  have hlt := at_lt hf
  have hbefore : At s.log m s.log[m] := List.getElem?_eq_getElem (by omega)
  have hafter : At s.log (m + 1) s.log[m + 1] := List.getElem?_eq_getElem (by omega)
  calc e.1 + s.layer.duplicateTime.toNat
    _ ≤ s.log[m].1 + s.layer.duplicateTime.toNat := Nat.add_le_add_right (h.sorted _ _ _ _ him he hbefore) _
    _ ≤ s.log[m + 1].1 := h.spaced m _ _ hm hbefore hafter
    _ ≤ f.1 := h.sorted _ _ _ _ hmj hafter hf

/-! ## Every call keeps the quarantine -/

/-- Only the clock has moved. -/
theorem Quarantined.idle {s : Counted} (h : Quarantined s) {l : Layer} (hlife : l.duplicateTime = s.layer.duplicateTime)
    (hcounting : l.counting = s.layer.counting) :
    Quarantined { s with layer := l, time := s.time + (l.last - s.layer.last).toNat } := by
  obtain ⟨hnext, hrest⟩ := Prod.mk.inj hcounting
  obtain ⟨hwait, huntil⟩ := Prod.mk.inj hrest
  have hle : s.time ≤ s.time + (l.last - s.layer.last).toNat := Nat.le_add_right _ _
  constructor
  case clock => exact WrappedClock.shown_advance h.clock
  case life => exact hlife ▸ h.life
  case next => exact hnext.trans h.next
  case numbered => exact h.numbered
  case sorted => exact h.sorted
  case past => exact fun i e he => (h.past i e he).trans hle
  case spaced => simpa only [hlife] using h.spaced
  case waits => simpa only [hlife, hwait, huntil] using h.waits
  case free =>
    intro hfree hfull i e hi he
    have := h.free (hwait ▸ hfree) hfull i e hi he
    exact hlife ▸ this.trans hle

/-- The quarantine has ended. -/
theorem Quarantined.ended {s : Counted} (h : Quarantined s) {l : Layer} (hlife : l.duplicateTime = s.layer.duplicateTime)
    (huntil : s.layer.wrapWait = true → reached l.last s.layer.counterUntil = true)
    (hcounting : l.counting = (s.layer.nextAps, false, s.layer.counterUntil)) :
    Quarantined { s with layer := l, time := s.time + (l.last - s.layer.last).toNat } := by
  obtain ⟨hnext, hrest⟩ := Prod.mk.inj hcounting
  obtain ⟨hwait, -⟩ := Prod.mk.inj hrest
  constructor
  case clock => exact WrappedClock.shown_advance h.clock
  case life => exact hlife ▸ h.life
  case next => exact hnext.trans h.next
  case numbered => exact h.numbered
  case sorted => exact h.sorted
  case past => exact fun i e he => (h.past i e he).trans (Nat.le_add_right _ _)
  case spaced => simpa only [hlife] using h.spaced
  case waits => exact fun hw => absurd (hw.symm.trans hwait) (by decide)
  case free =>
    intro _ hfull i e hi he
    exact hlife ▸ h.elapsed huntil hfull hi he

/-- A counter has been allocated. -/
theorem Quarantined.took {s : Counted} (h : Quarantined s) {l : Layer} (hlife : l.duplicateTime = s.layer.duplicateTime)
    (huntil : s.layer.wrapWait = true → reached l.last s.layer.counterUntil = true)
    (hcounting : l.counting = (s.layer.nextAps + 1, decide (s.layer.nextAps + 1 = 0),
      if s.layer.nextAps + 1 = 0 then l.last + s.layer.duplicateTime else s.layer.counterUntil)) :
    Quarantined { layer := l, time := s.time + (l.last - s.layer.last).toNat
                  log := s.log ++ [(s.time + (l.last - s.layer.last).toNat, s.layer.nextAps)] } := by
  obtain ⟨hnext, hrest⟩ := Prod.mk.inj hcounting
  obtain ⟨hwait, hcounter⟩ := Prod.mk.inj hrest
  have hwrap : s.layer.nextAps + 1 = 0 ↔ 256 ∣ s.log.length + 1 := by
    rw [h.next, ← UInt8.toNat_inj]
    simp only [UInt8.toNat_add, UInt8.toNat_ofNat', show (1 : UInt8).toNat = 1 from rfl, show (0 : UInt8).toNat = 0 from rfl]
    omega
  have hnow : ∀ i e, At s.log i e → e.1 ≤ s.time + (l.last - s.layer.last).toNat := fun i e he =>
    (h.past i e he).trans (Nat.le_add_right _ _)
  constructor
  case clock => exact WrappedClock.shown_advance h.clock
  case life => exact hlife ▸ h.life
  case next =>
    rw [show l.nextAps = s.layer.nextAps + 1 from hnext, h.next, ← UInt8.toNat_inj]
    simp [UInt8.toNat_add]
  case numbered =>
    intro i e he
    obtain he | ⟨rfl, rfl⟩ := at_concat.1 he
    · exact h.numbered i e he
    · exact h.next
  case sorted =>
    intro i j e f hij he hf
    obtain hf | ⟨rfl, rfl⟩ := at_concat.1 hf
    · obtain he | ⟨rfl, rfl⟩ := at_concat.1 he
      · exact h.sorted i j e f hij he hf
      · exact absurd (at_lt hf) (by omega)
    · obtain he | ⟨rfl, rfl⟩ := at_concat.1 he
      · exact hnow i e he
      · exact le_refl _
  case past =>
    intro i e he
    obtain he | ⟨rfl, rfl⟩ := at_concat.1 he
    · exact hnow i e he
    · exact le_refl _
  case spaced =>
    intro i e f hi he hf
    rw [hlife]
    obtain hf | ⟨hlast, rfl⟩ := at_concat.1 hf
    · obtain he | ⟨rfl, rfl⟩ := at_concat.1 he
      · exact h.spaced i e f hi he hf
      · exact absurd (at_lt hf) (by omega)
    · obtain he | ⟨hno, -⟩ := at_concat.1 he
      · exact h.elapsed huntil (hlast ▸ hi) hlast he
      · omega
  case waits =>
    intro hw
    have hzero : s.layer.nextAps + 1 = 0 := of_decide_eq_true (hwait.symm.trans hw)
    refine ⟨?_, s.log.length, _, by simp, at_concat.2 (.inr ⟨rfl, rfl⟩), ?_⟩
    · rw [List.length_append, List.length_singleton]
      exact hwrap.1 hzero
    · rw [if_pos hzero] at hcounter
      have hclock := @WrappedClock.shown_advance _ _ l.last h.clock
      rw [show l.counterUntil = l.last + s.layer.duplicateTime from hcounter, hlife, ← WrappedClock.shown_add, hclock]
  case free =>
    intro hf hfull
    rw [List.length_append, List.length_singleton] at hfull
    exact absurd (hwrap.2 hfull) (of_decide_eq_false (hwait.symm.trans hf))

theorem given_refused (c : Call) (l : Layer) {result : Result} (h : result ≠ .ok) : given c (.result result) l = none := by
  unfold given
  split
  next hok => cases hok; exact absurd rfl h
  · rfl

theorem Quarantined.call {s : Counted} (h : Quarantined s) (c : Call) : Quarantined (count link build s c).2 := by
  have hlife := (@perform_called link build s.layer c).duplicateTime
  unfold count
  cases hasks : asks c with
  | none =>
    have hcounting := @perform_counting link build c hasks s.layer
    simp only [given, hasks, Option.toList_none, List.map_nil, List.append_nil]
    exact h.idle hlife hcounting
  | some now =>
    obtain ⟨result, hanswer, hasked⟩ := @perform_asked link build c now hasks s.layer
    generalize perform link build s.layer c = r at hlife hanswer hasked ⊢
    obtain ⟨answer, l⟩ := r
    simp only at hlife hanswer hasked ⊢
    subst hanswer
    cases hasked with
    | refused _ hne _ hcounting =>
      simp only [given_refused c l hne.1, Option.toList_none, List.map_nil, List.append_nil]
      exact h.idle hlife hcounting
    | exhausted _ _ _ _ _ hcounting =>
      simp only [given, hasks, Option.toList_none, List.map_nil, List.append_nil]
      exact h.idle hlife hcounting
    | cleared _ hne hnow _ huntil hcounting =>
      simp only [given_refused c l hne.1, Option.toList_none, List.map_nil, List.append_nil]
      exact h.ended hlife (hnow ▸ huntil) hcounting
    | allocated hnow _ huntil hcounter hcounting =>
      simp only [given, hasks, Option.toList_some, List.map_cons, List.map_nil, hcounter]
      exact h.took hlife (hnow ▸ huntil) (hnow ▸ hcounting)

/-- A new layer has allocated nothing. -/
theorem Quarantined.init {owner : MacTx.IntervalTx} {config : Config} {now : UInt32} {l : Layer}
    (h : init link owner config now = .ok l) : Quarantined (Counted.start l) := by
  have hsound := (init_sound h).1
  have hnone : ∀ i e, ¬At ([] : List (Nat × UInt8)) i e := fun i e he => by simp [At] at he
  have hcounting : l.counting = (0, false, 0) := by
    unfold NwkAps.init at h
    split at h
    · cases h
    split at h
    · cases h
    cases h
    rfl
  obtain ⟨hnext, hrest⟩ := Prod.mk.inj hcounting
  obtain ⟨hwait, -⟩ := Prod.mk.inj hrest
  constructor
  case clock => exact hsound.clock
  case life => exact hsound.duplicateTime
  case next => exact hnext
  case numbered => exact fun i e he => absurd he (hnone i e)
  case sorted => exact fun i j e f _ he _ => absurd he (hnone i e)
  case past => exact fun i e he => absurd he (hnone i e)
  case spaced => exact fun i e f _ he _ => absurd he (hnone i e)
  case waits => exact fun hw => absurd (hw.symm.trans hwait) (by decide)
  case free => exact fun _ _ i e _ he => absurd he (hnone i e)

/-! ## Refusals -/

/-- A request is refused for its counter only within the lifetime of a duplicate of counter 255. -/
def Barred (link : Bool) (build : Build) (s : Counted) (c : Call) : Prop :=
  ∀ now, asks c = some now → (count link build s c).1 = .result .exhausted →
    ∃ e ∈ s.log, e.2 = 255 ∧ s.at now < e.1 + s.layer.duplicateTime.toNat

/-- A request whose slot is free does not meet a quarantine that ended half a range of the clock ago or longer, up
to whole ranges. -/
def Timely (s : Counted) (c : Call) : Prop :=
  ∀ now, asks c = some now → now - s.layer.last < MacTx.half →
    s.layer.queued = false ∧ s.layer.completed = false ∧ s.layer.stopping = false → s.layer.wrapWait = true →
    ∀ e, s.log.getLast? = some e → e.1 + s.layer.duplicateTime.toNat ≤ s.at now →
      (s.at now - (e.1 + s.layer.duplicateTime.toNat)) % 2 ^ 32 < 2 ^ 31

theorem last_at {log : List (Nat × UInt8)} {e : Nat × UInt8} : log.getLast? = some e ↔ ∃ i, i + 1 = log.length ∧ At log i e := by
  rw [List.getLast?_eq_getElem?]
  constructor
  · intro h
    have hlt := at_lt h
    exact ⟨log.length - 1, by omega, h⟩
  · rintro ⟨i, hi, he⟩
    rw [← hi, Nat.add_sub_cancel]
    exact he

/-- Within the quarantine or an odd half range behind it, a request for a counter is refused. -/
theorem exhausted_iff {s : Counted} {c : Call} {now : UInt32} (hasks : asks c = some now) :
    (count link build s c).1 = .result .exhausted ↔
      now - s.layer.last < MacTx.half ∧ (s.layer.queued = false ∧ s.layer.completed = false ∧ s.layer.stopping = false) ∧
        s.layer.wrapWait = true ∧ reached now s.layer.counterUntil = false := by
  obtain ⟨result, hanswer, hasked⟩ := @perform_asked link build c now hasks s.layer
  rw [count, hanswer]
  constructor
  · intro hresult
    obtain rfl : result = .exhausted := by cases hresult; rfl
    cases hasked with
    | refused _ hne _ _ => exact absurd rfl hne.2
    | exhausted hfree _ hclock hwait huntil _ => exact ⟨hclock, hfree, hwait, huntil⟩
    | cleared _ hne _ _ _ _ => exact absurd rfl hne.2
  · rintro ⟨hclock, hfree, hwait, huntil⟩
    cases hasked with
    | refused _ _ hbusy _ => exact absurd ⟨hclock, hfree⟩ hbusy
    | exhausted => rfl
    | cleared _ _ _ _ hreached _ => exact absurd (hreached hwait) (by rw [huntil]; decide)
    | allocated _ _ hreached _ _ => exact absurd (hreached hwait) (by rw [huntil]; decide)

theorem Quarantined.barred_iff {s : Counted} (h : Quarantined s) (c : Call) : Barred link build s c ↔ Timely s c := by
  constructor
  · intro hbarred now hasks hclock hfree hwait e hlast hpast
    by_contra hodd
    obtain ⟨-, i, e', hi, he', huntil⟩ := h.waits hwait
    obtain ⟨i', hi', he⟩ := last_at.1 hlast
    obtain rfl : i' = i := by omega
    obtain rfl : e' = e := Option.some.inj (he'.symm.trans he)
    have hreached : reached now s.layer.counterUntil = false := by
      rw [Bool.eq_false_iff, ne_eq, reached_iff, huntil, ← h.at_clock now, WrappedClock.shown_sub_mod hpast]
      exact hodd
    obtain ⟨f, hf, -, hlt⟩ := hbarred now hasks ((exhausted_iff hasks).2 ⟨hclock, hfree, hwait, hreached⟩)
    obtain ⟨j, hj, hfj⟩ := List.mem_iff_getElem.1 hf
    have hsorted := h.sorted j i' f e' (by omega) (by rw [← hfj]; exact List.getElem?_eq_getElem hj) he
    omega
  · intro htimely now hasks hanswer
    obtain ⟨hclock, hfree, hwait, hreached⟩ := (exhausted_iff hasks).1 hanswer
    obtain ⟨hfull, i, e, hi, he, huntil⟩ := h.waits hwait
    refine ⟨e, List.mem_of_getElem? he, ?_, ?_⟩
    · rw [h.numbered i e he, ← UInt8.toNat_inj]
      simp only [UInt8.toNat_ofNat', show (255 : UInt8).toNat = 255 from rfl]
      omega
    · by_contra hpast
      have hin := htimely now hasks hclock hfree hwait e (last_at.2 ⟨i, hi, he⟩) (by omega)
      rw [← WrappedClock.shown_sub_mod (by omega), h.at_clock, ← huntil, ← reached_iff, hreached] at hin
      cases hin

/-- Equal counters are the lifetime of a duplicate apart in every run, and every refusal for a counter is within
that time of counter 255, exactly as long as no request meets a quarantine that ended half a range ago. -/
theorem counter_quarantine (owner : MacTx.IntervalTx) (config : Config) (now : UInt32) (l : Layer)
    (hinit : init link owner config now = .ok l) (calls : List Call) :
    (∀ i j e f, i < j → At (Runs.run (count link build) (Counted.start l) calls).2.log i e →
      At (Runs.run (count link build) (Counted.start l) calls).2.log j f → e.2 = f.2 →
        e.1 + l.duplicateTime.toNat ≤ f.1) ∧
    (Runs.Meets (count link build) (Barred link build) (Counted.start l) calls ↔
      Runs.Meets (count link build) Timely (Counted.start l) calls) := by
  have hstart := Quarantined.init hinit
  have hrun := Runs.state_invariant (count link build)
    (fun s => Quarantined s ∧ s.layer.duplicateTime = l.duplicateTime) (Counted.start l) ⟨hstart, rfl⟩
    (fun s c h => ⟨h.1.call c, (@perform_called link build s.layer c).duplicateTime.trans h.2⟩) calls
  refine ⟨fun i j e f hij he hf heq => hrun.2 ▸ hrun.1.apart hij he hf heq, ?_, ?_⟩
  · exact Runs.meets_imp _ _ _ Quarantined (fun s c h _ => h.call c) (fun s c h hb => (h.barred_iff c).1 hb) _ hstart calls
  · exact Runs.meets_imp _ _ _ Quarantined (fun s c h _ => h.call c) (fun s c h ht => (h.barred_iff c).2 ht) _ hstart calls

/-- A request for a key that the key owner refuses, and its confirmation. -/
def refusedRequest : List Call :=
  let keys : Keys := {
    status := .error .state, send := fun _ _ => .error .state, leave := fun _ => .error .state
    request := fun _ _ => .error .state, verify := fun _ _ => .error .state, final := .error .state }
  [.keyExchange 1 0, .step 0 none keys, .confirm]

theorem counter_quarantine_refusedRequest :
    ∃ l, init false (MacTx.intervalInit 0 0) settings 0 = .ok l ∧
      (Runs.Meets (count false .plain) (Barred false .plain) (Counted.start l) refusedRequest ↔
        Runs.Meets (count false .plain) Timely (Counted.start l) refusedRequest) :=
  ⟨_, rfl, (counter_quarantine (MacTx.intervalInit 0 0) settings 0 _ rfl refusedRequest).2⟩

/-- Every counter is used once, and half a range of the clock passes without a request for one. -/
def longIdle : List Call := (List.replicate 256 refusedRequest).flatten ++ [.cancel 0x7fffffff]

set_option maxRecDepth 100000 in
theorem longIdle_end :
    ∃ l, init false (MacTx.intervalInit 0 0) settings 0 = .ok l ∧ l.duplicateTime < 0x400000 ∧
      let s := (Runs.run (count false .plain) (Counted.start l) longIdle).2
      s.layer.last = 0x7fffffff ∧ s.time = 0x7fffffff ∧ s.layer.duplicateTime = l.duplicateTime ∧
        (s.layer.queued = false ∧ s.layer.completed = false ∧ s.layer.stopping = false) ∧ s.layer.wrapWait = true ∧
        s.log.getLast? = some (0, 255) := by
  refine ⟨_, rfl, ?_⟩
  decide +kernel

/-- The request behind the long idle time is refused, though counter 255 is half a range of the clock old. -/
theorem counter_barred_again :
    ∃ l, init false (MacTx.intervalInit 0 0) settings 0 = .ok l ∧
      ¬Runs.Meets (count false .plain) (Barred false .plain) (Counted.start l)
        (longIdle ++ [.keyExchange 1 0x80400000]) := by
  obtain ⟨l, hinit, hlife, hclock, htime, hsame, hfree, hwait, hlast⟩ := longIdle_end
  refine ⟨l, hinit, fun h => ?_⟩
  have hquarantined := Runs.state_invariant (count false .plain) Quarantined (Counted.start l) (.init hinit)
    (fun s c h => h.call c) longIdle
  have hbarred := Runs.Meets.last _ h
  generalize (Runs.run (count false .plain) (Counted.start l) longIdle).2 = s at *
  have htimely := (hquarantined.barred_iff _).1 hbarred 0x80400000 rfl (by rw [hclock]; decide) hfree hwait _ hlast
  have hat : s.at 0x80400000 = 0x80400000 := by
    rw [Counted.at, hclock, htime]
    rfl
  have hshort : s.layer.duplicateTime.toNat < 0x400000 := by
    rw [hsame]
    exact UInt32.lt_iff_toNat_lt.1 hlife
  rw [hat] at htimely
  have := htimely (by omega)
  omega

end NwkAps
