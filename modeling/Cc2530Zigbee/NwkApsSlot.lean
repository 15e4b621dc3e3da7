import Cc2530Zigbee.NwkApsMoves

/-!
# The request in the slot

A request is tried at most once for each retry, waits for its acknowledgment
after a try, and leaves the slot through a completion. The acknowledgments and
polls that share the transmitter do not touch it.
-/
namespace NwkAps

open Octets
open EdWire (Packet)
open MacTx (IntervalEvent reached)

variable {link : Bool} {build : Build}

/-- The transmitter works for the request in the slot. -/
def application (l : Layer) : Bool := l.active && !l.activeAck && !l.activePoll

/-- A try of the request is on its way, or waits for its acknowledgment. -/
def tried (l : Layer) : Bool := l.waiting || application l

/-- The request asks for an acknowledgment of the APS layer. -/
def wantsAck (l : Layer) : Bool := l.special == 0 && asksAck l.outgoing

/-- An acknowledgment as it came: the try it came in, whether that try had been on the air,
the layer it met and what the key owner admitted. -/
structure Evidence where
  attempt : Nat
  aired : Bool
  layer : Layer
  received : SecurityKeys.Received

/-- What is known of the request in the slot since it was accepted. -/
structure Track where
  counter : UInt8
  attempts : Nat
  aired : Bool
  acks : List Evidence

/-- The evidence is an acknowledgment of the request, for its current try. -/
structure Evidence.Proves (e : Evidence) (l : Layer) (t : Track) : Prop where
  attempt : e.attempt = t.attempts
  aired : e.aired = true
  matched : acknowledgmentMatches e.layer e.received.packet = true
  secured : e.layer.secure = true → e.received.apsSecured = true
  outgoing : e.layer.outgoing = l.outgoing
  secure : e.layer.secure = l.secure
  transactionUntil : e.layer.transactionUntil = l.transactionUntil

/-- The slot, and what is known of its request. -/
structure Fit (l : Layer) (t : Track) : Prop where
  one : l.queued = true → l.completed = false
  waits : l.waiting = true → l.queued = true
  serves : application l = true → l.queued = true ∧ l.waiting = false
  ends : l.cancel = true → l.cancelResult ≠ .ok
  retries : l.retries ≤ maxRetries
  spent : l.queued = true → t.attempts = l.retries.toNat + if tried l then 1 else 0
  bounded : t.attempts ≤ 4
  counter : l.queued = true → l.outgoing.aps.counter = t.counter
  sent : l.queued = true → l.sent = true → t.aired = true ∧ tried l = true
  acked : l.queued = true → l.seenAck = true → tried l = true ∧ ∃ e ∈ t.acks, e.Proves l t

/-! ## Calls that leave the slot alone -/

/-- The slot is as before. -/
structure Same (l l' : Layer) : Prop where
  queued : l'.queued = l.queued
  completed : l'.completed = l.completed
  result : l'.result = l.result
  waiting : l'.waiting = l.waiting
  application : application l' = application l
  cancel : l'.cancel = l.cancel
  cancelResult : l'.cancelResult = l.cancelResult
  retries : l'.retries = l.retries
  outgoing : l'.outgoing = l.outgoing
  sent : l'.sent = l.sent
  seenAck : l'.seenAck = l.seenAck
  secure : l'.secure = l.secure
  special : l'.special = l.special
  transactionUntil : l'.transactionUntil = l.transactionUntil

theorem Same.refl (l : Layer) : Same l l := by
  constructor <;> rfl

theorem Same.trans {a b c : Layer} (h : Same a b) (g : Same b c) : Same a c where
  queued := g.queued.trans h.queued
  completed := g.completed.trans h.completed
  result := g.result.trans h.result
  waiting := g.waiting.trans h.waiting
  application := g.application.trans h.application
  cancel := g.cancel.trans h.cancel
  cancelResult := g.cancelResult.trans h.cancelResult
  retries := g.retries.trans h.retries
  outgoing := g.outgoing.trans h.outgoing
  sent := g.sent.trans h.sent
  seenAck := g.seenAck.trans h.seenAck
  secure := g.secure.trans h.secure
  special := g.special.trans h.special
  transactionUntil := g.transactionUntil.trans h.transactionUntil

theorem Same.tried {l l' : Layer} (h : Same l l') : tried l' = tried l := by
  simp [NwkAps.tried, h.waiting, h.application]

theorem Evidence.Proves.same {e : Evidence} {l l' : Layer} {t : Track} (h : e.Proves l t)
    (ho : l'.outgoing = l.outgoing) (hs : l'.secure = l.secure) (hu : l'.transactionUntil = l.transactionUntil) :
    e.Proves l' t :=
  ⟨h.attempt, h.aired, h.matched, h.secured, h.outgoing.trans ho.symm, h.secure.trans hs.symm,
    h.transactionUntil.trans hu.symm⟩

theorem Fit.same {l l' : Layer} {t : Track} (h : Fit l t) (g : Same l l') : Fit l' t where
  one := by
    rw [g.queued, g.completed]
    exact h.one
  waits := by
    rw [g.queued, g.waiting]
    exact h.waits
  serves := by
    rw [g.queued, g.waiting, g.application]
    exact h.serves
  ends := by
    rw [g.cancel, g.cancelResult]
    exact h.ends
  retries := g.retries ▸ h.retries
  spent := by
    rw [g.queued, g.retries, g.tried]
    exact h.spent
  bounded := h.bounded
  counter := by
    rw [g.queued, g.outgoing]
    exact h.counter
  sent := by
    rw [g.queued, g.sent, g.tried]
    exact h.sent
  acked := by
    intro hq hs
    rw [g.queued] at hq
    rw [g.seenAck] at hs
    rw [g.tried]
    obtain ⟨htried, e, he, hproves⟩ := h.acked hq hs
    exact ⟨htried, e, he, hproves.same g.outgoing g.secure g.transactionUntil⟩

/-! ## Cancelling and completing -/

/-- A request may be marked for a cancellation at any time. -/
theorem Fit.cancel {l : Layer} {t : Track} (h : Fit l t) (flag : Bool) (result : Result) (hr : result ≠ .ok) :
    Fit { l with cancel := flag, cancelResult := result } t where
  one := h.one
  waits := h.waits
  serves := h.serves
  ends := fun _ => hr
  retries := h.retries
  spent := h.spent
  bounded := h.bounded
  counter := h.counter
  sent := h.sent
  acked := by
    intro hq hs
    obtain ⟨htried, e, he, hproves⟩ := h.acked hq hs
    exact ⟨htried, e, he, hproves.same rfl rfl rfl⟩

theorem complete_queued (t : Transport) (result : Result) (status : Except SecurityKeys.Result SecurityKeys.Status) :
    (complete t result status).queued = false ∧ (complete t result status).waiting = false ∧
      (complete t result status).completed = true ∧ (complete t result status).result = result ∧
      (complete t result status).cancel = false ∧ (complete t result status).retries = t.retries := by
  unfold complete
  simp only
  split
  · exact ⟨rfl, rfl, rfl, rfl, rfl, rfl⟩
  split
  · exact ⟨rfl, rfl, rfl, rfl, rfl, rfl⟩
  split <;> exact ⟨rfl, rfl, rfl, rfl, rfl, rfl⟩

theorem complete_keeps (t : Transport) (result : Result) (status : Except SecurityKeys.Result SecurityKeys.Status) :
    (complete t result status).seenAck = t.seenAck ∧ (complete t result status).outgoing = t.outgoing ∧
      (complete t result status).special = t.special := by
  unfold complete
  simp only
  split
  · exact ⟨rfl, rfl, rfl⟩
  split
  · exact ⟨rfl, rfl, rfl⟩
  split <;> exact ⟨rfl, rfl, rfl⟩

/-- With no request in the slot little is to be known. -/
theorem Fit.empty {l : Layer} {t : Track} (hq : l.queued = false) (hw : l.waiting = false)
    (ha : application l = false) (hc : l.cancel = true → l.cancelResult ≠ .ok) (hr : l.retries ≤ maxRetries)
    (hb : t.attempts ≤ 4) : Fit l t where
  one := by simp [hq]
  waits := by simp [hw]
  serves := by simp [ha]
  ends := hc
  retries := hr
  spent := by simp [hq]
  bounded := hb
  counter := by simp [hq]
  sent := by simp [hq]
  acked := by simp [hq]

/-- A completion empties the slot, once the transmitter is done with the request. -/
theorem Fit.complete {l : Layer} {t : Track} (hr : l.retries ≤ maxRetries) (hb : t.attempts ≤ 4)
    (ha : application l = false) (result : Result) (status : Except SecurityKeys.Result SecurityKeys.Status) :
    Fit { l with toTransport := NwkAps.complete l.toTransport result status } t := by
  obtain ⟨hq, hw, -, -, hc, hr'⟩ := complete_queued l.toTransport result status
  refine .empty hq hw ha ?_ ?_ hb
  · intro h
    rw [hc] at h
    cases h
  · rw [hr']
    exact hr

/-! ## What becomes of the slot -/

/-- The slot is left alone, or its request is completed: with success only if it wanted no acknowledgment
or had seen it. -/
inductive Turn (l l' : Layer) : Prop where
  | stays (queued : l'.queued = l.queued) (completed : l'.completed = l.completed) (result : l'.result = l.result)
  | ends (queued : l.queued = true) (gone : l'.queued = false) (completed : l'.completed = true)
      (earned : l'.result = .ok → wantsAck l = true → l.seenAck = true)

theorem Same.turn {l l' : Layer} (h : Same l l') : Turn l l' := .stays h.queued h.completed h.result

theorem turn_complete {l : Layer} {result : Result} {status : Except SecurityKeys.Result SecurityKeys.Status}
    (hq : l.queued = true) (h : result = .ok → wantsAck l = true → l.seenAck = true) :
    Turn l { l with toTransport := complete l.toTransport result status } := by
  obtain ⟨hgone, -, hc, hr, -, -⟩ := complete_queued l.toTransport result status
  refine .ends hq hgone hc ?_
  rw [hr]
  exact h

/-- A turn that begins like another one. -/
theorem Turn.begins {a b c : Layer} (h : Turn b c) (hqueued : b.queued = a.queued) (hcompleted : b.completed = a.completed)
    (hresult : b.result = a.result) (hseen : b.seenAck = a.seenAck) (hwants : wantsAck b = wantsAck a) : Turn a c := by
  cases h with
  | stays hq hc hr => exact .stays (hq.trans hqueued) (hc.trans hcompleted) (hr.trans hresult)
  | ends hq hgone hc he =>
    refine .ends (hqueued ▸ hq) hgone hc ?_
    rw [← hseen, ← hwants]
    exact he

theorem Same.wantsAck {l l' : Layer} (h : Same l l') : wantsAck l' = wantsAck l := by
  rw [NwkAps.wantsAck, h.special, h.outgoing]
  rfl

theorem Turn.of_same {a b c : Layer} (h : Turn b c) (g : Same a b) : Turn a c :=
  h.begins g.queued g.completed g.result g.seenAck g.wantsAck

theorem Turn.same {a b c : Layer} (h : Turn a b) (g : Same b c) : Turn a c := by
  cases h with
  | stays hq hc hr => exact .stays (g.queued.trans hq) (g.completed.trans hc) (g.result.trans hr)
  | ends hq hgone hc he => exact .ends hq (g.queued.trans hgone) (g.completed.trans hc) (g.result ▸ he)

/-! ## The transmitter at work -/

/-- What one piece of a step does to the slot. -/
structure Piece (t : Track) (l l' : Layer) : Prop where
  fit : Fit l' t
  turn : Turn l l'
  seen : l'.seenAck = true → l.seenAck = true
  wants : wantsAck l' = wantsAck l

theorem Same.piece {l l' : Layer} {t : Track} (h : Same l l') (hf : Fit l t) : Piece t l l' :=
  ⟨hf.same h, h.turn, fun hs => h.seenAck ▸ hs, h.wantsAck⟩

/-- Two pieces in a row: a request that has ended does not end again. -/
theorem Piece.trans {a b c : Layer} {t u : Track} (h : Piece t a b) (g : Piece u b c) : Piece u a c := by
  refine ⟨g.fit, ?_, fun hs => h.seen (g.seen hs), g.wants.trans h.wants⟩
  cases h.turn with
  | stays hq hc hr =>
    cases g.turn with
    | stays gq gc gr => exact .stays (gq.trans hq) (gc.trans hc) (gr.trans hr)
    | ends gq ggone gc ge => exact .ends (hq ▸ gq) ggone gc fun hok hw => h.seen (ge hok (h.wants.trans hw))
  | ends hq hgone hc he =>
    cases g.turn with
    | stays gq gc gr => exact .ends hq (gq.trans hgone) (gc.trans hc) (gr ▸ he)
    | ends gq _ _ _ =>
      rw [hgone] at gq
      cases gq

/-- The transmitter is released. -/
def freed (l : Layer) (owner : MacTx.IntervalTx) (armed : Bool) (armIssued : UInt8) : Layer :=
  { l with owner := owner, active := false, armed := armed, armIssued := armIssued }

/-- A transmission for the request that is over: the request ends, or waits. -/
theorem finished_piece {l : Layer} {t : Track} (h : Fit l t) (hactive : l.active = true) (owner : MacTx.IntervalTx)
    (armed : Bool) (armIssued : UInt8) (outcome : MacTx.Outcome) (now : UInt32) (k : Keys) :
    Piece t l (finished (freed l owner armed armIssued) outcome now k).2 := by
  unfold finished freed
  simp only
  -- Free of an acknowledgment or a poll, the transmitter is as little at the request as before.
  have hfree : application l = false → ∀ l', l'.active = false → application l' = application l := by
    intro happ l' h
    rw [happ]
    simp [application, h]
  by_cases hack : l.activeAck = true
  · have happ := hfree (by simp [application, hack])
    rw [if_pos hack]
    split <;> exact Same.piece ⟨rfl, rfl, rfl, rfl, happ _ rfl, rfl, rfl, rfl, rfl, rfl, rfl, rfl, rfl, rfl⟩ h
  rw [if_neg hack]
  by_cases hpoll : l.activePoll = true
  · have happ := hfree (by simp [application, hpoll])
    rw [if_pos hpoll]
    exact Same.piece ⟨rfl, rfl, rfl, rfl, happ _ rfl, rfl, rfl, rfl, rfl, rfl, rfl, rfl, rfl, rfl⟩ h
  rw [if_neg hpoll]
  have happ : application l = true := by simp [application, hactive, hack, hpoll]
  obtain ⟨hqueued, hwaiting⟩ := h.serves happ
  have hretries : (freed l owner armed armIssued).retries ≤ maxRetries := h.retries
  have hidle : application (freed l owner armed armIssued) = false := by simp [application, freed]
  have hempty : ∀ result status, Fit { freed l owner armed armIssued with
      toTransport := complete (freed l owner armed armIssued).toTransport result status } t :=
    fun result status => .complete hretries h.bounded hidle result status
  have hturn : ∀ (result : Result) (status), (result = .ok → wantsAck l = true → l.seenAck = true) →
      Turn l { freed l owner armed armIssued with
        toTransport := complete (freed l owner armed armIssued).toTransport result status } := by
    intro result status hr
    obtain ⟨hgone, -, hc, hresult, -, -⟩ := complete_queued l.toTransport result status
    refine .ends hqueued hgone hc fun hok => hr ?_
    exact hresult.symm.trans hok
  have hdone : ∀ (result : Result) (status), (result = .ok → wantsAck l = true → l.seenAck = true) →
      Piece t l { freed l owner armed armIssued with
        toTransport := complete (freed l owner armed armIssued).toTransport result status } := by
    intro result status hr
    obtain ⟨hs, ho, hp⟩ := complete_keeps l.toTransport result status
    refine ⟨hempty result status, hturn result status hr, fun h => hs.symm.trans h, ?_⟩
    simp only [wantsAck, freed, ho, hp]
  split
  · rename_i hcancel
    exact hdone _ _ fun hok => absurd hok (h.ends hcancel)
  split
  · exact hdone _ _ fun hok => by cases hok
  split
  · -- The try is over and its acknowledgment has not come yet.
    rename_i hwants
    refine ⟨?_, .stays rfl rfl rfl, fun hs => hs, rfl⟩
    have hspent := h.spent hqueued
    simp only [tried, happ, Bool.or_true, if_true] at hspent
    refine ⟨h.one, fun _ => hqueued, fun happ' => ?_, h.ends, h.retries, fun _ => ?_, h.bounded, h.counter,
      fun _ hsent => ⟨(h.sent hqueued hsent).1, rfl⟩, fun _ hseen => ?_⟩
    · simp [application] at happ'
    · simpa [tried] using hspent
    · rw [hseen] at hwants
      simp at hwants
  · rename_i hno
    refine hdone _ _ fun _ hwants => ?_
    by_contra hseen
    refine hno ?_
    simp only [wantsAck, asksAck, Bool.and_eq_true, beq_iff_eq] at hwants
    exact ⟨hwants.1, hwants.2.2, hwants.2.1, by simpa using hseen⟩

theorem arm_same (l : Layer) : Same l (arm l).1 := by
  constructor <;> rfl

theorem Fit.air {l : Layer} {t : Track} (h : Fit l t) (aired : Bool) : Fit l { t with aired := t.aired || aired } where
  one := h.one
  waits := h.waits
  serves := h.serves
  ends := h.ends
  retries := h.retries
  spent := h.spent
  bounded := h.bounded
  counter := h.counter
  sent := by
    intro hq hs
    obtain ⟨haired, htried⟩ := h.sent hq hs
    exact ⟨by simp [haired], htried⟩
  acked := by
    intro hq hs
    obtain ⟨htried, e, he, hp⟩ := h.acked hq hs
    exact ⟨htried, e, he, hp.attempt, hp.aired, hp.matched, hp.secured, hp.outgoing, hp.secure, hp.transactionUntil⟩

/-- A transmission of the request has been on the air. -/
theorem Fit.sending {l : Layer} {t : Track} (h : Fit l t) (happ : application l = true) (haired : t.aired = true) :
    Fit { l with sent := true } t where
  one := h.one
  waits := h.waits
  serves := h.serves
  ends := h.ends
  retries := h.retries
  spent := h.spent
  bounded := h.bounded
  counter := h.counter
  sent := by
    intro _ _
    refine ⟨haired, ?_⟩
    have happ' : application { l with sent := true } = true := happ
    simp [tried, happ']
  acked := by
    intro hq hs
    obtain ⟨htried, e, he, hproves⟩ := h.acked hq hs
    exact ⟨htried, e, he, hproves.same rfl rfl rfl⟩

theorem stepped_piece {l : Layer} {t : Track} (h : Fit l t) (hactive : l.active = true)
    (haired : application l = true → l.owner.engine.transmissions ≠ 0 → t.aired = true) (output : Output)
    (now : UInt32) (k : Keys) : Piece t l (stepped link l output now k).2.1 := by
  unfold stepped
  simp only
  generalize harm : (if link ∧ l.owner.engine.phase = .draw ∧ !stopsNow l then arm l else (l, output)) = a
  have ha : Same l a.1 ∧ a.1.active = true ∧ a.1.activeAck = l.activeAck ∧ a.1.activePoll = l.activePoll := by
    rw [← harm]
    split
    · exact ⟨arm_same l, hactive, rfl, rfl⟩
    · exact ⟨.refl l, hactive, rfl, rfl⟩
  generalize hsent : (if (!a.1.activeAck) = true ∧ (!a.1.activePoll) = true ∧ l.owner.engine.transmissions ≠ 0 then
    { a.1 with sent := true } else a.1) = b
  have hb : Piece t l b ∧ b.active = true := by
    rw [← hsent]
    split
    · rename_i hair
      have happ : application l = true := by
        simp only [application, hactive, ← ha.2.2.1, ← ha.2.2.2, hair.1, hair.2.1, Bool.and_self]
      have hfit := (h.same ha.1).sending (ha.1.application.trans happ) (haired happ hair.2.2)
      exact ⟨⟨hfit, .stays ha.1.queued ha.1.completed ha.1.result, fun hs => ha.1.seenAck ▸ hs, ha.1.wantsAck⟩, ha.2.1⟩
    · exact ⟨ha.1.piece h, ha.2.1⟩
  split
  · have hsame : Same b { b with ready := false, error := .mac l.owner.engine.outcome } := by constructor <;> rfl
    exact hb.1.trans (hsame.piece hb.1.fit)
  split
  · exact hb.1
  split
  · split
    · have hsame : Same b { b with armIssued := 2 } := by constructor <;> rfl
      exact hb.1.trans (hsame.piece hb.1.fit)
    · exact hb.1
  split
  · have hsame : Same b { b with owner := { b.owner with engine := (MacTx.release l.owner.engine).2 } } := by
      constructor <;> rfl
    exact hb.1.trans (hsame.piece hb.1.fit)
  · have hfinished : ∀ armed armIssued, Piece t l (finished (freed b
        { b.owner with engine := (MacTx.release l.owner.engine).2 } armed armIssued) l.owner.engine.outcome now k).2 := by
      intro armed armIssued
      exact hb.1.trans (finished_piece hb.1.fit hb.2 _ armed armIssued l.owner.engine.outcome now k)
    cases link with
    | true => exact hfinished false 0
    | false => exact hfinished b.armed b.armIssued

theorem drive_piece {l : Layer} {t : Track} (h : Fit l t) (hactive : l.active = true) (now : UInt32)
    (event : Option IntervalEvent) (k : Keys)
    (haired : application l = true → (macStep link l.owner now event).2.1.engine.transmissions ≠ 0 → t.aired = true) :
    Piece t l (drive link l now event k).2.1 := by
  have hsame : Same l { l with owner := (macStep link l.owner now event).2.1 } := by constructor <;> rfl
  unfold drive
  simp only
  split
  · exact hsame.piece h
  · have hpiece := @stepped_piece link _ t (h.same hsame) hactive haired (macStep link l.owner now event).2.2 now k
    exact (hsame.piece h).trans hpiece

/-- The number of transmissions stands until the next submission. -/
theorem finished_engine (l : Layer) (outcome : MacTx.Outcome) (now : UInt32) (k : Keys) :
    (finished l outcome now k).2.owner = l.owner := by
  unfold finished
  simp only
  split
  · split <;> rfl
  split
  · rfl
  split
  · rfl
  split
  · rfl
  split <;> rfl

theorem release_transmissions (tx : MacTx.Tx) : (MacTx.release tx).2.transmissions = tx.transmissions := by
  unfold MacTx.release
  split <;> rfl

theorem stepped_transmissions (l : Layer) (output : Output) (now : UInt32) (k : Keys) :
    (stepped link l output now k).2.1.owner.engine.transmissions = l.owner.engine.transmissions := by
  unfold stepped
  simp only
  generalize harm : (if link ∧ l.owner.engine.phase = .draw ∧ !stopsNow l then arm l else (l, output)) = a
  have ha : a.1.owner = l.owner := by
    rw [← harm]
    split <;> rfl
  generalize hsent : (if (!a.1.activeAck) = true ∧ (!a.1.activePoll) = true ∧ l.owner.engine.transmissions ≠ 0 then
    { a.1 with sent := true } else a.1) = b
  have hb : b.owner = l.owner := by
    rw [← hsent, ← ha]
    split <;> rfl
  split
  · exact congrArg (·.engine.transmissions) hb
  split
  · exact congrArg (·.engine.transmissions) hb
  split
  · split <;> exact congrArg (·.engine.transmissions) hb
  split
  · exact release_transmissions _
  · rw [finished_engine]
    cases link <;> exact release_transmissions _

theorem drive_transmissions (l : Layer) (now : UInt32) (event : Option IntervalEvent) (k : Keys) :
    (drive link l now event k).2.1.owner.engine.transmissions =
      (macStep link l.owner now event).2.1.engine.transmissions := by
  unfold drive
  simp only
  split
  · rfl
  · exact stepped_transmissions _ _ now k

theorem stepActive_piece {l : Layer} {t : Track} (h : Fit l t) (hactive : l.active = true) (now : UInt32)
    (event : Option IntervalEvent) (k : Keys) (haired : application l = true →
      (stepActive link l now event k).2.1.owner.engine.transmissions ≠ 0 → t.aired = true) :
    Piece t l (stepActive link l now event k).2.1 := by
  unfold stepActive at haired ⊢
  split
  · simp only
    split
    · exact (arm_same l).piece h
    · exact (Same.refl l).piece h
  rename_i hdraw
  rw [if_neg hdraw] at haired
  split
  · rename_i hcancel
    rw [if_pos hcancel, drive_transmissions] at haired
    have hsame : Same l { l with cancelSent := true } := by constructor <;> rfl
    exact (hsame.piece h).trans (drive_piece (h.same hsame) hactive now (some (cancellation l now)) k haired)
  · rename_i hcancel
    rw [if_neg hcancel, drive_transmissions] at haired
    exact drive_piece h hactive now event k haired

/-! ## The transmitter is free -/

theorem idle_application {l : Layer} (h : l.active = false) : application l = false := by simp [application, h]

theorem complete_piece {l : Layer} {t : Track} (h : Fit l t) (hidle : l.active = false) (hq : l.queued = true)
    {result : Result} (hr : result = .ok → wantsAck l = true → l.seenAck = true)
    (status : Except SecurityKeys.Result SecurityKeys.Status) :
    Piece t l { l with toTransport := complete l.toTransport result status } := by
  obtain ⟨hs, ho, hp⟩ := complete_keeps l.toTransport result status
  refine ⟨.complete h.retries h.bounded (idle_application hidle) result status, turn_complete hq hr,
    fun h => hs.symm.trans h, ?_⟩
  simp only [wantsAck, ho, hp]

/-- The request is completed if there is one. -/
def dropped (l : Layer) (k : Keys) : Layer :=
  if l.queued then { l with toTransport := complete l.toTransport .cancelled k.final } else l

def silenced (l : Layer) : Layer :=
  { (if l.reply then ({ l with reply := false, replyResult := .cancelled } : Layer) else l) with poll := 0 }

theorem stopped_eq (l : Layer) (k : Keys) :
    stopped l k = { dropped (silenced l) k with stopping := false, cancel := false, cancelSent := false } := rfl

theorem silenced_same (l : Layer) : Same l (silenced l) ∧ (silenced l).active = l.active := by
  unfold silenced
  split <;> exact ⟨by constructor <;> rfl, rfl⟩

theorem dropped_piece {l : Layer} {t : Track} (h : Fit l t) (hidle : l.active = false) (k : Keys) :
    Piece t l (dropped l k) ∧ (dropped l k).queued = false ∧ (dropped l k).active = false := by
  unfold dropped
  split
  · rename_i hq
    exact ⟨complete_piece h hidle hq (fun hok => by cases hok) k.final, (complete_queued _ _ _).1, hidle⟩
  · rename_i hq
    exact ⟨(Same.refl l).piece h, by simpa using hq, hidle⟩

theorem stopped_piece {l : Layer} {t : Track} (h : Fit l t) (hidle : l.active = false) (k : Keys) :
    Piece t l (stopped l k) := by
  obtain ⟨hsame, hactive⟩ := silenced_same l
  rw [stopped_eq]
  obtain ⟨hpiece, hq, hfree⟩ := dropped_piece (h.same hsame) (hactive.trans hidle) k
  have hpiece := (hsame.piece h).trans hpiece
  have hfit := hpiece.fit
  generalize dropped (silenced l) k = m at *
  have hwaiting : m.waiting = false := by
    by_contra hw
    have := hfit.waits (by simpa using hw)
    simp [hq] at this
  have hlast : Fit { m with stopping := false, cancel := false, cancelSent := false } t :=
    .empty hq hwaiting (idle_application hfree) (fun h => by cases h) hfit.retries hfit.bounded
  refine ⟨hlast, ?_, hpiece.seen, hpiece.wants⟩
  cases hpiece.turn with
  | stays hq hc hr => exact .stays hq hc hr
  | ends hq hgone hc he => exact .ends hq hgone hc he

/-- A cancelled request is completed. -/
def retired (l : Layer) (k : Keys) : Layer :=
  if l.cancel ∧ l.queued then { l with toTransport := complete l.toTransport l.cancelResult k.final } else l

/-- An acknowledged request is completed. -/
def answered (l : Layer) (k : Keys) : Layer :=
  if l.waiting ∧ l.seenAck then { l with toTransport := complete l.toTransport .ok k.final } else l

/-- A request that has waited long enough is tried again or given up. -/
def overdue (l : Layer) (now : UInt32) (k : Keys) : Layer :=
  if l.waiting ∧ reached now l.deadline then
    let l := { l with waiting := false }
    if l.retries = maxRetries then { l with toTransport := complete l.toTransport .timeout k.final }
    else { l with retries := l.retries + 1, sent := false, seenAck := false }
  else l

theorem settled_eq (l : Layer) (now : UInt32) (k : Keys) : settled l now k = overdue (answered (retired l k) k) now k := rfl

theorem retired_piece {l : Layer} {t : Track} (h : Fit l t) (hidle : l.active = false) (k : Keys) :
    Piece t l (retired l k) ∧ (retired l k).active = false := by
  unfold retired
  split
  · rename_i hc
    exact ⟨complete_piece h hidle hc.2 (fun hok => absurd hok (h.ends hc.1)) k.final, hidle⟩
  · exact ⟨(Same.refl l).piece h, hidle⟩

theorem answered_piece {l : Layer} {t : Track} (h : Fit l t) (hidle : l.active = false) (k : Keys) :
    Piece t l (answered l k) ∧ (answered l k).active = false := by
  unfold answered
  split
  · rename_i hs
    exact ⟨complete_piece h hidle (h.waits hs.1) (fun _ _ => hs.2) k.final, hidle⟩
  · exact ⟨(Same.refl l).piece h, hidle⟩

theorem succ_retries {r : UInt8} (h : r ≤ maxRetries) (hne : r ≠ maxRetries) :
    r + 1 ≤ maxRetries ∧ (r + 1).toNat = r.toNat + 1 := by
  have hle : r.toNat ≤ 3 := UInt8.le_iff_toNat_le.mp h
  have hlt : r.toNat ≠ 3 := fun he => hne (UInt8.toNat_inj.mp he)
  have hsucc : (r + 1).toNat = r.toNat + 1 := by
    rw [UInt8.toNat_add]
    simp
    omega
  refine ⟨UInt8.le_iff_toNat_le.mpr ?_, hsucc⟩
  rw [hsucc]
  have : maxRetries.toNat = 3 := rfl
  omega

theorem overdue_piece {l : Layer} {t : Track} (h : Fit l t) (hidle : l.active = false) (now : UInt32) (k : Keys) :
    Piece t l (overdue l now k) ∧ (overdue l now k).active = false := by
  unfold overdue
  split
  · rename_i hw
    have hqueued := h.waits hw.1
    simp only
    split
    · obtain ⟨hgone, -, hc, hr, -, -⟩ := complete_queued { l.toTransport with waiting := false } .timeout k.final
      obtain ⟨hs, ho, hp⟩ := complete_keeps { l.toTransport with waiting := false } .timeout k.final
      refine ⟨⟨.complete h.retries h.bounded (idle_application hidle) _ _, ?_, fun h => hs.symm.trans h, ?_⟩, hidle⟩
      · refine .ends hqueued hgone hc fun hok => ?_
        rw [hr] at hok
        cases hok
      · simp only [wantsAck, ho, hp]
    · -- The try is spent, the next one has not begun.
      rename_i hne
      obtain ⟨hle, hsucc⟩ := succ_retries h.retries hne
      have happ := idle_application hidle
      refine ⟨⟨⟨h.one, fun hf => (by cases hf), fun hf => ?_, h.ends, hle, fun _ => ?_, h.bounded, h.counter,
        fun _ hf => (by cases hf), fun _ hf => (by cases hf)⟩, .stays rfl rfl rfl, fun hf => (by cases hf), rfl⟩, hidle⟩
      · have hidle' : application l = true := hf
        rw [happ] at hidle'
        cases hidle'
      · have hspent := h.spent hqueued
        simp only [tried, hw.1, Bool.true_or, if_true] at hspent
        have hnot : tried { l with waiting := false, retries := l.retries + 1, sent := false, seenAck := false } = false := by
          simp only [tried, Bool.false_or]
          exact happ
        rw [hnot, hspent, hsucc]
        rfl
  · exact ⟨(Same.refl l).piece h, hidle⟩

theorem settled_piece {l : Layer} {t : Track} (h : Fit l t) (hidle : l.active = false) (now : UInt32) (k : Keys) :
    Piece t l (settled l now k) ∧ (settled l now k).active = false := by
  rw [settled_eq]
  obtain ⟨hretired, hfree⟩ := retired_piece h hidle k
  obtain ⟨hanswered, hfree⟩ := answered_piece hretired.fit hfree k
  obtain ⟨hoverdue, hfree⟩ := overdue_piece hanswered.fit hfree now k
  exact ⟨(hretired.trans hanswered).trans hoverdue, hfree⟩

/-! ## A try -/

/-- The slot as before, but for the header the packet is sent with. -/
structure Near (l l' : Layer) : Prop where
  queued : l'.queued = l.queued
  completed : l'.completed = l.completed
  result : l'.result = l.result
  waiting : l'.waiting = l.waiting
  active : l'.active = l.active
  cancel : l'.cancel = l.cancel
  cancelResult : l'.cancelResult = l.cancelResult
  retries : l'.retries = l.retries
  seenAck : l'.seenAck = l.seenAck
  reply : l'.reply = l.reply
  counter : l'.outgoing.aps.counter = l.outgoing.aps.counter
  wants : wantsAck l' = wantsAck l

theorem Near.trans {a b c : Layer} (h : Near a b) (g : Near b c) : Near a c where
  queued := g.queued.trans h.queued
  completed := g.completed.trans h.completed
  result := g.result.trans h.result
  waiting := g.waiting.trans h.waiting
  active := g.active.trans h.active
  cancel := g.cancel.trans h.cancel
  cancelResult := g.cancelResult.trans h.cancelResult
  retries := g.retries.trans h.retries
  seenAck := g.seenAck.trans h.seenAck
  reply := g.reply.trans h.reply
  counter := g.counter.trans h.counter
  wants := g.wants.trans h.wants

theorem recordOwn_near {l l' : Layer} {acknowledgment : Bool} {p : Packet} {s : SecurityKeys.Status} {now : UInt32}
    (h : recordOwn l acknowledgment p s now = .ok l') :
    Near l l' ∧ l'.outgoing = l.outgoing ∧ l'.sent = l.sent ∧ l'.secure = l.secure ∧ l'.special = l.special ∧
      l'.transactionUntil = l.transactionUntil ∧ l'.owner = l.owner := by
  unfold recordOwn at h
  split at h
  · split at h
    · cases h
    · cases h
    · cases h
      exact ⟨by constructor <;> rfl, rfl, rfl, rfl, rfl, rfl, rfl⟩
  · cases h
    exact ⟨by constructor <;> rfl, rfl, rfl, rfl, rfl, rfl, rfl⟩

theorem recordOwn_error {l : Layer} {acknowledgment : Bool} {p : Packet} {s : SecurityKeys.Status} {now : UInt32}
    {e : Result} (h : recordOwn l acknowledgment p s now = .error e) : e ≠ .ok := by
  unfold recordOwn at h
  split at h
  · rcases broadcastSlot_cases l.broadcast s.config.address p.nwk.sequence now with ⟨hs, -⟩ | ⟨hs, -⟩ | ⟨slot, hs, -⟩
    · simp only [hs, Except.error.injEq] at h
      simp [← h]
    · simp only [hs, Except.error.injEq] at h
      simp [← h]
    · simp [hs] at h
  · cases h

/-- What a try for the request can come to. -/
inductive Attempt (l : Layer) (k : Keys) : Result → Layer → Prop where
  | fails (result : Result) (l' : Layer) (hresult : result ≠ .ok) (hnear : Near l l') : Attempt l k result l'
  | quiet (m : Layer) (hspecial : l.special = 3) (hnear : Near l m) :
      Attempt l k .ok { m with toTransport := complete m.toTransport .ok k.final }
  | submits (m : Layer) (hnear : Near l m) : Attempt l k .ok (taken m false)

theorem transmitFrame_attempt {l m : Layer} (h : Near l m) (p : Packet) (s : SecurityKeys.Status) (npdu : Bytes)
    (now : UInt32) (k : Keys) :
    Attempt l k (transmitFrame link build m false p s npdu now).1 (transmitFrame link build m false p s npdu now).2 := by
  unfold transmitFrame
  split
  · exact .fails _ _ (by simp) h
  split
  · exact .fails _ _ (by simp) h
  simp only
  split
  · refine .fails _ _ (by simp) (h.trans ?_)
    constructor <;> rfl
  split
  · refine .fails _ _ (by simp) (h.trans ?_)
    constructor <;> rfl
  · refine .submits _ (h.trans ?_)
    constructor <;> rfl

theorem transmit_attempt (l : Layer) (now : UInt32) (k : Keys) :
    Attempt l k (transmit link build l false now k).1 (transmit link build l false now k).2 := by
  unfold transmit
  split
  · exact .fails _ _ (by simp) (by constructor <;> rfl)
  rename_i s _
  simp only
  have hnumbered : Near l (numbered l false (outbound l false s)) := by constructor <;> rfl
  have hspecial : (numbered l false (outbound l false s)).special = l.special := rfl
  generalize numbered l false (outbound l false s) = b at hnumbered hspecial ⊢
  split
  · refine .fails _ _ (by simp) (hnumbered.trans ?_)
    constructor <;> rfl
  rename_i npdu _
  have hlength : Near b { b with length := UInt8.ofNat npdu.length } := by constructor <;> rfl
  split
  · rename_i hleave
    have hquiet : Near b { b with length := UInt8.ofNat npdu.length, quiet := true } := by constructor <;> rfl
    exact .quiet _ (hspecial.symm.trans hleave.2.1) (hnumbered.trans hquiet)
  split
  · rename_i e hrecord
    exact .fails _ _ (recordOwn_error hrecord) (hnumbered.trans hlength)
  · rename_i m hrecord
    exact transmitFrame_attempt ((hnumbered.trans hlength).trans (recordOwn_near hrecord).1) _ _ _ now k

/-- An acknowledgment on its way leaves the slot alone. -/
theorem transmit_ack_same {l : Layer} (hidle : l.active = false) (now : UInt32) (k : Keys) :
    Same l (transmit link build l true now k).2 ∧ (transmit link build l true now k).2.reply = l.reply ∧
      application (transmit link build l true now k).2 = false := by
  have happ := idle_application hidle
  have hframe : ∀ (m : Layer) (p : Packet) (s : SecurityKeys.Status) (npdu : Bytes), Same l m → m.reply = l.reply →
      Same l (transmitFrame link build m true p s npdu now).2 ∧
        (transmitFrame link build m true p s npdu now).2.reply = l.reply := by
    intro m p s npdu hm hr
    unfold transmitFrame
    split
    · exact ⟨hm, hr⟩
    split
    · exact ⟨hm, hr⟩
    simp only
    split
    · exact ⟨hm.trans (by constructor <;> rfl), hr⟩
    split
    · exact ⟨hm.trans (by constructor <;> rfl), hr⟩
    · refine ⟨⟨hm.queued, hm.completed, hm.result, hm.waiting, ?_, hm.cancel, hm.cancelResult, hm.retries, hm.outgoing,
        hm.sent, hm.seenAck, hm.secure, hm.special, hm.transactionUntil⟩, hr⟩
      rw [happ]
      rfl
  suffices hboth : Same l (transmit link build l true now k).2 ∧ (transmit link build l true now k).2.reply = l.reply from
    ⟨hboth.1, hboth.2, hboth.1.application.trans happ⟩
  unfold transmit
  split
  · exact ⟨.refl l, rfl⟩
  rename_i s _
  simp only
  have hnumbered : Same l (numbered l true (outbound l true s)) ∧ (numbered l true (outbound l true s)).reply = l.reply :=
    ⟨by constructor <;> rfl, rfl⟩
  generalize numbered l true (outbound l true s) = b at hnumbered ⊢
  split
  · exact ⟨hnumbered.1.trans (by constructor <;> rfl), hnumbered.2⟩
  rename_i npdu _
  have hlength : Same l { b with length := UInt8.ofNat npdu.length } :=
    hnumbered.1.trans (by constructor <;> rfl)
  split
  · rename_i hleave
    simp at hleave
  split
  · exact ⟨hlength, hnumbered.2⟩
  · rename_i m hrecord
    have hm : m = { b with length := UInt8.ofNat npdu.length } := by
      simpa [recordOwn, ownBroadcast] using hrecord.symm
    rw [hm]
    exact hframe _ _ _ _ hlength hnumbered.2

theorem transmitPoll_same {l : Layer} (hidle : l.active = false) (now : UInt32) (k : Keys) :
    Same l (transmitPoll link build l now k).2 := by
  have happ := idle_application hidle
  unfold transmitPoll
  split
  · exact .refl l
  split
  · exact .refl l
  simp only
  split
  · constructor <;> rfl
  split
  · constructor <;> rfl
  · refine ⟨rfl, rfl, rfl, rfl, ?_, rfl, rfl, rfl, rfl, rfl, rfl, rfl, rfl, rfl⟩
    rw [happ]
    simp [application]

/-- The request is due to be sent. -/
def attempting (l : Layer) : Bool := !l.reply && l.queued && !l.waiting

/-- What is known after a step that may begin a try. -/
def Track.next (t : Track) (attempt : Bool) : Track :=
  if attempt then { t with attempts := t.attempts + 1, aired := false } else t

theorem attempting_spent {l : Layer} {t : Track} (h : Fit l t) (hidle : l.active = false) (ha : attempting l = true) :
    l.queued = true ∧ l.waiting = false ∧ l.seenAck = false ∧ t.attempts = l.retries.toNat ∧ t.attempts ≤ 3 := by
  simp only [attempting, Bool.and_eq_true, Bool.not_eq_true'] at ha
  obtain ⟨⟨-, hq⟩, hw⟩ := ha
  have htried : tried l = false := by simp [tried, hw, idle_application hidle]
  have hspent := h.spent hq
  rw [htried] at hspent
  have hretries : l.retries.toNat ≤ 3 := UInt8.le_iff_toNat_le.mp h.retries
  have hseen : l.seenAck = false := by
    by_contra hs
    have := (h.acked hq (by simpa using hs)).1
    rw [htried] at this
    cases this
  simp only [Bool.false_eq_true, if_false, Nat.add_zero] at hspent
  exact ⟨hq, hw, hseen, hspent, by omega⟩

/-- A try ends the request or puts it on its way. -/
theorem Attempt.piece {l l' : Layer} {t : Track} {k : Keys} {result : Result} (h : Fit l t) (hidle : l.active = false)
    (ha : attempting l = true) (hattempt : Attempt l k result l') :
    Piece (t.next true) l
      (if result ≠ .ok then { l' with toTransport := complete l'.toTransport result k.final } else l') := by
  obtain ⟨hq, hw, hseen, hspent, hle⟩ := attempting_spent h hidle ha
  have hbound : (t.next true).attempts ≤ 4 := by simp only [Track.next, if_true]; omega
  have hdone : ∀ (m : Layer) (r : Result), Near l m → (r = .ok → wantsAck l = true → l.seenAck = true) →
      Piece (t.next true) l { m with toTransport := complete m.toTransport r k.final } := by
    intro m r hm hr
    obtain ⟨hgone, -, hc, hres, -, -⟩ := complete_queued m.toTransport r k.final
    obtain ⟨hs, ho, hp⟩ := complete_keeps m.toTransport r k.final
    refine ⟨.complete (hm.retries ▸ h.retries) hbound (idle_application (hm.active.trans hidle)) r k.final,
      .ends hq hgone hc fun hok => hr (hres.symm.trans hok), fun hf => ?_, ?_⟩
    · rw [← hm.seenAck]
      exact hs.symm.trans hf
    · rw [← hm.wants]
      simp only [wantsAck, ho, hp]
  cases hattempt with
  | fails _ _ hresult hnear =>
    rw [if_pos hresult]
    exact hdone _ _ hnear fun hok => absurd hok hresult
  | quiet m hspecial hnear =>
    rw [if_neg (by simp)]
    refine hdone m .ok hnear fun _ hwants => ?_
    simp [wantsAck, hspecial] at hwants
  | submits m hnear =>
    rw [if_neg (by simp)]
    have happ : application (taken m false) = true := rfl
    refine ⟨⟨?_, ?_, ?_, ?_, ?_, ?_, hbound, ?_, ?_, ?_⟩, .stays hnear.queued hnear.completed hnear.result, ?_, hnear.wants⟩
    · intro hq
      exact hnear.completed.trans (h.one (hnear.queued.symm.trans hq))
    · intro hw'
      exact absurd (hnear.waiting.symm.trans hw') (by simp [hw])
    · intro _
      exact ⟨hnear.queued.trans hq, hnear.waiting.trans hw⟩
    · intro hc
      have := h.ends (hnear.cancel.symm.trans hc)
      rw [← hnear.cancelResult] at this
      exact this
    · exact hnear.retries ▸ h.retries
    · intro _
      have hr : (taken m false).retries = l.retries := hnear.retries
      simp only [tried, happ, Bool.or_true, if_true, hr, Track.next, hspent]
    · intro _
      exact hnear.counter.trans (h.counter hq)
    · intro _ hf
      cases hf
    · intro _ hf
      have : l.seenAck = true := hnear.seenAck.symm.trans hf
      rw [hseen] at this
      cases this
    · intro hf
      exact hnear.seenAck.symm.trans hf

theorem launch_piece {l : Layer} {t : Track} (h : Fit l t) (hidle : l.active = false) (now : UInt32) (k : Keys) :
    Piece (t.next (attempting l)) l (launch link build l now k).2.1 ∧
      (application (launch link build l now k).2.1 = true → attempting l = true) := by
  have harm : ∀ {t : Track} (m : Layer), Piece t l m → Piece t l (arm m).1 :=
    fun m hm => hm.trans ((arm_same m).piece hm.fit)
  have howner : ∀ {t : Track} (m : Layer) (o : MacTx.IntervalTx), Piece t l m → Piece t l { m with owner := o } := by
    intro t m o hm
    have hsame : Same m { m with owner := o } := by constructor <;> rfl
    exact hm.trans (hsame.piece hm.fit)
  unfold launch
  simp only
  by_cases hreply : l.reply = true
  · have hattempting : attempting l = false := by simp [attempting, hreply]
    obtain ⟨hsame, hstill, happ⟩ := @transmit_ack_same link build l hidle now k
    rw [if_pos (.inl hreply), hattempting, hreply]
    generalize transmit link build l true now k = r at hsame hstill happ ⊢
    have hpiece : Piece (t.next false) l r.2 := hsame.piece h
    split
    · rw [if_pos (hstill.trans hreply)]
      exact ⟨hpiece, fun hf => absurd hf (by simp [happ])⟩
    split
    · exact ⟨hpiece, fun hf => absurd hf (by simp [happ])⟩
    split
    · exact ⟨harm _ hpiece, fun hf => absurd ((arm_same r.2).application.symm.trans hf) (by simp [happ])⟩
    · exact ⟨howner _ _ hpiece, fun hf => (by
        have hr : application r.2 = true := hf
        simp [happ] at hr)⟩
  by_cases hdue : l.queued = true ∧ (!l.waiting) = true
  · have hattempting : attempting l = true := by simpa [attempting, hreply] using hdue
    have hattempt := @transmit_attempt link build l now k
    rw [if_pos (.inr hdue), hattempting]
    refine ⟨?_, fun _ => rfl⟩
    rw [Bool.eq_false_iff.mpr hreply]
    have hstill : (transmit link build l false now k).1 ≠ .ok → (transmit link build l false now k).2.reply = false := by
      intro hne
      generalize (transmit link build l false now k).1 = result at *
      generalize (transmit link build l false now k).2 = l' at *
      cases hattempt with
      | fails _ _ _ hnear => exact hnear.reply.trans (Bool.eq_false_iff.mpr hreply)
      | quiet _ _ _ => exact absurd rfl hne
      | submits _ _ => exact absurd rfl hne
    have hpiece := hattempt.piece h hidle hattempting
    generalize transmit link build l false now k = r at hpiece hstill ⊢
    split
    · rename_i hne
      rw [if_neg (by simp [hstill hne])]
      rw [if_pos hne] at hpiece
      exact hpiece
    rename_i hok
    rw [if_neg hok] at hpiece
    split
    · exact hpiece
    split
    · exact harm _ hpiece
    · exact howner _ _ hpiece
  have hattempting : attempting l = false := by
    by_contra hf
    simp only [attempting, Bool.not_eq_false, Bool.and_eq_true] at hf
    exact hdue ⟨hf.1.2, hf.2⟩
  rw [if_neg (by rw [not_or]; exact ⟨hreply, hdue⟩), hattempting]
  have hfalse : ∀ m : Layer, Same l m → ¬application m = true := by
    intro m hm
    rw [hm.application, idle_application hidle]
    simp
  split
  · have hsame := @transmitPoll_same link build l hidle now k
    generalize transmitPoll link build l now k = r at hsame ⊢
    split
    · have hrefused : Same r.2 { r.2 with poll := 0, pollResult := .refused r.1 } := by constructor <;> rfl
      exact ⟨(hsame.trans hrefused).piece h, fun hf => absurd hf (hfalse _ (hsame.trans hrefused))⟩
    split
    · exact ⟨hsame.piece h, fun hf => absurd hf (hfalse _ hsame)⟩
    split
    · exact ⟨(hsame.trans (arm_same r.2)).piece h, fun hf => absurd hf (hfalse _ (hsame.trans (arm_same r.2)))⟩
    · exact ⟨howner _ _ (hsame.piece h), fun hf => (hfalse r.2 hsame hf).elim⟩
  · exact ⟨(Same.refl l).piece h, fun hf => absurd hf (hfalse _ (.refl l))⟩

/-! ## A step -/

/-- A request whose time is over is marked for cancellation. -/
def expired (l : Layer) (now : UInt32) : Layer :=
  if l.queued ∧ !l.cancel ∧ reached now l.transactionUntil then { l with cancel := true, cancelResult := .timeout } else l

theorem step_eq {l : Layer} {now : UInt32} (hnow : now - l.last < MacTx.half) (event : Option IntervalEvent) (k : Keys) :
    step link build l now event k =
      if l.active then stepActive link (expired { l with last := now } now) now event k
      else stepIdle link build (expired { l with last := now } now) now event k := by
  have hactive : (expired { l with last := now } now).active = l.active := by
    unfold expired
    split <;> rfl
  have hstep : step link build l now event k =
      if (expired { l with last := now } now).active then stepActive link (expired { l with last := now } now) now event k
      else stepIdle link build (expired { l with last := now } now) now event k := by
    unfold step
    rcases advance_cases l.toTransport now with ⟨h, -⟩ | ⟨-, h⟩
    · exact absurd hnow (UInt32.not_lt.mpr h)
    · simp only [h, ne_eq, not_true_eq_false, if_false]
      rfl
  rw [hstep, hactive]

/-- Marking a request does not touch anything else of it. -/
theorem expired_piece {l : Layer} {t : Track} (h : Fit l t) (now : UInt32) :
    Piece t l (expired l now) ∧ (expired l now).active = l.active ∧ (expired l now).owner = l.owner ∧
      (expired l now).stopping = l.stopping ∧ application (expired l now) = application l := by
  unfold expired
  split
  · exact ⟨⟨h.cancel true .timeout (by simp), .stays rfl rfl rfl, fun hs => hs, rfl⟩, rfl, rfl, rfl, rfl⟩
  · exact ⟨(Same.refl l).piece h, rfl, rfl, rfl, rfl⟩

/-- The clock is not part of the slot. -/
theorem last_same (l : Layer) (now : UInt32) : Same l { l with last := now } := by constructor <;> rfl

/-- While the transmitter works for an acknowledgment or a poll, the slot stays as it is. -/
theorem finished_shared {l : Layer} (hactive : l.active = true) (hshared : application l = false)
    (owner : MacTx.IntervalTx) (armed : Bool) (armIssued : UInt8) (outcome : MacTx.Outcome) (now : UInt32) (k : Keys) :
    Same l (finished (freed l owner armed armIssued) outcome now k).2 := by
  have hfree : ∀ l', l'.active = false → application l' = application l := by
    intro l' h
    rw [hshared]
    simp [application, h]
  unfold finished freed
  simp only
  by_cases hack : l.activeAck = true
  · rw [if_pos hack]
    split <;> exact ⟨rfl, rfl, rfl, rfl, hfree _ rfl, rfl, rfl, rfl, rfl, rfl, rfl, rfl, rfl, rfl⟩
  rw [if_neg hack]
  have hpoll : l.activePoll = true := by
    by_contra hf
    simp [application, hactive, hack, hf] at hshared
  rw [if_pos hpoll]
  exact ⟨rfl, rfl, rfl, rfl, hfree _ rfl, rfl, rfl, rfl, rfl, rfl, rfl, rfl, rfl, rfl⟩

theorem stepped_shared {l : Layer} (hactive : l.active = true) (hshared : application l = false) (output : Output)
    (now : UInt32) (k : Keys) : Same l (stepped link l output now k).2.1 := by
  unfold stepped
  simp only
  generalize harm : (if link ∧ l.owner.engine.phase = .draw ∧ !stopsNow l then arm l else (l, output)) = a
  have ha : Same l a.1 ∧ a.1.active = true := by
    rw [← harm]
    split
    · exact ⟨arm_same l, hactive⟩
    · exact ⟨.refl l, hactive⟩
  have hsent : (if (!a.1.activeAck) = true ∧ (!a.1.activePoll) = true ∧ l.owner.engine.transmissions ≠ 0 then
      { a.1 with sent := true } else a.1) = a.1 := by
    refine if_neg fun hf => ?_
    have happ : application a.1 = true := by simp only [application, ha.2, hf.1, hf.2.1, Bool.and_self]
    rw [ha.1.application, hshared] at happ
    cases happ
  rw [hsent]
  have hshared' : application a.1 = false := ha.1.application.trans hshared
  split
  · exact ha.1.trans (by constructor <;> rfl)
  split
  · exact ha.1
  split
  · split
    · exact ha.1.trans (by constructor <;> rfl)
    · exact ha.1
  split
  · exact ha.1.trans (by constructor <;> rfl)
  · have hfinished : ∀ armed armIssued, Same l (finished (freed a.1
        { a.1.owner with engine := (MacTx.release l.owner.engine).2 } armed armIssued) l.owner.engine.outcome now k).2 :=
      fun armed armIssued => ha.1.trans (finished_shared ha.2 hshared' _ armed armIssued _ now k)
    cases link with
    | true => exact hfinished false 0
    | false => exact hfinished a.1.armed a.1.armIssued

theorem stepActive_shared {l : Layer} (hactive : l.active = true) (hshared : application l = false) (now : UInt32)
    (event : Option IntervalEvent) (k : Keys) : Same l (stepActive link l now event k).2.1 := by
  have hdrive : ∀ (m : Layer) (event : Option IntervalEvent), Same l m → m.active = true →
      Same l (drive link m now event k).2.1 := by
    intro m event hm hactive
    have howner : Same m { m with owner := (macStep link m.owner now event).2.1 } := by constructor <;> rfl
    unfold drive
    simp only
    split
    · exact hm.trans howner
    · have hsame := hm.trans howner
      refine hsame.trans (stepped_shared ?_ (hsame.application.trans hshared) _ now k)
      exact hactive
  unfold stepActive
  split
  · simp only
    split
    · exact arm_same l
    · exact .refl l
  split
  · exact hdrive _ _ (by constructor <;> rfl) hactive
  · exact hdrive _ _ (.refl l) hactive

/-- The request is due to be completed. -/
def due (l : Layer) (now : UInt32) : Bool :=
  l.cancel || (l.waiting && (l.seenAck || (reached now l.deadline && l.retries == maxRetries)))

theorem settled_due {l : Layer} (now : UInt32) (k : Keys) (hq : l.queued = true)
    (hdue : due l now = true) : (settled l now k).queued = false ∧ (settled l now k).completed = true := by
  have hcomplete := complete_queued l.toTransport
  have hrest : ∀ m : Layer, m.queued = false → m.waiting = false → m.completed = true →
      (overdue (answered m k) now k).queued = false ∧ (overdue (answered m k) now k).completed = true := by
    intro m hq hw hc
    simp [answered, overdue, hw, hq, hc]
  rw [settled_eq]
  by_cases hcancel : l.cancel = true
  · have hretired : retired l k = { l with toTransport := complete l.toTransport l.cancelResult k.final } :=
      if_pos ⟨hcancel, hq⟩
    obtain ⟨hq', hw', hc', -⟩ := hcomplete l.cancelResult k.final
    rw [hretired]
    exact hrest _ hq' hw' hc'
  have hretired : retired l k = l := if_neg fun hf => hcancel hf.1
  rw [hretired]
  simp only [due, hcancel, Bool.false_or, Bool.and_eq_true, Bool.or_eq_true, beq_iff_eq] at hdue
  obtain ⟨hw, hcause⟩ := hdue
  by_cases hseen : l.seenAck = true
  · have hanswered : answered l k = { l with toTransport := complete l.toTransport .ok k.final } := if_pos ⟨hw, hseen⟩
    obtain ⟨hq', hw', hc', -⟩ := hcomplete .ok k.final
    rw [hanswered]
    simp [overdue, hw', hq', hc']
  have hanswered : answered l k = l := if_neg fun hf => hseen hf.2
  rw [hanswered]
  obtain ⟨hreached, hlast⟩ := hcause.resolve_left hseen
  unfold overdue
  rw [if_pos ⟨hw, hreached⟩]
  simp only
  rw [if_pos hlast]
  obtain ⟨hq', -, hc', -⟩ := complete_queued { l.toTransport with waiting := false } .timeout k.final
  exact ⟨hq', hc'⟩

end NwkAps
