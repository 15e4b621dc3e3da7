import Cc2530Zigbee.MacTx
import Cc2530Zigbee.MacFrameCodec

/-!
# What a step of the transmitter can do

Every step of a transaction is one of a few moves. A move says which phase it is
made in, what it needs of the signal, and the whole state after it.
-/
namespace MacTx

open Octets

variable {link : Bool} {now : UInt32} {signal : Option Signal}

/-- The bound after the radio has come to rest: an attempt that may have been on
the air ended by then. -/
def rested (c : Tx) (stamp : UInt32) : Tx :=
  if c.uncertain then spacing c (stamp + if c.ackRequested then ackSymbols else 0) else c

/-- The stop of a transaction that holds the radio. -/
def stopped (link : Bool) (c : Tx) (now : UInt32) (outcome : Outcome) : Tx :=
  { c with outcome := outcome, phase := .stopping, stopAt := now + stopSymbols link, stopSteps := stopSteps link }

/-- An acknowledgment of the frame on the air, inside its window. -/
def Answers (c : Tx) (stamp : UInt32) (length : UInt16) (bytes : Bytes) : Prop :=
  length = 3 ∧ byteAt bytes 0 &&& 7 = MacFrame.ack ∧ byteAt bytes 2 = getElem c.frame 2 sequence_lt ∧ 0 < stamp - c.txEnd ∧
    stamp - c.txEnd ≤ ackSymbols

/-- The start of an attempt with a random number. -/
def drawn (c : Tx) (now : UInt32) (value : UInt8) : UInt32 :=
  (if reached now c.readyAt then now else c.readyAt) +
    (value.toUInt32 &&& ((1 <<< c.be.toUInt32) - 1)) * backoffSymbols

/-- The moves of an active transaction, with the action each asks for. -/
inductive Move (link : Bool) (now : UInt32) (signal : Option Signal) (c : Tx) : Tx → ActionKind → Prop
  | fails (outcome : Outcome) (ho : outcome ≠ .acked) (steps : UInt16) (room : UInt8) (again : Bool) :
      Move link now signal c { c with
        uncertain := c.uncertain || c.phase == .radio, phase := .fault, outcome := outcome, steps := steps,
        stopSteps := room, retryPending := again } .none
  | waits (h : c.phase = .drawWait ∨ c.phase = .radio ∨ c.phase = .ackWait) :
      Move link now signal c { c with steps := c.steps - 1 } .none
  | holds (h : c.phase = .stopping) (outcome : Outcome) (room : UInt8) (again : Bool)
      (ha : again = c.retryPending ∧ outcome = c.outcome ∨
        c.retryPending = true ∧ again = false ∧ outcome = ended c signal) :
      Move link now signal c { c with retryPending := again, outcome := outcome, stopSteps := room } .none
  | retries (h : c.phase = .stopping) (ha : c.retryPending = true) (stamp : UInt32)
      (hs : signal = some (.quiesced stamp)) (room : UInt8) :
      Move link now signal c { rested c stamp with
        retryPending := false, retries := c.retries + 1, nb := 0, be := minBe, outcome := .none, phase := .draw,
        stopSteps := room } .none
  | ends (h : c.phase = .stopping) (stamp : UInt32) (hs : signal = some (.quiesced stamp)) (outcome : Outcome)
      (ho : c.retryPending = false ∧ outcome = c.outcome ∨ c.retryPending = true ∧ outcome = ended c signal)
      (room : UInt8) :
      Move link now signal c { rested c stamp with
        retryPending := false, outcome := outcome, phase := .done, stopSteps := room } .none
  | abandons (h : c.phase = .draw ∨ c.phase = .drawWait) :
      Move link now signal c { c with outcome := ended c signal, phase := .done } .none
  | silences (h : c.phase = .radio) :
      Move link now signal c { stopped link c now (ended c signal) with uncertain := true } .quiesce
  | leaves (h : c.phase = .ackWait) :
      Move link now signal c (stopped link
        (if c.ackRequested then spacing c (c.txEnd + ackSymbols) else c) now (ended c signal)) .quiesce
  | draws (h : c.phase = .draw) :
      Move link now signal c { c with steps := c.steps - 1, phase := .drawWait } .random
  | starts (h : c.phase = .drawWait) (value : UInt8) (hs : signal = some (.random value))
      (hd : reached (drawn c now value) c.deadline = false) :
      Move link now signal c { c with
        steps := c.steps - 1, attemptAt := drawn c now value, phase := .radio } .attempt
  | expires (h : c.phase = .drawWait) (value : UInt8) (hs : signal = some (.random value)) :
      Move link now signal c { c with
        steps := c.steps - 1, attemptAt := drawn c now value, phase := .done, outcome := .lifetime } .none
  | defers (h : c.phase = .radio) (stamp : UInt32) (hs : signal = some (.busy stamp))
      (hn : ¬ maxBackoffs < c.nb + 1) :
      Move link now signal c { c with
        steps := c.steps - 1, nb := c.nb + 1, be := if c.be < maxBe then c.be + 1 else c.be, phase := .draw } .none
  | jams (h : c.phase = .radio) (stamp : UInt32) (hs : signal = some (.busy stamp))
      (hn : maxBackoffs < c.nb + 1) :
      Move link now signal c { c with
        steps := c.steps - 1, nb := c.nb + 1, be := if c.be < maxBe then c.be + 1 else c.be, phase := .done,
        outcome := .channelAccess } .none
  | sends (h : c.phase = .radio) (stamp : UInt32) (hs : signal = some (.sent stamp)) (ha : c.ackRequested = true) :
      Move link now signal c { c with
        steps := c.steps - 1, transmissions := c.transmissions + 1, txEnd := stamp, phase := .ackWait } .none
  | finishes (h : c.phase = .radio) (stamp : UInt32) (hs : signal = some (.sent stamp)) (ha : c.ackRequested = false) :
      Move link now signal c (stopped link (spacing { c with
        steps := c.steps - 1, transmissions := c.transmissions + 1, txEnd := stamp } stamp) now .unacknowledged)
        .quiesce
  | hears (h : c.phase = .ackWait) (stamp : UInt32) (length : UInt16) (bytes : Bytes)
      (hs : signal = some (.ack stamp length bytes)) (ha : Answers c stamp length bytes) (more : Bool) :
      Move link now signal c (stopped link (spacing { c with steps := c.steps - 1, pending := more } stamp) now .acked)
        .quiesce
  | misses (h : c.phase = .ackWait) :
      Move link now signal c (stopped link { spacing { c with steps := c.steps - 1 } (c.txEnd + ackSymbols) with
        retryPending := c.retries < maxRetries } now .noAck) .quiesce

/-! The step function makes moves. -/

theorem decode_sequence {f : Bytes} {info : MacFrame.Info} (h : MacFrame.decode f = .ok info) :
    info.header.sequence = byteAt f 2 := by
  obtain ⟨-, -, -, -, s, -, -, -, -, -, rfl⟩ := MacFrame.decodeProfile_ok.1 h
  rfl

theorem stepStopping_move {c : Tx} (h : c.phase = .stopping) :
    Move link now signal c (stepStopping c now signal) .none := by
  -- the retry that is given up, or kept
  obtain ⟨again, outcome, heq, ha⟩ : ∃ again outcome,
      (if c.retryPending = true ∧ (reached now c.deadline = true ∨ c.steps = 0 ∨ signal = some .cancel) then
        { c with retryPending := false, outcome := ended c signal } else c) =
        { c with retryPending := again, outcome := outcome } ∧
      (again = c.retryPending ∧ outcome = c.outcome ∨
        c.retryPending = true ∧ again = false ∧ outcome = ended c signal) := by
    split
    · rename_i hp
      exact ⟨false, _, rfl, .inr ⟨hp.1, rfl, rfl⟩⟩
    · exact ⟨c.retryPending, c.outcome, rfl, .inl ⟨rfl, rfl⟩⟩
  unfold stepStopping
  simp only [heq]
  split
  · have hm := @Move.fails link now signal c .stopFailed (by decide) c.steps c.stopSteps again
    simpa [fault] using hm
  split
  · have hm := @Move.fails link now (some .failure) c .adapterError (by decide) c.steps (c.stopSteps - 1) again
    simpa [fault] using hm
  · rename_i stamp
    cases again with
    | true =>
      have hp : c.retryPending = true := by
        rcases ha with ha | ha
        · exact ha.1.symm
        · exact absurd ha.2.1 (by decide)
      have hm := @Move.retries link now _ c h hp stamp rfl (c.stopSteps - 1)
      cases hu : c.uncertain <;> simpa [hu, rested, spacing] using hm
    | false =>
      have ho : c.retryPending = false ∧ outcome = c.outcome ∨
          c.retryPending = true ∧ outcome = ended c (some (.quiesced stamp)) := by
        rcases ha with ha | ha
        · exact .inl ⟨ha.1.symm, ha.2⟩
        · exact .inr ⟨ha.1, ha.2.2⟩
      have hm := @Move.ends link now _ c h stamp rfl outcome ho (c.stopSteps - 1)
      cases hu : c.uncertain <;> simpa [hu, rested, spacing] using hm
  · exact .holds h outcome (c.stopSteps - 1) again ha

theorem stop_move {c : Tx} (h : c.phase = .draw ∨ c.phase = .drawWait ∨ c.phase = .radio ∨ c.phase = .ackWait)
    (he : ended c signal ≠ .acked ∧ ended c signal ≠ .noAck) :
    Move link now signal c (stop link c now (ended c signal)).1 (stop link c now (ended c signal)).2 := by
  rcases h with h | h | h | h
  · simp only [stop, h, true_or, if_true]
    exact .abandons (.inl h)
  · simp only [stop, h, or_true, if_true]
    exact .abandons (.inr h)
  · have hm := @Move.silences link now signal c h
    simpa [stop, stopped, h] using hm
  · have hm := @Move.leaves link now signal c h
    cases ha : c.ackRequested <;> simpa [stop, stopped, h, he, ha, spacing] using hm

theorem ended_early (c : Tx) (signal : Option Signal) :
    ended c signal ≠ .acked ∧ ended c signal ≠ .noAck := by
  unfold ended
  split
  · decide
  · split <;> decide

theorem stepDrawn_move {c : Tx} (h : c.phase = .drawWait) (value : UInt8) (hs : signal = some (.random value)) :
    Move link now signal c (stepDrawn { c with steps := c.steps - 1 } now value).1
      (stepDrawn { c with steps := c.steps - 1 } now value).2 := by
  cases hd : reached (drawn c now value) c.deadline with
  | true =>
    have hm := @Move.expires link now signal c h value hs
    unfold drawn at hd
    simpa [stepDrawn, drawn, hd] using hm
  | false =>
    have hm := @Move.starts link now signal c h value hs hd
    unfold drawn at hd
    simpa [stepDrawn, drawn, hd] using hm

theorem stepBusy_move {c : Tx} (h : c.phase = .radio) (stamp : UInt32) (hs : signal = some (.busy stamp)) :
    Move link now signal c (stepBusy { c with steps := c.steps - 1 }) .none := by
  by_cases hn : maxBackoffs < c.nb + 1
  · have hm := @Move.jams link now signal c h stamp hs hn
    simpa [stepBusy, hn] using hm
  · have hm := @Move.defers link now signal c h stamp hs hn
    simpa [stepBusy, hn] using hm

theorem stepSent_move {c : Tx} (h : c.phase = .radio) (stamp : UInt32) (hs : signal = some (.sent stamp)) :
    Move link now signal c (stepSent link { c with steps := c.steps - 1 } now stamp).1
      (stepSent link { c with steps := c.steps - 1 } now stamp).2 := by
  cases ha : c.ackRequested with
  | true =>
    have hm := @Move.sends link now signal c h stamp hs ha
    simpa [stepSent, ha] using hm
  | false =>
    have hm := @Move.finishes link now signal c h stamp hs ha
    simpa [stepSent, ha, stop, spacing, stopped] using hm

theorem noAck_move {c : Tx} (h : c.phase = .ackWait) :
    Move link now signal c (noAck link { c with steps := c.steps - 1 } now).1
      (noAck link { c with steps := c.steps - 1 } now).2 := by
  have hm := @Move.misses link now signal c h
  simpa [noAck, stop, h, spacing, stopped] using hm

/-- The wait for an acknowledgment ends in one of three ways, or goes on. -/
theorem stepAck_cases {c : Tx} (h : c.phase = .ackWait) (stamp : UInt32) (length : UInt16) (bytes : Bytes) :
    stepAck link c now stamp length bytes = (c, .none) ∨
    stepAck link c now stamp length bytes = noAck link c now ∨
    (Answers c stamp length bytes ∧ ∃ more, stepAck link c now stamp length bytes =
      (stopped link (spacing { c with pending := more } stamp) now .acked, .quiesce)) := by
  unfold stepAck
  split
  · rename_i ha
    split
    · exact .inl rfl
    · rename_i info hd
      have hq : info.header.sequence = byteAt bytes 2 := (decode_sequence hd).trans rfl
      split
      · rename_i he
        refine .inr (.inr ⟨⟨ha.1, ha.2.1, by rw [← hq, he], ha.2.2⟩, MacFrame.has info.header.flags MacFrame.pending, ?_⟩)
        simp [stop, spacing, stopped, h]
      · exact .inr (.inl rfl)
  · exact .inl rfl

theorem noAck_phase (c : Tx) (h : c.phase = .ackWait) : (noAck link c now).1.phase = .stopping := by
  simp [noAck, stop, spacing, h]

/-- The wait goes on, ends without an answer or with one. -/
theorem stepAckWait_cases {c : Tx} (h : c.phase = .ackWait) :
    stepAckWait link c now signal = (c, .none) ∨ stepAckWait link c now signal = noAck link c now ∨
    ∃ stamp length bytes more, signal = some (.ack stamp length bytes) ∧ Answers c stamp length bytes ∧
      stepAckWait link c now signal =
        (stopped link (spacing { c with pending := more } stamp) now .acked, .quiesce) := by
  -- what the closing window makes of a call that heard nothing
  have hwindow : ∀ r : Tx × ActionKind, r = (c, .none) →
      (if r.1.phase = .ackWait ∧ reached now (r.1.txEnd + ackSymbols) = true then noAck link r.1 now else r) =
        (c, .none) ∨
      (if r.1.phase = .ackWait ∧ reached now (r.1.txEnd + ackSymbols) = true then noAck link r.1 now else r) =
        noAck link c now := by
    rintro r rfl
    split
    · exact .inr rfl
    · exact .inl rfl
  cases signal with
  | none => exact (hwindow _ rfl).imp_right .inl
  | some heard =>
    cases heard with
    | ack stamp length bytes =>
      rcases stepAck_cases h stamp length bytes with hr | hr | ⟨ha, more, hr⟩
      · exact (hwindow _ hr).imp_right .inl
      · simp only [stepAckWait, hr]
        rw [if_neg (by simp [noAck_phase c h])]
        exact .inr (.inl rfl)
      · simp only [stepAckWait, hr]
        rw [if_neg (by simp [stopped])]
        exact .inr (.inr ⟨stamp, length, bytes, more, rfl, ha, rfl⟩)
    | _ => exact (hwindow _ rfl).imp_right .inl

theorem stepAckWait_move {c : Tx} (h : c.phase = .ackWait) :
    Move link now signal c (stepAckWait link { c with steps := c.steps - 1 } now signal).1
      (stepAckWait link { c with steps := c.steps - 1 } now signal).2 := by
  rcases stepAckWait_cases (c := { c with steps := c.steps - 1 }) h with hr | hr | ⟨stamp, length, bytes, more, hs, ha, hr⟩
  · rw [hr]
    exact .waits (.inr (.inr h))
  · rw [hr]
    exact noAck_move h
  · rw [hr]
    exact .hears h stamp length bytes hs ha more

theorem stepWork_move {c : Tx} (h : c.phase = .draw ∨ c.phase = .drawWait ∨ c.phase = .radio ∨ c.phase = .ackWait) :
    Move link now signal c (stepWork link { c with steps := c.steps - 1 } now signal).1
      (stepWork link { c with steps := c.steps - 1 } now signal).2 := by
  rcases h with h | h | h | h
  · simp only [stepWork, h]
    exact .draws h
  · have hw := @Move.waits link now signal c (.inl h)
    cases signal with
    | none => simpa only [stepWork, h] using hw
    | some heard =>
      cases heard with
      | random value =>
        have hm := @stepDrawn_move link now _ c h value rfl
        simpa only [stepWork, h] using hm
      | _ => simpa only [stepWork, h] using hw
  · have hw := @Move.waits link now signal c (.inr (.inl h))
    cases signal with
    | none => simpa only [stepWork, h] using hw
    | some heard =>
      cases heard with
      | busy stamp =>
        have hm := @stepBusy_move link now _ c h stamp rfl
        have hf := @Move.fails link now (some (.busy stamp)) c .adapterError (by decide) (c.steps - 1) c.stopSteps c.retryPending
        simp only [stepWork, h] at hm ⊢
        split
        · simpa [fault, h] using hf
        · exact hm
      | sent stamp =>
        have hm := @stepSent_move link now _ c h stamp rfl
        have hf := @Move.fails link now (some (.sent stamp)) c .adapterError (by decide) (c.steps - 1) c.stopSteps c.retryPending
        simp only [stepWork, h] at hm ⊢
        split
        · simpa [fault, h] using hf
        · exact hm
      | _ => simpa only [stepWork, h] using hw
  · have hm := @stepAckWait_move link now signal c h
    simpa only [stepWork, h] using hm

/-- Every step of an active transaction is a move. -/
theorem stepActive_move {c : Tx} (h : c.phase ≠ .idle ∧ c.phase ≠ .done ∧ c.phase ≠ .fault) :
    Move link now signal c (stepActive link c now signal).1 (stepActive link c now signal).2 := by
  unfold stepActive
  split
  · rename_i hs
    exact stepStopping_move hs
  rename_i hs
  have hp : c.phase = .draw ∨ c.phase = .drawWait ∨ c.phase = .radio ∨ c.phase = .ackWait := by
    revert h hs
    cases c.phase <;> simp
  split
  · exact .fails _ (by decide) _ _ _
  split
  · exact stop_move hp (ended_early c signal)
  · exact stepWork_move hp

/-- The engine with the clock moved up to now. -/
def clocked (tx : Tx) (now : UInt32) : Tx := { tx with readyAt := readyFrom tx now, last := now }

/-- What a call can do to an engine that holds a frame. -/
theorem advance_cases {tx : Tx} (h : tx.phase ≠ .idle) (event : Option Event) :
    ((tx.phase = .done ∨ tx.phase = .fault) ∧ advance link tx now event = (tx, .none)) ∨
    (half ≤ now - tx.last ∧ advance link tx now event = (fault tx .clockError, .none)) ∨
    (now - tx.last < half ∧ tx.phase ≠ .done ∧ tx.phase ≠ .fault ∧
      Move link now (heard tx now event) (clocked tx now) (advance link tx now event).1
        (advance link tx now event).2) := by
  unfold advance
  split
  · rename_i hp
    exact .inl ⟨hp, rfl⟩
  rename_i hp
  obtain ⟨hd, hf⟩ := not_or.1 hp
  split
  · rename_i hc
    exact .inr (.inl ⟨hc, rfl⟩)
  · rename_i hc
    have hm := @stepActive_move link now (heard tx now event) (clocked tx now) ⟨h, hd, hf⟩
    exact .inr (.inr ⟨UInt32.not_le.1 hc, hd, hf, hm⟩)

end MacTx
