import Cc2530Zigbee.MacTxRuns

/-!
# Acknowledgments and stray events

Success is reported only after an acknowledgment of the frame on the air was
heard inside its window. An event that is late, foreign or out of place changes
nothing a poll without it would not have changed.
-/
namespace MacTx

open Octets

variable {link : Bool}

/-- A call that hears the acknowledgment of the frame on the air: the identity is
the current one, the stamp lies between the last call and now and inside the
window, and the sequence number is the frame's. -/
structure Hears (tx : Tx) (now : UInt32) (e : Event) : Prop where
  phase : tx.phase = .ackWait
  wellFormed : e.wellFormed = true
  kind : e.kind = 4
  generation : e.generation = tx.generation
  retry : e.retry = tx.retries
  nb : e.nb = tx.nb
  stamp : e.stamp - tx.last ≤ now - tx.last
  octets : e.length = 3 ∧ byteAt (e.bytes.getD []) 0 &&& 7 = MacFrame.ack
  sequence : byteAt (e.bytes.getD []) 2 = getElem tx.frame 2 sequence_lt
  window : 0 < e.stamp - tx.txEnd ∧ e.stamp - tx.txEnd ≤ ackSymbols

/-- The half-range test of a stamp is the interval from the last call to now. -/
theorem stamp_between {last now stamp : UInt32} (hc : now - last < half) :
    (stamp - last < half ∧ now - stamp < half) ↔ stamp - last ≤ now - last := by
  have h1 := last.toNat_lt
  have h2 := now.toNat_lt
  have h3 := stamp.toNat_lt
  simp only [half, UInt32.lt_iff_toNat_lt, UInt32.le_iff_toNat_le, UInt32.toNat_sub] at hc ⊢
  simp at hc ⊢
  omega

/-- The kind and the fields a signal was read from. -/
def Signal.Of (e : Event) : Signal → Prop
  | .random value => e.kind = 1 ∧ value = e.value
  | .busy stamp => e.kind = 2 ∧ stamp = e.stamp
  | .sent stamp => e.kind = 3 ∧ stamp = e.stamp
  | .ack stamp length bytes => e.kind = 4 ∧ stamp = e.stamp ∧ length = e.length ∧ bytes = e.bytes.getD []
  | .quiesced stamp => e.kind = 5 ∧ stamp = e.stamp
  | .failure => e.kind = 6
  | .cancel => e.kind = 7

theorem signal_of {e : Event} {signal : Signal} (h : e.signal = some signal) : signal.Of e := by
  unfold Event.signal at h
  split at h
  · rename_i hk
    cases h
    exact ⟨hk, rfl⟩
  split at h
  · rename_i hk
    cases h
    exact ⟨hk, rfl⟩
  split at h
  · rename_i hk
    cases h
    exact ⟨hk, rfl⟩
  split at h
  · rename_i hk
    cases h
    exact ⟨hk, rfl, rfl, rfl⟩
  split at h
  · rename_i hk
    cases h
    exact ⟨hk, rfl⟩
  split at h
  · rename_i hk
    cases h
    exact hk
  split at h
  · rename_i hk
    cases h
    exact hk
  · cases h

/-- The event behind a signal that was heard. -/
theorem heard_of {tx : Tx} {now : UInt32} {event : Option Event} {signal : Signal}
    (h : heard tx now event = some signal) : ∃ e, event = some e ∧ e.current tx now = true ∧ signal.Of e := by
  cases event with
  | none => cases h
  | some e =>
    unfold heard at h
    simp only at h
    split at h
    · rename_i hc
      exact ⟨e, rfl, hc, signal_of h⟩
    · cases h

theorem current_between {tx : Tx} {now : UInt32} {e : Event} (hc : now - tx.last < half)
    (h : e.current tx now = true) : e.stamp - tx.last ≤ now - tx.last := by
  simp only [Event.current, Bool.and_eq_true, beq_iff_eq, decide_eq_true_eq] at h
  exact (stamp_between hc).1 ⟨h.1.2, h.2⟩

/-- Success comes from a call that hears the acknowledgment, or was there before. -/
theorem turn_acked {tx tx' : Tx} {op : Op} {report : Report} (ht : Turn link tx op report tx')
    (ha : tx'.outcome = .acked) :
    SameSlot tx tx' ∧ (tx.outcome = .acked ∨ ∃ now e, op = .step now (some e) ∧ Hears tx now e) := by
  cases ht with
  | refuses result h => exact ⟨⟨rfl, rfl, rfl, rfl, rfl⟩, .inl ha⟩
  | opens body now lifetime workLimit tx' h =>
    rw [h.outcome] at ha
    cases ha
  | rests now event h => exact ⟨⟨rfl, rfl, rfl, rfl, rfl⟩, .inl ha⟩
  | strays now event h hc => cases ha
  | frees h => exact ⟨⟨rfl, rfl, rfl, rfl, rfl⟩, .inl ha⟩
  | moves now event h hw hc tx' kind hm =>
    have hslot := move_slot hm
    refine ⟨⟨hslot.frame, hslot.length, hslot.ackRequested, hslot.nextDsn, hslot.generation⟩, ?_⟩
    have hended := (ended_early (clocked tx now) (heard tx now event)).1
    cases hm with
    | fails outcome ho steps room again => exact absurd ha ho
    | waits h' => exact .inl ha
    | holds h' outcome room again hag =>
      rcases hag with hag | hag
      · exact .inl (hag.2.symm.trans ha)
      · exact absurd (hag.2.2.symm.trans ha) hended
    | retries h' hag stamp hs room => cases ha
    | ends h' stamp hs outcome ho room =>
      rcases ho with ho | ho
      · exact .inl (ho.2.symm.trans ha)
      · exact absurd (ho.2.symm.trans ha) hended
    | abandons h' => exact absurd ha hended
    | silences h' => exact absurd ha hended
    | leaves h' => exact absurd ha hended
    | draws h' => exact .inl ha
    | starts h' value hs hd => exact .inl ha
    | expires h' value hs => cases ha
    | defers h' stamp hs hn => exact .inl ha
    | jams h' stamp hs hn => cases ha
    | sends h' stamp hs hr => exact .inl ha
    | finishes h' stamp hs hr => cases ha
    | misses h' => cases ha
    | hears h' stamp length bytes hs hans more =>
      obtain ⟨e, rfl, hcur, hk, rfl, rfl, rfl⟩ := heard_of hs
      have hbetween := current_between hc hcur
      simp only [Event.current, Bool.and_eq_true, beq_iff_eq, decide_eq_true_eq] at hcur
      obtain ⟨⟨⟨⟨hg, hr⟩, hn⟩, -⟩, -⟩ := hcur
      exact .inr ⟨now, e, rfl, h', by simpa using hw, hk, hg, hr, hn, hbetween, ⟨hans.1, hans.2.1⟩, hans.2.2.1,
        hans.2.2.2⟩

/-- What a call tells is what the engine holds. -/
theorem turn_outcome {tx tx' : Tx} {op : Op} {report : Report} {action : Action} (ht : Turn link tx op report tx')
    (h : report.action = some action) : action.outcome = tx'.outcome := by
  cases ht with
  | refuses result hr => cases h
  | opens body now lifetime workLimit tx' ha => cases h
  | frees hd => cases h
  | _ =>
    cases h
    rfl

/-- Success in a run has its acknowledgment in the same transaction. -/
theorem run_acked {dsn : UInt8} {start : UInt32} {ops : List Op}
    (ha : (Runs.run (perform link) (init dsn start) ops).2.outcome = .acked) :
    ∃ before now e after, ops = before ++ .step now (some e) :: after ∧
      Hears (Runs.run (perform link) (init dsn start) before).2 now e ∧
      SameSlot (Runs.run (perform link) (init dsn start) before).2
        (Runs.run (perform link) (init dsn start) ops).2 := by
  induction ops using List.reverseRecOn with
  | nil => cases ha
  | append_singleton ops op ih =>
    rw [Runs.run_append] at ha ⊢
    obtain ⟨hslot, hold | ⟨now, e, rfl, hh⟩⟩ := turn_acked (perform_turn _ op) ha
    · obtain ⟨before, now, e, after, rfl, hh, hs⟩ := ih hold
      exact ⟨before, now, e, after ++ [op], by simp, hh, hs.trans hslot⟩
    · exact ⟨ops, now, e, [], rfl, hh, hslot⟩

/-! Stray events. -/

/-- The signals a phase waits for. -/
def awaited : Phase → UInt8 → Bool
  | .drawWait, kind => kind == 1
  | .radio, kind => kind == 2 || kind == 3
  | .ackWait, kind => kind == 4
  | .stopping, kind => kind == 5
  | _, _ => false

/-- A cancellation or a failure report, which count in every phase. -/
def urgent (kind : UInt8) : Bool := kind == 6 || kind == 7

/-- An event that has nothing to say: a foreign identity, a stamp outside the time
since the last call, a kind no one waits for, or an acknowledgment outside its
window. -/
def Stray (tx : Tx) (now : UInt32) (e : Event) : Prop :=
  (e.generation ≠ tx.generation ∨ e.retry ≠ tx.retries ∨ e.nb ≠ tx.nb) ∨
  ¬ e.stamp - tx.last ≤ now - tx.last ∨
  (awaited tx.phase e.kind = false ∧ urgent e.kind = false) ∨
  (tx.phase = .ackWait ∧ e.kind = 4 ∧ ¬ (0 < e.stamp - tx.txEnd ∧ e.stamp - tx.txEnd ≤ ackSymbols))

/-- A signal no one waits for. -/
def Idle (c : Tx) (signal : Signal) : Prop :=
  match signal with
  | .random _ => c.phase ≠ .drawWait
  | .busy _ => c.phase ≠ .radio
  | .sent _ => c.phase ≠ .radio
  | .ack stamp _ _ => c.phase ≠ .ackWait ∨ ¬ (0 < stamp - c.txEnd ∧ stamp - c.txEnd ≤ ackSymbols)
  | .quiesced _ => c.phase ≠ .stopping
  | .failure | .cancel => False

theorem ended_idle {c : Tx} {signal : Signal} (h : signal ≠ .cancel) : ended c (some signal) = ended c none := by
  simp [ended, h]

theorem stepStopping_idle {c : Tx} {now : UInt32} {signal : Signal} (hp : c.phase = .stopping) (h : Idle c signal) :
    stepStopping c now (some signal) = stepStopping c now none := by
  cases signal with
  | quiesced stamp => exact absurd hp h
  | failure => exact absurd h id
  | cancel => exact absurd h id
  | _ => simp [stepStopping, ended]

theorem stepAck_idle {c : Tx} {now stamp : UInt32} {length : UInt16} {bytes : Bytes}
    (h : ¬ (0 < stamp - c.txEnd ∧ stamp - c.txEnd ≤ ackSymbols)) :
    stepAck link c now stamp length bytes = (c, .none) := by
  unfold stepAck
  rw [if_neg fun ha => h ha.2.2]

theorem stepWork_idle {c : Tx} {now : UInt32} {signal : Signal} (h : Idle c signal) :
    stepWork link c now (some signal) = stepWork link c now none := by
  cases signal with
  | failure => exact absurd h id
  | cancel => exact absurd h id
  | random value =>
    simp only [Idle] at h
    cases hp : c.phase <;> simp_all [stepWork, stepAckWait]
  | busy stamp =>
    simp only [Idle] at h
    cases hp : c.phase <;> simp_all [stepWork, stepAckWait]
  | sent stamp =>
    simp only [Idle] at h
    cases hp : c.phase <;> simp_all [stepWork, stepAckWait]
  | quiesced stamp => cases hp : c.phase <;> simp [stepWork, stepAckWait, hp]
  | ack stamp length bytes =>
    rcases h with h | h
    · cases hp : c.phase <;> simp_all [stepWork]
    · cases hp : c.phase <;> simp [stepWork, stepAckWait, stepAck_idle h, hp]

theorem stepActive_idle {c : Tx} {now : UInt32} {signal : Signal} (h : Idle c signal) :
    stepActive link c now (some signal) = stepActive link c now none := by
  have hcancel : signal ≠ .cancel := by
    rintro rfl
    exact h
  have hfailure : signal ≠ .failure := by
    rintro rfl
    exact h
  have hwork := @stepWork_idle link { c with steps := c.steps - 1 } now signal h
  unfold stepActive
  by_cases hs : c.phase = .stopping
  · rw [if_pos hs, if_pos hs, stepStopping_idle hs h]
  · rw [if_neg hs, if_neg hs, hwork, ended_idle hcancel]
    simp [hcancel, hfailure]

theorem signal_idle {c : Tx} {e : Event} {signal : Signal} (hs : e.signal = some signal)
    (ha : awaited c.phase e.kind = false) (hu : urgent e.kind = false) : Idle c signal := by
  have hphase : ∀ p : Phase, awaited p e.kind = true → c.phase ≠ p := by
    rintro p hp rfl
    rw [ha] at hp
    cases hp
  have hof := signal_of hs
  cases signal with
  | random value => exact hphase .drawWait (by rw [hof.1]; rfl)
  | busy stamp => exact hphase .radio (by rw [hof.1]; rfl)
  | sent stamp => exact hphase .radio (by rw [hof.1]; rfl)
  | ack stamp length bytes => exact .inl (hphase .ackWait (by rw [hof.1]; rfl))
  | quiesced stamp => exact hphase .stopping (by rw [hof.1]; rfl)
  | failure =>
    rw [show e.kind = 6 from hof] at hu
    cases hu
  | cancel =>
    rw [show e.kind = 7 from hof] at hu
    cases hu

/-- A stray event is not heard, or says nothing to the phase it meets. -/
theorem heard_stray {tx : Tx} {now : UInt32} {e : Event} (hc : now - tx.last < half) (h : Stray tx now e) :
    heard tx now (some e) = none ∨
      ∃ signal, heard tx now (some e) = some signal ∧ Idle (clocked tx now) signal := by
  cases hcur : e.current tx now with
  | false => exact .inl (by simp [heard, hcur])
  | true =>
    have hh : heard tx now (some e) = e.signal := by simp [heard, hcur]
    simp only [Event.current, Bool.and_eq_true, beq_iff_eq, decide_eq_true_eq] at hcur
    obtain ⟨⟨⟨⟨hg, hr⟩, hn⟩, hl⟩, hu⟩ := hcur
    rw [hh]
    cases hs : e.signal with
    | none => exact .inl rfl
    | some signal =>
      refine .inr ⟨signal, rfl, ?_⟩
      rcases h with h | h | h | h
      · exact absurd h (by simp [hg, hr, hn])
      · exact absurd ((stamp_between hc).1 ⟨hl, hu⟩) h
      · exact signal_idle (c := clocked tx now) hs h.1 h.2
      · have hack : e.signal = some (.ack e.stamp e.length (e.bytes.getD [])) := by simp [Event.signal, h.2.1]
        rw [hs] at hack
        cases hack
        exact .inr h.2.2

/-- A stray event makes a call a poll. -/
theorem step_stray {tx : Tx} {now : UInt32} {e : Event} (hw : e.wellFormed = true) (h : Stray tx now e) :
    step link tx now (some e) = step link tx now none := by
  have hadvance : advance link tx now (some e) = advance link tx now none := by
    unfold advance
    split
    · rfl
    split
    · rfl
    · rename_i hc
      rcases heard_stray (UInt32.not_le.1 hc) h with hh | ⟨signal, hh, hi⟩
      · rw [hh]
        rfl
      · rw [hh]
        exact stepActive_idle hi
  unfold step
  rw [hadvance]
  simp [hw]

/-- Acknowledgments, over every run. An engine that says its frame was acknowledged
has heard, earlier in the same transaction, an acknowledgment with the current
identity, the sequence number of the frame on the air and a stamp inside the
window; what a call tells is what the engine holds. In every state a stray event
leaves the engine, and tells the caller, what a poll would have. -/
theorem acks_sound (link : Bool) (dsn : UInt8) (start : UInt32) (ops : List Op) :
    let tx := (Runs.run (perform link) (init dsn start) ops).2
    (tx.outcome = .acked → ∃ before now e after, ops = before ++ .step now (some e) :: after ∧
      Hears (Runs.run (perform link) (init dsn start) before).2 now e ∧
      SameSlot (Runs.run (perform link) (init dsn start) before).2 tx) ∧
    (∀ op action, (perform link tx op).1.action = some action → action.outcome = (perform link tx op).2.outcome) ∧
    (∀ now e, e.wellFormed = true → Stray tx now e →
      perform link tx (.step now (some e)) = perform link tx (.step now none)) := by
  intro tx
  refine ⟨run_acked, fun op action h => ?_, fun now e hw hs => ?_⟩
  · exact turn_outcome (perform_turn tx op) h
  · simp only [perform, step_stray hw hs]

end MacTx
