import Cc2530Zigbee.MacTxObserved
import Cc2530Zigbee.Runs

/-!
# A transaction comes to its end

Every step that is accepted spends a unit of the work limit, a unit of a stop, or
the one stop that is not charged to the work limit. A retry opens one more stop.
The three kinds of step may be mixed.
-/
namespace MacTx

open Octets
open MacEpoch (Stamp)

variable {link : Bool}

/-- The steps of one stop, with the one that fails it. -/
def stopRoom (link : Bool) : Nat := (stopSteps link).toNat + 1

/-- The steps left to a phase that does work. -/
def allowance (link : Bool) (c : Tx) : Nat := c.steps.toNat + 1 + (4 - c.retries.toNat) * stopRoom link

/-- An upper bound of the steps left. -/
def stepsLeft (link : Bool) (c : Tx) : Nat :=
  match c.phase with
  | .idle | .done | .fault => 0
  | .stopping =>
    c.stopSteps.toNat + 1 + if c.retryPending then c.steps.toNat + 1 + (3 - c.retries.toNat) * stopRoom link else 0
  | .draw | .drawWait | .radio | .ackWait => allowance link c

/-- The phases that do work. -/
def Phase.works : Phase → Bool
  | .draw | .drawWait | .radio | .ackWait => true
  | .idle | .stopping | .done | .fault => false

theorem stepsLeft_works {c : Tx} (h : c.phase.works = true) : stepsLeft link c = allowance link c := by
  unfold stepsLeft
  cases hp : c.phase <;> simp_all [Phase.works]

/-- A retry is open only in a stop, and only while there are retries. -/
structure Budgeted (c : Tx) : Prop where
  retries : c.retries.toNat ≤ 3
  calm : c.phase.works = true → c.retryPending = false
  again : c.retryPending = true → c.retries.toNat < 3

/-- At most this many steps are left. -/
structure Within (link : Bool) (c : Tx) (n : Nat) : Prop where
  budgeted : Budgeted c
  active : c.phase ≠ .idle
  left : stepsLeft link c ≤ n

theorem Within.ended {c : Tx} (h : Budgeted c) (hp : c.phase = .done ∨ c.phase = .fault) (n : Nat) :
    Within link c n := by
  refine ⟨h, ?_, ?_⟩
  · rcases hp with hp | hp <;> simp [hp]
  · rcases hp with hp | hp <;> simp [stepsLeft, hp]

theorem Budgeted.finish {c c' : Tx} (h : Budgeted c) (hr : c'.retries = c.retries)
    (hp : c'.phase = .done ∨ c'.phase = .fault) (ha : c'.retryPending = c.retryPending ∨ c'.retryPending = false) :
    Budgeted c' := by
  refine ⟨hr ▸ h.retries, ?_, ?_⟩
  · rcases hp with hp | hp <;> simp [hp, Phase.works]
  · intro hagain
    rcases ha with ha | ha
    · rw [hr]
      exact h.again (ha ▸ hagain)
    · rw [ha] at hagain
      cases hagain

theorem fault_within {c : Tx} (h : Budgeted c) (outcome : Outcome) (n : Nat) : Within link (fault c outcome) n :=
  @Within.ended link (fault c outcome) (@Budgeted.finish c _ h rfl (.inr rfl) (.inl rfl)) (.inr rfl) n

/-- A stop without a retry. -/
theorem halted_within {c c' : Tx} (h : Budgeted c) (hr : c'.retries = c.retries)
    (ha : c'.retryPending = false) (hp : c'.phase = .stopping) (hs : c'.stopSteps = stopSteps link) :
    Within link c' (stopRoom link) := by
  refine ⟨⟨hr ▸ h.retries, by simp [hp, Phase.works], by simp [ha]⟩, by simp [hp], ?_⟩
  simp [stepsLeft, hp, hs, ha, stopRoom]

theorem stopRoom_le {c : Tx} (h : Budgeted c) : stopRoom link + 1 ≤ allowance link c := by
  have hr := h.retries
  unfold allowance
  have hmul : 1 * stopRoom link ≤ (4 - c.retries.toNat) * stopRoom link :=
    Nat.mul_le_mul_right _ (by omega)
  omega

theorem Within.mono {c : Tx} {m n : Nat} (h : Within link c m) (hle : m ≤ n) : Within link c n :=
  ⟨h.budgeted, h.active, h.left.trans hle⟩

/-- A stop that is not charged to the work limit. -/
theorem stop_within {c : Tx} (h : Budgeted c) (hw : c.phase.works = true) (now : UInt32) (outcome : Outcome) :
    Within link (stop link c now outcome).1 (stopRoom link) := by
  have ha := h.calm hw
  unfold stop
  simp only
  split
  · refine Within.ended (@Budgeted.finish c _ h ?_ (.inl ?_) (.inl ?_)) (.inl ?_) _ <;> rfl
  · refine halted_within h ?_ ?_ rfl rfl
    · split <;> split <;> rfl
    · split <;> split <;> exact ha

/-- A lost acknowledgment opens a stop with a retry while there are any. -/
theorem retried_within {c c' : Tx} (h : Budgeted c) (hr : c'.retries = c.retries)
    (hsteps : c'.steps = c.steps) (ha : c'.retryPending = decide (c.retries < maxRetries))
    (hp : c'.phase = .stopping) (hs : c'.stopSteps = stopSteps link) : Within link c' (allowance link c) := by
  by_cases hlt : c.retries < maxRetries
  · have hlt' : c.retries.toNat < 3 := UInt8.lt_iff_toNat_lt.mp hlt
    refine ⟨⟨hr ▸ h.retries, by simp [hp, Phase.works], fun _ => hr ▸ hlt'⟩, by simp [hp], ?_⟩
    have hmul : (4 - c.retries.toNat) * stopRoom link = (3 - c.retries.toNat) * stopRoom link + stopRoom link := by
      rw [show 4 - c.retries.toNat = 3 - c.retries.toNat + 1 by omega, Nat.add_mul, Nat.one_mul]
    simp only [stepsLeft, hp, hs, ha, hlt, decide_true, if_true, hr, hsteps, allowance, hmul]
    unfold stopRoom
    omega
  · have hnone : c'.retryPending = false := by simpa [hlt] using ha
    exact (halted_within h hr hnone hp hs).mono ((Nat.le_succ _).trans (stopRoom_le h))

theorem noAck_within {c : Tx} (h : Budgeted c) (hp : c.phase = .ackWait) (now : UInt32) :
    Within link (noAck link c now).1 (allowance link c) := by
  unfold noAck stop
  simp only [spacing, hp]
  rw [if_neg (by simp), if_neg (by simp), if_neg (by simp)]
  exact retried_within h rfl rfl rfl rfl rfl

/-- A working phase that keeps its count of steps. -/
theorem works_within {c c' : Tx} (h : Budgeted c) (hw : c.phase.works = true) (hw' : c'.phase.works = true)
    (hr : c'.retries = c.retries) (hsteps : c'.steps = c.steps) (ha : c'.retryPending = c.retryPending) :
    Within link c' (allowance link c) := by
  refine ⟨⟨hr ▸ h.retries, fun _ => ha ▸ h.calm hw, fun hagain => ?_⟩, ?_, ?_⟩
  · rw [ha, h.calm hw] at hagain
    cases hagain
  · intro hidle
    rw [hidle] at hw'
    cases hw'
  · rw [stepsLeft_works hw', allowance, allowance, hr, hsteps]

/-! ## The ordinary engine -/

/-- The end of a stop: the transaction is done, or it begins its next attempt. -/
theorem retire_within {c : Tx} (h : Budgeted c) (hp : c.phase = .stopping) (finish : UInt32) :
    Within link (retire c finish) (stepsLeft link c - 1) := by
  unfold retire
  extract_lets d
  have hd : d.retries = c.retries ∧ d.steps = c.steps ∧ d.retryPending = c.retryPending := by
    cases hu : c.uncertain with
    | false => simp [d, hu]
    | true => simp [d, hu, spacing]
  obtain ⟨hr, hs, ha⟩ := hd
  split
  · rename_i hagain
    rw [ha] at hagain
    have hlt := h.again hagain
    have hretry : (d.retries + 1).toNat = c.retries.toNat + 1 := by
      rw [hr]
      simp only [UInt8.toNat_add, UInt8.reduceToNat]
      omega
    refine ⟨⟨?_, by simp, by simp⟩, by simp, ?_⟩
    · simp only [hretry]
      omega
    · have hsub : 4 - (c.retries.toNat + 1) = 3 - c.retries.toNat := by omega
      simp only [stepsLeft, hp, hagain, if_true, allowance, hretry, hs, hsub]
      omega
  · refine Within.ended (@Budgeted.finish c _ h ?_ (.inl ?_) (.inl ?_)) (.inl ?_) _
    · exact hr
    · rfl
    · exact ha
    · rfl

theorem stepStopping_within {c : Tx} (h : Budgeted c) (hp : c.phase = .stopping) (now : UInt32)
    (signal : Option Signal) : Within link (stepStopping c now signal) (stepsLeft link c - 1) := by
  unfold stepStopping
  simp only
  generalize hd : (if c.retryPending = true ∧ (reached now c.deadline = true ∨ c.steps = 0 ∨ signal = some .cancel) then
    { c with retryPending := false, outcome := ended c signal } else c) = d
  have hprops : Budgeted d ∧ d.phase = .stopping ∧ stepsLeft link d ≤ stepsLeft link c := by
    rw [← hd]
    split
    · refine ⟨⟨h.retries, by simp, by simp⟩, hp, ?_⟩
      simp [stepsLeft, hp]
    · exact ⟨h, hp, le_refl _⟩
  obtain ⟨hb, hphase, hle⟩ := hprops
  split
  · exact fault_within hb _ _
  rename_i hroom
  rw [not_or] at hroom
  have hpos : d.stopSteps.toNat ≠ 0 := fun hz => hroom.2 (UInt8.toNat_inj.mp hz)
  have hone : (d.stopSteps - 1).toNat = d.stopSteps.toNat - 1 := by
    have hlt := d.stopSteps.toNat_lt
    simp only [UInt8.toNat_sub, UInt8.reduceToNat]
    omega
  have hb' : Budgeted { d with stopSteps := d.stopSteps - 1 } := ⟨hb.retries, hb.calm, hb.again⟩
  have hless : stepsLeft link { d with stopSteps := d.stopSteps - 1 } + 1 ≤ stepsLeft link d := by
    simp only [stepsLeft, hphase, hone]
    omega
  split
  · exact fault_within hb' _ _
  · rename_i stamp
    have hretire := @retire_within link _ hb' hphase stamp
    exact hretire.mono (by omega)
  · exact ⟨hb', by simp [hphase], by omega⟩

theorem done_within {c c' : Tx} (h : Budgeted c) (hr : c'.retries = c.retries) (hp : c'.phase = .done)
    (ha : c'.retryPending = c.retryPending) (n : Nat) : Within link c' n :=
  Within.ended (h.finish hr (.inl hp) (.inl ha)) (.inl hp) n

theorem stepDrawn_within {c : Tx} (h : Budgeted c) (hw : c.phase.works = true) (now : UInt32) (value : UInt8) :
    Within link (stepDrawn c now value).1 (allowance link c) := by
  unfold stepDrawn
  simp only
  generalize (if reached now c.readyAt = true then now else c.readyAt) +
    (value.toUInt32 &&& ((1 <<< c.be.toUInt32) - 1)) * backoffSymbols = start
  split
  · refine done_within h ?_ ?_ ?_ _ <;> rfl
  · exact works_within h hw rfl rfl rfl rfl

theorem stepBusy_within {c : Tx} (h : Budgeted c) (hw : c.phase.works = true) :
    Within link (stepBusy c) (allowance link c) := by
  unfold stepBusy
  simp only
  split
  · refine done_within h ?_ ?_ ?_ _ <;> rfl
  · exact works_within h hw rfl rfl rfl rfl

theorem stepSent_within {c : Tx} (h : Budgeted c) (hw : c.phase.works = true) (now stamp : UInt32) :
    Within link (stepSent link c now stamp).1 (allowance link c) := by
  unfold stepSent
  simp only
  split
  · exact works_within h hw rfl rfl rfl rfl
  · refine (stop_within ?_ rfl now _).mono ((Nat.le_succ _).trans (stopRoom_le h))
    exact ⟨h.retries, fun _ => h.calm hw, h.again⟩

/-- An acknowledgment either says nothing or ends the wait. -/
theorem stepAck_within {c : Tx} (h : Budgeted c) (hp : c.phase = .ackWait) (now stamp : UInt32) (length : UInt16)
    (bytes : Bytes) :
    (stepAck link c now stamp length bytes).1 = c ∨
    ((stepAck link c now stamp length bytes).1.phase ≠ .ackWait ∧
      Within link (stepAck link c now stamp length bytes).1 (allowance link c)) := by
  have hw : c.phase.works = true := by simp [hp, Phase.works]
  unfold stepAck
  split
  swap
  · exact .inl rfl
  split
  · exact .inl rfl
  split
  · refine .inr ⟨by simp [stop, spacing, hp], ?_⟩
    refine (stop_within ?_ (by simp [spacing, hp, Phase.works]) now _).mono ((Nat.le_succ _).trans (stopRoom_le h))
    exact ⟨h.retries, fun _ => h.calm hw, h.again⟩
  · exact .inr ⟨by simp [noAck, stop, spacing, hp], noAck_within h hp now⟩

/-- The end of the wait, after what was heard. -/
theorem missed_within {c : Tx} (h : Budgeted c) (hp : c.phase = .ackWait) (now : UInt32) (r : Tx × ActionKind)
    (hr : r.1 = c ∨ (r.1.phase ≠ .ackWait ∧ Within link r.1 (allowance link c))) :
    Within link (if r.1.phase = .ackWait ∧ reached now (r.1.txEnd + ackSymbols) = true then noAck link r.1 now else r).1
      (allowance link c) := by
  rcases hr with hsame | ⟨hphase, hwithin⟩
  · have hw : c.phase.works = true := by simp [hp, Phase.works]
    split
    · rw [hsame]
      exact noAck_within h hp now
    · rw [hsame]
      exact works_within h hw hw rfl rfl rfl
  · rw [if_neg fun hmissed => hphase hmissed.1]
    exact hwithin

theorem stepAckWait_within {c : Tx} (h : Budgeted c) (hp : c.phase = .ackWait) (now : UInt32)
    (signal : Option Signal) : Within link (stepAckWait link c now signal).1 (allowance link c) := by
  unfold stepAckWait
  apply missed_within h hp now
  split
  · exact stepAck_within h hp now _ _ _
  · exact .inl rfl

/-- The working phases, with one unit of work spent. -/
theorem stepWork_within {c : Tx} (h : Budgeted c) (hw : c.phase.works = true) (now : UInt32)
    (signal : Option Signal) : Within link (stepWork link c now signal).1 (allowance link c) := by
  unfold stepWork
  split
  · exact works_within h hw rfl rfl rfl rfl
  · exact stepDrawn_within h hw now _
  · split
    · exact fault_within h _ _
    · exact stepBusy_within h hw
  · split
    · exact fault_within h _ _
    · exact stepSent_within h hw now _
  · rename_i hp
    exact stepAckWait_within h hp now _
  · exact works_within h hw hw rfl rfl rfl

theorem Phase.cases_active (p : Phase) (hidle : p ≠ .idle) (hdone : p ≠ .done) (hfault : p ≠ .fault) :
    p = .stopping ∨ p.works = true := by
  cases p <;> simp_all [Phase.works]

/-- A step of the ordinary engine in a transaction that is not over. -/
theorem advance_within {c : Tx} (h : Budgeted c) (hidle : c.phase ≠ .idle) (hdone : c.phase ≠ .done)
    (hfault : c.phase ≠ .fault) (now : UInt32) (event : Option Event) :
    Within link (advance link c now event).1 (stepsLeft link c - 1) := by
  unfold advance
  rw [if_neg (by simp [hdone, hfault])]
  split
  · exact fault_within h _ _
  generalize heard c now event = signal
  have hb : Budgeted { c with readyAt := readyFrom c now, last := now } := ⟨h.retries, h.calm, h.again⟩
  unfold stepActive
  rcases Phase.cases_active c.phase hidle hdone hfault with hp | hw
  · rw [if_pos hp]
    exact stepStopping_within hb hp now signal
  · have hne : c.phase ≠ .stopping := by
      intro hp
      rw [hp] at hw
      cases hw
    have hleft : stepsLeft link c = allowance link c := stepsLeft_works hw
    rw [if_neg hne]
    split
    · exact fault_within hb _ _
    split
    · refine (stop_within hb hw now _).mono ?_
      have hroom := @stopRoom_le link c h
      omega
    · rename_i hgo
      rw [not_or, not_or] at hgo
      have hpos : c.steps.toNat ≠ 0 := fun hz => hgo.2.1 (UInt16.toNat_inj.mp hz)
      have hone : (c.steps - 1).toNat = c.steps.toNat - 1 := by
        have hlt := c.steps.toNat_lt
        simp only [UInt16.toNat_sub, UInt16.reduceToNat]
        omega
      have hb' : Budgeted { c with readyAt := readyFrom c now, last := now, steps := c.steps - 1 } :=
        ⟨h.retries, h.calm, h.again⟩
      refine (stepWork_within hb' hw now signal).mono ?_
      simp only [hleft, allowance, hone]
      omega

/-- What a call does to the engine: nothing, or a step towards the end. -/
def Advances (link : Bool) (c c' : Tx) (result : Result) : Prop :=
  (c' = c ∧ (result ≠ .ok ∨ c.phase = .done ∨ c.phase = .fault)) ∨
    (result = .ok ∧ Within link c' (stepsLeft link c - 1))

theorem step_advances {c : Tx} (h : Budgeted c) (now : UInt32) (event : Option Event) :
    Advances link c (step link c now event).2.1 (step link c now event).1 := by
  unfold step
  split
  · exact .inl ⟨rfl, .inl (by simp)⟩
  split
  · exact .inl ⟨rfl, .inl (by simp)⟩
  rename_i hidle
  by_cases hover : c.phase = .done ∨ c.phase = .fault
  · left
    refine ⟨?_, .inr hover⟩
    simp [advance, hover]
  · rw [not_or] at hover
    exact .inr ⟨rfl, advance_within h hidle hover.1 hover.2 now event⟩

/-! ## Intervals and observations -/

theorem Budgeted.congr {c c' : Tx} (h : Budgeted c) (hr : c'.retries = c.retries) (hp : c'.phase = c.phase)
    (ha : c'.retryPending = c.retryPending) : Budgeted c' := by
  refine ⟨hr ▸ h.retries, fun hw => ?_, fun hagain => ?_⟩
  · rw [ha]
    exact h.calm (hp ▸ hw)
  · rw [hr]
    exact h.again (ha ▸ hagain)

theorem intervalStop_within {c : Tx} (h : Budgeted c) (hw : c.phase.works = true) (now : UInt32) (outcome : Outcome) :
    Within link (intervalStop link c now outcome).1 (stopRoom link) :=
  halted_within h rfl (h.calm hw) rfl rfl

theorem intervalNoAck_within {c : Tx} (h : Budgeted c) (now : UInt32) (upper : Stamp) :
    Within link (intervalNoAck link c now upper).1 (allowance link c) :=
  retried_within h rfl rfl rfl rfl rfl

theorem stepAckInterval_within {c : Tx} (h : Budgeted c) (hw : c.phase.works = true) (tx : IntervalTx) (now : UInt32)
    (e : IntervalEvent) : Within link (stepAckInterval link tx c now e).1 (allowance link c) := by
  have hstop := (Nat.le_succ _).trans (@stopRoom_le link c h)
  unfold stepAckInterval
  simp only
  split
  · exact fault_within h _ _
  split
  · exact works_within h hw hw rfl rfl rfl
  split
  · split
    · refine (intervalStop_within (h.congr ?_ ?_ ?_) ?_ now _).mono hstop
      · rfl
      · rfl
      · rfl
      · exact hw
    · exact intervalNoAck_within h now _
  split
  · refine (intervalStop_within (h.congr ?_ ?_ ?_) ?_ now _).mono hstop
    · rfl
    · rfl
    · rfl
    · exact hw
  · exact works_within h hw hw rfl rfl rfl

theorem intervalAckWait_within {tx : IntervalTx} (h : Budgeted tx.engine) (hp : tx.engine.phase = .ackWait)
    (now : UInt32) (event : Option IntervalEvent) :
    Within link (intervalAckWait link tx now event).1 (stepsLeft link tx.engine - 1) := by
  have hw : tx.engine.phase.works = true := by simp [hp, Phase.works]
  have hleft : stepsLeft link tx.engine = allowance link tx.engine := stepsLeft_works hw
  have hroom := @stopRoom_le link tx.engine h
  unfold intervalAckWait
  simp only
  split
  · exact fault_within h _ _
  generalize intervalHeard tx.engine now event = found
  split
  · refine fault_within (h.congr ?_ ?_ ?_) _ _ <;> rfl
  split
  · refine (intervalStop_within (h.congr ?_ ?_ ?_) ?_ now _).mono (by omega)
    · rfl
    · rfl
    · rfl
    · exact hw
  rename_i hgo
  rw [not_or, not_or] at hgo
  have hpos : tx.engine.steps.toNat ≠ 0 := fun hz => hgo.2.1 (UInt16.toNat_inj.mp hz)
  have hone : (tx.engine.steps - 1).toNat = tx.engine.steps.toNat - 1 := by
    have hlt := tx.engine.steps.toNat_lt
    simp only [UInt16.toNat_sub, UInt16.reduceToNat]
    omega
  generalize hc : ({ tx.engine with readyAt := readyFrom tx.engine now, last := now, steps := tx.engine.steps - 1 } : Tx) =
    c
  have hbc : Budgeted c := by
    rw [← hc]
    exact ⟨h.retries, h.calm, h.again⟩
  have hwc : c.phase.works = true := by
    rw [← hc]
    exact hw
  have hless : allowance link c ≤ stepsLeft link tx.engine - 1 := by
    rw [← hc, hleft]
    simp only [allowance, hone]
    omega
  split
  · exact (works_within hbc hwc hwc rfl rfl rfl).mono hless
  split
  · exact (stepAckInterval_within hbc hwc tx now _).mono hless
  split
  · unfold stepRxClosed
    split
    · exact fault_within hbc _ _
    · exact (intervalNoAck_within hbc now _).mono hless
  · exact (works_within hbc hwc hwc rfl rfl rfl).mono hless

theorem stepSentInterval_within {tx : IntervalTx} (h : Budgeted tx.engine) (hp : tx.engine.phase = .radio)
    (now : UInt32) (e : IntervalEvent) :
    Within link (stepSentInterval link tx now e).1.engine (stepsLeft link tx.engine) := by
  have hw : tx.engine.phase.works = true := by simp [hp, Phase.works]
  have hleft : stepsLeft link tx.engine = allowance link tx.engine := stepsLeft_works hw
  have hstop := (Nat.le_succ _).trans (@stopRoom_le link tx.engine h)
  rw [hleft]
  unfold stepSentInterval
  simp only
  split
  · exact fault_within h _ _
  split
  · exact works_within h hw rfl rfl rfl rfl
  · refine (intervalStop_within ?_ rfl now _).mono hstop
    exact ⟨h.retries, fun _ => h.calm hw, h.again⟩

theorem intervalStep_advances {tx : IntervalTx} (h : Budgeted tx.engine) (now : UInt32)
    (event : Option IntervalEvent) :
    Advances link tx.engine (intervalStep link tx now event).2.1.engine (intervalStep link tx now event).1 := by
  unfold intervalStep
  split
  · exact .inl ⟨rfl, .inl (by simp)⟩
  split
  swap
  · rename_i hp
    rw [not_not] at hp
    exact .inr ⟨rfl, intervalAckWait_within h hp now event⟩
  unfold intervalWork
  have hstep := @step_advances link _ h now (plainEvent event)
  have hresult := @step_result link tx.engine now (plainEvent event)
  simp only
  generalize step link tx.engine now (plainEvent event) = r at hstep hresult ⊢
  cases haction : r.2.2 with
  | none => exact hstep
  | some control =>
    simp only
    have hok : r.1 = .ok := hresult (by simp [haction])
    rw [hok] at hstep
    cases event with
    | none => exact hstep
    | some e =>
      simp only
      split
      · exact hstep
      rename_i hreport
      rw [not_or, not_not] at hreport
      rcases hstep with ⟨hsame, hover⟩ | ⟨-, hwithin⟩
      · -- A transaction that is over is not in the radio.
        rw [hsame] at hreport
        rcases hover with hover | hover | hover
        · exact absurd rfl hover
        · rw [hover] at hreport
          cases hreport.1
        · rw [hover] at hreport
          cases hreport.1
      · right
        have hsent := @stepSentInterval_within link ⟨r.2.1, tx.txLower, tx.txUpper⟩ hwithin.budgeted hreport.1 now e
        exact ⟨rfl, hsent.mono hwithin.left⟩

theorem observedBusy_within {c : Tx} (h : Budgeted c) (hp : c.phase = .radio) (lower : Stamp) :
    Within link (observedBusy c lower) (stepsLeft link c) := by
  have hw : c.phase.works = true := by simp [hp, Phase.works]
  have hleft : stepsLeft link c = allowance link c := stepsLeft_works hw
  rw [hleft]
  unfold observedBusy
  split
  · exact fault_within h _ _
  · exact stepBusy_within h hw

theorem observedStep_advances {tx : IntervalTx} (h : Budgeted tx.engine) (now : UInt32)
    (event : Option IntervalEvent) :
    Advances link tx.engine (observedStep link tx now event).2.1.engine (observedStep link tx now event).1 := by
  cases event with
  | none => exact intervalStep_advances h now none
  | some e =>
    unfold observedStep
    simp only
    split
    · exact intervalStep_advances h now (some e)
    split
    · exact .inl ⟨rfl, .inl (by simp)⟩
    have hpoll := @intervalStep_advances link tx h now none
    split
    · exact hpoll
    rename_i hok
    rw [not_not] at hok
    split
    · exact hpoll
    generalize hphase : (if e.source.kind = eventBusyInterval then Phase.radio else Phase.stopping) = awaited
    split
    · exact hpoll
    rename_i hawaited
    rw [not_or, not_not, not_not, ← hphase] at hawaited
    -- The phase before the poll is an active one, so the poll was a step.
    rcases hpoll with ⟨-, hover⟩ | ⟨-, hwithin⟩
    · rcases hover with hover | hover | hover
      · exact absurd hok hover
      · rw [hover] at hawaited
        split at hawaited <;> cases hawaited.1
      · rw [hover] at hawaited
        split at hawaited <;> cases hawaited.1
    · right
      refine ⟨rfl, ?_⟩
      simp only
      by_cases hbusy : e.source.kind = eventBusyInterval
      · rw [if_pos hbusy] at hawaited ⊢
        exact (observedBusy_within hwithin.budgeted hawaited.2 e.lower).mono hwithin.left
      · rw [if_neg hbusy] at hawaited ⊢
        rw [observedRetired_eq]
        refine (retire_within hwithin.budgeted hawaited.2 _).mono ?_
        have hle := hwithin.left
        omega

/-! ## Whole transactions -/

/-- A call of one of the three kinds of step. -/
inductive StepCall where
  | plain (now : UInt32) (event : Option Event)
  | interval (now : UInt32) (event : Option IntervalEvent)
  | observed (now : UInt32) (event : Option IntervalEvent)

/-- The result of a call and the engine after it. -/
def stepCall (link : Bool) (tx : IntervalTx) : StepCall → Result × IntervalTx
  | .plain now event =>
    let r := step link tx.engine now event
    (r.1, { tx with engine := r.2.1 })
  | .interval now event =>
    let r := intervalStep link tx now event
    (r.1, r.2.1)
  | .observed now event =>
    let r := observedStep link tx now event
    (r.1, r.2.1)

theorem stepCall_advances {tx : IntervalTx} (h : Budgeted tx.engine) (call : StepCall) :
    Advances link tx.engine (stepCall link tx call).2.engine (stepCall link tx call).1 := by
  cases call with
  | plain now event => exact step_advances h now event
  | interval now event => exact intervalStep_advances h now event
  | observed now event => exact observedStep_advances h now event

theorem ended_of_stepsLeft {c : Tx} (hactive : c.phase ≠ .idle) (h : stepsLeft link c = 0) :
    c.phase = .done ∨ c.phase = .fault := by
  cases hp : c.phase with
  | done => exact .inl rfl
  | fault => exact .inr rfl
  | idle => exact absurd hp hactive
  | stopping => simp [stepsLeft, hp] at h
  | draw => simp [stepsLeft, hp, allowance] at h
  | drawWait => simp [stepsLeft, hp, allowance] at h
  | radio => simp [stepsLeft, hp, allowance] at h
  | ackWait => simp [stepsLeft, hp, allowance] at h

/-- The transaction is over, or what was spent and what is left is in the budget. -/
structure InBudget (link : Bool) (budget : Nat) (results : List Result) (tx : IntervalTx) : Prop where
  budgeted : Budgeted tx.engine
  active : tx.engine.phase ≠ .idle
  sum : tx.engine.phase = .done ∨ tx.engine.phase = .fault ∨
    results.countP (· = .ok) + stepsLeft link tx.engine ≤ budget

theorem InBudget.call {budget : Nat} {results : List Result} {tx : IntervalTx} (h : InBudget link budget results tx)
    (call : StepCall) :
    InBudget link budget (results ++ [(stepCall link tx call).1]) (stepCall link tx call).2 := by
  have hcount : (results ++ [(stepCall link tx call).1]).countP (· = .ok) =
      results.countP (· = .ok) + if (stepCall link tx call).1 = .ok then 1 else 0 := by
    simp [List.countP_append, List.countP_cons]
  rcases @stepCall_advances link tx h.budgeted call with ⟨hsame, hover⟩ | ⟨hok, hwithin⟩
  · refine ⟨hsame ▸ h.budgeted, hsame ▸ h.active, ?_⟩
    rw [hsame]
    rcases hover with hne | hover | hover
    · rcases h.sum with hdone | hfault | hsum
      · exact .inl hdone
      · exact .inr (.inl hfault)
      · refine .inr (.inr ?_)
        rw [hcount, if_neg hne]
        exact hsum
    · exact .inl hover
    · exact .inr (.inl hover)
  · refine ⟨hwithin.budgeted, hwithin.active, ?_⟩
    have hleft := hwithin.left
    by_cases hover : tx.engine.phase = .done ∨ tx.engine.phase = .fault
    · -- A step of a transaction that is over leaves nothing to do.
      have hzero : stepsLeft link tx.engine = 0 := by rcases hover with hp | hp <;> simp [stepsLeft, hp]
      rw [hzero, Nat.zero_sub, Nat.le_zero] at hleft
      rcases ended_of_stepsLeft hwithin.active hleft with hdone | hfault
      · exact .inl hdone
      · exact .inr (.inl hfault)
    · rw [not_or] at hover
      have hsum := (h.sum.resolve_left hover.1).resolve_left hover.2
      have hpos : 0 < stepsLeft link tx.engine := by
        refine Nat.pos_of_ne_zero fun hzero => ?_
        rcases ended_of_stepsLeft h.active hzero with hdone | hfault
        · exact hover.1 hdone
        · exact hover.2 hfault
      refine .inr (.inr ?_)
      rw [hcount, if_pos hok]
      omega

/-- The steps a transaction with a work limit may take. -/
def stepBound (link : Bool) (work : UInt16) : Nat :=
  work.toNat + 1 + (maxRetries.toNat + 1) * ((stopSteps link).toNat + 1)

/-- What a submission hands to the steps. -/
theorem submit_fresh (tx : Tx) (body : Bytes) (now lifetime : UInt32) (work : UInt16)
    (h : (submit tx body now lifetime work).1 = .ok) :
    (submit tx body now lifetime work).2.phase = .draw ∧ (submit tx body now lifetime work).2.retries = 0 ∧
      (submit tx body now lifetime work).2.retryPending = false ∧
      (submit tx body now lifetime work).2.steps = work := by
  unfold submit at h ⊢
  repeat' split
  all_goals simp_all

theorem intervalSubmit_inBudget {tx after : IntervalTx} {body : Bytes} {now lifetime : UInt32} {work : UInt16}
    (h : intervalSubmit tx body now lifetime work = (.ok, after)) :
    InBudget link (stepBound link work) [] after := by
  unfold intervalSubmit at h
  simp only at h
  split at h
  · rename_i hok
    obtain ⟨-, rfl⟩ := Prod.mk.inj h
    obtain ⟨hphase, hretries, hagain, hsteps⟩ := submit_fresh tx.engine body now lifetime work hok
    refine ⟨⟨?_, fun _ => hagain, fun hset => ?_⟩, ?_, .inr (.inr ?_)⟩
    · simp [hretries]
    · simp [hagain] at hset
    · simp [hphase]
    · simp [stepsLeft, hphase, allowance, stepBound, stopRoom, maxRetries, hretries, hsteps]
  · rename_i hbad
    exact absurd (Prod.mk.inj h).1 hbad

/-- A transaction is over after as many accepted steps as its work, its
retries and the stops of its attempts allow, whatever is reported and when. -/
theorem transmit_progress (link : Bool) (tx after : IntervalTx) (body : Bytes) (now lifetime : UInt32)
    (work : UInt16) (h : intervalSubmit tx body now lifetime work = (.ok, after)) (calls : List StepCall)
    (hcount : stepBound link work ≤ (Runs.run (stepCall link) after calls).1.countP (· = .ok)) :
    (Runs.run (stepCall link) after calls).2.engine.phase = .done ∨
      (Runs.run (stepCall link) after calls).2.engine.phase = .fault := by
  have hrun := Runs.run_invariant (stepCall link) (InBudget link (stepBound link work)) after []
    (intervalSubmit_inBudget h) (fun _ _ call h => h.call call) calls
  rw [List.nil_append] at hrun
  rcases hrun.sum with hdone | hfault | hsum
  · exact .inl hdone
  · exact .inr hfault
  · -- Nothing is left, and only a transaction that is over has nothing left.
    have hzero : stepsLeft link (Runs.run (stepCall link) after calls).2.engine = 0 := by omega
    exact ended_of_stepsLeft hrun.active hzero

/-- A broadcast beacon request of eight octets, stepped without a report: the
work of one step is spent, the stop runs out and the engine is faulted. -/
theorem transmit_progress_silent :
    (Runs.run (stepCall false) (intervalSubmit (intervalInit 0 0) [3, 8, 0, 255, 255, 255, 255, 7] 0 1000 1).2
      (List.replicate 70 (.plain 0 none))).2.engine.phase = .done ∨
    (Runs.run (stepCall false) (intervalSubmit (intervalInit 0 0) [3, 8, 0, 255, 255, 255, 255, 7] 0 1000 1).2
      (List.replicate 70 (.plain 0 none))).2.engine.phase = .fault :=
  transmit_progress false (intervalInit 0 0) _ [3, 8, 0, 255, 255, 255, 255, 7] 0 1000 1 (by decide +kernel)
    (List.replicate 70 (.plain 0 none)) (by decide +kernel)

end MacTx
