import Cc2530Zigbee.BitMask
import Cc2530Zigbee.MacScan

/-!
# What a step of the scan can do

The masks of a scan change in two places only: where a window is closed, and where
the next channel is chosen. Everything else moves between phases.
-/
namespace MacScan

open BitMask (has single)
open MacTx (IntervalTx)

/-- The part of a scan that is kept for its result. -/
structure Book where
  remaining : UInt32
  unscanned : UInt32
  lossy : UInt32
  channel : UInt8
  saved : RadioState
  deriving DecidableEq, Repr

def Scan.book (s : Scan) : Book := ⟨s.remaining, s.unscanned, s.lossy, s.channel, s.saved⟩

theorem channelBit_eq {channel : UInt8} (h : channel ≤ 26) : channelBit channel = single channel.toNat := by
  have hall : ∀ c : UInt8, c ≤ 26 → channelBit c = single c.toNat := by decide +kernel
  exact hall channel h

section Frames

variable {link : Bool} {s : Scan} {now : UInt32}

@[simp] theorem stop_book (reason : Reason) : (stop link s reason now).book = s.book := by
  unfold stop
  simp only
  split_ifs <;> rfl

theorem stop_phase (reason : Reason) : (stop link s reason now).phase = if s.phase = .tx then .tx else .restore := by
  unfold stop
  simp only
  split_ifs <;> simp_all

@[simp] theorem stop_sent (reason : Reason) : (stop link s reason now).sent = s.sent := by
  unfold stop
  simp only
  split_ifs <;> rfl

theorem stop_reason (reason : Reason) :
    (stop link s reason now).reason = if s.reason = .none then reason else s.reason := by
  unfold stop
  simp only
  split_ifs <;> rfl

@[simp] theorem fault_book (reason : Reason) : (fault s reason).book = s.book := rfl
@[simp] theorem fault_phase (reason : Reason) : (fault s reason).phase = .fault := rfl
@[simp] theorem fault_sent (reason : Reason) : (fault s reason).sent = s.sent := rfl

theorem fault_reason (reason : Reason) : (fault s reason).reason = if s.reason = .none then reason else s.reason := rfl

end Frames

/-- The next channel is chosen, or there is none left and the scan is finished. -/
structure Next (s s' : Scan) : Prop where
  book : s'.book = s.book ∧ s.remaining = 0 ∧ s'.phase = .restore ∨
    s.remaining ≠ 0 ∧ s'.phase = .config ∧
      s'.book = { s.book with
        channel := lowest s.remaining
        remaining := s.remaining &&& ~~~channelBit (if lowest s.remaining ≤ 26 then lowest s.remaining else 26) }
  reason : s'.reason = .finished → s.reason = .finished ∨ s.remaining = 0
  sent : s'.sent = s.sent

theorem nextChannel_next (link : Bool) (s : Scan) (now : UInt32) (hphase : s.phase ≠ .tx) : Next s (nextChannel link s now) := by
  unfold nextChannel
  split
  next hzero =>
    refine ⟨.inl ⟨stop_book _, hzero, ?_⟩, fun _ => .inr hzero, stop_sent _⟩
    rw [stop_phase, if_neg hphase]
  next hsome => exact ⟨.inr ⟨hsome, rfl, rfl⟩, fun h => .inl h, rfl⟩

theorem nextChannel_issued (link : Bool) (s : Scan) (now : UInt32) (hphase : s.phase ≠ .tx) :
    (nextChannel link s now).issued = false := by
  unfold nextChannel stop
  simp only
  split_ifs <;> simp_all

/-- An accepted start begins with the first channel of its request. -/
theorem start_next {link : Bool} {s s' : Scan} {id : Nat} {tx : IntervalTx} {request : Request} {now : UInt32}
    (h : start link s id tx request now = (.ok, s')) :
    validRequest request = true ∧ Next (primed s id tx request now) s' := by
  unfold start at h
  split at h
  · cases h
  next hvalid =>
    split at h
    · cases h
    split at h
    · cases h
    split at h
    · cases h
    obtain ⟨-, rfl⟩ := Prod.mk.inj h
    exact ⟨not_not.1 hvalid, nextChannel_next link _ now (by simp [primed])⟩

/-- The channels a request went out on, behind a report of the transmitter. -/
def sentAfter (s : Scan) (tx : IntervalTx) : UInt32 :=
  if tx.engine.transmissions ≠ 0 then channelBit s.channel ||| s.sent else s.sent

/-- The radio confirmed the snapshot the scan has to restore. -/
def Restored (s : Scan) (h : Option (Report × Event)) : Prop := ∃ e, h = some (.restored, e) ∧ e.state = s.saved

/-- A step that leaves the book alone, with the phases it can lead to. -/
structure Quiet (h : Option (Report × Event)) (s : Scan) (tx : IntervalTx) (s' : Scan) : Prop where
  book : s'.book = s.book
  sent : s'.sent = s.sent ∨ s.phase = .tx ∧ s'.sent = sentAfter s tx
  opened : s'.phase = .open → s.phase = .open ∨
    s.phase = .tx ∧ tx.engine.phase = .done ∧ tx.engine.outcome = .unacknowledged ∧ s'.sent = sentAfter s tx
  listening : s'.phase = .rx → s.phase = .rx ∨ s.phase = .open
  reason : s'.reason = .finished → s.reason = .finished
  done : s'.phase = .done → s.phase = .done ∨ s.phase = .restore ∧ Restored s h
  busy : s'.phase ≠ .idle

/-- What a step can do. -/
inductive Turn (link : Bool) (h : Option (Report × Event)) (s : Scan) (tx : IntervalTx) (s' : Scan) : Prop
  | quiet (hquiet : Quiet h s tx s')
  | again (e : Event) (hphase : s.phase = .rx) (hheard : h = some (.closed, e))
      (hbook : s'.book = { s.book with lossy := channelBit s.channel ||| s.lossy }) (hnext : s'.phase = .config)
      (hreason : s'.reason = .finished → s.reason = .finished) (hsent : s'.sent = s.sent)
  | unanswered (mid : Scan) (hphase : s.phase = .tx) (hbook : mid.book = s.book)
      (hreason : mid.reason = .finished → s.reason = .finished) (hsent : mid.sent = sentAfter s tx) (hnext : Next mid s')
  | closed (e : Event) (mid : Scan) (hphase : s.phase = .rx) (hheard : h = some (.closed, e))
      (hwell : closedWell link s e = true)
      (hbook : mid.book = { s.book with
        lossy := settled link s e
        unscanned := ~~~channelBit s.channel &&& s.unscanned })
      (hreason : mid.reason = .finished → s.reason = .finished) (hsent : mid.sent = s.sent) (hnext : Next mid s')

section Phases

variable {link : Bool} {build : Build} {s : Scan} {tx : IntervalTx} {now : UInt32} {h : Option (Report × Event)}

/-- A scan of the same phase, as far as a result goes. -/
structure Alike (s s' : Scan) : Prop where
  book : s'.book = s.book
  phase : s'.phase = s.phase
  reason : s'.reason = s.reason
  sent : s'.sent = s.sent

theorem Alike.next {s mid s' : Scan} (h : Next s mid) (ha : Alike mid s') : Next s s' := by
  refine ⟨?_, ?_, ha.sent.trans h.sent⟩
  · rw [ha.book, ha.phase]
    exact h.book
  · rw [ha.reason]
    exact h.reason

theorem Alike.turn {mid s' : Scan} (ht : Turn link h s tx mid) (ha : Alike mid s') : Turn link h s tx s' := by
  cases ht with
  | quiet hq =>
    refine .quiet ⟨ha.book.trans hq.book, ?_, ?_, ?_, ?_, ?_, ?_⟩
    · rw [ha.sent]
      exact hq.sent
    · rw [ha.phase, ha.sent]
      exact hq.opened
    · rw [ha.phase]
      exact hq.listening
    · rw [ha.reason]
      exact hq.reason
    · rw [ha.phase]
      exact hq.done
    · rw [ha.phase]
      exact hq.busy
  | again e hphase hheard hbook hnext hreason hsent =>
    exact .again e hphase hheard (ha.book.trans hbook) (ha.phase.trans hnext) (fun hr => hreason (ha.reason ▸ hr))
      (ha.sent.trans hsent)
  | unanswered m hphase hbook hreason hsent hnext => exact .unanswered m hphase hbook hreason hsent (ha.next hnext)
  | closed e m hphase hheard hwell hbook hreason hsent hnext =>
    exact .closed e m hphase hheard hwell hbook hreason hsent (ha.next hnext)

/-- A step into a phase that nothing depends on. -/
theorem Quiet.plain {s' : Scan} (hbook : s'.book = s.book) (hsent : s'.sent = s.sent)
    (hreason : s'.reason = .finished → s.reason = .finished)
    (hphase : s'.phase = .config ∨ s'.phase = .submit ∨ s'.phase = .tx ∨ s'.phase = .restore ∨ s'.phase = .fault) :
    Quiet h s tx s' := by
  refine ⟨hbook, .inl hsent, fun hp => ?_, fun hp => ?_, hreason, fun hp => ?_, fun hp => ?_⟩
  all_goals
    rw [hp] at hphase
    simp at hphase

theorem Quiet.same {s' : Scan} (ha : Alike s s') (hbusy : s.phase ≠ .idle) : Quiet h s tx s' where
  book := ha.book
  sent := .inl ha.sent
  opened := fun hp => .inl (ha.phase ▸ hp)
  listening := fun hp => .inl (ha.phase ▸ hp)
  reason := fun hr => ha.reason ▸ hr
  done := fun hp => .inl (ha.phase ▸ hp)
  busy := by
    rw [ha.phase]
    exact hbusy

theorem stop_finished {reason : Reason} (hne : reason ≠ .finished) (hr : (stop link s reason now).reason = .finished) :
    s.reason = .finished := by
  rw [stop_reason] at hr
  split at hr
  · exact absurd hr hne
  · exact hr

theorem fault_finished {reason : Reason} (hne : reason ≠ .finished) (hr : (fault s reason).reason = .finished) :
    s.reason = .finished := by
  rw [fault_reason] at hr
  split at hr
  · exact absurd hr hne
  · exact hr

theorem Quiet.stopped (reason : Reason) (hne : reason ≠ .finished) : Quiet h s tx (stop link s reason now) := by
  refine .plain (stop_book _) (stop_sent _) (stop_finished hne) ?_
  rw [stop_phase]
  split
  · exact .inr (.inr (.inl rfl))
  · exact .inr (.inr (.inr (.inl rfl)))

theorem stepConfig_turn (hphase : s.phase = .config) :
    Turn link h s tx (stepConfig link s tx now h).scan := by
  have hbusy : s.phase ≠ .idle := by simp [hphase]
  unfold stepConfig
  split
  · exact .quiet (.same ⟨rfl, rfl, rfl, rfl⟩ hbusy)
  split
  · simp only [Moved.quiet]
    split
    · exact .quiet (.stopped _ (by simp))
    · exact .quiet (.plain rfl rfl (fun hr => hr) (.inr (.inl rfl)))
  · exact .quiet (.same ⟨rfl, rfl, rfl, rfl⟩ hbusy)

theorem stepSubmit_turn : Turn link h s tx (stepSubmit link s tx now).scan := by
  unfold stepSubmit
  simp only
  split
  · exact .quiet (.stopped _ (by simp))
  · exact .quiet (.plain rfl rfl (fun hr => hr) (.inr (.inr (.inl rfl))))

theorem stepOpen_turn (hphase : s.phase = .open) :
    Turn link h s tx (stepOpen link s tx now h).scan := by
  have hbusy : s.phase ≠ .idle := by simp [hphase]
  unfold stepOpen
  split
  · exact .quiet (.same ⟨rfl, rfl, rfl, rfl⟩ hbusy)
  split
  · simp only [Moved.quiet]
    split
    · exact .quiet (.stopped _ (by simp))
    · exact .quiet ⟨rfl, .inl rfl, nofun, fun _ => .inr hphase, fun hr => hr, nofun, nofun⟩
  · exact .quiet (.same ⟨rfl, rfl, rfl, rfl⟩ hbusy)

theorem Next.phase {s s' : Scan} (h : Next s s') : s'.phase = .restore ∨ s'.phase = .config := by
  rcases h.book with ⟨_, _, hp⟩ | ⟨_, hp, _⟩
  · exact .inl hp
  · exact .inr hp

theorem stepClosed_turn (e : Event) (hphase : s.phase = .rx) (hheard : h = some (.closed, e)) :
    Turn link h s tx (stepClosed link s now e) ∧ (stepClosed link s now e).phase ≠ .rx := by
  have hne : s.phase ≠ .tx := by simp [hphase]
  have hstopped : (stop link s .adapterError now).phase ≠ .rx := by
    rw [stop_phase, if_neg hne]
    simp
  unfold stepClosed
  split
  · exact ⟨.quiet (.stopped _ (by simp)), hstopped⟩
  next hwell =>
    split
    · exact ⟨.quiet (.stopped _ (by simp)), hstopped⟩
    split
    · exact ⟨.again e hphase hheard rfl rfl (fun hr => hr) rfl, by simp⟩
    · have hnext := nextChannel_next link { s with
        lossy := settled link s e
        unscanned := ~~~channelBit s.channel &&& s.unscanned } now hne
      refine ⟨.closed e { s with
        lossy := settled link s e
        unscanned := ~~~channelBit s.channel &&& s.unscanned } hphase hheard (not_not.1 hwell) rfl (fun hr => hr) rfl
        hnext, ?_⟩
      rcases hnext.phase with hp | hp <;> simp [hp]

/-- The grace behind a window that nobody closed. -/
theorem stepRx_late {m : Moved} (hphase : s.phase = .rx) (ha : Alike s m.scan) :
    Turn link h s tx
      (if m.scan.phase = .rx ∧ MacTx.reached now (m.scan.windowEnd + closeGrace link) then
        { m with scan := stop link m.scan .closeMissing now } else m).scan := by
  split
  · refine .quiet (.plain ?_ ?_ ?_ ?_)
    · exact (stop_book _).trans ha.book
    · exact (stop_sent _).trans ha.sent
    · exact fun hr => ha.reason ▸ stop_finished (by simp) hr
    · rw [stop_phase, ha.phase, hphase]
      simp
  · exact .quiet (.same ha (by simp [hphase]))

theorem stepRx_turn (hphase : s.phase = .rx) : Turn link h s tx (stepRx link build s tx now h).scan := by
  have hquiet : Alike s (Moved.quiet s tx).scan := ⟨rfl, rfl, rfl, rfl⟩
  unfold stepRx
  simp only
  split
  next e =>
    obtain ⟨hturn, hclosed⟩ :
        Turn link (some (.closed, e)) s tx (stepClosed link s now e) ∧ (stepClosed link s now e).phase ≠ .rx :=
      stepClosed_turn e hphase rfl
    rw [if_neg fun hrx => hclosed hrx.1]
    exact hturn
  next e =>
    split
    · exact stepRx_late hphase ⟨rfl, rfl, rfl, rfl⟩
    · exact stepRx_late hphase hquiet
  · exact stepRx_late hphase hquiet

/-- A report of the transmitter that leaves the channel as it is. -/
theorem Quiet.reported {s' : Scan} (hphase : s.phase = .tx) (hbook : s'.book = s.book) (hsent : s'.sent = sentAfter s tx)
    (hreason : s'.reason = .finished → s.reason = .finished)
    (hnext : s'.phase = .config ∨ s'.phase = .tx ∨ s'.phase = .restore ∨ s'.phase = .fault) : Quiet h s tx s' := by
  refine ⟨hbook, .inr ⟨hphase, hsent⟩, fun hp => ?_, fun hp => ?_, hreason, fun hp => ?_, fun hp => ?_⟩
  all_goals
    rw [hp] at hnext
    simp at hnext

theorem requested_turn {mid : Scan} (hphase : s.phase = .tx) (hbook : mid.book = s.book) (hreason : mid.reason = s.reason)
    (hsent : mid.sent = sentAfter s tx) (hdone : tx.engine.phase = .done) (hout : mid.txOutcome = tx.engine.outcome) :
    Turn link h s tx (requested link mid now) := by
  have hrestore : ∀ reason, (stop link { mid with phase := .open } reason now).phase = .restore := fun reason => by
    rw [stop_phase]
    simp
  have hstop : ∀ reason, (reason = .finished → mid.reason = .finished) →
      Quiet h s tx (stop link { mid with phase := .open } reason now) := by
    intro reason hne
    refine .reported hphase ((stop_book _).trans hbook) ((stop_sent _).trans hsent) ?_ (.inr (.inr (.inl (hrestore _))))
    rw [stop_reason, ← hreason]
    simp only
    split
    · exact fun hr => hne hr
    · exact fun hr => hr
  unfold requested
  simp only
  split
  · exact .quiet (hstop _ fun hr => hr)
  split
  · split
    · exact .quiet (.reported hphase hbook hsent (fun hr => hreason ▸ hr) (.inl rfl))
    · exact .unanswered { mid with phase := .open } hphase hbook (fun hr => hreason ▸ hr) hsent
        (nextChannel_next link _ now (by simp))
  split
  · exact .quiet (hstop _ (by simp))
  next hunack =>
    refine .quiet ⟨hbook, .inr ⟨hphase, hsent⟩, fun _ => .inr ⟨hphase, hdone, ?_, hsent⟩, nofun, fun hr => hreason ▸ hr,
      nofun, nofun⟩
    rw [← hout]
    exact not_not.1 hunack

theorem stepTxReport_turn (e : Event) (hphase : s.phase = .tx) : Turn link h s tx (stepTxReport link s tx now e).1 := by
  unfold stepTxReport
  simp only
  split
  · exact .quiet (.reported hphase rfl rfl (fault_finished (by simp)) (.inr (.inr (.inr rfl))))
  split
  next hdone => exact requested_turn hphase rfl rfl rfl hdone rfl
  · exact .quiet (.reported hphase rfl rfl (fun hr => hr) (.inr (.inl hphase)))

/-- Granting the next step of the transmitter changes nothing else. -/
theorem stepTx_grant {r : Scan × IntervalTx} (cancel : Bool) (hturn : Turn link h s tx r.1) :
    Turn link h s tx
      (if r.1.phase = Phase.tx ∧ ¬ r.1.issued then { grant r.1 r.2 ActionKind.tx with txCancel := cancel }
        else Moved.quiet r.1 r.2).scan := by
  split
  · exact Alike.turn hturn ⟨rfl, rfl, rfl, rfl⟩
  · exact hturn

theorem stepTx_turn (hphase : s.phase = .tx) : Turn link h s tx (stepTx link s tx now h).scan := by
  have hsame : Turn link h s tx s := .quiet (.same ⟨rfl, rfl, rfl, rfl⟩ (by simp [hphase]))
  unfold stepTx
  simp only
  refine stepTx_grant _ ?_
  split
  · split
    · exact stepTxReport_turn _ hphase
    · exact hsame
  · exact hsame

theorem stepPhase_turn (hbusy : s.phase ≠ .idle) : Turn link h s tx (stepPhase link build s tx now h).scan := by
  have hsame : Turn link h s tx s := .quiet (.same ⟨rfl, rfl, rfl, rfl⟩ hbusy)
  unfold stepPhase
  split
  next hphase => exact stepConfig_turn hphase
  next => exact stepSubmit_turn
  next hphase => exact stepTx_turn hphase
  next hphase => exact stepOpen_turn hphase
  next hphase => exact stepRx_turn hphase
  all_goals exact hsame

/-- The scan is granted what it asks for in the cleanup, or what it asked for is settled. -/
theorem stepRestore_cases (m : Moved) :
    Alike m.scan (stepRestore m h).scan ∨
      m.scan.phase = .restore ∧ m.scan.issued = true ∧ (stepRestore m h).scan.book = m.scan.book ∧
        (stepRestore m h).scan.sent = m.scan.sent ∧
        ((stepRestore m h).scan.reason = .finished → m.scan.reason = .finished) ∧
        ((stepRestore m h).scan.phase = .fault ∨ (stepRestore m h).scan.phase = .done ∧ Restored m.scan h) := by
  unfold stepRestore
  split
  · exact .inl ⟨rfl, rfl, rfl, rfl⟩
  next hrestore =>
    split
    · exact .inl ⟨rfl, rfl, rfl, rfl⟩
    next hissued =>
      split
      next e =>
        refine .inr ⟨not_not.1 hrestore, not_not.1 hissued, ?_⟩
        simp only
        split
        · exact ⟨rfl, rfl, fault_finished (by simp), .inl rfl⟩
        next hstate => exact ⟨rfl, rfl, fun hr => hr, .inr ⟨rfl, e, rfl, not_not.1 hstate⟩⟩
      · exact .inl ⟨rfl, rfl, rfl, rfl⟩

end Phases

/-- The bounds of a step leave the book alone and lead to the cleanup at most. -/
structure Governed (s s' : Scan) : Prop where
  book : s'.book = s.book
  sent : s'.sent = s.sent
  reason : s'.reason = .finished → s.reason = .finished
  windowEnd : s'.windowEnd = s.windowEnd
  phase : s'.phase = s.phase ∧ s'.issued = s.issued ∨ s.phase ≠ .tx ∧ s'.phase = .restore ∧ s'.issued = false

theorem stop_governed (link : Bool) (s : Scan) (reason : Reason) (now : UInt32) (hne : reason ≠ .finished) :
    Governed s (stop link s reason now) := by
  refine ⟨stop_book _, stop_sent _, stop_finished hne, ?_, ?_⟩
  · unfold stop
    simp only
    split_ifs <;> rfl
  · by_cases htx : s.phase = .tx
    · refine .inl ⟨by rw [stop_phase, if_pos htx, htx], ?_⟩
      unfold stop
      simp only [htx]
      split_ifs <;> simp_all
    · refine .inr ⟨htx, by rw [stop_phase, if_neg htx], ?_⟩
      unfold stop
      simp only
      split_ifs <;> simp_all

theorem govern_cases (link : Bool) (s : Scan) (now : UInt32) (h : Option (Report × Event)) :
    (∃ s', govern link s now h = .ok s' ∧ Governed s s') ∨
      govern link s now h = .error (fault s .cleanupFailed) := by
  unfold govern
  split
  · split
    · exact .inr rfl
    · exact .inl ⟨_, rfl, rfl, rfl, fun hr => hr, rfl, .inl ⟨rfl, rfl⟩⟩
  split
  · have hall : ∀ reason, reason ≠ .finished →
        Governed s (stop link { s with uncertain := s.uncertain || hears h .failure } reason now) := by
      intro reason hne
      have hg := stop_governed link { s with uncertain := s.uncertain || hears h .failure } reason now hne
      exact ⟨hg.book, hg.sent, hg.reason, hg.windowEnd, hg.phase⟩
    refine .inl ⟨_, rfl, hall _ ?_⟩
    split_ifs <;> simp
  · exact .inl ⟨_, rfl, rfl, rfl, fun hr => hr, rfl, .inl ⟨rfl, rfl⟩⟩

theorem Book.fields {s s' : Scan} (h : s'.book = s.book) :
    s'.remaining = s.remaining ∧ s'.unscanned = s.unscanned ∧ s'.lossy = s.lossy ∧ s'.channel = s.channel ∧
      s'.saved = s.saved := by
  simpa only [Scan.book, Book.mk.injEq] using h

/-- Within the bounds a step is what its phase does. -/
theorem Governed.turn {link : Bool} {h : Option (Report × Event)} {s mid s' : Scan} {tx : IntervalTx} (hg : Governed s mid)
    (hphase : mid.phase = s.phase) (ht : Turn link h mid tx s') : Turn link h s tx s' := by
  obtain ⟨hrem, huns, hlossy, hchan, hsaved⟩ := Book.fields hg.book
  have hafter : sentAfter mid tx = sentAfter s tx := by
    unfold sentAfter
    rw [hchan, hg.sent]
  cases ht with
  | quiet hq =>
    refine .quiet ⟨hq.book.trans hg.book, ?_, ?_, ?_, fun hr => hg.reason (hq.reason hr), ?_, hq.busy⟩
    · rw [← hg.sent, ← hafter, ← hphase]
      exact hq.sent
    · rw [← hafter, ← hphase]
      exact hq.opened
    · rw [← hphase]
      exact hq.listening
    · rw [← hphase]
      unfold Restored
      rw [← hsaved]
      exact hq.done
  | again e hp hheard hbook hnext hreason hsent =>
    refine .again e (hphase ▸ hp) hheard ?_ hnext (fun hr => hg.reason (hreason hr)) (hsent.trans hg.sent)
    rw [hbook, hg.book, hchan, hlossy]
  | unanswered m hp hbook hreason hsent hnext =>
    exact .unanswered m (hphase ▸ hp) (hbook.trans hg.book) (fun hr => hg.reason (hreason hr)) (hsent.trans hafter) hnext
  | closed e m hp hheard hwell hbook hreason hsent hnext =>
    have hwell' : closedWell link s e = true := by
      unfold closedWell at hwell ⊢
      rwa [hg.windowEnd, hchan] at hwell
    have hsettled : settled link mid e = settled link s e := by
      unfold settled
      rw [hchan, hlossy]
    refine .closed e m (hphase ▸ hp) hheard hwell' ?_ (fun hr => hg.reason (hreason hr)) (hsent.trans hg.sent) hnext
    rw [hbook, hg.book, hchan, huns, hsettled]

/-- Nothing has been asked for yet when a step leads into the cleanup. -/
def Enters (s' : Scan) : Prop := s'.phase = .restore → s'.issued = false

theorem stop_enters (link : Bool) (s : Scan) (reason : Reason) (now : UInt32) : Enters (stop link s reason now) := by
  intro hp
  unfold stop at hp ⊢
  simp only at hp ⊢
  split_ifs at hp ⊢ <;> simp_all

theorem nextChannel_enters (link : Bool) (s : Scan) (now : UInt32) : Enters (nextChannel link s now) := by
  unfold nextChannel
  split
  · exact stop_enters link s .finished now
  · exact fun _ => rfl

theorem enters_of_phase {s : Scan} (h : s.phase ≠ .restore) : Enters s := fun hp => absurd hp h

section Enters

variable {link : Bool} {build : Build} {s : Scan} {tx : IntervalTx} {now : UInt32} {h : Option (Report × Event)}

theorem requested_enters (mid : Scan) : Enters (requested link mid now) := by
  unfold requested
  simp only
  split
  · exact stop_enters _ _ _ _
  split
  · split
    · exact fun _ => rfl
    · exact nextChannel_enters _ _ _
  split
  · exact stop_enters _ _ _ _
  · exact enters_of_phase (by simp)

theorem stepTx_grant_enters {r : Scan × IntervalTx} (cancel : Bool) (hr : Enters r.1) :
    Enters (if r.1.phase = Phase.tx ∧ ¬ r.1.issued then { grant r.1 r.2 ActionKind.tx with txCancel := cancel }
      else Moved.quiet r.1 r.2).scan := by
  split
  next hgrant => exact enters_of_phase (by simp [grant, Moved.quiet, hgrant.1])
  · exact hr

theorem stepRx_late_enters {m : Moved} (hm : Enters m.scan) :
    Enters (if m.scan.phase = .rx ∧ MacTx.reached now (m.scan.windowEnd + closeGrace link) then
      { m with scan := stop link m.scan .closeMissing now } else m).scan := by
  split
  · exact stop_enters _ _ _ _
  · exact hm

theorem stepTx_enters (hphase : s.phase = .tx) : Enters (stepTx link s tx now h).scan := by
  have hsame : Enters s := enters_of_phase (by simp [hphase])
  have hreport : ∀ e, Enters (stepTxReport link s tx now e).1 := by
    intro e
    unfold stepTxReport
    simp only
    split
    · exact enters_of_phase (by simp)
    split
    · exact requested_enters _
    · exact enters_of_phase (by simp [hphase])
  unfold stepTx
  simp only
  refine stepTx_grant_enters _ ?_
  split
  · split
    · exact hreport _
    · exact hsame
  · exact hsame

theorem stepClosed_enters (e : Event) : Enters (stepClosed link s now e) := by
  unfold stepClosed
  split
  · exact stop_enters _ _ _ _
  split
  · exact stop_enters _ _ _ _
  split
  · exact fun _ => rfl
  · exact nextChannel_enters _ _ _

theorem stepRx_enters (hphase : s.phase = .rx) : Enters (stepRx link build s tx now h).scan := by
  have hsame : Enters s := enters_of_phase (by simp [hphase])
  unfold stepRx
  simp only
  refine stepRx_late_enters ?_
  split
  · exact stepClosed_enters _
  · split
    · exact enters_of_phase (by simp [Moved.quiet, hphase])
    · exact hsame
  · exact hsame

theorem stepPhase_enters (hrestore : s.phase ≠ .restore) : Enters (stepPhase link build s tx now h).scan := by
  unfold stepPhase
  split
  next hphase =>
    unfold stepConfig
    split
    · exact enters_of_phase (by simp [grant, Moved.quiet, hphase])
    split
    · simp only [Moved.quiet]
      split
      · exact stop_enters _ _ _ _
      · exact enters_of_phase (by simp)
    · exact enters_of_phase (by simp [Moved.quiet, hphase])
  next =>
    unfold stepSubmit
    simp only
    split
    · exact stop_enters _ _ _ _
    · exact enters_of_phase (by simp [Moved.quiet])
  next hphase => exact stepTx_enters hphase
  next hphase =>
    unfold stepOpen
    split
    · exact enters_of_phase (by simp [grant, Moved.quiet, hphase])
    split
    · simp only [Moved.quiet]
      split
      · exact stop_enters _ _ _ _
      · exact enters_of_phase (by simp)
    · exact enters_of_phase (by simp [Moved.quiet, hphase])
  next hphase => exact stepRx_enters hphase
  all_goals exact enters_of_phase (by simpa [Moved.quiet] using hrestore)

/-- In the cleanup only the cleanup acts. -/
theorem stepPhase_restore (hphase : s.phase = .restore) : stepPhase link build s tx now h = .quiet s tx := by
  unfold stepPhase
  split <;> simp_all

theorem stepRestore_tx (m : Moved) : (stepRestore m h).tx = m.tx := by
  unfold stepRestore
  split
  · rfl
  split
  · rfl
  split <;> rfl

/-- Only the confirmed cleanup ends a scan. -/
theorem stepPhase_not_done (hbusy : s.phase ≠ .idle) (hdone : s.phase ≠ .done) :
    (stepPhase link build s tx now h).scan.phase ≠ .done := by
  intro hend
  have hturn : Turn link h s tx (stepPhase link build s tx now h).scan := stepPhase_turn hbusy
  cases hturn with
  | quiet hq =>
    rcases hq.done hend with hp | ⟨hp, _⟩
    · exact hdone hp
    · rw [stepPhase_restore hp] at hend
      exact hdone hend
  | again e _ _ _ hnext => simp [hend] at hnext
  | unanswered m _ _ _ _ hnext => rcases hnext.phase with hp | hp <;> simp [hend] at hp
  | closed e m _ _ _ _ _ _ hnext => rcases hnext.phase with hp | hp <;> simp [hend] at hp

variable (link build tx now h) in
/-- A step within the bounds. -/
theorem Governed.stepped {mid : Scan} (hg : Governed s mid) (hbusy : s.phase ≠ .idle) (hdone : s.phase ≠ .done) :
    let m := stepRestore (stepPhase link build mid tx now h) h
    Turn link h s tx m.scan ∧ (m.scan.phase = .done → s.phase ≠ .tx ∧ m.tx = tx) := by
  have hmid : mid.phase ≠ .idle ∧ mid.phase ≠ .done := by
    rcases hg.phase with ⟨hp, _⟩ | ⟨_, hp, _⟩
    · rw [hp]
      exact ⟨hbusy, hdone⟩
    · simp [hp]
  simp only
  rw [stepRestore_tx]
  rcases stepRestore_cases (h := h) (stepPhase link build mid tx now h) with
    halike | ⟨hrest, hissued, hbook, hsent, hreason, hend⟩
  · refine ⟨?_, fun hp => absurd (halike.phase ▸ hp) (stepPhase_not_done hmid.1 hmid.2)⟩
    refine halike.turn ?_
    rcases hg.phase with ⟨hp, _⟩ | ⟨_, hp, _⟩
    · exact hg.turn hp (stepPhase_turn hmid.1)
    · rw [stepPhase_restore hp]
      exact .quiet (.plain hg.book hg.sent hg.reason (.inr (.inr (.inr (.inl hp)))))
  · have hmidr : mid.phase = .restore := by
      by_contra hne
      rw [stepPhase_enters hne hrest] at hissued
      cases hissued
    rw [stepPhase_restore hmidr] at hrest hissued hbook hsent hreason hend ⊢
    rcases hg.phase with ⟨hp, _⟩ | ⟨_, _, hi⟩
    · have hs : s.phase = .restore := hp ▸ hmidr
      refine ⟨.quiet ⟨hbook.trans hg.book, .inl (hsent.trans hg.sent), fun ho => ?_, fun ho => ?_,
        fun hr => hg.reason (hreason hr), fun ho => ?_, fun ho => ?_⟩, fun _ => ⟨by simp [hs], rfl⟩⟩
      · rcases hend with he | ⟨he, _⟩ <;> simp [ho] at he
      · rcases hend with he | ⟨he, _⟩ <;> simp [ho] at he
      · rcases hend with he | ⟨_, e, hheard, hstate⟩
        · simp [ho] at he
        · exact .inr ⟨hs, e, hheard, hstate.trans (Book.fields hg.book).2.2.2.2⟩
      · rcases hend with he | ⟨he, _⟩ <;> simp [ho] at he
    · simp [Moved.quiet, hi] at hissued

theorem advance_turn (event : Option Event) (hbusy : s.phase ≠ .idle) :
    let m := advance link build s tx now event
    Turn link (heard link s now event) s tx m.scan ∧
      (m.scan.phase = .done → s.phase = .done ∨ tx.engine.phase = .idle ∧ m.tx = tx) := by
  unfold advance
  simp only
  split
  next hended =>
    refine ⟨.quiet (.same ⟨rfl, rfl, rfl, rfl⟩ hbusy), fun hp => .inl hp⟩
  next hlive =>
    obtain ⟨hdone, _⟩ := not_or.1 hlive
    have hfault : ∀ reason, reason ≠ .finished →
        Quiet (heard link s now event) s tx (fault { s with last := now } reason) := fun reason hne =>
      .plain rfl rfl (fault_finished hne) (.inr (.inr (.inr (.inr rfl))))
    split
    · exact ⟨.quiet (.plain rfl rfl (fault_finished (by simp)) (.inr (.inr (.inr (.inr rfl))))), nofun⟩
    split
    · exact ⟨.quiet (hfault _ (by simp)), nofun⟩
    next hengine =>
      obtain ⟨_, hidle⟩ := not_or.1 hengine
      rcases govern_cases link { s with last := now } now (heard link s now event) with ⟨mid, hok, hg⟩ | herror
      · rw [hok]
        have hg' : Governed s mid := ⟨hg.book, hg.sent, hg.reason, hg.windowEnd, hg.phase⟩
        obtain ⟨hturn, hend⟩ := hg'.stepped link build tx now (heard link s now event) hbusy hdone
        refine ⟨hturn, fun hp => .inr ?_⟩
        obtain ⟨hntx, htx⟩ := hend hp
        exact ⟨by_contra fun hne => hidle ⟨hntx, hne⟩, htx⟩
      · rw [herror]
        exact ⟨.quiet (hfault _ (by simp)), nofun⟩

end Enters

end MacScan
