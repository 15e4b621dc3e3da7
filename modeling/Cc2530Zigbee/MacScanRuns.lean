import Cc2530Zigbee.MacScanTurns
import Cc2530Zigbee.MacTxProgress
import Cc2530Zigbee.Runs

/-!
# Runs of scans

Scans on one context, one after the other, with everything that may happen to the
device's transmitter in between. The context keeps the mask of loss from one request
to the next.
-/
namespace MacScan

open Octets
open BitMask (has Within)
open MacTx (IntervalTx)

/-- A call of the scan, or of the transmitter by anybody. -/
inductive Op where
  | init
  | start (id : Nat) (request : Request) (now : UInt32)
  | step (id : Nat) (now : UInt32) (event : Option Event)
  | release (id : Nat)
  | device (call : MacTx.StepCall)
  | submitTx (body : Bytes) (now lifetime : UInt32) (work : UInt16)
  | releaseTx

/-- The scan, the transmitter, and of the present request: its channels, those chosen in
order, those whose window was opened, and the mask of loss it found. -/
structure World where
  scan : Scan
  tx : IntervalTx
  requested : UInt32
  chosen : List UInt8
  opened : UInt32
  carried : UInt32
  deriving DecidableEq

/-- A scan context and a transmitter nobody has used. -/
def World.fresh (dsn : UInt8) (now : UInt32) : World := ⟨MacScan.init, MacTx.intervalInit dsn now, 0, [], 0, 0⟩

/-- The world behind an accepted start. -/
def World.started (w : World) (scan : Scan) (request : Request) : World :=
  { w with
    scan := scan
    requested := request.channels
    chosen := [scan.channel]
    opened := 0
    carried := w.scan.lossy }

/-- The world behind a step. -/
def World.stepped (w : World) (scan : Scan) (tx : IntervalTx) : World :=
  { w with
    scan := scan
    tx := tx
    chosen := if scan.remaining ≠ w.scan.remaining then w.chosen ++ [scan.channel] else w.chosen
    opened := if scan.phase = .rx then channelBit scan.channel ||| w.opened else w.opened }

def World.step (link : Bool) (build : Build) (w : World) : Op → Result × World
  | .init => (.ok, { w with scan := MacScan.init, requested := 0, chosen := [], opened := 0, carried := 0 })
  | .start id request now =>
    let r := start link w.scan id w.tx request now
    (r.1, if r.1 = .ok then w.started r.2 request else w)
  | .step id now event =>
    let r := MacScan.step link build w.scan id w.tx now event
    (r.1, if r.1 = .ok then w.stepped r.2.1 r.2.2.1 else w)
  | .release id =>
    let r := release w.scan id w.tx
    (r.1, { w with scan := r.2 })
  | .device call => (.ok, { w with tx := (MacTx.stepCall link w.tx call).2 })
  | .submitTx body now lifetime work => (.ok, { w with tx := (MacTx.intervalSubmit w.tx body now lifetime work).2 })
  | .releaseTx => (.ok, { w with tx := releaseTx w.tx })

/-! ## Loss -/

/-- Outside the channels of this request the mask of loss is the one the request found. -/
structure World.Loss (w : World) : Prop where
  open_window : w.scan.phase = .rx → Within (channelBit w.scan.channel) w.opened
  kept : ∀ c, has w.opened c = false → has w.scan.lossy c = has w.carried c

theorem World.fresh_loss (dsn : UInt8) (now : UInt32) : (World.fresh dsn now).Loss :=
  ⟨nofun, fun _ _ => rfl⟩

theorem Next.lossy {s s' : Scan} (h : Next s s') : s'.lossy = s.lossy := by
  rcases h.book with ⟨hbook, _⟩ | ⟨_, _, hbook⟩
  · exact congrArg Book.lossy hbook
  · exact congrArg Book.lossy hbook

theorem start_lossy {link : Bool} {s s' : Scan} {id : Nat} {tx : IntervalTx} {request : Request} {now : UInt32}
    (h : start link s id tx request now = (.ok, s')) : s'.lossy = s.lossy ∧ s'.phase ≠ .rx := by
  have hnext := (start_next h).2
  refine ⟨hnext.lossy, ?_⟩
  rcases hnext.phase with hp | hp <;> simp [hp]

/-- A step changes the mask of loss at the channel of an open window only. -/
theorem Turn.lossy {link : Bool} {h : Option (Report × Event)} {s s' : Scan} {tx : IntervalTx} (ht : Turn link h s tx s')
    (c : Nat) : has s'.lossy c = has s.lossy c ∨ s.phase = .rx ∧ has (channelBit s.channel) c = true := by
  cases ht with
  | quiet hq =>
    have hlossy : s'.lossy = s.lossy := congrArg Book.lossy hq.book
    exact .inl (by rw [hlossy])
  | again e hphase _ hbook =>
    have hlossy : s'.lossy = channelBit s.channel ||| s.lossy := congrArg Book.lossy hbook
    cases hbit : has (channelBit s.channel) c with
    | false => exact .inl (by simp [hlossy, hbit])
    | true => exact .inr ⟨hphase, rfl⟩
  | unanswered mid _ hbook _ _ hnext =>
    have hlossy : mid.lossy = s.lossy := congrArg Book.lossy hbook
    exact .inl (by rw [hnext.lossy, hlossy])
  | closed e mid hphase _ _ hbook _ _ hnext =>
    have hlossy : mid.lossy = settled link s e := congrArg Book.lossy hbook
    cases hbit : has (channelBit s.channel) c with
    | false =>
      refine .inl ?_
      rw [hnext.lossy, hlossy]
      unfold settled
      split
      · rfl
      split
      · simp [hbit]
      · rw [BitMask.has_and_not, hbit]
        simp
    | true => exact .inr ⟨hphase, rfl⟩

theorem World.Loss.stepped {link : Bool} {h : Option (Report × Event)} {w : World} {s' : Scan} (tx' : IntervalTx)
    (hw : w.Loss) (ht : Turn link h w.scan w.tx s') : (w.stepped s' tx').Loss := by
  have hopened : ∀ c, has (w.stepped s' tx').opened c = false → has w.opened c = false := by
    intro c hc
    unfold World.stepped at hc
    simp only at hc
    split at hc
    · rw [BitMask.has_or, Bool.or_eq_false_iff] at hc
      exact hc.2
    · exact hc
  refine ⟨fun hrx => ?_, fun c hc => ?_⟩
  · have hphase : s'.phase = .rx := hrx
    simp only [World.stepped, hphase, if_true]
    intro c hc
    rw [BitMask.has_or, hc]
    rfl
  · have hold := hopened c hc
    rcases ht.lossy c with hsame | ⟨hrx, hbit⟩
    · exact hsame.trans (hw.kept c hold)
    · -- the channel of an open window is among the opened ones
      have := hw.open_window hrx c hbit
      rw [hold] at this
      cases this

theorem World.step_loss (link : Bool) (build : Build) (w : World) (op : Op) (hw : w.Loss) :
    (w.step link build op).2.Loss := by
  cases op with
  | init => exact ⟨nofun, fun _ _ => rfl⟩
  | start id request now =>
    simp only [World.step]
    split
    next hok =>
      obtain ⟨hlossy, hphase⟩ := start_lossy (Prod.ext hok rfl : start link w.scan id w.tx request now = (.ok, _))
      exact ⟨fun hrx => absurd hrx hphase, fun c _ => by rw [World.started]; simp only [hlossy]⟩
    · exact hw
  | step id now event =>
    simp only [World.step]
    split
    next hok =>
      unfold MacScan.step at hok ⊢
      split at hok
      · cases hok
      split at hok
      · cases hok
      next hgood hstate =>
        rw [if_neg hgood, if_neg hstate]
        have hbusy : w.scan.phase ≠ .idle := fun hp => hstate (.inr (.inl hp))
        exact hw.stepped _ (advance_turn event hbusy).1
    · exact hw
  | release id =>
    simp only [World.step, release]
    split
    · exact hw
    · exact ⟨nofun, hw.kept⟩
  | device call => exact ⟨hw.open_window, hw.kept⟩
  | submitTx body now lifetime work => exact ⟨hw.open_window, hw.kept⟩
  | releaseTx => exact ⟨hw.open_window, hw.kept⟩

/-- An accepted start finds no loss recorded. -/
def World.CleanStart (link : Bool) (w : World) : Op → Prop
  | .start id request now => (start link w.scan id w.tx request now).1 = .ok → w.scan.lossy = 0
  | _ => True

instance (link : Bool) (w : World) (op : Op) : Decidable (w.CleanStart link op) := by
  unfold World.CleanStart
  split
  · infer_instance
  · infer_instance

/-- All loss on record is of channels that this request listened on. -/
def World.OwnLoss (w : World) : Prop := Within w.scan.lossy w.opened

theorem World.Loss.own_iff {w : World} (hw : w.Loss) : w.OwnLoss ↔ Within w.carried w.opened := by
  constructor
  · intro h c hc
    by_contra hnot
    have hout := Bool.eq_false_iff.2 hnot
    rw [← hw.kept c hout] at hc
    exact hnot (h c hc)
  · intro h c hc
    by_contra hnot
    have hout := Bool.eq_false_iff.2 hnot
    rw [hw.kept c hout] at hc
    exact hnot (h c hc)

theorem World.step_carried (link : Bool) (build : Build) (w : World) (op : Op) (hclean : w.CleanStart link op)
    (hw : w.carried = 0) : (w.step link build op).2.carried = 0 := by
  cases op with
  | start id request now =>
    simp only [World.step]
    split
    next hok => exact hclean hok
    · exact hw
  | step id now event =>
    simp only [World.step]
    split <;> exact hw
  | init => rfl
  | release id => exact hw
  | device call => exact hw
  | submitTx body now lifetime work => exact hw
  | releaseTx => exact hw

/-- In every run of scans on one context, all loss on record is of channels this request
listened on exactly when the loss it found is. In every run whose accepted starts find
no loss recorded, that holds in every state. -/
theorem scan_loss_own_request (link : Bool) (build : Build) (dsn : UInt8) (now : UInt32) (ops : List Op) :
    Runs.Throughout (World.step link build) (fun w => w.OwnLoss ↔ Within w.carried w.opened) (World.fresh dsn now) ops ∧
      (Runs.Meets (World.step link build) (World.CleanStart link) (World.fresh dsn now) ops →
        Runs.Throughout (World.step link build) World.OwnLoss (World.fresh dsn now) ops) := by
  refine ⟨?_, fun hclean => ?_⟩
  · exact Runs.throughout_of_invariant (World.step link build) (fun _ _ => True) _ World.Loss
      (fun w op hw _ => World.step_loss link build w op hw) (fun w hw => hw.own_iff) _ (World.fresh_loss dsn now) ops
      (Runs.meets_true _ _ ops)
  · refine Runs.throughout_of_invariant (World.step link build) (World.CleanStart link) _
      (fun w => w.Loss ∧ w.carried = 0) ?_ ?_ _ ⟨World.fresh_loss dsn now, rfl⟩ ops hclean
    · exact fun w op hw hop => ⟨World.step_loss link build w op hw.1, World.step_carried link build w op hop hw.2⟩
    · intro w hw
      rw [hw.1.own_iff, hw.2]
      exact BitMask.zero_within _

/-- An event of the adapter in a run on one channel. -/
def sampleEvent (generation stamp : UInt32) (token : UInt16) (kind : UInt8) (state : RadioState) (lossy : UInt8) : Op :=
  .step 0 stamp (some ⟨generation, stamp, token, kind, 1, 0, none, state, lossy, 0⟩)

/-- An event of the transmitter in a run on one channel. -/
def sampleTx (generation stamp : UInt32) (kind : UInt8) : Op :=
  .device (.observed stamp (some ⟨⟨generation, stamp, none, 0, kind, 0, 0, 0⟩, ⟨stamp, 0⟩, ⟨stamp, 0⟩⟩))

/-- A scan of one channel from its start to the closing of its window. -/
def sampleWindow (generation start : UInt32) (channel lossy : UInt8) : List Op :=
  [.start 0 ⟨channelBit channel, 1000000, 4096, 0, ⟨0x1234, 15, 0, 0⟩⟩ start,
    .step 0 start none,
    sampleEvent generation start 1 1 ⟨0xFFFF, channel, 1, 0⟩ 0,
    .step 0 start none,
    .step 0 start none,
    .device (.observed start none),
    sampleTx generation start 1,
    sampleTx generation (start + 200) 8,
    sampleTx generation (start + 201) 12,
    sampleEvent generation (start + 201) 3 2 ⟨0xFFFF, channel, 1, 0⟩ 0,
    .step 0 (start + 201) none,
    sampleEvent generation (start + 202) 4 3 ⟨0xFFFF, channel, 1, 1⟩ 0,
    sampleEvent generation (start + 2200) 4 5 ⟨0xFFFF, channel, 1, 0⟩ lossy]

/-- A scan of channel 11 that loses frames and is cancelled before the window is repeated. -/
def sampleLossy : List Op :=
  sampleWindow 1 0 11 1 ++
    [sampleEvent 1 2200 4 8 ⟨0xFFFF, 11, 1, 0⟩ 0, sampleEvent 1 2201 5 6 ⟨0x1234, 15, 0, 0⟩ 0, .release 0]

/-- A scan of channel 12 that finishes without loss. -/
def sampleClean (generation : UInt32) : List Op :=
  sampleWindow generation 5000 12 0 ++ [sampleEvent generation 7201 5 6 ⟨0x1234, 15, 0, 0⟩ 0]

/-- With one scan to a context, the loss of channel 11 is the scan's own. -/
theorem scan_loss_own_request_first :
    (Runs.run (World.step true Build.plain) (World.fresh 0 0) sampleLossy).2.scan.lossy = channelBit 11 ∧
      Runs.Throughout (World.step true Build.plain) World.OwnLoss (World.fresh 0 0) sampleLossy :=
  ⟨by decide +kernel, (scan_loss_own_request true Build.plain 0 0 sampleLossy).2 (by decide +kernel)⟩

/-- A second scan of the context finishes on channel 12 without loss, and its result still
says that channel 11 lost frames. -/
theorem scan_loss_survives_release :
    let w := (Runs.run (World.step true Build.plain) (World.fresh 0 0) (sampleLossy ++ sampleClean 2)).2
    w.scan.phase = .done ∧ w.scan.reason = .finished ∧ w.requested = channelBit 12 ∧ w.opened = channelBit 12 ∧
      w.scan.lossy = channelBit 11 ∧ ¬ w.OwnLoss := by
  refine ⟨by decide +kernel, by decide +kernel, by decide +kernel, by decide +kernel, by decide +kernel, fun hown => ?_⟩
  have hlossy : (Runs.run (World.step true Build.plain) (World.fresh 0 0) (sampleLossy ++ sampleClean 2)).2.scan.lossy =
      channelBit 11 := by decide +kernel
  have hopened : (Runs.run (World.step true Build.plain) (World.fresh 0 0) (sampleLossy ++ sampleClean 2)).2.opened =
      channelBit 12 := by decide +kernel
  have hbit := hown 11 (by rw [hlossy]; decide)
  rw [hopened] at hbit
  exact absurd hbit (by decide)

end MacScan
