import Cc2530Zigbee.MacTxInterval
import Mathlib.Tactic

/-!
# Acknowledgments with intervals

Wrapped coordinates are compared by their signed distance from one of them. An
acknowledgment decides the transaction when every possible pair of times agrees,
is passed over when every pair is too late, and leaves the rest uncertain.
-/
namespace MacTx

open Octets
open MacEpoch (Stamp)

/-- Fine ticks from one coordinate to another, the short way round. -/
def offset (first x : Stamp) : Int :=
  let d := (x.symbols - first.symbols).toNat
  (if d < 2 ^ 31 then (d : Int) else (d : Int) - 2 ^ 32) * 512 + ((x.fine.toNat : Int) - first.fine.toNat)

theorem sub_half_toNat (a b : UInt32) : (a - b).toNat = (a.toNat + (2 ^ 32 - b.toNat)) % 2 ^ 32 := by
  rw [UInt32.toNat_sub, Nat.add_comm]

/-- The wrapped order is the sign of the distance. -/
theorem intervalOrdered_iff (first last : Stamp) (hf : first.fine.toNat < 512) (hl : last.fine.toNat < 512) :
    intervalOrdered first last = true ↔ 0 ≤ offset first last := by
  have hd := (last.symbols - first.symbols).toNat_lt
  unfold intervalOrdered offset half
  simp only [← UInt32.toNat_inj, UInt32.lt_iff_toNat_lt, UInt32.reduceToNat, UInt16.le_iff_toNat_le,
    UInt32.toNat_zero]
  generalize (last.symbols - first.symbols).toNat = d at hd
  by_cases hz : d = 0
  · simp only [hz, if_true, decide_eq_true_eq]
    split <;> omega
  · simp only [hz, if_false, decide_eq_true_eq]
    split <;> omega

/-- Whether a point lies at or before another is seen from a third one, as long
as neither is half the circle away. -/
theorem offset_between (o x y : Stamp) (hx : 0 ≤ offset o x) (hy : 0 ≤ offset o y)
    (ho : o.fine.toNat < 512) (hxf : x.fine.toNat < 512) (hyf : y.fine.toNat < 512) :
    0 ≤ offset x y ↔ offset o x ≤ offset o y := by
  have hox := o.symbols.toNat_lt
  have hsx := x.symbols.toNat_lt
  have hsy := y.symbols.toNat_lt
  unfold offset at *
  simp only [sub_half_toNat] at *
  split at hx <;> split at hy <;> split <;> omega

theorem offset_symm (x y : Stamp) (h : y.symbols - x.symbols ≠ half) : offset y x = -offset x y := by
  have hx := x.symbols.toNat_lt
  have hy := y.symbols.toNat_lt
  have hne : (y.symbols - x.symbols).toNat ≠ 2 ^ 31 := fun he => h (UInt32.toNat_inj.1 he)
  unfold offset
  simp only [sub_half_toNat] at *
  split <;> split <;> omega

theorem windowEnd_fine (point : Stamp) : (windowEnd point).fine = point.fine := rfl

/-- The end of a window lies 54 symbols behind its point. -/
theorem offset_windowEnd (o point : Stamp) (h : 0 ≤ offset o point) (hw : offset o point < 2 ^ 30 * 512)
    (ho : o.fine.toNat < 512) (hp : point.fine.toNat < 512) :
    offset o (windowEnd point) = offset o point + 54 * 512 := by
  have hs := point.symbols.toNat_lt
  have hos := o.symbols.toNat_lt
  have hsum : (windowEnd point).symbols.toNat = (point.symbols.toNat + 54) % 2 ^ 32 := UInt32.toNat_add _ _
  unfold offset at *
  simp only [sub_half_toNat, hsum, windowEnd_fine] at *
  split at h <;> split <;> omega

theorem offset_self (o : Stamp) : offset o o = 0 := by
  simp [offset]

/-! ## The decision -/

/-- Every possible acknowledgment time is inside the window of every possible end
of the frame. Times are distances from the first possible end. -/
def Timely (u a b : Int) : Prop := ∀ t x, 0 ≤ t → t ≤ u → a ≤ x → x ≤ b → x ≤ t + 54 * 512

/-- Every possible acknowledgment time is past the window of every possible end. -/
def Late (u a b : Int) : Prop := ∀ t x, 0 ≤ t → t ≤ u → a ≤ x → x ≤ b → t + 54 * 512 < x

theorem timely_iff {u a b : Int} (hu : 0 ≤ u) (hab : a ≤ b) : Timely u a b ↔ b ≤ 54 * 512 := by
  constructor
  · intro h
    have hb := h 0 b (by omega) hu hab (by omega)
    omega
  · intro h t x ht htu hax hxb
    omega

theorem late_iff {u a b : Int} (hu : 0 ≤ u) (hab : a ≤ b) : Late u a b ↔ u + 54 * 512 < a := by
  constructor
  · intro h
    exact h u a hu (by omega) (by omega) hab
  · intro h t x ht htu hax hxb
    omega

/-- An acknowledgment that the wait weighs: a frame of three octets with the
current identity, bounds in order, and neither the clock, the deadline nor the
work limit in its way. The upper bound is compared with the lower end of the
frame, so they lie less than half the circle apart. -/
structure Weighs (tx : IntervalTx) (now : UInt32) (e : IntervalEvent) : Prop where
  phase : tx.engine.phase = .ackWait
  lowerFine : tx.txLower.fine < 512
  upperFine : tx.txUpper.fine < 512
  ordered : 0 ≤ offset tx.txLower tx.txUpper
  width : offset tx.txLower tx.txUpper < 2 ^ 30 * 512
  wellFormed : e.wellFormed = true
  isAck : e.isAck = true
  current : e.source.current tx.engine now = true
  clock : now - tx.engine.last < half
  deadline : reached now tx.engine.deadline = false
  steps : tx.engine.steps ≠ 0
  gap : e.upper.symbols - tx.txLower.symbols ≠ half

theorem ack_kind (b : UInt8) (h : b &&& 7 = MacFrame.ack) : b &&& (MacFrame.pending ||| 7) = 2 ∨ b &&& (MacFrame.pending ||| 7) = 0x12 := by
  revert b
  decide +kernel

/-- A normalized acknowledgment always decodes. -/
theorem decode_ack (b sequence : UInt8) (h : b &&& 7 = MacFrame.ack) :
    ∃ info, MacFrame.decode [b &&& (MacFrame.pending ||| 7), 0, sequence] = .ok info ∧ info.header.sequence = sequence := by
  have hall : ∀ s : UInt8, (MacFrame.decode [2, 0, s]).isOk = true ∧ (MacFrame.decode [0x12, 0, s]).isOk = true := by
    decide +kernel
  rcases ack_kind b h with hb | hb
  · rw [hb]
    cases hd : MacFrame.decode [2, 0, sequence] with
    | error e => exact absurd (hall sequence).1 (by rw [hd]; simp [Except.isOk, Except.toBool])
    | ok info => exact ⟨info, rfl, (decode_sequence hd).trans rfl⟩
  · rw [hb]
    cases hd : MacFrame.decode [0x12, 0, sequence] with
    | error e => exact absurd (hall sequence).2 (by rw [hd]; simp [Except.isOk, Except.toBool])
    | ok info => exact ⟨info, rfl, (decode_sequence hd).trans rfl⟩

/-- The engine as the decision meets it. -/
def weighed (c : Tx) (now : UInt32) : Tx :=
  { c with readyAt := readyFrom c now, last := now, steps := c.steps - 1 }

theorem isAck_kind {e : IntervalEvent} (h : e.isAck = true) :
    e.source.kind = eventAckInterval ∧ e.source.length = 3 ∧ byteAt (e.source.bytes.getD []) 0 &&& 7 = MacFrame.ack := by
  simp only [IntervalEvent.isAck, Bool.and_eq_true, beq_iff_eq] at h
  exact ⟨h.1.1, h.1.2, h.2⟩

theorem weighs_step (link : Bool) {tx : IntervalTx} {now : UInt32} {e : IntervalEvent} (h : Weighs tx now e) :
    let r := stepAckInterval link tx (weighed tx.engine now) now e
    intervalStep link tx now (some e) =
      (.ok, { tx with engine := r.1 }, some (intervalPublish { tx with engine := r.1 } now r.2)) := by
  obtain ⟨hkind, -, -⟩ := isAck_kind h.isAck
  have hheard : intervalHeard tx.engine now (some e) = some e := by simp [intervalHeard, h.current]
  have hclock : ¬ half ≤ now - tx.engine.last := UInt32.not_le.2 h.clock
  have hwait : intervalAckWait link tx now (some e) = stepAckInterval link tx (weighed tx.engine now) now e := by
    unfold intervalAckWait
    simp only [hclock, if_false, hheard, Option.map_some, Option.getD_some, hkind, h.deadline, h.steps, h.isAck,
      if_true, eventAckInterval, Bool.false_eq_true]
    rfl
  simp only [intervalStep, Option.all_some, h.wellFormed, h.phase, hwait]
  simp

theorem Weighs.fines {tx : IntervalTx} {now : UInt32} {e : IntervalEvent} (h : Weighs tx now e) :
    tx.txLower.fine.toNat < 512 ∧ tx.txUpper.fine.toNat < 512 ∧ e.lower.fine.toNat < 512 ∧ e.upper.fine.toNat < 512 ∧
      intervalOrdered e.lower e.upper = true := by
  obtain ⟨hkind, -, -⟩ := isAck_kind h.isAck
  have hw := h.wellFormed
  simp only [IntervalEvent.wellFormed, hkind, IntervalEvent.bounded, IntervalEvent.ordered, Bool.and_eq_true,
    Bool.or_eq_true, decide_eq_true_eq] at hw
  have hrest := hw.2
  rcases hrest with hlt | ⟨⟨hu, -⟩, hc | ⟨hl, ho⟩⟩
  · exact absurd hlt (by decide)
  · exact absurd hc (by decide)
  · exact ⟨UInt16.lt_iff_toNat_lt.1 h.lowerFine, UInt16.lt_iff_toNat_lt.1 h.upperFine, UInt16.lt_iff_toNat_lt.1 hl,
      UInt16.lt_iff_toNat_lt.1 hu, ho⟩

/-- The engine faults exactly on an acknowledgment that may lie before the frame. -/
theorem weighs_fault {tx : IntervalTx} {now : UInt32} {e : IntervalEvent} (h : Weighs tx now e) :
    ((!intervalOrdered tx.txLower e.lower) = true ∨ intervalOrdered e.upper tx.txLower = true) ↔
      offset tx.txLower e.lower < 0 ∨ offset tx.txLower e.upper ≤ 0 := by
  obtain ⟨hl, -, ha, hb, -⟩ := h.fines
  have h1 := intervalOrdered_iff tx.txLower e.lower hl ha
  have h2 := intervalOrdered_iff e.upper tx.txLower hb hl
  rw [offset_symm _ _ h.gap] at h2
  rw [Bool.not_eq_true', ← Bool.not_eq_true, h1, h2]
  omega

/-- Seen from the lower end of the frame the two comparisons are plain ones. -/
theorem weighs_order {tx : IntervalTx} {now : UInt32} {e : IntervalEvent} (h : Weighs tx now e)
    (ha0 : 0 ≤ offset tx.txLower e.lower) (hb0 : 0 < offset tx.txLower e.upper) :
    offset tx.txLower e.lower ≤ offset tx.txLower e.upper ∧
    (intervalOrdered e.upper (windowEnd tx.txLower) = true ↔ offset tx.txLower e.upper ≤ 54 * 512) ∧
    (intervalOrdered e.lower (windowEnd tx.txUpper) = true ↔
      offset tx.txLower e.lower ≤ offset tx.txLower tx.txUpper + 54 * 512) := by
  obtain ⟨hl, hu, ha, hb, hab⟩ := h.fines
  have hends := offset_windowEnd tx.txLower tx.txUpper h.ordered h.width hl hu
  have hendl := offset_windowEnd tx.txLower tx.txLower (by rw [offset_self]) (by rw [offset_self]; decide) hl hl
  rw [offset_self] at hendl
  refine ⟨?_, ?_, ?_⟩
  · exact (offset_between tx.txLower e.lower e.upper ha0 (by omega) hl ha hb).1
      ((intervalOrdered_iff e.lower e.upper ha hb).1 hab)
  · rw [intervalOrdered_iff e.upper (windowEnd tx.txLower) hb hl,
      offset_between tx.txLower e.upper (windowEnd tx.txLower) (by omega) (by omega) hl hb hl, hendl]
    omega
  · have hordered := h.ordered
    rw [intervalOrdered_iff e.lower (windowEnd tx.txUpper) ha hu,
      offset_between tx.txLower e.lower (windowEnd tx.txUpper) ha0 (by omega) hl ha hu, hends]

/-- What the decision does, by the distances alone. -/
theorem stepAckInterval_eq (link : Bool) {tx : IntervalTx} {now : UInt32} {e : IntervalEvent} (h : Weighs tx now e)
    (c : Tx) :
    let a := offset tx.txLower e.lower
    let b := offset tx.txLower e.upper
    let u := offset tx.txLower tx.txUpper
    let matching := byteAt (e.source.bytes.getD []) 2 = c.frame[2]
    ((a < 0 ∨ b ≤ 0) → stepAckInterval link tx c now e = (fault c .adapterError, .none)) ∧
    (¬ (a < 0 ∨ b ≤ 0) →
      (b ≤ 54 * 512 → matching → ∃ more, stepAckInterval link tx c now e =
        intervalStop link (spacing { c with pending := more } (intervalCeil e.upper)) now .acked) ∧
      (b ≤ 54 * 512 → ¬ matching → stepAckInterval link tx c now e = intervalNoAck link c now tx.txUpper) ∧
      (¬ b ≤ 54 * 512 → a ≤ u + 54 * 512 → stepAckInterval link tx c now e =
        intervalStop link (spacing c (intervalCeil tx.txUpper + ackSymbols)) now .timingUncertain) ∧
      (¬ b ≤ 54 * 512 → ¬ a ≤ u + 54 * 512 → stepAckInterval link tx c now e = (c, .none))) := by
  intro a b u matching
  have hfault := weighs_fault h
  refine ⟨?_, ?_⟩
  · intro hbad
    unfold stepAckInterval
    rw [if_pos (hfault.2 hbad)]
  · intro hgood
    have hgood' : 0 ≤ a ∧ 0 < b := by
      rw [not_or] at hgood
      omega
    obtain ⟨-, hb, ha⟩ := weighs_order h hgood'.1 hgood'.2
    obtain ⟨info, hdecode, hsequence⟩ := decode_ack _ (byteAt (e.source.bytes.getD []) 2) (isAck_kind h.isAck).2.2
    unfold stepAckInterval
    simp only [if_neg (mt hfault.1 hgood), hdecode, hsequence, hb, ha]
    refine ⟨?_, ?_, ?_, ?_⟩
    · intro htimely hmatch
      rw [if_pos htimely, if_pos hmatch]
      exact ⟨_, rfl⟩
    · intro htimely hforeign
      rw [if_pos htimely, if_neg hforeign]
    · intro hopen hstraddle
      rw [if_neg hopen, if_pos hstraddle]
    · intro hopen hlate
      rw [if_neg hopen, if_neg hlate]

/-- How an acknowledgment leaves the engine. -/
structure Decides (link : Bool) (tx : IntervalTx) (now : UInt32) (e : IntervalEvent) : Prop where
  ok : (intervalStep link tx now (some e)).1 = .ok
  early : offset tx.txLower e.lower < 0 ∨ offset tx.txLower e.upper ≤ 0 →
    (intervalStep link tx now (some e)).2.1.engine.phase = .fault ∧
      (intervalStep link tx now (some e)).2.1.engine.outcome = .adapterError
  acked : ¬ (offset tx.txLower e.lower < 0 ∨ offset tx.txLower e.upper ≤ 0) →
    byteAt (e.source.bytes.getD []) 2 = tx.engine.frame[2] →
    ((intervalStep link tx now (some e)).2.1.engine.phase = .stopping ∧
        (intervalStep link tx now (some e)).2.1.engine.outcome = .acked ↔
      Timely (offset tx.txLower tx.txUpper) (offset tx.txLower e.lower) (offset tx.txLower e.upper))
  refused : ¬ (offset tx.txLower e.lower < 0 ∨ offset tx.txLower e.upper ≤ 0) →
    byteAt (e.source.bytes.getD []) 2 ≠ tx.engine.frame[2] →
    ((intervalStep link tx now (some e)).2.1.engine.phase = .stopping ∧
        (intervalStep link tx now (some e)).2.1.engine.outcome = .noAck ↔
      Timely (offset tx.txLower tx.txUpper) (offset tx.txLower e.lower) (offset tx.txLower e.upper))
  ignored : ¬ (offset tx.txLower e.lower < 0 ∨ offset tx.txLower e.upper ≤ 0) →
    ((intervalStep link tx now (some e)).2.1 = { tx with engine := weighed tx.engine now } ↔
      Late (offset tx.txLower tx.txUpper) (offset tx.txLower e.lower) (offset tx.txLower e.upper))
  uncertain : ¬ (offset tx.txLower e.lower < 0 ∨ offset tx.txLower e.upper ≤ 0) →
    ((intervalStep link tx now (some e)).2.1.engine.phase = .stopping ∧
        (intervalStep link tx now (some e)).2.1.engine.outcome = .timingUncertain ↔
      ¬ Timely (offset tx.txLower tx.txUpper) (offset tx.txLower e.lower) (offset tx.txLower e.upper) ∧
        ¬ Late (offset tx.txLower tx.txUpper) (offset tx.txLower e.lower) (offset tx.txLower e.upper))

/-- The four answers to an acknowledgment that lies behind the start of the frame. -/
theorem weighs_cases (link : Bool) {tx : IntervalTx} {now : UInt32} {e : IntervalEvent} (h : Weighs tx now e)
    (hlater : ¬ (offset tx.txLower e.lower < 0 ∨ offset tx.txLower e.upper ≤ 0)) :
    let u := offset tx.txLower tx.txUpper
    let a := offset tx.txLower e.lower
    let b := offset tx.txLower e.upper
    let after := (intervalStep link tx now (some e)).2.1
    let matching := byteAt (e.source.bytes.getD []) 2 = tx.engine.frame[2]
    (Timely u a b ∧ ¬ Late u a b ∧ matching ∧ after.engine.phase = .stopping ∧ after.engine.outcome = .acked) ∨
    (Timely u a b ∧ ¬ Late u a b ∧ ¬ matching ∧ after.engine.phase = .stopping ∧ after.engine.outcome = .noAck) ∨
    (¬ Timely u a b ∧ ¬ Late u a b ∧ after.engine.phase = .stopping ∧ after.engine.outcome = .timingUncertain) ∨
    (¬ Timely u a b ∧ Late u a b ∧ after = { tx with engine := weighed tx.engine now }) := by
  intro u a b after matching
  have hle : a ≤ b := (weighs_order h (by rw [not_or] at hlater; omega) (by rw [not_or] at hlater; omega)).1
  have hu : 0 ≤ u := h.ordered
  have hframe : (weighed tx.engine now).frame = tx.engine.frame := rfl
  obtain ⟨htm, htf, hs, hl⟩ := (stepAckInterval_eq link h (weighed tx.engine now)).2 hlater
  rw [hframe] at htm htf
  have hafter : after.engine = (stepAckInterval link tx (weighed tx.engine now) now e).1 := by
    rw [show after = _ from congrArg (fun r => r.2.1) (weighs_step link h)]
  have hwhole : after = { tx with engine := after.engine } := by
    rw [show after = _ from congrArg (fun r => r.2.1) (weighs_step link h)]
  rw [timely_iff hu hle, late_iff hu hle]
  by_cases htimely : b ≤ 54 * 512
  · by_cases hmatch : matching
    · obtain ⟨more, hr⟩ := htm htimely hmatch
      rw [hr] at hafter
      exact .inl ⟨htimely, by omega, hmatch, by rw [hafter]; rfl, by rw [hafter]; rfl⟩
    · have hr := htf htimely hmatch
      rw [hr] at hafter
      exact .inr (.inl ⟨htimely, by omega, hmatch, by rw [hafter]; rfl, by rw [hafter]; rfl⟩)
  · by_cases hstraddle : a ≤ u + 54 * 512
    · have hr := hs htimely hstraddle
      rw [hr] at hafter
      exact .inr (.inr (.inl ⟨htimely, by omega, by rw [hafter]; rfl, by rw [hafter]; rfl⟩))
    · have hr := hl htimely hstraddle
      rw [hr] at hafter
      exact .inr (.inr (.inr ⟨htimely, by omega, by rw [hwhole, hafter]⟩))

theorem weighs_decides (link : Bool) {tx : IntervalTx} {now : UInt32} {e : IntervalEvent} (h : Weighs tx now e) :
    Decides link tx now e := by
  have hstep := weighs_step link h
  have hphase : (weighed tx.engine now).phase = .ackWait := h.phase
  refine { ok := by rw [hstep], early := ?_, acked := ?_, refused := ?_, ignored := ?_, uncertain := ?_ }
  · intro hearly
    rw [hstep, (stepAckInterval_eq link h (weighed tx.engine now)).1 hearly]
    exact ⟨rfl, rfl⟩
  · intro hlater hmatch
    rcases weighs_cases link h hlater with ⟨ht, hl, hm, hp, ho⟩ | ⟨ht, hl, hm, hp, ho⟩ | ⟨ht, hl, hp, ho⟩ | ⟨ht, hl, hr⟩
    · simp [ht, hp, ho]
    · exact absurd hmatch hm
    · simp [ht, ho]
    · simp [ht, hr, hphase]
  · intro hlater hforeign
    rcases weighs_cases link h hlater with ⟨ht, hl, hm, hp, ho⟩ | ⟨ht, hl, hm, hp, ho⟩ | ⟨ht, hl, hp, ho⟩ | ⟨ht, hl, hr⟩
    · exact absurd hm hforeign
    · simp [ht, hp, ho]
    · simp [ht, ho]
    · simp [ht, hr, hphase]
  · intro hlater
    have hmoved : (intervalStep link tx now (some e)).2.1.engine.phase = .stopping →
        (intervalStep link tx now (some e)).2.1 ≠ { tx with engine := weighed tx.engine now } := by
      intro hp hr
      rw [hr] at hp
      exact absurd (hphase.symm.trans hp) (by decide)
    rcases weighs_cases link h hlater with ⟨ht, hl, hm, hp, ho⟩ | ⟨ht, hl, hm, hp, ho⟩ | ⟨ht, hl, hp, ho⟩ | ⟨ht, hl, hr⟩
    · exact iff_of_false (hmoved hp) hl
    · exact iff_of_false (hmoved hp) hl
    · exact iff_of_false (hmoved hp) hl
    · exact iff_of_true hr hl
  · intro hlater
    rcases weighs_cases link h hlater with ⟨ht, hl, hm, hp, ho⟩ | ⟨ht, hl, hm, hp, ho⟩ | ⟨ht, hl, hp, ho⟩ | ⟨ht, hl, hr⟩
    · simp [ht, ho]
    · simp [ht, ho]
    · simp [ht, hl, hp, ho]
    · simp [ht, hl, hr, hphase]

/-! ## No acknowledgment -/

/-- A report from which the wait may conclude that there was no acknowledgment: a
frame with a foreign sequence number inside the window, or the end of reception
past it. -/
def Refuses (tx : IntervalTx) (now : UInt32) (e : IntervalEvent) : Prop :=
  e.source.current tx.engine now = true ∧
  (e.isAck = true ∧ byteAt (e.source.bytes.getD []) 2 ≠ tx.engine.frame[2] ∧
      0 ≤ offset e.upper (windowEnd tx.txLower) ∨
    e.source.kind = eventRxClosed ∧ 0 ≤ offset (windowEnd tx.txUpper) e.upper)

theorem stepStopping_noAck (c : Tx) (now : UInt32) (signal : Option Signal) (ho : c.outcome ≠ .noAck) :
    (stepStopping c now signal).outcome ≠ .noAck := by
  have hend := (ended_early c signal).2
  unfold stepStopping
  simp only
  generalize hc : (if c.retryPending = true ∧ (reached now c.deadline = true ∨ c.steps = 0 ∨ signal = some .cancel) then
    { c with retryPending := false, outcome := ended c signal } else c) = d
  have hd : d.outcome ≠ .noAck := by
    rw [← hc]
    split
    · exact hend
    · exact ho
  split
  · simp [fault]
  · split
    · simp [fault]
    · by_cases hu : d.uncertain = true
      · by_cases hr : d.retryPending = true
        · simp [hu, hr, spacing]
        · simp [hu, hr, spacing, hd]
      · by_cases hr : d.retryPending = true
        · simp [hu, hr]
        · simp [hu, hr, hd]
    · exact hd

theorem stop_noAck (link : Bool) (c : Tx) (now : UInt32) (outcome : Outcome) (h : outcome ≠ .noAck) :
    (stop link c now outcome).1.outcome ≠ .noAck := by
  unfold stop
  simp only
  split
  · exact h
  · split <;> split <;> exact h

theorem stepWork_noAck (link : Bool) (c : Tx) (now : UInt32) (signal : Option Signal) (hp : c.phase ≠ .ackWait)
    (ho : c.outcome ≠ .noAck) : (stepWork link c now signal).1.outcome ≠ .noAck := by
  unfold stepWork
  split
  · exact ho
  · unfold stepDrawn
    simp only
    generalize (if reached now c.readyAt = true then now else c.readyAt) = start
    split
    · simp
    · exact ho
  · split
    · simp [fault]
    · unfold stepBusy
      simp only
      split
      · simp
      · exact ho
  · split
    · simp [fault]
    · unfold stepSent
      simp only
      split
      · exact ho
      · exact stop_noAck link _ now _ (by decide)
  · contradiction
  · exact ho

/-- The ordinary engine concludes it only in its own wait. -/
theorem step_noAck (link : Bool) (tx : Tx) (now : UInt32) (event : Option Event) (hp : tx.phase ≠ .ackWait)
    (ho : tx.outcome ≠ .noAck) : (step link tx now event).2.1.outcome ≠ .noAck := by
  unfold step
  split
  · exact ho
  split
  · exact ho
  simp only [advance]
  split
  · exact ho
  split
  · simp [fault]
  unfold stepActive
  split
  · exact stepStopping_noAck _ now _ ho
  split
  · simp [fault]
  split
  · exact stop_noAck link _ now _ (ended_early _ _).2
  · exact stepWork_noAck link _ now _ hp ho

theorem intervalWork_noAck (link : Bool) (tx : IntervalTx) (now : UInt32) (event : Option IntervalEvent)
    (hp : tx.engine.phase ≠ .ackWait) (ho : tx.engine.outcome ≠ .noAck) :
    (intervalWork link tx now event).2.1.engine.outcome ≠ .noAck := by
  have hstep := step_noAck link tx.engine now (plainEvent event) hp ho
  unfold intervalWork
  simp only
  split
  · exact hstep
  split
  · exact hstep
  split
  · exact hstep
  · unfold stepSentInterval
    simp only
    split
    · simp [fault]
    · split
      · exact hstep
      · simp [intervalStop]

theorem stepAckInterval_noAck (link : Bool) (tx : IntervalTx) (c : Tx) (now : UInt32) (e : IntervalEvent)
    (ho : c.outcome ≠ .noAck) (h : (stepAckInterval link tx c now e).1.outcome = .noAck) :
    byteAt (e.source.bytes.getD []) 2 ≠ c.frame[2] ∧ intervalOrdered e.upper (windowEnd tx.txLower) = true := by
  unfold stepAckInterval at h
  simp only at h
  split at h
  · simp [fault] at h
  split at h
  · exact absurd h ho
  next info hdecode =>
    have hsequence : info.header.sequence = byteAt (e.source.bytes.getD []) 2 := (decode_sequence hdecode).trans rfl
    split at h
    next htimely =>
      split at h
      · simp [intervalStop] at h
      next hforeign =>
        rw [← hsequence]
        exact ⟨hforeign, htimely⟩
    · split at h
      · simp [intervalStop] at h
      · exact absurd h ho

theorem intervalAckWait_noAck (link : Bool) (tx : IntervalTx) (now : UInt32) (event : Option IntervalEvent)
    (hl : tx.txLower.fine < 512) (hu : tx.txUpper.fine < 512) (hw : event.all IntervalEvent.wellFormed = true)
    (ho : tx.engine.outcome ≠ .noAck) (h : (intervalAckWait link tx now event).1.outcome = .noAck) :
    ∃ e, event = some e ∧ Refuses tx now e := by
  unfold intervalAckWait at h
  simp only at h
  split at h
  · simp [fault] at h
  split at h
  · simp [fault] at h
  split at h
  · exfalso
    simp only [intervalStop] at h
    split at h
    · cases h
    · split at h <;> cases h
  split at h
  · exact absurd h ho
  next e hheard =>
    have hevent : event = some e ∧ e.source.current tx.engine now = true := by
      cases event with
      | none => simp [intervalHeard] at hheard
      | some e' =>
        simp only [intervalHeard] at hheard
        split at hheard
        next hc =>
          cases hheard
          exact ⟨rfl, hc⟩
        · cases hheard
    obtain ⟨rfl, hcurrent⟩ := hevent
    refine ⟨e, rfl, hcurrent, ?_⟩
    have hfine : eventSentInterval ≤ e.source.kind → e.upper.fine < 512 := by
      intro hkind
      simp only [Option.all_some, IntervalEvent.wellFormed, IntervalEvent.bounded, Bool.and_eq_true,
        Bool.or_eq_true, decide_eq_true_eq] at hw
      rcases hw.2 with hlt | ⟨⟨hf, -⟩, -⟩
      · exact absurd hkind (UInt8.not_le.2 hlt)
      · exact hf
    split at h
    next hack =>
      obtain ⟨hforeign, htimely⟩ := stepAckInterval_noAck link tx (weighed tx.engine now) now e ho h
      have hf := hfine (by rw [(isAck_kind hack).1]; decide)
      exact .inl ⟨hack, hforeign, (intervalOrdered_iff e.upper (windowEnd tx.txLower)
        (UInt16.lt_iff_toNat_lt.1 hf) (UInt16.lt_iff_toNat_lt.1 hl)).1 htimely⟩
    next hnot =>
      split at h
      next hclosed =>
        refine .inr ⟨hclosed, ?_⟩
        unfold stepRxClosed at h
        split at h
        · simp [fault] at h
        next hordered =>
          have hf := hfine (by rw [hclosed]; decide)
          have hbool : intervalOrdered (windowEnd tx.txUpper) e.upper = true := by simpa using hordered
          exact (intervalOrdered_iff (windowEnd tx.txUpper) e.upper (UInt16.lt_iff_toNat_lt.1 hu)
            (UInt16.lt_iff_toNat_lt.1 hf)).1 hbool
      · exact absurd h ho

/-- Every acknowledgment is decided by all the times it may stand for; and the
lack of one is concluded only from a frame with a foreign sequence number inside
the window or from the end of reception past the whole window. -/
theorem intervals_decide (link : Bool) (tx : IntervalTx) (now : UInt32) :
    (∀ e, Weighs tx now e → Decides link tx now e) ∧
    (∀ event, tx.txLower.fine < 512 → tx.txUpper.fine < 512 → tx.engine.outcome ≠ .noAck →
      (intervalStep link tx now event).2.1.engine.outcome = .noAck →
      tx.engine.phase = .ackWait ∧ ∃ e, event = some e ∧ Refuses tx now e) := by
  refine ⟨fun e h => weighs_decides link h, ?_⟩
  intro event hl hu ho h
  unfold intervalStep at h
  split at h
  · exact absurd h ho
  next hw =>
    split at h
    next hp => exact absurd h (intervalWork_noAck link tx now event hp ho)
    next hp =>
      exact ⟨not_not.1 hp, intervalAckWait_noAck link tx now event hl hu (by simpa using hw) ho h⟩

/-- A frame that ended just before the coordinate wraps, and waits. -/
def wrapping : IntervalTx :=
  { engine := { init 7 0xFFFFFF00 with
      phase := .ackWait, generation := 1, steps := 5, deadline := 0x1000, ackRequested := true, last := 0xFFFFFFF8 }
    txLower := ⟨0xFFFFFFF0, 5⟩, txUpper := ⟨0xFFFFFFF1, 0⟩ }

/-- Its acknowledgment, which may have come before or after the wrap. -/
def wrappingAck : IntervalEvent :=
  { source :=
      { generation := 1, stamp := 0x20, bytes := some [2, 0, 0], length := 3, kind := eventAckInterval, retry := 0
        nb := 0, value := 0 }
    lower := ⟨0xFFFFFFFF, 3⟩, upper := ⟨0x10, 0⟩ }

theorem wrappingAck_weighs : Weighs wrapping 0x20 wrappingAck where
  phase := rfl
  lowerFine := by decide
  upperFine := by decide
  ordered := by decide
  width := by decide
  wellFormed := by decide
  isAck := by decide
  current := by decide
  clock := by decide
  deadline := by decide
  steps := by decide
  gap := by decide

theorem intervals_decide_wrap :
    Weighs wrapping 0x20 wrappingAck ∧
    (intervalStep false wrapping 0x20 (some wrappingAck)).2.1.engine.outcome = .acked := by
  have hd := (intervals_decide false wrapping 0x20).1 wrappingAck wrappingAck_weighs
  have hbetween : Timely (offset wrapping.txLower wrapping.txUpper) (offset wrapping.txLower wrappingAck.lower)
      (offset wrapping.txLower wrappingAck.upper) := (timely_iff (by decide) (by decide)).2 (by decide)
  exact ⟨wrappingAck_weighs, ((hd.acked (by decide) (by decide)).2 hbetween).2⟩

end MacTx
