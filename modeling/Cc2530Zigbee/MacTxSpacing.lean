import Cc2530Zigbee.MacTxAck

/-!
# Spacing on the air

An observer with an unbounded clock watches the calls and keeps the frames that
were, or may have been, on the air. The calls of an engine are less than half the
range of its clock apart, so the observer counts the symbols between them. The
engine keeps one bound for the next attempt; it stands for all these frames as long
as no stop lowers it.
-/
namespace MacTx

variable {link : Bool}

/-- A frame on the air. Without a report of it, its end is only known from above. -/
structure Frame where
  finish : Nat
  certain : Bool
  answered : Option Nat
  requested : Bool
  length : UInt8
  deriving DecidableEq

def Frame.Ends (f : Frame) (finish : Nat) : Prop :=
  if f.certain then finish = f.finish else finish ≤ f.finish

/-- When the next frame may start, for an end of this one: after the window of an
acknowledgment that was asked for and not heard, or after the one that was heard,
and the space for its length. -/
def Frame.free (f : Frame) (finish : Nat) : Nat :=
  (match f.answered with
    | some heard => heard
    | none => finish + if f.requested then ackSymbols.toNat else 0) + (ifs f.length).toNat

/-- What the observer knows. -/
structure Air where
  clock : Nat
  frames : List Frame
  onAir : Bool

/-- The stamp an operation brings. -/
def Op.stamp : Op → UInt32
  | .step _ (some e) => e.stamp
  | _ => 0

/-- The observer after a call. A report of a transmission makes the frame the only
one that counts. An attempt whose stop is confirmed without a report may have been
on the air until then. -/
def watch (air : Air) (tx : Tx) (op : Op) (tx' : Tx) : Air :=
  let time := air.clock + (op.stamp - tx.last).toNat
  let air := { air with clock := air.clock + (tx'.last - tx.last).toNat }
  match tx.phase with
  | .drawWait => { air with onAir := tx'.phase == .radio }
  | .radio =>
    if tx'.transmissions ≠ tx.transmissions then ⟨air.clock, [⟨time, true, none, tx.ackRequested, tx.length⟩], false⟩
    else { air with onAir := tx'.phase == .radio || tx'.phase == .stopping }
  | .ackWait =>
    if tx'.phase = .stopping ∧ tx'.outcome = .acked then { air with frames := air.frames.map fun f => { f with answered := some time } }
    else air
  | .stopping =>
    if tx'.phase ≠ .draw ∧ tx'.phase ≠ .done then air
    else if air.onAir then ⟨air.clock, ⟨time, false, none, tx.ackRequested, tx.length⟩ :: air.frames, false⟩
    else air
  | _ => air

/-- An engine and its observer. -/
abbrev Seen := Tx × Air

def observe (link : Bool) (s : Seen) (op : Op) : Report × Seen :=
  let r := perform link s.1 op
  (r.1, r.2, watch s.2 s.1 op r.2)

/-- The bound of an engine. -/
def ready (last readyAt : UInt32) (clock : Nat) : Nat :=
  clock + if reached last readyAt then 0 else (readyAt - last).toNat

/-- A time the bound stands for: passed, or not after it. -/
def Free (last readyAt : UInt32) (clock time : Nat) : Prop :=
  time ≤ clock ∨ (time ≤ ready last readyAt clock ∧ ready last readyAt clock ≤ clock + 94)

theorem sub_toNat (a b : UInt32) : (a - b).toNat = (a.toNat + 4294967296 - b.toNat) % 4294967296 := by
  have hb := b.toNat_lt
  rw [UInt32.toNat_sub]
  simp
  omega

theorem reached_toNat (now time : UInt32) :
    reached now time = true ↔ (now.toNat + 4294967296 - time.toNat) % 4294967296 < 2147483648 := by
  simp only [reached, decide_eq_true_eq, UInt32.lt_iff_toNat_lt, sub_toNat]
  exact Iff.rfl

/-- The next call finds the clock it needs. -/
theorem clock_later {last now : UInt32} {clock : Nat} (hc : clock % 4294967296 = last.toNat) :
    (clock + (now - last).toNat) % 4294967296 = now.toNat := by
  have h := now.toNat_lt
  rw [sub_toNat]
  omega

/-- The bound stands while time goes on. -/
theorem free_later {tx : Tx} {now : UInt32} {clock time : Nat} (hc : now - tx.last < half)
    (h : Free tx.last tx.readyAt clock time) :
    Free now (readyFrom tx now) (clock + (now - tx.last).toNat) time := by
  have h1 := tx.last.toNat_lt
  have h2 := tx.readyAt.toNat_lt
  have h3 := now.toNat_lt
  rw [UInt32.lt_iff_toNat_lt, show half.toNat = 2147483648 from rfl] at hc
  rcases h with h | ⟨h, hle⟩
  · exact .inl (by omega)
  by_cases hl : reached tx.last tx.readyAt = true
  · rw [ready, if_pos hl] at h
    exact .inl (by omega)
  rw [ready, if_neg hl] at h hle
  rw [reached_toNat] at hl
  by_cases hn : reached now tx.readyAt = true
  · -- the bound was passed on the way
    rw [reached_toNat] at hn
    refine .inl ?_
    rw [sub_toNat] at hc h hle ⊢
    omega
  · have hr : readyFrom tx now = tx.readyAt := by
      unfold readyFrom
      rw [if_neg]
      simp only [Bool.or_eq_true, not_or]
      exact ⟨by rwa [reached_toNat], hn⟩
    have he : ready now tx.readyAt (clock + (now - tx.last).toNat) = clock + (tx.readyAt - tx.last).toNat := by
      rw [ready, if_neg hn]
      rw [reached_toNat] at hn
      rw [sub_toNat] at hc hle
      rw [sub_toNat, sub_toNat, sub_toNat]
      omega
    rw [hr]
    refine .inr ⟨by omega, ?_⟩
    rw [he]
    omega

/-- The engine's bound stands for all frames the observer keeps. While an
acknowledgment is awaited there is one frame, and its end stands for the bound. -/
structure Timed (tx : Tx) (air : Air) : Prop where
  bounded : Bounded tx
  clock : air.clock % 4294967296 = tx.last.toNat
  onAir : tx.phase ≠ .fault → (air.onAir = true ↔ tx.phase = .radio ∨ tx.phase = .stopping ∧ tx.uncertain = true)
  free : tx.phase ≠ .fault → tx.phase ≠ .ackWait → ∀ f ∈ air.frames, ∀ finish, f.Ends finish →
    Free tx.last tx.readyAt air.clock (f.free finish)
  waiting : tx.phase = .ackWait → ∃ finish, air.frames = [⟨finish, true, none, true, tx.length⟩] ∧
    finish ≤ air.clock ∧ finish % 4294967296 = tx.txEnd.toNat

/-- A call that leaves the bound and the frames as they are. -/
theorem Timed.carry {tx tx' : Tx} {air air' : Air} {now : UInt32} (h : Timed tx air) (hb : Bounded tx')
    (hc : now - tx.last < half) (hp : tx.phase ≠ .fault ∧ tx.phase ≠ .ackWait) (hlast : tx'.last = now)
    (hready : tx'.readyAt = readyFrom tx now) (hp' : tx'.phase ≠ .ackWait)
    (hclock : air'.clock = air.clock + (now - tx.last).toNat) (hframes : air'.frames = air.frames)
    (hon : air'.onAir = true ↔ tx'.phase = .radio ∨ tx'.phase = .stopping ∧ tx'.uncertain = true) :
    Timed tx' air' := by
  refine ⟨hb, ?_, fun _ => hon, fun _ _ f hf finish he => ?_, fun ha => absurd ha hp'⟩
  · rw [hclock, hlast]
    exact clock_later h.clock
  · rw [hframes] at hf
    rw [hlast, hready, hclock]
    exact free_later hc (h.free hp.1 hp.2 f hf finish he)

/-- A fault needs no bound. -/
theorem Timed.fails {tx tx' : Tx} {air air' : Air} {now : UInt32} (h : Timed tx air) (hb : Bounded tx')
    (hf : tx'.phase = .fault) (hlast : tx'.last = now) (hclock : air'.clock = air.clock + (now - tx.last).toNat) :
    Timed tx' air' := by
  refine ⟨hb, ?_, fun hn => absurd hf hn, fun hn => absurd hf hn, fun ha => ?_⟩
  · rw [hclock, hlast]
    exact clock_later h.clock
  · rw [hf] at ha
    cases ha

theorem Free.le {last readyAt : UInt32} {clock time time' : Nat} (h : Free last readyAt clock time)
    (hle : time' ≤ time) : Free last readyAt clock time' := by
  rcases h with h | ⟨h, h'⟩
  · exact .inl (by omega)
  · exact .inr ⟨by omega, h'⟩

end MacTx
