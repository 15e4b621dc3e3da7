import Cc2530Zigbee.MacLinkDriver

/-!
# The guard in true time

Beside the driver runs the true time, with the time the guard is to end. The driver
compares within half a range of the clock, so it is right about a guard that was set,
or set anew, less than half a range ago.
-/
namespace MacLinkDriver

open MacEpoch (Stamp)
open MacTx (reached)
open MacAdapter (Adapter)
open WrappedClock (shown)

/-- The parts of a step. A received frame comes with the true time its last octet ended, rounded up. -/
inductive Call where
  | sample (result : MacAdapter.Result) (clock : Stamp)
  | observe (join : Join) (result : MacAdapter.Result) (adapter : Adapter) (consumed : Consumed) (ended : Nat)
  | closeOff (adapter : Adapter) (result : MacAdapter.Result) (clock : Stamp) (closed : MacAdapter.Result)
  | idle (join : Join) (adapter : Adapter) (closed opened : MacAdapter.Result)
  | hold (frameWait : UInt32)

/-- The driver behind a call, and the verdict of `close_off`. -/
def perform (rxOffIdle : Bool) (d : Driver) : Call → Option Verdict × Driver
  | .sample result clock => (none, (sample d result clock).2)
  | .observe join result adapter consumed _ => (none, (observe d join result adapter consumed).2)
  | .closeOff adapter result clock closed =>
    let r := closeOff d adapter result clock closed
    (some r.1, r.2)
  | .idle join adapter closed opened => (none, idle rxOffIdle d join adapter closed opened)
  | .hold frameWait => (none, hold d frameWait)

/-- The call observes a frame that the radio answers by itself: when it ended. -/
def answers : Call → Option Nat
  | .observe _ .event adapter _ ended =>
    if adapter.observation.kind = .rx ∧ answered adapter.observation then some ended else none
  | _ => none

/-- The call sets the guard anew. -/
def renews (rxOffIdle : Bool) (d : Driver) : Call → Bool
  | .idle join _ _ _ => rxOffIdle && sleeps join && reached d.now d.rxReadyAt
  | _ => false

/-- The driver, the true time, the time the guard is to end, and the time its variable means. -/
structure Timed where
  driver : Driver
  time : Nat
  guard : Nat
  since : Nat

/-- A driver that is bound. -/
def Timed.start (last frames : UInt32) : Timed := ⟨init last frames, last.toNat, last.toNat, last.toNat⟩

section Act
variable (rxOffIdle : Bool)

/-- A call of a driver; behind a fault there are none. -/
def act (s : Timed) (c : Call) : Option Verdict × Timed :=
  if s.driver.fault.isSome then (none, s)
  else
    let r := perform rxOffIdle s.driver c
    let time := s.time + (r.2.now - s.driver.now).toNat
    (r.1, match answers c with
      | some ended => ⟨r.2, time, ended + guardTime.toNat, ended + guardTime.toNat⟩
      | none => ⟨r.2, time, s.guard, if renews rxOffIdle s.driver c then time else s.since⟩)

/-- The stamps of an answered frame show when it ended, which was before the adapter reported it. -/
def Causal (s : Timed) (c : Call) : Prop :=
  match c with
  | .observe _ _ adapter _ _ => ∀ ended, answers c = some ended →
    shown ended = ceil adapter.observation.upper ∧ ended ≤ s.time + (adapter.live.symbols - s.driver.now).toNat + 1
  | _ => True

/-- With the radio off, the driver goes on exactly when the guard has ended. -/
def Exact (s : Timed) (c : Call) : Prop :=
  match c with
  | .closeOff adapter _ _ _ => settled adapter = true → s.driver.fault = none → (act rxOffIdle s c).2.driver.fault = none →
    ((act rxOffIdle s c).1 = some .off ↔ s.guard ≤ (act rxOffIdle s c).2.time)
  | _ => True

end Act

/-- An odd half range of the clock lies behind a time. -/
def oddHalf (t : Nat) : Prop := 2 ^ 31 ≤ t % 2 ^ 32

instance (t : Nat) : Decidable (oddHalf t) := inferInstanceAs (Decidable (2 ^ 31 ≤ t % 2 ^ 32))

/-- With the radio off, the guard was not set, or set anew, an odd half range ago, neither at the last reading of
the clock nor at the one the call takes. -/
def Timely (s : Timed) (c : Call) : Prop :=
  match c with
  | .closeOff adapter result clock _ => settled adapter = true → s.driver.fault = none → result = .ok →
    reached clock.symbols s.driver.now = true → s.since ≤ s.time → oddHalf (s.time - s.since) →
      ¬oddHalf (s.time + (clock.symbols - s.driver.now).toNat - s.since)
  | _ => True

/-! ## The variable means a time -/

/-- The clock shows the true time and the variable shows what it means: the end of the guard, or a later time
that has passed. -/
structure Tracks (s : Timed) : Prop where
  clock : shown s.time = s.driver.now
  guard : shown s.since = s.driver.rxReadyAt
  near : s.since ≤ s.time + 75
  since : s.since = s.guard ∨ (s.guard ≤ s.since ∧ s.since ≤ s.time)

/-- As long as there is no fault. -/
def Tracked (s : Timed) : Prop := s.driver.fault = none → Tracks s

theorem reached_iff (now point : UInt32) : reached now point = true ↔ (now - point).toNat < 2 ^ 31 := by
  rw [reached, decide_eq_true_eq]
  exact Iff.rfl

/-- What the comparison says about a time that is over. -/
theorem reached_past {since now : Nat} (h : since ≤ now) : reached (shown now) (shown since) = true ↔ ¬oddHalf (now - since) := by
  rw [reached_iff, WrappedClock.shown_sub_mod h, oddHalf, Nat.not_le]

/-- The comparison never takes a time shortly ahead for one that is over. -/
theorem reached_ahead {since now : Nat} (h : now < since) (hnear : since ≤ now + 75) :
    reached (shown now) (shown since) = false := by
  rw [Bool.eq_false_iff, ne_eq, reached_iff]
  have h' := WrappedClock.not_since_of_ahead now now (since - now) (le_refl _) (by omega) (by omega)
  rwa [Nat.add_sub_cancel' (Nat.le_of_lt h)] at h'

variable {rxOffIdle : Bool}

theorem sample_guard (d : Driver) (result : MacAdapter.Result) (clock : Stamp) :
    (sample d result clock).2.rxReadyAt = d.rxReadyAt := by
  unfold sample fail
  split
  · rfl
  split <;> rfl

theorem receive_guard (d : Driver) (j : Join) (o : MacAdapter.Observation) (consumed : Consumed) :
    (receive d j o consumed).2.now = d.now ∧ ((receive d j o consumed).2.fault = none →
      (receive d j o consumed).2.rxReadyAt = if answered o then ceil o.upper + guardTime else d.rxReadyAt) := by
  unfold receive fail
  split
  · exact ⟨rfl, nofun⟩
  simp only
  split
  · split
    · cases answered o <;> exact ⟨rfl, fun _ => rfl⟩
    · cases answered o <;> exact ⟨rfl, nofun⟩
  · cases answered o <;> exact ⟨rfl, fun _ => rfl⟩

theorem observe_guard (d : Driver) (j : Join) (result : MacAdapter.Result) (a : Adapter) (consumed : Consumed) :
    (observe d j result a consumed).2.fault = none → (observe d j result a consumed).2.now = a.live.symbols ∧
      (observe d j result a consumed).2.rxReadyAt =
        if result = .event ∧ a.observation.kind = .rx ∧ answered a.observation then ceil a.observation.upper + guardTime
        else d.rxReadyAt := by
  unfold observe fail
  split
  · nofun
  split
  · nofun
  simp only
  split
  next hevent =>
    rw [if_neg fun h => hevent h.1]
    exact fun _ => ⟨rfl, rfl⟩
  next hevent =>
  rw [not_not] at hevent
  split
  · nofun
  simp only [hevent, true_and]
  by_cases hkind : a.observation.kind = .rx
  · obtain ⟨hnow, hguard⟩ := receive_guard { d with now := a.live.symbols } j a.observation consumed
    simp only [hkind, true_and]
    generalize receive { d with now := a.live.symbols } j a.observation consumed = r at hnow hguard ⊢
    obtain ⟨_ | _, d'⟩ := r
    · exact fun h => ⟨hnow, hguard h⟩
    · exact fun h => ⟨hnow, hguard h⟩
  · simp only [hkind, false_and, if_false]
    exact fun _ => ⟨rfl, rfl⟩

theorem opened_guard (d : Driver) (answer : MacAdapter.Result) :
    (opened d answer).now = d.now ∧ (opened d answer).rxReadyAt = d.rxReadyAt := by
  unfold opened
  split <;> exact ⟨rfl, rfl⟩

theorem idle_guard (d : Driver) (j : Join) (a : Adapter) (closed answer : MacAdapter.Result) :
    (idle rxOffIdle d j a closed answer).now = d.now ∧ (idle rxOffIdle d j a closed answer).rxReadyAt =
      if rxOffIdle && sleeps j && reached d.now d.rxReadyAt then d.now else d.rxReadyAt := by
  unfold idle
  simp only
  cases rxOffIdle with
  | false =>
    simp only [Bool.not_false, if_true, Bool.false_and, Bool.false_eq_true, if_false]
    split
    · exact opened_guard _ _
    · exact ⟨rfl, rfl⟩
  | true =>
    simp only [Bool.not_true, Bool.false_eq_true, if_false, Bool.true_and]
    cases hsleeps : sleeps j with
    | false =>
      simp only [Bool.false_eq_true, if_false, Bool.false_and]
      split
      · exact opened_guard _ _
      · exact ⟨rfl, rfl⟩
    | true =>
      simp only [if_true, Bool.true_and]
      generalize hready : (if reached d.now d.rxReadyAt = true then d.now else d.rxReadyAt) = ready
      split
      · split
        · split <;> exact ⟨rfl, rfl⟩
        split
        · split <;> exact ⟨rfl, rfl⟩
        · exact ⟨rfl, rfl⟩
      · exact ⟨rfl, rfl⟩

theorem closeOff_guard (d : Driver) (a : Adapter) (result : MacAdapter.Result) (clock : Stamp) (closed : MacAdapter.Result) :
    (closeOff d a result clock closed).2.rxReadyAt = d.rxReadyAt := by
  unfold closeOff
  simp only
  split
  · split
    · rfl
    · split
      · exact sample_guard d result clock
      · exact sample_guard d result clock
  split
  · split <;> rfl
  · rfl

/-- Short of an answered frame and of a renewal the variable stays. -/
theorem perform_guard (d : Driver) (c : Call) (hplain : answers c = none) (hkeep : renews rxOffIdle d c = false)
    (hok : (perform rxOffIdle d c).2.fault = none) : (perform rxOffIdle d c).2.rxReadyAt = d.rxReadyAt := by
  cases c with
  | sample result clock => exact sample_guard d result clock
  | observe join result adapter consumed ended =>
    rw [perform, (observe_guard d join result adapter consumed hok).2, if_neg]
    rintro ⟨rfl, hin⟩
    simp only [answers, if_pos hin] at hplain
    cases hplain
  | closeOff adapter result clock closed => exact closeOff_guard d adapter result clock closed
  | idle join adapter closed answer =>
    rw [perform, (idle_guard d join adapter closed answer).2, if_neg]
    rw [Bool.not_eq_true]
    exact hkeep
  | hold frameWait => rfl

theorem Tracked.call {s : Timed} (h : Tracked s) (c : Call) (hc : Causal s c) : Tracked (act rxOffIdle s c).2 := by
  unfold act
  split
  · exact h
  next hfault =>
  rw [Bool.not_eq_true, Option.isSome_eq_false_iff, Option.isNone_iff_eq_none] at hfault
  obtain ⟨hclock, hguard, hnear, hsince⟩ := h hfault
  have hle : s.time ≤ s.time + ((perform rxOffIdle s.driver c).2.now - s.driver.now).toNat := Nat.le_add_right _ _
  have hnow := @WrappedClock.shown_advance _ _ (perform rxOffIdle s.driver c).2.now hclock
  cases hanswers : answers c with
  | some ended =>
    intro hok
    cases c with
    | observe join result adapter consumed ended' =>
      obtain ⟨hend, hbound⟩ := hc ended hanswers
      obtain ⟨hlive, hready⟩ := observe_guard s.driver join result adapter consumed hok
      cases result with
      | event =>
        simp only [answers] at hanswers
        split at hanswers
        next hin =>
          refine ⟨hnow, ?_, ?_, .inl rfl⟩
          · simp only [perform, hready, if_pos hin, true_and, ← WrappedClock.shown_add, hend]
          · simp only [perform, hlive, show guardTime.toNat = 74 from rfl]
            omega
        · cases hanswers
      | _ => cases hanswers
    | _ => cases hanswers
  | none =>
    intro hok
    cases hrenews : renews rxOffIdle s.driver c with
    | true =>
      refine ⟨hnow, ?_, ?_, ?_⟩
      · cases c with
        | idle join adapter closed answer =>
          have hidle := @idle_guard rxOffIdle s.driver join adapter closed answer
          simp only [renews] at hrenews
          rw [hrenews, if_pos rfl] at hidle
          simp only [if_true, hnow]
          exact hidle.1.trans hidle.2.symm
        | _ => cases hrenews
      · simp only [if_true]
        omega
      · right
        simp only [if_true]
        refine ⟨?_, le_refl _⟩
        -- A guard that is renewed has ended.
        cases c with
        | idle join adapter closed answer =>
          simp only [renews, Bool.and_eq_true] at hrenews
          rcases Nat.lt_or_ge s.time s.since with hahead | hpast
          · rw [← hclock, ← hguard, reached_ahead hahead hnear] at hrenews
            exact absurd hrenews.2 (by decide)
          · obtain heq | ⟨hbefore, -⟩ := hsince
            · rw [← heq]
              exact hpast.trans hle
            · exact hbefore.trans (hpast.trans hle)
        | _ => cases hrenews
    | false =>
      have hkeep := perform_guard s.driver c hanswers hrenews hok
      refine ⟨hnow, by simpa only [Bool.false_eq_true, if_false, hkeep] using hguard, ?_, ?_⟩
      · simp only [Bool.false_eq_true, if_false]
        omega
      · simp only [Bool.false_eq_true, if_false]
        obtain heq | ⟨hbefore, hpast⟩ := hsince
        · exact .inl heq
        · exact .inr ⟨hbefore, hpast.trans hle⟩

/-! ## The verdict -/

/-- What `close_off` does with the radio off: the guard has ended, or a reading of the clock decides. -/
theorem closeOff_settled {d : Driver} {a : Adapter} (hoff : settled a = true) (result : MacAdapter.Result) (clock : Stamp)
    (closed : MacAdapter.Result) :
    (reached d.now d.rxReadyAt = true ∧ closeOff d a result clock closed = (.off, d)) ∨
    (reached d.now d.rxReadyAt = false ∧ result = .ok ∧ reached clock.symbols d.now = true ∧
      closeOff d a result clock closed =
        (if reached clock.symbols d.rxReadyAt then .off else .stop, { d with now := clock.symbols })) ∨
    (reached d.now d.rxReadyAt = false ∧ (closeOff d a result clock closed).2.fault ≠ none ∧
      ¬(result = .ok ∧ reached clock.symbols d.now = true)) := by
  unfold closeOff
  rw [if_pos hoff]
  cases hready : reached d.now d.rxReadyAt with
  | true => exact .inl ⟨rfl, by simp⟩
  | false =>
    simp only [Bool.false_eq_true, if_false]
    unfold sample fail
    split
    next hresult => exact .inr (.inr ⟨trivial, nofun, fun h => hresult h.1⟩)
    next hresult =>
    split
    next horder =>
      refine .inr (.inr ⟨trivial, nofun, fun h => ?_⟩)
      rw [h.2] at horder
      cases horder
    next horder => exact .inr (.inl ⟨trivial, not_not.1 hresult, by simpa using horder, rfl⟩)

theorem exact_iff {s : Timed} (h : Tracked s) (c : Call) : Exact rxOffIdle s c ↔ Timely s c := by
  cases c with
  | closeOff adapter result clock closed =>
    unfold Exact Timely
    refine imp_congr_right fun hoff => imp_congr_right fun hfault => ?_
    obtain ⟨hclock, hguard, hnear, hsince⟩ := h hfault
    have hact : act rxOffIdle s (.closeOff adapter result clock closed) =
        (some (closeOff s.driver adapter result clock closed).1,
          ⟨(closeOff s.driver adapter result clock closed).2,
            s.time + ((closeOff s.driver adapter result clock closed).2.now - s.driver.now).toNat, s.guard, s.since⟩) := by
      simp [act, hfault, perform, answers, renews]
    rw [hact]
    have hle : s.time ≤ s.time + (clock.symbols - s.driver.now).toNat := Nat.le_add_right _ _
    have hlater := @WrappedClock.shown_advance _ _ clock.symbols hclock
    obtain ⟨hready, heq⟩ | ⟨hlate, hresult, horder, heq⟩ | ⟨-, hfailed, hrefused⟩ :=
      closeOff_settled hoff result clock closed (d := s.driver)
    · -- The guard has ended at the last reading of the clock.
      rw [heq, UInt32.sub_self, show (0 : UInt32).toNat = 0 from rfl, Nat.add_zero]
      rw [← hclock, ← hguard] at hready
      have hpast : s.since ≤ s.time := by
        by_contra hahead
        rw [reached_ahead (Nat.lt_of_not_le hahead) hnear] at hready
        cases hready
      have hodd := (reached_past hpast).1 hready
      refine ⟨fun _ _ _ _ h => absurd h hodd, fun _ _ => ⟨fun _ => ?_, fun _ => rfl⟩⟩
      obtain heq | ⟨hbefore, -⟩ := hsince
      · exact heq ▸ hpast
      · exact hbefore.trans hpast
    · have hverdict : reached clock.symbols s.driver.rxReadyAt =
          reached (shown (s.time + (clock.symbols - s.driver.now).toNat)) (shown s.since) := by rw [hlater, hguard]
      have hshort : (clock.symbols - s.driver.now).toNat < 2 ^ 31 := (reached_iff _ _).1 horder
      rw [← hclock, ← hguard] at hlate
      rw [heq, hverdict]
      simp only [Option.some.injEq]
      rcases Nat.lt_or_ge s.time s.since with hahead | hpast
      · -- The guard is ahead of the last reading, so the reading of this call decides rightly.
        have hsame : s.since = s.guard := by
          obtain heq | ⟨-, hpast⟩ := hsince
          · exact heq
          · omega
        refine ⟨fun _ _ _ hpast => absurd hpast (by omega), fun _ _ => ?_⟩
        rw [← hsame]
        generalize hgen : s.time + (clock.symbols - s.driver.now).toNat = later at *
        rcases Nat.lt_or_ge later s.since with hstill | hover
        · rw [reached_ahead hstill (by omega)]
          simp only [Bool.false_eq_true, if_false, reduceCtorEq, false_iff]
          omega
        · rw [(reached_past hover).2 (by unfold oddHalf; omega)]
          simp only [if_true, true_iff]
          exact hover
      · have hodd : oddHalf (s.time - s.since) := by
          by_contra hno
          rw [(reached_past hpast).2 hno] at hlate
          cases hlate
        have hguarded : s.guard ≤ s.since := by
          obtain heq | ⟨hbefore, -⟩ := hsince
          · exact heq ▸ le_refl _
          · exact hbefore
        have hover := hpast.trans hle
        generalize s.time + (clock.symbols - s.driver.now).toNat = later at *
        by_cases hlateOdd : oddHalf (later - s.since)
        · rw [Bool.eq_false_iff.2 fun hr => (reached_past hover).1 hr hlateOdd]
          simp only [Bool.false_eq_true, if_false, reduceCtorEq, false_iff]
          exact ⟨fun hexact => absurd (hguarded.trans hover) (hexact hfault),
            fun htimely => absurd hlateOdd (htimely hresult horder hpast hodd)⟩
        · rw [(reached_past hover).2 hlateOdd]
          simp only [if_true, true_iff]
          exact ⟨fun _ _ _ _ _ => hlateOdd, fun _ _ => hguarded.trans hover⟩
    · exact ⟨fun _ hok horder _ _ => absurd ⟨hok, horder⟩ hrefused, fun _ hok => absurd hok hfailed⟩
  | _ => exact Iff.rfl

theorem tracked_start (last frames : UInt32) : Tracked (Timed.start last frames) := fun _ =>
  ⟨WrappedClock.shown_of_toNat last, WrappedClock.shown_of_toNat last, Nat.le_add_right _ _, .inl rfl⟩

/-- In every build the driver goes on with the radio off exactly when the guard has ended, as long as the guard
was not set, or set anew, an odd half range of the clock ago whenever that is asked. -/
theorem guard_exact (rxOffIdle : Bool) (last frames : UInt32) (calls : List Call)
    (hcausal : Runs.Meets (act rxOffIdle) Causal (Timed.start last frames) calls) :
    Runs.Meets (act rxOffIdle) (Exact rxOffIdle) (Timed.start last frames) calls ↔
      Runs.Meets (act rxOffIdle) Timely (Timed.start last frames) calls := by
  constructor
  · intro h
    exact Runs.meets_imp _ _ _ Tracked (fun s c h hc => h.call c hc.1) (fun s c h hc => (exact_iff h c).1 hc.2) _
      (tracked_start last frames) calls (hcausal.and _ h)
  · intro h
    exact Runs.meets_imp _ _ _ Tracked (fun s c h hc => h.call c hc.1) (fun s c h hc => (exact_iff h c).2 hc.2) _
      (tracked_start last frames) calls (hcausal.and _ h)

/-- A child whose receiver is always on. -/
def runtime : Join := ⟨.ready, .runtime, false, false, true, 0x08⟩

/-- A data frame that asks for an acknowledgment and ended at 90. -/
def received : Adapter :=
  { MacAdapter.cold with
    live := ⟨100, 0⟩, phase := .rx, ready := true
    observation := { MacAdapter.cold.observation with
      kind := .rx, normalRx := true, rxSerial := 1, frame := ⟨9, 0, 0x80, [0x61, 0x88, 1, 0x34, 0x12, 1, 0, 0, 0]⟩
      upper := ⟨90, 0⟩ } }

/-- The frame, and more than half a range of the clock without another. -/
def silence : List Call :=
  [.observe runtime .event received .ok 90, .sample .ok ⟨0x7fffffff, 0⟩, .sample .ok ⟨0x80000100, 0⟩]

/-- A request with the radio off. -/
def request : Call := .closeOff { MacAdapter.cold with phase := .off } .ok ⟨0x80000200, 0⟩ .ok

theorem silence_causal (rxOffIdle : Bool) : Runs.Meets (act rxOffIdle) Causal (Timed.start 0 0) (silence ++ [request]) := by
  refine ⟨fun ended h => ?_, trivial, trivial, trivial, trivial⟩
  obtain rfl : 90 = ended := Option.some.inj h
  exact ⟨rfl, by decide⟩

theorem guard_exact_silence :
    Runs.Meets (act false) (Exact false) (Timed.start 0 0) (silence ++ [request]) ↔
      Runs.Meets (act false) Timely (Timed.start 0 0) (silence ++ [request]) :=
  guard_exact false 0 0 (silence ++ [request]) (silence_causal false)

/-- The request is blocked half a range of the clock after the guard has ended, in either build. -/
theorem guard_blocks_again :
    ¬Runs.Meets (act false) (Exact false) (Timed.start 0 0) (silence ++ [request]) ∧
      ¬Runs.Meets (act true) (Exact true) (Timed.start 0 0) (silence ++ [request]) := by
  constructor
  · rintro ⟨-, -, -, h, -⟩
    have hoff := (h (by decide) (by decide) (by decide)).2 (by decide)
    revert hoff
    decide
  · rintro ⟨-, -, -, h, -⟩
    have hoff := (h (by decide) (by decide) (by decide)).2 (by decide)
    revert hoff
    decide

end MacLinkDriver
