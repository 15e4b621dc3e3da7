import Cc2530Zigbee.MacEpoch

/-!
# Epochs over unbounded time

The timer shows an unbounded count of fine ticks through its two wrapping
counters. An epoch that is stepped often enough follows the count; one that is
not faults and stays so. A projection accepts the samples of a closed arc.
-/
namespace MacEpoch

/-- What the timer shows at a time in fine ticks. -/
def sample (t : Nat) : Raw := ⟨UInt16.ofNat (t % 512), UInt32.ofNat (t / 512 % 0xFFFFFF)⟩

/-- The coordinate of a time, counted from a base. -/
def coordinate (base : UInt32) (t : Nat) : Stamp := ⟨base + UInt32.ofNat (t / 512), UInt16.ofNat (t % 512)⟩

/-- The epoch that follows a time exactly. -/
def epochAt (base : UInt32) (t : Nat) : Epoch :=
  { periods := (sample t).periods, symbols := (coordinate base t).symbols, fine := (sample t).fine, state := .ready }

/-- Every time is at or after the one before it, by less than half a revolution. -/
def Steady (t : Nat) : List Nat → Prop
  | [] => True
  | u :: us => t ≤ u ∧ u - t < half ∧ Steady u us

theorem sample_fine (t : Nat) : (sample t).fine.toNat = t % 512 := by
  simp only [sample, UInt16.toNat_ofNat']
  omega

theorem sample_periods (t : Nat) : (sample t).periods.toNat = t / 512 % 0xFFFFFF := by
  simp only [sample, UInt32.toNat_ofNat']
  omega

theorem sample_valid (t : Nat) : valid (sample t) = true := by
  rw [valid_iff, sample_fine, sample_periods]
  omega

theorem sample_place (t : Nat) : (sample t).place = t % revolution := by
  rw [Raw.place, sample_fine, sample_periods]
  unfold revolution
  omega

theorem sample_arc (t u : Nat) (h : t ≤ u) : arc (sample t) (sample u) = (u - t) % revolution := by
  rw [arc, sample_place, sample_place]
  unfold revolution
  omega

theorem epochAt_live (base : UInt32) (t : Nat) : Live (epochAt base t) :=
  ⟨rfl, sample_valid t⟩

theorem start_sample (ctx : Epoch) (t : Nat) (symbols : UInt32) :
    start ctx (sample t) symbols = (.ok, epochAt (symbols - UInt32.ofNat (t / 512)) t) := by
  simp [start, sample_valid, epochAt, coordinate]

/-- Within half a revolution the wrapped difference is the true one. -/
theorem periodsSince_sample (base : UInt32) (t u : Nat) (h : t ≤ u) (hu : u - t < half) :
    periodsSince (epochAt base t) (sample u) = UInt32.ofNat (u / 512 - t / 512) := by
  apply UInt32.toNat_inj.1
  rw [periodsSince_toNat _ _ (epochAt_live base t).valid (sample_valid u)]
  simp only [epochAt, sample_periods, UInt32.toNat_ofNat']
  unfold half at hu
  omega

/-- One sample in time moves the epoch on to it. -/
theorem step_sample (base : UInt32) (t u : Nat) (h : t ≤ u) (hu : u - t < half) :
    step (epochAt base t) (sample u) = ((.ok, some (coordinate base u)), epochAt base u) := by
  have harc : arc (epochAt base t).raw (sample u) < half := by
    have hraw : (epochAt base t).raw = sample t := rfl
    rw [hraw, sample_arc t u h]
    unfold half revolution at *
    omega
  have hsymbols : (epochAt base t).symbols + periodsSince (epochAt base t) (sample u) = (coordinate base u).symbols := by
    rw [periodsSince_sample base t u h hu]
    have hsum : t / 512 + (u / 512 - t / 512) = u / 512 := by omega
    simp only [epochAt, coordinate]
    rw [UInt32.add_assoc, ← UInt32.ofNat_add, hsum]
  rw [step_live _ _ (epochAt_live base t) (sample_valid u), if_pos harc, moved, hsymbols]
  rfl

theorem run_sample (base : UInt32) (t : Nat) (ts : List Nat) (h : Steady t ts) :
    Runs.run step (epochAt base t) (ts.map sample) =
      (ts.map fun u => (.ok, some (coordinate base u)), epochAt base (ts.getLastD t)) := by
  induction ts generalizing t with
  | nil => rfl
  | cons u us ih =>
    obtain ⟨hle, hlt, hrest⟩ := h
    simp only [List.map_cons, Runs.run, step_sample base t u hle hlt, ih u hrest, List.getLastD_cons]

/-- A sample from half a revolution on, and less than a whole one, faults. -/
theorem step_late (base : UInt32) (t u : Nat) (hu : t + half ≤ u) (hlt : u < t + revolution) :
    step (epochAt base t) (sample u) = ((.timeError, none), { epochAt base t with state := .fault }) := by
  have harc : ¬ arc (epochAt base t).raw (sample u) < half := by
    have hraw : (epochAt base t).raw = sample t := rfl
    rw [hraw, sample_arc t u (by omega), Nat.mod_eq_of_lt (by omega)]
    omega
  rw [step_live _ _ (epochAt_live base t) (sample_valid u), if_neg harc]

theorem run_fault (ctx : Epoch) (h : ctx.state = .fault) (raws : List Raw) :
    Runs.run step ctx raws = (raws.map fun _ => (.timeError, none), ctx) := by
  induction raws with
  | nil => rfl
  | cons raw raws ih => simp [Runs.run, step_fault ctx raw h, ih]

/-! ## The projection -/

/-- On an accepted arc the wrapped periods and the fine ticks make up the arc. -/
theorem periodsSince_arc (ctx : Epoch) (raw : Raw) (hc : valid ctx.raw = true) (hr : valid raw = true)
    (h : arc ctx.raw raw < half) :
    (periodsSince ctx raw).toNat * 512 + raw.fine.toNat = arc ctx.raw raw + ctx.fine.toNat := by
  have hp := periodsSince_toNat ctx raw hc hr
  obtain ⟨hcf, hcp⟩ := (valid_iff ctx.raw).1 hc
  obtain ⟨hrf, hrp⟩ := (valid_iff raw).1 hr
  simp only [Epoch.raw] at hcf hcp
  unfold arc Raw.place revolution Epoch.raw half at *
  simp only at h ⊢
  omega

theorem arc_add (a b c : Raw) (ha : valid a = true) (hb : valid b = true) (hc : valid c = true)
    (h : arc a b ≤ arc a c) : arc a b + arc b c = arc a c := by
  obtain ⟨haf, hap⟩ := (valid_iff a).1 ha
  obtain ⟨hbf, hbp⟩ := (valid_iff b).1 hb
  obtain ⟨hcf, hcp⟩ := (valid_iff c).1 hc
  unfold arc Raw.place revolution at *
  omega

/-- A point outside the closed arc is too far from one of its ends. -/
theorem arc_outside (a b c : Raw) (ha : valid a = true) (hb : valid b = true) (hc : valid c = true)
    (hac : arc a c < half) (hab : arc a b < half) (hbc : arc b c < half) : arc a b ≤ arc a c := by
  obtain ⟨haf, hap⟩ := (valid_iff a).1 ha
  obtain ⟨hbf, hbp⟩ := (valid_iff b).1 hb
  obtain ⟨hcf, hcp⟩ := (valid_iff c).1 hc
  unfold arc Raw.place revolution half at *
  omega

theorem project_ok_iff (first : Epoch) (last raw : Raw) :
    (project first last raw).1 = .ok ↔
      (step first last).1.1 = .ok ∧ (step first raw).1.1 = .ok ∧ (step (step first raw).2 last).1.1 = .ok := by
  unfold project
  simp only
  split
  next h => simp [h]
  next h =>
    split
    next h' => simp [h']
    next h' =>
      split
      next h'' => simp [h'']
      next h'' => simp_all

theorem step_ok (ctx : Epoch) (raw : Raw) (hc : Live ctx) (hr : valid raw = true) (h : arc ctx.raw raw < half) :
    step ctx raw = ((.ok, some ⟨ctx.symbols + periodsSince ctx raw, raw.fine⟩), moved ctx raw) := by
  rw [step_live ctx raw hc hr, if_pos h]

/-- The projection accepts exactly the samples of the closed forward arc. -/
theorem project_accepts (first : Epoch) (last raw : Raw) :
    (project first last raw).1 = .ok ↔
      Live first ∧ valid last = true ∧ valid raw = true ∧
        arc first.raw last < half ∧ arc first.raw raw ≤ arc first.raw last := by
  rw [project_ok_iff, step_ok_iff, step_ok_iff]
  constructor
  · rintro ⟨⟨hc, hl, hfl⟩, ⟨-, hr, hfr⟩, hrest⟩
    rw [step_ok first raw hc hr hfr, step_ok_iff, moved_raw] at hrest
    exact ⟨hc, hl, hr, hfl, arc_outside first.raw raw last hc.valid hr hl hfl hfr hrest.2.2⟩
  · rintro ⟨hc, hl, hr, hfl, hle⟩
    have hfr : arc first.raw raw < half := by omega
    have hsum := arc_add first.raw raw last hc.valid hr hl hle
    refine ⟨⟨hc, hl, hfl⟩, ⟨hc, hr, hfr⟩, ?_⟩
    rw [step_ok first raw hc hr hfr, step_ok_iff, moved_raw]
    exact ⟨moved_live first raw hc hr, hl, by omega⟩

/-- Stepping through a sample of the arc ends where stepping directly does. -/
theorem step_through (first : Epoch) (last raw : Raw) (h : (project first last raw).1 = .ok) :
    step (step first raw).2 last = step first last := by
  obtain ⟨hc, hl, hr, hfl, hle⟩ := (project_accepts first last raw).1 h
  have hfr : arc first.raw raw < half := by omega
  have hsum := arc_add first.raw raw last hc.valid hr hl hle
  have hrl : arc (moved first raw).raw last < half := by
    rw [moved_raw]
    omega
  have hmoved := moved_live first raw hc hr
  have h1 := periodsSince_arc first raw hc.valid hr hfr
  have h2 := periodsSince_arc (moved first raw) last hmoved.valid hl hrl
  have h3 := periodsSince_arc first last hc.valid hl hfl
  have hperiods : periodsSince first raw + periodsSince (moved first raw) last = periodsSince first last := by
    apply UInt32.toNat_inj.1
    rw [UInt32.toNat_add]
    have hbound := (periodsSince first last).toNat_lt
    simp only [moved_raw] at h2
    have hfine : (moved first raw).fine = raw.fine := rfl
    rw [hfine] at h2
    omega
  have hsymbols : (moved first raw).symbols + periodsSince (moved first raw) last =
      first.symbols + periodsSince first last := by
    rw [← hperiods, ← UInt32.add_assoc]
    rfl
  rw [step_ok first raw hc hr hfr, step_ok _ _ hmoved hl hrl, step_ok first last hc hl hfl]
  simp only [moved] at hsymbols ⊢
  rw [hsymbols]

theorem project_output (first : Epoch) (last raw : Raw) :
    (project first last raw).2 =
      if (project first last raw).1 = .ok then (step first raw).1.2 else none := by
  unfold project
  simp only
  split
  next h => simp [h]
  next h =>
    split
    next h' => simp [h']
    next h' =>
      split
      next h'' => simp [h'']
      · simp

/-- Stepped in time an epoch follows unbounded time; a late sample faults it for
good; and a projection is the step to a sample of the closed arc. -/
theorem epoch_extended (ctx : Epoch) (symbols : UInt32) (t : Nat) (ts : List Nat) (h : Steady t ts) :
    (start ctx (sample t) symbols).1 = .ok ∧
    (∀ base run, base = symbols - UInt32.ofNat (t / 512) →
      run = Runs.run step (start ctx (sample t) symbols).2 (ts.map sample) →
      run.1 = ts.map (fun u => (.ok, some (coordinate base u))) ∧
      ∀ late, ts.getLastD t + half ≤ late → late < ts.getLastD t + revolution →
        step run.2 (sample late) = ((.timeError, none), { run.2 with state := .fault }) ∧
        ∀ raws, Runs.run step { run.2 with state := .fault } raws =
          (raws.map fun _ => (.timeError, none), { run.2 with state := .fault })) ∧
    (∀ first last raw,
      ((project first last raw).1 = .ok ↔
        Live first ∧ valid last = true ∧ valid raw = true ∧
          arc first.raw last < half ∧ arc first.raw raw ≤ arc first.raw last) ∧
      ((project first last raw).1 = .ok →
        (step first raw).1 = project first last raw ∧ step (step first raw).2 last = step first last)) := by
  refine ⟨?_, ?_, ?_⟩
  · rw [start_sample]
  · intro base run hbase hrun
    rw [start_sample, ← hbase, run_sample base t ts h] at hrun
    subst hrun
    refine ⟨rfl, ?_⟩
    intro late hlate hlt
    exact ⟨step_late base (ts.getLastD t) late hlate hlt, run_fault _ rfl⟩
  · intro first last raw
    refine ⟨project_accepts first last raw, ?_⟩
    intro hok
    refine ⟨?_, step_through first last raw hok⟩
    have hstep := ((project_ok_iff first last raw).1 hok).2.1
    have hout := project_output first last raw
    rw [if_pos hok] at hout
    exact Prod.ext (hstep.trans hok.symm) hout.symm

/-- The last period before the wrap of the timer, at the last symbol before the
wrap of the coordinate, then 601 ticks on. -/
theorem epoch_extended_wrap :
    Steady (revolution - 1) [revolution + 600] ∧
    (Runs.run step (start ⟨0, 0, 0, .blank⟩ (sample (revolution - 1)) 0xFFFFFFFF).2
      [sample (revolution + 600)]).1 = [(.ok, some ⟨1, 88⟩)] := by
  have hsteady : Steady (revolution - 1) [revolution + 600] := ⟨by decide, by decide, trivial⟩
  have hrun := ((epoch_extended ⟨0, 0, 0, .blank⟩ 0xFFFFFFFF (revolution - 1) [revolution + 600] hsteady).2.1
    _ _ rfl rfl).1
  exact ⟨hsteady, hrun.trans (by decide)⟩

end MacEpoch
