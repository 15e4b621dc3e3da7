import Cc2530Zigbee.NvRecordJournal

/-!
# The kept selection is the one a full scan makes

The reference selects afresh in every call. While nothing else writes the two
pages, the journal with its kept diagnostic gives the same results, publishes
the same octets, issues the same commands and leaves the same state, call by
call.
-/
namespace NvRecord

open Octets Flash

variable (max : Nat)

/-! The reference. -/

/-- `nv_record_load` without `resume`: every admitted call runs `select_record`. -/
def scanningLoad (s : State) (output : Pointer) (capacity : UInt8) : Result × Option Bytes × State :=
  match s.fault with
  | some r => (r, none, s)
  | none =>
    if output = .null ∨ capacity = 0 then (.invalidArgument, none, s)
    else if output = .refused then (.bufferOwnership, none, s)
    else loadSelected max { s with status := begin s.status } capacity

/-- `nv_record_replace` without `resume`. -/
def scanningReplace (s : State) (pointer : Pointer) (data : Bytes) (pollLimit : UInt16)
    (allowRecovery : UInt8) : Except Device (Result × State) :=
  match s.fault with
  | some r => .ok (r, s)
  | none =>
    if pointer = .null ∨ data.length = 0 ∨ max < data.length ∨ pollLimit = 0 ∨ 1 < allowRecovery then
      .ok (.invalidArgument, s)
    else if pointer = .refused then .ok (.bufferOwnership, s)
    else
      let sel := selectRecord max s.device (begin s.status)
      replaceSelected max { s with status := sel.2 } sel.1 data allowRecovery

/-! The commands of a call. -/

inductive Command where
  | erase : Bool → Command
  | program : Bool → Nat → Word → Command
  deriving DecidableEq

/-- The device after a command, however it ended. -/
def issue (d : Device) : Command → Device
  | .erase b => match Flash.erase d b with
    | .error d => d
    | .ok (_, d) => d
  | .program b offset word => match Flash.program d b offset word with
    | .error d => d
    | .ok (_, d) => d

/-- The commands that are issued: all up to the first that does not complete. -/
def admitted : List (Outcome Uncommitted) → List Command → List Command
  | _, [] => []
  | [], cs => cs
  | .done :: rest, c :: cs => c :: admitted rest cs
  | _ :: _, c :: _ => [c]

/-- The commands of a completed rewrite, in order. -/
def rewriteCommands (page : Bool) (data : Bytes) (generation : UInt32) : List Command :=
  .erase page :: (recordWrites data generation).map fun w => .program page w.offset w.word

/-- The commands a replacement issues from a selection. -/
def selectedCommands (d : Device) (sel : Result × Status) (data : Bytes) (allowRecovery : UInt8) : List Command :=
  if sel.1 = .recovered ∧ allowRecovery = 0 then []
  else if sel.1 ≠ .ok ∧ sel.1 ≠ .recovered ∧ sel.1 ≠ .empty then []
  else if sel.2.generation = 0xFFFFFFFF then []
  else if eraseLimit ≤ sel.2.eraseAttempts (inactive sel.2.selected) then []
  else admitted d.schedule (rewriteCommands (inactive sel.2.selected) data (sel.2.generation + 1))

/-- The commands of a replacement that selects by `sel`. -/
def replaceCommands (sel : State → Result × Status) (s : State) (pointer : Pointer) (data : Bytes)
    (pollLimit : UInt16) (allowRecovery : UInt8) : List Command :=
  if s.fault.isSome then []
  else if pointer = .null ∨ data.length = 0 ∨ max < data.length ∨ pollLimit = 0 ∨ 1 < allowRecovery then []
  else if pointer = .refused then []
  else selectedCommands s.device (sel s) data allowRecovery

/-- The selection of `nv_record_replace`: the kept one, or a scan. -/
def keptSelection (s : State) : Result × Status :=
  let res := resume s.status
  if res.1 then (.ok, res.2) else selectRecord max s.device res.2

/-- The selection of the reference. -/
def scannedSelection (s : State) : Result × Status := selectRecord max s.device (begin s.status)

variable {max} {s s' : State}

/-- The next command completes. -/
def completes : List (Outcome Uncommitted) → Bool
  | [] => true
  | .done :: _ => true
  | _ => false

theorem admitted_cons (l : List (Outcome Uncommitted)) (c : Command) (cs : List Command) :
    admitted l (c :: cs) = if completes l then c :: admitted l.tail cs else [c] := by
  cases l with
  | nil => cases cs <;> rfl
  | cons o rest => cases o <;> rfl

theorem command_completes {d : Device} (b : Bool) (full : Page)
    (part : Word → {p : Page // Uncommitted p} → Page) (h : completes d.schedule = true) :
    ∃ d', command d b full part = .ok (true, d') ∧ d'.schedule = d.schedule.tail := by
  obtain ⟨page, schedule⟩ := d
  cases schedule with
  | nil => exact ⟨_, rfl, rfl⟩
  | cons o rest =>
    cases o with
    | done => exact ⟨_, rfl, rfl⟩
    | failed m => cases h
    | cut m => cases h

theorem command_stops {d : Device} (b : Bool) (full : Page)
    (part : Word → {p : Page // Uncommitted p} → Page) (h : completes d.schedule = false) :
    ∃ d', command d b full part = .ok (false, d') ∨ command d b full part = .error d' := by
  obtain ⟨page, schedule⟩ := d
  cases schedule with
  | nil => cases h
  | cons o rest =>
    cases o with
    | done => cases h
    | failed m => exact ⟨_, .inl rfl⟩
    | cut m => exact ⟨_, .inr rfl⟩

/-- The pages a run of program commands leaves. -/
def programmed : Except Device (Option Result × State) → Device
  | .error d => d
  | .ok (_, s) => s.device

theorem programAll_issues (s : State) (b : Bool) (ws : List Write) :
    programmed (programAll s b ws) =
      (admitted s.device.schedule (ws.map fun w => .program b w.offset w.word)).foldl issue s.device := by
  induction ws generalizing s with
  | nil => rw [List.map_nil, admitted]; rfl
  | cons w ws ih =>
    rw [List.map_cons, admitted_cons]
    cases hc : completes s.device.schedule with
    | true =>
      obtain ⟨d, hd, hs⟩ := command_completes b (write (s.device.page b) w.offset w.word noBits)
        (fun kept _ => write (s.device.page b) w.offset w.word kept) hc
      have hp : Flash.program s.device b w.offset w.word = .ok (true, d) := hd
      have hi : issue s.device (.program b w.offset w.word) = d := by simp only [issue, hp]
      have hall : programAll s b (w :: ws) = programAll { setPhase s w.phase with device := d } b ws := by
        simp [programAll, program, setPhase, hp]
      rw [hall, ih, if_pos rfl, List.foldl_cons, hi, ← hs]
    | false =>
      obtain ⟨d, hd⟩ := command_stops b (write (s.device.page b) w.offset w.word noBits)
        (fun kept _ => write (s.device.page b) w.offset w.word kept) hc
      have hp : Flash.program s.device b w.offset w.word = .ok (false, d) ∨
        Flash.program s.device b w.offset w.word = .error d := hd
      rw [if_neg (by simp)]
      obtain hp | hp := hp <;> simp [programAll, program, setPhase, hp, issue, programmed, fault, finish]

/-- A rewrite leaves the device its commands make. -/
theorem rewrite_issues (s : State) (b : Bool) (data : Bytes) :
    survivor (rewrite max s b data) =
      (admitted s.device.schedule (rewriteCommands b data (s.status.generation + 1))).foldl issue s.device := by
  rw [rewriteCommands, admitted_cons]
  cases hc : completes s.device.schedule with
  | true =>
    obtain ⟨d, hd, hs⟩ := command_completes b blank (fun _ p => p.1) hc
    have he : Flash.erase s.device b = .ok (true, d) := hd
    have hi : issue s.device (.erase b) = d := by simp only [issue, he]
    rw [if_pos rfl, List.foldl_cons, hi, ← hs,
      ← programAll_issues { s with device := d } b (recordWrites data (s.status.generation + 1))]
    unfold rewrite
    simp only [he]
    cases hp : programAll { s with device := d } b (recordWrites data (s.status.generation + 1)) with
    | error d => rfl
    | ok o =>
      obtain ⟨r, s'⟩ := o
      cases r with
      | some r => rfl
      | none =>
        simp only
        split <;> rfl
  | false =>
    obtain ⟨d, hd⟩ := command_stops b blank (fun _ p => p.1) hc
    have he : Flash.erase s.device b = .ok (false, d) ∨ Flash.erase s.device b = .error d := hd
    rw [if_neg (by simp)]
    obtain he | he := he <;> simp [rewrite, he, issue, survivor, fault, finish]

theorem selected_issues (s : State) (sel : Result × Status) (data : Bytes) (allow : UInt8) :
    survivor (replaceSelected max { s with status := sel.2 } sel.1 data allow) =
      (selectedCommands s.device sel data allow).foldl issue s.device := by
  unfold replaceSelected selectedCommands
  split
  · rfl
  · split
    · rfl
    · simp only
      split
      · rfl
      · split
        · rfl
        · rw [rewrite_issues]

/-- A replacement leaves the device its commands make. -/
theorem replace_issues (s : State) (pointer : Pointer) (data : Bytes) (polls : UInt16) (allow : UInt8) :
    survivor (replace max s pointer data polls allow) =
      (replaceCommands max (keptSelection max) s pointer data polls allow).foldl issue s.device := by
  unfold replace replaceCommands
  cases hf : s.fault with
  | some r => rfl
  | none =>
    simp only [Option.isSome_none, Bool.false_eq_true, if_false]
    split
    · rfl
    · split
      · rfl
      · have hs := @selected_issues max s (keptSelection max s) data allow
        rw [hf] at hs
        exact hs

/-! The invariant. -/

/-- Unless a fault is latched, the kept diagnostic is the one a selection would
leave, page states included. -/
def Honest (max : Nat) (s : State) : Prop :=
  s.fault = none → known s.status = true → ∃ b, view max s.device = .clean b ∧ Names max s.status s.device b ∧
    ∀ c, s.status.pages c = (scans max s.device c).state

theorem Honest.coherent (h : Honest max s) (hf : s.fault = none) : Coherent max s := fun hk =>
  let ⟨b, hv, hn, _⟩ := h hf hk
  ⟨b, hv, hn⟩

/-- Where the diagnostic is kept, a scan finds the same. -/
theorem Honest.selection (h : Honest max s) (hf : s.fault = none) :
    keptSelection max s = scannedSelection max s := by
  unfold keptSelection scannedSelection resume
  by_cases hk : known s.status = true
  · obtain ⟨b, hv, ⟨hs, hg, hl⟩, hp⟩ := h hf hk
    have hpages : s.status.pages = fun c => (scans max s.device c).state := funext hp
    simp only [if_pos hk, if_true]
    rw [selectRecord_view, hv, viewStatus, hs, hg, hl, hpages]
  · simp only [if_neg hk, Bool.false_eq_true, if_false]

theorem Honest.replace (h : Honest max s) (pointer : Pointer) (data : Bytes) (polls : UInt16) (allow : UInt8) :
    replace max s pointer data polls allow = scanningReplace max s pointer data polls allow := by
  unfold NvRecord.replace scanningReplace
  cases hf : s.fault with
  | some r => rfl
  | none =>
    have hsel := h.selection hf
    unfold keptSelection scannedSelection at hsel
    simp only [hsel]

/-- With a kept selection the load takes the short path to the same end. -/
theorem Honest.load (h : Honest max s) (output : Pointer) (capacity : UInt8) :
    load max s output capacity = scanningLoad max s output capacity := by
  obtain ⟨fault, st, d⟩ := s
  unfold NvRecord.load scanningLoad
  cases fault with
  | some r => rfl
  | none =>
    simp only
    split
    · rfl
    · split
      · rfl
      · by_cases hk : known st = true
        · obtain ⟨b, hv, ⟨hs, hg, hl⟩, hp⟩ := h rfl hk
          simp only at hv hs hg hl hp
          have hpages : st.pages = fun c => (scans max d c).state := funext hp
          have hval := viewOf_holds_valid (.inl hv : Holds (viewOf (scans max d)) b)
          have hagree := @agrees_scans max d b (setPage { { begin st with
            selected := some b, length := (scans max d b).length,
            generation := (scans max d b).generation, pages := fun c => (scans max d c).state } with
            phase := 2 } b (scanPage max true (d.page b)).state) hval rfl rfl
          simp only [resume, if_pos hk, loadSelected, selectRecord_view, hv, viewStatus, hs, hg, hl, hpages,
            ne_eq, not_true_eq_false, false_and, if_false, if_pos hagree]
          split
          · rfl
          · rfl
        · simp only [resume, if_neg hk]

theorem honest_unknown (h : known s.status = false) : Honest max s := fun _ hk => by simp [h] at hk

theorem finish_honest (s : State) {r : Result} (hr : r ≠ .ok) : Honest max (finish s r).2 :=
  honest_unknown (by simp [known, finish, hr])

theorem loadSelected_honest (s : State) (capacity : UInt8) : Honest max (loadSelected max s capacity).2.2 := by
  unfold loadSelected
  rw [selectRecord_view]
  cases hv : view max s.device with
  | empty => exact finish_honest _ (by simp [viewStatus])
  | refused r =>
    have hne := refused_ne hv
    rw [viewStatus, if_pos ⟨hne.1, hne.2.1⟩]
    exact finish_honest _ hne.1
  | clean b =>
    have hval := viewOf_holds_valid (.inl hv : Holds (viewOf (scans max s.device)) b)
    rw [viewStatus, if_neg (by simp)]
    simp only
    split
    · exact finish_honest _ (by simp)
    · rw [if_neg (not_not_intro (agrees_scans hval rfl rfl))]
      refine fun _ _ => ⟨b, hv, ⟨rfl, rfl, rfl⟩, fun c => ?_⟩
      simp only [publish, finish, setPage]
      split
      · rename_i hc
        rw [hc]
        exact (@scanPage_capture max (s.device.page b)).1
      · rfl
  | degraded b =>
    rw [viewStatus, if_neg (by simp)]
    simp only
    split
    · exact finish_honest _ (by simp)
    · split
      · exact finish_honest _ (by simp)
      · exact honest_unknown (by simp [publish, finish, setPage, known])

theorem load_honest (output : Pointer) (capacity : UInt8) (h : Honest max s) :
    Honest max (load max s output capacity).2.2 := by
  rw [h.load]
  unfold scanningLoad
  cases s.fault with
  | some r => exact h
  | none =>
    simp only
    split
    · exact h
    · split
      · exact h
      · exact loadSelected_honest _ capacity

/-- A completed rewrite changes the state of its own page only, and records it. -/
theorem rewrite_pages {b : Bool} {data : Bytes} {r : Result} (hr : rewrite max s b data = .ok (r, s')) :
    s'.fault = some r ∨ (s'.device.page (!b) = s.device.page (!b) ∧
      s'.status.pages b = (scans max s'.device b).state ∧ s'.status.pages (!b) = s.status.pages (!b)) := by
  unfold rewrite at hr
  obtain ⟨d, hd, hp, ho⟩ | ⟨d, hd | hd, hp, ho⟩ := erase_cases s.device b
  · simp only [hd] at hr
    obtain ⟨t, h, hb, hn, hf, ph, hs⟩ | ⟨d', pre, w, post, kept, h, hw, hb, hn⟩ :=
      programAll_cases { s with device := d } b (recordWrites data (s.status.generation + 1))
    · simp only [h, hs] at hr
      split at hr
      · cases hr
        exact .inl rfl
      · cases hr
        refine .inr ⟨hn.trans ho, ?_, ?_⟩
        · simp [setPage, scans]
        · simp [setPage]
    · obtain h | ⟨t, h, -, hf⟩ := h
      · simp only [h] at hr
        cases hr
      · simp only [h] at hr
        cases hr
        exact .inl hf
  · simp only [hd] at hr
    cases hr
    exact .inl rfl
  · simp only [hd] at hr
    cases hr

theorem replace_honest (pointer : Pointer) (data : Bytes) (polls : UInt16) (allow : UInt8) (hmax : max ≤ 2028)
    (h : Honest max s) {r : Result} (hr : replace max s pointer data polls allow = .ok (r, s')) :
    Honest max s' := by
  have hscan := hr
  rw [h.replace] at hscan
  unfold scanningReplace at hscan
  cases hf : s.fault with
  | some q =>
    rw [hf] at hscan
    cases hscan
    exact h
  | none =>
    rw [hf] at hscan
    simp only at hscan
    split at hscan
    · cases hscan
      exact h
    · split at hscan
      · cases hscan
        exact h
      · -- The names come from the call's inversion, the page states from the scan and the rewrite.
        intro hf' hk
        obtain ⟨b, hv, hn⟩ : ∃ b, view max s'.device = .clean b ∧ Names max s'.status s'.device b := by
          obtain ⟨q, t, ht, -, -, hc, -⟩ | ⟨-, -, -, -, -, hres⟩ :=
            replace_cases s pointer data polls allow hmax hf (h.coherent hf)
          · rw [hr] at ht
            cases ht
            exact hc hk
          · obtain ⟨-, -, -, hc⟩ | ⟨hx, -⟩ := hres _ _ hr
            · exact hc hk
            · simp [hf'] at hx
        refine ⟨b, hv, hn, ?_⟩
        have hpages : (selectRecord max s.device (begin s.status)).2.pages =
            fun c => (scans max s.device c).state := by
          rw [selectRecord_view]
          cases view max s.device <;> rfl
        generalize selectRecord max s.device (begin s.status) = sel at hscan hpages
        unfold replaceSelected at hscan
        have hno : ∀ {t : State} {q : Result}, q ≠ .ok → Except.ok (finish t q) = (Except.ok (r, s') :
            Except Device (Result × State)) → ∀ c, s'.status.pages c = (scans max s'.device c).state := by
          intro t q hq he
          cases he
          simp [known, hq] at hk
        split at hscan
        · exact hno (by simp) hscan
        · split at hscan
          · rename_i hne
            exact hno hne.1 hscan
          · simp only at hscan
            split at hscan
            · exact hno (by simp) hscan
            · split at hscan
              · exact hno (by simp) hscan
              · obtain hx | ⟨hother, hown, hrest⟩ := rewrite_pages hscan
                · simp [hf'] at hx
                · intro c
                  obtain rfl | rfl : c = inactive sel.2.selected ∨ c = !inactive sel.2.selected := by
                    cases c <;> cases inactive sel.2.selected <;> simp
                  · exact hown
                  · rw [hrest, scans_congr hother]
                    exact congrFun hpages _

/-! Runs. -/

/-- A call as its caller and the flash controller see it. -/
structure Trace where
  result : Option Result
  published : Option Bytes
  commands : List Command

variable (max) in
/-- One step of a journal given by its two calls and its selection. -/
def stepBy (loads : State → Pointer → UInt8 → Result × Option Bytes × State)
    (replaces : State → Pointer → Bytes → UInt16 → UInt8 → Except Device (Result × State))
    (sel : State → Result × Status) (s : State) : Op → Trace × State
  | .load output capacity =>
    let l := loads s output capacity
    (⟨some l.1, l.2.1, []⟩, l.2.2)
  | .replace pointer data polls allow =>
    let commands := replaceCommands max sel s pointer data polls allow
    match replaces s pointer data polls allow with
    | .error d => (⟨none, none, commands⟩, reset d)
    | .ok (r, s') => (⟨some r, none, commands⟩, s')
  | .reset => (⟨none, none, []⟩, reset s.device)

variable (max) in
/-- The journal of the source. -/
def keptStep : State → Op → Trace × State := stepBy max (load max) (replace max) (keptSelection max)

variable (max) in
/-- The reference that always scans. -/
def scanningStep : State → Op → Trace × State :=
  stepBy max (scanningLoad max) (scanningReplace max) (scannedSelection max)

theorem Honest.commands (h : Honest max s) (pointer : Pointer) (data : Bytes) (polls : UInt16) (allow : UInt8) :
    replaceCommands max (keptSelection max) s pointer data polls allow =
      replaceCommands max (scannedSelection max) s pointer data polls allow := by
  unfold replaceCommands
  cases hf : s.fault with
  | some r => rfl
  | none => rw [h.selection hf]

theorem Honest.step (h : Honest max s) (op : Op) : keptStep max s op = scanningStep max s op := by
  cases op with
  | load output capacity => simp only [keptStep, scanningStep, stepBy, h.load]
  | replace pointer data polls allow =>
    simp only [keptStep, scanningStep, stepBy, h.replace, h.commands]
  | reset => rfl

theorem step_honest (hmax : max ≤ 2028) (h : Honest max s) (op : Op) : Honest max (keptStep max s op).2 := by
  cases op with
  | load output capacity => exact load_honest output capacity h
  | replace pointer data polls allow =>
    simp only [keptStep, stepBy]
    cases hr : replace max s pointer data polls allow with
    | error d => exact honest_unknown rfl
    | ok o => exact replace_honest pointer data polls allow hmax h hr
  | reset => exact honest_unknown rfl

/-- From any pages, under any supply, every run of the journal is the run of the
reference: the same results, octets, commands and states. -/
theorem kept_scanning (build : Build) (d : Device) (ops : List Op) :
    Runs.run (keptStep build.recordMax) (reset d) ops = Runs.run (scanningStep build.recordMax) (reset d) ops := by
  have hmax : build.recordMax ≤ 2028 := le_trans build.recordMax_le (by omega)
  have hrun : ∀ s, Honest build.recordMax s →
      Runs.run (keptStep build.recordMax) s ops = Runs.run (scanningStep build.recordMax) s ops := by
    induction ops with
    | nil => exact fun _ _ => rfl
    | cons op ops ih =>
      intro s hs
      have hnext := ih _ (step_honest hmax hs op)
      rw [Runs.run, Runs.run]
      simp only [hnext]
      rw [hs.step op]
  exact hrun _ (honest_unknown rfl)

end NvRecord
