import Cc2530Zigbee.SecurityCounterLedger

/-!
# Counters never repeat

A run interleaves the calls of the counter owner with resets. A call in which
the supply is lost ends in a start from the surviving pages. Over any run, from
any contents of the flash, the counters of a domain come out strictly
increasing.
-/
namespace SecurityCounter

open Octets NvRecord

inductive Op where
  | counterOpen : Op
  | create (nwkFloor apsFloor : UInt32) (pointer : Pointer) (data : Bytes) (polls : UInt16) : Op
  | restage (pointer : Pointer) (data : Bytes) : Op
  | take (domain : UInt8) (value : Pointer) (polls : UInt16) : Op
  | save (pointer : Pointer) (data : Bytes) (polls : UInt16) : Op
  | read (data : Pointer) (capacity : UInt8) (length : Pointer) : Op
  | reset : Op

/-- What a call reports: its result and, for `take`, the counter with its domain. -/
structure Report where
  result : Option Result
  taken : Option (Bool × UInt32)

variable (build : Build)

def step (s : State) : Op → Report × State
  | .counterOpen => let r := counterOpen build s; (⟨some r.1, none⟩, r.2)
  | .create nwk aps pointer data polls =>
    let r := create build s nwk aps pointer data polls; (⟨some r.1, none⟩, r.2)
  | .restage pointer data => let r := restage build s pointer data; (⟨some r.1, none⟩, r.2)
  | .take domain value polls =>
    match take build s domain value polls with
    | .error d => (⟨none, none⟩, cold d)
    | .ok (r, v, s) => (⟨some r, v.map fun v => (domain == 1, v)⟩, s)
  | .save pointer data polls =>
    match save build s pointer data polls with
    | .error d => (⟨none, none⟩, cold d)
    | .ok (r, s) => (⟨some r, none⟩, s)
  | .read data capacity length => let r := read s data capacity length; (⟨some r.1, none⟩, r.2.2)
  | .reset => (⟨none, none⟩, cold s.nv.device)

/-- The counters a run handed out, oldest first. -/
def taken (reports : List Report) : Issued := reports.filterMap Report.taken

variable {build}

theorem step_ledger (reports : List Report) (s : State) (op : Op)
    (h : Ledger build (taken reports) s) :
    Ledger build (taken (reports ++ [(step build s op).1])) (step build s op).2 := by
  have quiet : ∀ r : Option Result, taken (reports ++ [⟨r, none⟩]) = taken reports := fun r => by
    simp [taken]
  cases op with
  | counterOpen =>
    simp only [step, quiet]
    obtain ⟨-, he, -⟩ | ⟨-, ho⟩ := counterOpen_spec h
    · rw [he]
      exact h
    · exact ho.1
  | create nwk aps pointer data polls =>
    simp only [step, quiet]
    obtain ⟨-, he⟩ | ⟨-, hl, -⟩ := create_spec nwk aps pointer data polls h
    · rw [he]
      exact h
    · exact hl
  | restage pointer data =>
    simp only [step, quiet]
    obtain ⟨-, he⟩ | ⟨-, hl, -⟩ := restage_spec pointer data h
    · rw [he]
      exact h
    · exact hl
  | take domain value polls =>
    simp only [step]
    obtain ⟨d, he, hl, -⟩ | ⟨v, s', he, hl, -⟩ | ⟨r, s', he, hl, -⟩ | ⟨r, s', he, -, hl, -⟩ :=
      take_spec domain value polls h <;> rw [he]
    · simpa only [quiet] using hl
    · simpa [taken] using hl
    · simpa only [Option.map_none, quiet] using hl
    · simpa only [Option.map_none, quiet] using hl
  | save pointer data polls =>
    simp only [step]
    obtain ⟨d, he, hl, -⟩ | ⟨s', he, hl, -⟩ | ⟨r, s', he, hl, -⟩ | ⟨r, he, -⟩ :=
      save_spec pointer data polls h <;> rw [he] <;> simp only [quiet]
    · exact hl
    · exact hl
    · exact hl
    · exact h
  | read data capacity length =>
    simp only [step, quiet]
    obtain ⟨r, he, -⟩ | ⟨-, he, hl⟩ := read_spec data capacity length h <;> rw [he]
    · exact h
    · exact hl
  | reset =>
    simp only [step, quiet]
    exact ledger_cold h.increasing h.top h.disk

theorem run_ledger (d : NvRecord.Device) (ops : List Op) :
    Ledger build (taken (Runs.run (step build) (cold d) ops).1) (Runs.run (step build) (cold d) ops).2 := by
  have hcold : Ledger build (taken []) (cold d) := by
    refine ledger_cold List.Pairwise.nil (by simp [taken]) ⟨fun _ => rfl, fun _ _ p hp => ?_⟩
    simp [taken] at hp
  exact Runs.run_invariant (step build) (fun reports s => Ledger build (taken reports) s) (cold d) [] hcold
    step_ledger ops

/-- Over every run, the counters taken from one domain strictly increase and
never reach the exhausted ceiling; a ready owner with a committed record keeps
its cursors at or below the ceilings of the snapshot, and those are on the
journal. -/
theorem taken_increasing (build : Build) (d : NvRecord.Device) (ops : List Op) :
    let r := Runs.run (step build) (cold d) ops
    (∀ domain, ((taken r.1).filter (·.1 == domain)).Pairwise (·.2 < ·.2)) ∧
    (∀ p ∈ taken r.1, p.2 ≠ 0xFFFFFFFF) ∧
    (r.2.state = .ready → r.2.generation ≠ 0 → ∀ domain,
      r.2.next domain ≤ r.2.untils domain ∧ r.2.untils domain = ceiling r.2.blob domain ∧
      ∃ b, view build.recordMax r.2.nv.device = .clean b ∧
        ceiling r.2.blob domain ≤ ceiling (byteAt (record build.recordMax r.2.nv.device b)) domain) := by
  intro r
  have h : Ledger build (taken r.1) r.2 := run_ledger d ops
  refine ⟨fun domain => ?_, h.top, fun hs hg domain => ?_⟩
  · refine (h.increasing.filter _).imp_of_mem fun ha hb hlt => hlt ?_
    have hx := (List.mem_filter.1 ha).2
    have hy := (List.mem_filter.1 hb).2
    simp only [beq_iff_eq] at hx hy
    rw [hx, hy]
  · have hopen := (h.owner hs).1
    obtain ⟨b, hv, hr⟩ := hopen.committed hg
    refine ⟨hopen.cursor domain, hopen.limit domain, b, hv, ?_⟩
    rw [hr, ceiling_bytes _ _ (by omega)]
    exact UInt32.le_refl _

end SecurityCounter
