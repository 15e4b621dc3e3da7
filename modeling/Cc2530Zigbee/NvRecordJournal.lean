import Cc2530Zigbee.NvRecordRuns
import Cc2530Zigbee.Runs

/-!
# Runs of the journal

Calls, resets and lost supplies in any order, from two erased pages. No page
ever claims a foreign version, two valid pages are one generation apart, and
the selected generation moves by single steps until it is spent.
-/
namespace NvRecord

open Octets Flash

inductive Op where
  | load : Pointer → UInt8 → Op
  | replace : Pointer → Bytes → UInt16 → UInt8 → Op
  | reset : Op

/-- What a step shows; a call in which the supply is lost shows nothing. -/
inductive Report where
  | loaded : Result → Option Bytes → Report
  | replaced : Result → Report
  | dark : Report

variable (max : Nat)

/-- One call, or a start from the pages that survived. -/
def step (s : State) : Op → Report × State
  | .load output capacity =>
    let l := load max s output capacity
    (.loaded l.1 l.2.1, l.2.2)
  | .replace pointer data polls allow =>
    match replace max s pointer data polls allow with
    | .error d => (.dark, reset d)
    | .ok (r, s') => (.replaced r, s')
  | .reset => (.dark, reset s.device)

/-- The generation of the selected record, zero without one. -/
def generation (d : Device) : UInt32 := base max d (view max d)

/-- What holds of the two pages. -/
structure Ordered (d : Device) : Prop where
  supported : ∀ b, (scans max d b).state ≠ .unsupported
  adjacent : (∀ b, (scans max d b).state = .valid) →
    ∃ b, (scans max d !b).generation.toNat = (scans max d b).generation.toNat + 1

variable {max} {s : State} {d d' : Device}

theorem generation_holds {b : Bool} (h : Holds (view max d) b) : generation max d = (scans max d b).generation := by
  obtain h | h := h <;> simp [generation, h, base]

theorem toNat_succ {g : UInt32} (h : g ≠ 0xFFFFFFFF) : (g + 1).toNat = g.toNat + 1 := by
  have hlt := g.toNat_lt
  have hne : g.toNat ≠ 4294967295 := fun he => h (UInt32.toNat_inj.1 he)
  rw [UInt32.toNat_add]
  simp only [UInt32.reduceToNat]
  omega

/-- A page that was left alone, lacks its commit word, or carries the next record is never of a foreign version. -/
theorem Rewritten.supported {data : Bytes} {g : UInt32} {b : Bool} (h : Rewritten data g b d d')
    (hs : ∀ c, (scans max d c).state ≠ .unsupported) (c : Bool) : (scans max d' c).state ≠ .unsupported := by
  obtain rfl | rfl : c = b ∨ c = !b := by cases b <;> cases c <;> simp
  · obtain ht | ht | ht := h.target
    · rw [scans_congr ht]
      exact hs c
    · obtain he | he := @scanPage_uncommitted max false _ ht <;> simp [scans, he]
    · exact (@scanPage_written max _ _ _ ht false).2.2
  · rw [scans_congr h.other]
    exact hs _

/-- Rewriting one page keeps the pages in order. -/
theorem rewritten_ordered {data : Bytes} (hrep : Replaceable (view max d)) (hb : generation max d ≠ 0xFFFFFFFF)
    (h : Rewritten data (generation max d + 1) (target (view max d)) d d') (ho : Ordered max d) : Ordered max d' := by
  refine ⟨h.supported ho.supported, fun hv => ?_⟩
  have hoth : scans max d' (!target (view max d)) = scans max d (!target (view max d)) := scans_congr h.other
  obtain ht | ht | ht := h.target
  · -- Nothing was written, so both pages were valid before.
    have hsame : ∀ c, scans max d' c = scans max d c := fun c => by
      obtain rfl | rfl : c = target (view max d) ∨ c = !target (view max d) := by
        cases c <;> cases target (view max d) <;> simp
      · exact scans_congr ht
      · exact hoth
    simp only [hsame] at hv ⊢
    exact ho.adjacent hv
  · obtain he | he := @scanPage_uncommitted max false _ ht <;>
      exact absurd (hv (target (view max d))) (by simp [scans, he])
  · have hg := (@scanPage_written max _ _ _ ht false).1
    obtain hemp | ⟨b, hbv⟩ := hrep
    · rw [hemp] at hoth
      have h1 := hv true
      rw [show scans max d' true = scans max d true from hoth, (viewOf_empty.1 hemp).2] at h1
      cases h1
    · have htb : target (view max d) = !b := by obtain h | h := hbv <;> rw [h] <;> rfl
      rw [htb] at hg hoth
      refine ⟨b, ?_⟩
      rw [show scans max d' (!b) = scanPage max false (d'.page !b) from rfl, hg, toNat_succ hb,
        generation_holds hbv, show scans max d' b = scans max d b by simpa using hoth]

/-- A selection on the rewritten page is the next generation. -/
theorem rewritten_next {data : Bytes} (h : Rewritten data (generation max d + 1) (target (view max d)) d d')
    (hv : view max d' = .clean (target (view max d))) : generation max d' = generation max d + 1 := by
  have hval := viewOf_holds_valid (.inl hv : Holds (view max d') _)
  obtain ht | ht | ht := h.target
  · -- An untouched journal would still select what it did before.
    have hsame : view max d' = view max d := by
      unfold view
      congr 1
      funext c
      obtain rfl | rfl : c = target (view max d) ∨ c = !target (view max d) := by
        cases c <;> cases target (view max d) <;> simp
      · exact scans_congr ht
      · exact scans_congr h.other
    rw [hsame] at hv
    cases hd : view max d <;> rw [hd] at hv <;> simp [target] at hv
  · obtain he | he := @scanPage_uncommitted max false _ ht <;> exact absurd hval (by simp [scans, he])
  · rw [generation_holds (.inl hv : Holds (view max d') _)]
    exact (@scanPage_written max _ _ _ ht false).1

/-- The selection settles on the old generation or the next one. -/
theorem rewritten_generation {data : Bytes} (hrep : Replaceable (view max d)) (hb : generation max d ≠ 0xFFFFFFFF)
    (hlen : data.length ≤ max) (h255 : data.length < 256)
    (h : Rewritten data (generation max d + 1) (target (view max d)) d d') :
    generation max d' = generation max d ∨ generation max d' = generation max d + 1 := by
  obtain ⟨hheld, hempty⟩ := rewritten_settles hlen h255 hb h
  obtain hv | ⟨b, hv⟩ := hrep
  · have h0 : generation max d = 0 := by simp [generation, hv, base]
    obtain hv' | hv' | ⟨hv', -⟩ := hempty hv
    · exact .inl (by rw [h0]; simp [generation, hv', base])
    · exact .inl (by rw [h0]; simp [generation, hv', base])
    · exact .inr (rewritten_next h (by rw [hv', hv]; rfl))
  · obtain ⟨hp, hv' | ⟨hv', -⟩⟩ := hheld b hv
    · exact .inl (by rw [generation_holds hv', generation_holds hv, scans_congr hp])
    · refine .inr (rewritten_next h ?_)
      rw [hv']
      obtain hv | hv := hv <;> rw [hv] <;> rfl

/-- With the pages in order, a selection never meets a conflict or a foreign version. -/
theorem Ordered.selects (h : Ordered max d) (st : Status) :
    (selectRecord max d st).1 ≠ .conflict ∧ (selectRecord max d st).1 ≠ .unsupported := by
  rw [selectRecord_view]
  by_cases hv : ∀ b, (scans max d b).state = .valid
  · obtain ⟨b, hg⟩ := h.adjacent hv
    have hlt := (scans max d !b).generation.toNat_lt
    have hm : (scans max d b).generation ≠ 0xFFFFFFFF := fun he => by
      rw [he] at hg
      simp only [UInt32.reduceToNat] at hg
      omega
    have hview : view max d = .clean (!b) := viewOf_newer (hv b) (hv _)
      (UInt32.toNat_inj.1 (hg.trans (toNat_succ hm).symm)) hm
    rw [hview]
    simp [viewStatus]
  · obtain ⟨b, hb⟩ := not_forall.1 hv
    by_cases hn : (scans max d !b).state = .valid
    · have hheld : Holds (view max d) (!b) := viewOf_invalid hn (by simpa using hb) (by simpa using h.supported b)
      obtain hview | hview := hheld <;> rw [hview] <;> simp [viewStatus]
    · have hnone : ∀ c, (scans max d c).state ≠ .valid := fun c => by
        obtain rfl | rfl : c = b ∨ c = !b := by cases b <;> cases c <;> simp
        · exact hb
        · exact hn
      obtain hview | hview := viewOf_none hnone h.supported <;>
        rw [show view max d = _ from hview] <;> simp [viewStatus]

/-- What holds in every state of a run. -/
structure Kept (max : Nat) (s : State) : Prop where
  sound : Sound max s
  ordered : Ordered max s.device

theorem replace_kept (pointer : Pointer) (data : Bytes) (polls : UInt16) (allow : UInt8) (hmax : max ≤ 255)
    (h : Kept max s) :
    Ordered max (survivor (replace max s pointer data polls allow)) ∧
    (generation max (survivor (replace max s pointer data polls allow)) = generation max s.device ∨
      generation max s.device ≠ 0xFFFFFFFF ∧
      generation max (survivor (replace max s pointer data polls allow)) = generation max s.device + 1) := by
  obtain ⟨q, hq, -⟩ | ⟨hf, hc⟩ := h.sound
  · rw [show replace max s pointer data polls allow = .ok (q, s) by simp only [replace, hq]]
    exact ⟨h.ordered, .inl rfl⟩
  · obtain ⟨r, t, ht, hd, -⟩ | ⟨hrep, hb, -, hlen, hrw, -⟩ :=
      replace_cases s pointer data polls allow (by omega) hf hc
    · rw [ht, show survivor (.ok (r, t)) = s.device from hd]
      exact ⟨h.ordered, .inl rfl⟩
    · refine ⟨rewritten_ordered hrep hb hrw h.ordered, ?_⟩
      obtain hg | hg := rewritten_generation hrep hb hlen (by omega) hrw
      · exact .inl hg
      · exact .inr ⟨hb, hg⟩

theorem load_device_sound (output : Pointer) (capacity : UInt8) (h : Sound max s) :
    (load max s output capacity).2.2.device = s.device := by
  obtain ⟨q, hq, -⟩ | ⟨hf, hc⟩ := h
  · simp [load, hq]
  · by_cases ha : output = .accepted ∧ capacity ≠ 0
    · obtain ⟨rfl, h0⟩ := ha
      exact (load_loads s capacity hf hc h0).device
    · obtain hl | hl := load_refused s output capacity hf ha <;> rw [hl]

/-- One step keeps the pages in order and moves the selected generation by at most one. -/
theorem step_kept (hmax : max ≤ 255) (h : Kept max s) (op : Op) :
    Kept max (step max s op).2 ∧
    (generation max (step max s op).2.device = generation max s.device ∨
      generation max s.device ≠ 0xFFFFFFFF ∧
      generation max (step max s op).2.device = generation max s.device + 1) := by
  cases op with
  | load output capacity =>
    have hd := load_device_sound output capacity h.sound
    simp only [step]
    refine ⟨⟨load_sound s output capacity h.sound, ?_⟩, .inl (by rw [hd])⟩
    rw [hd]
    exact h.ordered
  | replace pointer data polls allow =>
    obtain ⟨ho, hg⟩ := replace_kept pointer data polls allow hmax h
    simp only [step]
    cases hr : replace max s pointer data polls allow with
    | error d =>
      rw [hr] at ho hg
      exact ⟨⟨.inr ⟨rfl, coherent_reset d⟩, ho⟩, hg⟩
    | ok o =>
      rw [hr] at ho hg
      exact ⟨⟨replace_sound s pointer data polls allow (by omega) h.sound _ _ hr, ho⟩, hg⟩
  | reset => exact ⟨⟨.inr ⟨rfl, coherent_reset s.device⟩, h.ordered⟩, .inl rfl⟩

/-- A replacement that reports success selects the next generation. -/
theorem replace_grows (pointer : Pointer) (data : Bytes) (polls : UInt16) (allow : UInt8) (hmax : max ≤ 255)
    (h : Sound max s) (r : Result) (s' : State) (hr : replace max s pointer data polls allow = .ok (r, s'))
    (hok : r = .ok ∨ r = .recovered) :
    (∃ b, Holds (view max s'.device) b) ∧
    (generation max s'.device).toNat = (generation max s.device).toNat + 1 := by
  obtain ⟨q, hq, hf⟩ | ⟨hf, hc⟩ := h
  · simp only [replace, hq, Except.ok.injEq, Prod.mk.injEq] at hr
    obtain rfl | rfl := hf <;> simp [← hr.1] at hok
  · obtain ⟨q, t, ht, -, -, -, hn1, hn2⟩ | ⟨hrep, hb, -, hlen, hrw, hres⟩ :=
      replace_cases s pointer data polls allow (by omega) hf hc
    · rw [hr] at ht
      cases ht
      exact absurd hok (by simp [hn1, hn2])
    · obtain ⟨-, -, hcom, -⟩ | ⟨-, hfail⟩ := hres _ _ hr
      · have hview := committed_view hrep hb hcom
        rw [hr, show survivor (.ok (r, s')) = s'.device from rfl] at hrw
        refine ⟨⟨_, .inl hview⟩, ?_⟩
        rw [rewritten_next hrw hview]
        exact toNat_succ hb
      · obtain rfl | rfl := hfail <;> simp at hok

/-- With its generations spent, the journal takes no further record. -/
theorem replace_exhausted (pointer : Pointer) (data : Bytes) (polls : UInt16) (allow : UInt8) (hmax : max ≤ 255)
    (h : Sound max s) (hg : generation max s.device = 0xFFFFFFFF) :
    ∃ r s', replace max s pointer data polls allow = .ok (r, s') ∧ s'.device = s.device ∧
      (s.fault = none → pointer = .accepted → 0 < data.length → data.length ≤ max → polls ≠ 0 → allow ≤ 1 →
        ((∃ b, view max s.device = .degraded b) → allow ≠ 0) → r = .generationExhausted) := by
  obtain ⟨q, hq, -⟩ | ⟨hf, hc⟩ := h
  · exact ⟨q, s, by simp only [replace, hq], rfl, fun hn => by simp [hq] at hn⟩
  · obtain ⟨r, t, ht, hd, -⟩ | ⟨-, hb, -⟩ := replace_cases s pointer data polls allow (by omega) hf hc
    · refine ⟨r, t, ht, hd, ?_⟩
      rintro - rfl hpos hlen hp hallow hdeg
      have hsel := resume_selects s hc
      have hargs : ¬ (Pointer.accepted = .null ∨ data.length = 0 ∨ max < data.length ∨ polls = 0 ∨ 1 < allow) := by
        rintro (h | h | h | h | h)
        · cases h
        · omega
        · omega
        · exact hp h
        · exact absurd h (UInt8.not_lt.2 hallow)
      simp only [replace, hf] at ht
      rw [if_neg hargs, if_neg (by simp)] at ht
      generalize (if (resume s.status).1 then (Result.ok, (resume s.status).2)
        else selectRecord max s.device (resume s.status).2) = sel at hsel ht
      unfold replaceSelected at ht
      cases hv : view max s.device with
      | empty => simp [generation, hv, base] at hg
      | refused q => simp [generation, hv, base] at hg
      | clean b =>
        rw [hv] at hsel
        obtain ⟨hr, hn, -⟩ := hsel
        have hgen : sel.2.generation = 0xFFFFFFFF := by
          rw [hn.2.1, ← generation_holds (.inl hv), hg]
        simp only [hr, reduceCtorEq, false_and, if_false, ne_eq, not_true_eq_false, hgen, if_true] at ht
        cases ht
        rfl
      | degraded b =>
        rw [hv] at hsel
        obtain ⟨hr, hn, -⟩ := hsel
        have hgen : sel.2.generation = 0xFFFFFFFF := by
          rw [hn.2.1, ← generation_holds (.inr hv), hg]
        have ha : allow ≠ 0 := hdeg ⟨b, hv⟩
        simp only [hr, ha, and_false, if_false, ne_eq, not_true_eq_false, false_and, hgen, if_true] at ht
        cases ht
        rfl
    · exact absurd hg hb

/-- What a reader of the journal relies on, now and after the next call. -/
structure Orderly (max : Nat) (s : State) : Prop where
  selects : ∀ st, (selectRecord max s.device st).1 ≠ .conflict ∧ (selectRecord max s.device st).1 ≠ .unsupported
  adjacent : (∀ b, (scans max s.device b).state = .valid) →
    ∃ b, (scans max s.device !b).generation.toNat = (scans max s.device b).generation.toNat + 1
  moves : ∀ op, (generation max (step max s op).2.device).toNat = (generation max s.device).toNat ∨
    (generation max (step max s op).2.device).toNat = (generation max s.device).toNat + 1
  grows : ∀ pointer data polls allow r s', replace max s pointer data polls allow = .ok (r, s') →
    r = .ok ∨ r = .recovered → (∃ b, Holds (view max s'.device) b) ∧
      (generation max s'.device).toNat = (generation max s.device).toNat + 1
  exhausted : generation max s.device = 0xFFFFFFFF → ∀ pointer data polls allow,
    ∃ r s', replace max s pointer data polls allow = .ok (r, s') ∧ s'.device = s.device ∧
      (s.fault = none → pointer = .accepted → 0 < data.length → data.length ≤ max → polls ≠ 0 → allow ≤ 1 →
        ((∃ b, view max s.device = .degraded b) → allow ≠ 0) → r = .generationExhausted)

theorem Kept.orderly (hmax : max ≤ 255) (h : Kept max s) : Orderly max s where
  selects := h.ordered.selects
  adjacent := h.ordered.adjacent
  moves := fun op => by
    obtain hg | ⟨hb, hg⟩ := (step_kept hmax h op).2
    · exact .inl (by rw [hg])
    · exact .inr (by rw [hg, toNat_succ hb])
  grows := fun pointer data polls allow => replace_grows pointer data polls allow hmax h.sound
  exhausted := fun hg pointer data polls allow => replace_exhausted pointer data polls allow hmax h.sound hg

/-- Two erased pages under any supply. -/
def erased (schedule : List (Outcome Uncommitted)) : Device := ⟨fun _ => blank, schedule⟩

theorem kept_erased (schedule : List (Outcome Uncommitted)) : Kept max (reset (erased schedule)) := by
  have hscan : ∀ b, (scans max (erased schedule) b).state = .empty := fun b => scanPage_blank false
  refine ⟨.inr ⟨rfl, coherent_reset _⟩, fun b => ?_, fun hv => ?_⟩
  · exact fun h => by simp [reset, hscan b] at h
  · simp [reset, hscan] at hv

/-- From two erased pages, whatever is called and wherever the supply is lost:
no selection meets a conflict or a foreign version, two valid pages are one
generation apart, a successful replacement counts one generation up, and the
last generation is never left. -/
theorem journal_orderly (build : Build) (schedule : List (Outcome Uncommitted)) (ops : List Op) :
    Runs.Throughout (step build.recordMax) (Orderly build.recordMax) (reset (erased schedule)) ops := by
  have hmax : build.recordMax ≤ 255 := le_trans build.recordMax_le (by omega)
  exact Runs.throughout_of_invariant (step build.recordMax) (fun _ _ => True) (Orderly build.recordMax)
    (Kept build.recordMax) (fun s op h _ => (step_kept hmax h op).1) (fun s h => h.orderly hmax)
    (reset (erased schedule)) (kept_erased schedule) ops (Runs.meets_true (step build.recordMax) _ ops)

end NvRecord
