import Cc2530Zigbee.SecurityKeysPlans
import Cc2530Zigbee.SecurityCounterLedger

/-!
# Key custody and its journal

The saved record, the live record the caches make of it, and what one call can
do to both: it ends with the record it aimed at, with the old one, or in a
failure or a start where the journal holds the old record, the new one or none.
-/
namespace SecurityKeys

open Octets
open SecurityCounter (Ledger Issued kept held)
open NvRecord (Device)

variable {build : Build} {issued : Issued}

/-- The counter owner's payload, or the payload a start would find. -/
def memory (build : Build) (c : SecurityCounter.State) : Option Bytes :=
  if c.state = .ready then some (held c) else kept build.recordMax c.nv.device

/-- The saved record of a ready owner. -/
def stored (s : State) : Record := Record.decode (held s.counter)

/-- The live record: the saved one under the caches. -/
def look (build : Build) (s : State) : Record := overlay build s (stored s)

/-- The counters a list of encryptions used, each with its domain. -/
def stamps (log : List Sealing) : Issued := log.map fun x => (domain x.layer, x.key.counter)

/-- A record is in use, and the caches agree with it. -/
structure InUse (build : Build) (s : State) : Prop where
  ready : s.counter.state = .ready
  phase : (stored s).phase = s.phase
  floors : ∀ i, (stored s).nf i ≤ s.floorCache i
  routerFloors : build.replayPolicyC = true → (stored s).routerRecord build = true →
    ∀ i, (stored s).router.nf i ≤ s.routerFloorCache i
  nibble : s.phaseCache = .zero ∨ s.phaseCache.phase = s.phase
  staged : s.counter.generation = 0 → s.phase.code ≤ 3 ∧ (∀ i, s.routerFloorCache i = 0) ∧
    (s.phase = .provisioned → s.phaseCache = .zero ∧ (stored s).version = 2)

structure Keys (build : Build) (issued : Issued) (s : State) : Prop where
  ledger : Ledger build issued s.counter
  cold : s.phase = .cold → s.counter.state = .cold ∧ s.retained = false
  blank : s.phase.code ≤ 1 → (∀ i, s.floorCache i = 0) ∧ (∀ i, s.routerFloorCache i = 0) ∧ s.phaseCache = .zero
  retained : s.phase = .unprovisioned → s.retained = true → s.counter.state = .ready
  latched : s.phase = .failed → s.result ≠ .ok
  used : s.phase.used → InUse build s

/-- In a phase with a record behind it the record decides. -/
theorem keys_used {s : State} (hl : Ledger build issued s.counter) (hu : s.phase.used) (hi : InUse build s) :
    Keys build issued s where
  ledger := hl
  cold := fun h => by simp [h, Phase.used, Phase.code] at hu
  blank := fun h => absurd hu.1 (by omega)
  retained := fun h => by simp [h, Phase.used, Phase.code] at hu
  latched := fun h => absurd h hu.2
  used := fun _ => hi

/-! Images. -/

theorem decode_image {r : Record} (h : Shaped build r) : Record.decode (r.image build) = r := by
  unfold Record.image
  split
  · exact r.decode_encode
  · rename_i hr
    rw [Record.decode_encodeBase]
    have hz : r.router = .zero := h.resolve_left hr
    rw [← hz]

theorem image_length (r : Record) : (r.image build).length = r.size build := by
  unfold Record.image Record.size
  split
  · exact r.encode_length
  · exact r.encodeBase_length

theorem valid_shaped {data : Bytes} (h : (Record.decode data).Valid build data.length) :
    Shaped build (Record.decode data) := by
  obtain ⟨hl, -⟩ | ⟨hb, -, hv, -⟩ := h.shape
  · exact .inr (Router.decode_short data hl.le)
  · exact .inl (by simp [Record.routerRecord, hb, hv])

theorem overlay_shaped {s : State} {r : Record} (h : Shaped build r) : Shaped build (overlay build s r) := by
  obtain h | h := h
  · exact .inl h
  · cases hr : r.routerRecord build with
    | true => exact .inl hr
    | false => exact .inr (by simp [overlay, hr, h])

theorem overlay_phase {s : State} {r : Record} (h : s.phaseCache = .zero ∨ s.phaseCache.phase = r.phase) :
    (overlay build s r).phase = r.phase := by
  by_cases hz : s.phaseCache = .zero
  · simp [overlay, Record.phase, hz]
  · simp only [overlay, Record.phase, if_neg hz]
    exact h.resolve_left hz

theorem InUse.look_phase {s : State} (h : InUse build s) : (look build s).phase = s.phase := by
  rw [look, overlay_phase (h.phase.symm ▸ h.nibble), h.phase]

/-! Loading. -/

theorem read_ready {s : State} (h : Ledger build issued s.counter) (hr : s.counter.state = .ready) :
    readRecord build s = (some (held s.counter), { s with counter := { s.counter with result := .ok } }) ∧
      Ledger build issued { s.counter with result := .ok } := by
  have hfits := (h.owner hr).1.fits
  have hok := (SecurityCounter.ready_ok h).2 hr
  have hmax := SecurityCounter.payloadMax_eq build
  have hle := build.recordMax_le
  have hcap : ¬ UInt8.ofNat build.payloadMax < s.counter.payloadLength := by
    rw [UInt8.lt_iff_toNat_lt, UInt8.toNat_ofNat_of_lt' (show build.payloadMax < 2 ^ 8 by omega)]
    omega
  obtain ⟨r, he, hne⟩ | ⟨-, he, hl⟩ := SecurityCounter.read_spec .accepted (UInt8.ofNat build.payloadMax)
    .accepted h
  · exfalso
    simp only [SecurityCounter.read, hok, ne_eq, not_true_eq_false, if_false, reduceCtorEq, false_and, or_self,
      and_false, if_neg hcap] at he
    exact absurd (congrArg (fun x => x.2.1) he) (by simp)
  · refine ⟨?_, hl⟩
    simp only [readRecord, he, if_true]

/-- What `load` leaves: the counter owner's last result and nothing else. -/
def touched (s : State) : State := { s with counter := { s.counter with result := .ok } }

theorem touched_keys {s : State} (h : Keys build issued s) (hr : s.counter.state = .ready) :
    Keys build issued (touched s) where
  ledger := (read_ready h.ledger hr).2
  cold := h.cold
  blank := h.blank
  retained := h.retained
  latched := h.latched
  used := fun hu =>
    have hi := h.used hu
    ⟨hr, hi.phase, hi.floors, hi.routerFloors, hi.nibble, hi.staged⟩

/-- `load`: refused without a record in use, the live record of a valid one, or a latched format fault. -/
theorem load_cases {s : State} (h : Keys build issued s) :
    (¬ s.phase.used ∧ ∃ e, load build s = (.error e, s)) ∨
    (s.phase.used ∧ (stored s).Valid build (held s.counter).length ∧
      load build s = (.ok ((held s.counter).length, look build s), touched s)) ∨
    (s.phase.used ∧ ¬ (stored s).Valid build (held s.counter).length ∧
      load build s = (.error .format, fault (touched s) .format)) := by
  by_cases hu : s.phase.used
  · have hi := h.used hu
    have hload : load build s = if ¬ (stored s).Valid build (held s.counter).length ∨ (stored s).phase ≠ s.phase
        then (.error .format, fault (touched s) .format)
        else (.ok ((held s.counter).length, look build s), touched s) := by
      have hlow : ¬ s.phase.code < 2 := not_lt.2 hu.1
      rw [load, if_neg hu.2, if_neg hlow, (read_ready h.ledger hi.ready).1]
      rfl
    by_cases hv : (stored s).Valid build (held s.counter).length
    · refine .inr (.inl ⟨hu, hv, ?_⟩)
      rw [hload, if_neg (by simp [hv, hi.phase])]
    · refine .inr (.inr ⟨hu, hv, ?_⟩)
      rw [hload, if_pos (.inl hv)]
  · refine .inl ⟨hu, ?_⟩
    unfold load
    split
    · exact ⟨_, rfl⟩
    · rename_i hf
      have hlow : s.phase.code < 2 := by
        by_contra hn
        exact hu ⟨not_lt.1 hn, hf⟩
      rw [if_pos hlow]
      exact ⟨_, rfl⟩

/-! Saving. -/

/-- Where a call that did not finish can leave the saved record: the old one, the new one or none. -/
def Leads (build : Build) (s : State) (target : Option Record) (m : Option Bytes) : Prop :=
  m = none ∨ m = memory build s.counter ∨ ∃ r, target = some r ∧ m = some (r.image build)

theorem memory_ready {c : SecurityCounter.State} (h : c.state = .ready) : memory build c = some (held c) := if_pos h

theorem memory_unready {c : SecurityCounter.State} (h : c.state ≠ .ready) :
    memory build c = kept build.recordMax c.nv.device := if_neg h

/-- The pages a counter call leaves, seen from the record in use. -/
theorem leaves_leads {s : State} {r : Option Record} {d : Device} {data : Bytes}
    (h : Ledger build issued s.counter) (hr : s.counter.state = .ready)
    (hd : data = held s.counter ∨ ∃ r', r = some r' ∧ data = r'.image build)
    (hl : SecurityCounter.Leaves build s.counter.nv.device d data) :
    Leads build s r (kept build.recordMax d) := by
  obtain hl | hl | hl := hl
  · exact .inl hl
  · rw [SecurityCounter.open_kept (h.owner hr).1] at hl
    split at hl
    · exact .inl hl
    · exact .inr (.inl (hl.trans (memory_ready hr).symm))
  · obtain rfl | ⟨r', hr', rfl⟩ := hd
    · exact .inr (.inl (hl.trans (memory_ready hr).symm))
    · exact .inr (.inr ⟨r', hr', hl⟩)

/-- A save puts the record in place, latches a storage failure, or loses the supply. -/
theorem save_cases {s : State} (r : Record) (polls : UInt16) (h : Ledger build issued s.counter)
    (hr : s.counter.state = .ready) :
    (∃ d, save build s r polls = .error d ∧ Ledger build issued (SecurityCounter.cold d) ∧
      Leads build s (some r) (kept build.recordMax d)) ∨
    (∃ c, save build s r polls = .ok (false, fault { s with counter := c } .storage) ∧ Ledger build issued c ∧
      Leads build s (some r) (memory build c)) ∨
    (∃ c, save build s r polls = .ok (true, keepVolatile build { s with counter := c, phase := r.phase } r) ∧
      Ledger build issued c ∧ c.state = .ready ∧ held c = r.image build ∧ c.generation ≠ 0) := by
  unfold save
  obtain ⟨d, hc, hl, hk⟩ | ⟨c, hc, hl, -, hst, hh, hg, -⟩ | ⟨e, c, hc, hl, hf, hk⟩ | ⟨e, hc, hne⟩ :=
    SecurityCounter.save_spec .accepted (r.image build) polls h <;> rw [hc]
  · exact .inl ⟨d, rfl, hl, leaves_leads h hr (.inr ⟨r, rfl, rfl⟩) hk⟩
  · exact .inr (.inr ⟨c, rfl, hl, hst, hh, hg⟩)
  · simp only
    rw [if_pos hf.failure.1]
    refine .inr (.inl ⟨c, rfl, hl, ?_⟩)
    have hfs : c.state = .failed := hf.state
    rw [memory_unready (by simp [hfs])]
    exact leaves_leads h hr (.inr ⟨r, rfl, rfl⟩) hk
  · simp only
    rw [if_pos hne]
    exact .inr (.inl ⟨s.counter, rfl, h, .inr (.inl rfl)⟩)

theorem fault_keys {s : State} {e : Result} (he : e ≠ .ok) (h : Ledger build issued s.counter) :
    Keys build issued (fault s e) where
  ledger := h
  cold := by simp [fault]
  blank := by simp [fault, Phase.code]
  retained := by simp [fault]
  latched := fun _ => he
  used := fun hu => absurd rfl hu.2

/-- With the caches taken from the committed record, that record is in force. -/
theorem saved_keys {s : State} {c : SecurityCounter.State} {r : Record} (hu : r.phase.used)
    (hl : Ledger build issued c) (hr : c.state = .ready) (hh : Record.decode (held c) = r)
    (hg : c.generation ≠ 0) :
    Keys build issued (keepVolatile build { s with counter := c, phase := r.phase } r) ∧
    look build (keepVolatile build { s with counter := c, phase := r.phase } r) = r := by
  have hstored : stored (keepVolatile build { s with counter := c, phase := r.phase } r) = r := hh
  refine ⟨keys_used hl hu ⟨hr, ?_, fun i => ?_, fun hp hrec i => ?_, .inr rfl, fun hz => absurd hz hg⟩, ?_⟩
  · rw [hstored]
    rfl
  · rw [hstored]
    exact UInt32.le_refl _
  · rw [hstored] at hrec ⊢
    simp only [keepVolatile, hp, hrec, Bool.and_self, if_true]
    exact UInt32.le_refl _
  · rw [look, hstored]
    simp only [overlay, keepVolatile, ite_self]
    split <;> rfl

/-- A record kept in the caches only is the live one. -/
theorem kept_keys {s : State} {r : Record} (h : Keys build issued s) (hu : s.phase.used)
    (hstage : s.counter.generation = 0 → (look build s).network = false)
    (hc : Cacheable build (look build s) r) :
    Keys build issued (keepVolatile build s r) ∧ look build (keepVolatile build s r) = r := by
  have hi := h.used hu
  have hv := hc.volatile
  have hphase : r.phase = s.phase := hv.phase.trans hi.look_phase
  have hrecord : r.routerRecord build = (stored s).routerRecord build := by
    rw [hv.rest]
    rfl
  refine ⟨keys_used h.ledger hu ⟨hi.ready, hi.phase, fun i => ?_, fun hp hrec i => ?_, .inr hphase, fun hz => ?_⟩,
    ?_⟩
  · exact UInt32.le_trans (hi.floors i) (hv.floors i)
  · have hrec : (stored s).routerRecord build = true := hrec
    have hf := hv.routerFloors i
    simp only [look, overlay, hp, hrec, Bool.and_self, if_true] at hf
    simp only [keepVolatile, hp, hrecord, hrec, Bool.and_self, if_true]
    exact UInt32.le_trans (hi.routerFloors hp hrec i) hf
  · obtain ⟨h3, hz0, hprov⟩ := hi.staged hz
    obtain ⟨hsame, hne⟩ := hc.keyless (hstage hz)
    refine ⟨h3, fun i => ?_, fun hp => absurd (hi.look_phase.trans hp) hne⟩
    simp only [keepVolatile]
    split
    · rename_i hb
      rw [hsame] at hb ⊢
      have hb' : (build.replayPolicyC && (stored s).routerRecord build) = true := hb
      simp only [look, overlay, hb', if_true]
      exact hz0 i
    · exact hz0 i
  · have hne : r.phaseByte ≠ .zero := fun hz => by
      have hcode : r.phase.code = 0 := by
        rw [Record.phase, hz]
        rfl
      rw [hphase] at hcode
      have := hu.1
      omega
    have hstored : stored (keepVolatile build s r) = stored s := rfl
    rw [look, hstored]
    simp only [overlay, keepVolatile, if_neg hne, hrecord]
    conv_rhs => rw [hv.rest]
    split
    · rename_i hb
      simp only [look, overlay, hb, if_true]
    · rename_i hb
      have hb : (build.replayPolicyC && (stored s).routerRecord build) = false := by simpa using hb
      have hrouter := hv.cached hb
      simp only [look, overlay, hb, Bool.false_eq_true, if_false] at hrouter ⊢
      rw [hrouter]

/-- A staged record is the live one; nothing is committed yet and the caches are still blank. -/
theorem staged_keys {s : State} {c : SecurityCounter.State} {r : Record} {image : Bytes} {phase : Phase}
    (h : Keys build issued s) (hu : s.phase.used) (hz : s.counter.generation = 0)
    (hf : Plan.Fits build ⟨s.phase, (held s.counter).length, look build s⟩ (.stage r image phase))
    (hl : Ledger build issued c) (hr : c.state = .ready) (hh : held c = image) :
    Keys build issued { s with counter := c, phase := phase } ∧
    look build { s with counter := c, phase := phase } = r ∧ image = r.image build := by
  have hi := h.used hu
  obtain ⟨-, hz0, hprov⟩ := hi.staged hz
  obtain _ | _ | ⟨_, _, _, hs, hphase, h3, himage, hwhen, hnp, hlow, hnf⟩ := hf
  simp only at himage hwhen hnf
  have hnr : (look build s).routerRecord build = false := by
    obtain hp | ⟨hn, -⟩ := hwhen
    · have hv : (look build s).version = 2 := (hprov (hi.look_phase.symm.trans hp)).2
      simp [Record.routerRecord, hv]
    · exact hn
  obtain ⟨rfl, hrz⟩ := himage hnr
  have hstored : stored { s with counter := c, phase := phase } = r := by
    change Record.decode (held c) = r
    rw [hh, decode_image hs]
  -- A phase octet in the cache is the one the record already has.
  have hcache : s.phaseCache = .zero ∨ s.phaseCache = r.phaseByte := by
    obtain hp | ⟨-, hb⟩ := hwhen
    · exact .inl (hprov (hi.look_phase.symm.trans hp)).1
    · by_cases hc : s.phaseCache = .zero
      · exact .inl hc
      · refine .inr ?_
        rw [hb]
        simp only [look, overlay, if_neg hc]
  refine ⟨keys_used hl (hphase ▸ hlow) ⟨hr, ?_, fun i => ?_, fun _ _ i => ?_, ?_,
    fun _ => ⟨h3, hz0, fun hp => absurd (hphase.trans hp) hnp⟩⟩, ?_, rfl⟩
  · rw [hstored]
    exact hphase
  · rw [hstored, hnf]
    exact UInt32.le_refl _
  · rw [hstored, hrz i]
    exact UInt32.zero_le
  · obtain hc | hc := hcache
    · exact .inl hc
    · refine .inr ?_
      change s.phaseCache.phase = phase
      rw [hc]
      exact hphase
  · rw [look, hstored]
    have hrouter : s.routerFloorCache = r.router.nf := by
      funext i
      rw [hz0 i, hrz i]
    have hfl : s.floorCache = r.nf := hnf.symm
    simp only [overlay, hrouter, hfl, ite_self]
    obtain hc | hc := hcache <;> simp [hc]

/-! Taking counters. -/

/-- A call of the counter owner that left the record alone. -/
structure Carries (s s' : State) : Prop where
  rest : s' = { s with counter := s'.counter }
  ready : s'.counter.state = .ready
  held : SecurityCounter.held s'.counter = SecurityCounter.held s.counter
  staged : s'.counter.generation = 0 → s.counter.generation = 0

theorem Carries.refl {s : State} (h : s.counter.state = .ready) : Carries s s := ⟨rfl, h, rfl, id⟩

theorem Carries.trans {s s' s'' : State} (h : Carries s s') (h' : Carries s' s'') : Carries s s'' :=
  ⟨by rw [h'.rest, h.rest], h'.ready, h'.held.trans h.held, fun hz => h.staged (h'.staged hz)⟩

theorem Carries.stored {s s' : State} (h : Carries s s') : stored s' = stored s := by
  rw [SecurityKeys.stored, h.held]
  rfl

theorem Carries.look {s s' : State} (h : Carries s s') : look build s' = look build s := by
  rw [SecurityKeys.look, h.stored, h.rest]
  rfl

theorem Carries.memory {s s' : State} (h : Carries s s') (hr : s.counter.state = .ready) :
    memory build s'.counter = memory build s.counter := by
  rw [memory_ready h.ready, memory_ready hr, h.held]

theorem Carries.keys {s s' : State} (hc : Carries s s') (h : Keys build issued s) (hu : s.phase.used)
    {issued' : Issued} (hl : Ledger build issued' s'.counter) : Keys build issued' s' := by
  have hi := h.used hu
  have hst := hc.stored
  have hphase : s'.phase = s.phase := by rw [hc.rest]
  have hfloor : s'.floorCache = s.floorCache := by rw [hc.rest]
  have hrouter : s'.routerFloorCache = s.routerFloorCache := by rw [hc.rest]
  have hcache : s'.phaseCache = s.phaseCache := by rw [hc.rest]
  refine keys_used hl (hphase ▸ hu) ⟨hc.ready, ?_, ?_, ?_, ?_, fun hz => ?_⟩
  · rw [hst, hphase]
    exact hi.phase
  · rw [hst, hfloor]
    exact hi.floors
  · rw [hst, hrouter]
    exact hi.routerFloors
  · rw [hcache, hphase]
    exact hi.nibble
  · rw [hphase, hrouter, hcache, hst]
    exact hi.staged (hc.staged hz)

/-- A counter, an exhausted domain, a latched storage failure or a lost supply. -/
theorem take_cases {s : State} (dom : Bool) (polls : UInt16) (h : Ledger build issued s.counter)
    (hr : s.counter.state = .ready) :
    (∃ d, take build s dom polls = .error d ∧ Ledger build issued (SecurityCounter.cold d) ∧
      Leads build s none (kept build.recordMax d)) ∨
    (∃ v s', take build s dom polls = .ok (.ok v, s') ∧ Ledger build (issued ++ [(dom, v)]) s'.counter ∧
      Carries s s') ∨
    (∃ s', take build s dom polls = .ok (.error .exhausted, s') ∧ Ledger build issued s'.counter ∧
      Carries s s') ∨
    (∃ c, take build s dom polls = .ok (.error .storage, fault { s with counter := c } .storage) ∧
      Ledger build issued c ∧ Leads build s none (memory build c)) := by
  have hdom : ((if dom then 1 else 0 : UInt8) == 1) = dom := by cases dom <;> rfl
  unfold take
  obtain ⟨d, hc, hl, hk⟩ | ⟨v, c, hc, hl, -, hst, hh, hg⟩ | ⟨e, c, hc, hl, hf, hk⟩ | ⟨e, c, hc, hne, hl, hs⟩ :=
    SecurityCounter.take_spec (if dom then 1 else 0) .accepted polls h <;> rw [hc]
  · exact .inl ⟨d, rfl, hl, leaves_leads h hr (.inl rfl) hk⟩
  · rw [hdom] at hl
    exact .inr (.inl ⟨v, _, rfl, hl, rfl, hst, hh, fun hz => absurd hz hg⟩)
  · have hfs : c.state = .failed := hf.state
    have hne : e ≠ .ok ∧ e ≠ .exhausted := hf.failure
    refine .inr (.inr (.inr ⟨c, ?_, hl, ?_⟩))
    · cases e <;> simp_all
    · rw [memory_unready (by simp [hfs])]
      exact leaves_leads h hr (.inl rfl) hk
  · obtain rfl | ⟨rfl, rfl⟩ := hs
    · by_cases hx : e = .exhausted
      · subst hx
        exact .inr (.inr (.inl ⟨s, rfl, h, .refl hr⟩))
      · refine .inr (.inr (.inr ⟨s.counter, ?_, h, .inr (.inl rfl)⟩))
        cases e <;> simp_all
    · exact .inr (.inr (.inl ⟨_, rfl, hl, rfl, hr, rfl, id⟩))

theorem Leads.carried {s s' : State} {r : Option Record} {m : Option Bytes} (h : Leads build s' r m)
    (hc : Carries s s') (hr : s.counter.state = .ready) : Leads build s r m := by
  rw [Leads, hc.memory hr] at h
  exact h

theorem stamps_append (a b : List Sealing) : stamps (a ++ b) = stamps a ++ stamps b := by simp [stamps]

section Sealing

variable {s : State} {call : Call}

/-- One encryption: at most one counter is taken, and the log has it. -/
theorem protect_cases (layer : EdWire.Layer) (k : EdWire.Key) (frame : Bytes)
    (h : Ledger build issued s.counter) (hr : s.counter.state = .ready) :
    (∃ d, protect build call s layer k frame = .error d ∧ Ledger build issued (SecurityCounter.cold d) ∧
      Leads build s none (kept build.recordMax d)) ∨
    (∃ out log s', protect build call s layer k frame = .ok (out, log, s') ∧
      Ledger build (issued ++ stamps log) s'.counter ∧ Carries s s' ∧ out ≠ .error .ok) ∨
    (∃ c, protect build call s layer k frame = .ok (.error .storage, [], fault { s with counter := c } .storage) ∧
      Ledger build issued c ∧ Leads build s none (memory build c)) := by
  unfold protect
  obtain ⟨d, ht, hl, hk⟩ | ⟨v, s', ht, hl, hc⟩ | ⟨s', ht, hl, hc⟩ | ⟨c, ht, hl, hk⟩ :=
    take_cases (domain layer) call.polls h hr <;> rw [ht]
  · exact .inl ⟨d, rfl, hl, hk⟩
  · simp only
    cases hx : crypto (EdWire.sealFrame call.aes layer { k with counter := v } frame 116) with
    | error e =>
      refine .inr (.inl ⟨_, _, s', rfl, hl, hc, fun he => ?_⟩)
      cases he
      exact crypto_error hx rfl
    | ok text => exact .inr (.inl ⟨_, _, s', rfl, hl, hc, by simp⟩)
  · refine .inr (.inl ⟨_, _, s', rfl, ?_, hc, by simp⟩)
    simpa [stamps] using hl
  · exact .inr (.inr ⟨c, rfl, hl, hk⟩)

theorem sealAps_cases (limits : CcmStar.Limits) (r : Record) (frame : Bytes)
    (h : Ledger build issued s.counter) (hr : s.counter.state = .ready) :
    (∃ d, sealAps build call limits s r frame = .error d ∧ Ledger build issued (SecurityCounter.cold d) ∧
      Leads build s none (kept build.recordMax d)) ∨
    (∃ out log s', sealAps build call limits s r frame = .ok (out, log, s') ∧
      Ledger build (issued ++ stamps log) s'.counter ∧ Carries s s' ∧ out ≠ .error .ok) ∨
    (∃ c, sealAps build call limits s r frame =
        .ok (.error .storage, [], fault { s with counter := c } .storage) ∧
      Ledger build issued c ∧ Leads build s none (memory build c)) := by
  unfold sealAps
  cases hn : crypto (EdWire.readNwk frame) with
  | error e =>
    refine .inr (.inl ⟨_, [], s, rfl, by simpa [stamps] using h, .refl hr, fun he => ?_⟩)
    cases he
    exact crypto_error hn rfl
  | ok nwk =>
    simp only
    obtain ⟨d, hp, hl, hk⟩ | ⟨out, log, s', hp, hl, hc, hne⟩ | ⟨c, hp, hl, hk⟩ :=
      @protect_cases build issued s call .aps (linkKey limits r) (frame.drop nwk.payloadOffset) h hr <;> rw [hp]
    · exact .inl ⟨d, rfl, hl, hk⟩
    · cases out with
      | error e => exact .inr (.inl ⟨_, log, s', rfl, hl, hc, hne⟩)
      | ok text =>
        simp only
        split
        · exact .inr (.inl ⟨_, log, s', rfl, hl, hc, by simp⟩)
        · exact .inr (.inl ⟨_, log, s', rfl, hl, hc, by simp⟩)
    · exact .inr (.inr ⟨c, rfl, hl, hk⟩)

/-- `seal`: a frame or an error with the record left alone, a latched storage failure, or a lost supply. -/
theorem sealPacket_cases (limits : CcmStar.Limits) (r : Record) (p : EdWire.Packet) (apsSecure : Bool)
    (h : Ledger build issued s.counter) (hr : s.counter.state = .ready) :
    (∃ d log, sealPacket build call limits s r p apsSecure = .error (d, log) ∧
      Ledger build (issued ++ stamps log) (SecurityCounter.cold d) ∧
      Leads build s none (kept build.recordMax d)) ∨
    (∃ out log s', sealPacket build call limits s r p apsSecure = .ok (out, log, s') ∧
      Ledger build (issued ++ stamps log) s'.counter ∧ Carries s s' ∧ out ≠ .error .ok) ∨
    (∃ log c, sealPacket build call limits s r p apsSecure =
        .ok (.error .storage, log, fault { s with counter := c } .storage) ∧
      Ledger build (issued ++ stamps log) c ∧ Leads build s none (memory build c)) := by
  have nothing : issued ++ stamps [] = issued := by simp [stamps]
  unfold sealPacket
  cases he : crypto (EdWire.encode (initiator r p) 116) with
  | error e =>
    refine .inr (.inl ⟨_, [], s, rfl, by rw [nothing]; exact h, .refl hr, fun hx => ?_⟩)
    cases hx
    exact crypto_error he rfl
  | ok frame =>
    simp only
    have hbody : (∃ d, (if apsSecure then sealAps build call limits s r frame else .ok (.ok frame, [], s)) =
          .error d ∧ Ledger build issued (SecurityCounter.cold d) ∧ Leads build s none (kept build.recordMax d)) ∨
        (∃ out log s', (if apsSecure then sealAps build call limits s r frame else .ok (.ok frame, [], s)) =
          .ok (out, log, s') ∧ Ledger build (issued ++ stamps log) s'.counter ∧ Carries s s' ∧
            out ≠ .error .ok) ∨
        (∃ c, (if apsSecure then sealAps build call limits s r frame else .ok (.ok frame, [], s)) =
          .ok (.error .storage, [], fault { s with counter := c } .storage) ∧
            Ledger build issued c ∧ Leads build s none (memory build c)) := by
      cases apsSecure with
      | true => exact sealAps_cases limits r frame h hr
      | false => exact .inr (.inl ⟨_, [], s, rfl, by rw [nothing]; exact h, .refl hr, by simp⟩)
    obtain ⟨d, hb, hl, hk⟩ | ⟨out, log, s', hb, hl, hc, hne⟩ | ⟨c, hb, hl, hk⟩ := hbody <;> rw [hb]
    · exact .inl ⟨d, [], rfl, by rw [nothing]; exact hl, hk⟩
    · cases out with
      | error e => exact .inr (.inl ⟨_, log, s', rfl, hl, hc, hne⟩)
      | ok frame =>
        simp only
        obtain ⟨d, hp, hl', hk⟩ | ⟨out', log', s'', hp, hl', hc', hne'⟩ | ⟨c, hp, hl', hk⟩ :=
          @protect_cases build _ s' call .nwk (networkKey limits r) frame hl hc.ready <;> rw [hp]
        · exact .inl ⟨d, log, rfl, hl', hk.carried hc hr⟩
        · refine .inr (.inl ⟨out', log ++ log', s'', rfl, ?_, hc.trans hc', hne'⟩)
          rw [stamps_append, ← List.append_assoc]
          exact hl'
        · refine .inr (.inr ⟨log ++ [], c, ?_, by rw [List.append_nil]; exact hl', hk.carried hc hr⟩)
          rw [hc.rest]
    · exact .inr (.inr ⟨[], c, rfl, by rw [nothing]; exact hl, hk⟩)

end Sealing

/-! Whole calls. -/

/-- The record a plan puts on the journal or stages. -/
def Plan.durable : Plan → Option Record
  | .store r _ => some r
  | .stage r _ _ => some r
  | .transmit t => t.commit
  | _ => none

/-- The live record a plan aims at. -/
def Plan.aim (r : Record) : Plan → Record
  | .stop _ => r
  | .store r' _ => r'
  | .stage r' _ _ => r'
  | .keep r' _ => r'
  | .transmit t => (t.pending.or t.commit).getD r

/-- What a completed plan answers. -/
def Plan.Answers (build : Build) (s : State) (reply : Reply) (log : List Sealing) : Plan → Prop
  | .stop e => reply = .of e ∧ log = []
  | .store _ answer => reply = answer ∧ log = []
  | .stage _ _ _ => reply = .of .ok ∧ log = []
  | .keep _ answer => reply = answer ∧ log = []
  | .transmit t => ∃ frame s',
      sealPacket build t.output.call t.limits s t.record t.packet t.apsSecure = .ok (.ok frame, log, s') ∧
      (t.preflight = true → frame.length ≤ t.output.capacity.toNat) ∧ reply = publish t.output frame

/-- A call that ran to its end: its plan is in force, or its frame was not sent and nothing moved. -/
inductive Finished (build : Build) (s : State) (p : Plan) (reply : Reply) (log : List Sealing) (s' : State) : Prop
  | aimed : look build s' = p.aim (look build s) →
      memory build s'.counter = (match p.durable with
        | some r => some (r.image build)
        | none => memory build s.counter) →
      p.Answers build s reply log → Finished build s p reply log s'
  | declined (t : Transmission) (e : Result) : p = .transmit t → reply = .of e → e ≠ .ok →
      look build s' = look build s → memory build s'.counter = memory build s.counter →
      Finished build s p reply log s'

/-- How a call can end. -/
def Ended (build : Build) (issued : Issued) (s : State) (p : Plan) : Outcome → Prop
  | .error (d, log) => Ledger build (issued ++ stamps log) (SecurityCounter.cold d) ∧
      Leads build s p.durable (kept build.recordMax d)
  | .ok (reply, log, s') => Keys build (issued ++ stamps log) s' ∧
      ((s'.phase = .failed ∧ s'.result = .storage ∧ reply = .of .storage ∧
          Leads build s p.durable (memory build s'.counter)) ∨
        (s'.phase.used ∧ s'.result = reply.result ∧ s'.counter.state = .ready ∧
          Finished build s p reply log s'))

theorem finish_used {s : State} (reply : Reply) (h : s.phase.used) :
    (finish s reply).2 = { s with result := reply.result } := by
  simp [finish, h.2]

theorem finish_fault (s : State) (e : Result) (reply : Reply) : (finish (fault s e) reply).2 = fault s e := by
  simp [finish, fault]

theorem keys_result {s : State} {e : Result} (he : s.phase = .failed → e ≠ .ok) (h : Keys build issued s) :
    Keys build issued { s with result := e } where
  ledger := h.ledger
  cold := h.cold
  blank := h.blank
  retained := h.retained
  latched := he
  used := fun hu =>
    have hi := h.used hu
    ⟨hi.ready, hi.phase, hi.floors, hi.routerFloors, hi.nibble, hi.staged⟩

/-- The end of a call whose state is in order. -/
theorem done_ended {s s' : State} {p : Plan} {reply : Reply} {log : List Sealing}
    (hk : Keys build (issued ++ stamps log) s') (hu : s'.phase.used)
    (hf : Finished build s p reply log s') : Ended build issued s p (done log s' reply) := by
  have hr := (hk.used hu).ready
  rw [done, finish_used reply hu]
  refine ⟨keys_result (fun h => absurd h hu.2) hk, .inr ⟨hu, rfl, hr, ?_⟩⟩
  cases hf with
  | aimed h1 h2 h3 => exact .aimed h1 h2 h3
  | declined t e h1 h2 h3 h4 h5 => exact .declined t e h1 h2 h3 h4 h5

/-- The end of a call in a storage failure. -/
theorem done_failed {s s' : State} {p : Plan} {log : List Sealing} (reply : Reply)
    (hl : Ledger build (issued ++ stamps log) s'.counter) (hd : Leads build s p.durable (memory build s'.counter))
    (hrep : reply = .of .storage) : Ended build issued s p (done log (fault s' .storage) reply) := by
  rw [done, finish_fault]
  exact ⟨fault_keys (by simp) hl, .inl ⟨rfl, rfl, hrep, hd⟩⟩

theorem no_stamps (issued : Issued) : issued ++ stamps [] = issued := by simp [stamps]

theorem store_ended {s : State} {p : Plan} {r : Record} {reply : Reply} (polls : UInt16)
    (h : Keys build issued s) (hu : s.phase.used) (hs : Shaped build r) (hlow : r.phase.used)
    (hd : p.durable = some r) (ha : p.aim (look build s) = r)
    (hans : p.Answers build s reply []) : Ended build issued s p (store build s r reply polls) := by
  have hi := h.used hu
  unfold store
  obtain ⟨d, hc, hl, hk⟩ | ⟨c, hc, hl, hk⟩ | ⟨c, hc, hl, hr, hh, hg⟩ := save_cases r polls h.ledger hi.ready <;>
    rw [hc]
  · refine ⟨by rw [no_stamps]; exact hl, ?_⟩
    rw [hd]
    exact hk
  · exact done_failed _ (by rw [no_stamps]; exact hl) (by rw [hd]; exact hk) rfl
  · obtain ⟨hkeys, hlook⟩ := @saved_keys build issued s c r hlow hl hr (by rw [hh, decode_image hs]) hg
    refine done_ended (by rw [no_stamps]; exact hkeys) hlow (.aimed ?_ ?_ hans)
    · rw [hlook, ha]
    · rw [hd]
      change memory build c = _
      rw [memory_ready hr, hh]

/-- The tail of a sending call. -/
theorem transmit_ended {s : State} {t : Transmission} (h : Keys build issued s) (hu : s.phase.used)
    (hstage : s.counter.generation = 0 → (look build s).network = false) {size : Nat}
    (hf : Plan.Fits build ⟨s.phase, size, look build s⟩ (.transmit t)) :
    Ended build issued s (.transmit t) (transmit build s t) := by
  have hi := h.used hu
  cases hf with
  | transmit _ hcommit hpending =>
    unfold transmit
    obtain ⟨d, log, hp, hl, hk⟩ | ⟨out, log, s₁, hp, hl, hc, hne⟩ | ⟨log, c, hp, hl, hk⟩ :=
      @sealPacket_cases build issued s t.output.call t.limits t.record t.packet t.apsSecure h.ledger hi.ready <;>
      rw [hp]
    · refine ⟨hl, ?_⟩
      obtain hk | hk | ⟨r, hr, -⟩ := hk
      · exact .inl hk
      · exact .inr (.inl hk)
      · cases hr
    · have hkeys := hc.keys h hu hl
      have hu₁ : s₁.phase.used := by
        rw [hc.rest]
        exact hu
      have hmem : memory build s₁.counter = memory build s.counter := hc.memory hi.ready
      cases out with
      | error e =>
        exact done_ended hkeys hu₁ (.declined t e rfl rfl (fun he => hne (by rw [he])) hc.look hmem)
      | ok frame =>
        simp only
        split
        · exact done_ended hkeys hu₁ (.declined t .space rfl rfl (by simp) hc.look hmem)
        · rename_i hpre
          have hans : Plan.Answers build s (publish t.output frame) log (.transmit t) :=
            ⟨frame, s₁, hp, fun hx => not_lt.1 fun hlt => hpre ⟨hx, hlt⟩, rfl⟩
          cases hco : t.commit with
          | none =>
            simp only [commit]
            cases hpe : t.pending with
            | none =>
              refine done_ended hkeys hu₁ (.aimed ?_ ?_ hans)
              · rw [hc.look, Plan.aim, hpe, hco]
                rfl
              · rw [Plan.durable, hco]
                exact hmem
            | some r =>
              simp only
              have hcache := hpending r hpe
              obtain ⟨hk, hlook⟩ := kept_keys hkeys hu₁
                (fun hz => by rw [hc.look]; exact hstage (hc.staged hz)) (by rw [hc.look]; exact hcache)
              refine done_ended hk hu₁ (.aimed ?_ ?_ hans)
              · rw [hlook, Plan.aim, hpe]
                rfl
              · rw [Plan.durable, hco]
                exact hmem
          | some r =>
            obtain ⟨hs, hlow, hnone⟩ := hcommit r hco
            simp only [commit, hnone]
            obtain ⟨d, hx, hl', hk⟩ | ⟨c, hx, hl', hk⟩ | ⟨c, hx, hl', hr, hh, hg⟩ :=
              save_cases r t.output.call.polls hl hc.ready <;> rw [hx]
            · refine ⟨hl', ?_⟩
              rw [Plan.durable, hco]
              exact hk.carried hc hi.ready
            · refine done_failed _ hl' ?_ rfl
              rw [Plan.durable, hco]
              exact hk.carried hc hi.ready
            · obtain ⟨hk, hlook⟩ := @saved_keys build _ s₁ c r hlow hl' hr (by rw [hh, decode_image hs]) hg
              refine done_ended hk hlow (.aimed ?_ ?_ hans)
              · rw [hlook, Plan.aim, hnone, hco]
                rfl
              · rw [Plan.durable, hco]
                change memory build c = _
                rw [memory_ready hr, hh]
    · refine done_failed _ hl ?_ rfl
      obtain hk | hk | ⟨r, hr, -⟩ := hk
      · exact .inl hk
      · exact .inr (.inl hk)
      · cases hr

/-- Every plan that fits ends as listed. -/
theorem execute_ended {s : State} {p : Plan} (polls : UInt16) (h : Keys build issued s) (hu : s.phase.used)
    (hstage : s.counter.generation = 0 → (look build s).network = false)
    (hf : p.Fits build ⟨s.phase, (held s.counter).length, look build s⟩) :
    Ended build issued s p (execute build s polls p) := by
  have hi := h.used hu
  have hk : Keys build (issued ++ stamps []) s := by
    rw [no_stamps]
    exact h
  cases hf with
  | stop e => exact done_ended hk hu (.aimed rfl rfl ⟨rfl, rfl⟩)
  | store r reply hs hlow => exact store_ended polls h hu hs hlow rfl rfl ⟨rfl, rfl⟩
  | stage r image phase hs hphase h3 himage hwhen hnp hlow hnf =>
    unfold execute
    simp only
    obtain ⟨hne, hsame⟩ | ⟨hok, hl, hnv, hst, hg, hh, hfrom⟩ :=
      SecurityCounter.restage_spec .accepted image h.ledger
    · rw [if_neg hne, hsame]
      exact store_ended polls h hu hs hlow rfl rfl ⟨rfl, rfl⟩
    · rw [if_pos hok]
      have hz : s.counter.generation = 0 := by
        obtain hn | hz := hfrom
        · simp [hi.ready] at hn
        · exact hz.2
      obtain ⟨hkeys, hlook, himg⟩ := staged_keys h hu hz
        (.stage r image phase hs hphase h3 himage hwhen hnp hlow hnf) hl hst hh
      refine done_ended (by rw [no_stamps]; exact hkeys) (hphase ▸ hlow) (.aimed ?_ ?_ ⟨rfl, rfl⟩)
      · exact hlook
      · change memory build (SecurityCounter.restage build s.counter .accepted image).2 = _
        rw [memory_ready hst, hh, himg]
        rfl
  | keep r reply hcache =>
    obtain ⟨hkeys, hlook⟩ := kept_keys h hu hstage hcache
    exact done_ended (by rw [no_stamps]; exact hkeys) hu (.aimed hlook rfl ⟨rfl, rfl⟩)
  | transmit t hcommit hpending => exact transmit_ended h hu hstage (.transmit t hcommit hpending)

end SecurityKeys
