import Cc2530Zigbee.SecurityKeysRuns
import Cc2530Zigbee.SecurityCounterIdle

/-!
# Key custody on an idle supply

A call whose plan stores a record ends with that record in force when no
command of the journal fails.
-/
namespace SecurityKeys

open SecurityCounter (Issued Idle held)

variable {build : Build} {issued : Issued} {s : State} {n : Nat}

theorem image_fits (r : Record) : (r.image build).length ≤ build.payloadMax := by
  rw [image_length]
  unfold Record.size Record.routerRecord Build.payloadMax Build.recordMax
  cases build.parentRecovery with
  | false => simp
  | true =>
    simp only [Bool.true_and, if_true]
    split <;> omega

theorem save_idle (r : Record) (polls : UInt16) (hl : SecurityCounter.Ledger build issued s.counter)
    (hr : s.counter.state = .ready) (hi : Idle build (n + 1) s.counter) (hp : polls ≠ 0) :
    ∃ c, save build s r polls = .ok (true, keepVolatile build { s with counter := c, phase := r.phase } r) ∧
      Idle build n c := by
  obtain ⟨c, hc, hidle⟩ := SecurityCounter.save_idle (r.image build) polls hl hr hi (image_fits r) hp
  refine ⟨c, ?_, hidle⟩
  simp only [save, hc, ne_eq, not_true_eq_false, if_false]

/-- A record in force on a supply with room for `n` commits. -/
structure InForce (build : Build) (n : Nat) (r : Record) (s : State) : Prop where
  used : s.phase.used
  idle : Idle build n s.counter
  held : SecurityCounter.held s.counter = r.image build
  look : look build s = r

theorem InForce.stored {r : Record} (h : InForce build n r s) (hs : Shaped build r) : stored s = r := by
  rw [SecurityKeys.stored, h.held, decode_image hs]

theorem InForce.context {r : Record} (h : InForce build n r s) (hk : Keys build issued s) :
    context build s = ⟨r.phase, r.size build, r⟩ := by
  rw [SecurityKeys.context, h.held, image_length, h.look, ← h.look, (hk.used h.used).look_phase]

/-- A call whose plan stores a record leaves it in force. -/
theorem store_inForce {t : Task build} {r : Record} {reply : Reply} (hk : Keys build issued s) (hu : s.phase.used)
    (hv : (stored s).Valid build (held s.counter).length) (hi : Idle build (n + 1) s.counter) (hp : t.polls ≠ 0)
    (hplan : t.plan (context build s) = .store r reply) :
    InForce build n r (step build s (.task t)).2 ∧ Shaped build r := by
  have hready := (hk.used hu).ready
  have hfits := plan_fits hk hu hv t
  rw [hplan] at hfits
  obtain _ | ⟨_, _, hs, hlow⟩ := hfits
  have hload : load build s = (.ok ((held s.counter).length, look build s), touched s) := by
    obtain ⟨hn, -⟩ | ⟨-, -, hl⟩ | ⟨-, hn, -⟩ := load_cases hk
    · exact absurd hu hn
    · exact hl
    · exact absurd hv hn
  have hidle : Idle build (n + 1) (touched s).counter := hi.same rfl rfl
  obtain ⟨c, hsave, hc⟩ := save_idle r t.polls (touched_keys hk hready).ledger hready hidle hp
  obtain ⟨d, hx, -⟩ | ⟨c', hx, -⟩ | ⟨c', hx, hl', hr', hh', hg'⟩ :=
    save_cases r t.polls (touched_keys hk hready).ledger hready
  · rw [hsave] at hx
    cases hx
  · rw [hsave] at hx
    cases hx
  · have hcc : c' = c := by
      have hinj := (Prod.mk.injEq ..).mp (Except.ok.inj (hsave.symm.trans hx))
      exact (congrArg State.counter hinj.2).symm
    subst hcc
    obtain ⟨hkeys, hlook⟩ := @saved_keys build issued (touched s) c' r hlow hl' hr'
      (by rw [hh', decode_image hs]) hg'
    have hstep : (step build s (.task t)).2 = { keepVolatile build { touched s with counter := c', phase := r.phase } r
        with result := reply.result } := by
      have hplan' : t.plan ⟨(touched s).phase, (held s.counter).length, look build s⟩ = .store r reply := hplan
      simp only [step, perform, hload, hplan', execute, store, hsave, done, settle]
      exact finish_used reply hlow
    rw [hstep]
    exact ⟨⟨hlow, hc, hh', hlook⟩, hs⟩

/-! A small network for concrete runs. -/

/-- A cipher that answers every block with zeros. -/
def flatAes : CcmStar.Aes := fun _ _ => some (Vector.replicate 16 0)

def flatCall : Call := ⟨flatAes, some ⟨1, 1⟩, 5⟩

theorem own_size : #[(1 : UInt8), 0, 0, 0, 0, 0, 0, 0].size = 8 := rfl
theorem tc_size : #[(2 : UInt8), 0, 0, 0, 0, 0, 0, 0].size = 8 := rfl

def sampleConfig : Config where
  ownIeee := Vector.mk #[1, 0, 0, 0, 0, 0, 0, 0] own_size
  tcIeee := Vector.mk #[2, 0, 0, 0, 0, 0, 0, 0] tc_size
  extendedPan := #v[3, 0, 0, 0, 0, 0, 0, 0]
  pan := 0x1234
  address := 0xFFFF
  channel := 11
  updateId := 5

def sampleOutput : Output := ⟨true, true, 116, flatCall⟩

/-- The tests of an idle owner that has staged its first record. -/
def idleStart (s : State) : Bool :=
  s.counter.nv.fault.isNone && !NvRecord.known s.counter.nv.status && s.counter.nv.device.schedule.isEmpty &&
  s.counter.generation == 0 && s.counter.nv.status.eraseAttempts false == 0 &&
  s.counter.nv.status.eraseAttempts true == 0

theorem idleStart_idle (hk : Keys build issued s) (hu : s.phase.used) (h : idleStart s = true) :
    Idle build 32 s.counter := by
  have hopen := ((hk.ledger.owner (hk.used hu).ready)).1
  simp only [idleStart, Bool.and_eq_true, Option.isNone_iff_eq_none, Bool.not_eq_true', List.isEmpty_iff,
    beq_iff_eq] at h
  obtain ⟨⟨⟨⟨⟨hf, hn⟩, hd⟩, hg⟩, h0⟩, h1⟩ := h
  have hv := (hopen.staged hg).1
  refine ⟨hf, fun hx => absurd hx (by simp [hn]), hd, ?_, by rw [hg]; decide, fun b => ?_⟩
  · rw [hg, hv]
    rfl
  · cases b <;> simp [h0, h1, NvRecord.eraseLimit]

end SecurityKeys
