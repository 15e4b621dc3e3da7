import Cc2530Zigbee.SecurityKeysJournal

/-!
# Key custody: what a step can do

Every call and the reset, listed by what they leave: the saved record, the
live record, the phase, the frames that authenticated and the counters used.
The properties of whole runs are read off this list.
-/
namespace SecurityKeys

open Octets
open SecurityCounter (Ledger Issued kept held)
open NvRecord (Device)
open CcmStar (Aes Block Limits)

variable {build : Build} {issued : Issued} {s s' : State}

/-- What a call works on when its record loads. -/
def context (build : Build) (s : State) : Context := ⟨s.phase, (held s.counter).length, look build s⟩

/-- The last results moved and nothing else; a latched failure keeps its own. -/
def Still (s s' : State) : Prop :=
  ∃ e, (s.phase = .failed → e = s.result) ∧ (s' = { s with result := e } ∨ s' = { touched s with result := e })

theorem Still.memory (h : Still s s') : memory build s'.counter = memory build s.counter := by
  obtain ⟨e, -, rfl | rfl⟩ := h <;> rfl

theorem Still.look (h : Still s s') : look build s' = look build s := by
  obtain ⟨e, -, rfl | rfl⟩ := h <;> rfl

theorem Still.phase (h : Still s s') : s'.phase = s.phase := by
  obtain ⟨e, -, rfl | rfl⟩ := h <;> rfl

theorem finish_still (s : State) (reply : Reply) : Still s (finish s reply).2 := by
  unfold finish
  simp only
  split
  · exact ⟨s.result, fun _ => rfl, .inl rfl⟩
  · rename_i hn
    exact ⟨_, fun hf => absurd hf hn, .inl rfl⟩

theorem finish_eq (s : State) (reply : Reply) : finish s reply = (reply, (finish s reply).2) := rfl

theorem finish_keys (reply : Reply) (h : Keys build issued s) : Keys build issued (finish s reply).2 := by
  unfold finish
  simp only
  split
  · exact h
  · rename_i hn
    exact keys_result (fun hf => absurd hf hn) h

/-- How a call on a valid record ends. -/
inductive Acted (build : Build) (s : State) (t : Task build) (rep : Report) (s' : State) : Prop
  | lost (d : Device) : rep.reply = none → s' = cold d →
      Leads build s (t.plan (context build s)).durable (kept build.recordMax d) → Acted build s t rep s'
  | failed : rep.reply = some (.of .storage) → s'.phase = .failed → s'.result = .storage →
      Leads build s (t.plan (context build s)).durable (memory build s'.counter) → Acted build s t rep s'
  | finished (reply : Reply) : rep.reply = some reply → s'.phase.used → s'.result = reply.result →
      s'.counter.state = .ready → Finished build (touched s) (t.plan (context build s)) reply rep.sealed s' →
      Acted build s t rep s'

/-- The heard frames of a report are those of the working storage. -/
structure Hears (build : Build) (s : State) (t : Task build) (rep : Report) : Prop where
  nwk : rep.nwkHeard = (t.work (context build s)).bind Work.nwkHeard
  aps : rep.apsHeard = (t.work (context build s)).bind Work.apsHeard

/-- How the first start of a module ends: nothing on the journal, a valid record in force, or a failure. -/
inductive Opened (build : Build) (s : State) (s' : State) : Result → Prop
  | empty : s'.phase = .unprovisioned → Opened build s s' .empty
  | found (data : Bytes) : memory build s.counter = some data → (Record.decode data).Valid build data.length →
      s'.phase = (Record.decode data).phase → look build s' = Record.decode data → s'.result = .ok →
      Opened build s s' .ok
  | storage : s'.phase = .failed → s'.result = .storage → Opened build s s' .storage
  | format (data : Bytes) : memory build s.counter = some data →
      ¬ (Record.decode data).Valid build data.length → s'.phase = .failed → s'.result = .format →
      Opened build s s' .format

/-- The link key a provisioning call begins with. -/
def Provides (build : Build) (installCode : Option (Vector UInt8 18)) (call : Call) (lk : Block) : Prop :=
  if build.defaultTcKey then lk = defaultKey
  else ∃ limits, call.limitsOk = some limits ∧
    KeyHash.installCodeDerive call.aes ((installCode.map Vector.toList).getD []) limits = .ok lk

/-- How a provisioning call with a usable configuration ends. -/
inductive Fresh (build : Build) (s : State) (r : Record) (reply : Option Reply) (s' : State) : Prop
  | lost (d : Device) : reply = none → s' = cold d → Leads build s (some r) (kept build.recordMax d) →
      Fresh build s r reply s'
  | failed : reply = some (.of .storage) → s'.phase = .failed → s'.result = .storage →
      Leads build s (some r) (memory build s'.counter) → Fresh build s r reply s'
  | stored : reply = some (.of .ok) → s'.phase = .provisioned → s'.result = .ok → look build s' = r →
      memory build s'.counter = some (r.image build) → Fresh build s r reply s'

/-- What a step does. -/
inductive Moved (build : Build) (s : State) : Op build → Report → State → Prop
  | still (op : Op build) (reply : Reply) (s' : State) : Still s s' → reply.received = none →
      reply.frame = none → (∀ t, op = .task t → ¬ s.phase.used ∧ reply.result ≠ .ok) →
      Moved build s op ⟨some reply, none, none, []⟩ s'
  | format (op : Op build) : s.phase.used → ¬ (stored s).Valid build (held s.counter).length →
      Moved build s op ⟨some (.of .format), none, none, []⟩ (fault (touched s) .format)
  | opened (e : Result) (s' : State) : s.phase = .cold → memory build s'.counter = memory build s.counter →
      Opened build s s' e → Moved build s .keysOpen ⟨some (.of e), none, none, []⟩ s'
  | provisioned (config : Config) (installCode : Option (Vector UInt8 18)) (nwkFloor apsFloor : UInt32)
      (call : Call) (lk : Block) (reply : Option Reply) (s' : State) : s.phase = .unprovisioned →
      (provisioned config zeroKey).ValidConfig → Provides build installCode call lk →
      Fresh build s (SecurityKeys.provisioned config lk) reply s' →
      Moved build s (.provision (some config) installCode nwkFloor apsFloor call) ⟨reply, none, none, []⟩ s'
  | recommissioned (h : build.defaultTcKey = true) (s' : State) : s.phase.used → s'.phase = .unprovisioned →
      s'.counter = s.counter → Moved build s (.recommission h) ⟨some (.of .ok), none, none, []⟩ s'
  | acted (t : Task build) (rep : Report) (s' : State) : s.phase.used →
      (stored s).Valid build (held s.counter).length → Hears build s t rep → Acted build s t rep s' →
      Moved build s (.task t) rep s'
  | reset : Moved build s .reset .dark (cold s.counter.nv.device)

theorem memory_cold (d : Device) : memory build (SecurityCounter.cold d) = kept build.recordMax d :=
  memory_unready (by simp [SecurityCounter.cold])

theorem cold_keys {d : Device} (h : Ledger build issued (SecurityCounter.cold d)) : Keys build issued (cold d) where
  ledger := h
  cold := fun _ => ⟨rfl, rfl⟩
  blank := fun _ => ⟨fun _ => rfl, fun _ => rfl, rfl⟩
  retained := by simp [cold]
  latched := by simp [cold]
  used := fun hu => by simp [cold, Phase.used, Phase.code] at hu

/-- A valid record before the first commit has no network key. -/
theorem staged_keyless (hk : Keys build issued s) (hu : s.phase.used)
    (hv : (stored s).Valid build (held s.counter).length) (hz : s.counter.generation = 0) :
    (look build s).network = false := by
  have hi := hk.used hu
  have hkeyless : (stored s).Keyless := .inl (hi.phase ▸ (hi.staged hz).1)
  have hflags : (look build s).flags = .zero := (hv.blank hkeyless).flags
  simp [Record.network, hflags, Flags.zero]

theorem load_error (hk : Keys build issued s) {e : Result} (h : load build s = (.error e, s')) : e ≠ .ok := by
  unfold load at h
  split at h
  · rename_i hf
    cases h
    exact hk.latched hf
  · split at h
    · cases h
      simp
    · simp only at h
      split at h
      · cases h
        simp
      · split at h
        · cases h
          simp
        · cases h

theorem perform_moved (hk : Keys build issued s) (t : Task build) :
    Keys build (issued ++ stamps (perform build s t).1.sealed) (perform build s t).2 ∧
    Moved build s (.task t) (perform build s t).1 (perform build s t).2 := by
  unfold perform
  obtain ⟨hn, e, hl⟩ | ⟨hu, hv, hl⟩ | ⟨hu, hv, hl⟩ := load_cases hk <;> rw [hl]
  · simp only [quiet, no_stamps]
    exact ⟨finish_keys _ hk, .still _ _ _ (finish_still s _) rfl rfl fun t _ => ⟨hn, load_error hk hl⟩⟩
  · simp only
    have hi := hk.used hu
    have hstage := staged_keyless hk hu hv
    have hphase : s.phase = (look build s).phase := hi.look_phase.symm
    have hfits : (t.plan (context build s)).Fits build (context build s) :=
      t.fits (overlay_shaped (valid_shaped hv)) hphase (hphase ▸ hu)
    have hend := @execute_ended build issued (touched s) (t.plan (context build s)) t.polls
      (touched_keys hk hi.ready) hu hstage hfits
    have hc : (⟨(touched s).phase, (held s.counter).length, look build s⟩ : Context) = context build s := rfl
    rw [hc]
    cases ho : execute build (touched s) t.polls (t.plan (context build s)) with
    | error e =>
      obtain ⟨d, log⟩ := e
      rw [ho] at hend
      exact ⟨cold_keys hend.1, .acted t _ _ hu hv ⟨rfl, rfl⟩ (.lost d rfl rfl hend.2)⟩
    | ok o =>
      obtain ⟨reply, log, s'⟩ := o
      rw [ho] at hend
      obtain ⟨hkeys, ⟨hf, hr, rfl, hm⟩ | ⟨hu', hr, hready, hfin⟩⟩ := hend
      · exact ⟨hkeys, .acted t _ _ hu hv ⟨rfl, rfl⟩ (.failed rfl hf hr hm)⟩
      · exact ⟨hkeys, .acted t _ _ hu hv ⟨rfl, rfl⟩ (.finished reply rfl hu' hr hready hfin)⟩
  · simp only [quiet, finish_fault, no_stamps]
    exact ⟨fault_keys (by simp) (touched_keys hk (hk.used hu).ready).ledger, .format _ hu hv⟩

/-- The first call after a start. -/
theorem keysOpen_opened (hk : Keys build issued s) (hc : s.phase = .cold) :
    ∃ e s', keysOpen build s = (.of e, s') ∧ Keys build issued s' ∧
      memory build s'.counter = memory build s.counter ∧ Opened build s s' e := by
  unfold keysOpen
  rw [if_neg (not_not.2 hc)]
  have hcold := (hk.cold hc).1
  obtain ⟨hn, -⟩ | ⟨-, hl, hd, hres⟩ := SecurityCounter.counterOpen_spec hk.ledger
  · exact absurd hcold hn
  · simp only
    generalize SecurityCounter.counterOpen build s.counter = o at hl hd hres ⊢
    have hmem : memory build s.counter = kept build.recordMax s.counter.nv.device :=
      memory_unready (by simp [hcold])
    have hblank := hk.blank (by simp [hc, Phase.code])
    obtain ⟨hok, hready, hg, hkept⟩ | ⟨he, hstate⟩ | ⟨hf, hne⟩ := hres
    · rw [hok, if_neg (by simp), if_neg (by simp)]
      have hsame : memory build o.2 = memory build s.counter := by
        rw [memory_ready hready, hmem, hkept]
      obtain ⟨hread, hlr⟩ := @read_ready build issued { s with counter := o.2 } hl hready
      simp only [hread]
      have hdata : memory build s.counter = some (held o.2) := hmem.trans hkept
      split
      · rename_i hv
        have hlow : (Record.decode (held o.2)).phase.used := by
          refine ⟨hv.phases.1, fun h => ?_⟩
          have := hv.phases.2
          simp [h, Phase.code] at this
        obtain ⟨hkeys, hlook⟩ := @saved_keys build issued { s with counter := { o.2 with result := .ok } }
          { o.2 with result := .ok } _ hlow hlr hready rfl hg
        refine ⟨_, _, finish_eq _ _, finish_keys _ hkeys, ?_, ?_⟩
        · rw [finish_used _ hlow]
          exact hsame
        · rw [finish_used _ hlow]
          exact .found _ hdata hv rfl hlook rfl
      · rename_i hv
        refine ⟨_, _, finish_eq _ _, ?_⟩
        rw [finish_fault]
        exact ⟨fault_keys (by simp) hlr, hsame, .format _ hdata hv rfl rfl⟩
    · rw [he, if_pos rfl]
      have hkeys : Keys build issued { s with counter := o.2, phase := .unprovisioned } :=
        ⟨hl, by simp, fun _ => hblank, fun _ hret => absurd hret (by simp [(hk.cold hc).2]), by simp,
          fun hu => by simp [Phase.used, Phase.code] at hu⟩
      refine ⟨_, _, finish_eq _ _, finish_keys _ hkeys, ?_, .empty rfl⟩
      change memory build o.2 = _
      rw [hmem, memory_unready (by simp [hstate]), hd]
    · rw [if_neg hne, if_pos hf.failure.1]
      refine ⟨_, _, finish_eq _ _, ?_⟩
      rw [finish_fault]
      refine ⟨fault_keys (by simp) hl, ?_, .storage rfl rfl⟩
      change memory build o.2 = _
      rw [hmem, memory_unready (by simp [hf.state]), hd]

theorem keysOpen_moved (hk : Keys build issued s) :
    Keys build issued (keysOpen build s).2 ∧
    Moved build s .keysOpen (quiet (keysOpen build s)).1 (keysOpen build s).2 := by
  by_cases hc : s.phase = .cold
  · obtain ⟨e, s', he, hk', hm, ho⟩ := keysOpen_opened hk hc
    rw [he]
    exact ⟨hk', .opened e s' hc hm ho⟩
  · unfold keysOpen
    rw [if_pos hc]
    exact ⟨finish_keys _ hk, .still _ _ _ (finish_still s _) rfl rfl (by simp)⟩

/-- A record that a provisioning call saves. -/
theorem provisioned_shaped (config : Config) (lk : Block) : Shaped build (provisioned config lk) := .inr rfl

theorem provisioned_image (config : Config) (lk : Block) :
    (provisioned config lk).image build = (provisioned config lk).encodeBase := by
  have h : (provisioned config lk).routerRecord build = false := by simp [provisioned, Record.routerRecord]
  simp [Record.image, h]

/-- A provisioning call over a retained record. -/
theorem retained_fresh (hk : Keys build issued s) (hready : s.counter.state = .ready) (config : Config)
    (lk : Block) (polls : UInt16) :
    (∃ d, save build s (provisioned config lk) polls = .error d ∧ Keys build issued (cold d) ∧
      Fresh build s (provisioned config lk) none (cold d)) ∨
    ∃ done s', save build s (provisioned config lk) polls = .ok (done, s') ∧
      (done = false → Keys build issued (finish s' (.of .storage)).2 ∧
        Fresh build s (provisioned config lk) (some (.of .storage)) (finish s' (.of .storage)).2) ∧
      (done = true → Keys build issued (finish { s' with retained := false } (.of .ok)).2 ∧
        Fresh build s (provisioned config lk) (some (.of .ok)) (finish { s' with retained := false } (.of .ok)).2) := by
  obtain ⟨d, hc, hl, hm⟩ | ⟨c, hc, hl, hm⟩ | ⟨c, hc, hl, hr, hh, hg⟩ :=
    save_cases (provisioned config lk) polls hk.ledger hready
  · exact .inl ⟨d, hc, cold_keys hl, .lost d rfl rfl hm⟩
  · refine .inr ⟨_, _, hc, fun _ => ?_, by simp⟩
    rw [finish_fault]
    exact ⟨fault_keys (by simp) hl, .failed rfl rfl rfl hm⟩
  · have hlow : (provisioned config lk).phase.used := by simp [provisioned, Record.phase, Phase.used, Phase.code]
    obtain ⟨hkeys, hlook⟩ := @saved_keys build issued s c _ hlow hl hr
      (by rw [hh, decode_image (provisioned_shaped config lk)]) hg
    refine .inr ⟨_, _, hc, by simp, fun _ => ⟨finish_keys _ (keys_used hl hlow ?_), ?_⟩⟩
    · obtain ⟨h1, h2, h3, h4, h5, h6⟩ := hkeys.used hlow
      exact ⟨h1, h2, h3, h4, h5, h6⟩
    · refine .stored rfl rfl rfl hlook ?_
      change memory build c = _
      rw [memory_ready hr, hh]

/-- A provisioning call on an empty journal stages its record. -/
theorem created_fresh (hk : Keys build issued s) (hp : s.phase = .unprovisioned) (config : Config) (lk : Block)
    (nwkFloor apsFloor : UInt32) (polls : UInt16) :
    let c := SecurityCounter.create build s.counter nwkFloor apsFloor .accepted
      (provisioned config lk).encodeBase polls
    (c.1 ≠ .ok → Keys build issued (fault { s with counter := c.2 } .storage) ∧
      Fresh build s (provisioned config lk) (some (.of .storage)) (fault { s with counter := c.2 } .storage)) ∧
    (c.1 = .ok → Keys build issued (finish { s with counter := c.2, phase := .provisioned } (.of .ok)).2 ∧
      Fresh build s (provisioned config lk) (some (.of .ok))
        (finish { s with counter := c.2, phase := .provisioned } (.of .ok)).2) := by
  intro c
  have hlow : Phase.provisioned.used := by simp [Phase.used, Phase.code]
  obtain ⟨hf, hrf, hz⟩ := hk.blank (by simp [hp, Phase.code])
  obtain ⟨hne, he⟩ | ⟨hok, hl, hnv, hst, hg, hh, -⟩ :=
    SecurityCounter.create_spec nwkFloor apsFloor .accepted (provisioned config lk).encodeBase polls hk.ledger
  · refine ⟨fun _ => ?_, fun h => absurd h hne⟩
    have hc : c.2 = s.counter := he
    rw [hc]
    exact ⟨fault_keys (by simp) hk.ledger, .failed rfl rfl rfl (.inr (.inl rfl))⟩
  · refine ⟨fun h => absurd hok h, fun _ => ?_⟩
    have hstored : stored { s with counter := c.2, phase := .provisioned } = provisioned config lk := by
      change Record.decode (held c.2) = _
      rw [show held c.2 = _ from hh, ← @provisioned_image build, decode_image (provisioned_shaped config lk)]
    have hi : InUse build { s with counter := c.2, phase := .provisioned } := by
      refine ⟨hst, ?_, fun i => ?_, fun _ _ i => ?_, .inl hz, fun _ => ⟨Nat.le_succ 2, hrf, fun _ => ⟨hz, ?_⟩⟩⟩
      · rw [hstored]
        rfl
      · rw [hstored]
        exact UInt32.zero_le
      · rw [hstored]
        exact UInt32.zero_le
      · rw [hstored]
        rfl
    have hlook : look build { s with counter := c.2, phase := .provisioned } = provisioned config lk := by
      have hnr : (provisioned config lk).routerRecord build = false := by simp [provisioned, Record.routerRecord]
      have hfc : s.floorCache = (provisioned config lk).nf := by
        funext i
        exact hf i
      rw [look, hstored]
      simp only [overlay, hnr, Bool.and_false, Bool.false_eq_true, if_false, hz, if_true, hfc]
    refine ⟨finish_keys _ (keys_used hl hlow hi), ?_⟩
    rw [finish_used _ hlow]
    refine .stored rfl rfl rfl hlook ?_
    change memory build c.2 = _
    rw [memory_ready hst, provisioned_image]
    exact congrArg some hh

/-- A provisioning call is refused, or has a configuration and a link key to begin with. -/
theorem provision_cases (s : State) (config : Option Config) (installCode : Option (Vector UInt8 18))
    (nwkFloor apsFloor : UInt32) (call : Call) :
    (∃ e, provision build s config installCode nwkFloor apsFloor call = .ok (finish s (.of e))) ∨
    ∃ cfg lk, config = some cfg ∧ s.phase = .unprovisioned ∧ (provisioned cfg zeroKey).ValidConfig ∧
      Provides build installCode call lk ∧
      provision build s config installCode nwkFloor apsFloor call =
        if build.defaultTcKey && s.retained then
          match save build s (provisioned cfg lk) call.polls with
          | .error d => .error d
          | .ok (false, s) => .ok (finish s (.of .storage))
          | .ok (true, s) => .ok (finish { s with retained := false } (.of .ok))
        else
          let c := SecurityCounter.create build s.counter nwkFloor apsFloor .accepted
            (provisioned cfg lk).encodeBase call.polls
          if c.1 ≠ .ok then .ok (finish (fault { s with counter := c.2 } .storage) (.of .storage))
          else .ok (finish { s with counter := c.2, phase := .provisioned } (.of .ok)) := by
  unfold provision
  split
  · exact .inl ⟨_, rfl⟩
  · rename_i hp
    cases config with
    | none => exact .inl ⟨_, rfl⟩
    | some cfg =>
      cases hl : call.limitsOk with
      | none => exact .inl ⟨_, rfl⟩
      | some limits =>
        simp only
        split
        · exact .inl ⟨_, rfl⟩
        · split
          · exact .inl ⟨_, rfl⟩
          · rename_i hc
            cases hk : (if build.defaultTcKey then .ok defaultKey
              else KeyHash.installCodeDerive call.aes ((installCode.map Vector.toList).getD []) limits :
                Except KeyHash.Result Block) with
            | error e => exact .inl ⟨_, rfl⟩
            | ok lk =>
              refine .inr ⟨cfg, lk, rfl, not_not.1 hp, not_not.1 hc, ?_, rfl⟩
              unfold Provides
              split at hk
              · rw [if_pos ‹_›]
                exact (Except.ok.inj hk).symm
              · rw [if_neg ‹_›]
                exact ⟨limits, hl, hk⟩

theorem provision_moved (hk : Keys build issued s) (config : Option Config)
    (installCode : Option (Vector UInt8 18)) (nwkFloor apsFloor : UInt32) (call : Call) :
    let o := step build s (.provision config installCode nwkFloor apsFloor call)
    Keys build (issued ++ stamps o.1.sealed) o.2 ∧
      Moved build s (.provision config installCode nwkFloor apsFloor call) o.1 o.2 := by
  simp only [step]
  obtain ⟨e, he⟩ | ⟨cfg, lk, rfl, hp, hv, hlk, he⟩ :=
    @provision_cases build s config installCode nwkFloor apsFloor call <;> rw [he]
  · simp only [quiet, no_stamps]
    exact ⟨finish_keys _ hk, .still _ _ _ (finish_still s _) rfl rfl (by simp)⟩
  · have moved : ∀ reply s', Keys build issued s' ∧ Fresh build s (provisioned cfg lk) reply s' →
        Keys build (issued ++ stamps []) s' ∧
        Moved build s (.provision (some cfg) installCode nwkFloor apsFloor call) ⟨reply, none, none, []⟩ s' :=
      fun reply s' h => ⟨by rw [no_stamps]; exact h.1, .provisioned cfg installCode nwkFloor apsFloor call lk reply s'
        hp hv hlk h.2⟩
    split
    · rename_i d hd
      split at hd
      · rename_i hret
        have hready := hk.retained hp (Bool.and_eq_true_iff.1 hret).2
        obtain ⟨d', hs, hf⟩ | ⟨done, s', hs, hfalse, htrue⟩ := retained_fresh hk hready cfg lk call.polls <;>
          rw [hs] at hd
        · cases hd
          exact moved _ _ hf
        · cases done <;> cases hd
      · simp only at hd
        split at hd <;> cases hd
    · rename_i r hr
      split at hr
      · rename_i hret
        have hready := hk.retained hp (Bool.and_eq_true_iff.1 hret).2
        obtain ⟨d', hs, hf⟩ | ⟨done, s', hs, hfalse, htrue⟩ := retained_fresh hk hready cfg lk call.polls <;>
          rw [hs] at hr
        · cases hr
        · cases done with
          | false =>
            obtain rfl := Except.ok.inj hr
            exact moved _ _ (hfalse rfl)
          | true =>
            obtain rfl := Except.ok.inj hr
            exact moved _ _ (htrue rfl)
      · obtain ⟨hne, hok⟩ := created_fresh hk hp cfg lk nwkFloor apsFloor call.polls
        simp only at hr
        split at hr
        · rename_i hc
          obtain rfl := Except.ok.inj hr
          rw [quiet, finish_fault]
          exact moved _ _ (hne hc)
        · rename_i hc
          obtain rfl := Except.ok.inj hr
          exact moved _ _ (hok (not_not.1 hc))

theorem recommission_moved (hk : Keys build issued s) (hb : build.defaultTcKey = true) :
    Keys build issued (recommission s).2 ∧
      Moved build s (.recommission hb) (quiet (recommission s)).1 (recommission s).2 := by
  unfold recommission
  split
  · exact ⟨finish_keys _ hk, .still _ _ _ (finish_still s _) rfl rfl (by simp)⟩
  · rename_i hp
    simp only [not_or, not_lt] at hp
    have hu : s.phase.used := ⟨hp.1, hp.2.1⟩
    refine ⟨finish_keys _ ?_, .recommissioned hb _ hu rfl rfl⟩
    exact ⟨hk.ledger, by simp, fun _ => ⟨fun _ => rfl, fun _ => rfl, rfl⟩, fun _ _ => (hk.used hu).ready, by simp,
      fun h => by simp [Phase.used, Phase.code] at h⟩

theorem status_moved (hk : Keys build issued s) (output : Bool) :
    Keys build issued (status build s output).2 ∧
      Moved build s (.status output) (quiet (status build s output)).1 (status build s output).2 := by
  unfold status
  split
  · exact ⟨finish_keys _ hk, .still _ _ _ (finish_still s _) rfl rfl (by simp)⟩
  · split
    · exact ⟨finish_keys _ hk, .still _ _ _ (finish_still s _) rfl rfl (by simp)⟩
    · rename_i hp
      simp only [not_or, not_lt] at hp
      obtain ⟨hn, -⟩ | ⟨hu, -, hl⟩ | ⟨hu, hv, hl⟩ := load_cases hk
      · exact absurd hp hn
      · rw [hl]
        refine ⟨finish_keys _ (touched_keys hk (hk.used hu).ready), .still _ _ _ ?_ rfl rfl (by simp)⟩
        rw [finish_used _ (show (touched s).phase.used from hu)]
        exact ⟨_, fun hf => absurd hf hu.2, .inr rfl⟩
      · rw [hl]
        simp only [finish_fault]
        exact ⟨fault_keys (by simp) (touched_keys hk (hk.used hu).ready).ledger, .format _ hu hv⟩

/-- Every step keeps the ledger of its counters and does one of the things listed. -/
theorem step_moved (hk : Keys build issued s) (op : Op build) :
    Keys build (issued ++ stamps (step build s op).1.sealed) (step build s op).2 ∧
      Moved build s op (step build s op).1 (step build s op).2 := by
  have plain : ∀ r : Reply × State, Keys build issued r.2 ∧ Moved build s op (quiet r).1 r.2 →
      Keys build (issued ++ stamps (quiet r).1.sealed) r.2 ∧ Moved build s op (quiet r).1 r.2 := fun r h => by
    simp only [quiet, no_stamps] at h ⊢
    exact h
  cases op with
  | keysOpen => exact plain _ (keysOpen_moved hk)
  | provision config installCode nwkFloor apsFloor call =>
    exact provision_moved hk config installCode nwkFloor apsFloor call
  | recommission hb => exact plain _ (recommission_moved hk hb)
  | status output => exact plain _ (status_moved hk output)
  | task t => exact perform_moved hk t
  | reset =>
    have hl := SecurityCounter.ledger_cold hk.ledger.increasing hk.ledger.top hk.ledger.disk
    refine ⟨?_, .reset⟩
    simp only [step, Report.dark, no_stamps]
    exact cold_keys hl

/-! Runs. -/

/-- The encryptions of a run, oldest first. -/
def log (reports : List Report) : List Sealing := reports.flatMap Report.sealed

theorem run_keys (d : Device) (ops : List (Op build)) :
    Keys build (stamps (log (Runs.run (step build) (cold d) ops).1)) (Runs.run (step build) (cold d) ops).2 := by
  have hcold : Keys build (stamps (log [])) (cold d) := by
    refine cold_keys (SecurityCounter.ledger_cold List.Pairwise.nil ?_ ⟨fun _ => rfl, fun _ _ p hp => ?_⟩)
    · simp [stamps, log]
    · simp [stamps, log] at hp
  refine Runs.run_invariant (step build) (fun reports s => Keys build (stamps (log reports)) s) (cold d) [] hcold
    (fun reports s op hk => ?_) ops
  have hlog : stamps (log (reports ++ [(step build s op).1])) =
      stamps (log reports) ++ stamps (step build s op).1.sealed := by
    simp [log, stamps]
  rw [hlog]
  exact (step_moved hk op).1

/-- The records a call can aim at. -/
inductive Changes (build : Build) (c : Context) : Task build → Record → Prop
  | same (t : Task build) : Changes build c t c.record
  | upgraded (polls : UInt16) (h : build.parentRecovery = true) :
      c.record.phase = .verified ∨ c.record.phase = .rejoining → c.size ≠ 144 →
      Changes build c (.upgradeParent polls h) { c.record with version := 3, router := .zero }
  | remembered (parent : Option Parent) (p : Parent) (polls : UInt16) (h : build.parentRecovery = true) :
      Rememberable build c.record p → Changes build c (.rememberParent parent polls h) (remembered c.record p)
  | selected (router updateId : UInt8) (polls : UInt16) (h : build.parentRecovery = true) :
      c.record.routerRecord build = true → c.record.phase = .verified ∨ c.record.phase = .rejoining →
      c.record.router.flags.known = true → updateId - c.record.update < 128 →
      Changes build c (.selectParent router updateId polls h) (selected c.record true updateId)
  | unselected (router updateId : UInt8) (polls : UInt16) (h : build.parentRecovery = true) :
      c.record.routerRecord build = true → c.record.phase = .verified ∨ c.record.phase = .rejoining →
      Changes build c (.selectParent router updateId polls h) (selected c.record false 0)
  | associated (shortAddress polls : UInt16) : c.record.phase = .provisioned → shortAddress ≠ 0 →
      shortAddress < 0xFFF8 → Changes build c (.associate shortAddress polls) (associatedRecord c.record shortAddress)
  | unbound (routerAddress polls : UInt16) (h : build.routerJoin = true) : c.record.phase = .associated →
      c.record.routerRecord build = false → routerAddress ≠ 0 → routerAddress < 0xFFF8 →
      routerAddress ≠ c.record.addr →
      Changes build c (.routerParent routerAddress polls h) (unboundRecord c.record routerAddress)
  | heard (d : Delivery) (raw : Bytes) (limits : Limits) (e : Result) (w : Work) : d.raw = some raw →
      verdict build c d = .ok (e, w) → Processed build d.call.aes limits c.record raw e w →
      3 ≤ c.phase.code → c.phase ≠ .left → Changes build c (.receive d) w.record
  | requested (nwkSeq apsCounter : UInt8) (o : Output) :
      c.record.phase = .received ∨ c.record.phase = .requested ∨ c.record.phase = .verified →
      Changes build c (.request nwkSeq apsCounter o) (c.record.setPhase .requested)
  | verifying (nwkSeq apsCounter : UInt8) (o : Output) :
      c.record.phase = .provisional ∨ c.record.phase = .waitConfirm →
      Changes build c (.verify nwkSeq apsCounter o) (c.record.setPhase .waitConfirm)
  | abandoned (nwkSeq : UInt8) (o : Output) : c.record.network = true ∨ o.limits ≠ none →
      Changes build c (.leave nwkSeq o) (leftRecord c.record false)
  | rejoining (packet : Option EdWire.Packet) (apsSecure : UInt8) (o : Output) : c.record.network = true →
      c.record.flags.wasVerified = true → c.record.flags.retired = true ∨ c.record.pk = zeroKey →
      c.record.phase = .verified ∨ c.record.phase = .rejoining ∨
        (c.record.phase = .left ∧ c.record.flags.rejoinAllowed = true) →
      Changes build c (.send packet apsSecure o) ((cleared c.record).setPhase .rejoining)
  | departed (packet : Option EdWire.Packet) (apsSecure : UInt8) (o : Output) (rejoin : Bool) :
      c.record.network = true → Changes build c (.send packet apsSecure o) (leftRecord c.record rejoin)
  | awaiting (packet : Option EdWire.Packet) (apsSecure : UInt8) (o : Output) : c.record.network = true →
      c.record.phase ≠ .left → c.record.phase ≠ .rejoining →
      Changes build c (.send packet apsSecure o) (awaiting c.record)

/-- A plan leads to records of the list only, on the journal and in the caches. -/
def Plan.Leads (build : Build) (c : Context) (t : Task build) (p : Plan) : Prop :=
  (∀ r, p.durable = some r → Changes build c t r) ∧ Changes build c t (p.aim c.record)

theorem leads_stop {c : Context} {t : Task build} (e : Result) : Plan.Leads build c t (.stop e) :=
  ⟨fun r h => by simp [Plan.durable] at h, .same t⟩

theorem leads_store {c : Context} {t : Task build} {r : Record} (reply : Reply) (h : Changes build c t r) :
    Plan.Leads build c t (.store r reply) := by
  refine ⟨fun r' h' => ?_, h⟩
  obtain rfl := Option.some.inj h'
  exact h

theorem leads_stage {c : Context} {t : Task build} {r : Record} (image : Bytes) (phase : Phase)
    (h : Changes build c t r) : Plan.Leads build c t (.stage r image phase) := by
  refine ⟨fun r' h' => ?_, h⟩
  obtain rfl := Option.some.inj h'
  exact h

theorem leads_keep {c : Context} {t : Task build} {r : Record} (reply : Reply) (h : Changes build c t r) :
    Plan.Leads build c t (.keep r reply) := ⟨fun r' h' => by simp [Plan.durable] at h', h⟩

theorem leads_commit {c : Context} {t : Task build} {x : Transmission} {r : Record} (hc : x.commit = some r)
    (hp : x.pending = none) (h : Changes build c t r) : Plan.Leads build c t (.transmit x) := by
  refine ⟨fun r' h' => ?_, ?_⟩
  · obtain rfl := Option.some.inj (h'.symm.trans hc)
    exact h
  · simpa [Plan.aim, hp, hc] using h

theorem Sends.leads {c : Context} {x : Transmission} (h : Sends build c.record x) (hx : x.preflight = true)
    (packet : Option EdWire.Packet) (apsSecure : UInt8) (o : Output) :
    Plan.Leads build c (.send packet apsSecure o) (.transmit x) := by
  cases h with
  | request _ _ _ _ _ hf => simp [hx] at hf
  | verify _ _ _ _ _ _ hf => simp [hx] at hf
  | leave _ _ _ _ hf => simp [hx] at hf
  | rejoin _ _ _ _ hc hp hn hv hk hph => exact leads_commit hc hp (.rejoining _ _ _ hn hv hk hph)
  | depart rejoin _ _ _ _ hc hp hn => exact leads_commit hc hp (.departed _ _ _ rejoin hn)
  | timeout _ _ _ _ hc hp hn hl hj =>
    refine ⟨fun r' h' => ?_, ?_⟩
    · rw [Plan.durable, hc] at h'
      cases h'
    · simpa [Plan.aim, hp] using Changes.awaiting packet apsSecure o hn hl hj
  | data _ _ _ hc hp =>
    refine ⟨fun r' h' => ?_, ?_⟩
    · rw [Plan.durable, hc] at h'
      cases h'
    · simpa [Plan.aim, hp, hc] using Changes.same _

/-- Every call leads to records of the list only. -/
theorem Task.leads (c : Context) (t : Task build) : (t.plan c).Leads build c t := by
  cases t with
  | upgradeParent polls hb =>
    obtain ⟨e, h⟩ | ⟨h, hp, hs⟩ := @upgradeParent_cases c polls <;> rw [Task.plan, h]
    · exact leads_stop e
    · exact leads_store _ (.upgraded polls hb hp hs)
  | rememberParent parent polls hb =>
    obtain ⟨e, h⟩ | ⟨p, h, hr⟩ := @rememberParent_cases build c parent polls <;> rw [Task.plan, h]
    · exact leads_stop e
    · exact leads_store _ (.remembered parent p polls hb hr)
  | selectParent router updateId polls hb =>
    obtain ⟨e, h⟩ | ⟨hr, hp, ⟨h, hk, hu⟩ | h⟩ := @selectParent_cases build c router updateId polls <;>
      rw [Task.plan, h]
    · exact leads_stop e
    · exact leads_store _ (.selected router updateId polls hb hr hp hk hu)
    · exact leads_store _ (.unselected router updateId polls hb hr hp)
  | associate shortAddress polls =>
    obtain ⟨e, h⟩ | ⟨h, hp, h0, h8⟩ := @associate_cases c shortAddress polls <;> rw [Task.plan, h]
    · exact leads_stop e
    · exact leads_stage _ _ (.associated shortAddress polls hp h0 h8)
  | routerParent routerAddress polls hb =>
    obtain ⟨e, h⟩ | ⟨h, hp, hr, h0, h8, hd⟩ := @routerParent_cases build c routerAddress polls <;> rw [Task.plan, h]
    · exact leads_stop e
    · exact leads_stage _ _ (.unbound routerAddress polls hb hp hr h0 h8 hd)
  | receive d =>
    obtain ⟨e, h, -⟩ | ⟨raw, limits, e, w, hraw, -, hv, hw, h3, hl, h⟩ := @receive_cases build c d
    · rw [Task.plan, h]
      exact leads_stop e
    · have hheard := Changes.heard d raw limits e w hraw hv hw h3 hl
      rw [Task.plan, h]
      split
      · obtain hx | ⟨hx, -⟩ := @accepted_cases build w <;> rw [hx]
        · exact leads_store _ hheard
        · exact leads_keep _ hheard
      · obtain hx | ⟨hx, -⟩ := @rejected_cases build w e <;> rw [hx]
        · exact leads_store _ hheard
        · exact leads_keep _ hheard
  | request nwkSeq apsCounter o =>
    obtain ⟨e, h, -⟩ | ⟨t, h, -, -, hc, hn, hp⟩ := @request_cases build c nwkSeq apsCounter o <;>
      rw [Task.plan, h]
    · exact leads_stop e
    · exact leads_commit hc hn (.requested nwkSeq apsCounter o hp)
  | verify nwkSeq apsCounter o =>
    obtain ⟨e, h, -⟩ | ⟨t, h, -, -, hc, hn, hp⟩ := @verify_cases build c nwkSeq apsCounter o <;>
      rw [Task.plan, h]
    · exact leads_stop e
    · exact leads_commit hc hn (.verifying nwkSeq apsCounter o hp)
  | leave nwkSeq o =>
    obtain ⟨e, h, -⟩ | ⟨-, hl, h⟩ | ⟨t, h, -, -, hc, hn, hp⟩ := @leave_cases build c nwkSeq o <;>
      rw [Task.plan, h]
    · exact leads_stop e
    · exact leads_store _ (.abandoned nwkSeq o (.inr hl))
    · exact leads_commit hc hn (.abandoned nwkSeq o (.inl hp))
  | send packet apsSecure o =>
    obtain ⟨e, h, -⟩ | ⟨p, t, -, h, -, -, hx, ht⟩ := @send_cases build c packet apsSecure o <;> rw [Task.plan, h]
    · exact leads_stop e
    · exact ht.leads hx packet apsSecure o

theorem Plan.Fits.shaped {c : Context} {p : Plan} {r : Record} (h : p.Fits build c) (hd : p.durable = some r) :
    Shaped build r := by
  cases h with
  | stop e => simp [Plan.durable] at hd
  | store r' reply hs =>
    obtain rfl := Option.some.inj hd
    exact hs
  | stage r' image phase hs =>
    obtain rfl := Option.some.inj hd
    exact hs
  | keep r' reply => simp [Plan.durable] at hd
  | transmit t hc => exact (hc r hd).1

/-- The plan of a call on a valid record meets the journal. -/
theorem plan_fits (hk : Keys build issued s) (hu : s.phase.used)
    (hv : (stored s).Valid build (held s.counter).length) (t : Task build) :
    (t.plan (context build s)).Fits build (context build s) := by
  have hphase : s.phase = (look build s).phase := (hk.used hu).look_phase.symm
  exact t.fits (overlay_shaped (valid_shaped hv)) hphase (hphase ▸ hu)

/-- Where the saved record can be after a step: gone, as before, a record a call aimed at, or a fresh one. -/
inductive Saves (build : Build) (s : State) (op : Op build) (rep : Report) (m : Option Bytes) : Prop
  | none : m = none → Saves build s op rep m
  | same : m = memory build s.counter → Saves build s op rep m
  | changed (t : Task build) (r : Record) : op = .task t → s.phase.used →
      (stored s).Valid build (held s.counter).length → Hears build s t rep → Shaped build r →
      Changes build (context build s) t r → m = some (r.image build) → Saves build s op rep m
  | fresh (config : Config) (installCode : Option (Vector UInt8 18)) (nwkFloor apsFloor : UInt32) (call : Call)
      (lk : Block) : op = .provision (some config) installCode nwkFloor apsFloor call → s.phase = .unprovisioned →
      (provisioned config zeroKey).ValidConfig → Provides build installCode call lk →
      m = some ((provisioned config lk).image build) → Saves build s op rep m

theorem Moved.saves {op : Op build} {rep : Report} (hk : Keys build issued s) (h : Moved build s op rep s') :
    Saves build s op rep (memory build s'.counter) := by
  cases h with
  | still _ reply _ hs => exact .same hs.memory
  | format => exact .same rfl
  | opened e _ _ hm => exact .same hm
  | provisioned config installCode nwkFloor apsFloor call lk reply _ hp hv hlk hf =>
    have target : ∀ m, Leads build s (some (SecurityKeys.provisioned config lk)) m →
        Saves build s (.provision (some config) installCode nwkFloor apsFloor call) ⟨reply, none, none, []⟩ m :=
      fun m hm => by
        obtain hm | hm | ⟨r, hr, hm⟩ := hm
        · exact .none hm
        · exact .same hm
        · obtain rfl := Option.some.inj hr
          exact .fresh config installCode nwkFloor apsFloor call lk rfl hp hv hlk hm
    cases hf with
    | lost d _ hs hm =>
      rw [hs]
      exact target _ ((memory_cold d).symm ▸ hm)
    | failed _ _ _ hm => exact target _ hm
    | stored _ _ _ _ hm => exact .fresh config installCode nwkFloor apsFloor call lk rfl hp hv hlk hm
  | recommissioned hb _ _ _ hc => exact .same (congrArg _ hc)
  | acted t _ _ hu hv hh ha =>
    have hleads := t.leads (context build s)
    have hfits := plan_fits hk hu hv t
    have target : ∀ m, Leads build s (t.plan (context build s)).durable m → Saves build s (.task t) rep m :=
      fun m hm => by
        obtain hm | hm | ⟨r, hr, hm⟩ := hm
        · exact .none hm
        · exact .same hm
        · exact .changed t r rfl hu hv hh (hfits.shaped hr) (hleads.1 r hr) hm
    cases ha with
    | lost d _ hs hm =>
      rw [hs]
      exact target _ ((memory_cold d).symm ▸ hm)
    | failed _ _ _ hm => exact target _ hm
    | finished reply _ _ _ _ hf =>
      cases hf with
      | aimed _ hm _ =>
        cases hd : (t.plan (context build s)).durable with
        | none =>
          rw [hd] at hm
          exact .same hm
        | some r =>
          rw [hd] at hm
          exact .changed t r rfl hu hv hh (hfits.shaped hd) (hleads.1 r hd) hm
      | declined _ _ _ _ _ _ hm => exact .same hm
  | reset =>
    change Saves build s .reset .dark (memory build (SecurityCounter.cold s.counter.nv.device))
    rw [memory_cold]
    by_cases hr : s.counter.state = .ready
    · rw [SecurityCounter.open_kept (hk.ledger.owner hr).1]
      split
      · exact .none rfl
      · exact .same (memory_ready hr).symm
    · exact .same (memory_unready hr).symm

/-- From one state in use to the next the live record stays or is one a call aimed at. -/
theorem Moved.live {op : Op build} {rep : Report} (h : Moved build s op rep s') (hu : s.phase.used)
    (hu' : s'.phase.used) :
    (look build s' = look build s ∧ rep.nwkHeard = none ∧ rep.apsHeard = none ∧ ∀ t, op ≠ .task t) ∨
    ∃ t, op = .task t ∧ (stored s).Valid build (held s.counter).length ∧ Hears build s t rep ∧
      ∃ reply, rep.reply = some reply ∧
        Finished build (touched s) (t.plan (context build s)) reply rep.sealed s' := by
  cases h with
  | still op reply _ hs _ _ hnt =>
    refine .inl ⟨hs.look, rfl, rfl, fun t ht => ?_⟩
    exact (hnt t ht).1 hu
  | format => exact absurd rfl hu'.2
  | opened e _ hc => simp [hc, Phase.used, Phase.code] at hu
  | provisioned config installCode nwkFloor apsFloor call lk reply _ hp =>
    simp [hp, Phase.used, Phase.code] at hu
  | recommissioned hb _ _ hp => simp [hp, Phase.used, Phase.code] at hu'
  | acted t _ _ _ hv hh ha =>
    cases ha with
    | lost d _ hs =>
      subst hs
      simp [cold, Phase.used, Phase.code] at hu'
    | failed _ hf => exact absurd hf hu'.2
    | finished reply hr _ _ _ hf => exact .inr ⟨t, rfl, hv, hh, reply, hr, hf⟩
  | reset => simp [cold, Phase.used, Phase.code] at hu'

end SecurityKeys
