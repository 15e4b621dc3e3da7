import Cc2530Zigbee.SecurityKeysRuns

/-!
# What the saved record goes through

The link key, the pending key and the network update identifier of the saved
record, over every run: which call can change them, and what that call heard.
-/
namespace SecurityKeys

open Octets
open SecurityCounter (Issued kept held)
open NvRecord (Device)
open CcmStar (Aes Block Limits)
open EdWire (at1 at2)

variable {build : Build} {issued : Issued} {s s' : State}

/-- The record in the owner's hands, or the one a start would find. -/
def saved (build : Build) (s : State) : Option Record := (memory build s.counter).map Record.decode

/-- The call puts a fresh record in place of the old one. -/
def Op.Provisions (s : State) : Op build → Prop
  | .provision _ _ _ _ _ => s.phase = .unprovisioned
  | _ => False

/-- What authenticating a frame can change: floors and the active slot. -/
def Raised (r r' : Record) : Prop :=
  r' = { r with
    nf := r'.nf
    af := r'.af
    flags := { r.flags with active := r'.flags.active, newer := r'.flags.newer }
    router := { r.router with nf := r'.router.nf } }

theorem Raised.refl (r : Record) : Raised r r := rfl

theorem Raised.trans {r r' r'' : Record} (h : Raised r r') (h' : Raised r' r'') : Raised r r'' := by
  unfold Raised at *
  rw [h] at h'
  exact h'

theorem raiseFloor_raised (r : Record) (router i : Bool) (value : UInt32) :
    Raised r (raiseFloor r router i value) := by
  unfold raiseFloor
  split <;> rfl

theorem heardRecord_raised (r : Record) (h : NwkHeard) : Raised r (heardRecord r h) := by
  have hr := raiseFloor_raised r h.router h.slot (h.counter + 1)
  unfold heardRecord
  simp only
  split
  · exact hr.trans rfl
  · exact hr

section Stages

variable {aes : Aes} {limits : Limits} {r : Record} {raw : Bytes} {w w' : Work}

theorem NwkStage.raised (h : NwkStage build aes limits r raw w) : Raised r w.record := by
  cases h with
  | plain _ hr =>
    rw [hr]
    exact .refl r
  | secured x m type text _ _ _ _ _ _ _ _ _ _ _ _ hr =>
    rw [hr]
    exact heardRecord_raised r x

theorem ApsStage.raised (h : ApsStage build aes limits w w') : Raised w.record w'.record := by
  cases h with
  | plain _ hr =>
    rw [hr]
    exact .refl _
  | pending apdu text _ hr =>
    rw [hr]
    exact .refl _
  | admitted apdu text k _ hr =>
    rw [hr]
    rfl

/-- A frame changes what its authentication changes; an accepted one then has its effect. -/
theorem Processed.cases {e : Result} (h : Processed build aes limits r raw e w) :
    (e ≠ .ok ∧ Raised r w.record) ∨
    ∃ w₀ v r' ev, Raised r v.record ∧ ApsStage build aes limits w₀ v ∧ Raised r w₀.record ∧
      w₀.pending = false ∧ Effect build v r' ev ∧ e = .ok ∧ w = { v with record := r', event := ev } := by
  cases h with
  | refused w₀ _ _ hn _ he ha =>
    refine .inl ⟨he, ?_⟩
    rw [ha.record]
    exact hn.raised
  | rejected w₀ _ _ hn _ he _ ha => exact .inl ⟨he, hn.raised.trans ha.raised⟩
  | accepted w₀ v r' ev hn _ hp ha he =>
    exact .inr ⟨w₀, v, r', ev, hn.raised.trans ha.raised, ha, hn.raised, hp, he, rfl, rfl⟩

end Stages

/-- The saved record after a call that does not provision: as before, or one the call aimed at. -/
theorem saved_cases {op : Op build} {rep : Report} (hk : Keys build issued s) (hm : Moved build s op rep s')
    (hp : ¬ op.Provisions s) {r r' : Record} (h : saved build s = some r) (h' : saved build s' = some r') :
    r' = r ∨ ∃ t, op = .task t ∧ s.phase.used ∧ (stored s).Valid build (held s.counter).length ∧
      Hears build s t rep ∧ r = stored s ∧ Changes build (context build s) t r' := by
  unfold saved at h'
  cases hm.saves hk with
  | none hn => simp [hn] at h'
  | same hs =>
    rw [hs] at h'
    exact .inl (Option.some.inj (h'.symm.trans h))
  | changed t x ht hu hv hh hx hc hi =>
    rw [hi, Option.map_some, decode_image hx] at h'
    obtain rfl := Option.some.inj h'
    rw [saved, memory_ready (hk.used hu).ready] at h
    exact .inr ⟨t, ht, hu, hv, hh, (Option.some.inj h).symm, hc⟩
  | fresh config installCode nwkFloor apsFloor call lk ho hu =>
    rw [ho] at hp
    exact absurd hu hp

/-! The network update identifier. -/

theorem rejoinedRecord_update (r : Record) (address : UInt16) :
    (rejoinedRecord build r address).update = r.update ∨
    (r.routerRecord build = true ∧ r.router.flags.attempt = true ∧
      (rejoinedRecord build r address).update = r.router.update) := by
  have hr : Record.routerRecord build { r with addr := address } = r.routerRecord build := rfl
  unfold rejoinedRecord
  simp only [hr]
  split
  · rename_i h1
    split
    · rename_i h2
      exact .inr ⟨h1, h2, rfl⟩
    · exact .inl rfl
  · exact .inl rfl

theorem Effect.update_cases {v : Work} {r : Record} {e : Event} (h : Effect build v r e) :
    r.update = v.record.update ∨
    (r.update - v.record.update ≠ 0 ∧ r.update - v.record.update < 128) ∨
    (v.record.phase = .rejoining ∧ v.record.routerRecord build = true ∧ v.record.router.flags.attempt = true ∧
      r.update = v.record.router.update) := by
  have bound : ∀ (x : Record) source, (bindTc build x source).update = x.update := fun x source => by
    unfold bindTc
    split <;> rfl
  cases h with
  | first => exact .inl (bound _ _)
  | update id pan _ _ hne hlt => exact .inr (.inl ⟨hne, hlt⟩)
  | rejoined address _ hp =>
    obtain h | h := @rejoinedRecord_update build v.record address
    · exact .inl h
    · exact .inr (.inr ⟨hp, h⟩)
  | _ => exact .inl rfl

theorem Changes.update_cases {c : Context} {t : Task build} {r : Record} (h : Changes build c t r) :
    r.update = c.record.update ∨
    ∃ d, t = .receive d ∧ ((r.update - c.record.update ≠ 0 ∧ r.update - c.record.update < 128) ∨
      (c.record.phase = .rejoining ∧ c.record.routerRecord build = true ∧
        c.record.router.flags.attempt = true ∧ r.update = c.record.router.update)) := by
  cases h with
  | heard d raw limits e w _ _ hw =>
    obtain ⟨-, hr⟩ | ⟨w₀, v, r', ev, hr, -, -, -, he, -, rfl⟩ := hw.cases
    · refine .inl ?_
      rw [hr]
    · have hv : v.record.update = c.record.update ∧ v.record.phase = c.record.phase ∧
          v.record.routerRecord build = c.record.routerRecord build ∧
          v.record.router.flags = c.record.router.flags ∧ v.record.router.update = c.record.router.update := by
        rw [hr]
        exact ⟨rfl, rfl, rfl, rfl, rfl⟩
      have hcases := he.update_cases
      rw [hv.1, hv.2.1, hv.2.2.1, hv.2.2.2.1, hv.2.2.2.2] at hcases
      obtain h | h | h := hcases
      · exact .inl h
      · exact .inr ⟨d, rfl, .inl h⟩
      · exact .inr ⟨d, rfl, .inr h⟩
  | _ => exact .inl rfl

/-- The snapshot a granted rejoin would bring into force is not behind the update identifier. -/
def SnapshotCurrent (build : Build) (s : State) : Op build → Prop
  | .task (.receive _) => (look build s).phase = .rejoining → (look build s).routerRecord build = true →
      (look build s).router.flags.attempt = true → (look build s).router.update - (look build s).update < 128
  | _ => True

/-- A step moves the saved update identifier forwards or not at all. -/
def UpdateForward (build : Build) (s : State) (op : Op build) : Prop :=
  ¬ op.Provisions s → ∀ r r', saved build s = some r → saved build (step build s op).2 = some r' →
    r'.update ≠ r.update → 1 ≤ (r'.update - r.update).toNat ∧ (r'.update - r.update).toNat ≤ 127

theorem ahead {u u' : UInt8} (hne : u' - u ≠ 0) (hlt : u' - u < 128) :
    1 ≤ (u' - u).toNat ∧ (u' - u).toNat ≤ 127 := by
  have h0 : (u' - u).toNat ≠ 0 := fun h => hne (UInt8.toNat_inj.1 h)
  have h128 : (u' - u).toNat < 128 := UInt8.lt_iff_toNat_lt.1 hlt
  omega

theorem update_step (hk : Keys build issued s) (op : Op build) (hs : SnapshotCurrent build s op) :
    UpdateForward build s op := by
  intro hp r r' h h' hne
  obtain rfl | ⟨t, rfl, hu, -, -, rfl, hc⟩ := saved_cases hk (step_moved hk op).2 hp h h'
  · exact absurd rfl hne
  · obtain heq | ⟨d, rfl, ⟨h0, hlt⟩ | ⟨h1, h2, h3, heq⟩⟩ := hc.update_cases
    · exact absurd heq hne
    · exact ahead h0 hlt
    · have hlt := hs h1 h2 h3
      have heq : r'.update = (look build s).router.update := heq
      rw [← heq] at hlt
      refine ahead (fun h0 => hne ?_) hlt
      exact (sub_eq_zero.1 h0 : r'.update = (look build s).update)

/-- In a run whose rejoins find a snapshot that is not behind, the saved update
identifier only moves forwards: by 1 to 127 modulo 256 at a time. -/
theorem update_forward (build : Build) (d : Device) (ops : List (Op build))
    (h : Runs.Meets (step build) (SnapshotCurrent build) (cold d) ops) :
    Runs.Meets (step build) (UpdateForward build) (cold d) ops := by
  refine Runs.meets_imp (step build) (SnapshotCurrent build) (UpdateForward build)
    (fun s => ∃ issued, Keys build issued s) (fun s op ⟨issued, hk⟩ _ => ⟨_, (step_moved hk op).1⟩)
    (fun s op ⟨issued, hk⟩ hs => update_step hk op hs) (cold d) ⟨_, run_keys d []⟩ ops h

/-! Link keys. -/

/-- The delivery is a Transport Key of type 4 that authenticated under the link
key, with key identifier 3, while a key was requested; its material is new. -/
structure Delivers (build : Build) (s : State) (d : Delivery) (rep : Report) (material : Block) : Prop where
  phase : s.phase = .requested
  heard : ∃ x, rep.apsHeard = some x ∧ x.current = true ∧ x.key = (stored s).lk
  packet : ∃ w, verdict build (context build s) d = .ok (.ok, w) ∧ Commands w 5 ∧ getElem w.packet.payload 1 at1 = 4 ∧
    w.keyId = 3 ∧ w.packet.field 2 16 = material
  link : material ≠ (stored s).lk
  tombstone : material ≠ (stored s).pk
  network : ∀ i, material ≠ (stored s).nk i

theorem reused_false {r : Record} {m : Block} (h : reused r m = false) :
    m ≠ zeroKey ∧ m ≠ r.lk ∧ m ≠ r.pk ∧ ∀ i, r.flags.slot i = true → m ≠ r.nk i := by
  simp only [reused, Bool.or_eq_false_iff, beq_eq_false_iff_ne, Bool.and_eq_false_imp, bne_iff_ne] at h
  obtain ⟨⟨⟨⟨h0, hl⟩, hp⟩, hf⟩, ht⟩ := h
  refine ⟨h0, hl, fun he => ?_, fun i hi => ?_⟩
  · exact hp (he ▸ h0) he
  · cases i
    · exact hf hi
    · exact ht hi

/-- The reply a plan carries. -/
def Plan.reply : Plan → Option Reply
  | .store _ reply => some reply
  | .keep _ reply => some reply
  | _ => none

theorem publish_received (o : Output) (frame : Bytes) : (publish o frame).received = none := by
  unfold publish
  split <;> rfl

theorem Plan.Answers.received {p : Plan} {reply : Reply} {log : List Sealing} {x : Received}
    (h : p.Answers build s reply log) (hx : reply.received = some x) : p.reply = some reply := by
  cases p with
  | stop e =>
    rw [h.1] at hx
    cases hx
  | store r answer => exact congrArg some h.1.symm
  | stage r image phase =>
    rw [h.1] at hx
    cases hx
  | keep r answer => exact congrArg some h.1.symm
  | transmit t =>
    obtain ⟨frame, s', -, -, hr⟩ := h
    rw [hr, publish_received] at hx
    cases hx

/-- Only a receiving call publishes a packet, the one of its verdict. -/
theorem Task.received {c : Context} {t : Task build} {reply : Reply} {x : Received}
    (h : (t.plan c).reply = some reply) (hx : reply.received = some x) :
    ∃ d w, t = .receive d ∧ verdict build c d = .ok (.ok, w) ∧ x.event = w.event ∧
      ∃ raw limits, Processed build d.call.aes limits c.record raw .ok w := by
  cases t with
  | upgradeParent polls hb =>
    obtain ⟨e, he⟩ | ⟨he, -⟩ := @upgradeParent_cases c polls <;> rw [Task.plan, he] at h <;> cases h
    cases hx
  | rememberParent parent polls hb =>
    obtain ⟨e, he⟩ | ⟨p, he, -⟩ := @rememberParent_cases build c parent polls <;> rw [Task.plan, he] at h <;> cases h
    cases hx
  | selectParent router updateId polls hb =>
    obtain ⟨e, he⟩ | ⟨-, -, ⟨he, -⟩ | he⟩ := @selectParent_cases build c router updateId polls <;>
      rw [Task.plan, he] at h <;> cases h
    · cases hx
    · cases hx
  | associate shortAddress polls =>
    obtain ⟨e, he⟩ | ⟨he, -⟩ := @associate_cases c shortAddress polls <;> rw [Task.plan, he] at h <;> cases h
  | routerParent routerAddress polls hb =>
    obtain ⟨e, he⟩ | ⟨he, -⟩ := @routerParent_cases build c routerAddress polls <;> rw [Task.plan, he] at h <;> cases h
  | receive d =>
    obtain ⟨e, he, -⟩ | ⟨raw, limits, e, w, -, -, hv, hw, -, -, he⟩ := @receive_cases build c d <;>
      rw [Task.plan, he] at h
    · cases h
    · by_cases hok : e = .ok
      · subst hok
        rw [if_pos rfl] at h
        refine ⟨d, w, rfl, hv, ?_, raw, limits, hw⟩
        have hreply : reply = acceptedReply w := by
          obtain ha | ⟨ha, -⟩ := @accepted_cases build w <;> rw [ha] at h <;> exact (Option.some.inj h).symm
        rw [hreply] at hx
        cases hx
        rfl
      · rw [if_neg hok] at h
        obtain ha | ⟨ha, -⟩ := @rejected_cases build w e <;> rw [ha] at h <;> cases h <;> cases hx
  | request nwkSeq apsCounter o =>
    obtain ⟨e, he, -⟩ | ⟨t, he, -⟩ := @request_cases build c nwkSeq apsCounter o <;> rw [Task.plan, he] at h <;> cases h
  | verify nwkSeq apsCounter o =>
    obtain ⟨e, he, -⟩ | ⟨t, he, -⟩ := @verify_cases build c nwkSeq apsCounter o <;> rw [Task.plan, he] at h <;> cases h
  | leave nwkSeq o =>
    obtain ⟨e, he, -⟩ | ⟨-, -, he⟩ | ⟨t, he, -⟩ := @leave_cases build c nwkSeq o <;> rw [Task.plan, he] at h <;> cases h
    cases hx
  | send packet apsSecure o =>
    obtain ⟨e, he, -⟩ | ⟨p, t, -, he, -⟩ := @send_cases build c packet apsSecure o <;> rw [Task.plan, he] at h <;> cases h

/-- A step that publishes a packet or a frame is a call that ran to its end. -/
theorem Moved.published {op : Op build} {rep : Report} (h : Moved build s op rep s') {reply : Reply}
    (hr : rep.reply = some reply) (hx : reply.received ≠ none ∨ reply.frame ≠ none) :
    ∃ t, op = .task t ∧ s.phase.used ∧ (stored s).Valid build (held s.counter).length ∧ Hears build s t rep ∧
      (t.plan (context build s)).Answers build (touched s) reply rep.sealed := by
  have plain : ∀ e, some (Reply.of e) ≠ some reply := fun e he => by
    obtain rfl := Option.some.inj he
    obtain hx | hx := hx <;> exact hx rfl
  cases h with
  | still _ reply' _ _ h1 h2 =>
    obtain rfl := Option.some.inj hr
    obtain hx | hx := hx
    · exact absurd h1 hx
    · exact absurd h2 hx
  | format => exact absurd hr (plain _)
  | opened => exact absurd hr (plain _)
  | provisioned config installCode nwkFloor apsFloor call lk reply' _ _ _ _ hf =>
    have hr : reply' = some reply := hr
    cases hf with
    | lost d hn => simp [hn] at hr
    | failed hn => exact absurd (hn.symm.trans hr) (plain _)
    | stored hn => exact absurd (hn.symm.trans hr) (plain _)
  | recommissioned => exact absurd hr (plain _)
  | acted t _ _ hu hv hh ha =>
    cases ha with
    | lost d hn => simp [hn] at hr
    | failed hn => exact absurd (hn.symm.trans hr) (plain _)
    | finished reply' hn _ _ _ hf =>
      obtain rfl := Option.some.inj (hn.symm.trans hr)
      cases hf with
      | aimed _ _ hans => exact ⟨t, rfl, hu, hv, hh, hans⟩
      | declined _ e _ he => exact absurd (congrArg some he.symm) (plain e)
  | reset => cases hr

/-- Application data reaches the caller of a verified device only. -/
theorem Processed.data {aes : Aes} {limits : Limits} {r : Record} {raw : Bytes} {w : Work}
    (h : Processed build aes limits r raw .ok w) (he : w.event = .data) : r.flags.wasVerified = true := by
  obtain ⟨hn, -⟩ | ⟨w₀, v, r', ev, hr, -, -, -, heff, -, rfl⟩ := h.cases
  · exact absurd rfl hn
  · obtain rfl : ev = .data := he
    cases heff with
    | data hv =>
      rw [hr] at hv
      exact hv

section Step

variable {op : Op build} {rep : Report}

end Step

end SecurityKeys
