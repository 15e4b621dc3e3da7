import Cc2530Zigbee.SecurityKeysValid

/-!
# Rejected frames and replayed ones

A frame that is not accepted moves the floors it authenticated against and, under
the newer key, the active slot; nothing else. And while a key stays in its place,
the counters that authenticate under it strictly increase.
-/
namespace SecurityKeys

open Octets
open SecurityCounter (Issued kept held)
open NvRecord (Device)
open CcmStar (Aes Block Limits)

variable {build : Build} {issued : Issued} {s s' : State}

/-- The record once the NWK layer authenticated a frame, or none. -/
def afterNwk (r : Record) : Option NwkHeard → Record
  | none => r
  | some h => heardRecord r h

/-- The record once the APS layer authenticated a frame under the current link key. -/
def afterAps (r : Record) : Option ApsHeard → Record
  | some a => if a.current then { r with af := a.counter + 1 } else r
  | none => r

/-- What authenticated was above its floor, under a key of the record. -/
structure Admissible (r : Record) (nwk : Option NwkHeard) (aps : Option ApsHeard) : Prop where
  nwk : ∀ h, nwk = some h → r.flags.slot h.slot = true ∧ h.key = r.nk h.slot ∧ h.sequence = r.seq h.slot ∧
    floor r h.router h.slot < h.counter + 1
  aps : ∀ a, aps = some a → a.current = true → a.key = r.lk ∧ r.af < a.counter + 1

theorem below_succ {a b : UInt32} (h : a ≤ b) (hb : b ≠ 0xFFFFFFFF) : a < b + 1 :=
  UInt32.lt_of_le_of_lt h (succ_gt hb)

section Stages

variable {aes : Aes} {limits : Limits} {r : Record} {raw : Bytes} {w w' : Work}

theorem NwkStage.after (h : NwkStage build aes limits r raw w) :
    w.record = afterNwk r w.nwkHeard ∧ ∀ x, w.nwkHeard = some x →
      r.flags.slot x.slot = true ∧ x.key = r.nk x.slot ∧ x.sequence = r.seq x.slot ∧
        floor r x.router x.slot < x.counter + 1 := by
  cases h with
  | plain _ hr hh =>
    rw [hh]
    exact ⟨hr, by simp⟩
  | secured x m type text hh _ _ _ _ hs hkey hseq _ _ hf hc hr =>
    rw [hh]
    refine ⟨hr, fun y hy => ?_⟩
    obtain rfl := Option.some.inj hy
    exact ⟨(slotOf_some hs).1, hkey, hseq, below_succ hf hc⟩

theorem ApsStage.after (h : ApsStage build aes limits w w') (hn : w.apsHeard = none) :
    w'.record = afterAps w.record w'.apsHeard ∧ ∀ a, w'.apsHeard = some a → a.current = true →
      a.key = w.record.lk ∧ w.record.af < a.counter + 1 := by
  cases h with
  | plain _ hr hh =>
    rw [hh, hn]
    exact ⟨hr, by simp⟩
  | pending apdu text _ hr hh =>
    rw [hh]
    refine ⟨hr, fun a ha hc => ?_⟩
    obtain rfl := Option.some.inj ha
    cases hc
  | admitted apdu text k _ hr hh _ _ _ hf hc =>
    rw [hh]
    refine ⟨hr, fun a ha _ => ?_⟩
    obtain rfl := Option.some.inj ha
    exact ⟨rfl, below_succ hf hc⟩

/-- A frame that was not accepted leaves what its authentication leaves. -/
theorem Processed.after {e : Result} (h : Processed build aes limits r raw e w) (he : e ≠ .ok) :
    w.record = afterAps (afterNwk r w.nwkHeard) w.apsHeard ∧ Admissible r w.nwkHeard w.apsHeard := by
  have lift : ∀ w₀, NwkStage build aes limits r raw w₀ → w₀.record.lk = r.lk ∧ w₀.record.af = r.af :=
    fun w₀ hn => by
      rw [hn.after.1]
      cases w₀.nwkHeard with
      | none => exact ⟨rfl, rfl⟩
      | some x =>
        rw [afterNwk, heardRecord_eq]
        exact ⟨rfl, rfl⟩
  cases h with
  | refused w₀ _ _ hn hnone _ ha =>
    rw [ha.apsHeard, hnone, ha.passes.nwkHeard, ha.record]
    exact ⟨hn.after.1, hn.after.2, by simp⟩
  | rejected w₀ _ _ hn hnone _ _ ha =>
    obtain ⟨hr, hadm⟩ := ha.after hnone
    rw [(lift w₀ hn).1, (lift w₀ hn).2] at hadm
    rw [ha.passes.nwkHeard]
    refine ⟨?_, hn.after.2, hadm⟩
    rw [hr, hn.after.1]
  | accepted => exact absurd rfl he

end Stages

/-- A receiving call that ran to its end: it stopped before anything
authenticated, or its working storage is in force. -/
inductive Receives (build : Build) (s : State) (x : Delivery) (rep : Report) (reply : Reply) (s' : State) : Prop
  | stopped (e : Result) : e ≠ .ok → reply = .of e → rep.nwkHeard = none → rep.apsHeard = none →
      look build s' = look build s → Receives build s x rep reply s'
  | judged (raw : Bytes) (limits : Limits) (e : Result) (w : Work) : x.raw = some raw →
      Processed build x.call.aes limits (look build s) raw e w → rep.nwkHeard = w.nwkHeard →
      rep.apsHeard = w.apsHeard → look build s' = w.record → (e = .ok → reply = acceptedReply w) →
      (e ≠ .ok → reply = .of e) →
      (w.apsSecured = .admitted → memory build s'.counter = some (w.record.image build)) →
      Receives build s x rep reply s'

/-- A receiving call that did not accept its frame. -/
theorem Receives.rejects {x : Delivery} {reply : Reply} {rep : Report} (h : Receives build s x rep reply s')
    (hne : reply.result ≠ .ok) :
    look build s' = afterAps (afterNwk (look build s) rep.nwkHeard) rep.apsHeard ∧
      Admissible (look build s) rep.nwkHeard rep.apsHeard ∧ reply.received = none := by
  cases h with
  | stopped e _ hr hn ha hl =>
    rw [hn, ha, hr]
    exact ⟨hl, ⟨by simp, by simp⟩, rfl⟩
  | judged raw limits e w _ hw hn ha hl hok hbad _ =>
    have he : e ≠ .ok := fun he => hne (by rw [hok he]; rfl)
    rw [hn, ha, hl, hbad he]
    obtain ⟨h1, h2⟩ := hw.after he
    exact ⟨h1, h2, rfl⟩

section Floors

variable {r : Record} {n : Nat} {i : Bool}

/-- No effect lowers the floors of a slot whose key it keeps, or changes the trust center of a network. -/
theorem Effect.floors {v : Work} {r' : Record} {e : Event} (h : Effect build v r' e)
    (hs : v.record.flags.slot i = true) (hk : r'.nk i = v.record.nk i) :
    (∀ router, floor r' router i = floor v.record router i) ∧ r'.tc = v.record.tc := by
  have same : ∀ x : Record, x.nf = v.record.nf → x.router.nf = v.record.router.nf →
      ∀ router, floor x router i = floor v.record router i := fun x h1 h2 router => by
    simp only [floor, h1, h2]
  cases h with
  | first _ _ hn => simp [slot_network hs] at hn
  | rotate _ _ hm =>
    obtain ⟨-, -, -, hnew⟩ := reused_false hm
    have hne : i ≠ !v.record.flags.active := fun hi => by
      have hnk : Function.update v.record.nk (!v.record.flags.active) (v.packet.field 2 16) i = v.record.nk i := hk
      rw [hi, Function.update_self] at hnk
      exact hnew _ (hi ▸ hs) hnk
    refine ⟨fun router => ?_, rfl⟩
    have hnf : (rotated build v.record (v.packet.field 2 16) v.packet.payload[18]).nf i = v.record.nf i :=
      Function.update_of_ne hne _ _
    have hrnf : (rotated build v.record (v.packet.field 2 16) v.packet.payload[18]).router.nf i =
        v.record.router.nf i := by
      unfold rotated install
      simp only
      split
      · exact Function.update_of_ne hne _ _
      · rfl
    cases router
    · exact hnf
    · exact hrnf
  | rejoined address =>
    have hrest := @rejoinedRecord_rest build v.record address
    refine ⟨same _ (by rw [hrest]) ?_, by rw [hrest]⟩
    cases hrec : v.record.routerRecord build with
    | true => rw [rejoinedRecord_router _ _ hrec]
    | false => rw [(rejoinedRecord_shape v.record address).router hrec]
  | _ => exact ⟨same _ rfl rfl, rfl⟩

theorem floor_heardRecord (x : NwkHeard) (router i : Bool) (h : floor r x.router x.slot ≤ x.counter)
    (hc : x.counter ≠ 0xFFFFFFFF) : floor r router i ≤ floor (heardRecord r x) router i := by
  have hle : floor r x.router x.slot ≤ x.counter + 1 := UInt32.le_of_lt (below_succ h hc)
  rw [heardRecord_eq]
  simp only [floor, refloored] at hle ⊢
  cases router <;> cases hx : x.router <;> simp only [hx, Bool.false_eq_true, if_false, if_true] at hle ⊢
  · exact update_le hle i
  · exact UInt32.le_refl _
  · exact UInt32.le_refl _
  · exact update_le hle i

theorem floor_heard (x : NwkHeard) : floor (heardRecord r x) x.router x.slot = x.counter + 1 := by
  rw [heardRecord_eq]
  simp only [floor, refloored]
  cases x.router <;> simp

variable {aes : Aes} {limits : Limits} {raw : Bytes} {w w' : Work}

theorem NwkStage.floors (h : NwkStage build aes limits r raw w) :
    (∀ router i, floor r router i ≤ floor w.record router i) ∧
    ∀ x, w.nwkHeard = some x → floor w.record x.router x.slot = x.counter + 1 := by
  cases h with
  | plain _ hr hh =>
    rw [hr, hh]
    exact ⟨fun _ _ => UInt32.le_refl _, by simp⟩
  | secured x m type text hh _ _ _ _ _ _ _ _ _ hf hc hr =>
    rw [hr, hh]
    refine ⟨fun router i => floor_heardRecord x router i hf hc, fun y hy => ?_⟩
    obtain rfl := Option.some.inj hy
    exact floor_heard x

theorem ApsStage.floors (h : ApsStage build aes limits w w') (router i : Bool) :
    floor w'.record router i = floor w.record router i := by
  cases h with
  | plain _ hr => rw [hr]
  | pending apdu text _ hr => rw [hr]
  | admitted apdu text k _ hr =>
    rw [hr]
    rfl

theorem Raised.keeps {r r' : Record} (h : Raised r r') : r'.nk = r.nk ∧ r'.seq = r.seq ∧ r'.flags.slot = r.flags.slot ∧
    r'.tc = r.tc ∧ r'.lk = r.lk ∧ r'.pk = r.pk ∧ r'.phase = r.phase := by
  rw [h]
  exact ⟨rfl, rfl, rfl, rfl, rfl, rfl, rfl⟩

/-- A frame never lowers a floor of a slot whose key it keeps, and raises the one it authenticated against. -/
theorem Processed.floors {e : Result} (h : Processed build aes limits r raw e w) (hs : r.flags.slot i = true)
    (hk : w.record.nk i = r.nk i) :
    (∀ router, floor r router i ≤ floor w.record router i) ∧ w.record.tc = r.tc ∧
    ∀ x, w.nwkHeard = some x → x.slot = i → x.counter + 1 ≤ floor w.record x.router i := by
  have quiet : ∀ w₀, NwkStage build aes limits r raw w₀ → ∀ x : Record,
      (∀ router, floor x router i = floor w₀.record router i) →
      (∀ router, floor r router i ≤ floor x router i) ∧
      ∀ y, w₀.nwkHeard = some y → y.slot = i → y.counter + 1 ≤ floor x y.router i := fun w₀ hn x hx => by
    refine ⟨fun router => hx router ▸ hn.floors.1 router i, fun y hy hi => ?_⟩
    subst hi
    rw [hx, hn.floors.2 y hy]
    exact UInt32.le_refl _
  cases h with
  | refused w₀ _ _ hn _ _ ha =>
    obtain ⟨h1, h2⟩ := quiet w₀ hn w.record (fun router => by rw [ha.record])
    rw [ha.passes.nwkHeard]
    exact ⟨h1, by rw [ha.record]; exact hn.raised.keeps.2.2.2.1, h2⟩
  | rejected w₀ _ _ hn _ _ _ ha =>
    obtain ⟨h1, h2⟩ := quiet w₀ hn w.record (fun router => ha.floors router i)
    rw [ha.passes.nwkHeard]
    exact ⟨h1, (hn.raised.trans ha.raised).keeps.2.2.2.1, h2⟩
  | accepted w₀ v r' ev hn _ _ ha he =>
    have hr := (hn.raised.trans ha.raised).keeps
    have hs' : v.record.flags.slot i = true := by
      rw [hr.2.2.1]
      exact hs
    have hk' : r'.nk i = v.record.nk i := by
      rw [hr.1]
      exact hk
    obtain ⟨hf, htc⟩ := he.floors hs' hk'
    obtain ⟨h1, h2⟩ := quiet w₀ hn r' (fun router => (hf router).trans (ha.floors router i))
    refine ⟨h1, htc.trans hr.2.2.2.1, ?_⟩
    change ∀ x, v.nwkHeard = some x → _
    rw [ha.passes.nwkHeard]
    exact h2

/-- No call lowers a floor of a slot whose key it keeps, or changes the trust center of a network. -/
theorem Changes.floors {c : Context} {t : Task build} {r' : Record} (h : Changes build c t r')
    (hv : c.record.Valid build c.size) (hsh : Shaped build c.record) (hs : c.record.flags.slot i = true)
    (hk : r'.nk i = c.record.nk i) :
    (∀ router, floor c.record router i ≤ floor r' router i) ∧ r'.tc = c.record.tc := by
  have hkeyed := hv.keyed (slot_network hs)
  have same : ∀ x : Record, x.nf = c.record.nf → x.router.nf = c.record.router.nf →
      ∀ router, floor c.record router i ≤ floor x router i := fun x h1 h2 router => by
    simp only [floor, h1, h2]
    exact UInt32.le_refl _
  cases h with
  | upgraded polls hb _ hn =>
    have hrec : c.record.routerRecord build = false := by
      by_contra hrec
      have hsize := hv.sized
      rw [Record.size, if_pos (by simpa using hrec)] at hsize
      exact hn hsize
    have hz : c.record.router = .zero := hsh.resolve_left (by simp [hrec])
    exact ⟨same _ rfl (by rw [hz]), rfl⟩
  | remembered parent p polls hb hp =>
    refine ⟨fun router => ?_, rfl⟩
    cases router
    · exact UInt32.le_refl _
    · exact hp.floors i hs
  | associated shortAddress polls hp => exact absurd (.inl (by simp [hp, Phase.code])) hkeyed
  | unbound routerAddress polls hb hp => exact absurd (.inl (by simp [hp, Phase.code])) hkeyed
  | heard d raw limits e w _ _ hw =>
    obtain ⟨h1, h2, -⟩ := hw.floors hs hk
    exact ⟨h1, h2⟩
  | _ => exact ⟨same _ rfl rfl, rfl⟩

end Floors

/-- Frames are heard by receiving calls on a valid record only. -/
theorem Moved.heard {op : Op build} {rep : Report} (hm : Moved build s op rep s')
    (h : rep.nwkHeard ≠ none ∨ rep.apsHeard ≠ none) :
    s.phase.used ∧ (stored s).Valid build (held s.counter).length ∧
    ∃ x raw limits e w, op = .task (.receive x) ∧ Acted build s (.receive x) rep s' ∧
      Hears build s (.receive x) rep ∧ Processed build x.call.aes limits (look build s) raw e w ∧
      rep.nwkHeard = w.nwkHeard ∧ rep.apsHeard = w.apsHeard := by
  cases hm with
  | acted t _ _ hu hv hh ha =>
    cases t with
    | receive x =>
      obtain ⟨e, -, -, hnone⟩ | ⟨raw, limits, e, w, -, -, hver, hw, -⟩ := @receive_cases build (context build s) x
      · rw [hh.nwk, hh.aps, Task.work] at h
        cases hver : verdict build (context build s) x with
        | ok v => exact absurd hver (hnone v)
        | error e => simp [hver] at h
      · refine ⟨hu, hv, x, raw, limits, e, w, rfl, ha, hh, hw, ?_, ?_⟩
        · rw [hh.nwk, Task.work, hver]
          rfl
        · rw [hh.aps, Task.work, hver]
          rfl
    | _ => simp [hh.nwk, hh.aps, Task.work] at h
  | _ => simp [Report.dark] at h

/-- What a report about a heard NPDU says of the record the call loaded. -/
structure HeardNwk (build : Build) (r : Record) (x : NwkHeard) : Prop where
  slot : r.flags.slot x.slot = true
  key : x.key = r.nk x.slot
  sequence : x.sequence = r.seq x.slot
  router : x.router = r.parentRouter build
  source : x.source = r.parentIeee build
  floor : floor r x.router x.slot ≤ x.counter
  top : x.counter ≠ 0xFFFFFFFF
  inspected : ∃ m type, EdWire.inspect .nwk x.raw = .ok (m, type) ∧ x.counter = m.counter ∧ x.source = m.source ∧
    x.sequence = m.keySequence

theorem NwkStage.heard {aes : Aes} {limits : Limits} {r : Record} {raw : Bytes} {w : Work} {x : NwkHeard}
    (h : NwkStage build aes limits r raw w) (hx : w.nwkHeard = some x) : HeardNwk build r x := by
  cases h with
  | plain _ _ hn => simp [hn] at hx
  | secured y m type text hy hraw hi hc hsrc hs hkey hseq hr hsource hf htop =>
    obtain rfl := Option.some.inj (hy.symm.trans hx)
    obtain ⟨hslot, hq⟩ := slotOf_some hs
    exact ⟨hslot, hkey, hseq, hr, hsource, hf, htop, m, type, hraw ▸ hi, hc, hsrc, hseq.trans hq⟩

/-- Only a confirmation moves the APS floor beyond what authentication did. -/
theorem Effect.af_cases {v : Work} {r : Record} {e : Event} (h : Effect build v r e) :
    r.af = v.record.af ∨ (v.pending = true ∧ v.record.phase = .waitConfirm ∧ r.lk = v.record.pk) := by
  cases h with
  | first =>
    refine .inl ?_
    rw [firstKey_rest]
  | rejoined address =>
    refine .inl ?_
    rw [rejoinedRecord_rest]
  | confirm hp hw => exact .inr ⟨hp, hw, rfl⟩
  | _ => exact .inl rfl

/-- What a report about an APDU heard under the current link key says of the record the call loaded. -/
structure HeardAps (r : Record) (a : ApsHeard) : Prop where
  key : a.key = r.lk
  floor : r.af ≤ a.counter
  top : a.counter ≠ 0xFFFFFFFF
  inspected : ∃ m type, EdWire.inspect .aps a.apdu = .ok (m, type) ∧ a.counter = m.counter

theorem heardRecord_af (r : Record) (x : NwkHeard) : (heardRecord r x).af = r.af := by
  rw [heardRecord_eq]
  rfl

section Aps

variable {aes : Aes} {limits : Limits} {r : Record} {raw : Bytes} {w w' : Work}

theorem NwkStage.af (h : NwkStage build aes limits r raw w) : w.record.af = r.af := by
  rw [h.after.1]
  cases w.nwkHeard with
  | none => rfl
  | some x => exact heardRecord_af r x

theorem ApsStage.heard {a : ApsHeard} (h : ApsStage build aes limits w w') (hn : w.apsHeard = none)
    (ha : w'.apsHeard = some a) (hc : a.current = true) :
    HeardAps w.record a ∧ w'.apsSecured = .admitted ∧ w'.pending = false ∧ w'.record.af = a.counter + 1 := by
  cases h with
  | plain _ _ hh => simp [hh, hn] at ha
  | pending apdu text _ _ hh =>
    obtain rfl := Option.some.inj (hh.symm.trans ha)
    cases hc
  | admitted apdu text k _ hr hh hsec hpend _ hf htop hi =>
    obtain rfl := Option.some.inj (hh.symm.trans ha)
    obtain ⟨type, hi⟩ := hi
    refine ⟨⟨rfl, hf, htop, _, type, hi, rfl⟩, hsec, hpend, ?_⟩
    rw [hr]

theorem HeardAps.raised {r r' : Record} {a : ApsHeard} (h : HeardAps r' a) (hr : Raised r r') (haf : r'.af = r.af) :
    HeardAps r a := ⟨h.key.trans hr.keeps.2.2.2.2.1, haf ▸ h.floor, h.top, h.inspected⟩

/-- A frame heard under the current link key raised the APS floor past its counter and is to be saved. -/
theorem Processed.apsHeard {e : Result} {a : ApsHeard} (h : Processed build aes limits r raw e w)
    (ha : w.apsHeard = some a) (hc : a.current = true) :
    HeardAps r a ∧ w.apsSecured = .admitted ∧ w.record.af = a.counter + 1 := by
  cases h with
  | refused w₀ _ _ _ hn _ hr => simp [hr.apsHeard, hn] at ha
  | rejected w₀ _ _ hn hnone _ _ hs =>
    obtain ⟨h1, h2, -, h4⟩ := hs.heard hnone ha hc
    exact ⟨h1.raised hn.raised hn.af, h2, h4⟩
  | accepted w₀ v r' ev hn hnone _ hs he =>
    obtain ⟨h1, h2, h3, h4⟩ := hs.heard hnone ha hc
    refine ⟨h1.raised hn.raised hn.af, h2, ?_⟩
    obtain haf | ⟨hp, -⟩ := he.af_cases
    · exact haf.trans h4
    · simp [h3] at hp

theorem ApsStage.af (h : ApsStage build aes limits w w') : w.record.af ≤ w'.record.af := by
  cases h with
  | plain _ hr =>
    rw [hr]
    exact UInt32.le_refl _
  | pending apdu text _ hr =>
    rw [hr]
    exact UInt32.le_refl _
  | admitted apdu text k _ hr _ _ _ _ hf htop =>
    rw [hr]
    exact UInt32.le_of_lt (below_succ hf htop)

end Aps

/-- No call lowers the APS floor of a link key it keeps. -/
theorem Changes.af {c : Context} {t : Task build} {r : Record} (h : Changes build c t r)
    (hv : c.record.Valid build c.size) (hk : r.lk = c.record.lk) : c.record.af ≤ r.af := by
  cases h with
  | heard d raw limits e w _ _ hw =>
    cases hw with
    | refused w₀ _ _ hn _ _ hr =>
      rw [hr.record, hn.af]
      exact UInt32.le_refl _
    | rejected w₀ _ _ hn _ _ _ hs =>
      rw [← hn.af]
      exact hs.af
    | accepted w₀ v r' ev hn _ _ hs he =>
      obtain haf | ⟨-, hp, hlk⟩ := he.af_cases
      · change c.record.af ≤ r'.af
        rw [haf, ← hn.af]
        exact hs.af
      · have hr := (hn.raised.trans hs.raised).keeps
        have hpend := hv.pending
        unfold Record.ValidPending at hpend
        rw [if_pos (.inr (.inl (hr.2.2.2.2.2.2.symm.trans hp)))] at hpend
        have hk : r'.lk = c.record.lk := hk
        exact absurd (hr.2.2.2.2.2.1.symm.trans (hlk.symm.trans hk)) hpend.2.2
  | _ => exact UInt32.le_refl _

end SecurityKeys
