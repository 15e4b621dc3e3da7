import Cc2530Zigbee.SecurityKeysReceive

/-!
# What a received frame can do

One inversion for each stage of `security_keys_receive`: the NWK layer raises
one floor and may switch slots, the APS layer may raise the APS floor, and the
dispatch either refuses and leaves the record alone or has one of the effects
listed here. Everything later about received frames is read off this list.
-/
namespace SecurityKeys

open Octets
open CcmStar (Aes Block Limits)
open EdWire (at0 at1 at2 at18)

variable {build : Build} {aes : Aes} {limits : Limits}

/-- The packet is an APS command with a code. -/
structure Commands (w : Work) (code : UInt8) : Prop where
  nwk : w.packet.nwk.type ≠ EdWire.nwkCommand
  aps : w.packet.aps.type = EdWire.apsCommand
  code : getElem w.packet.payload 0 at0 = code

/-- A Transport Key command of a type, authenticated under the current link key. -/
structure Transported (w : Work) (type : UInt8) : Prop where
  command : Commands w 5
  typed : getElem w.packet.payload 1 at1 = type
  secured : w.apsSecured ≠ .plain
  current : w.pending = false
  keyId : w.keyId = transportKeyId type

/-- The record and the event of an accepted frame. -/
inductive Effect (build : Build) (w : Work) : Record → Event → Prop
  | data : w.record.flags.wasVerified = true → Effect build w w.record .data
  | management : Effect build w w.record .management
  | repeated (i : Bool) : Transported w 1 → slotOf w.record (getElem w.packet.payload 18 at18) = some i →
      w.packet.field 2 16 = w.record.nk i → Effect build w w.record .networkKey
  | first : Transported w 1 → reused w.record (w.packet.field 2 16) = false → w.record.network = false →
      w.record.phase = .associated →
      Effect build w (firstKey build w.record w.info.source (w.packet.field 2 16) (getElem w.packet.payload 18 at18)) .networkKey
  | rotate : Transported w 1 → slotOf w.record (getElem w.packet.payload 18 at18) = none →
      reused w.record (w.packet.field 2 16) = false → w.record.network = true →
      w.record.flags.wasVerified = true → getElem w.packet.payload 18 at18 = w.record.seq (newest w.record) + 1 →
      Effect build w (rotated build w.record (w.packet.field 2 16) (getElem w.packet.payload 18 at18)) .networkKey
  | link : Transported w 4 → w.record.phase = .requested →
      reused w.record (w.packet.field 2 16) = false →
      Effect build w (pendingKey w.record (w.packet.field 2 16)) .tcKey
  | confirm : w.pending = true → w.record.phase = .waitConfirm → Commands w 16 →
      getElem w.packet.payload 1 at1 = 0 → getElem w.packet.payload 2 at2 = 4 → w.packet.field 3 8 = w.record.own →
      Effect build w (confirmed w.record w.info.counter) .verified
  | switchSame : getElem w.packet.payload 1 at1 = w.record.seq w.record.flags.active → Effect build w w.record .switch
  | switch : Commands w 9 → w.record.flags.newer = true → w.secured ≠ .plain →
      getElem w.packet.payload 1 at1 = w.record.seq (!w.record.flags.active) →
      Effect build w (adopt w.record (!w.record.flags.active)) .switch
  | leave (rejoin : Bool) : w.packet.nwk.type = EdWire.nwkCommand → w.secured ≠ .plain →
      Effect build w (leftRecord w.record rejoin) .leave
  | updateSame : Effect build w w.record .update
  | update (id : UInt8) (pan : UInt16) : w.packet.nwk.type = EdWire.nwkCommand → w.record.phase ≠ .rejoining → id - w.record.update ≠ 0 →
      id - w.record.update < 128 → pan ≠ 0xFFFF →
      Effect build w { w.record with update := id, pan := pan } .update
  | refused : w.record.phase = .rejoining → Effect build w w.record .rejoinRefused
  | rejoined (address : UInt16) : w.packet.nwk.type = EdWire.nwkCommand → w.record.phase = .rejoining → address ≠ 0 → address < 0xFFF8 →
      (w.record.routerRecord build = true → w.record.router.flags.known = true →
        address ≠ w.record.router.addr) →
      Effect build w (rejoinedRecord build w.record address) .rejoined
  | timeout (status information : UInt8) : w.packet.nwk.type = EdWire.nwkCommand → w.secured ≠ .plain →
      w.record.phase ≠ .rejoining →
      w.record.phaseByte.timeoutPending = true → Effect build w (answered w.record status information) .management

/-- A validator refuses and leaves the working storage alone, or has an effect. -/
def Judged (build : Build) (w : Work) (o : Result × Work) : Prop :=
  (o.1 ≠ .ok ∧ o.2 = w) ∨
  ∃ r e, o = (.ok, { w with record := r, event := e }) ∧ Effect build w r e

theorem judged_refused {w : Work} {e : Result} (h : e ≠ .ok) : Judged build w (e, w) := .inl ⟨h, rfl⟩

theorem judged_same {w : Work} {e : Event} (h : Effect build w w.record e) :
    Judged build w (.ok, { w with event := e }) := .inr ⟨w.record, e, rfl, h⟩

theorem transportLink_judged (w : Work) (ht : Transported w 4) : Judged build w (transportLink w) := by
  unfold transportLink
  simp only
  split
  · exact judged_refused (by simp)
  · rename_i hp
    split
    · exact judged_refused (by simp)
    · rename_i hr
      exact .inr ⟨_, _, rfl, .link ht (not_not.1 hp) (by simpa using hr)⟩

theorem transportNetwork_judged (w : Work) (ht : Transported w 1) :
    Judged build w (transportNetwork build w) := by
  unfold transportNetwork
  simp only
  cases hs : slotOf w.record w.packet.payload[18] with
  | some i =>
    simp only
    split
    · exact judged_refused (by simp)
    · rename_i hm
      exact judged_same (.repeated i ht hs (not_not.1 hm))
  | none =>
    simp only
    split
    · exact judged_refused (by simp)
    · rename_i hr
      have hr : reused w.record (w.packet.field 2 16) = false := by simpa using hr
      split
      · rename_i hn
        split
        · exact judged_refused (by simp)
        · rename_i hp
          exact .inr ⟨_, _, rfl, .first ht hr hn (not_not.1 hp)⟩
      · rename_i hn
        split
        · exact judged_refused (by simp)
        · rename_i hv
          split
          · exact judged_refused (by simp)
          · rename_i hq
            exact .inr ⟨_, _, rfl, .rotate ht hs hr (by simpa using hn) (by simpa using hv) (not_not.1 hq)⟩

theorem transport_judged (w : Work) (hc : Commands w 5) : Judged build w (transport build w) := by
  unfold transport
  simp only
  split
  · exact judged_refused (by simp)
  · rename_i hs
    obtain ⟨hs, hp, -⟩ : w.apsSecured ≠ .plain ∧ w.pending = false ∧ ¬ w.packet.length < 2 := by
      simpa [not_or] using hs
    split
    · exact judged_refused (by simp)
    · rename_i ht
      split
      · exact judged_refused (by simp)
      · rename_i hk
        split
        · exact judged_refused (by simp)
        · split
          · exact judged_refused (by simp)
          · split
            · rename_i h4
              exact transportLink_judged w ⟨hc, h4, hs, hp, by simpa [h4] using hk⟩
            · rename_i h4
              have h1 : w.packet.payload[1] = 1 := by
                by_contra h1
                exact ht ⟨h1, h4⟩
              exact transportNetwork_judged w ⟨hc, h1, hs, hp, by simpa [h1] using hk⟩

theorem confirmKey_judged (w : Work) (hc : Commands w 16) : Judged build w (confirmKey w) := by
  unfold confirmKey
  simp only
  split
  · exact judged_refused (by simp)
  · rename_i hp
    split
    · exact judged_refused (by simp)
    · rename_i hf
      split
      · exact judged_refused (by simp)
      · rename_i hi
        simp only [not_or, not_not, Bool.not_eq_false] at hp hf hi
        exact .inr ⟨_, _, rfl, .confirm hp.2.1 hp.2.2 hc hf.2.1 hf.2.2 hi.2⟩

theorem switchKey_judged (w : Work) (hc : Commands w 9) : Judged build w (switchKey w) := by
  unfold switchKey
  simp only
  split
  · exact judged_refused (by simp)
  · rename_i hs
    split
    · exact judged_refused (by simp)
    · split
      · rename_i he
        exact judged_same (.switchSame he)
      · split
        · exact judged_refused (by simp)
        · rename_i hn
          simp only [not_or, not_not, Bool.not_eq_false] at hs hn
          exact .inr ⟨_, _, rfl, .switch hc hn.1 hs.1 hn.2⟩

theorem apsCommand_judged (w : Work) (hn : w.packet.nwk.type ≠ EdWire.nwkCommand)
    (ha : w.packet.aps.type = EdWire.apsCommand) : Judged build w (apsCommand build w) := by
  unfold apsCommand
  simp only
  split
  · exact judged_refused (by simp)
  · split
    · rename_i h5
      exact transport_judged w ⟨hn, ha, h5⟩
    · split
      · rename_i h16
        exact confirmKey_judged w ⟨hn, ha, h16⟩
      · split
        · rename_i h9
          exact switchKey_judged w ⟨hn, ha, h9⟩
        · exact judged_refused (by simp)

theorem leaveCommand_judged (w : Work) (hn : w.packet.nwk.type = EdWire.nwkCommand) (hs : w.secured ≠ .plain) : Judged build w (leaveCommand w) := by
  unfold leaveCommand
  simp only
  split
  · exact judged_refused (by simp)
  · split
    · exact judged_refused (by simp)
    · exact .inr ⟨_, _, rfl, .leave _ hn hs⟩

theorem updateCommand_judged (w : Work) (hn : w.packet.nwk.type = EdWire.nwkCommand)
    (hp : w.record.phase ≠ .rejoining) : Judged build w (updateCommand w) := by
  unfold updateCommand
  simp only
  split
  · exact judged_refused (by simp)
  · split
    · exact judged_refused (by simp)
    · rename_i hi
      split
      · exact judged_refused (by simp)
      · rename_i hd
        simp only [not_or] at hi hd
        split
        · rename_i hz
          exact .inr ⟨_, _, rfl, .update _ _ hn hp hz (UInt8.not_le.1 hd.1) hi.2⟩
        · exact judged_same .updateSame

theorem rejoinResponse_judged (w : Work) (hn : w.packet.nwk.type = EdWire.nwkCommand) : Judged build w (rejoinResponse build w) := by
  unfold rejoinResponse
  simp only
  split
  · exact judged_refused (by simp)
  · rename_i hp
    have hp := not_not.1 hp
    split
    · exact judged_refused (by simp)
    · split
      · exact judged_refused (by simp)
      · split
        · split
          · exact judged_refused (by simp)
          · exact judged_same (.refused hp)
        · split
          · exact judged_refused (by simp)
          · rename_i ha
            split
            · exact judged_refused (by simp)
            · rename_i hr
              simp only [not_or, UInt16.not_le] at ha
              exact .inr ⟨_, _, rfl, .rejoined _ hn hp ha.1 ha.2 fun h1 h2 h3 => hr ⟨h1, h2, h3⟩⟩

theorem timeoutResponse_judged (w : Work) (hn : w.packet.nwk.type = EdWire.nwkCommand) (hs : w.secured ≠ .plain) (hp : w.record.phase ≠ .rejoining) :
    Judged build w (timeoutResponse w) := by
  unfold timeoutResponse
  simp only
  split
  · exact judged_refused (by simp)
  · split
    · exact judged_refused (by simp)
    · rename_i ht
      exact .inr ⟨_, _, rfl, .timeout _ _ hn hs hp (by simpa using ht)⟩

theorem nwkCommand_judged (w : Work) (hn : w.packet.nwk.type = EdWire.nwkCommand) : Judged build w (nwkCommand build w) := by
  unfold nwkCommand
  simp only
  split
  · exact judged_refused (by simp)
  · rename_i hs
    have hs : w.secured ≠ .plain := fun h => hs (.inl h)
    split
    · exact judged_refused (by simp)
    · split
      · exact judged_refused (by simp)
      · split
        · exact judged_refused (by simp)
        · rename_i hr
          split
          · exact leaveCommand_judged w hn hs
          · rename_i h4
            split
            · rename_i h10
              refine updateCommand_judged w hn fun h => hr ⟨h, ?_, h4⟩
              rw [h10]
              decide
            · split
              · exact rejoinResponse_judged w hn
              · rename_i h7
                split
                · exact timeoutResponse_judged w hn hs fun h => hr ⟨h, h7, h4⟩
                · split
                  · split
                    · exact judged_refused (by simp)
                    · exact judged_same .management
                  · exact judged_refused (by simp)

/-- The dispatch, with its event reset before the validators see it. -/
theorem dispatch_judged (w : Work) :
    ((dispatch build w).1 ≠ .ok ∧ (dispatch build w).2 = w) ∨
      Judged build { w with event := .data } (dispatch build w) := by
  unfold dispatch
  simp only
  split
  · exact .inl ⟨by simp, rfl⟩
  · split
    · exact .inl ⟨by simp, rfl⟩
    · split
      · exact .inl ⟨by simp, rfl⟩
      · right
        split
        · rename_i hc
          exact nwkCommand_judged _ hc
        · rename_i hn
          split
          · rename_i ha
            exact apsCommand_judged _ hn ha
          · split
            · exact judged_refused (by simp)
            · split
              · exact judged_same .management
              · split
                · exact judged_refused (by simp)
                · rename_i hv
                  exact judged_same (.data (by simpa using hv))

/-! The APS layer. -/

/-- What the NWK layer decided stays decided. -/
structure Passes (w w' : Work) : Prop where
  sender : w'.sender = w.sender
  secured : w'.secured = w.secured
  nwkHeard : w'.nwkHeard = w.nwkHeard

/-- The APS layer of an accepted frame: none, the pending key, or the current link key. -/
inductive ApsStage (build : Build) (aes : Aes) (limits : Limits) (w w' : Work) : Prop
  | plain : Passes w w' → w'.record = w.record → w'.apsHeard = w.apsHeard → w'.apsSecured = .plain →
      w'.pending = w.pending → ApsStage build aes limits w w'
  | pending (apdu text : Bytes) : Passes w w' → w'.record = w.record →
      w'.apsHeard = some ⟨false, w.record.pk, w'.info.counter, apdu⟩ → w'.apsSecured = .marked →
      w'.pending = true → w.record.phase = .waitConfirm →
      EdWire.openFrame aes .aps ⟨w.record.pk, w.record.tc, 0, 5, 0, 0, 1, limits⟩ apdu 116 = .ok text →
      ApsStage build aes limits w w'
  | admitted (apdu text : Bytes) (k : EdWire.Key) : Passes w w' →
      w'.record = { w.record with af := w'.info.counter + 1 } →
      w'.apsHeard = some ⟨true, w.record.lk, w'.info.counter, apdu⟩ → w'.apsSecured = .admitted →
      w'.pending = false → foreign build w.record w'.info = false →
      w.record.af ≤ w'.info.counter → w'.info.counter ≠ 0xFFFFFFFF →
      (∃ type, EdWire.inspect .aps apdu = .ok (w'.info, type)) →
      key aes limits w.record w.record.lk w'.keyId false = .ok k →
      EdWire.openFrame aes .aps { k with
        source := if w.record.unbound build then w'.info.source else k.source
        extendedNonce := w'.info.extendedNonce } apdu 116 = .ok text →
      ApsStage build aes limits w w'

/-- An APS layer that fails changes nothing that is kept. -/
structure ApsRefused (w w' : Work) : Prop where
  passes : Passes w w'
  record : w'.record = w.record
  apsHeard : w'.apsHeard = w.apsHeard
  apsSecured : w'.apsSecured ≠ .admitted

theorem crypto_ok {α : Type} {r : Except EdWire.Result α} {a : α} (h : crypto r = .ok a) : r = .ok a := by
  cases r with
  | error e => cases h
  | ok b => exact congrArg _ (Except.ok.inj h)

theorem crypto_error {α : Type} {r : Except EdWire.Result α} {e : Result} (h : crypto r = .error e) :
    e ≠ .ok := by
  cases r with
  | ok b => cases h
  | error x =>
    obtain rfl := Except.error.inj h
    cases x <;> simp [cryptoResult]

/-- Identifiers 0 and 1 use the material as it is. -/
theorem key_plain (r : Record) (material : Block) (identifier : UInt8) (sending : Bool)
    (h : identifier = 0 ∨ identifier = 1) : key aes limits r material identifier sending =
      .ok ⟨material, if sending then r.own else r.tc, 0, 5, identifier, 0, 1, limits⟩ := by
  obtain rfl | rfl := h <;> rfl

theorem key_error {r : Record} {material : Block} {identifier : UInt8} {sending : Bool} {e : Result}
    (h : key aes limits r material identifier sending = .error e) : e ≠ .ok := by
  unfold key at h
  simp only at h
  split at h
  · split at h
    · cases h
      simp
    · cases h
  · cases h

/-- The trial: the text opens under the pending key, the frame is not for it, or an error. -/
theorem trial_cases (w : Work) (apdu : Bytes) :
    (∃ text, trial aes limits w apdu = .ok (some text) ∧ w.record.phase = .waitConfirm ∧
      EdWire.openFrame aes .aps ⟨w.record.pk, w.record.tc, 0, 5, 0, 0, 1, limits⟩ apdu 116 = .ok text) ∨
    trial aes limits w apdu = .ok none ∨ ∃ e, trial aes limits w apdu = .error e ∧ e ≠ .ok := by
  unfold trial
  split
  · rename_i hc
    rw [key_plain _ _ _ _ (.inl rfl)]
    simp only [Bool.false_eq_true, if_false]
    cases ho : crypto (EdWire.openFrame aes .aps
        ⟨w.record.pk, w.record.tc, 0, 5, 0, 0, 1, limits⟩ apdu 116) with
    | ok text => exact .inl ⟨text, rfl, hc.1, crypto_ok ho⟩
    | error e =>
      have hne := crypto_error ho
      cases e with
      | auth => exact .inr (.inl rfl)
      | ok => exact absurd rfl hne
      | _ => exact .inr (.inr ⟨_, rfl, by simp⟩)
  · exact .inr (.inl rfl)

/-- The admission: the counter reaches the floor and the text opens under the current link key. -/
theorem admit_cases (w : Work) (apdu : Bytes) :
    (∃ text k, currentAps build aes limits w apdu = .ok text ∧ w.record.af ≤ w.info.counter ∧
      key aes limits w.record w.record.lk w.keyId false = .ok k ∧
      EdWire.openFrame aes .aps { k with
        source := if w.record.unbound build then w.info.source else k.source
        extendedNonce := w.info.extendedNonce } apdu 116 = .ok text) ∨
    ∃ e, currentAps build aes limits w apdu = .error e ∧ e ≠ .ok := by
  unfold currentAps
  simp only
  split
  · exact .inr ⟨_, rfl, by simp⟩
  · rename_i hf
    cases hk : key aes limits w.record w.record.lk w.keyId false with
    | error e => exact .inr ⟨e, rfl, key_error hk⟩
    | ok k =>
      simp only
      cases ho : crypto (EdWire.openFrame aes .aps { k with
          source := if w.record.unbound build then w.info.source else k.source
          extendedNonce := w.info.extendedNonce } apdu 116) with
      | error e => exact .inr ⟨e, rfl, crypto_error ho⟩
      | ok text => exact .inl ⟨text, k, rfl, UInt32.not_lt.1 hf, rfl, crypto_ok ho⟩

theorem openAps_cases (w : Work) :
    ((openAps build aes limits w).1 = .ok ∧ ApsStage build aes limits w (openAps build aes limits w).2) ∨
    ((openAps build aes limits w).1 ≠ .ok ∧ ApsRefused w (openAps build aes limits w).2) := by
  unfold openAps
  simp only
  split
  · exact .inl ⟨rfl, .plain ⟨rfl, rfl, rfl⟩ rfl rfl rfl rfl⟩
  · cases hi : crypto (EdWire.inspect .aps (w.frame.drop w.nwk.payloadOffset)) with
    | error e => exact .inr ⟨crypto_error hi, ⟨rfl, rfl, rfl⟩, rfl, rfl, by simp⟩
    | ok o =>
      obtain ⟨m, type⟩ := o
      simp only
      split
      · exact .inr ⟨by simp, ⟨rfl, rfl, rfl⟩, rfl, rfl, by simp⟩
      · rename_i hc
        split
        · exact .inr ⟨by simp, ⟨rfl, rfl, rfl⟩, rfl, rfl, by simp⟩
        · split
          · exact .inr ⟨by simp, ⟨rfl, rfl, rfl⟩, rfl, rfl, by simp⟩
          · rename_i hf
            have hf : foreign build w.record m = false := by simpa using hf
            generalize hw : ({ w with
              apsSecured := .marked, info := m, keyId := m.keyIdentifier, pending := false } : Work) = v
            obtain ⟨text, ht, hp, ho⟩ | ht | ⟨e, ht, hne⟩ :=
              @trial_cases aes limits v (w.frame.drop w.nwk.payloadOffset) <;> rw [ht]
            · subst hw
              exact .inl ⟨rfl, .pending _ text ⟨rfl, rfl, rfl⟩ rfl rfl rfl rfl hp ho⟩
            · simp only
              obtain ⟨text, k, ha, haf, hk, ho⟩ | ⟨e, ha, hne⟩ :=
                @admit_cases build aes limits v (w.frame.drop w.nwk.payloadOffset) <;> rw [ha]
              · subst hw
                exact .inl ⟨rfl, .admitted _ text k ⟨rfl, rfl, rfl⟩ rfl rfl rfl rfl hf haf hc
                  ⟨type, crypto_ok hi⟩ hk ho⟩
              · subst hw
                exact .inr ⟨hne, ⟨rfl, rfl, rfl⟩, rfl, rfl, by simp⟩
            · subst hw
              exact .inr ⟨hne, ⟨rfl, rfl, rfl⟩, rfl, rfl, by simp⟩

/-- Only the fields of the stage matter. -/
theorem ApsStage.congr {w w' v v' : Work} (h : ApsStage build aes limits w w')
    (hr : v.record = w.record) (hp : Passes v w) (ha : v.apsHeard = w.apsHeard) (hw : v.pending = w.pending)
    (hv : v' = { w' with frame := v'.frame, nwk := v'.nwk, packet := v'.packet, event := v'.event }) :
    ApsStage build aes limits v v' := by
  have hq : Passes w w' → Passes v v' := fun hq => by
    rw [hv]
    exact ⟨hq.sender.trans hp.sender, hq.secured.trans hp.secured, hq.nwkHeard.trans hp.nwkHeard⟩
  cases h with
  | plain h1 h2 h3 h4 h5 =>
    refine .plain (hq h1) ?_ ?_ ?_ ?_ <;> rw [hv]
    · exact h2.trans hr.symm
    · exact h3.trans ha.symm
    · exact h4
    · exact h5.trans hw.symm
  | pending apdu text h1 h2 h3 h4 h5 h6 h7 =>
    refine .pending apdu text (hq h1) ?_ ?_ ?_ ?_ (hr ▸ h6) (hr ▸ h7) <;> rw [hv]
    · exact h2.trans hr.symm
    · rw [hr]
      exact h3
    · exact h4
    · exact h5
  | admitted apdu text k h1 h2 h3 h4 h5 h6 h7 h8 h9 h10 h11 =>
    rw [← hr] at h2 h3 h6 h7 h10 h11
    rw [hv]
    refine .admitted apdu text k ?_ h2 h3 h4 h5 h6 h7 h8 h9 h10 h11
    rw [hv] at hq
    exact hq h1

/-- From the normalized NPDU on: the APS layer decides first, and an accepted
frame has one effect on what that layer left. -/
theorem interpret_cases (w : Work) (hs : w.apsSecured = .plain) :
    ((interpret build aes limits w).1 ≠ .ok ∧
      (ApsRefused w (interpret build aes limits w).2 ∨
        ApsStage build aes limits w (interpret build aes limits w).2)) ∨
    ∃ v r e, ApsStage build aes limits w v ∧ Effect build v r e ∧
      interpret build aes limits w = (.ok, { v with record := r, event := e }) := by
  have refused : ApsRefused w w := ⟨⟨rfl, rfl, rfl⟩, rfl, rfl, by simp [hs]⟩
  unfold interpret
  cases hn : crypto (EdWire.readNwk w.frame) with
  | error e => exact .inl ⟨crypto_error hn, .inl refused⟩
  | ok nwk =>
    simp only
    generalize ho : (if nwk.header.type = EdWire.nwkCommand then (.ok, { w with nwk := nwk })
      else if nwk.payloadLength = 0 then (.format, { w with nwk := nwk })
      else openAps build aes limits { w with nwk := nwk } : Result × Work) = o
    have hstage : (o.1 = .ok ∧ ApsStage build aes limits w o.2) ∨ (o.1 ≠ .ok ∧ ApsRefused w o.2) := by
      rw [← ho]
      split
      · exact .inl ⟨rfl, .plain ⟨rfl, rfl, rfl⟩ rfl rfl hs rfl⟩
      · split
        · exact .inr ⟨by simp, ⟨rfl, rfl, rfl⟩, rfl, rfl, by simp [hs]⟩
        · obtain ⟨h1, h2⟩ | ⟨h1, h2⟩ := @openAps_cases build aes limits { w with nwk := nwk }
          · exact .inl ⟨h1, h2.congr rfl ⟨rfl, rfl, rfl⟩ rfl rfl rfl⟩
          · exact .inr ⟨h1, ⟨h2.passes.sender, h2.passes.secured, h2.passes.nwkHeard⟩, h2.record, h2.apsHeard,
              h2.apsSecured⟩
    obtain ⟨h1, h2⟩ | ⟨h1, h2⟩ := hstage
    · rw [if_neg (not_not.2 h1)]
      cases hd : crypto (EdWire.decode o.2.frame) with
      | error e => exact .inl ⟨crypto_error hd, .inr h2⟩
      | ok p =>
        simp only
        have h3 : ∀ e, ApsStage build aes limits w { o.2 with packet := p, event := e } := fun e =>
          h2.congr rfl ⟨rfl, rfl, rfl⟩ rfl rfl rfl
        obtain ⟨hne, hw⟩ | ⟨hne, hw⟩ | ⟨r, e, hw, he⟩ := @dispatch_judged build { o.2 with packet := p }
        · refine .inl ⟨hne, .inr ?_⟩
          rw [hw]
          exact h3 _
        · refine .inl ⟨hne, .inr ?_⟩
          rw [hw]
          exact h3 _
        · exact .inr ⟨_, r, e, h3 .data, he, hw⟩
    · rw [if_pos h1]
      exact .inl ⟨h1, .inl h2⟩

/-! The NWK layer. -/

/-- The record once an NPDU authenticated. -/
def heardRecord (r : Record) (h : NwkHeard) : Record :=
  let raised := raiseFloor r h.router h.slot (h.counter + 1)
  if r.flags.newer && h.slot != r.flags.active then adopt raised h.slot else raised

/-- The NWK layer of a frame: none before the first key, or an occupied slot. -/
inductive NwkStage (build : Build) (aes : Aes) (limits : Limits) (r : Record) (raw : Bytes) (w : Work) : Prop
  | plain : r.network = false → w.record = r → w.nwkHeard = none → w.secured = .plain → w.sender = false →
      NwkStage build aes limits r raw w
  | secured (h : NwkHeard) (m : EdWire.Meta) (type : UInt8) (text : Bytes) : w.nwkHeard = some h →
      h.raw = raw → EdWire.inspect .nwk raw = .ok (m, type) → h.counter = m.counter → h.source = m.source →
      slotOf r m.keySequence = some h.slot → h.key = r.nk h.slot → h.sequence = r.seq h.slot →
      h.router = r.parentRouter build → h.source = r.parentIeee build →
      floor r h.router h.slot ≤ h.counter → h.counter ≠ 0xFFFFFFFF →
      w.record = heardRecord r h →
      w.secured = (if r.flags.newer && h.slot != r.flags.active then .switched else .secured) →
      w.sender = h.router →
      EdWire.openFrame aes .nwk ⟨h.key, h.source, 0, 5, 1, h.sequence, 1, limits⟩ raw 116 = .ok text →
      NwkStage build aes limits r raw w

theorem authenticate_cases {r : Record} {raw : Bytes} {nwk : NwkFrame.Info} {w : Work}
    (h : authenticate build aes limits r raw nwk = .ok w) :
    NwkStage build aes limits r raw w ∧ w.apsSecured = .plain ∧ w.pending = false ∧ w.apsHeard = none := by
  unfold authenticate at h
  split at h
  · cases hi : crypto (EdWire.inspect .nwk raw) with
    | error e =>
      rw [hi] at h
      cases h
    | ok o =>
      obtain ⟨m, type⟩ := o
      rw [hi] at h
      simp only at h
      split at h
      · cases h
      · rename_i hid
        cases hs : slotOf r m.keySequence with
        | none =>
          rw [hs] at h
          cases h
        | some i =>
          rw [hs] at h
          simp only at h
          split at h
          · cases h
          · rename_i hc
            simp only [not_or, UInt32.not_lt] at hc
            rw [key_plain _ _ _ _ (.inr rfl)] at h
            simp only at h
            -- A router parent is the only sender then, else the trust center is.
            have hrouter : (r.parentRouter build && m.source == r.router.ieee) = r.parentRouter build := by
              cases hp : r.parentRouter build
              · rfl
              · by_contra hne
                exact hid ⟨by simpa [hp] using hne, .inr hp⟩
            have hsource : m.source = if r.parentRouter build then r.router.ieee else r.tc := by
              cases hp : r.parentRouter build
              · by_contra hne
                exact hid ⟨by simp [hp], .inl (by simpa using hne)⟩
              · rw [hp] at hrouter
                simpa using hrouter
            rw [hrouter] at h hc
            cases ho : crypto (EdWire.openFrame aes .nwk ⟨r.nk i, if r.parentRouter build then r.router.ieee
                else r.tc, 0, 5, 1, r.seq i, 1, limits⟩ raw 116) with
            | error e =>
              rw [ho] at h
              cases h
            | ok text =>
              rw [ho] at h
              obtain rfl := Except.ok.inj h
              exact ⟨.secured ⟨i, r.nk i, r.seq i, _, _, m.counter, raw⟩ m type text rfl rfl (crypto_ok hi) rfl
                hsource.symm hs rfl rfl rfl rfl hc.2 hc.1 rfl rfl rfl (crypto_ok ho), rfl, rfl, rfl⟩
  · split at h
    · cases h
    · rename_i hn
      obtain rfl := Except.ok.inj h
      simp only [not_or, Bool.not_eq_true] at hn
      exact ⟨.plain hn.1 rfl rfl rfl rfl, rfl, rfl, rfl⟩

theorem authenticate_error {r : Record} {raw : Bytes} {nwk : NwkFrame.Info} {e : Result}
    (h : authenticate build aes limits r raw nwk = .error e) : e ≠ .ok := by
  unfold authenticate at h
  split at h
  · cases hi : crypto (EdWire.inspect .nwk raw) with
    | error x =>
      rw [hi] at h
      cases h
      exact crypto_error hi
    | ok o =>
      rw [hi] at h
      simp only at h
      split at h
      · cases h
        simp
      · split at h
        · cases h
          simp
        · split at h
          · cases h
            simp
          · rw [key_plain _ _ _ _ (.inr rfl)] at h
            simp only at h
            split at h
            · rename_i x hx
              cases h
              exact crypto_error hx
            · cases h
  · split at h
    · cases h
      simp
    · cases h

/-- The stages of a frame that got past the NWK layer. -/
inductive Processed (build : Build) (aes : Aes) (limits : Limits) (r : Record) (raw : Bytes) :
    Result → Work → Prop
  | refused (w₀ w : Work) (e : Result) : NwkStage build aes limits r raw w₀ → w₀.apsHeard = none → e ≠ .ok →
      ApsRefused w₀ w → Processed build aes limits r raw e w
  | rejected (w₀ w : Work) (e : Result) : NwkStage build aes limits r raw w₀ → w₀.apsHeard = none → e ≠ .ok →
      w₀.pending = false → ApsStage build aes limits w₀ w → Processed build aes limits r raw e w
  | accepted (w₀ v : Work) (r' : Record) (e : Event) : NwkStage build aes limits r raw w₀ →
      w₀.apsHeard = none → w₀.pending = false → ApsStage build aes limits w₀ v → Effect build v r' e →
      Processed build aes limits r raw .ok { v with record := r', event := e }

theorem process_cases {r : Record} {raw : Bytes} {e : Result} {w : Work}
    (h : process build aes limits r raw = .ok (e, w)) : Processed build aes limits r raw e w := by
  unfold process at h
  cases hn : crypto (EdWire.readNwk raw) with
  | error e =>
    rw [hn] at h
    cases h
  | ok nwk =>
    rw [hn] at h
    simp only at h
    split at h
    · cases h
    · cases ha : authenticate build aes limits r raw nwk with
      | error e =>
        rw [ha] at h
        cases h
      | ok w₀ =>
        rw [ha] at h
        obtain ⟨hs, haps, hp, hh⟩ := authenticate_cases ha
        have hi := Except.ok.inj h
        obtain ⟨hne, hr | hr⟩ | ⟨v, r', e', hv, he, hiv⟩ := @interpret_cases build aes limits w₀ haps
        · rw [hi] at hne hr
          exact .refused w₀ w e hs hh hne hr
        · rw [hi] at hne hr
          exact .rejected w₀ w e hs hh hne hp hr
        · rw [hi] at hiv
          cases hiv
          exact .accepted w₀ v r' e' hs hh hp hv he

end SecurityKeys
