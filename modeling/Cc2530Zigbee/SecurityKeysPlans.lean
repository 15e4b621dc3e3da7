import Cc2530Zigbee.SecurityKeysEffects
import Cc2530Zigbee.SecurityKeysSteps

/-!
# What a call can decide

One inversion for each planning function, and the two facts the journal needs
about every plan: a stored record reads back as it was, and a record that is
only cached differs from the loaded one in nothing the caches cannot hold.
-/
namespace SecurityKeys

open Octets
open CcmStar (Aes Block Limits)
open EdWire (at0)

variable {build : Build} {c : Context}

theorem upgradeParent_cases (polls : UInt16) :
    (∃ e, upgradeParent c polls = .stop e) ∨
    (upgradeParent c polls = .store { c.record with version := 3, router := .zero } (.of .ok) ∧
      (c.record.phase = .verified ∨ c.record.phase = .rejoining) ∧ c.size ≠ 144) := by
  unfold upgradeParent
  split
  · exact .inl ⟨_, rfl⟩
  · split
    · exact .inl ⟨_, rfl⟩
    · rename_i hp
      split
      · exact .inl ⟨_, rfl⟩
      · rename_i hs
        refine .inr ⟨rfl, ?_, hs⟩
        by_contra hn
        exact hp (not_or.1 hn)

/-- The record with a remembered router. -/
def remembered (r : Record) (parent : Parent) : Record :=
  { r with router := { r.router with
    ieee := parent.ieee
    addr := parent.address
    nf := parent.nwkFloor
    flags := { r.router.flags with known := true } } }

/-- A router that may be remembered. -/
structure Rememberable (build : Build) (r : Record) (parent : Parent) : Prop where
  router : r.routerRecord build = true
  phase : r.phase = .verified
  ieee : Identity parent.ieee
  own : parent.ieee ≠ r.own
  tc : parent.ieee ≠ r.tc
  nonzero : parent.address ≠ 0
  address : parent.address < 0xFFF8
  differ : parent.address ≠ r.addr
  known : r.router.flags.known = true → parent.ieee = r.router.ieee ∧ parent.address = r.router.addr
  floors : ∀ i, r.flags.slot i = true → r.router.nf i ≤ parent.nwkFloor i
  empty : ∀ i, r.flags.slot i = false → parent.nwkFloor i = 0

theorem rememberSlot_none {r : Record} {parent : Parent} {i : Bool} (h : rememberSlot r parent i = none) :
    (r.flags.slot i = true → r.router.nf i ≤ parent.nwkFloor i) ∧
    (r.flags.slot i = false → parent.nwkFloor i = 0) := by
  unfold rememberSlot at h
  split at h
  · rename_i hs
    split at h
    · cases h
    · rename_i hf
      simp only [not_or, UInt32.not_lt] at hf
      exact ⟨fun _ => hf.2.2, fun hn => absurd hs (by simp [hn])⟩
  · rename_i hs
    split at h
    · cases h
    · rename_i hf
      simp only [not_or, not_not] at hf
      exact ⟨fun hn => absurd hn hs, fun _ => hf.1⟩

theorem rememberParent_cases (parent : Option Parent) (polls : UInt16) :
    (∃ e, rememberParent build c parent polls = .stop e) ∨
    ∃ p, rememberParent build c parent polls = .store (remembered c.record p) (.of .ok) ∧
      Rememberable build c.record p := by
  unfold rememberParent
  cases parent with
  | none => exact .inl ⟨_, rfl⟩
  | some p =>
    simp only
    split
    · exact .inl ⟨_, rfl⟩
    · rename_i ha
      split
      · exact .inl ⟨_, rfl⟩
      · rename_i hp
        split
        · exact .inl ⟨_, rfl⟩
        · rename_i hk
          cases hs : (rememberSlot c.record p false).or (rememberSlot c.record p true) with
          | some e => exact .inl ⟨e, rfl⟩
          | none =>
            simp only [Option.or_eq_none_iff] at hs
            simp only [not_or, not_not, UInt16.not_le, Bool.not_eq_false] at ha hp
            have hslot : ∀ i, rememberSlot c.record p i = none := fun i => by
              cases i
              · exact hs.1
              · exact hs.2
            refine .inr ⟨p, rfl, hp.2, hp.1, ha.2.1, ha.2.2.2.2.2.1, ha.2.2.2.2.2.2, ha.2.2.1, ha.2.2.2.1,
              ha.2.2.2.2.1, fun h => ?_, fun i => (rememberSlot_none (hslot i)).1,
              fun i => (rememberSlot_none (hslot i)).2⟩
            by_contra hn
            exact hk ⟨h, by tauto⟩

/-- The record with a router staged for a rejoin, or none. -/
def selected (r : Record) (router : Bool) (updateId : UInt8) : Record :=
  { r with router := { r.router with flags := { r.router.flags with attempt := router }, update := updateId } }

theorem selectParent_cases (router updateId : UInt8) (polls : UInt16) :
    (∃ e, selectParent build c router updateId polls = .stop e) ∨
    (c.record.routerRecord build = true ∧ (c.record.phase = .verified ∨ c.record.phase = .rejoining) ∧
      ((selectParent build c router updateId polls = .store (selected c.record true updateId) (.of .ok) ∧
          c.record.router.flags.known = true ∧ updateId - c.record.update < 128) ∨
        selectParent build c router updateId polls = .store (selected c.record false 0) (.of .ok))) := by
  unfold selectParent
  simp only
  split
  · exact .inl ⟨_, rfl⟩
  · split
    · exact .inl ⟨_, rfl⟩
    · rename_i hp
      split
      · exact .inl ⟨_, rfl⟩
      · rename_i hk
        split
        · exact .inl ⟨_, rfl⟩
        · rename_i hu
          have hr : c.record.routerRecord build = true := by
            by_contra hn
            exact hp (.inl (by simpa using hn))
          have hph : c.record.phase = .verified ∨ c.record.phase = .rejoining := by
            by_contra hn
            exact hp (.inr (not_or.1 hn))
          split
          · rename_i hrt
            refine .inr ⟨hr, hph, .inl ⟨rfl, ?_, UInt8.not_le.1 hu⟩⟩
            by_contra hn
            exact hk ⟨hrt, by simpa using hn⟩
          · split
            · exact .inl ⟨_, rfl⟩
            · exact .inr ⟨hr, hph, .inr rfl⟩

/-- The record once the device has its short address. -/
def associatedRecord (r : Record) (address : UInt16) : Record := { r with addr := address }.setPhase .associated

theorem associate_cases (shortAddress polls : UInt16) :
    (∃ e, associate c shortAddress polls = .stop e) ∨
    (associate c shortAddress polls = .stage (associatedRecord c.record shortAddress)
        (associatedRecord c.record shortAddress).encodeBase .associated ∧
      c.record.phase = .provisioned ∧ shortAddress ≠ 0 ∧ shortAddress < 0xFFF8) := by
  unfold associate
  simp only
  split
  · exact .inl ⟨_, rfl⟩
  · rename_i hp
    split
    · exact .inl ⟨_, rfl⟩
    · rename_i ha
      split
      · exact .inl ⟨_, rfl⟩
      · simp only [not_or, UInt16.not_le] at ha
        exact .inr ⟨rfl, not_not.1 hp, ha.1, ha.2.1⟩

/-- The record associated through a router whose trust center is not known yet. -/
def unboundRecord (r : Record) (address : UInt16) : Record :=
  { r with
    version := 3
    router := { Router.zero with ieee := r.tc, addr := address, flags := ⟨true, true, false, true, 0⟩ } }

theorem routerParent_cases (routerAddress polls : UInt16) :
    (∃ e, routerParent build c routerAddress polls = .stop e) ∨
    (routerParent build c routerAddress polls = .stage (unboundRecord c.record routerAddress)
        (unboundRecord c.record routerAddress).encode c.phase ∧
      c.record.phase = .associated ∧ c.record.routerRecord build = false ∧
      routerAddress ≠ 0 ∧ routerAddress < 0xFFF8 ∧ routerAddress ≠ c.record.addr) := by
  unfold routerParent
  simp only
  split
  · exact .inl ⟨_, rfl⟩
  · rename_i hp
    split
    · exact .inl ⟨_, rfl⟩
    · rename_i ha
      simp only [not_or, not_not, UInt16.not_le, Bool.not_eq_true] at hp ha
      exact .inr ⟨rfl, hp.1, hp.2, ha.1, ha.2.1, ha.2.2.1⟩

/-- The record a rejoin request is sealed under. -/
def cleared (r : Record) : Record :=
  { r with phaseByte := { r.phaseByte with parent := 0, timeoutPending := false } }

/-- The record with a timeout request outstanding. -/
def awaiting (r : Record) : Record := { r with phaseByte := { r.phaseByte with timeoutPending := true } }

/-- What the sending calls seal, and the record each of them leads to. -/
inductive Sends (build : Build) (r : Record) (t : Transmission) : Prop
  | request (nwkSeq apsCounter : UInt8) : t.packet = commandPacket build r nwkSeq apsCounter [8, 4] →
      t.apsSecure = true → t.record = r → t.preflight = false → t.commit = some (r.setPhase .requested) →
      t.pending = none → r.phase = .received ∨ r.phase = .requested ∨ r.phase = .verified →
      47 ≤ t.output.capacity → Sends build r t
  | verify (nwkSeq apsCounter : UInt8) (hash : Block) :
      t.packet = commandPacket build r nwkSeq apsCounter ([15, 4] ++ r.own.toList ++ hash.toList) →
      t.apsSecure = false → t.record = r → t.preflight = false → t.commit = some (r.setPhase .waitConfirm) →
      t.pending = none → r.phase = .provisional ∨ r.phase = .waitConfirm → 54 ≤ t.output.capacity →
      Sends build r t
  | leave (nwkSeq : UInt8) : t.packet = leavePacket r nwkSeq → t.apsSecure = false → t.record = r →
      t.preflight = false → t.commit = some (leftRecord r false) → t.pending = none → r.network = true →
      36 ≤ t.output.capacity → Sends build r t
  | rejoin : t.packet.nwk.type = EdWire.nwkCommand → getElem t.packet.payload 0 at0 = 6 → t.record = cleared r →
      t.preflight = true → t.commit = some ((cleared r).setPhase .rejoining) → t.pending = none →
      r.network = true → r.flags.wasVerified = true → (r.flags.retired = true ∨ r.pk = zeroKey) →
      (r.phase = .verified ∨ r.phase = .rejoining ∨ (r.phase = .left ∧ r.flags.rejoinAllowed = true)) →
      Sends build r t
  | depart (rejoin : Bool) : t.packet.nwk.type = EdWire.nwkCommand → getElem t.packet.payload 0 at0 = 4 → t.record = r →
      t.preflight = true → t.commit = some (leftRecord r rejoin) → t.pending = none → r.network = true →
      Sends build r t
  | timeout : t.packet.nwk.type = EdWire.nwkCommand → getElem t.packet.payload 0 at0 = 11 → t.record = r →
      t.preflight = true → t.commit = none → t.pending = some (awaiting r) → r.network = true →
      r.phase ≠ .left → r.phase ≠ .rejoining → Sends build r t
  | data : t.packet.nwk.type ≠ EdWire.nwkCommand → t.record = r → t.preflight = true → t.commit = none →
      t.pending = none → r.network = true →
      (r.flags.wasVerified = true ∨ joinManagement t.packet = true) → Sends build r t

theorem request_cases (nwkSeq apsCounter : UInt8) (o : Output) :
    (∃ e, request build c nwkSeq apsCounter o = .stop e ∧ e ≠ .ok) ∨
    ∃ t, request build c nwkSeq apsCounter o = .transmit t ∧ t.output = o ∧ Sends build c.record t ∧
      t.commit = some (c.record.setPhase .requested) ∧ t.pending = none ∧
      (c.record.phase = .received ∨ c.record.phase = .requested ∨ c.record.phase = .verified) := by
  unfold request
  simp only
  cases o.limits with
  | none => exact .inl ⟨_, rfl, by simp⟩
  | some limits =>
    simp only
    split
    · exact .inl ⟨_, rfl, by simp⟩
    · rename_i hp
      split
      · exact .inl ⟨_, rfl, by simp⟩
      · rename_i hc
        have hp : c.record.phase = .received ∨ c.record.phase = .requested ∨ c.record.phase = .verified := by
          by_contra hn
          exact hp (by tauto)
        exact .inr ⟨_, rfl, rfl, .request nwkSeq apsCounter rfl rfl rfl rfl rfl rfl hp (UInt16.not_lt.1 hc), rfl,
          rfl, hp⟩

theorem verify_cases (nwkSeq apsCounter : UInt8) (o : Output) :
    (∃ e, verify build c nwkSeq apsCounter o = .stop e ∧ e ≠ .ok) ∨
    ∃ t, verify build c nwkSeq apsCounter o = .transmit t ∧ t.output = o ∧ Sends build c.record t ∧
      t.commit = some (c.record.setPhase .waitConfirm) ∧ t.pending = none ∧
      (c.record.phase = .provisional ∨ c.record.phase = .waitConfirm) := by
  unfold verify
  simp only
  cases o.limits with
  | none => exact .inl ⟨_, rfl, by simp⟩
  | some limits =>
    simp only
    split
    · exact .inl ⟨_, rfl, by simp⟩
    · rename_i hp
      split
      · exact .inl ⟨_, rfl, by simp⟩
      · rename_i hc
        cases KeyHash.keyHash o.call.aes c.record.pk KeyHash.hashVerify limits with
        | error e => exact .inl ⟨_, rfl, by simp⟩
        | ok hash =>
          have hp : c.record.phase = .provisional ∨ c.record.phase = .waitConfirm := by
            by_contra hn
            exact hp (not_or.1 hn)
          exact .inr ⟨_, rfl, rfl, .verify nwkSeq apsCounter hash rfl rfl rfl rfl rfl rfl hp
            (UInt16.not_lt.1 hc), rfl, rfl, hp⟩

theorem leave_cases (nwkSeq : UInt8) (o : Output) :
    (∃ e, leave c nwkSeq o = .stop e ∧ e ≠ .ok) ∨
    (c.record.network = false ∧ o.limits ≠ none ∧
      leave c nwkSeq o = .store (leftRecord c.record false) { Reply.of .ok with frame := some [] }) ∨
    ∃ t, leave c nwkSeq o = .transmit t ∧ t.output = o ∧ Sends build c.record t ∧
      t.commit = some (leftRecord c.record false) ∧ t.pending = none ∧ c.record.network = true := by
  unfold leave
  simp only
  cases hl : o.limits with
  | none => exact .inl ⟨_, rfl, by simp⟩
  | some limits =>
    simp only
    split
    · rename_i hn
      split
      · exact .inl ⟨_, rfl, by simp⟩
      · rename_i hc
        exact .inr (.inr ⟨_, rfl, rfl, .leave nwkSeq rfl rfl rfl rfl rfl rfl hn (UInt16.not_lt.1 hc), rfl, rfl,
          hn⟩)
    · rename_i hn
      exact .inr (.inl ⟨by simpa using hn, by simp, rfl⟩)

/-- The tests on a NWK command: a rejoin, a leave or a timeout request. -/
theorem sendCommand_cases {r : Record} {p : EdWire.Packet} {secure : Bool} {transition : Option Phase}
    (h : sendCommand build r p secure = .ok transition) :
    (transition = some .rejoining ∧ getElem p.payload 0 at0 = 6 ∧ r.flags.wasVerified = true ∧
      (r.flags.retired = true ∨ r.pk = zeroKey) ∧
      (r.phase = .verified ∨ r.phase = .rejoining ∨ (r.phase = .left ∧ r.flags.rejoinAllowed = true))) ∨
    (transition = some .left ∧ getElem p.payload 0 at0 = 4) ∨ (transition = none ∧ getElem p.payload 0 at0 = 11) := by
  unfold sendCommand at h
  split at h
  · cases h
  · by_cases h6 : p.payload[0] = 6
    · rw [if_pos h6] at h
      split at h
      · cases h
      · rename_i hv
        split at h
        · cases h
        · rename_i hk
          split at h
          · cases h
          · rename_i hp
            cases h
            refine .inl ⟨rfl, h6, by simpa using (not_or.1 hv).1, ?_, by tauto⟩
            by_contra hn
            rw [not_or] at hn
            exact hk ⟨by simpa using hn.1, hn.2⟩
    · rw [if_neg h6] at h
      by_cases h4 : p.payload[0] = 4
      · rw [if_pos h4] at h
        split at h
        · cases h
        · cases h
          exact .inr (.inl ⟨rfl, h4⟩)
      · rw [if_neg h4] at h
        split at h
        · cases h
        · rename_i h11
          cases h
          exact .inr (.inr ⟨rfl, not_not.1 (not_or.1 h11).1⟩)

theorem sendData_ok {r : Record} {p : EdWire.Packet} {secure : Bool} {transition : Option Phase}
    (h : sendData r p secure = .ok transition) :
    transition = none ∧ (r.flags.wasVerified = true ∨ joinManagement p = true) := by
  unfold sendData at h
  split at h
  · cases h
  · split at h
    · cases h
    · split at h
      · cases h
      · rename_i hv
        split at h
        · cases h
        · cases h
          refine ⟨rfl, ?_⟩
          by_contra hn
          rw [not_or] at hn
          exact hv ⟨by simpa using hn.1, by simpa using hn.2⟩

theorem sendCommand_error {r : Record} {p : EdWire.Packet} {secure : Bool} {e : Result}
    (h : sendCommand build r p secure = .error e) : e ≠ .ok := by
  unfold sendCommand at h
  repeat' split at h
  all_goals
    cases h
    try simp

theorem sendData_error {r : Record} {p : EdWire.Packet} {secure : Bool} {e : Result}
    (h : sendData r p secure = .error e) : e ≠ .ok := by
  unfold sendData at h
  repeat' split at h
  all_goals
    cases h
    try simp

theorem send_cases (packet : Option EdWire.Packet) (apsSecure : UInt8) (o : Output) :
    (∃ e, send build c packet apsSecure o = .stop e ∧ e ≠ .ok) ∨
    ∃ p t, packet = some p ∧ send build c packet apsSecure o = .transmit t ∧ t.output = o ∧
      t.packet = p ∧ t.preflight = true ∧ Sends build c.record t := by
  unfold send
  simp only
  cases packet with
  | none => exact .inl ⟨_, rfl, by simp⟩
  | some p =>
    cases o.limits with
    | none => exact .inl ⟨_, rfl, by simp⟩
    | some limits =>
      simp only
      split
      · exact .inl ⟨_, rfl, by simp⟩
      · split
        · exact .inl ⟨_, rfl, by simp⟩
        · rename_i hn
          have hn : c.record.network = true := by simpa using hn
          split
          · exact .inl ⟨_, rfl, by simp⟩
          · by_cases hc : p.nwk.type = EdWire.nwkCommand
            · rw [if_pos hc]
              cases ht : sendCommand build c.record p (apsSecure == 1) with
              | error e => exact .inl ⟨e, rfl, sendCommand_error ht⟩
              | ok transition =>
                simp only
                obtain ⟨rfl, h6, hv, hk, hp⟩ | ⟨rfl, h4⟩ | ⟨rfl, h11⟩ := sendCommand_cases ht
                · rw [if_neg (by simp)]
                  refine .inr ⟨p, _, rfl, rfl, rfl, rfl, rfl, .rejoin hc h6 ?_ rfl ?_ ?_ hn hv hk hp⟩
                  · simp [cleared]
                  · simp [cleared]
                  · simp [h6]
                · rw [if_neg (by simp)]
                  refine .inr ⟨p, _, rfl, rfl, rfl, rfl, rfl,
                    .depart (p.payload[1] &&& 0x20 != 0) hc h4 ?_ rfl ?_ ?_ hn⟩
                  · simp
                  · simp
                  · simp [h4]
                · split
                  · exact .inl ⟨_, rfl, by simp⟩
                  · rename_i hp
                    refine .inr ⟨p, _, rfl, rfl, rfl, rfl, rfl, .timeout hc h11 ?_ rfl rfl ?_ hn ?_ ?_⟩
                    · simp
                    · simp [hc, h11, awaiting]
                    · exact fun h => hp ⟨.inl h, rfl⟩
                    · exact fun h => hp ⟨.inr h, rfl⟩
            · rw [if_neg hc]
              cases ht : sendData c.record p (apsSecure == 1) with
              | error e => exact .inl ⟨e, rfl, sendData_error ht⟩
              | ok transition =>
                simp only
                obtain ⟨rfl, hv⟩ := sendData_ok ht
                split
                · exact .inl ⟨_, rfl, by simp⟩
                · refine .inr ⟨p, _, rfl, rfl, rfl, rfl, rfl, .data hc ?_ rfl rfl ?_ hn hv⟩
                  · simp
                  · simp [hc]

theorem process_error {aes : Aes} {limits : Limits} {r : Record} {raw : Bytes} {e : Result}
    (h : process build aes limits r raw = .error e) : e ≠ .ok := by
  unfold process at h
  cases hn : crypto (EdWire.readNwk raw) with
  | error x =>
    rw [hn] at h
    cases h
    exact crypto_error hn
  | ok nwk =>
    rw [hn] at h
    simp only at h
    split at h
    · cases h
      simp
    · cases ha : authenticate build aes limits r raw nwk with
      | ok w =>
        rw [ha] at h
        cases h
      | error x =>
        rw [ha] at h
        cases h
        exact authenticate_error ha

/-- A delivery stops before anything authenticated, or it has a verdict and is stored or cached. -/
theorem receive_cases (d : Delivery) :
    (∃ e, receive build c d = .stop e ∧ e ≠ .ok ∧ ∀ v, verdict build c d ≠ .ok v) ∨
    ∃ raw limits e w, d.raw = some raw ∧ d.call.limitsOk = some limits ∧
      verdict build c d = .ok (e, w) ∧ Processed build d.call.aes limits c.record raw e w ∧
      3 ≤ c.phase.code ∧ c.phase ≠ .left ∧
      receive build c d = if e = .ok then accepted build w else rejected build w e := by
  unfold receive
  cases hv : verdict build c d with
  | error e =>
    refine .inl ⟨e, rfl, ?_, by simp⟩
    unfold verdict at hv
    split at hv
    · split at hv
      · cases hv
        simp
      · split at hv
        · cases hv
          simp
        · exact process_error hv
    · cases hv
      simp
  | ok v =>
    obtain ⟨e, w⟩ := v
    have hv' := hv
    unfold verdict at hv'
    split at hv'
    · rename_i raw limits hraw hlim
      split at hv'
      · cases hv'
      · split at hv'
        · cases hv'
        · rename_i hp
          simp only [not_or, not_lt] at hp
          exact .inr ⟨raw, limits, e, w, hraw, hlim, rfl, process_cases hv', hp.1, hp.2, rfl⟩
    · cases hv'

/-! What the journal needs. -/

/-- The router octets are part of the image or they are zero. -/
def Shaped (build : Build) (r : Record) : Prop := r.routerRecord build = true ∨ r.router = .zero

/-- A phase with a record behind it. -/
def Phase.used (p : Phase) : Prop := 2 ≤ p.code ∧ p ≠ .failed

/-- A change that keeps the version, the router where there is none, and a phase in use. -/
structure SameShape (build : Build) (r r' : Record) : Prop where
  version : r'.version = r.version
  router : r.routerRecord build = false → r'.router = r.router
  used : r.phase.used → r'.phase.used

theorem SameShape.refl (r : Record) : SameShape build r r := ⟨rfl, fun _ => rfl, id⟩

theorem SameShape.record {r r' : Record} (h : SameShape build r r') :
    r'.routerRecord build = r.routerRecord build := by
  rw [Record.routerRecord, h.version, Record.routerRecord]

theorem SameShape.trans {r r' r'' : Record} (h : SameShape build r r') (h' : SameShape build r' r'') :
    SameShape build r r'' :=
  ⟨h'.version.trans h.version, fun hr => (h'.router (h.record.trans hr)).trans (h.router hr),
    fun hu => h'.used (h.used hu)⟩

theorem SameShape.shaped {r r' : Record} (h : SameShape build r r') (hs : Shaped build r) : Shaped build r' := by
  cases hr : r.routerRecord build with
  | true => exact .inl (h.record.trans hr)
  | false =>
    obtain hs | hs := hs
    · simp [hs] at hr
    · exact .inr ((h.router hr).trans hs)

@[simp] theorem setPhase_phase (r : Record) (p : Phase) : (r.setPhase p).phase = p := by
  unfold Record.setPhase Record.phase
  split <;> rfl

@[simp] theorem leftRecord_phase (r : Record) (rejoin : Bool) : (leftRecord r rejoin).phase = .left :=
  setPhase_phase _ _

@[simp] theorem pendingKey_phase (r : Record) (material : Block) : (pendingKey r material).phase = .provisional :=
  setPhase_phase _ _

@[simp] theorem confirmed_phase (r : Record) (counter : UInt32) : (confirmed r counter).phase = .verified :=
  setPhase_phase _ _

@[simp] theorem rejoinedRecord_phase (r : Record) (address : UInt16) :
    (rejoinedRecord build r address).phase = .verified := setPhase_phase _ _

@[simp] theorem associatedRecord_phase (r : Record) (address : UInt16) :
    (associatedRecord r address).phase = .associated := setPhase_phase _ _

theorem setPhase_shape (r : Record) {p : Phase} (hp : p.used) : SameShape build r (r.setPhase p) :=
  ⟨rfl, fun _ => rfl, fun _ => by simpa using hp⟩

theorem leftRecord_shape (r : Record) (rejoin : Bool) : SameShape build r (leftRecord r rejoin) :=
  ⟨rfl, fun _ => rfl, fun _ => by simp [Phase.used, Phase.code]⟩

theorem install_shape (r : Record) (i : Bool) (material : Block) (sequence : UInt8) :
    SameShape build r (install build r i material sequence) :=
  ⟨rfl, fun hr => by simp [install, hr], id⟩

theorem bindTc_shape (r : Record) (source : NwkFrame.Ieee) : SameShape build r (bindTc build r source) := by
  unfold bindTc
  split
  · rename_i hu
    refine ⟨rfl, fun hr => ?_, id⟩
    simp [Record.unbound, hr] at hu
  · exact .refl r

theorem rejoinedRecord_shape (r : Record) (address : UInt16) :
    SameShape build r (rejoinedRecord build r address) := by
  refine ⟨?_, fun hr => ?_, fun _ => by simp [Phase.used, Phase.code]⟩
  · unfold rejoinedRecord
    simp only
    split
    · split <;> rfl
    · rfl
  · have hr' : Record.routerRecord build { r with addr := address } = false := hr
    simp only [rejoinedRecord, hr', Bool.false_eq_true, if_false]
    rfl

theorem Effect.shape {w : Work} {r : Record} {e : Event} (h : Effect build w r e) :
    SameShape build w.record r := by
  cases h with
  | first =>
    have hflags : SameShape build w.record
        ({ w.record with flags := { Flags.zero with slot := fun i => !i } }.setPhase .received) :=
      ⟨rfl, fun _ => rfl, fun _ => by simp [Phase.used, Phase.code]⟩
    exact hflags.trans ((bindTc_shape _ _).trans (install_shape _ _ _ _))
  | rotate =>
    have hflags : SameShape build w.record { w.record with flags := { w.record.flags with
        slot := Function.update w.record.flags.slot (!w.record.flags.active) true, newer := true } } :=
      ⟨rfl, fun _ => rfl, id⟩
    exact hflags.trans (install_shape _ _ _ _)
  | rejoined address => exact rejoinedRecord_shape _ _
  | leave rejoin => exact leftRecord_shape _ _
  | link => exact ⟨rfl, fun _ => rfl, fun _ => by simp [Phase.used, Phase.code]⟩
  | confirm => exact ⟨rfl, fun _ => rfl, fun _ => by simp [Phase.used, Phase.code]⟩
  | _ => exact ⟨rfl, fun _ => rfl, id⟩

theorem heardRecord_shape {r : Record} {h : NwkHeard} (hr : h.router = true → r.routerRecord build = true) :
    SameShape build r (heardRecord r h) := by
  have hraise : SameShape build r (raiseFloor r h.router h.slot (h.counter + 1)) := by
    unfold raiseFloor
    split
    · rename_i hh
      exact ⟨rfl, fun hn => by simp [hr hh] at hn, id⟩
    · exact ⟨rfl, fun _ => rfl, id⟩
  unfold heardRecord
  simp only
  split
  · exact ⟨hraise.version, hraise.router, hraise.used⟩
  · exact hraise

theorem parentRouter_record {r : Record} (h : r.parentRouter build = true) : r.routerRecord build = true := by
  unfold Record.parentRouter at h
  exact (Bool.and_eq_true_iff.1 h).1

section Stages

variable {aes : Aes} {limits : Limits} {r : Record} {raw : Bytes} {w w' : Work}

theorem NwkStage.shape (h : NwkStage build aes limits r raw w) : SameShape build r w.record := by
  cases h with
  | plain _ hr =>
    rw [hr]
    exact .refl r
  | secured x m type text _ _ _ _ _ _ _ _ hrouter _ _ _ hr =>
    rw [hr]
    exact heardRecord_shape fun hx => parentRouter_record (hrouter ▸ hx)

theorem ApsStage.shape (h : ApsStage build aes limits w w') : SameShape build w.record w'.record := by
  cases h with
  | plain _ hr =>
    rw [hr]
    exact .refl _
  | pending apdu text _ hr =>
    rw [hr]
    exact .refl _
  | admitted apdu text k _ hr =>
    rw [hr]
    exact ⟨rfl, fun _ => rfl, id⟩

theorem Processed.shape {e : Result} (h : Processed build aes limits r raw e w) : SameShape build r w.record := by
  cases h with
  | refused w₀ _ _ hn _ _ ha =>
    rw [ha.record]
    exact hn.shape
  | rejected w₀ _ _ hn _ _ _ ha => exact hn.shape.trans ha.shape
  | accepted w₀ v r' e hn _ _ ha he => exact hn.shape.trans (ha.shape.trans he.shape)

end Stages

/-- A change the caches can hold: NWK floors that only rise, and the keepalive bits. -/
structure Volatile (build : Build) (r r' : Record) : Prop where
  rest : r' = { r with nf := r'.nf, phaseByte := r'.phaseByte, router := { r.router with nf := r'.router.nf } }
  phase : r'.phase = r.phase
  floors : ∀ i, r.nf i ≤ r'.nf i
  routerFloors : ∀ i, r.router.nf i ≤ r'.router.nf i
  cached : (build.replayPolicyC && r.routerRecord build) = false → r'.router = r.router

theorem Volatile.refl (r : Record) : Volatile build r r :=
  ⟨rfl, rfl, fun _ => UInt32.le_refl _, fun _ => UInt32.le_refl _, fun _ => rfl⟩

theorem succ_gt {n : UInt32} (h : n ≠ 0xFFFFFFFF) : n < n + 1 := by
  have hn : n.toNat ≠ 4294967295 := fun he => h (UInt32.toNat_inj.1 he)
  have hlt := n.toNat_lt
  rw [UInt32.lt_iff_toNat_lt, UInt32.toNat_add]
  simp only [UInt32.reduceToNat]
  omega

theorem update_le {f : Bool → UInt32} {i : Bool} {v : UInt32} (h : f i ≤ v) (j : Bool) :
    f j ≤ Function.update f i v j := by
  rw [Function.update_apply]
  split
  · rename_i hj
    rw [hj]
    exact h
  · exact UInt32.le_refl _

/-- A raised floor is cached, the router's under policy C. -/
theorem raiseFloor_volatile {r : Record} {router i : Bool} {counter : UInt32}
    (hr : router = true → build.replayPolicyC = true ∧ r.routerRecord build = true)
    (hf : floor r router i ≤ counter) (hc : counter ≠ 0xFFFFFFFF) :
    Volatile build r (raiseFloor r router i (counter + 1)) := by
  have hle : floor r router i ≤ counter + 1 :=
    UInt32.le_trans hf (UInt32.le_of_lt (succ_gt hc))
  unfold raiseFloor
  cases router with
  | false =>
    exact ⟨rfl, rfl, update_le hle, fun _ => UInt32.le_refl _, fun _ => rfl⟩
  | true =>
    obtain ⟨h1, h2⟩ := hr rfl
    refine ⟨rfl, rfl, fun _ => UInt32.le_refl _, update_le hle, fun hn => ?_⟩
    simp [h1, h2] at hn

theorem answered_volatile (r : Record) (status information : UInt8) :
    Volatile build r (answered r status information) :=
  ⟨rfl, rfl, fun _ => UInt32.le_refl _, fun _ => UInt32.le_refl _, fun _ => rfl⟩

theorem awaiting_volatile (r : Record) : Volatile build r (awaiting r) :=
  ⟨rfl, rfl, fun _ => UInt32.le_refl _, fun _ => UInt32.le_refl _, fun _ => rfl⟩

theorem Volatile.trans {r r' r'' : Record} (h : Volatile build r r') (h' : Volatile build r' r'') :
    Volatile build r r'' := by
  have hrest : r'' = { r with
      nf := r''.nf, phaseByte := r''.phaseByte, router := { r.router with nf := r''.router.nf } } := by
    conv_lhs => rw [h'.rest, h.rest]
  have hrecord : r'.routerRecord build = r.routerRecord build := by
    rw [h.rest]
    rfl
  refine ⟨hrest, h'.phase.trans h.phase, fun i => UInt32.le_trans (h.floors i) (h'.floors i),
    fun i => UInt32.le_trans (h.routerFloors i) (h'.routerFloors i), fun hn => ?_⟩
  rw [h'.cached (by rw [hrecord]; exact hn), h.cached hn]

section Stages

variable {aes : Aes} {limits : Limits} {r : Record} {raw : Bytes} {w w' : Work}

/-- The NWK layer without a switch, and without a checkpoint for the router. -/
theorem NwkStage.cached (h : NwkStage build aes limits r raw w) (hs : w.secured ≠ .switched)
    (hc : checkpoints build w = false) : Volatile build r w.record := by
  cases h with
  | plain _ hr =>
    rw [hr]
    exact .refl r
  | secured x m type text _ _ _ _ _ _ _ _ hrouter _ hfloor hcount hr hsec hsend =>
    have hns : ¬ (r.flags.newer && x.slot != r.flags.active) = true := fun hn => by
      rw [if_pos hn] at hsec
      exact hs hsec
    rw [hr, heardRecord, if_neg hns]
    refine raiseFloor_volatile (fun hx => ⟨?_, parentRouter_record (hrouter ▸ hx)⟩) hfloor hcount
    simpa [checkpoints, hsend, hx] using hc

/-- An accepted frame with a quiet event changes at most the keepalive bits. -/
theorem Effect.cached {r' : Record} {e : Event} (h : Effect build w r' e) (he : e.code ≤ 1) :
    Volatile build w.record r' := by
  cases h with
  | data => exact .refl _
  | management => exact .refl _
  | timeout status information => exact answered_volatile _ _ _
  | _ => simp [Event.code] at he

theorem ApsStage.cached (h : ApsStage build aes limits w w') (ha : w'.apsSecured ≠ .admitted) :
    w'.record = w.record := by
  cases h with
  | plain _ hr => exact hr
  | pending apdu text _ hr => exact hr
  | admitted apdu text k _ hr _ hs => exact absurd hs ha

theorem ApsStage.passes (h : ApsStage build aes limits w w') : Passes w w' := by
  cases h <;> assumption

theorem checkpoints_congr (h : w'.sender = w.sender) : checkpoints build w' = checkpoints build w := by
  simp [checkpoints, h]

theorem rejected_cases (w : Work) (e : Result) :
    rejected build w e = .store w.record (.of e) ∨
    (rejected build w e = .keep w.record (.of e) ∧ w.apsSecured ≠ .admitted ∧ w.secured ≠ .switched ∧
      checkpoints build w = false) := by
  unfold rejected
  split
  · exact .inl rfl
  · rename_i hn
    simp only [not_or, Bool.not_eq_true] at hn
    exact .inr ⟨rfl, hn⟩

/-- The reply to an accepted frame. -/
def acceptedReply (w : Work) : Reply :=
  { Reply.of .ok with received := some ⟨published w.packet, w.event, w.apsSecured != .plain⟩ }

theorem accepted_cases (w : Work) :
    accepted build w = .store w.record (acceptedReply w) ∨
    (accepted build w = .keep w.record (acceptedReply w) ∧ w.event.code ≤ 1 ∧ w.apsSecured = .plain ∧
      w.secured ≠ .switched ∧ checkpoints build w = false) := by
  unfold accepted
  simp only
  split
  · exact .inl rfl
  · rename_i hn
    simp only [not_or, not_lt, not_not, Bool.not_eq_true] at hn
    exact .inr ⟨rfl, hn⟩

/-- A frame that is not stored is within the caches. -/
theorem Processed.cached {e : Result} {r' : Record} {reply : Reply} (h : Processed build aes limits r raw e w)
    (hk : (if e = .ok then SecurityKeys.accepted build w else SecurityKeys.rejected build w e) = .keep r' reply) :
    Volatile build r r' := by
  have rejects : e ≠ .ok → r' = w.record ∧ w.apsSecured ≠ .admitted ∧ w.secured ≠ .switched ∧
      checkpoints build w = false := fun he => by
    rw [if_neg he] at hk
    obtain hx | ⟨hx, hs⟩ := @rejected_cases build w e
    · simp [hx] at hk
    · rw [hx] at hk
      cases hk
      exact ⟨rfl, hs⟩
  cases h with
  | refused w₀ _ _ hn _ he ha =>
    obtain ⟨rfl, -, hs, hc⟩ := rejects he
    rw [ha.record]
    exact hn.cached (ha.passes.secured ▸ hs) (checkpoints_congr ha.passes.sender ▸ hc)
  | rejected w₀ _ _ hn _ he _ ha =>
    obtain ⟨rfl, hd, hs, hc⟩ := rejects he
    rw [ha.cached hd]
    exact hn.cached (ha.passes.secured ▸ hs) (checkpoints_congr ha.passes.sender ▸ hc)
  | accepted w₀ v r'' ev hn _ _ ha he =>
    rw [if_pos rfl] at hk
    obtain hx | ⟨hx, hev, haps, hs, hc⟩ := @accepted_cases build { v with record := r'', event := ev }
    · simp [hx] at hk
    · rw [hx] at hk
      cases hk
      simp only at hev haps hs
      have hbase := hn.cached (ha.passes.secured ▸ hs) (checkpoints_congr ha.passes.sender ▸ hc)
      rw [← ha.cached (by simp [haps])] at hbase
      exact hbase.trans (he.cached hev)

end Stages

/-- A frame that is only cached before the first network key changes nothing. -/
theorem Processed.keyless {aes : Aes} {limits : Limits} {r : Record} {raw : Bytes} {w : Work} {e : Result}
    {r' : Record} {reply : Reply} (h : Processed build aes limits r raw e w)
    (hk : (if e = .ok then SecurityKeys.accepted build w else SecurityKeys.rejected build w e) = .keep r' reply)
    (hn : r.network = false) : r' = r := by
  have plain : ∀ w₀, NwkStage build aes limits r raw w₀ → w₀.record = r ∧ w₀.secured = .plain := fun w₀ h₀ => by
    cases h₀ with
    | plain _ hr _ hs => exact ⟨hr, hs⟩
    | secured x m type text _ _ _ _ _ hs =>
      simp only [Record.network, Bool.or_eq_false_iff] at hn
      simp [slotOf, hn.1, hn.2] at hs
  have rejects : e ≠ .ok → r' = w.record ∧ w.apsSecured ≠ .admitted := fun he => by
    rw [if_neg he] at hk
    obtain hx | ⟨hx, hs, -⟩ := @rejected_cases build w e
    · simp [hx] at hk
    · rw [hx] at hk
      cases hk
      exact ⟨rfl, hs⟩
  cases h with
  | refused w₀ _ _ h₀ _ he ha =>
    rw [(rejects he).1, ha.record, (plain w₀ h₀).1]
  | rejected w₀ _ _ h₀ _ he _ ha =>
    rw [(rejects he).1, ha.cached (rejects he).2, (plain w₀ h₀).1]
  | accepted w₀ v r'' ev h₀ _ _ ha he =>
    rw [if_pos rfl] at hk
    obtain hx | ⟨hx, hev, haps, -⟩ := @accepted_cases build { v with record := r'', event := ev }
    · simp [hx] at hk
    · rw [hx] at hk
      cases hk
      simp only at hev haps
      have hv : v.record = r := (ha.cached (by simp [haps])).trans (plain w₀ h₀).1
      have hsec : v.secured = .plain := ha.passes.secured.trans (plain w₀ h₀).2
      cases he with
      | data => exact hv
      | management => exact hv
      | timeout _ _ _ hs => exact absurd hsec hs
      | _ => simp [Event.code] at hev

/-- A change for the caches only; without a network key there is none. -/
structure Cacheable (build : Build) (r r' : Record) : Prop where
  volatile : Volatile build r r'
  keyless : r.network = false → r' = r ∧ r.phase ≠ .provisioned

/-- What a plan must satisfy to meet the journal. -/
inductive Plan.Fits (build : Build) (c : Context) : Plan → Prop
  | stop (e : Result) : Fits build c (.stop e)
  | store (r : Record) (reply : Reply) : Shaped build r → r.phase.used → Fits build c (.store r reply)
  | stage (r : Record) (image : Bytes) (phase : Phase) : Shaped build r → r.phase = phase → phase.code ≤ 3 →
      (c.record.routerRecord build = false → image = r.image build ∧ ∀ i, r.router.nf i = 0) →
      (c.record.phase = .provisioned ∨ c.record.routerRecord build = false ∧ r.phaseByte = c.record.phaseByte) →
      r.phase ≠ .provisioned → r.phase.used → r.nf = c.record.nf → Fits build c (.stage r image phase)
  | keep (r : Record) (reply : Reply) : Cacheable build c.record r → Fits build c (.keep r reply)
  | transmit (t : Transmission) : (∀ r, t.commit = some r → Shaped build r ∧ r.phase.used ∧ t.pending = none) →
      (∀ r, t.pending = some r → Cacheable build c.record r) → Fits build c (.transmit t)

theorem Sends.fits {t : Transmission} (h : Sends build c.record t) (hs : Shaped build c.record)
    (hu : c.record.phase.used) : Plan.Fits build c (.transmit t) := by
  have commits : ∀ r', t.commit = some r' → t.pending = none → SameShape build c.record r' →
      Plan.Fits build c (.transmit t) := fun r' hc hp hshape => by
    refine .transmit t (fun r h => ?_) (fun r h => ?_)
    · obtain rfl := Option.some.inj (h.symm.trans hc)
      exact ⟨hshape.shaped hs, hshape.used hu, hp⟩
    · simp [hp] at h
  cases h with
  | request _ _ _ _ _ _ hc hp => exact commits _ hc hp (setPhase_shape _ (by simp [Phase.used, Phase.code]))
  | verify _ _ _ _ _ _ _ hc hp => exact commits _ hc hp (setPhase_shape _ (by simp [Phase.used, Phase.code]))
  | leave _ _ _ _ _ hc hp => exact commits _ hc hp (leftRecord_shape _ _)
  | rejoin _ _ _ _ hc hp => exact commits _ hc hp ⟨rfl, fun _ => rfl, fun _ => by simp [Phase.used, Phase.code]⟩
  | depart _ _ _ _ _ hc hp => exact commits _ hc hp (leftRecord_shape _ _)
  | timeout _ _ _ _ hc hp hn =>
    refine .transmit t (fun r h => ?_) (fun r h => ?_)
    · simp [hc] at h
    · obtain rfl := Option.some.inj (h.symm.trans hp)
      exact ⟨awaiting_volatile _, fun hf => by simp [hn] at hf⟩
  | data _ _ _ hc hp =>
    refine .transmit t (fun r h => ?_) (fun r h => ?_)
    · simp [hc] at h
    · simp [hp] at h

/-- Every call's plan meets the journal. -/
theorem Task.fits (t : Task build) (hs : Shaped build c.record) (hp : c.phase = c.record.phase)
    (hu : c.record.phase.used) : (t.plan c).Fits build c := by
  have image_base : ∀ r : Record, r.routerRecord build = false → r.encodeBase = r.image build := fun r hr => by
    simp [Record.image, hr]
  cases t with
  | upgradeParent polls hb =>
    obtain ⟨e, h⟩ | ⟨h, -⟩ := @upgradeParent_cases c polls <;> rw [Task.plan, h]
    · exact .stop e
    · exact .store _ _ (.inl (by simp [Record.routerRecord, hb])) hu
  | rememberParent parent polls hb =>
    obtain ⟨e, h⟩ | ⟨p, h, hr⟩ := @rememberParent_cases build c parent polls <;> rw [Task.plan, h]
    · exact .stop e
    · exact .store _ _ (.inl hr.router) hu
  | selectParent router updateId polls hb =>
    obtain ⟨e, h⟩ | ⟨hr, -, ⟨h, -⟩ | h⟩ := @selectParent_cases build c router updateId polls <;> rw [Task.plan, h]
    · exact .stop e
    · exact .store _ _ (.inl hr) hu
    · exact .store _ _ (.inl hr) hu
  | associate shortAddress polls =>
    obtain ⟨e, h⟩ | ⟨h, hph, -⟩ := @associate_cases c shortAddress polls <;> rw [Task.plan, h]
    · exact .stop e
    · have hshape : SameShape build c.record (associatedRecord c.record shortAddress) :=
        ⟨rfl, fun _ => rfl, fun _ => by simp [Phase.used, Phase.code]⟩
      refine .stage _ _ _ (hshape.shaped hs) rfl (by decide) (fun hr => ⟨image_base _ hr, fun i => ?_⟩)
        (.inl hph) (by simp) (by simp [Phase.used, Phase.code]) rfl
      have hz : c.record.router = .zero := hs.resolve_left (by simp [hr])
      change c.record.router.nf i = 0
      rw [hz]
      rfl
  | routerParent routerAddress polls hb =>
    obtain ⟨e, h⟩ | ⟨h, hph, hr, -⟩ := @routerParent_cases build c routerAddress polls <;> rw [Task.plan, h]
    · exact .stop e
    · have hrec : (unboundRecord c.record routerAddress).routerRecord build = true := by
        simp [unboundRecord, Record.routerRecord, build.router_recovers hb]
      refine .stage _ _ _ (.inl hrec) hp.symm ?_ (fun _ => ⟨by simp [Record.image, hrec], fun _ => rfl⟩)
        (.inr ⟨hr, rfl⟩) (fun h => ?_) hu rfl
      · rw [hp, hph]
        decide
      · have : c.record.phase = .provisioned := h
        simp [hph] at this
  | receive d =>
    obtain ⟨e, h, -⟩ | ⟨raw, limits, e, w, -, -, -, hw, hcode, -, h⟩ := @receive_cases build c d
    · rw [Task.plan, h]
      exact .stop e
    · have hplan : (Task.receive d : Task build).plan c =
          if e = .ok then accepted build w else rejected build w e := h
      have hstore := fun reply => @Plan.Fits.store build c w.record reply (hw.shape.shaped hs)
        (hw.shape.used hu)
      have hkeep : ∀ r' reply, (if e = .ok then accepted build w else rejected build w e) = .keep r' reply →
          Plan.Fits build c (.keep r' reply) := fun r' reply hk =>
        .keep r' reply ⟨hw.cached hk, fun hn => ⟨hw.keyless hk hn, fun hq => by
          rw [hp, hq] at hcode
          simp [Phase.code] at hcode⟩⟩
      rw [hplan]
      by_cases he : e = .ok
      · rw [if_pos he] at hkeep ⊢
        obtain hx | ⟨hx, -⟩ := @accepted_cases build w
        · rw [hx]
          exact hstore _
        · rw [hx]
          exact hkeep _ _ hx
      · rw [if_neg he] at hkeep ⊢
        obtain hx | ⟨hx, -⟩ := @rejected_cases build w e
        · rw [hx]
          exact hstore _
        · rw [hx]
          exact hkeep _ _ hx
  | request nwkSeq apsCounter o =>
    obtain ⟨e, h, -⟩ | ⟨t, h, -, ht, -⟩ := @request_cases build c nwkSeq apsCounter o <;> rw [Task.plan, h]
    · exact .stop e
    · exact ht.fits hs hu
  | verify nwkSeq apsCounter o =>
    obtain ⟨e, h, -⟩ | ⟨t, h, -, ht, -⟩ := @verify_cases build c nwkSeq apsCounter o <;> rw [Task.plan, h]
    · exact .stop e
    · exact ht.fits hs hu
  | leave nwkSeq o =>
    obtain ⟨e, h, -⟩ | ⟨-, -, h⟩ | ⟨t, h, -, ht, -⟩ := @leave_cases build c nwkSeq o <;> rw [Task.plan, h]
    · exact .stop e
    · exact .store _ _ ((leftRecord_shape _ _).shaped hs) (by simp [Phase.used, Phase.code])
    · exact ht.fits hs hu
  | send packet apsSecure o =>
    obtain ⟨e, h, -⟩ | ⟨p, t, -, h, -, -, -, ht⟩ := @send_cases build c packet apsSecure o <;> rw [Task.plan, h]
    · exact .stop e
    · exact ht.fits hs hu

end SecurityKeys
