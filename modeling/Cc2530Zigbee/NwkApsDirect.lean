import Cc2530Zigbee.NwkApsStep
import Cc2530Zigbee.MacFrameCodec

/-!
# The NWK and APS transport: sending from the transmitter's own frame

The DIRECT profile has no buffer of its own. A frame is built in the frame of
an idle transmitter, on loan, and admitted where it stands. It comes to the
same as building it apart and handing it over.
-/
namespace MacTx

open Octets

/-- Octets written into the frame. -/
def overwritten (frame : Vector UInt8 125) (start : Nat) (octets : Bytes) : Vector UInt8 125 :=
  Vector.ofFn fun k =>
    if start ≤ k.val ∧ k.val < start + octets.length then byteAt octets (k.val - start) else frame[k]

/-- `mac_tx_interval_stage`: the generation the frame of an idle transmitter is lent in. -/
def intervalStage (tx : IntervalTx) : Option UInt32 := if tx.engine.phase ≠ .idle then none else some tx.engine.generation

/-- The decoded frames that may be sent from where they stand. -/
def stageable (info : MacFrame.Info) (body : Bytes) : Bool :=
  let h := info.header
  !(MacFrame.has h.flags MacFrame.pending ||
    (h.type != MacFrame.data && !(h.type == MacFrame.command && h.destinationMode == MacFrame.addressShort &&
      byteAt body info.payloadOffset == MacFrame.dataRequest)) ||
    h.sourcePan == 0xFFFF || h.destinationPan == 0xFFFF ||
    (!MacFrame.has h.flags MacFrame.panCompression && h.sourcePan == h.destinationPan) ||
    unallocated h.sourceMode h.source || unallocated h.destinationMode h.destination)

/-- `mac_tx_interval_submit_staged`, with the generation of the loan. -/
def intervalSubmitStaged (tx : IntervalTx) (lent : Option UInt32) (length : Nat) (now lifetime : UInt32)
    (work : UInt16) : Result × IntervalTx :=
  let c := tx.engine
  if lifetime = 0 ∨ half ≤ lifetime ∨ work = 0 ∨ length = 0 ∨ MacFrame.maxBody < length then (.invalid, tx)
  else if c.phase ≠ .idle then (.full, tx)
  else if lent ≠ some c.generation then (.state, tx)
  else if half ≤ now - c.last then (.invalid, tx)
  else if c.generation = 0xFFFFFFFF then (.generationExhausted, tx)
  else
    let body := c.frame.toList.take length
    match MacFrame.decode body with
    | .error _ => (.unsupported, tx)
    | .ok info =>
      if !stageable info body then (.unsupported, tx)
      else (.ok, ⟨{ c with
        frame := overwritten c.frame 2 [c.nextDsn]
        nextDsn := c.nextDsn + 1
        length := UInt8.ofNat length
        ackRequested := MacFrame.has info.header.flags MacFrame.ackRequest
        generation := c.generation + 1
        readyAt := readyFrom c now
        last := now
        deadline := now + lifetime
        steps := work
        phase := .draw
        nb := 0
        be := minBe
        retries := 0
        outcome := .none
        transmissions := 0
        uncertain := false
        pending := false
        retryPending := false }, ⟨0, 0⟩, ⟨0, 0⟩⟩)

theorem overwritten_get (frame : Vector UInt8 125) (start : Nat) (octets : Bytes) (k : Nat) (hk : k < 125) :
    (overwritten frame start octets)[k] =
      if start ≤ k ∧ k < start + octets.length then byteAt octets (k - start) else frame[k] := by
  simp [overwritten]

attribute [irreducible] overwritten

/-- Two pieces side by side are one piece. -/
theorem overwritten_append (frame : Vector UInt8 125) (a b : Bytes) :
    overwritten (overwritten frame a.length b) 0 a = overwritten frame 0 (a ++ b) := by
  ext k hk
  rw [overwritten_get _ _ _ k hk, overwritten_get _ _ _ k hk, overwritten_get _ _ _ k hk]
  by_cases ha : k < a.length
  · have hb : k < a.length + b.length := by omega
    simp [ha, hb, byteAt]
  · rw [if_neg (by omega)]
    by_cases hb : k < a.length + b.length
    · rw [if_pos ⟨by omega, hb⟩, if_pos ⟨by omega, by simpa using hb⟩, Nat.sub_zero, byteAt_skip a b k (by omega)]
    · rw [if_neg (by omega), if_neg (by simpa using hb)]

/-- The octets stand at the front of the frame. -/
theorem overwritten_take (frame : Vector UInt8 125) (body : Bytes) (h : body.length ≤ 125) :
    (overwritten frame 0 body).toList.take body.length = body := by
  apply List.ext_getElem
  · simpa using h
  intro k hk hk'
  have hlt : k < 125 := by omega
  rw [List.getElem_take, Vector.getElem_toList, overwritten_get _ _ _ k hlt, if_pos ⟨by omega, by simpa using hk'⟩]
  simp [byteAt, hk']

theorem overwritten_dsn (frame : Vector UInt8 125) (body : Bytes) (dsn : UInt8) :
    overwritten (overwritten frame 0 body) 2 [dsn] = copied frame body dsn := by
  ext k hk
  rw [overwritten_get _ _ _ k hk, overwritten_get _ _ _ k hk]
  by_cases h2 : k = 2
  · subst h2
    simp [copied, byteAt]
  · rw [if_neg (by simp; omega)]
    simp [copied, h2]

/-- A transmitter whose frame holds something else. -/
def refit (tx : IntervalTx) (frame : Vector UInt8 125) : IntervalTx :=
  { tx with engine := { tx.engine with frame := frame } }

/-- A frame admitted where it stands is the frame handed over. -/
theorem submit_staged (tx : IntervalTx) (body : Bytes) (now lifetime : UInt32) (work : UInt16)
    (hidle : tx.engine.phase = .idle) (hlength : 0 < body.length ∧ body.length ≤ 125)
    (hsame : ∀ info, MacFrame.decode body = .ok info → stageable info body = transmittable info body) :
    (intervalSubmitStaged (refit tx (overwritten tx.engine.frame 0 body)) (some tx.engine.generation) body.length now
        lifetime work = intervalSubmit tx body now lifetime work ∧ (intervalSubmit tx body now lifetime work).1 = .ok) ∨
    ((intervalSubmitStaged (refit tx (overwritten tx.engine.frame 0 body)) (some tx.engine.generation) body.length now
        lifetime work).1 ≠ .ok ∧
      (intervalSubmitStaged (refit tx (overwritten tx.engine.frame 0 body)) (some tx.engine.generation) body.length now
        lifetime work).2 = refit tx (overwritten tx.engine.frame 0 body) ∧
      (intervalSubmit tx body now lifetime work).1 ≠ .ok ∧ (intervalSubmit tx body now lifetime work).2 = tx) := by
  have htake := overwritten_take tx.engine.frame body hlength.2
  unfold intervalSubmitStaged intervalSubmit submit
  simp only [refit, htake, hidle, ne_eq, not_true_eq_false, if_false]
  by_cases hlife : lifetime = 0 ∨ half ≤ lifetime ∨ work = 0
  · rw [if_pos hlife, if_pos (by rcases hlife with h | h | h <;> simp [h])]
    exact .inr ⟨by simp, rfl, by simp, rfl⟩
  have hroom : ¬(lifetime = 0 ∨ half ≤ lifetime ∨ work = 0 ∨ body.length = 0 ∨ MacFrame.maxBody < body.length) := by
    simp only [not_or] at hlife ⊢
    exact ⟨hlife.1, hlife.2.1, hlife.2.2, by omega, by simp only [MacFrame.maxBody]; omega⟩
  rw [if_neg hlife, if_neg hroom]
  split
  · exact .inr ⟨by simp, rfl, by simp, rfl⟩
  split
  · exact .inr ⟨by simp, rfl, by simp, rfl⟩
  cases hdecode : MacFrame.decode body with
  | error e => exact .inr ⟨by simp, rfl, by simp, rfl⟩
  | ok info =>
    simp only [hsame info hdecode]
    split
    · exact .inr ⟨by simp, rfl, by simp, rfl⟩
    · simp only [overwritten_dsn, readyFrom, if_true]
      exact .inl ⟨trivial, trivial⟩

end MacTx

namespace NwkAps

open Octets
open EdWire (Packet)
open MacTx (IntervalTx)

/-- The layer with octets written into the frame on loan. -/
def lay (l : Layer) (start : Nat) (octets : Bytes) : Layer :=
  { l with owner := { l.owner with engine := { l.owner.engine with
      frame := MacTx.overwritten l.owner.engine.frame start octets } } }

/-- The MAC header in front of a protected NPDU that stands in the frame. -/
def directFrame (build : Build) (l : Layer) (lent : UInt32) (acknowledgment : Bool) (p : Packet)
    (s : SecurityKeys.Status) (npdu : Bytes) (now : UInt32) : Result × Layer :=
  if npdu.length = 0 ∨ NwkFrame.maxBody < npdu.length then (.wire, l)
  else match MacFrame.encode (macHeader build l acknowledgment p s) [] macPrefix with
    | .error _ => (.wire, l)
    | .ok front =>
      let l := { lay l 0 front with macLength := UInt8.ofNat front.length }
      if front.length ≠ macPrefix then (.wire, l)
      else
        let l := { l with macLength := l.macLength + l.length }
        let r := MacTx.intervalSubmitStaged l.owner (some lent) (front.length + npdu.length) now txLifetime txWork
        if r.1 ≠ .ok then (.radio, { l with owner := r.2 }) else (.ok, taken { l with owner := r.2 } acknowledgment)

/-- `nwk_aps_transmit` of the DIRECT profile. -/
def directTransmit (build : Build) (l : Layer) (acknowledgment : Bool) (now : UInt32) (k : Keys) : Result × Layer :=
  match MacTx.intervalStage l.owner with
  | none => (.state, l)
  | some lent => match k.status with
    | .error _ => (.security, l)
    | .ok s =>
      let p := outbound l acknowledgment s
      let l := numbered l acknowledgment p
      match secured l acknowledgment p k with
      | .error e => (.security, { l with error := .security e })
      | .ok npdu =>
        let l := { lay l macPrefix npdu with length := UInt8.ofNat npdu.length }
        if !acknowledgment ∧ l.special = 3 ∧ npdu.length = 0 then
          (.ok, { l with toTransport := complete { l.toTransport with quiet := true } .ok k.final })
        else match recordOwn l acknowledgment p s now with
          | .error e => (e, l)
          | .ok l => directFrame build l lent acknowledgment p s npdu now

/-- `nwk_aps_transmit_poll` of the DIRECT profile. -/
def directTransmitPoll (build : Build) (l : Layer) (now : UInt32) (k : Keys) : Result × Layer :=
  match MacTx.intervalStage l.owner with
  | none => (.state, l)
  | some lent => match k.status with
    | .error _ => (.security, l)
    | .ok s =>
      match MacFrame.encode (pollHeader build (l.poll == 2) s) [MacFrame.dataRequest] (macPrefix + 1) with
      | .error _ => (.wire, l)
      | .ok body =>
        let l := { lay l 0 body with macLength := UInt8.ofNat body.length }
        if body.length ≠ macPrefix + 1 then (.wire, l)
        else
          let r := MacTx.intervalSubmitStaged l.owner (some lent) body.length now txLifetime txWork
          if r.1 ≠ .ok then (.radio, { l with owner := r.2 })
          else (.ok, { l with owner := r.2, active := true, activePoll := true, activeAck := false, poll := 0 })

/-! ## The two ways of sending agree -/

/-- The layer with another frame in its transmitter. -/
def reframed (l : Layer) (frame : Vector UInt8 125) : Layer := { l with owner := MacTx.refit l.owner frame }

theorem lay_eq (l : Layer) (start : Nat) (octets : Bytes) :
    lay l start octets = reframed l (MacTx.overwritten l.owner.engine.frame start octets) := rfl

/-- The answers are the same, and so are the layers up to the frame of a transmitter that took nothing;
a transmitter that took the frame is the same altogether. -/
structure Agrees (a b : Result × Layer) : Prop where
  result : b.1 = a.1
  fields : ∃ frame, b.2 = reframed a.2 frame
  submitted : a.2.owner.engine.phase ≠ .idle → b.2 = a.2

/-- Nothing was handed over. -/
theorem agrees_of_unsent {r : Result} {l l' : Layer} (frame : Vector UInt8 125) (hidle : l.owner.engine.phase = .idle)
    (h : l' = reframed l frame) : Agrees (r, l) (r, l') :=
  ⟨rfl, ⟨frame, h⟩, fun hf => absurd hidle hf⟩

theorem agrees_refl (a : Result × Layer) : Agrees a a := ⟨rfl, ⟨a.2.owner.engine.frame, rfl⟩, fun _ => rfl⟩

/-- The first octet tells the type of a decoded frame. -/
theorem decode_type {body : Bytes} {info : MacFrame.Info} (h : MacFrame.decode body = .ok info) :
    info.header.type = byteAt body 0 &&& 7 := by
  obtain ⟨-, -, -, -, s, -, -, -, -, -, rfl⟩ := MacFrame.decodeProfile_ok.1 h
  rfl

/-- Data may stand in the frame exactly when it may be handed over. -/
theorem stageable_data {info : MacFrame.Info} (body : Bytes) (h : info.header.type = MacFrame.data) :
    MacTx.stageable info body = MacTx.transmittable info body := by
  have hne : ¬info.header.type = MacFrame.command := by
    rw [h]
    decide
  unfold MacTx.stageable MacTx.transmittable
  simp only
  cases MacFrame.has info.header.flags MacFrame.pending with
  | true => simp
  | false =>
    rw [if_neg (by simp), if_neg hne]
    simp [h]

theorem macHeader_octet (build : Build) (l : Layer) (acknowledgment : Bool) (p : Packet) (s : SecurityKeys.Status) :
    ((macHeader build l acknowledgment p s).type ||| (macHeader build l acknowledgment p s).flags) &&& 7 =
      MacFrame.data := by
  simp only [macHeader]
  split <;> rfl

/-- A usable short address is not the one that stands for none. -/
theorem not_unallocated {a : MacFrame.Address} (h : ¬0xFFFE ≤ MacFrame.short a) :
    MacTx.unallocated MacFrame.addressShort (MacFrame.trimmed a 2) = false := by
  by_contra hf
  refine h ?_
  simp only [MacTx.unallocated, beq_self_eq_true, Bool.true_and, Bool.not_eq_false, Bool.and_eq_true, beq_iff_eq] at hf
  obtain ⟨h0, h1⟩ := hf
  have ha : a[0] = 0xFE ∧ a[1] = 0xFF := by simpa [MacFrame.trimmed] using And.intro h0 h1
  unfold MacFrame.short
  rw [ha.1, ha.2]
  decide

/-- What the codec asks of the addresses of a poll. -/
theorem poll_addresses {h : MacFrame.Header} (hd : h.destinationMode = MacFrame.addressShort)
    (hs : h.sourceMode = MacFrame.addressShort)
    (hpolicy : MacFrame.commandHeaderPolicy h [MacFrame.dataRequest] 1 = .ok) :
    ¬0xFFFE ≤ MacFrame.short h.destination ∧ ¬0xFFFE ≤ MacFrame.short h.source := by
  have hcommand : MacFrame.commandDecode [MacFrame.dataRequest] = .ok ⟨MacFrame.dataRequest, 0, 0, 0, 0⟩ := by decide
  unfold MacFrame.commandHeaderPolicy at hpolicy
  simp only [List.length_singleton, hcommand] at hpolicy
  rw [if_neg (by decide)] at hpolicy
  split at hpolicy
  · cases hpolicy
  rw [if_neg (by decide)] at hpolicy
  split at hpolicy
  · cases hpolicy
  rename_i hok
  simp only [not_or, not_and, hd, hs, forall_const] at hok
  exact hok.2

/-- A poll may stand in the frame exactly when it may be handed over. -/
theorem stageable_poll {build : Build} {rejoin : Bool} {s : SecurityKeys.Status} {body : Bytes} {capacity : Nat}
    (hencode : MacFrame.encode (pollHeader build rejoin s) [MacFrame.dataRequest] capacity = .ok body)
    {info : MacFrame.Info} (hdecode : MacFrame.decode body = .ok info) :
    MacTx.stageable info body = MacTx.transmittable info body := by
  obtain ⟨n, hd, hdrop⟩ := MacFrame.decode_encode hencode
  rw [hd] at hdecode
  cases hdecode
  obtain ⟨-, -, -, -, -, hpolicy, -, -⟩ := MacFrame.encode_ok.1 hencode
  obtain ⟨hdest, hsource⟩ := poll_addresses rfl rfl hpolicy
  have hcommand : byteAt body n = MacFrame.dataRequest := by
    have hget : (body.drop n)[0]? = some MacFrame.dataRequest := by rw [hdrop]; rfl
    rw [List.getElem?_drop, Nat.add_zero] at hget
    simp [byteAt, hget]
  have hpending : MacFrame.has (MacFrame.canonical (pollHeader build rejoin s)).flags MacFrame.pending = false :=
    (by decide : MacFrame.has (MacFrame.panCompression ||| MacFrame.ackRequest) MacFrame.pending = false)
  have hcompressed : MacFrame.has (MacFrame.canonical (pollHeader build rejoin s)).flags MacFrame.panCompression = true :=
    (by decide : MacFrame.has (MacFrame.panCompression ||| MacFrame.ackRequest) MacFrame.panCompression = true)
  have hd' : MacTx.unallocated (MacFrame.canonical (pollHeader build rejoin s)).destinationMode
      (MacFrame.canonical (pollHeader build rejoin s)).destination = false := not_unallocated hdest
  have hs' : MacTx.unallocated (MacFrame.canonical (pollHeader build rejoin s)).sourceMode
      (MacFrame.canonical (pollHeader build rejoin s)).source = false := not_unallocated hsource
  have hpan : (MacFrame.canonical (pollHeader build rejoin s)).sourcePan = s.config.pan ∧
      (MacFrame.canonical (pollHeader build rejoin s)).destinationPan = s.config.pan := ⟨rfl, rfl⟩
  have htype : (MacFrame.canonical (pollHeader build rejoin s)).type = MacFrame.command := rfl
  have hmode : (MacFrame.canonical (pollHeader build rejoin s)).destinationMode = MacFrame.addressShort := rfl
  have hbeacon : (MacFrame.dataRequest == MacFrame.beaconRequest) = false := by decide
  have hassociation : (MacFrame.dataRequest == MacFrame.associationRequest) = false := by decide
  simp only [MacTx.stageable, MacTx.transmittable, hpending, hcompressed, hd', hs', hpan.1, hpan.2, htype, hcommand]
  rw [hmode]
  have haddressed : (MacFrame.addressShort == MacFrame.addressNone) = false := by decide
  have hdata : (MacFrame.command == MacFrame.data) = false := by decide
  cases hp : s.config.pan == 0xFFFF <;> simp [hbeacon, hassociation, haddressed, hdata, bne, hp]

/-- Only the owner holds what was laid into its frame. -/
theorem lay_owner (l : Layer) (start : Nat) (octets : Bytes) (owner : IntervalTx) :
    ({ lay l start octets with owner := owner } : Layer) = { l with owner := owner } := rfl

/-- Handing a frame over, or admitting it where it stands. -/
theorem submit_agrees (l : Layer) (body : Bytes) (now : UInt32) (hidle : l.owner.engine.phase = .idle)
    (hlength : 0 < body.length ∧ body.length ≤ 125)
    (hsame : ∀ info, MacFrame.decode body = .ok info → MacTx.stageable info body = MacTx.transmittable info body)
    (done : Layer → Layer) :
    let a := submit true l.owner body now
    let b := MacTx.intervalSubmitStaged (lay l 0 body).owner (some l.owner.engine.generation) body.length now txLifetime
      txWork
    Agrees (if a.1 ≠ .ok then (.radio, { l with owner := a.2 }) else (.ok, done { l with owner := a.2 }))
      (if b.1 ≠ .ok then (.radio, { lay l 0 body with owner := b.2 })
        else (.ok, done { lay l 0 body with owner := b.2 })) := by
  simp only [submit, if_true, lay_owner]
  have howner : (lay l 0 body).owner = MacTx.refit l.owner (MacTx.overwritten l.owner.engine.frame 0 body) := rfl
  rw [howner]
  rcases MacTx.submit_staged l.owner body now txLifetime txWork hidle hlength hsame with
    ⟨heq, hok⟩ | ⟨hbad, hstays, hbad', hstays'⟩
  · rw [heq, if_neg (by simp [hok])]
    exact agrees_refl _
  · rw [if_pos hbad', if_pos hbad, hstays, hstays']
    exact agrees_of_unsent (MacTx.overwritten l.owner.engine.frame 0 body) hidle rfl

theorem directFrame_agrees (build : Build) (l : Layer) (acknowledgment : Bool) (p : Packet) (s : SecurityKeys.Status)
    (npdu : Bytes) (now : UInt32) (hidle : l.owner.engine.phase = .idle) :
    Agrees (transmitFrame true build l acknowledgment p s npdu now)
      (directFrame build (lay l macPrefix npdu) l.owner.engine.generation acknowledgment p s npdu now) := by
  have hheader : macHeader build (lay l macPrefix npdu) acknowledgment p s = macHeader build l acknowledgment p s := rfl
  unfold transmitFrame directFrame
  rw [hheader]
  split
  · exact agrees_of_unsent _ hidle (lay_eq l macPrefix npdu)
  rename_i hroom
  cases hencode : MacFrame.encode (macHeader build l acknowledgment p s) [] macPrefix with
  | error e => exact agrees_of_unsent _ hidle (lay_eq l macPrefix npdu)
  | ok front =>
    simp only
    split
    · exact agrees_of_unsent _ hidle rfl
    rename_i hfront
    have hfront : front.length = macPrefix := not_not.mp hfront
    have hlay : lay (lay l macPrefix npdu) 0 front = lay l 0 (front ++ npdu) := by
      rw [lay_eq, lay_eq, lay_eq, ← hfront]
      exact congrArg (reframed l) (MacTx.overwritten_append _ front npdu)
    have hlength : 0 < (front ++ npdu).length ∧ (front ++ npdu).length ≤ 125 := by
      simp only [not_or, Nat.not_lt] at hroom
      simp only [NwkFrame.maxBody, macPrefix] at hroom hfront
      rw [List.length_append]
      omega
    have htype : ∀ info, MacFrame.decode (front ++ npdu) = .ok info → info.header.type = MacFrame.data := by
      intro info hinfo
      rw [decode_type hinfo]
      obtain ⟨shape, -, -, -, -, -, -, hemit⟩ := MacFrame.encode_ok.1 hencode
      rw [hemit]
      exact macHeader_octet build l acknowledgment p s
    have hagrees := submit_agrees { l with macLength := UInt8.ofNat front.length + l.length } (front ++ npdu) now hidle
      hlength (fun info hinfo => stageable_data _ (htype info hinfo)) (fun m => taken m acknowledgment)
    rw [hlay, ← List.length_append]
    exact hagrees

/-- The layer a received or sent broadcast is recorded in may have any frame in its transmitter. -/
theorem recordOwn_reframed (l : Layer) (frame : Vector UInt8 125) (acknowledgment : Bool) (p : Packet)
    (s : SecurityKeys.Status) (now : UInt32) :
    recordOwn (reframed l frame) acknowledgment p s now =
      (recordOwn l acknowledgment p s now).map fun m => reframed m frame := by
  unfold recordOwn
  have hown : ownBroadcast (reframed l frame) acknowledgment p = ownBroadcast l acknowledgment p := rfl
  have htable : (reframed l frame).broadcast = l.broadcast := rfl
  rw [hown, htable]
  split
  · split <;> rfl
  · rfl

theorem recordOwn_owner {l l' : Layer} {acknowledgment : Bool} {p : Packet} {s : SecurityKeys.Status} {now : UInt32}
    (h : recordOwn l acknowledgment p s now = .ok l') : l'.owner = l.owner := by
  unfold recordOwn at h
  split at h
  · split at h
    · cases h
    · cases h
    · cases h
      rfl
  · cases h
    rfl

theorem directTransmit_agrees (build : Build) (l : Layer) (acknowledgment : Bool) (now : UInt32) (k : Keys)
    (hidle : l.owner.engine.phase = .idle) :
    Agrees (transmit true build l acknowledgment now k) (directTransmit build l acknowledgment now k) := by
  have hstage : MacTx.intervalStage l.owner = some l.owner.engine.generation := if_neg (not_not.mpr hidle)
  unfold transmit directTransmit
  rw [hstage]
  cases k.status with
  | error e => exact agrees_refl _
  | ok s =>
    simp only
    have howner : (numbered l acknowledgment (outbound l acknowledgment s)).owner = l.owner := by
      unfold numbered
      split <;> rfl
    generalize hb : numbered l acknowledgment (outbound l acknowledgment s) = b at howner ⊢
    cases hsecured : secured b acknowledgment (outbound l acknowledgment s) k with
    | error e => exact agrees_refl _
    | ok npdu =>
      simp only
      have hfree : b.owner.engine.phase = .idle := by rw [howner]; exact hidle
      have hlay : ({ lay b macPrefix npdu with length := UInt8.ofNat npdu.length } : Layer) =
          reframed { b with length := UInt8.ofNat npdu.length }
            (MacTx.overwritten b.owner.engine.frame macPrefix npdu) := rfl
      have hspecial : (lay b macPrefix npdu).special = b.special := rfl
      rw [hlay, hspecial]
      split
      · exact agrees_of_unsent (MacTx.overwritten b.owner.engine.frame macPrefix npdu) hfree rfl
      rw [recordOwn_reframed]
      cases hrecord : recordOwn { b with length := UInt8.ofNat npdu.length } acknowledgment
          (outbound l acknowledgment s) s now with
      | error e => exact agrees_of_unsent (MacTx.overwritten b.owner.engine.frame macPrefix npdu) hfree rfl
      | ok m =>
        have hm : m.owner = l.owner := (recordOwn_owner hrecord).trans howner
        have hframe : reframed m (MacTx.overwritten b.owner.engine.frame macPrefix npdu) = lay m macPrefix npdu := by
          rw [lay_eq, hm, howner]
        simp only [Except.map]
        rw [hframe, ← hm]
        exact directFrame_agrees build m acknowledgment _ s npdu now (by rw [hm]; exact hidle)

theorem directTransmitPoll_agrees (build : Build) (l : Layer) (now : UInt32) (k : Keys)
    (hidle : l.owner.engine.phase = .idle) :
    Agrees (transmitPoll true build l now k) (directTransmitPoll build l now k) := by
  have hstage : MacTx.intervalStage l.owner = some l.owner.engine.generation := if_neg (not_not.mpr hidle)
  unfold transmitPoll directTransmitPoll
  rw [hstage]
  cases k.status with
  | error e => exact agrees_refl _
  | ok s =>
    simp only
    cases hencode : MacFrame.encode (pollHeader build (l.poll == 2) s) [MacFrame.dataRequest] (macPrefix + 1) with
    | error e => exact agrees_refl _
    | ok body =>
      simp only
      split
      · exact agrees_of_unsent (MacTx.overwritten l.owner.engine.frame 0 body) hidle rfl
      rename_i hlength
      have hlength : body.length = macPrefix + 1 := not_not.mp hlength
      have hagrees := submit_agrees { l with macLength := UInt8.ofNat body.length } body now hidle
        (by simp only [hlength, macPrefix]; omega) (fun info hinfo => stageable_poll hencode hinfo)
        (fun m => { m with active := true, activePoll := true, activeAck := false, poll := 0 })
      exact hagrees

/-- From an idle transmitter the two profiles send the same and leave the same behind; a busy one is left
alone by the DIRECT profile. -/
theorem direct_agrees (build : Build) (l : Layer) (acknowledgment : Bool) (now : UInt32) (k : Keys) :
    (l.owner.engine.phase = .idle →
      Agrees (transmit true build l acknowledgment now k) (directTransmit build l acknowledgment now k) ∧
        Agrees (transmitPoll true build l now k) (directTransmitPoll build l now k)) ∧
    (l.owner.engine.phase ≠ .idle →
      directTransmit build l acknowledgment now k = (.state, l) ∧ directTransmitPoll build l now k = (.state, l)) := by
  refine ⟨fun hidle => ⟨directTransmit_agrees build l acknowledgment now k hidle,
    directTransmitPoll_agrees build l now k hidle⟩, fun hbusy => ?_⟩
  have hstage : MacTx.intervalStage l.owner = none := if_pos hbusy
  unfold directTransmit directTransmitPoll
  rw [hstage]
  exact ⟨rfl, rfl⟩

end NwkAps
