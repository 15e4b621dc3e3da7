import Cc2530Zigbee.SecurityKeys

/-!
# Key custody: receiving

The working storage of `security_keys_receive`. Every validator returns its
result together with the working storage as it left it, so what a rejected
frame may have changed is a theorem and not a convention. The two `heard`
fields record what authenticated; nothing reads them.
-/
namespace SecurityKeys

open Octets
open NwkFrame (Ieee)
open CcmStar (Aes Block Limits)
open EdWire (Packet)

/-- An NPDU that authenticated: the slot and its key, the sender, the counter. -/
structure NwkHeard where
  slot : Bool
  key : Block
  sequence : UInt8
  source : Ieee
  router : Bool
  counter : UInt32
  raw : Bytes

/-- An APDU that authenticated under the current link key or the pending one. -/
structure ApsHeard where
  current : Bool
  key : Block
  counter : UInt32
  apdu : Bytes

/-- The values of `w.secured`; `switched` also changed the active slot. -/
inductive Secured where
  | plain | secured | switched
  deriving DecidableEq, Repr

/-- The values of `w.aps_secured`. -/
inductive ApsSecured where
  | plain | marked | admitted
  deriving DecidableEq, Repr

structure Work where
  record : Record
  frame : Bytes
  nwk : NwkFrame.Info
  info : EdWire.Meta
  packet : Packet
  sender : Bool
  secured : Secured
  apsSecured : ApsSecured
  pending : Bool
  keyId : UInt8
  event : Event
  nwkHeard : Option NwkHeard
  apsHeard : Option ApsHeard

def broadcast (address : UInt16) : Bool := address == 0xFFFF || address == 0xFFFD

/-- Broadcasts an end device may send but does not receive are added. -/
def outboundBroadcast (address : UInt16) : Bool := broadcast address || address == 0xFFFC

def joinManagement (p : Packet) : Bool :=
  if p.aps.type = EdWire.apsAck then p.length == 0
  else p.aps.type == 0 && p.aps.profileId == 0 && p.aps.sourceEndpoint == 0 &&
    p.aps.destinationEndpoint == 0 &&
    (p.aps.clusterId == 0x0002 || p.aps.clusterId == 0x8002 || p.aps.clusterId == 0x0013)

def apsAddressing (p : Packet) (sending : Bool) : Bool :=
  let isBroadcast := if sending then outboundBroadcast p.nwk.destination else broadcast p.nwk.destination
  if p.aps.type = EdWire.apsCommand then true
  else if p.aps.type = EdWire.apsAck then !isBroadcast
  else (p.aps.deliveryMode == ApsFrame.deliveryBroadcast) == isBroadcast

/-- Material that is blank or already in the record. -/
def reused (r : Record) (material : Block) : Bool :=
  material == zeroKey || material == r.lk || (r.pk != zeroKey && material == r.pk) ||
  (r.flags.slot false && material == r.nk false) || (r.flags.slot true && material == r.nk true)

/-- The first occupied slot with a sequence number. -/
def slotOf (r : Record) (sequence : UInt8) : Option Bool :=
  if r.flags.slot false = true ∧ r.seq false = sequence then some false
  else if r.flags.slot true = true ∧ r.seq true = sequence then some true
  else none

/-- The NWK floor for a slot and a sender. -/
def floor (r : Record) (router i : Bool) : UInt32 := if router then r.router.nf i else r.nf i

def raiseFloor (r : Record) (router i : Bool) (value : UInt32) : Record :=
  if router then { r with router := { r.router with nf := Function.update r.router.nf i value } }
  else { r with nf := Function.update r.nf i value }

def adopt (r : Record) (slot : Bool) : Record :=
  { r with flags := { r.flags with active := slot, newer := false } }

variable (build : Build)

/-- A new network key in a slot, with fresh floors. -/
def install (r : Record) (i : Bool) (material : Block) (sequence : UInt8) : Record :=
  { r with
    nk := Function.update r.nk i material
    nf := Function.update r.nf i 0
    seq := Function.update r.seq i sequence
    router := if r.routerRecord build then { r.router with nf := Function.update r.router.nf i 0 }
      else r.router }

/-- A pending link key replaces what `PK` held. -/
def pendingKey (r : Record) (material : Block) : Record :=
  { r with pk := material, flags := { r.flags with retired := false } }.setPhase .provisional

/-- `transport` for a trust center link key. -/
def transportLink (w : Work) : Result × Work :=
  let material := w.packet.field 2 16
  if w.record.phase ≠ .requested then (.context, w)
  else if reused w.record material then (.selector, w)
  else (.ok, { w with record := pendingKey w.record material, event := .tcKey })

/-- A relayed Transport Key binds the trust center it came from. -/
def bindTc (r : Record) (source : Ieee) : Record :=
  if r.unbound build then { r with
    tc := source
    router := { r.router with flags := { r.router.flags with unbound := false } } }
  else r

/-- The first network key. -/
def firstKey (r : Record) (source : Ieee) (material : Block) (sequence : UInt8) : Record :=
  let r := { r with flags := { Flags.zero with slot := fun i => !i } }.setPhase .received
  install build (bindTc build r source) false material sequence

/-- A further network key goes over the inactive slot. -/
def rotated (r : Record) (material : Block) (sequence : UInt8) : Record :=
  install build { r with flags := { r.flags with
      slot := Function.update r.flags.slot (!r.flags.active) true, newer := true } }
    (!r.flags.active) material sequence

/-- The slot with the newest key. -/
def newest (r : Record) : Bool := r.flags.active ^^ r.flags.newer

/-- `transport` for a network key. -/
def transportNetwork (w : Work) : Result × Work :=
  let r := w.record
  let material := w.packet.field 2 16
  let sequence := w.packet.payload[18]
  match slotOf r sequence with
  | some i => if material ≠ r.nk i then (.selector, w) else (.ok, { w with event := .networkKey })
  | none =>
    if reused r material then (.selector, w)
    else if r.network = false then
      if r.phase ≠ .associated then (.context, w)
      else (.ok, { w with record := firstKey build r w.info.source material sequence, event := .networkKey })
    else if r.flags.wasVerified = false then (.context, w)
    else if sequence ≠ r.seq (newest r) + 1 then (.selector, w)
    else (.ok, { w with record := rotated build r material sequence, event := .networkKey })

/-- The key identifier that protects each type of key in transport. -/
def transportKeyId (type : UInt8) : UInt8 := if type = 1 then 2 else 3

def transportLength (type : UInt8) : UInt8 := if type = 1 then 35 else 34

/-- The destination address in the payload; the source follows it. -/
def transportOffset (type : UInt8) : Nat := if type = 1 then 19 else 18

/-- The trust center a Transport Key must name. -/
def transportSource (w : Work) : Ieee := if w.record.unbound build then w.info.source else w.record.tc

def transport (w : Work) : Result × Work :=
  let p := w.packet
  if w.apsSecured = .plain ∨ w.pending = true ∨ p.length < 2 then (.context, w)
  else
    let type := p.payload[1]
    if type ≠ 1 ∧ type ≠ 4 then (.unsupported, w)
    else if w.keyId ≠ transportKeyId type then (.selector, w)
    else if p.length ≠ transportLength type then (.format, w)
    else if p.field (transportOffset type + 8) 8 ≠ transportSource build w ∨
        p.field (transportOffset type) 8 ≠ w.record.own ∨ p.nwk.destination ≠ w.record.addr then (.identity, w)
    else if type = 4 then transportLink w
    else transportNetwork build w

/-- The pending key becomes the link key; the old one stays as a tombstone. -/
def confirmed (r : Record) (counter : UInt32) : Record :=
  { r with
    lk := r.pk, pk := r.lk, af := counter + 1
    flags := { r.flags with wasVerified := true, retired := true } }.setPhase .verified

/-- `aps_command` 16. -/
def confirmKey (w : Work) : Result × Work :=
  let r := w.record
  let p := w.packet
  if w.apsSecured = .plain ∨ w.pending = false ∨ r.phase ≠ .waitConfirm then (.context, w)
  else if p.length ≠ 11 ∨ p.payload[1] ≠ 0 ∨ p.payload[2] ≠ 4 then (.format, w)
  else if p.nwk.destination ≠ r.addr ∨ p.field 3 8 ≠ r.own then (.identity, w)
  else (.ok, { w with record := confirmed r w.info.counter, event := .verified })

/-- `aps_command` 9. -/
def switchKey (w : Work) : Result × Work :=
  let r := w.record
  let p := w.packet
  if w.secured = .plain ∨ w.pending = true ∨ p.length ≠ 2 ∨ broadcast p.nwk.destination = false then (.context, w)
  else if w.apsSecured ≠ .plain ∧ w.keyId ≠ 0 then (.selector, w)
  else if p.payload[1] = r.seq r.flags.active then (.ok, { w with event := .switch })
  else if r.flags.newer = false ∨ p.payload[1] ≠ r.seq (!r.flags.active) then (.selector, w)
  else (.ok, { w with record := adopt r (!r.flags.active), event := .switch })

/-- While unbound only the parent's relay can carry the first key. -/
def apsSource (r : Record) : UInt16 := if r.unbound build then r.parentAddress build else 0

def apsCommand (w : Work) : Result × Work :=
  let p := w.packet
  if p.length = 0 ∨ p.nwk.source ≠ apsSource build w.record then (.identity, w)
  else if p.payload[0] = 5 then transport build w
  else if p.payload[0] = 16 then confirmKey w
  else if p.payload[0] = 9 then switchKey w
  else (.unsupported, w)

/-- Both IEEE address flags. -/
def bothIeee (p : Packet) : Bool :=
  NwkFrame.has p.nwk.flags NwkFrame.sourceIeeeFlag && NwkFrame.has p.nwk.flags NwkFrame.destinationIeeeFlag

/-- The record after a leave. -/
def leftRecord (r : Record) (rejoin : Bool) : Record :=
  let r := r.setPhase .left
  { r with flags := { r.flags with rejoinAllowed := rejoin } }

/-- A leave request names this device, a notice goes to all. -/
def leaveDestination (r : Record) (options : UInt8) : UInt16 := if options &&& 0x40 ≠ 0 then r.addr else 0xFFFD

/-- `nwk_command` 4. -/
def leaveCommand (w : Work) : Result × Work :=
  let r := w.record
  let p := w.packet
  if p.length ≠ 2 ∨ NwkFrame.has p.nwk.flags NwkFrame.sourceIeeeFlag = false ∨ p.nwk.radius ≠ 1 then (.format, w)
  else if p.nwk.destination ≠ leaveDestination r p.payload[1] then (.identity, w)
  else (.ok, { w with record := leftRecord r (p.payload[1] &&& 0x20 != 0), event := .leave })

/-- `nwk_command` 10. -/
def updateCommand (w : Work) : Result × Work :=
  let r := w.record
  let p := w.packet
  let pan := u16At p.payload.toList 11
  if p.length ≠ 13 ∨ p.payload[1] ≠ 1 ∨ NwkFrame.has p.nwk.flags NwkFrame.sourceIeeeFlag = false ∨
      NwkFrame.has p.nwk.flags NwkFrame.destinationIeeeFlag = true ∨ p.nwk.destination ≠ 0xFFFF then (.format, w)
  else if p.field 2 8 ≠ r.ep ∨ pan = 0xFFFF then (.identity, w)
  else
    let delta := p.payload[10] - r.update
    if 128 ≤ delta ∨ (delta = 0 ∧ r.pan ≠ pan) then (.context, w)
    else if delta ≠ 0 then (.ok, { w with record := { r with update := p.payload[10], pan := pan }, event := .update })
    else (.ok, { w with event := .update })

/-- The record after a granted rejoin: the selected parent becomes the admitted one. -/
def rejoinedRecord (r : Record) (address : UInt16) : Record :=
  let r := { r with addr := address }
  let r := if r.routerRecord build then
      if r.router.flags.attempt then { r with
        update := r.router.update
        router := { r.router with flags := { r.router.flags with active := true } } }
      else { r with router := { r.router with flags := { r.router.flags with active := false } } }
    else r
  let r := r.setPhase .verified
  { r with flags := { r.flags with rejoinAllowed := false } }

/-- `nwk_command` 7. -/
def rejoinResponse (w : Work) : Result × Work :=
  let r := w.record
  let p := w.packet
  let address := u16At p.payload.toList 1
  if r.phase ≠ .rejoining then (.context, w)
  else if p.length ≠ 4 ∨ bothIeee p = false ∨ p.nwk.destination ≠ r.addr then (.format, w)
  else if (2 : UInt8) < p.payload[3] then (.format, w)
  else if p.payload[3] ≠ 0 then
    if address ≠ 0xFFFF then (.format, w) else (.ok, { w with event := .rejoinRefused })
  else if address = 0 ∨ 0xFFF8 ≤ address then (.identity, w)
  else if r.routerRecord build = true ∧ r.router.flags.known = true ∧ address = r.router.addr then (.identity, w)
  else (.ok, { w with record := rejoinedRecord build r address, event := .rejoined })

/-- The record after a timeout response. -/
def answered (r : Record) (status information : UInt8) : Record :=
  { r with phaseByte := { r.phaseByte with
    timeoutPending := false
    parent := if status = 0 then Fin.ofNat 8 information.toNat else r.phaseByte.parent } }

/-- `nwk_command` 12. -/
def timeoutResponse (w : Work) : Result × Work :=
  let r := w.record
  let p := w.packet
  if p.length ≠ 3 ∨ (1 : UInt8) < p.payload[1] ∨ bothIeee p = false ∨ p.nwk.destination ≠ r.addr ∨ p.nwk.radius ≠ 1 then
    (.format, w)
  else if r.phaseByte.timeoutPending = false then (.context, w)
  else (.ok, { w with record := answered r p.payload[1] p.payload[2], event := .management })

/-- The commands a parent sends; the rest come from the coordinator. -/
def parental (command : UInt8) : Bool := command == 7 || command == 12 || command == 4

/-- The address a NWK command must come from. -/
def commandSource (r : Record) (command : UInt8) : UInt16 :=
  if parental command then r.parentAddress build else 0

def nwkCommand (w : Work) : Result × Work :=
  let r := w.record
  let p := w.packet
  let command := p.payload[0]
  if w.secured = .plain ∨ p.length = 0 then (.context, w)
  else if build.parentRecovery = true ∧ p.nwk.source ≠ commandSource build r command then (.identity, w)
  else if build.parentRecovery = false ∧ p.nwk.source ≠ 0 then (.context, w)
  else if r.phase = .rejoining ∧ command ≠ 7 ∧ command ≠ 4 then (.context, w)
  else if command = 4 then leaveCommand w
  else if command = 10 then updateCommand w
  else if command = 7 then rejoinResponse build w
  else if command = 12 then timeoutResponse w
  else if command = 3 then
    if p.length < 2 ∨ 4 < p.length then (.format, w) else (.ok, { w with event := .management })
  else (.unsupported, w)

section Cipher

variable (aes : Aes) (limits : Limits)

/-- The trial of an APS command under the pending key: its text, or none to go on with the current key. -/
def trial (w : Work) (apdu : Bytes) : Except Result (Option Bytes) :=
  if w.record.phase = .waitConfirm ∧ w.keyId = 0 ∧ byteAt apdu 0 &&& 3 = EdWire.apsCommand then
    match key aes limits w.record w.record.pk 0 false with
    | .error e => .error e
    | .ok k =>
      match crypto (EdWire.openFrame aes .aps k apdu 116) with
      | .ok text => .ok (some text)
      | .error .auth => .ok none
      | .error e => .error e
  else .ok none

/-- The APS frame under the current link key. -/
def currentAps (w : Work) (apdu : Bytes) : Except Result Bytes :=
  let r := w.record
  if w.info.counter < r.af then .error .replay
  else match key aes limits r r.lk w.keyId false with
    | .error e => .error e
    | .ok k => crypto (EdWire.openFrame aes .aps { k with
        source := if r.unbound build then w.info.source else k.source
        extendedNonce := w.info.extendedNonce } apdu 116)

/-- The sender an APS frame names is not acceptable. -/
def foreign (r : Record) (m : EdWire.Meta) : Bool :=
  if r.unbound build then
    m.extendedNonce == 0 || !decide (Identity m.source) || m.source == r.own || m.source == r.router.ieee
  else m.extendedNonce != 0 && m.source != r.tc

/-- Put an opened APDU back behind the NWK header. -/
def replaceApdu (w : Work) (text : Bytes) : Work :=
  { w with frame := w.frame.take w.nwk.payloadOffset ++ text }

def openAps (w : Work) : Result × Work :=
  let apdu := w.frame.drop w.nwk.payloadOffset
  if byteAt apdu 0 &&& ApsFrame.security = 0 then (.ok, { w with apsSecured := .plain })
  else
    let w := { w with apsSecured := .marked }
    match crypto (EdWire.inspect .aps apdu) with
    | .error e => (e, w)
    | .ok (m, _) =>
      if m.counter = 0xFFFFFFFF then (.replay, { w with info := m })
      else
        let w := { w with info := m, keyId := m.keyIdentifier, pending := false }
        if w.keyId ≠ 0 ∧ w.keyId ≠ 2 ∧ w.keyId ≠ 3 then (.selector, w)
        else if foreign build w.record m then (.identity, w)
        else match trial aes limits w apdu with
        | .error e => (e, w)
        | .ok (some text) =>
          (.ok, { replaceApdu w text with
            pending := true
            apsHeard := some ⟨false, w.record.pk, m.counter, apdu⟩ })
        | .ok none =>
          match currentAps build aes limits w apdu with
          | .error e => (e, w)
          | .ok text =>
            (.ok, { replaceApdu w text with
              record := { w.record with af := m.counter + 1 }
              apsSecured := .admitted
              apsHeard := some ⟨true, w.record.lk, m.counter, apdu⟩ })

/-- The dispatch of a decoded packet. -/
def dispatch (w : Work) : Result × Work :=
  let p := w.packet
  let command := p.nwk.type = EdWire.nwkCommand
  if ¬ command ∧ apsAddressing p false = false then (.identity, w)
  else if w.record.phase = .rejoining ∧ ¬ command then (.context, w)
  else if w.secured = .plain ∧ (command ∨ p.aps.type ≠ EdWire.apsCommand ∨ p.length ≠ 35 ∨ p.payload[0] ≠ 5 ∨
      p.payload[1] ≠ 1) then (.context, w)
  else
    let w := { w with event := .data }
    if command then nwkCommand build w
    else if p.aps.type = EdWire.apsCommand then apsCommand build w
    else if w.pending = true ∨ (w.apsSecured ≠ .plain ∧ w.keyId ≠ 0) then (.selector, w)
    else if joinManagement p then (.ok, { w with event := .management })
    else if w.record.flags.wasVerified = false then (.context, w)
    else (.ok, w)

/-- From the normalized NPDU to the verdict. -/
def interpret (w : Work) : Result × Work :=
  match crypto (EdWire.readNwk w.frame) with
  | .error e => (e, w)
  | .ok nwk =>
    let w := { w with nwk := nwk }
    let o := if nwk.header.type = EdWire.nwkCommand then (.ok, w)
      else if nwk.payloadLength = 0 then (.format, w)
      else openAps build aes limits w
    if o.1 ≠ .ok then o
    else match crypto (EdWire.decode o.2.frame) with
      | .error e => (e, o.2)
      | .ok p => dispatch build { o.2 with packet := p }

/-- The NWK header names this device and an acceptable sender. -/
def addressed (r : Record) (h : NwkFrame.Header) : Bool :=
  let command := h.type == EdWire.nwkCommand
  let known := if command then h.source == r.parentAddress build || h.source == 0
    else h.source == 0 || (r.unbound build && h.source == r.parentAddress build)
  let logical := if command && h.source == r.parentAddress build then r.parentIeee build else r.tc
  known && (h.destination == r.addr || broadcast h.destination) &&
  (!NwkFrame.has h.flags NwkFrame.sourceIeeeFlag || h.sourceIeee == logical) &&
  (!NwkFrame.has h.flags NwkFrame.destinationIeeeFlag || h.destinationIeee == r.own)

/-- Working storage before the packet is known. -/
def work (r : Record) (raw : Bytes) (nwk : NwkFrame.Info) (info : EdWire.Meta) : Work :=
  ⟨r, raw, nwk, info, ⟨nwk.header, ApsFrame.Header.zero, 0, Vector.replicate 82 0⟩, false, .plain, .plain,
    false, 0, .data, none, none⟩

/-- The zeroed metadata of an unsecured frame. -/
def noMeta : EdWire.Meta := ⟨0, zeroIeee, 0, 0, 0, 0, 0, 0, 0⟩

/-- The NWK layer: the frame opens under an occupied slot, its floor moves, and
a newer slot becomes active. An error leaves everything alone. -/
def authenticate (r : Record) (raw : Bytes) (nwk : NwkFrame.Info) : Except Result Work :=
  if NwkFrame.has nwk.header.flags NwkFrame.security then
    match crypto (EdWire.inspect .nwk raw) with
    | .error e => .error e
    | .ok (m, _) =>
      let router := r.parentRouter build && m.source == r.router.ieee
      if router = false ∧ (m.source ≠ r.tc ∨ r.parentRouter build = true) then .error .identity
      else match slotOf r m.keySequence with
        | none => .error .selector
        | some i =>
          if m.counter = 0xFFFFFFFF ∨ m.counter < floor r router i then .error .replay
          else match key aes limits r (r.nk i) 1 false with
            | .error e => .error e
            | .ok k =>
              let source := if router then r.router.ieee else r.tc
              match crypto (EdWire.openFrame aes .nwk { k with
                  source := source, keySequence := r.seq i } raw 116) with
              | .error e => .error e
              | .ok text =>
                let switches := r.flags.newer && i != r.flags.active
                let raised := raiseFloor r router i (m.counter + 1)
                .ok { work (if switches then adopt raised i else raised) text nwk m with
                  sender := router
                  secured := if switches then .switched else .secured
                  nwkHeard := some ⟨i, r.nk i, r.seq i, source, router, m.counter, raw⟩ }
  else if r.network = true ∨ 116 < raw.length then .error .context
  else .ok (work r raw nwk noMeta)

/-- `security_keys_receive` from the raw frame to its verdict. An error is a
return before anything authenticated. -/
def process (r : Record) (raw : Bytes) : Except Result (Result × Work) :=
  match crypto (EdWire.readNwk raw) with
  | .error e => .error e
  | .ok nwk =>
    if addressed build r nwk.header = false then .error .identity
    else match authenticate build aes limits r raw nwk with
      | .error e => .error e
      | .ok w => .ok (interpret build aes limits w)

end Cipher

/-- Frames from the router are checkpointed unless policy C caches their floors. -/
def checkpoints (w : Work) : Bool := w.sender && !build.replayPolicyC

/-- No key bytes escape through the packet. -/
def published (p : Packet) : Packet :=
  if p.nwk.type ≠ EdWire.nwkCommand ∧ p.aps.type = EdWire.apsCommand then
    { p with payload := Vector.replicate 82 0, length := 0 }
  else p

def accepted (w : Work) : Plan :=
  let reply : Reply := { Reply.of .ok with
    received := some ⟨published w.packet, w.event, w.apsSecured != .plain⟩ }
  if 1 < w.event.code ∨ w.apsSecured ≠ .plain ∨ w.secured = .switched ∨ checkpoints build w = true then
    .store w.record reply
  else .keep w.record reply

def rejected (w : Work) (r : Result) : Plan :=
  if w.apsSecured = .admitted ∨ w.secured = .switched ∨ checkpoints build w = true then .store w.record (.of r)
  else .keep w.record (.of r)

/-- The arguments of `security_keys_receive`; `output` and `event` tell whether the pointers are given. -/
structure Delivery where
  raw : Option Bytes
  output : Bool
  event : Bool
  call : Call

/-- The verdict of a delivery, when the call gets that far. -/
def verdict (c : Context) (d : Delivery) : Except Result (Result × Work) :=
  match d.raw, d.call.limitsOk with
  | some raw, some limits =>
    if d.output = false ∨ d.event = false then .error .argument
    else if c.phase.code < 3 ∨ c.phase = .left then .error .state
    else process build d.call.aes limits c.record raw
  | _, _ => .error .argument

/-- `security_keys_receive`. -/
def receive (c : Context) (d : Delivery) : Plan :=
  match verdict build c d with
  | .error r => .stop r
  | .ok (r, w) => if r = .ok then accepted build w else rejected build w r

end SecurityKeys
