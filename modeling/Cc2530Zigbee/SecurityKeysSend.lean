import Cc2530Zigbee.SecurityKeysReceive

/-!
# Key custody: sealing and sending

A frame is encoded, sealed under the link key when asked, and always under the
active network key; each encryption takes a fresh counter of its domain first.
-/
namespace SecurityKeys

open Octets
open CcmStar (Aes Block Limits)
open EdWire (Packet at0 at1 at2)
open NvRecord (Device)

/-- One call of the cipher on an outgoing frame: what it was given, and whether it succeeded. -/
structure Sealing where
  layer : EdWire.Layer
  key : EdWire.Key
  done : Bool

/-- The domain a layer takes its counters from. -/
def domain (layer : EdWire.Layer) : Bool := layer == .aps

variable (build : Build)

/-- `take`: a counter, or the result to return. -/
def take (s : State) (domain : Bool) (polls : UInt16) : Except Device (Except Result UInt32 × State) :=
  match SecurityCounter.take build s.counter (if domain then 1 else 0) .accepted polls with
  | .error d => .error d
  | .ok (r, v, counter) =>
    let s := { s with counter := counter }
    match r, v with
    | .ok, some v => .ok (.ok v, s)
    | .exhausted, _ => .ok (.error .exhausted, s)
    | _, _ => .ok (.error .storage, fault s .storage)

/-- One layer of protection: a fresh counter, then the cipher. -/
def protect (call : Call) (s : State) (layer : EdWire.Layer) (k : EdWire.Key) (frame : Bytes) :
    Except Device (Except Result Bytes × List Sealing × State) :=
  match take build s (domain layer) call.polls with
  | .error d => .error d
  | .ok (.error e, s) => .ok (.error e, [], s)
  | .ok (.ok v, s) =>
    let k := { k with counter := v }
    match crypto (EdWire.sealFrame call.aes layer k frame 116) with
    | .error e => .ok (.error e, [⟨layer, k, false⟩], s)
    | .ok text => .ok (.ok text, [⟨layer, k, true⟩], s)

/-- The bit an end device derives from its parent, never from the caller. -/
def initiator (r : Record) (p : Packet) : Packet :=
  let flags := p.nwk.flags &&& ~~~ NwkFrame.endDeviceInitiator
  { p with nwk := { p.nwk with
    flags := if r.phaseByte.parent ≠ 0 then flags ||| NwkFrame.endDeviceInitiator else flags } }

/-- The link key as `seal` uses it. -/
def linkKey (limits : Limits) (r : Record) : EdWire.Key := ⟨r.lk, r.own, 0, 5, 0, 0, 1, limits⟩

/-- The active network key as `seal` uses it. -/
def networkKey (limits : Limits) (r : Record) : EdWire.Key :=
  ⟨r.nk r.flags.active, r.own, 0, 5, 1, r.seq r.flags.active, 1, limits⟩

/-- The APS layer of `seal`: the NPDU with its body protected. -/
def sealAps (call : Call) (limits : Limits) (s : State) (r : Record) (frame : Bytes) :
    Except Device (Except Result Bytes × List Sealing × State) :=
  match crypto (EdWire.readNwk frame) with
  | .error e => .ok (.error e, [], s)
  | .ok nwk =>
    match protect build call s .aps (linkKey limits r) (frame.drop nwk.payloadOffset) with
    | .error d => .error d
    | .ok (.error e, log, s) => .ok (.error e, log, s)
    | .ok (.ok text, log, s) =>
      if 116 < nwk.payloadOffset + text.length then .ok (.error .space, log, s)
      else .ok (.ok (frame.take nwk.payloadOffset ++ text), log, s)

/-- `seal`. The error of a lost supply carries the log so far. -/
def sealPacket (call : Call) (limits : Limits) (s : State) (r : Record) (p : Packet) (apsSecure : Bool) :
    Except (Device × List Sealing) (Except Result Bytes × List Sealing × State) :=
  match crypto (EdWire.encode (initiator r p) 116) with
  | .error e => .ok (.error e, [], s)
  | .ok frame =>
    let body := if apsSecure then sealAps build call limits s r frame else .ok (.ok frame, [], s)
    match body with
    | .error d => .error (d, [])
    | .ok (.error e, log, s) => .ok (.error e, log, s)
    | .ok (.ok frame, log, s) =>
      match protect build call s .nwk (networkKey limits r) frame with
      | .error d => .error (d, log)
      | .ok (out, log', s) => .ok (out, log ++ log', s)

/-- `publish`. -/
def publish (o : Output) (frame : Bytes) : Reply :=
  if o.capacity.toNat < frame.length then .of .space else { Reply.of .ok with frame := some frame }

/-- `command_packet` with its payload. -/
def commandPacket (r : Record) (nwkSeq apsCounter : UInt8) (payload : Bytes) : Packet where
  nwk := {
    type := 0
    version := 2
    discoverRoute := if build.routerJoin && r.parentAddress build != 0 then 1 else 0
    flags := 0
    destination := 0
    source := r.addr
    radius := if build.routerJoin && r.parentAddress build != 0 then 30 else 1
    sequence := nwkSeq
    destinationIeee := zeroIeee
    sourceIeee := zeroIeee }
  aps := { ApsFrame.Header.zero with type := EdWire.apsCommand, counter := apsCounter }
  length := UInt8.ofNat payload.length
  payload := EdWire.buffer payload 0 payload.length

/-- `security_keys_request`. -/
def request (c : Context) (nwkSeq apsCounter : UInt8) (o : Output) : Plan :=
  let r := c.record
  match o.limits with
  | none => .stop .argument
  | some limits =>
    if r.phase ≠ .received ∧ r.phase ≠ .requested ∧ r.phase ≠ .verified then .stop .context
    else if o.capacity < 47 then .stop .space
    else .transmit {
      packet := commandPacket build r nwkSeq apsCounter [8, 4]
      apsSecure := true
      record := r
      preflight := false
      commit := some (r.setPhase .requested)
      pending := none
      output := o
      limits := limits }

/-- `security_keys_verify`. -/
def verify (c : Context) (nwkSeq apsCounter : UInt8) (o : Output) : Plan :=
  let r := c.record
  match o.limits with
  | none => .stop .argument
  | some limits =>
    if r.phase ≠ .provisional ∧ r.phase ≠ .waitConfirm then .stop .context
    else if o.capacity < 54 then .stop .space
    else match KeyHash.keyHash o.call.aes r.pk KeyHash.hashVerify limits with
      | .error _ => .stop .crypto
      | .ok hash => .transmit {
          packet := commandPacket build r nwkSeq apsCounter ([15, 4] ++ r.own.toList ++ hash.toList)
          apsSecure := false
          record := r
          preflight := false
          commit := some (r.setPhase .waitConfirm)
          pending := none
          output := o
          limits := limits }

/-- The frame of `security_keys_leave`. -/
def leavePacket (r : Record) (nwkSeq : UInt8) : Packet where
  nwk := {
    type := EdWire.nwkCommand
    version := 2
    discoverRoute := 0
    flags := NwkFrame.sourceIeeeFlag
    destination := 0xFFFD
    source := r.addr
    radius := 1
    sequence := nwkSeq
    destinationIeee := zeroIeee
    sourceIeee := r.own }
  aps := ApsFrame.Header.zero
  length := 2
  payload := EdWire.buffer [4, 0] 0 2

/-- `security_keys_leave`. -/
def leave (c : Context) (nwkSeq : UInt8) (o : Output) : Plan :=
  let r := c.record
  match o.limits with
  | none => .stop .argument
  | some limits =>
    if r.network then
      if o.capacity < 36 then .stop .space
      else .transmit {
        packet := leavePacket r nwkSeq
        apsSecure := false
        record := r
        preflight := false
        commit := some (leftRecord r false)
        pending := none
        output := o
        limits := limits }
    else .store (leftRecord r false) { Reply.of .ok with frame := some [] }

/-- The router a NWK command of `security_keys_send` goes to. -/
def routed (r : Record) (p : Packet) : Bool :=
  p.nwk.type == EdWire.nwkCommand &&
  ((getElem p.payload 0 at0 == 6 && (r.routerRecord build && r.router.flags.attempt)) ||
    (getElem p.payload 0 at0 == 11 && r.parentRouter build))

/-- `address` of `security_keys_send`. -/
def sendAddress (r : Record) (p : Packet) : UInt16 := if routed build r p then r.router.addr else 0

/-- The tests of `security_keys_send` on a NWK command: the phase it leads to, if any. -/
def sendCommand (r : Record) (p : Packet) (apsSecure : Bool) : Except Result (Option Phase) :=
  if apsSecure = true ∨ p.nwk.radius ≠ 1 then .error .unsupported
  else if getElem p.payload 0 at0 = 6 then
    if r.flags.wasVerified = false ∨ p.length ≠ 2 ∨ getElem p.payload 1 at1 &&& ~~~ 0x0C ≠ 0 ∨
        p.nwk.destination ≠ sendAddress build r p ∨ bothIeee p = false then .error .unsupported
    else if r.flags.retired = false ∧ r.pk ≠ zeroKey then .error .context
    else if r.phase ≠ .verified ∧ r.phase ≠ .rejoining ∧
        ¬ (r.phase = .left ∧ r.flags.rejoinAllowed = true) then .error .context
    else .ok (some .rejoining)
  else if getElem p.payload 0 at0 = 4 then
    if p.length ≠ 2 ∨ getElem p.payload 1 at1 &&& ~~~ 0x20 ≠ 0 ∨ p.nwk.destination ≠ 0xFFFD ∨
        NwkFrame.has p.nwk.flags NwkFrame.sourceIeeeFlag = false ∨
        NwkFrame.has p.nwk.flags NwkFrame.destinationIeeeFlag = true then .error .unsupported
    else .ok (some .left)
  else if getElem p.payload 0 at0 ≠ 11 ∨ p.length ≠ 3 ∨ (14 : UInt8) < getElem p.payload 1 at1 ∨ getElem p.payload 2 at2 ≠ 0 ∨
      p.nwk.destination ≠ sendAddress build r p ∨ bothIeee p = false then .error .unsupported
  else .ok none

/-- The tests of `security_keys_send` on an APS frame. -/
def sendData (r : Record) (p : Packet) (apsSecure : Bool) : Except Result (Option Phase) :=
  if p.aps.type = EdWire.apsCommand then .error .unsupported
  else if apsAddressing p true = false then .error .identity
  else if r.flags.wasVerified = false ∧ joinManagement p = false then .error .context
  else if apsSecure = true ∧ p.nwk.destination ≠ 0 then .error .unsupported
  else .ok none

/-- The sender and destination tests of `security_keys_send`. -/
def sendAddressed (r : Record) (p : Packet) : Bool :=
  p.nwk.source == r.addr &&
  (p.nwk.destination == sendAddress build r p || outboundBroadcast p.nwk.destination) &&
  (!NwkFrame.has p.nwk.flags NwkFrame.sourceIeeeFlag || p.nwk.sourceIeee == r.own) &&
  (!NwkFrame.has p.nwk.flags NwkFrame.destinationIeeeFlag ||
    p.nwk.destinationIeee == (if routed build r p then r.router.ieee else r.tc))

/-- `security_keys_send`. -/
def send (c : Context) (packet : Option Packet) (apsSecure : UInt8) (o : Output) : Plan :=
  let r := c.record
  match packet, o.limits with
  | some p, some limits =>
    if 1 < apsSecure then .stop .argument
    else if r.network = false then .stop .state
    else if sendAddressed build r p = false then .stop .identity
    else
      let secure := apsSecure == 1
      let tests := if p.nwk.type = EdWire.nwkCommand then sendCommand build r p secure else sendData r p secure
      match tests with
      | .error e => .stop e
      | .ok transition =>
        if (r.phase = .left ∨ r.phase = .rejoining) ∧ transition = none then .stop .state
        else
          let cleared := { r with phaseByte := { r.phaseByte with parent := 0, timeoutPending := false } }
          let r := if transition = some .rejoining then cleared else r
          .transmit {
            packet := p
            apsSecure := secure
            record := r
            preflight := true
            commit := transition.map fun phase =>
              if phase = .left then leftRecord r (getElem p.payload 1 at1 &&& 0x20 != 0) else r.setPhase phase
            pending := if p.nwk.type = EdWire.nwkCommand ∧ getElem p.payload 0 at0 = 11 then
                some { r with phaseByte := { r.phaseByte with timeoutPending := true } }
              else none
            output := o
            limits := limits }
  | _, _ => .stop .argument

end SecurityKeys
