import Cc2530Zigbee.KeyRecord
import Cc2530Zigbee.EdWire
import Cc2530Zigbee.SecurityCounter

/-!
# Key custody: state, load and save, lifecycle

The module keeps its phase, its last result and three caches in RAM; the record
itself is the payload of the counter owner. A call that works on a loaded
record decides what to do as a function of that record, its `Plan`; how a plan
meets the journal is said once for all calls. Working storage is wiped at the
end of every call and is not part of the state.
-/
namespace SecurityKeys

open Octets
open NwkFrame (Ieee)
open CcmStar (Aes Block Limits)
open NvRecord (Device)

/-- `security_keys_result_t`. -/
inductive Result where
  | ok | empty | argument | state | format | storage | crypto | auth | replay | identity | selector
  | context | unsupported | space | exhausted
  deriving DecidableEq, Repr

/-- `security_keys_event_t`. -/
inductive Event where
  | data | management | networkKey | tcKey | verified | switch | update | leave | rejoined | rejoinRefused
  deriving DecidableEq, Repr

def Event.code : Event → Nat
  | .data => 0 | .management => 1 | .networkKey => 2 | .tcKey => 3 | .verified => 4 | .switch => 5
  | .update => 6 | .leave => 7 | .rejoined => 8 | .rejoinRefused => 9

/-- `security_keys_config_t`. -/
structure Config where
  ownIeee : Ieee
  tcIeee : Ieee
  extendedPan : Ieee
  pan : UInt16
  address : UInt16
  channel : UInt8
  updateId : UInt8
  deriving DecidableEq

/-- `security_keys_status_t`. -/
structure Status where
  config : Config
  phase : Phase
  activeSequence : UInt8
  slotValid : Bool → Bool
  newerPending : Bool
  parentInformation : Fin 8
  timeoutPending : Bool
  result : Result
  routerKnown : Bool
  routerActive : Bool
  routerSelected : Bool
  routerIeee : Ieee
  routerAddress : UInt16
  deriving DecidableEq

/-- What `security_keys_receive` publishes: the packet, and the event octet as
its low bits and its top bit. -/
structure Received where
  packet : EdWire.Packet
  event : Event
  apsSecured : Bool
  deriving DecidableEq

/-- A result and the caller's objects that were written. -/
structure Reply where
  result : Result
  received : Option Received
  frame : Option Bytes
  status : Option Status
  deriving DecidableEq

/-- A result alone. -/
def Reply.of (r : Result) : Reply := ⟨r, none, none, none⟩

/-- The static storage that survives a call. -/
structure State where
  phase : Phase
  result : Result
  floorCache : Bool → UInt32
  routerFloorCache : Bool → UInt32
  phaseCache : PhaseByte
  retained : Bool
  counter : SecurityCounter.State

/-- After a reset. -/
def cold (d : Device) : State where
  phase := .cold
  result := .ok
  floorCache := fun _ => 0
  routerFloorCache := fun _ => 0
  phaseCache := .zero
  retained := false
  counter := SecurityCounter.cold d

/-- A latched failure keeps its own result. -/
def finish (s : State) (reply : Reply) : Reply × State :=
  (reply, if s.phase = .failed then s else { s with result := reply.result })

def fault (s : State) (r : Result) : State := { s with phase := .failed, result := r }

variable (build : Build)

/-- The caches over the saved record. -/
def overlay (s : State) (r : Record) : Record :=
  { r with
    nf := s.floorCache
    router := if build.replayPolicyC && r.routerRecord build then { r.router with nf := s.routerFloorCache }
      else r.router
    phaseByte := if s.phaseCache = .zero then r.phaseByte else s.phaseCache }

/-- `security_counter_read` into the zeroed record buffer. -/
def readRecord (s : State) : Option Bytes × State :=
  let c := SecurityCounter.read s.counter .accepted (UInt8.ofNat build.payloadMax) .accepted
  (if c.1 = .ok then c.2.1 else none, { s with counter := c.2.2 })

/-- `load`: the image size and the live record. -/
def load (s : State) : Except Result (Nat × Record) × State :=
  if s.phase = .failed then (.error s.result, s)
  else if s.phase.code < 2 then (.error .state, s)
  else
    let c := readRecord build s
    match c.1 with
    | none => (.error .storage, fault c.2 .storage)
    | some data =>
      let r := Record.decode data
      if ¬ r.Valid build data.length ∨ r.phase ≠ s.phase then (.error .format, fault c.2 .format)
      else (.ok (data.length, overlay build c.2 r), c.2)

def keepVolatile (s : State) (r : Record) : State :=
  { s with
    floorCache := r.nf
    routerFloorCache := if build.replayPolicyC && r.routerRecord build then r.router.nf else s.routerFloorCache
    phaseCache := r.phaseByte }

/-- `save`: whether it succeeded. -/
def save (s : State) (r : Record) (polls : UInt16) : Except Device (Bool × State) :=
  match SecurityCounter.save build s.counter .accepted (r.image build) polls with
  | .error d => .error d
  | .ok (c, counter) =>
    if c ≠ .ok then .ok (false, fault { s with counter := counter } .storage)
    else .ok (true, keepVolatile build { s with counter := counter, phase := r.phase } r)

/-- The cipher and the bounds a call is given. -/
structure Call where
  aes : Aes
  limits : Option Limits
  polls : UInt16

/-- `limits_ok`. -/
def Call.limitsOk (c : Call) : Option Limits :=
  match c.limits with
  | some l => if l.usable && c.polls != 0 then some l else none
  | none => none

/-- `crypto_result`. -/
def cryptoResult : EdWire.Result → Result
  | .auth => .auth
  | .space => .space
  | .aes | .ccm => .crypto
  | _ => .format

def crypto {α : Type} (r : Except EdWire.Result α) : Except Result α := r.mapError cryptoResult

/-- `key`: a descriptor for one layer; identifiers 2 and 3 hash the material. -/
def key (aes : Aes) (limits : Limits) (r : Record) (material : Block) (identifier : UInt8) (sending : Bool) :
    Except Result EdWire.Key :=
  let descriptor (m : Block) : EdWire.Key :=
    ⟨m, if sending then r.own else r.tc, 0, 5, identifier, 0, 1, limits⟩
  if identifier = 2 ∨ identifier = 3 then
    match KeyHash.keyHash aes material
        (if identifier = 2 then KeyHash.hashTransport else KeyHash.hashLoad) limits with
    | .error _ => .error .crypto
    | .ok hash => .ok (descriptor hash)
  else .ok (descriptor material)

/-- `security_keys_open`. -/
def keysOpen (s : State) : Reply × State :=
  if s.phase ≠ .cold then finish s (.of .state)
  else
    let o := SecurityCounter.counterOpen build s.counter
    let s := { s with counter := o.2 }
    if o.1 = .empty then finish { s with phase := .unprovisioned } (.of .empty)
    else if o.1 ≠ .ok then finish (fault s .storage) (.of .storage)
    else
      let c := readRecord build s
      match c.1 with
      | none => finish (fault c.2 .storage) (.of .storage)
      | some data =>
        let r := Record.decode data
        if r.Valid build data.length then
          finish (keepVolatile build { c.2 with phase := r.phase } r) (.of .ok)
        else finish (fault c.2 .format) (.of .format)

/-- The record both provisioning calls begin with. -/
def provisioned (config : Config) (lk : Block) : Record where
  own := config.ownIeee
  tc := config.tcIeee
  nk := fun _ => zeroKey
  lk := lk
  pk := zeroKey
  nf := fun _ => 0
  af := 0
  ep := config.extendedPan
  pan := config.pan
  addr := config.address
  channel := config.channel
  update := config.updateId
  seq := fun _ => 0
  flags := .zero
  phaseByte := ⟨.provisioned, 0, false⟩
  magic := 0x4B
  version := 2
  router := .zero

/-- The public default key. -/
def defaultKey : Block := #v[0x5A, 0x69, 0x67, 0x42, 0x65, 0x65, 0x41, 0x6C, 0x6C, 0x69, 0x61, 0x6E, 0x63, 0x65,
  0x30, 0x39]

/-- `security_keys_provision` and `security_keys_provision_default`; the
install code is read in the builds that have one. -/
def provision (s : State) (config : Option Config) (installCode : Option (Vector UInt8 18))
    (nwkFloor apsFloor : UInt32) (call : Call) : Except Device (Reply × State) :=
  if s.phase ≠ .unprovisioned then .ok (finish s (.of .state))
  else match config, call.limitsOk with
    | some config, some limits =>
      if (build.defaultTcKey = false ∧ installCode = none) ∨ nwkFloor = 0xFFFFFFFF ∨ apsFloor = 0xFFFFFFFF then
        .ok (finish s (.of .argument))
      else if ¬ (provisioned config zeroKey).ValidConfig then .ok (finish s (.of .argument))
      else
        let lk : Except KeyHash.Result Block := if build.defaultTcKey then .ok defaultKey
          else KeyHash.installCodeDerive call.aes ((installCode.map Vector.toList).getD []) limits
        match lk with
        | .error _ => .ok (finish s (.of .crypto))
        | .ok lk =>
          let r := provisioned config lk
          if build.defaultTcKey && s.retained then
            match save build s r call.polls with
            | .error d => .error d
            | .ok (false, s) => .ok (finish s (.of .storage))
            | .ok (true, s) => .ok (finish { s with retained := false } (.of .ok))
          else
            let c := SecurityCounter.create build s.counter nwkFloor apsFloor .accepted r.encodeBase call.polls
            let s := { s with counter := c.2 }
            if c.1 ≠ .ok then .ok (finish (fault s .storage) (.of .storage))
            else .ok (finish { s with phase := .provisioned } (.of .ok))
    | _, _ => .ok (finish s (.of .argument))

/-- `security_keys_recommission`. -/
def recommission (s : State) : Reply × State :=
  if s.phase.code < 2 ∨ s.phase = .failed ∨ s.phase = .verified ∨ s.phase = .rejoining then
    finish s (.of .state)
  else
    finish { s with
      floorCache := fun _ => 0
      routerFloorCache := fun _ => 0
      phaseCache := .zero
      retained := true
      phase := .unprovisioned } (.of .ok)

/-- A status without a record. -/
def Status.blank (phase : Phase) (result : Result) : Status :=
  ⟨⟨zeroIeee, zeroIeee, zeroIeee, 0, 0, 0, 0⟩, phase, 0, fun _ => false, false, 0, false, result,
    false, false, false, zeroIeee, 0⟩

/-- The status of a live record. -/
def Status.ofRecord (phase : Phase) (result : Result) (r : Record) : Status where
  config := ⟨r.own, r.tc, r.ep, r.pan, r.addr, r.channel, r.update⟩
  phase := phase
  activeSequence := r.seq r.flags.active
  slotValid := r.flags.slot
  newerPending := r.flags.newer
  parentInformation := r.phaseByte.parent
  timeoutPending := r.phaseByte.timeoutPending
  result := result
  routerKnown := r.routerRecord build && r.router.flags.known
  routerActive := r.routerRecord build && r.router.flags.active
  routerSelected := r.routerRecord build && r.router.flags.attempt
  routerIeee := if r.routerRecord build && r.router.flags.known then r.router.ieee else zeroIeee
  routerAddress := if r.routerRecord build && r.router.flags.known then r.router.addr else 0

/-- `security_keys_status`. -/
def status (s : State) (output : Bool) : Reply × State :=
  if !output then finish s (.of .argument)
  else if s.phase.code < 2 ∨ s.phase = .failed then
    finish s { Reply.of .ok with status := some (.blank s.phase s.result) }
  else
    match load build s with
    | (.error r, t) => finish t (.of r)
    | (.ok (_, r), t) => finish t { Reply.of .ok with status := some (.ofRecord build t.phase s.result r) }

/-! Plans. -/

/-- What a call sees after a successful `load`. -/
structure Context where
  phase : Phase
  size : Nat
  record : Record

/-- The objects a sending call writes, and its capacity. -/
structure Output where
  out : Bool
  written : Bool
  capacity : UInt16
  call : Call

/-- The bounds of a sending call, when its pointers are given. -/
def Output.limits (o : Output) : Option Limits := if o.out && o.written then o.call.limitsOk else none

/-- A frame to seal under a record, then the lifecycle save and the keepalive
bit that go with it. `preflight` tests the capacity before the save. -/
structure Transmission where
  packet : EdWire.Packet
  apsSecure : Bool
  record : Record
  preflight : Bool
  commit : Option Record
  pending : Option Record
  output : Output
  limits : Limits

/-- What a call does with the record it loaded: stop, save a record and reply,
stage its image or else save it, keep only the cached part and reply, or send. -/
inductive Plan where
  | stop : Result → Plan
  | store : Record → Reply → Plan
  | stage : Record → Bytes → Phase → Plan
  | keep : Record → Reply → Plan
  | transmit : Transmission → Plan

/-- `security_keys_upgrade_parent`. -/
def upgradeParent (c : Context) (polls : UInt16) : Plan :=
  if polls = 0 then .stop .argument
  else if c.record.phase ≠ .verified ∧ c.record.phase ≠ .rejoining then .stop .context
  else if c.size = 144 then .stop .ok
  else .store { c.record with version := 3, router := .zero } (.of .ok)

/-- `security_keys_parent_t`. -/
structure Parent where
  ieee : Ieee
  address : UInt16
  nwkFloor : Bool → UInt32
  sequence : Bool → UInt8

/-- What `security_keys_remember_parent` answers for one slot. -/
def rememberSlot (r : Record) (parent : Parent) (i : Bool) : Option Result :=
  if r.flags.slot i then
    if parent.sequence i ≠ r.seq i ∨ parent.nwkFloor i = 0 ∨ parent.nwkFloor i < r.router.nf i then
      some .replay
    else none
  else if parent.nwkFloor i ≠ 0 ∨ parent.sequence i ≠ 0 then some .selector
  else none

/-- `security_keys_remember_parent`. -/
def rememberParent (c : Context) (parent : Option Parent) (polls : UInt16) : Plan :=
  let r := c.record
  match parent with
  | none => .stop .argument
  | some parent =>
    if polls = 0 ∨ ¬ Identity parent.ieee ∨ parent.address = 0 ∨ 0xFFF8 ≤ parent.address ∨
        parent.address = r.addr ∨ parent.ieee = r.own ∨ parent.ieee = r.tc then .stop .argument
    else if r.phase ≠ .verified ∨ r.routerRecord build = false then .stop .context
    else if r.router.flags.known = true ∧ (parent.ieee ≠ r.router.ieee ∨ parent.address ≠ r.router.addr) then
      .stop .unsupported
    else match (rememberSlot r parent false).or (rememberSlot r parent true) with
      | some e => .stop e
      | none => .store { r with router := { r.router with
          ieee := parent.ieee
          addr := parent.address
          nf := parent.nwkFloor
          flags := { r.router.flags with known := true } } } (.of .ok)

/-- `security_keys_select_parent`. -/
def selectParent (c : Context) (router updateId : UInt8) (polls : UInt16) : Plan :=
  let r := c.record
  if 1 < router ∨ polls = 0 then .stop .argument
  else if r.routerRecord build = false ∨ (r.phase ≠ .verified ∧ r.phase ≠ .rejoining) then .stop .context
  else if router ≠ 0 ∧ r.router.flags.known = false then .stop .identity
  else if 128 ≤ updateId - r.update then .stop .context
  else if router ≠ 0 then
    .store { r with router := { r.router with
      flags := { r.router.flags with attempt := true }, update := updateId } } (.of .ok)
  else if updateId ≠ r.update then .stop .context
  else .store { r with router := { r.router with
      flags := { r.router.flags with attempt := false }, update := 0 } } (.of .ok)

/-- `security_keys_associate`. -/
def associate (c : Context) (shortAddress polls : UInt16) : Plan :=
  let r := c.record
  if r.phase ≠ .provisioned then .stop .state
  else if shortAddress = 0 ∨ 0xFFF8 ≤ shortAddress ∨ polls = 0 then .stop .argument
  else if r.addr ≠ 0xFFFF ∧ r.addr ≠ shortAddress then .stop .identity
  else
    let r := { r with addr := shortAddress }.setPhase .associated
    .stage r r.encodeBase .associated

/-- `security_keys_router_parent`. -/
def routerParent (c : Context) (routerAddress polls : UInt16) : Plan :=
  let r := c.record
  if r.phase ≠ .associated ∨ r.routerRecord build = true then .stop .state
  else if routerAddress = 0 ∨ 0xFFF8 ≤ routerAddress ∨ routerAddress = r.addr ∨ polls = 0 then .stop .argument
  else
    let r := { r with
      version := 3
      router := { Router.zero with
        ieee := r.tc, addr := routerAddress, flags := ⟨true, true, false, true, 0⟩ } }
    .stage r r.encode c.phase

end SecurityKeys
