import Cc2530Zigbee.MacFrame
import Cc2530Zigbee.MacTx
import Cc2530Zigbee.Runs

/-!
# The association exchange

A context that waits for one Association Response of a selected coordinator.
Each exchange has its own generation, a lifetime and a limit of work. Nothing is
transmitted here; frames and their time stamps come from the caller.
-/
namespace MacAssociation

open Octets

inductive Result where
  | ok | invalid | state | generationLimit
  deriving DecidableEq, Repr

inductive Phase where
  | idle | wait | done
  deriving DecidableEq, Repr

/-- Step observations. -/
inductive Decision where
  | waiting | response | badCrc | malformed | mismatch | stale | expired | exhausted | cancelled
  deriving DecidableEq, Repr

/-- The observations that end an exchange. -/
def Decision.terminal : Decision → Bool
  | .response | .expired | .exhausted | .cancelled => true
  | .waiting | .badCrc | .malformed | .mismatch | .stale => false

inductive Relation where
  | unbound | matched
  deriving DecidableEq, Repr

inductive AddressKind where
  | unset | allocated | extendedOnly | refused
  deriving DecidableEq, Repr

structure Request where
  epoch : UInt32
  lifetime : UInt32
  workLimit : UInt16
  panId : UInt16
  channel : UInt8
  coordinatorMode : UInt8
  coordinator : MacFrame.Address
  localAddress : MacFrame.Address
  deriving DecidableEq

structure Event where
  epoch : UInt32
  generation : UInt32
  stamp : UInt32
  body : Bytes
  kind : UInt8
  channel : UInt8
  crcValid : UInt8
  deriving DecidableEq

structure Record where
  epoch : UInt32
  generation : UInt32
  stamp : UInt32
  shortAddress : UInt16
  sourceIeee : MacFrame.Address
  outcome : Decision
  status : UInt8
  addressKind : AddressKind
  sourceRelation : Relation
  sequence : UInt8
  deriving DecidableEq

/-- `mac_association_t`. -/
structure Association where
  request : Request
  record : Record
  generation : UInt32
  opened : UInt32
  last : UInt32
  remaining : UInt16
  version : UInt8
  phase : Phase
  deriving DecidableEq

def contextVersion : UInt8 := 1
def maxLifetime : UInt32 := 65535
def maxWork : UInt16 := 4096
def frameKind : UInt8 := 1
def cancelKind : UInt8 := 2

def Record.zero : Record :=
  ⟨0, 0, 0, 0, Vector.replicate 8 0, .waiting, 0, .unset, .unbound, 0⟩

def Request.zero : Request := ⟨0, 0, 0, 0, 0, 0, Vector.replicate 8 0, Vector.replicate 8 0⟩

/-- `mac_association_init`. -/
def init (now : UInt32) : Association := ⟨.zero, .zero, 0, 0, now, 0, contextVersion, .idle⟩

def valid (c : Association) : Bool := c.version == contextVersion

/-- The request names a coordinator a response can come from. -/
def validRequest (r : Request) : Bool :=
  r.epoch != 0 && r.lifetime != 0 && r.lifetime ≤ maxLifetime && r.workLimit != 0 && r.workLimit ≤ maxWork &&
    r.panId != 0xFFFF && 11 ≤ r.channel && r.channel ≤ 26 &&
    (r.coordinatorMode == MacFrame.addressShort || r.coordinatorMode == MacFrame.addressExtended) &&
    (r.coordinatorMode != MacFrame.addressShort ||
      (!(getElem r.coordinator 1 MacFrame.at1 == 0xFF &&
        (0xFE : UInt8) ≤ getElem r.coordinator 0 MacFrame.at0) && (r.coordinator.toList.drop 2).all (· == 0)))

/-- `mac_association_start`. -/
def start (c : Association) (request : Request) (now : UInt32) : Result × Association :=
  if !valid c ∨ !validRequest request then (.invalid, c)
  else if c.phase ≠ .idle then (.state, c)
  else if MacTx.half ≤ now - c.last then (.invalid, c)
  else if c.generation = 0xFFFFFFFF then (.generationLimit, c)
  else
    let generation := c.generation + 1
    (.ok, { c with
      request := request
      record := { Record.zero with generation := generation, epoch := request.epoch }
      generation := generation, opened := now, last := now, remaining := request.workLimit, phase := .wait })

/-- The octets of a frame behind its header. -/
def payloadOf (body : Bytes) (frame : MacFrame.Info) : Bytes := (body.drop frame.payloadOffset).take frame.payloadLength

/-- The frame is a response to this exchange. -/
def addressed (r : Request) (frame : MacFrame.Info) (profile : UInt8) : Bool :=
  frame.header.sourcePan == r.panId &&
    (frame.header.destinationPan == r.panId ||
      (profile == MacFrame.rxR22AssociationResponse && frame.header.destinationPan == 0xFFFF)) &&
    frame.header.destination == r.localAddress &&
    (r.coordinatorMode != MacFrame.addressExtended || frame.header.source == r.coordinator)

/-- What an event is: a response, or why it is not one. -/
def examine (c : Association) (now : UInt32) (e : Event) (profile : UInt8) :
    Except Decision (MacFrame.Info × MacFrame.Command) :=
  if e.epoch ≠ c.request.epoch ∨ e.generation ≠ c.generation then .error .stale
  else if e.kind = cancelKind then .error .cancelled
  else if MacTx.half ≤ e.stamp - c.last ∨ MacTx.half ≤ now - e.stamp then .error .stale
  else if e.channel ≠ c.request.channel then .error .mismatch
  else if e.crcValid = 0 then .error .badCrc
  else match MacFrame.decodeProfile e.body profile with
    | .error _ => .error .malformed
    | .ok frame =>
      if frame.header.type ≠ MacFrame.command then .error .mismatch
      else match MacFrame.commandDecode (payloadOf e.body frame) with
        | .error _ => .error .malformed
        | .ok command =>
          if command.identifier ≠ MacFrame.associationResponse ∨ !addressed c.request frame profile then
            .error .mismatch
          else .ok (frame, command)

def addressKind (command : MacFrame.Command) : AddressKind :=
  if command.status ≠ 0 then .refused else if command.shortAddress = 0xFFFE then .extendedOnly else .allocated

/-- A response in the record. -/
def recorded (c : Association) (e : Event) (frame : MacFrame.Info) (command : MacFrame.Command) : Record :=
  { c.record with
    stamp := e.stamp, shortAddress := command.shortAddress, status := command.status
    sequence := frame.header.sequence, sourceIeee := frame.header.source
    sourceRelation := if c.request.coordinatorMode = MacFrame.addressExtended then .matched else .unbound
    addressKind := addressKind command }

/-- The call is well formed: the clock does not go back and the event is one. -/
def wellFormed (c : Association) (now : UInt32) (event : Option Event) : Bool :=
  !decide (MacTx.half ≤ now - c.last) &&
    match event with
    | none => true
    | some e =>
      (e.kind == frameKind || e.kind == cancelKind) &&
        (e.kind != frameKind || (e.crcValid ≤ 1 && 11 ≤ e.channel && e.channel ≤ 26))

/-- One unit of work: the observation, and the context with a response recorded. -/
def work (c : Association) (now : UInt32) (event : Option Event) (profile : UInt8) : Decision × Association :=
  let c := { c with remaining := c.remaining - 1 }
  let r : Decision × Association := match event with
    | none => (.waiting, c)
    | some e =>
      match examine c now e profile with
      | .error decision => (decision, c)
      | .ok (frame, command) => (.response, { c with record := recorded c e frame command })
  if r.1 ≠ .response ∧ r.1 ≠ .cancelled ∧ r.2.remaining = 0 then (.exhausted, r.2) else r

/-- The observation of a well-formed call. -/
def observe (c : Association) (now : UInt32) (event : Option Event) (profile : UInt8) : Decision × Association :=
  if c.request.lifetime ≤ now - c.opened then (.expired, c)
  else if c.remaining = 0 then (.exhausted, c)
  else work c now event profile

/-- The end of a call: the watermark, and the end of the exchange. -/
def settle (c : Association) (now : UInt32) (decision : Decision) : Association :=
  let c := { c with last := now }
  if decision.terminal then
    { c with
      phase := .done
      record := { c.record with outcome := decision, stamp := if decision ≠ .response then now else c.record.stamp } }
  else c

/-- `mac_association_step_rx`; `mac_association_step` has the first profile. -/
def stepRx (c : Association) (now : UInt32) (event : Option Event) (profile : UInt8) :
    Result × Option Decision × Association :=
  if !valid c ∨ MacFrame.rxR22AssociationResponse < profile then (.invalid, none, c)
  else if c.phase ≠ .wait then (.state, none, c)
  else if !wellFormed c now event then (.invalid, none, c)
  else
    let r := observe c now event profile
    (.ok, some r.1, settle r.2 now r.1)

/-- `mac_association_take`. -/
def take (c : Association) : Result × Option Record × Association :=
  if !valid c then (.invalid, none, c)
  else if c.phase ≠ .done then (.state, none, c)
  else (.ok, some c.record, { c with phase := .idle })

/-! ## Calls -/

inductive Op where
  | start (request : Request) (now : UInt32)
  | step (now : UInt32) (event : Option Event) (profile : UInt8)
  | take

/-- What a call answered, and the generation it was made in. -/
structure Report where
  result : Result
  decision : Option Decision
  record : Option Record
  generation : UInt32
  deriving DecidableEq

def call (c : Association) : Op → Report × Association
  | .start request now =>
    let r := start c request now
    (⟨r.1, none, none, c.generation⟩, r.2)
  | .step now event profile =>
    let r := stepRx c now event profile
    (⟨r.1, r.2.1, none, c.generation⟩, r.2.2)
  | .take =>
    let r := take c
    (⟨r.1, none, r.2.1, c.generation⟩, r.2.2)

end MacAssociation
