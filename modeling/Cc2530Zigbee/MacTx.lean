import Cc2530Zigbee.MacFrame

/-!
# The MAC transmitter

One frame at a time goes through backoff, a clear-channel assessment, the
transmission and the wait for its acknowledgment, with retries. Time is a 32-bit
count of symbols that wraps; the past is the half of the range behind a time.
The caller polls with the time and at most one event and gets at most one action.
-/
namespace MacTx

open Octets

inductive Phase where
  | idle | draw | drawWait | radio | ackWait | stopping | done | fault
  deriving DecidableEq, Repr

inductive Outcome where
  | none | acked | unacknowledged | channelAccess | noAck | cancelled | lifetime | workLimit | clockError
  | adapterError | stopFailed | timingUncertain
  deriving DecidableEq, Repr

inductive ActionKind where
  | none | random | attempt | quiesce | collect
  deriving DecidableEq, Repr

inductive Result where
  | ok | invalid | full | unsupported | space | state | generationExhausted
  deriving DecidableEq, Repr

structure Tx where
  frame : Vector UInt8 125
  last : UInt32
  deadline : UInt32
  attemptAt : UInt32
  txEnd : UInt32
  readyAt : UInt32
  generation : UInt32
  stopAt : UInt32
  steps : UInt16
  phase : Phase
  nextDsn : UInt8
  length : UInt8
  ackRequested : Bool
  nb : UInt8
  be : UInt8
  retries : UInt8
  outcome : Outcome
  transmissions : UInt8
  uncertain : Bool
  pending : Bool
  retryPending : Bool
  stopSteps : UInt8
  deriving DecidableEq

/-- An event as the caller fills it in. A missing pointer is `none`. -/
structure Event where
  generation : UInt32
  stamp : UInt32
  bytes : Option Bytes
  length : UInt16
  kind : UInt8
  retry : UInt8
  nb : UInt8
  value : UInt8

structure Action where
  generation : UInt32
  start : UInt32
  untilAt : UInt32
  kind : ActionKind
  retry : UInt8
  nb : UInt8
  length : UInt8
  ackRequested : Bool
  phase : Phase
  outcome : Outcome
  transmissions : UInt8
  uncertain : Bool
  pending : Bool
  deriving DecidableEq

def half : UInt32 := 0x80000000
def backoffSymbols : UInt32 := 20
def ackSymbols : UInt32 := 54
def minBe : UInt8 := 3
def maxBe : UInt8 := 5
def maxBackoffs : UInt8 := 4
def maxRetries : UInt8 := 3

/-- The bounds of a stop, longer in a build with `CC2530_MAC_LINK`. -/
def stopSymbols (link : Bool) : UInt32 := if link then 6144 else 1024
def stopSteps (link : Bool) : UInt8 := if link then 96 else 16

/-- A time is not ahead of `now`. -/
def reached (now time : UInt32) : Bool := now - time < half

/-- `mac_tx_init`. -/
def init (randomDsn : UInt8) (now : UInt32) : Tx where
  frame := Vector.replicate 125 0
  last := now
  deadline := 0
  attemptAt := 0
  txEnd := 0
  readyAt := now
  generation := 0
  stopAt := 0
  steps := 0
  phase := .idle
  nextDsn := randomDsn
  length := 0
  ackRequested := false
  nb := 0
  be := 0
  retries := 0
  outcome := .none
  transmissions := 0
  uncertain := false
  pending := false
  retryPending := false
  stopSteps := 0

/-! Admission. -/

/-- A short address that stands for none. -/
def unallocated (mode : UInt8) (a : MacFrame.Address) : Bool :=
  mode == MacFrame.addressShort && getElem a 0 MacFrame.at0 == 0xFE &&
    getElem a 1 MacFrame.at1 == 0xFF

/-- The decoded frames that may be sent. -/
def transmittable (info : MacFrame.Info) (body : Bytes) : Bool :=
  let h := info.header
  if MacFrame.has h.flags MacFrame.pending then false
  else if h.type = MacFrame.command then
    let command := byteAt body info.payloadOffset
    command == MacFrame.beaconRequest || (h.destinationPan != 0xFFFF &&
      ((command == MacFrame.associationRequest && byteAt body (body.length - 1) &&& 0xF3 == 0x80) ||
        (command == MacFrame.dataRequest && h.destinationMode != MacFrame.addressNone)))
  else !(h.type != MacFrame.data || h.sourcePan == 0xFFFF || h.destinationPan == 0xFFFF ||
    (!MacFrame.has h.flags MacFrame.panCompression && h.sourcePan == h.destinationPan) ||
    unallocated h.sourceMode h.source || unallocated h.destinationMode h.destination)

/-- The time from which the next attempt may start, moved up to `now` once passed. -/
def readyFrom (tx : Tx) (now : UInt32) : UInt32 :=
  if reached tx.last tx.readyAt || reached now tx.readyAt then now else tx.readyAt

theorem sequence_lt : 2 < 125 := by decide

/-- The buffer with a body copied in and its sequence number replaced. -/
def copied (frame : Vector UInt8 125) (body : Bytes) (dsn : UInt8) : Vector UInt8 125 :=
  Vector.ofFn fun k =>
    if k.val = 2 then dsn else if k.val < body.length then byteAt body k else getElem frame k (index125_lt k)

/-- `mac_tx_submit`. -/
def submit (tx : Tx) (body : Bytes) (now lifetime : UInt32) (workLimit : UInt16) : Result × Tx :=
  if lifetime = 0 ∨ half ≤ lifetime ∨ workLimit = 0 then (.invalid, tx)
  else if tx.phase ≠ .idle then (.full, tx)
  else if half ≤ now - tx.last then (.invalid, tx)
  else if tx.generation = 0xFFFFFFFF then (.generationExhausted, tx)
  else match MacFrame.decode body with
    | .error _ => (.unsupported, tx)
    | .ok info =>
      if !transmittable info body then (.unsupported, tx)
      else (.ok, { tx with
        frame := copied tx.frame body tx.nextDsn
        nextDsn := tx.nextDsn + 1
        length := UInt8.ofNat body.length
        ackRequested := MacFrame.has info.header.flags MacFrame.ackRequest
        generation := tx.generation + 1
        readyAt := readyFrom tx now
        last := now
        deadline := now + lifetime
        steps := workLimit
        phase := .draw
        nb := 0
        be := minBe
        retries := 0
        outcome := .none
        transmissions := 0
        uncertain := false
        pending := false
        retryPending := false })

/-- `mac_tx_copy`: the body, unless the slot is empty or the room too small. -/
def copy (tx : Tx) (capacity : Nat) : Except Result Bytes :=
  if tx.phase = .idle then .error .state
  else if capacity < tx.length.toNat then .error .space
  else .ok (tx.frame.toList.take tx.length.toNat)

/-! One step. -/

def fault (c : Tx) (outcome : Outcome) : Tx :=
  { c with uncertain := c.uncertain || c.phase == .radio, phase := .fault, outcome := outcome }

/-- The space a frame of this length leaves behind it. -/
def ifs (length : UInt8) : UInt32 := if length ≤ 16 then 12 else 40

def spacing (c : Tx) (finish : UInt32) : Tx := { c with readyAt := finish + ifs c.length }

def stop (link : Bool) (c : Tx) (now : UInt32) (outcome : Outcome) : Tx × ActionKind :=
  let c := { c with outcome := outcome }
  if c.phase = .draw ∨ c.phase = .drawWait then ({ c with phase := .done }, .none)
  else
    let c := if c.phase = .radio then { c with uncertain := true } else c
    let c := if c.phase = .ackWait ∧ c.ackRequested = true ∧ outcome ≠ .acked ∧ outcome ≠ .noAck then
      spacing c (c.txEnd + ackSymbols) else c
    ({ c with phase := .stopping, stopAt := now + stopSymbols link, stopSteps := stopSteps link }, .quiesce)

/-- The full acknowledgment window passes before another attempt, also after a
foreign sequence number. -/
def noAck (link : Bool) (c : Tx) (now : UInt32) : Tx × ActionKind :=
  let c := spacing c (c.txEnd + ackSymbols)
  stop link { c with retryPending := c.retries < maxRetries } now .noAck

/-- What an event says, by its kind. -/
inductive Signal where
  | random (value : UInt8)
  | busy (stamp : UInt32)
  | sent (stamp : UInt32)
  | ack (stamp : UInt32) (length : UInt16) (bytes : Bytes)
  | quiesced (stamp : UInt32)
  | failure
  | cancel
  deriving DecidableEq

def Event.signal (e : Event) : Option Signal :=
  if e.kind = 1 then some (.random e.value)
  else if e.kind = 2 then some (.busy e.stamp)
  else if e.kind = 3 then some (.sent e.stamp)
  else if e.kind = 4 then some (.ack e.stamp e.length (e.bytes.getD []))
  else if e.kind = 5 then some (.quiesced e.stamp)
  else if e.kind = 6 then some .failure
  else if e.kind = 7 then some .cancel
  else none

/-- A known kind, and octets behind a length. -/
def Event.wellFormed (e : Event) : Bool :=
  1 ≤ e.kind && e.kind ≤ 7 && !(e.kind == 4 && e.length != 0 && e.bytes.isNone)

/-- The identity is the current one, and the stamp lies between the last call and now. -/
def Event.current (e : Event) (tx : Tx) (now : UInt32) : Bool :=
  e.generation == tx.generation && e.retry == tx.retries && e.nb == tx.nb && e.stamp - tx.last < half &&
    now - e.stamp < half

/-- The signal of an event that is screened in. -/
def heard (tx : Tx) (now : UInt32) (event : Option Event) : Option Signal :=
  match event with
  | none => none
  | some e => if e.current tx now then e.signal else none

/-- Why an active transaction ends early. -/
def ended (c : Tx) (signal : Option Signal) : Outcome :=
  if signal = some .cancel then .cancelled else if c.steps = 0 then .workLimit else .lifetime

/-- Waiting for the radio to come to rest. -/
def stepStopping (c : Tx) (now : UInt32) (signal : Option Signal) : Tx :=
  let c := if c.retryPending = true ∧ (reached now c.deadline = true ∨ c.steps = 0 ∨ signal = some .cancel) then
    { c with retryPending := false, outcome := ended c signal } else c
  if reached now c.stopAt = true ∨ c.stopSteps = 0 then fault c .stopFailed
  else
    let c := { c with stopSteps := c.stopSteps - 1 }
    match signal with
    | some .failure => fault c .adapterError
    | some (.quiesced stamp) =>
      let c := if c.uncertain then spacing c (stamp + if c.ackRequested then ackSymbols else 0) else c
      if c.retryPending then
        { c with retryPending := false, retries := c.retries + 1, nb := 0, be := minBe, outcome := .none, phase := .draw }
      else { c with phase := .done }
    | _ => c

/-- The random number is there. -/
def stepDrawn (c : Tx) (now : UInt32) (value : UInt8) : Tx × ActionKind :=
  let start := if reached now c.readyAt then now else c.readyAt
  let start := start + (value.toUInt32 &&& ((1 <<< c.be.toUInt32) - 1)) * backoffSymbols
  if reached start c.deadline then ({ c with attemptAt := start, phase := .done, outcome := .lifetime }, .none)
  else ({ c with attemptAt := start, phase := .radio }, .attempt)

/-- The channel was busy; nothing was sent. -/
def stepBusy (c : Tx) : Tx :=
  let c := { c with nb := c.nb + 1, be := if c.be < maxBe then c.be + 1 else c.be }
  if maxBackoffs < c.nb then { c with phase := .done, outcome := .channelAccess } else { c with phase := .draw }

/-- The frame is on the air, up to `stamp`. -/
def stepSent (link : Bool) (c : Tx) (now stamp : UInt32) : Tx × ActionKind :=
  let c := { c with transmissions := c.transmissions + 1, txEnd := stamp, phase := .ackWait }
  if c.ackRequested then (c, .none) else stop link (spacing c stamp) now .unacknowledged

/-- Shortest times from the start of an attempt to its report. -/
def busyAfter : UInt32 := 8
def sentAfter (length : UInt8) : UInt32 := 24 + 2 * length.toUInt32

/-- An acknowledgment inside the window. Only its type, its pending flag and its
sequence number count. -/
def stepAck (link : Bool) (c : Tx) (now stamp : UInt32) (length : UInt16) (bytes : Bytes) : Tx × ActionKind :=
  if length = 3 ∧ byteAt bytes 0 &&& 7 = MacFrame.ack ∧ 0 < stamp - c.txEnd ∧ stamp - c.txEnd ≤ ackSymbols then
    match MacFrame.decode [byteAt bytes 0 &&& (MacFrame.pending ||| 7), 0, byteAt bytes 2] with
    | .error _ => (c, .none)
    | .ok info =>
      if info.header.sequence = getElem c.frame 2 sequence_lt then
        stop link (spacing { c with pending := MacFrame.has info.header.flags MacFrame.pending } stamp) now .acked
      else noAck link c now
  else (c, .none)

/-- Waiting for the acknowledgment. -/
def stepAckWait (link : Bool) (c : Tx) (now : UInt32) (signal : Option Signal) : Tx × ActionKind :=
  let r := match signal with
    | some (.ack stamp length bytes) => stepAck link c now stamp length bytes
    | _ => (c, .none)
  if r.1.phase = .ackWait ∧ reached now (r.1.txEnd + ackSymbols) = true then noAck link r.1 now else r

/-- The phases that do work. -/
def stepWork (link : Bool) (c : Tx) (now : UInt32) (signal : Option Signal) : Tx × ActionKind :=
  match c.phase, signal with
  | .draw, _ => ({ c with phase := .drawWait }, .random)
  | .drawWait, some (.random value) => stepDrawn c now value
  | .radio, some (.busy stamp) =>
    if !reached stamp (c.attemptAt + busyAfter) then (fault c .adapterError, .none) else (stepBusy c, .none)
  | .radio, some (.sent stamp) =>
    if !reached stamp (c.attemptAt + sentAfter c.length) then (fault c .adapterError, .none)
    else stepSent link c now stamp
  | .ackWait, signal => stepAckWait link c now signal
  | _, _ => (c, .none)

/-- A step of a transaction that is under way, with the clock in order. -/
def stepActive (link : Bool) (c : Tx) (now : UInt32) (signal : Option Signal) : Tx × ActionKind :=
  if c.phase = .stopping then (stepStopping c now signal, .none)
  else if signal = some .failure then (fault c .adapterError, .none)
  else if reached now c.deadline = true ∨ c.steps = 0 ∨ signal = some .cancel then
    stop link c now (ended c signal)
  else stepWork link { c with steps := c.steps - 1 } now signal

/-- What the caller is told. -/
def publish (c : Tx) (now : UInt32) (kind : ActionKind) : Action where
  generation := c.generation
  start := if kind = .quiesce then now else c.attemptAt
  untilAt := if c.phase = .stopping then c.stopAt else c.deadline
  kind := kind
  retry := c.retries
  nb := c.nb
  length := c.length
  ackRequested := c.ackRequested
  phase := c.phase
  outcome := c.outcome
  transmissions := c.transmissions
  uncertain := c.uncertain
  pending := c.pending

/-- The engine after a step, and the action it asks for. -/
def advance (link : Bool) (tx : Tx) (now : UInt32) (event : Option Event) : Tx × ActionKind :=
  if tx.phase = .done ∨ tx.phase = .fault then (tx, .none)
  else if half ≤ now - tx.last then (fault tx .clockError, .none)
  else stepActive link { tx with readyAt := readyFrom tx now, last := now } now (heard tx now event)

/-- `mac_tx_step`. Without success the action of the caller is left alone. -/
def step (link : Bool) (tx : Tx) (now : UInt32) (event : Option Event) : Result × Tx × Option Action :=
  if event.all Event.wellFormed = false then (.invalid, tx, none)
  else if tx.phase = .idle then (.state, tx, none)
  else
    let r := advance link tx now event
    (.ok, r.1, some (publish r.1 now r.2))

/-- `mac_tx_release`. -/
def release (tx : Tx) : Result × Tx :=
  if tx.phase ≠ .done then (.state, tx) else (.ok, { tx with phase := .idle })

end MacTx
