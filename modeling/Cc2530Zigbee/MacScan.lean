import Cc2530Zigbee.MacTxInterval
import Cc2530Zigbee.NwkCandidates

/-!
# The active scan

`mac_scan.c`. One scan borrows the transmitter: for each channel it sends a beacon
request and opens a receive window, and at the end, whatever ended it, it restores
the radio. A build with `CC2530_MAC_LINK` drives the interval transmitter, repeats
windows that lost frames and requests that found the channel busy.
-/
namespace MacScan

open Octets
open MacTx (IntervalTx half reached)

inductive Phase where
  | idle | config | submit | tx | open | rx | restore | done | fault
  deriving DecidableEq, Repr

inductive ActionKind where
  | none | config | tx | receive | restore
  deriving DecidableEq, Repr

/-- Why a scan ended. -/
inductive Reason where
  | none | finished | cancelled | lifetime | workLimit | clockError | adapterError | txError | closeMissing
  | cleanupFailed
  deriving DecidableEq, Repr

inductive Result where
  | ok | invalid | state | exhausted | badIndex
  deriving DecidableEq, Repr

/-- What the adapter reports. -/
inductive Report where
  | configured | tx | opened | beacon | closed | restored | failure | cancel
  deriving DecidableEq, Repr

structure RadioState where
  pan : UInt16
  channel : UInt8
  filter : UInt8
  rxOn : UInt8
  deriving DecidableEq, Repr

structure Request where
  channels : UInt32
  lifetime : UInt32
  work : UInt16
  duration : UInt8
  saved : RadioState
  deriving DecidableEq, Repr

/-- An event as the caller fills it in. A missing body is `none`. The signal strength is
what the radio measured last. -/
structure Event where
  generation : UInt32
  stamp : UInt32
  token : UInt16
  kind : UInt8
  crcValid : UInt8
  txResult : UInt8
  body : Option Bytes
  state : RadioState
  lossy : UInt8
  rssi : Int8
  deriving DecidableEq

structure Action where
  generation : UInt32
  untilAt : UInt32
  dwell : UInt32
  state : RadioState
  token : UInt16
  kind : ActionKind
  txCancel : Bool
  observed : Bool
  candidateResult : NwkCandidates.Result
  deriving DecidableEq

/-- `mac_scan_t`. The owner is the transmitter that the scan borrows. A build without the
link has none of the last three fields. -/
structure Scan where
  candidates : NwkCandidates.Table
  owner : Option Nat
  saved : RadioState
  generation : UInt32
  txGeneration : UInt32
  last : UInt32
  deadline : UInt32
  dwell : UInt32
  windowStart : UInt32
  windowEnd : UInt32
  remaining : UInt32
  unscanned : UInt32
  sent : UInt32
  steps : UInt16
  token : UInt16
  version : UInt8
  phase : Phase
  channel : UInt8
  issued : Bool
  reason : Reason
  cleanupError : Reason
  uncertain : Bool
  overflow : Bool
  stopping : Bool
  stopSteps : UInt8
  txOutcome : MacTx.Outcome
  lossy : UInt32
  retries : UInt8
  busy : UInt8
  deriving DecidableEq

def scanVersion : UInt8 := 1
def maxLifetime : UInt32 := 0x10000000
def maxWork : UInt16 := 4096
def filterBeacons : UInt8 := 1
def lossyRetries : UInt8 := 2
def busyRetries : UInt8 := 3
def txSteps : UInt16 := 64

/-- The bounds that differ in a build with `CC2530_MAC_LINK`. -/
def txSymbols (link : Bool) : UInt32 := if link then 16384 else 4096
def stopSymbols (link : Bool) : UInt32 := if link then 8192 else 4096
def stopLimit (link : Bool) : UInt8 := if link then 128 else 64
def closeGrace (link : Bool) : UInt32 := if link then 4096 else 1024

/-- The beacon request: no source, broadcast, no acknowledgment. -/
def beaconRequest : Bytes := [3, 8, 0, 255, 255, 255, 255, 7]

/-- The bit of a channel. -/
def channelBit (channel : UInt8) : UInt32 := 1 <<< channel.toUInt32

/-- `mac_tx_submit` or `mac_tx_interval_submit`. -/
def submit (link : Bool) (tx : IntervalTx) (now : UInt32) : MacTx.Result × IntervalTx :=
  if link then MacTx.intervalSubmit tx beaconRequest now (txSymbols link) txSteps
  else
    let r := MacTx.submit tx.engine beaconRequest now (txSymbols link) txSteps
    (r.1, { tx with engine := r.2 })

/-- `mac_tx_release`; `mac_tx_interval_release` passes it on. -/
def releaseTx (tx : IntervalTx) : IntervalTx := (MacTx.intervalRelease tx).2

def radioState (s : RadioState) : Bool := 11 ≤ s.channel ∧ s.channel ≤ 26 ∧ s.filter ≤ filterBeacons ∧ s.rxOn ≤ 1

def scanState (s : RadioState) (channel rx : UInt8) : Bool :=
  s.pan = 0xFFFF ∧ s.channel = channel ∧ s.filter = filterBeacons ∧ s.rxOn = rx

def stop (link : Bool) (scan : Scan) (reason : Reason) (now : UInt32) : Scan :=
  let scan := { scan with
    reason := if scan.reason = .none then reason else scan.reason
    uncertain := scan.uncertain || reason == .adapterError || reason == .closeMissing }
  let scan :=
    if scan.stopping then scan
    else { scan with stopping := true, deadline := now + stopSymbols link, stopSteps := stopLimit link }
  if scan.phase ≠ .tx then { scan with phase := .restore, issued := false } else scan

def fault (scan : Scan) (reason : Reason) : Scan :=
  { scan with
    reason := if scan.reason = .none then reason else scan.reason
    cleanupError := if scan.reason = .none ∨ scan.cleanupError ≠ .none then scan.cleanupError else reason
    uncertain := true
    phase := .fault }

/-- The lowest channel of a mask; 27 when there is none. -/
def lowest (mask : UInt32) : UInt8 :=
  match (List.range' 11 16).find? fun c => mask &&& channelBit (UInt8.ofNat c) ≠ 0 with
  | some c => UInt8.ofNat c
  | none => 27

def nextChannel (link : Bool) (scan : Scan) (now : UInt32) : Scan :=
  if scan.remaining = 0 then stop link scan .finished now
  else
    let channel := lowest scan.remaining
    -- the loop leaves the bit of the last channel it looked at
    let bit := channelBit (if channel ≤ 26 then channel else 26)
    { scan with
      channel := channel
      remaining := scan.remaining &&& ~~~bit
      phase := .config
      issued := false
      retries := if link then 0 else scan.retries
      busy := if link then 0 else scan.busy }

/-- Zeroed memory. -/
def Scan.zero : Scan where
  candidates :=
    { version := 0, channelMask := 0, count := 0, rejoin := false
      entries := Vector.replicate NwkCandidates.capacity .zero, filtered := false, parent := 0, epidSeen := false
      mixed := false, firstEpid := Vector.replicate 8 0 }
  owner := none
  saved := ⟨0, 0, 0, 0⟩
  generation := 0
  txGeneration := 0
  last := 0
  deadline := 0
  dwell := 0
  windowStart := 0
  windowEnd := 0
  remaining := 0
  unscanned := 0
  sent := 0
  steps := 0
  token := 0
  version := 0
  phase := .idle
  channel := 0
  issued := false
  reason := .none
  cleanupError := .none
  uncertain := false
  overflow := false
  stopping := false
  stopSteps := 0
  txOutcome := .none
  lossy := 0
  retries := 0
  busy := 0

/-- `mac_scan_init`. -/
def init : Scan := { Scan.zero with version := scanVersion }

/-- A request that a scan can be made of. -/
def validRequest (r : Request) : Bool :=
  ¬(r.channels = 0 ∨ r.channels &&& ~~~NwkCandidates.channels ≠ 0 ∨ r.duration > 14 ∨ r.work = 0 ∨ r.work > maxWork ∨
    r.lifetime = 0 ∨ r.lifetime > maxLifetime ∨ ¬ radioState r.saved)

/-- The context of a new request, before its first channel. -/
def primed (scan : Scan) (id : Nat) (tx : IntervalTx) (request : Request) (now : UInt32) : Scan :=
  { scan with
    candidates := (NwkCandidates.init request.channels).toOption.getD scan.candidates
    owner := some id
    saved := request.saved
    generation := scan.generation + 1
    txGeneration := tx.engine.generation
    last := now
    deadline := now + request.lifetime
    dwell := (960 : UInt32) * ((1 <<< request.duration.toUInt32) + 1)
    steps := request.work
    remaining := request.channels
    unscanned := request.channels
    sent := 0
    reason := .none
    cleanupError := .none
    uncertain := false
    overflow := false
    token := 0
    stopping := false
    txOutcome := .none
    phase := .config }

/-- `mac_scan_start`. -/
def start (link : Bool) (scan : Scan) (id : Nat) (tx : IntervalTx) (request : Request) (now : UInt32) : Result × Scan :=
  if ¬ validRequest request then (.invalid, scan)
  else if scan.version ≠ scanVersion ∨ scan.phase ≠ .idle ∨ tx.engine.phase ≠ .idle then (.state, scan)
  else if now - tx.engine.last ≥ half then (.invalid, scan)
  else if scan.generation = 0xFFFFFFFF ∨ tx.engine.generation = 0xFFFFFFFF then (.exhausted, scan)
  else (.ok, nextChannel link (primed scan id tx request now) now)

/-! One step. -/

def reportOf : UInt8 → Option Report
  | 1 => some .configured
  | 2 => some .tx
  | 3 => some .opened
  | 4 => some .beacon
  | 5 => some .closed
  | 6 => some .restored
  | 7 => some .failure
  | 8 => some .cancel
  | _ => none

/-- An event that the step accepts as an argument. -/
def Event.wellFormed (e : Event) : Bool :=
  match reportOf e.kind with
  | none => false
  | some .beacon => e.body.isSome && e.crcValid ≤ 1
  | some .tx => e.txResult ≤ 6
  | some _ => true

/-- The event is about this action and in time. With the link the stamp of a closing may
lie behind the last step: it is the watermark from before the stop. -/
def Event.current (link : Bool) (e : Event) (scan : Scan) (now : UInt32) : Bool :=
  e.generation = scan.generation ∧ e.token = scan.token ∧
    ((link ∧ reportOf e.kind = some .closed) ∨ e.stamp - scan.last < half) ∧ now - e.stamp < half

/-- What the event says, if it is current. -/
def heard (link : Bool) (scan : Scan) (now : UInt32) (event : Option Event) : Option (Report × Event) :=
  match event with
  | none => none
  | some e => if e.current link scan now then (reportOf e.kind).map fun r => (r, e) else none

/-- The heard event is of a kind. -/
def hears (h : Option (Report × Event)) (report : Report) : Bool := h.any (·.1 = report)

/-- The bounds of the scan and of its cleanup, and the events that end it. An error is a
fault. -/
def govern (link : Bool) (scan : Scan) (now : UInt32) (h : Option (Report × Event)) : Except Scan Scan :=
  if scan.stopping then
    if reached now scan.deadline ∨ scan.stopSteps = 0 ∨ hears h .failure then .error (fault scan .cleanupFailed)
    else .ok { scan with stopSteps := scan.stopSteps - 1 }
  else if hears h .cancel ∨ hears h .failure ∨ reached now scan.deadline ∨ scan.steps = 0 then
    let scan := { scan with uncertain := scan.uncertain || hears h .failure }
    .ok (stop link scan
      (if hears h .cancel then .cancelled else if hears h .failure then .adapterError
        else if scan.steps = 0 then .workLimit else .lifetime) now)
  else .ok { scan with steps := scan.steps - 1 }

/-- The scan and the transmitter after a part of a step, and what it asks for. -/
structure Moved where
  scan : Scan
  tx : IntervalTx
  kind : ActionKind
  txCancel : Bool
  observed : Bool
  candidateResult : NwkCandidates.Result

/-- Nothing asked for. -/
def Moved.quiet (scan : Scan) (tx : IntervalTx) : Moved := ⟨scan, tx, .none, false, false, .ok⟩

/-- An action is granted under a new token. -/
def grant (scan : Scan) (tx : IntervalTx) (kind : ActionKind) : Moved :=
  { Moved.quiet { scan with issued := true, token := scan.token + 1 } tx with kind := kind }

def stepConfig (link : Bool) (scan : Scan) (tx : IntervalTx) (now : UInt32) (h : Option (Report × Event)) : Moved :=
  if ¬ scan.issued then grant scan tx .config
  else
    match h with
    | some (.configured, e) =>
      .quiet (if ¬ scanState e.state scan.channel 0 then stop link scan .adapterError now
        else { scan with phase := .submit }) tx
    | _ => .quiet scan tx

def stepSubmit (link : Bool) (scan : Scan) (tx : IntervalTx) (now : UInt32) : Moved :=
  let r := submit link tx now
  if r.1 ≠ .ok then .quiet (stop link scan .txError now) r.2
  else
    .quiet { scan with
      txGeneration := r.2.engine.generation
      phase := .tx
      token := scan.token + 1
      issued := false } r.2

/-- What the outcome of the request means for the channel. -/
def requested (link : Bool) (scan : Scan) (now : UInt32) : Scan :=
  let scan := { scan with phase := .open }
  if scan.stopping then stop link scan scan.reason now
  else if scan.txOutcome = .channelAccess then
    if link ∧ scan.busy < busyRetries then { scan with busy := scan.busy + 1, phase := .config, issued := false }
    else nextChannel link scan now
  else if scan.txOutcome ≠ .unacknowledged then stop link scan .txError now
  else scan

/-- The report of a step of the transmitter. -/
def stepTxReport (link : Bool) (scan : Scan) (tx : IntervalTx) (now : UInt32) (e : Event) : Scan × IntervalTx :=
  let c := tx.engine
  let scan := { scan with
    issued := false
    txOutcome := c.outcome
    sent := if c.transmissions ≠ 0 then channelBit scan.channel ||| scan.sent else scan.sent
    uncertain := scan.uncertain || c.uncertain }
  if e.txResult ≠ 0 ∨ c.phase = .fault ∨ c.phase = .idle ∨ c.last ≠ e.stamp then (fault scan .txError, tx)
  else if c.phase = .done then (requested link scan now, releaseTx tx)
  else (scan, tx)

def stepTx (link : Bool) (scan : Scan) (tx : IntervalTx) (now : UInt32) (h : Option (Report × Event)) : Moved :=
  let r :=
    match h with
    | some (.tx, e) => if scan.issued then stepTxReport link scan tx now e else (scan, tx)
    | _ => (scan, tx)
  if r.1.phase = .tx ∧ ¬ r.1.issued then
    let c := r.2.engine
    { grant r.1 r.2 .tx with
      txCancel := r.1.stopping && c.phase != .stopping && c.phase != .done && c.phase != .fault }
  else .quiet r.1 r.2

def stepOpen (link : Bool) (scan : Scan) (tx : IntervalTx) (now : UInt32) (h : Option (Report × Event)) : Moved :=
  if ¬ scan.issued then grant scan tx .receive
  else
    match h with
    | some (.opened, e) =>
      .quiet (if ¬ scanState e.state scan.channel 1 then stop link scan .adapterError now
        else { scan with windowStart := e.stamp, windowEnd := e.stamp + scan.dwell, phase := .rx }) tx
    | _ => .quiet scan tx

/-- A window is closed in time and in the state of the scan. -/
def closedWell (link : Bool) (scan : Scan) (e : Event) : Bool :=
  (if link then reached e.stamp scan.windowEnd else e.stamp = scan.windowEnd) ∧ scanState e.state scan.channel 0

/-- The mask of loss behind a window that is not repeated: the last window decides. -/
def settled (link : Bool) (scan : Scan) (e : Event) : UInt32 :=
  if ¬ link then scan.lossy
  else if e.lossy ≠ 0 then channelBit scan.channel ||| scan.lossy
  else scan.lossy &&& ~~~channelBit scan.channel

def stepClosed (link : Bool) (scan : Scan) (now : UInt32) (e : Event) : Scan :=
  if ¬ closedWell link scan e then stop link scan .adapterError now
  else if link ∧ e.lossy > 1 then stop link scan .adapterError now
  else if link ∧ e.lossy ≠ 0 ∧ scan.retries < lossyRetries then
    { scan with
      lossy := channelBit scan.channel ||| scan.lossy
      retries := scan.retries + 1
      phase := .config
      issued := false }
  else
    nextChannel link { scan with
      lossy := settled link scan e
      unscanned := ~~~channelBit scan.channel &&& scan.unscanned } now

def stepRx (link : Bool) (build : Build) (scan : Scan) (tx : IntervalTx) (now : UInt32) (h : Option (Report × Event)) :
    Moved :=
  let m :=
    match h with
    | some (.closed, e) => Moved.quiet (stepClosed link scan now e) tx
    | some (.beacon, e) =>
      if e.state.channel = scan.channel ∧ (link ∨ e.stamp - scan.windowStart < scan.dwell) then
        let r := NwkCandidates.consider build scan.candidates ⟨scan.channel, e.crcValid, e.body.getD [], e.rssi⟩
        { Moved.quiet { scan with candidates := r.2, overflow := scan.overflow || r.1 == .full } tx with
          observed := true
          candidateResult := r.1 }
      else .quiet scan tx
    | _ => .quiet scan tx
  if m.scan.phase = .rx ∧ reached now (m.scan.windowEnd + closeGrace link) then
    { m with scan := stop link m.scan .closeMissing now }
  else m

/-- The work of a phase. -/
def stepPhase (link : Bool) (build : Build) (scan : Scan) (tx : IntervalTx) (now : UInt32)
    (h : Option (Report × Event)) : Moved :=
  match scan.phase with
  | .config => stepConfig link scan tx now h
  | .submit => stepSubmit link scan tx now
  | .tx => stepTx link scan tx now h
  | .open => stepOpen link scan tx now h
  | .rx => stepRx link build scan tx now h
  | .idle | .restore | .done | .fault => .quiet scan tx

/-- The cleanup: the exact snapshot is restored and confirmed. -/
def stepRestore (m : Moved) (h : Option (Report × Event)) : Moved :=
  if m.scan.phase ≠ .restore then m
  else if ¬ m.scan.issued then
    { m with scan := { m.scan with issued := true, token := m.scan.token + 1 }, kind := .restore }
  else
    match h with
    | some (.restored, e) =>
      { m with scan := if e.state ≠ m.scan.saved then fault m.scan .cleanupFailed else { m.scan with phase := .done } }
    | _ => m

def advance (link : Bool) (build : Build) (scan : Scan) (tx : IntervalTx) (now : UInt32) (event : Option Event) : Moved :=
  if scan.phase = .done ∨ scan.phase = .fault then .quiet scan tx
  else if now - scan.last ≥ half then .quiet (fault scan .clockError) tx
  else
    let h := heard link scan now event
    let scan := { scan with last := now }
    if tx.engine.generation ≠ scan.txGeneration ∨ (scan.phase ≠ .tx ∧ tx.engine.phase ≠ .idle) then
      .quiet (fault scan .txError) tx
    else
      match govern link scan now h with
      | .error scan => .quiet scan tx
      | .ok scan => stepRestore (stepPhase link build scan tx now h) h

def publish (m : Moved) : Action where
  generation := m.scan.generation
  untilAt := m.scan.deadline
  dwell := m.scan.dwell
  state :=
    if m.kind = .restore then m.scan.saved
    else ⟨0xFFFF, m.scan.channel, filterBeacons, if m.kind = .receive then 1 else 0⟩
  token := m.scan.token
  kind := m.kind
  txCancel := m.txCancel
  observed := m.observed
  candidateResult := m.candidateResult

/-- `mac_scan_step`. Without success the action of the caller is left alone. -/
def step (link : Bool) (build : Build) (scan : Scan) (id : Nat) (tx : IntervalTx) (now : UInt32) (event : Option Event) :
    Result × Scan × IntervalTx × Option Action :=
  if event.all Event.wellFormed = false then (.invalid, scan, tx, none)
  else if scan.version ≠ scanVersion ∨ scan.phase = .idle ∨ scan.owner ≠ some id then (.state, scan, tx, none)
  else
    let m := advance link build scan tx now event
    (.ok, m.scan, m.tx, some (publish m))

/-- `mac_scan_get`. -/
def get (scan : Scan) (index : UInt8) : Except Result NwkCandidates.Candidate :=
  if scan.version ≠ scanVersion ∨ (scan.phase ≠ .done ∧ scan.phase ≠ .fault) then .error .state
  else
    match NwkCandidates.get scan.candidates index with
    | .error _ => .error .badIndex
    | .ok c => .ok c

/-- `mac_scan_release`. -/
def release (scan : Scan) (id : Nat) (tx : IntervalTx) : Result × Scan :=
  if scan.version ≠ scanVersion ∨ scan.phase ≠ .done ∨ scan.owner ≠ some id ∨ tx.engine.phase ≠ .idle ∨
      tx.engine.generation ≠ scan.txGeneration then (.state, scan)
  else (.ok, { scan with phase := .idle })

end MacScan
