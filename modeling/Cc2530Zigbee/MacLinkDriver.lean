import Cc2530Zigbee.MacAdapter
import Cc2530Zigbee.Runs
import Cc2530Zigbee.WrappedClock

/-!
# The guard of automatic acknowledgments

The radio answers a frame that asks for an acknowledgment by itself. The link driver
remembers how long such an answer can take, and nothing starts with the radio off before
that time. Here are the parts of the driver that read or set the guard; a step of the
driver is some of them one after the other.
-/
namespace MacLinkDriver

open MacEpoch (Stamp)
open MacTx (reached)
open MacAdapter (Adapter)

/-- `mac_link_driver_result_t`, as far as a fault can be one. -/
inductive Fault where
  | radio | consumer | order | coverage
  deriving DecidableEq, Repr

/-- `bdb_join_phase_t`. -/
inductive Phase where
  | idle | scanning | associating | installing | waitKey | announcing | node | requesting | waitTc | verifying
  | waitConfirm | parent | permit | ready | updating | aborting | leaving | failed | fault | recovering
  deriving DecidableEq, Repr

/-- The number of a phase. -/
def Phase.code : Phase → Nat
  | .idle => 0 | .scanning => 1 | .associating => 2 | .installing => 3 | .waitKey => 4 | .announcing => 5 | .node => 6
  | .requesting => 7 | .waitTc => 8 | .verifying => 9 | .waitConfirm => 10 | .parent => 11 | .permit => 12 | .ready => 13
  | .updating => 14 | .aborting => 15 | .leaving => 16 | .failed => 17 | .fault => 18 | .recovering => 19

inductive Workspace where
  | none | scan | association | runtime
  deriving DecidableEq, Repr

/-- What the driver reads of the join: the phase, the workspace, whether a scan window is open or an
extraction waits, whether the transmitter is idle, and the capability octet. -/
structure Join where
  phase : Phase
  workspace : Workspace
  scanReceives : Bool
  extracts : Bool
  engineIdle : Bool
  capability : UInt8
  deriving DecidableEq, Repr

/-- What the join answers a frame. -/
inductive Consumed where
  | ok | ignored | full | failed
  deriving DecidableEq, Repr

/-- The driver's clock, guard and counts. -/
structure Driver where
  now : UInt32
  rxSerial : UInt32
  closedThrough : UInt32
  gaps : UInt32
  rxReadyAt : UInt32
  fault : Option Fault
  dropped : UInt8
  rxHold : UInt32
  rxMark : UInt32
  rxOn : UInt32
  readyTime : UInt32
  rxOpens : UInt32
  rxHeld : Bool
  deriving DecidableEq, Repr

/-- `mac_link_driver_init` at the time of the join's last step. -/
def init (last frames : UInt32) : Driver where
  now := last
  rxSerial := frames
  closedThrough := 0
  gaps := 0
  rxReadyAt := last
  fault := none
  dropped := 0
  rxHold := 0
  rxMark := 0
  rxOn := 0
  readyTime := 0
  rxOpens := 0
  rxHeld := false

/-- `MAC_LINK_CEIL` and `MAC_LINK_FLOOR`. -/
def ceil (point : Stamp) : UInt32 := point.symbols + (if point.fine ≠ 0 then 1 else 0)
def floor (point : Stamp) : UInt32 := point.symbols

/-- `fault`. -/
def fail (d : Driver) (why : Fault) : Bool × Driver := (false, { d with fault := some why })

/-- `sample`, with the answer of `mac_adapter_now`. -/
def sample (d : Driver) (result : MacAdapter.Result) (clock : Stamp) : Bool × Driver :=
  if result ≠ .ok then fail d .radio
  else if !reached clock.symbols d.now then fail d .order
  else (true, { d with now := clock.symbols })

/-- The type of an observed frame, 255 of an empty one. -/
def frameType (o : MacAdapter.Observation) : UInt8 := if o.frame.length ≠ 0 then Octets.byteAt o.frame.body 0 &&& 7 else 255

def crcValid (o : MacAdapter.Observation) : Bool := o.frame.crcCorrelation &&& 0x80 ≠ 0

/-- The frame was received with automatic acknowledgment on and asks for one. -/
def answered (o : MacAdapter.Observation) : Bool :=
  o.normalRx && crcValid o && (frameType o == MacFrame.data || frameType o == MacFrame.command) &&
    (Octets.byteAt o.frame.body 0 &&& MacFrame.ackRequest != 0)

/-- The time from the end of such a frame to the end of the longest silence behind its answer. -/
def guardTime : UInt32 := 74

/-- A received frame, in the order of its serial number. Beacons go to a scan, commands and data to an
association that extracts, data to the runtime. -/
def receive (d : Driver) (j : Join) (o : MacAdapter.Observation) (consumed : Consumed) : Bool × Driver :=
  if o.rxSerial ≠ d.rxSerial + 1 ∨ o.rxSerial = 0 then fail d .order
  else
    let d := if answered o then { d with rxReadyAt := ceil o.upper + guardTime } else d
    let beacon := o.source == 0 && j.phase == .scanning && j.scanReceives && frameType o == MacFrame.beacon
    let joined := o.source == 0 && (frameType o == MacFrame.command || frameType o == MacFrame.data) &&
      decide (Phase.code .associating ≤ j.phase.code) && o.normalRx
    let extracted := joined && j.phase == .associating && j.extracts
    if beacon ∨ extracted then
      if consumed = .ok ∨ consumed = .ignored then (true, { d with rxSerial := o.rxSerial }) else fail d .consumer
    else
      let taken := joined && frameType o == MacFrame.data && j.workspace == .runtime &&
        ((decide (Phase.code .waitKey ≤ j.phase.code) && decide (j.phase.code < Phase.code .updating)) ||
          j.phase == .recovering)
      let dropped := if taken ∧ consumed = .full ∧ d.dropped ≠ 255 then d.dropped + 1 else d.dropped
      (true, { d with dropped := dropped, rxSerial := o.rxSerial })

/-- `observe`, with the result of the adapter's step and the adapter behind it. -/
def observe (d : Driver) (j : Join) (result : MacAdapter.Result) (a : Adapter) (consumed : Consumed) : Bool × Driver :=
  if result ≠ .wait ∧ result ≠ .event ∧ result ≠ .expired then fail d .radio
  else if !reached a.live.symbols d.now then fail d .order
  else
    let d := { d with now := a.live.symbols }
    if result ≠ .event then (true, d)
    else
      let o := a.observation
      if o.lossy ∧ j.phase ≠ .scanning ∧ j.workspace ≠ .association ∧ j.workspace ≠ .runtime then fail d .coverage
      else
        let r := if o.kind = .rx then receive d j o consumed else (true, d)
        if !r.1 then r else (true, { r.2 with closedThrough := floor o.through })

/-- What `close_off` tells the step: 0, 1 or 2. -/
inductive Verdict where
  | stop | off | drain
  deriving DecidableEq, Repr

/-- The radio is off and settled. -/
def settled (a : Adapter) : Bool := a.phase == .off && !a.ready && a.goal == .none

/-- `close_off`, with the answers of `mac_adapter_now` and `mac_adapter_close`. -/
def closeOff (d : Driver) (a : Adapter) (result : MacAdapter.Result) (clock : Stamp) (closed : MacAdapter.Result) :
    Verdict × Driver :=
  if settled a then
    if reached d.now d.rxReadyAt then (.off, d)
    else
      let r := sample d result clock
      if r.1 then (if reached r.2.now r.2.rxReadyAt then .off else .stop, r.2) else (.stop, r.2)
  else if a.phase = .rx ∧ !a.ready then
    if closed ≠ .ok then (.stop, { d with fault := some .radio }) else (.stop, { d with gaps := d.gaps + 1 })
  else (.drain, d)

/-- `mac_adapter_open` and its fault. -/
def opened (d : Driver) (open' : MacAdapter.Result) : Driver := if open' ≠ .ok then { d with fault := some .radio } else d

/-- A child whose receiver is off while it has nothing to do. -/
def sleeps (j : Join) : Bool := j.phase == .ready && j.capability &&& 0x08 == 0

/-- The receiver between two transmissions; only a build with `CC2530_RX_OFF_IDLE` lets it sleep. -/
def idle (rxOffIdle : Bool) (d : Driver) (j : Join) (a : Adapter) (closed open' : MacAdapter.Result) : Driver :=
  let wake (d : Driver) : Driver :=
    if j.workspace = .runtime ∧ a.phase = .off ∧ j.engineIdle ∧ !a.ready then opened d open' else d
  if !rxOffIdle then wake d
  else if sleeps j then
    let d := { d with
      readyTime := d.readyTime + (d.now - d.rxMark)
      rxOn := if a.phase ≠ .off ∧ a.phase ≠ .prepared then d.rxOn + (d.now - d.rxMark) else d.rxOn
      rxMark := d.now
      rxHeld := d.rxHeld && !reached d.now d.rxHold
      -- The guard stays inside the half epoch of `reached`.
      rxReadyAt := if reached d.now d.rxReadyAt then d.now else d.rxReadyAt }
    if j.engineIdle ∧ !a.ready ∧ a.goal = .none then
      if a.phase = .rx ∧ !d.rxHeld ∧ d.rxReadyAt = d.now then
        if closed ≠ .ok then { d with fault := some .radio } else { d with gaps := d.gaps + 1 }
      else if a.phase = .off ∧ d.rxHeld then
        if open' ≠ .ok then { d with fault := some .radio } else { d with rxOpens := d.rxOpens + 1 }
      else d
    else d
  else wake { d with rxHeld := false, rxMark := d.now }

/-- A poll keeps the receiver on for a while. -/
def hold (d : Driver) (frameWait : UInt32) : Driver := { d with rxHold := d.now + frameWait, rxHeld := true }

end MacLinkDriver
