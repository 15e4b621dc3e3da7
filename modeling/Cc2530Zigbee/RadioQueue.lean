import Cc2530Zigbee.Octets
import Cc2530Zigbee.Ring

/-!
# The radio queue

Four request cookies, two received frames and one frame to transmit. Requests
come from an interrupt handler, everything else from the foreground. The
receiver and the interrupt guard are the caller's to supply: each call says what
they answered. A first fault is latched.
-/
namespace RadioQueue

open Octets

inductive Result where
  | ok | invalidArgument | bufferOwnership | empty | full | irqActive | badCrc | radioFailed | corrupt | irqFailed
  deriving DecidableEq, Repr

/-- What the receiver answers. -/
inductive RxResult where
  | ok | invalidArgument | invalidRange | bufferOwnership | unsupportedState | busy | notEmpty | stateChanged
  | controllerError | countError | timeout | pollLimit | timebaseError | counterRange | badLength | badCrc
  deriving DecidableEq, Repr

def bodyMax : Nat := 125

structure RxFrame where
  length : UInt8
  rssiRaw : UInt8
  correlation : UInt8
  body : Vector UInt8 bodyMax
  deriving DecidableEq

structure TxFrame where
  length : UInt8
  body : Vector UInt8 bodyMax
  deriving DecidableEq

/-- The last driver result is `none` before the first service. -/
structure Status where
  fault : Result
  driverResult : Option RxResult
  lastCookie : UInt8
  requests : UInt8
  dropped : UInt8
  cancelled : UInt8
  rxCount : UInt8
  txCount : UInt8
  badCrc : UInt8
  deriving DecidableEq

/-- The fault is `ok` as long as there is none. -/
structure Queue where
  fault : Result
  eventHead : UInt8
  eventTail : UInt8
  events : Vector UInt8 4
  dropped : UInt8
  rx : Vector RxFrame 2
  tx : TxFrame
  rxHead : UInt8
  rxTail : UInt8
  rxCount : UInt8
  txCount : UInt8
  cancelled : UInt8
  badCrc : UInt8
  lastCookie : UInt8
  driverResult : Option RxResult
  deriving DecidableEq

def blankRx : RxFrame := ⟨0, 0, 0, Vector.replicate bodyMax 0⟩

/-- The state after reset. -/
def reset : Queue :=
  { fault := .ok, eventHead := 0, eventTail := 0, events := Vector.replicate 4 0, dropped := 0,
    rx := Vector.replicate 2 blankRx, tx := ⟨0, Vector.replicate bodyMax 0⟩, rxHead := 0, rxTail := 0,
    rxCount := 0, txCount := 0, cancelled := 0, badCrc := 0, lastCookie := 0, driverResult := none }

/-- A caller's object and where it lies. -/
structure Object (α : Type) where
  address : UInt16
  value : α

/-- Where the linker put the end of the private prefix and the store helper. -/
structure Layout where
  reservedEnd : UInt16
  helper : UInt16

def Queue.latch (q : Queue) (result : Result) : Result × Queue :=
  if q.fault = .ok then (result, { q with fault := result }) else (q.fault, q)

/-- Whether an object lies in memory the caller may own. -/
def Layout.caller (layout : Layout) (address : UInt16) (size : UInt8) : Bool :=
  layout.reservedEnd < address && address < 0x1E00 && size.toUInt16 ≤ 0x1E00 - address &&
    !(address ≤ layout.helper && layout.helper - address < size.toUInt16)

def Queue.rxValid (q : Queue) : Bool :=
  q.rxHead < 2 && q.rxTail < 2 && q.rxCount ≤ 2 && q.rxTail == (q.rxHead + q.rxCount) &&& 1

/-- Copy the first octets of a body, one at a time. -/
def copyBody (source : Nat → UInt8) : Nat → Vector UInt8 bodyMax → Vector UInt8 bodyMax
  | 0, body => body
  | n + 1, body => (copyBody source n body).setIfInBounds n (source n)

/-- The octets of a body, read one at a time. -/
def octet (body : Vector UInt8 bodyMax) (i : Nat) : UInt8 := body[i]?.getD 0

def saturatingIncrement (n : UInt8) : UInt8 := if n ≠ 255 then n + 1 else n

/-- `restored` says that the interrupt guard could be undone. -/
def Queue.requestRx (q : Queue) (cookie : UInt8) (restored : Bool) : Result × Queue :=
  if q.fault ≠ .ok then (q.fault, q)
  else
    let count := q.eventHead - q.eventTail
    let published : Result × Queue :=
      if 4 < count then (.corrupt, { q with fault := .corrupt })
      else if count = 4 then (.full, { q with dropped := saturatingIncrement q.dropped })
      else
        (.ok, { q with
          events := q.events.setIfInBounds (q.eventHead &&& 3).toNat cookie
          eventHead := q.eventHead + 1 })
    if !restored then published.2.latch .irqFailed else published

/-- `irqActive` says that some interrupt enable is set; `driver` and `filled` are
the receiver's answer and what it left in its frame. -/
def Queue.service (q : Queue) (channel : UInt8) (timeout : UInt32) (limit : UInt16) (irqActive : Bool)
    (driver : RxResult) (filled : RxFrame) : Result × Queue :=
  if q.fault ≠ .ok then (q.fault, q)
  else if channel < 11 ∨ 26 < channel ∨ timeout = 0 ∨ 0x800000 ≤ timeout ∨ limit = 0 then (.invalidArgument, q)
  else
    let count := q.eventHead - q.eventTail
    if !q.rxValid ∨ 4 < count then q.latch .corrupt
    else if count = 0 then (.empty, q)
    else if q.rxCount = 2 then (.full, q)
    else if irqActive then (.irqActive, q)
    else
      let served := { q with
        lastCookie := q.events[(q.eventTail &&& 3).toNat]?.getD 0
        eventTail := q.eventTail + 1
        rx := q.rx.setIfInBounds q.rxTail.toNat filled
        driverResult := some driver }
      if driver = .badCrc then (.badCrc, { served with badCrc := saturatingIncrement q.badCrc })
      else if driver ≠ .ok then served.latch .radioFailed
      else (.ok, { served with rxTail := q.rxTail ^^^ 1, rxCount := q.rxCount + 1 })

/-- The answer carries the caller's object as the call leaves it. -/
def Queue.rxRead (q : Queue) (layout : Layout) (output : Option (Object RxFrame)) : (Result × Option RxFrame) × Queue :=
  match output with
  | none => ((.invalidArgument, none), q)
  | some output =>
    let fail (r : Result × Queue) := ((r.1, some output.value), r.2)
    if !layout.caller output.address 128 then fail (.bufferOwnership, q)
    else if !q.rxValid then fail (q.latch .corrupt)
    else if q.rxCount = 0 then fail (.empty, q)
    else
      let slot := q.rx[q.rxHead.toNat]?.getD blankRx
      if slot.length = 0 ∨ 125 < slot.length then fail (q.latch .corrupt)
      else
        ((.ok, some
          { length := slot.length, rssiRaw := slot.rssiRaw, correlation := slot.correlation
            body := copyBody (octet slot.body) slot.length.toNat output.value.body }),
          { q with rxHead := q.rxHead ^^^ 1, rxCount := q.rxCount - 1 })

/-- The body is the memory the caller points at. -/
def Queue.txSubmit (q : Queue) (layout : Layout) (body : Option (Object (Nat → UInt8))) (length : UInt8) : Result × Queue :=
  if q.fault ≠ .ok then (q.fault, q)
  else
    match body with
    | none => (.invalidArgument, q)
    | some body =>
      if length = 0 ∨ 125 < length then (.invalidArgument, q)
      else if !layout.caller body.address length then (.bufferOwnership, q)
      else if 1 < q.txCount then q.latch .corrupt
      else if q.txCount ≠ 0 then (.full, q)
      else
        (.ok, { q with
          tx := { length := length, body := copyBody body.value length.toNat q.tx.body }
          txCount := 1 })

def Queue.txRead (q : Queue) (layout : Layout) (output : Option (Object TxFrame)) : (Result × Option TxFrame) × Queue :=
  match output with
  | none => ((.invalidArgument, none), q)
  | some output =>
    let fail (r : Result × Queue) := ((r.1, some output.value), r.2)
    if !layout.caller output.address 126 then fail (.bufferOwnership, q)
    else if 1 < q.txCount then fail (q.latch .corrupt)
    else if q.txCount = 0 then fail (.empty, q)
    else if q.tx.length = 0 ∨ 125 < q.tx.length then fail (q.latch .corrupt)
    else
      ((.ok, some
        { length := q.tx.length
          body := copyBody (octet q.tx.body) q.tx.length.toNat output.value.body }),
        { q with txCount := 0 })

def Queue.txCancel (q : Queue) : Result × Queue :=
  if 1 < q.txCount then q.latch .corrupt
  else if q.txCount = 0 then (.empty, q)
  else (.ok, { q with txCount := 0 })

def Queue.cancelRequests (q : Queue) (restored : Bool) : Result × Queue :=
  let count := q.eventHead - q.eventTail
  let emptied :=
    if 4 < count then q.latch .corrupt
    else
      (.ok, { q with
        eventTail := q.eventHead
        cancelled := if 255 - q.cancelled < count then 255 else q.cancelled + count })
  if !restored then emptied.2.latch .irqFailed else emptied

def Queue.status (q : Queue) : Status :=
  { fault := q.fault, driverResult := q.driverResult, lastCookie := q.lastCookie
    requests := q.eventHead - q.eventTail, dropped := q.dropped, cancelled := q.cancelled
    rxCount := q.rxCount, txCount := q.txCount, badCrc := q.badCrc }

def Queue.snapshot (q : Queue) (layout : Layout) (output : Option (Object Status)) (restored : Bool) :
    (Result × Option Status) × Queue :=
  match output with
  | none => ((.invalidArgument, none), q)
  | some output =>
    if !layout.caller output.address 9 then ((.bufferOwnership, some output.value), q)
    else if !restored then
      let r := q.latch .irqFailed
      ((r.1, some output.value), r.2)
    else ((.ok, some q.status), q)

end RadioQueue
