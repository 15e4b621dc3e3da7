import Cc2530Zigbee.Build
import Cc2530Zigbee.NvRecord
import Cc2530Zigbee.NvRecordRuns
import Cc2530Zigbee.Runs

/-!
# Outgoing frame counter ranges

The exclusive owner of the journal. A record holds two exclusive ceilings, one
for each counter domain (`false` is NWK, `true` is APS), and an opaque payload.
A ceiling is committed before any counter below it is handed out, and a start
begins at the committed ceilings. Calls return the device when the supply is
lost inside them.
-/
namespace SecurityCounter

open Octets
open NvRecord (Device Pointer Array8)

inductive Result where
  | ok | empty | argument | ownership | state | format | version | recovery | nv | rollback | exhausted
  | space | pending
  deriving DecidableEq, Repr

inductive Phase where
  | cold | unprovisioned | ready | failed | busy
  deriving DecidableEq, Repr

/-- `security_counter_status_t`, the snapshot buffer and the journal below. -/
structure State where
  next : Bool → UInt32
  untils : Bool → UInt32
  generation : UInt32
  state : Phase
  result : Result
  nvResult : NvRecord.Result
  payloadLength : UInt8
  blob : Array8
  nv : NvRecord.State

def cold (d : Device) : State where
  next := fun _ => 0
  untils := fun _ => 0
  generation := 0
  state := .cold
  result := .ok
  nvResult := .ok
  payloadLength := 0
  blob := fun _ => 0
  nv := NvRecord.reset d

def range : UInt32 := 256

/-- The first octets of a buffer. -/
def bytes (a : Array8) (n : Nat) : Bytes := (List.range n).map a

/-- A buffer after some octets were copied to its start. -/
def fill (a : Array8) (s : Bytes) : Array8 := fun i => if i < s.length then byteAt s i else a i

def encode (a : Array8) (i : Nat) (value : UInt32) : Array8 := fun k =>
  if i ≤ k ∧ k < i + 4 then octet value.toNat (k - i) else a k

/-- The place of a domain's ceiling in the snapshot. -/
def slot (domain : Bool) : Nat := if domain then 12 else 8

def ceiling (a : Array8) (domain : Bool) : UInt32 := NvRecord.decode a (slot domain)

def finish (s : State) (r : Result) : Result × State := (r, { s with result := r })

def fail (s : State) (r : Result) : Result × State := finish { s with state := .failed } r

def ready (s : State) : Result :=
  match s.state with
  | .failed => s.result
  | .ready => .ok
  | _ => .state

def floors (s : State) : State := { s with next := ceiling s.blob, untils := ceiling s.blob }

variable (build : Build)

/-- Reload the record and compare it with the snapshot. -/
def current (s : State) : Result × State :=
  let l := NvRecord.load build.recordMax s.nv .accepted (NvRecord.fullCapacity build)
  let s := { s with nvResult := l.1, nv := l.2.2 }
  let length := 16 + s.payloadLength.toNat
  if s.generation = 0 then
    if l.1 = .empty then (.ok, s) else fail s .rollback
  else if l.1 = .recovered then fail s .recovery
  else if l.1 ≠ .ok then fail s .nv
  else if s.nv.status.generation ≠ s.generation ∨ s.nv.status.length.toNat ≠ length then fail s .rollback
  else if bytes (byteAt (l.2.1.getD [])) length ≠ bytes s.blob length then fail s .rollback
  else (.ok, s)

def commit (s : State) (polls : UInt16) : Except Device (Result × State) :=
  match NvRecord.replace build.recordMax s.nv .accepted (bytes s.blob (16 + (s.blob 5).toNat)) polls 0 with
  | .error d => .error d
  | .ok (r, nv) =>
    let s := { s with state := .busy, result := .pending, nvResult := r, nv := nv }
    if r ≠ .ok then .ok (fail s (if r = .recoveryRequired then .recovery else .nv))
    else if nv.status.generation ≠ s.generation + 1 then .ok (fail s .rollback)
    else .ok (finish { s with
      generation := nv.status.generation, payloadLength := s.blob 5, state := .ready } .ok)

def payload (a : Array8) (data : Bytes) : Array8 := fun i =>
  if i = 5 then UInt8.ofNat data.length
  else if 16 ≤ i ∧ i < 16 + build.payloadMax then
    if i - 16 < data.length then byteAt data (i - 16) else 0
  else a i

/-- `security_counter_open`. -/
def counterOpen (s : State) : Result × State :=
  match s.state with
  | .failed => (s.result, s)
  | .cold =>
    let l := NvRecord.load build.recordMax s.nv .accepted (NvRecord.fullCapacity build)
    let s := { s with nvResult := l.1, nv := l.2.2, blob := fill s.blob (l.2.1.getD []) }
    let length := s.nv.status.length.toNat
    if l.1 = .empty then finish { s with state := .unprovisioned } .empty
    else if l.1 ≠ .ok then fail s (if l.1 = .recovered then .recovery else .nv)
    else if length < 16 ∨ s.blob 0 ≠ 0x43 ∨ s.blob 1 ≠ 0x54 ∨ s.blob 2 ≠ 0x52 ∨ s.blob 3 ≠ 0x31 then
      fail s .format
    else if s.blob 4 ≠ 1 then fail s .version
    else if build.payloadMax < (s.blob 5).toNat ∨ length ≠ 16 + (s.blob 5).toNat ∨ s.blob 6 ≠ 0 ∨
        s.blob 7 ≠ 0 then fail s .format
    else finish { floors s with
      generation := s.nv.status.generation, payloadLength := s.blob 5, state := .ready } .ok
  | _ => (.state, s)

/-- The argument tests that `stage` and `security_counter_save` share. -/
def refusal (pointer : Pointer) (data : Bytes) (polls : UInt16) : Option Result :=
  if build.payloadMax < data.length ∨ (pointer = .null ∧ data.length ≠ 0) ∨ polls = 0 then some .argument
  else if data.length ≠ 0 ∧ pointer ≠ .accepted then some .ownership
  else none

def stage (s : State) (pointer : Pointer) (data : Bytes) (polls : UInt16) : Result × State :=
  match refusal build pointer data polls with
  | some r => (r, s)
  | none => finish { s with
      blob := payload build s.blob data, payloadLength := UInt8.ofNat data.length, state := .ready } .ok

/-- The fixed octets `security_counter_create` writes over a staged payload. -/
def seed (a : Array8) (nwkFloor apsFloor : UInt32) : Array8 :=
  let a := fun i => if i = 0 then 0x43 else if i = 1 then 0x54 else if i = 2 then 0x52 else
    if i = 3 then 0x31 else if i = 4 then 1 else if i = 6 ∨ i = 7 then 0 else a i
  encode (encode a 8 nwkFloor) 12 apsFloor

def create (s : State) (nwkFloor apsFloor : UInt32) (pointer : Pointer) (data : Bytes) (polls : UInt16) :
    Result × State :=
  if s.state = .failed then (s.result, s)
  else if s.state ≠ .unprovisioned ∧ (s.state ≠ .ready ∨ s.generation ≠ 0) then (.state, s)
  else
    let r := stage build s pointer data polls
    if r.1 ≠ .ok then r
    else (r.1, floors { r.2 with blob := seed r.2.blob nwkFloor apsFloor })

def restage (s : State) (pointer : Pointer) (data : Bytes) : Result × State :=
  if s.state ≠ .ready ∨ s.generation ≠ 0 then (.state, s) else stage build s pointer data 1

/-- Hand out the next counter of a domain. -/
def allocate (s : State) (domain : Bool) : Result × Option UInt32 × State :=
  let taken := s.next domain
  let f := finish { s with next := Function.update s.next domain (s.next domain + 1) } .ok
  (f.1, some taken, f.2)

/-- The ceiling after a refill. -/
def raise (top : UInt32) : UInt32 := if 0xFFFFFFFF - range < top then 0xFFFFFFFF else top + range

/-- Commit a higher ceiling for one domain. -/
def refill (s : State) (domain : Bool) (polls : UInt16) : Except Device (Result × State) :=
  let c := current build s
  if c.1 ≠ .ok then .ok c
  else
    let top := raise (c.2.untils domain)
    match commit build { c.2 with blob := encode c.2.blob (slot domain) top } polls with
    | .error d => .error d
    | .ok (r, s) =>
      if r ≠ .ok then .ok (r, s)
      else .ok (r, { s with untils := Function.update s.untils domain top })

/-- `security_counter_take`: the result, the counter handed out, the state. -/
def take (s : State) (domain : UInt8) (value : Pointer) (polls : UInt16) :
    Except Device (Result × Option UInt32 × State) :=
  if ready s ≠ .ok then .ok (ready s, none, s)
  else if 1 < domain ∨ value = .null ∨ polls = 0 then .ok (.argument, none, s)
  else if value = .refused then .ok (.ownership, none, s)
  else
    let d := domain == 1
    if s.next d = s.untils d then
      if s.untils d = 0xFFFFFFFF then
        let f := finish s .exhausted
        .ok (f.1, none, f.2)
      else match refill build s d polls with
        | .error dev => .error dev
        | .ok (r, s) => if r ≠ .ok then .ok (r, none, s) else .ok (allocate s d)
    else .ok (allocate s d)

/-- `security_counter_save`. -/
def save (s : State) (pointer : Pointer) (data : Bytes) (polls : UInt16) : Except Device (Result × State) :=
  if ready s ≠ .ok then .ok (ready s, s)
  else match refusal build pointer data polls with
    | some r => .ok (r, s)
    | none =>
      let c := current build s
      if c.1 ≠ .ok then .ok c else commit build { c.2 with blob := payload build c.2.blob data } polls

/-- `security_counter_read`: the payload goes to the caller with its length. -/
def read (s : State) (data : Pointer) (capacity : UInt8) (length : Pointer) : Result × Option Bytes × State :=
  if ready s ≠ .ok then (ready s, none, s)
  else if length = .null ∨ (data = .null ∧ capacity ≠ 0) then (.argument, none, s)
  else if length = .refused ∨ (capacity ≠ 0 ∧ data = .refused) then (.ownership, none, s)
  else if capacity < s.payloadLength then (.space, none, s)
  else
    let f := finish s .ok
    (f.1, some (bytes (fun i => s.blob (16 + i)) s.payloadLength.toNat), f.2)

end SecurityCounter
