import Cc2530Zigbee.RecordWalk
import Cc2530Zigbee.ZclSensor

/-!
# Requests to the sensor application

The general commands of `zcl_sensor.c` and the two of the Identify cluster. Write
Attributes and Configure Reporting go over their records twice: the first time only to
check them, the second time to apply them.
-/
namespace ZclSensor

open Octets
open EdWire (Packet)

/-- The part of the runtime that the application shares. -/
structure Host where
  last : UInt32
  applicationReady : Bool
  application : Packet
  responsePending : Bool
  response : Packet
  responseResult : NwkAps.Result
  applicationPending : Bool
  applicationDone : Bool
  deriving DecidableEq

inductive Served where
  | idle | report | handled | discarded
  deriving DecidableEq, Repr

/-- What a command answers: a status for a default response, nothing at all, or the octets
of a response. -/
inductive Answer where
  | status (code : UInt8)
  | silent
  | built (octets : Bytes)
  deriving DecidableEq, Repr

def malformed : UInt8 := 0x80
def unsupportedAttribute : UInt8 := 0x86

/-! ## Read Attributes -/

/-- The record of an attribute in a read response. -/
def readRecord (v : Variant) (last : UInt32) (s : State) (cluster id : UInt16) : Bytes :=
  put16 id ++
    match find cluster id with
    | none => [unsupportedAttribute]
    | some entry => 0 :: (entryOf entry).type :: put v last s entry

/-- The octets a read record takes, as they are counted before it is built. -/
def readSize (v : Variant) (cluster id : UInt16) : Nat :=
  match find cluster id with
  | none => 3
  | some entry => 4 + size v entry

/-- Records behind what is there already, as long as they fit. -/
def readRecords (v : Variant) (last : UInt32) (s : State) (cluster : UInt16) : (fuel : Nat) → (p out : Bytes) → Bytes
  | 0, _, out => out
  | fuel + 1, p, out =>
    if p.length < 2 then out
    else if out.length + readSize v cluster (u16At p 0) > EdWire.payloadMax then out
    else readRecords v last s cluster fuel (p.drop 2) (out ++ readRecord v last s cluster (u16At p 0))

/-! ## Write Attributes -/

/-- A record of a write request: its status, attribute, value and octets. -/
structure WriteRecord where
  status : UInt8
  id : UInt16
  value : UInt16
  length : Nat
  deriving DecidableEq, Repr

/-- The octets of a value of a type: short strings include their length. -/
def valueWidth (kind : UInt8) (data : Bytes) : UInt8 :=
  if (kind = 0x41 ∨ kind = 0x42) ∧ data.length ≠ 0 then byteAt data 0 + 1 else width kind

/-- The first record, unless it is cut short or of a type without a size. Only the
identify time can be written. -/
def writeRecord (cluster : UInt16) (p : Bytes) : Option WriteRecord :=
  if p.length < 3 then none
  else
    let kind := byteAt p 2
    let rest := p.drop 3
    let n := valueWidth kind rest
    if n = 0 ∨ rest.length < n.toNat then none
    else
      let status :=
        match find cluster (u16At p 0) with
        | none => unsupportedAttribute
        | some entry => if kind ≠ (entryOf entry).type then 0x8d else if entry ≠ identifyEntry then 0x88 else 0
      some ⟨status, u16At p 0, u16At rest 0, 3 + n.toNat⟩

/-- What the second pass does with a record of a write request, to the state and to the
statuses. -/
def writeVisit (r : WriteRecord) (x : State × Bytes) : State × Bytes :=
  if r.status = 0 then ({ x.1 with identify := r.value }, x.2) else (x.1, x.2 ++ r.status :: put16 r.id)

/-- A response of statuses: one success when there are none. -/
def statuses (head : Bytes) (command : UInt8) (out : Bytes) : Answer :=
  .built (head ++ command :: if out.length = 0 then [0] else out)

/-- Both passes over the records, and the answer. -/
def twoPasses {ρ : Type} (parse : Bytes → Option ρ) (taken : ρ → Nat) (visit : ρ → State × Bytes → State × Bytes)
    (s : State) (command : UInt8) (head p : Bytes) : Answer × State :=
  match RecordWalk.twice parse taken visit p (s, []) with
  | (true, s, _) => (.status malformed, s)
  | (false, s, out) => (statuses head command out, s)

def write (s : State) (cluster : UInt16) (head p : Bytes) : Answer × State :=
  twoPasses (writeRecord cluster) WriteRecord.length writeVisit s 0x04 head p

/-! ## Configure Reporting -/

/-- A record of a configuration: its status, direction and attribute, and the
configuration it asks for. -/
structure ConfigureRecord where
  status : UInt8
  dir : UInt8
  id : UInt16
  entry : Nat
  min : UInt16
  max : UInt16
  change : UInt16
  length : Nat
  deriving DecidableEq, Repr

/-- The octets of the reportable change: integers only. -/
def changeWidth (kind : UInt8) : UInt8 := if kind - 0x20 < 0x10 then width kind else 0

/-- The status of a configuration for reports of this device. -/
def configureStatus (cluster id : UInt16) (kind : UInt8) (min max : UInt16) : UInt8 :=
  match find cluster id with
  | none => unsupportedAttribute
  | some entry =>
    if entry < reports then
      if kind ≠ (entryOf entry).type then 0x8d
      else if max ≠ 0 ∧ max ≠ 0xffff ∧ max < min then 0x87
      else 0
    else 0x8c

/-- The first record, unless it is cut short or of an unknown direction. -/
def configureRecord (cluster : UInt16) (p : Bytes) : Option ConfigureRecord :=
  if p.length < 3 ∨ byteAt p 0 > 1 then none
  else
    let id := u16At p 1
    let entry := (find cluster id).getD 0xff
    let rest := p.drop 3
    if byteAt p 0 = 1 then
      if rest.length < 2 then none
      else some ⟨if find cluster id = none then unsupportedAttribute else 0x8c, 1, id, entry, 0, 0, 0, 5⟩
    else if rest.length < 5 then none
    else
      let kind := byteAt rest 0
      let n := (changeWidth kind).toNat
      let data := rest.drop 5
      if data.length < n then none
      else
        some ⟨configureStatus cluster id kind (u16At rest 1) (u16At rest 3), 0, id, entry, u16At rest 1, u16At rest 3,
          if n > 1 then u16At data 0 else (byteAt data 0).toUInt16, 8 + n⟩

/-- An accepted configuration takes effect. -/
def configured (s : State) (r : ConfigureRecord) : State :=
  if r.max = 0 ∧ r.min = 0xffff then restore s r.entry
  else setReporting s r.entry { reporting s r.entry with min := r.min, max := r.max, change := r.change }

/-- What the second pass does with a record of a configuration. -/
def configureVisit (r : ConfigureRecord) (x : State × Bytes) : State × Bytes :=
  if r.status = 0 then (configured x.1 r, x.2) else (x.1, x.2 ++ r.status :: r.dir :: put16 r.id)

def configure (s : State) (cluster : UInt16) (head p : Bytes) : Answer × State :=
  twoPasses (configureRecord cluster) ConfigureRecord.length configureVisit s 0x07 head p

/-! ## Read Reporting Configuration -/

/-- Every record is whole and of a known direction. -/
def directionsValid : (fuel : Nat) → Bytes → Bool
  | 0, _ => true
  | fuel + 1, p =>
    if p.length = 0 then true else if p.length < 3 ∨ byteAt p 0 > 1 then false else directionsValid fuel (p.drop 3)

def readConfigStatus (s : State) (cluster : UInt16) (dir : UInt8) (id : UInt16) : UInt8 :=
  if dir ≠ 0 then unsupportedAttribute
  else
    match find cluster id with
    | none => unsupportedAttribute
    | some entry => if entry ≥ reports then 0x8c else if (reporting s entry).max = 0xffff then 0x8b else 0

/-- The record of a reporting configuration. -/
def readConfigRecord (s : State) (cluster : UInt16) (dir : UInt8) (id : UInt16) : Bytes :=
  let status := readConfigStatus s cluster dir id
  status :: dir :: put16 id ++
    if status = 0 then
      let entry := (find cluster id).getD 0xff
      let r := reporting s entry
      let type := (entryOf entry).type
      type :: put16 r.min ++ put16 r.max ++ if width type = 1 then [r.change.toUInt8] else put16 r.change
    else []

/-- The octets a record takes, as they are counted before it is built. -/
def readConfigSize (s : State) (cluster : UInt16) (dir : UInt8) (id : UInt16) : Nat :=
  if readConfigStatus s cluster dir id = 0 then 9 + (width (entryOf ((find cluster id).getD 0xff)).type).toNat else 4

def readConfigRecords (s : State) (cluster : UInt16) : (fuel : Nat) → (p out : Bytes) → Bytes
  | 0, _, out => out
  | fuel + 1, p, out =>
    if p.length = 0 then out
    else if readConfigSize s cluster (byteAt p 0) (u16At p 1) > EdWire.payloadMax - out.length then out
    else
      readConfigRecords s cluster fuel (p.drop 3) (out ++ readConfigRecord s cluster (byteAt p 0) (u16At p 1))

def readConfiguration (s : State) (cluster : UInt16) (out p : Bytes) : Answer :=
  if p.length = 0 ∨ ¬ directionsValid p.length p then .status malformed
  else .built (readConfigRecords s cluster p.length p out)

/-! ## Dispatch -/

def identifyCluster : UInt16 := 0x0003

/-- Identify and Identify Query; an idle device does not answer the query. -/
def specific (s : State) (cluster : UInt16) (command sequence : UInt8) (p : Bytes) : Answer × State :=
  if cluster ≠ identifyCluster ∨ command > 1 then (.status 0x81, s)
  else if command = 0 then
    if p.length < 2 then (.status malformed, s) else (.status 0, { s with identify := u16At p 0 })
  else if s.identify = 0 then (.silent, s)
  else (.built ([0x19, sequence, 0] ++ put16 s.identify), s)

/-- The octets before the command of a response. -/
def responseHead (p : Bytes) (header : Nat) : Bytes := ((byteAt p 0 &&& 4) ||| 0x18) :: (p.take header).drop 1

/-- The answer of a command to its payload. -/
def answer (v : Variant) (last : UInt32) (s : State) (cluster : UInt16) (p : Bytes) (header : Nat) : Answer × State :=
  let control := byteAt p 0
  let command := byteAt p header
  let head := responseHead p header
  let rest := p.drop (header + 1)
  if control &&& 8 ≠ 0 ∨ find cluster 0xfffd = none then (.status 0xc3, s)
  else if control &&& 4 ≠ 0 then (.status 0x81, s)
  else if control &&& 1 ≠ 0 then specific s cluster command (byteAt p 1) rest
  else if command = 0x00 then
    (.built (readRecords v last s cluster rest.length rest (head ++ [command + 1])), s)
  else if command = 0x02 then write s cluster head rest
  else if command = 0x06 then configure s cluster head rest
  else if command = 0x08 then (readConfiguration s cluster (head ++ [command + 1]) rest, s)
  else (.status 0x81, s)

/-- The payload of the response, if there is one. A success is told only to those who ask
for it. -/
def responseOctets (p : Bytes) (header : Nat) : Answer → Option Bytes
  | .silent => none
  | .built octets => some octets
  | .status code =>
    if code = 0 ∧ byteAt p 0 &&& 0x10 ≠ 0 then none
    else some (responseHead p header ++ [0x0b, byteAt p header, code])

/-- A response to the source of the request, unless one waits already. -/
def reply (host : Host) (cluster : UInt16) : Option Packet :=
  if host.responsePending then none
  else
    some { NwkAps.Packet.zero with
      nwk := { NwkAps.Packet.zero.nwk with
        version := 2, radius := 30, destination := host.application.nwk.source, discoverRoute := 1 }
      aps := { ApsFrame.Header.zero with clusterId := cluster } }

/-- A response takes the slot. -/
def respond (host : Host) (packet : Packet) (octets : Bytes) : Host :=
  { host with
    response := { packet with
      length := UInt8.ofNat octets.length
      payload := Vector.ofFn fun i => byteAt octets i }
    responsePending := true }

/-- The payload of the received frame. -/
def body (host : Host) : Bytes := host.application.payload.toList.take host.application.length.toNat

/-- The octets of the header in front of the command. -/
def headerLength (control : UInt8) : Nat := if control &&& 4 ≠ 0 then 4 else 2

/-- The frame is a request for this endpoint that can be answered. -/
def request (cfg : Config) (host : Host) : Bool :=
  let rx := host.application
  let p := body host
  let command := byteAt p (headerLength (byteAt p 0))
  ¬(rx.aps.profileId ≠ cfg.profile ∨ rx.aps.destinationEndpoint ≠ cfg.endpoint ∨ rx.length = 0 ∨
    rx.length.toNat > EdWire.payloadMax ∨ byteAt p 0 &&& 3 > 1 ∨ rx.length.toNat ≤ headerLength (byteAt p 0) ∨
    (byteAt p 0 &&& 3 = 0 ∧ (command = 0x0b ∨ command = 0x09)))

def zcl (v : Variant) (cfg : Config) (host : Host) (s : State) : Served × Host × State :=
  let rx := host.application
  let p := body host
  let header := headerLength (byteAt p 0)
  if ¬ request cfg host then (.discarded, host, s)
  else
    match reply host rx.aps.clusterId with
    | none => (.discarded, { host with responseResult := .full }, s)
    | some packet =>
      let packet := { packet with aps := { packet.aps with
        profileId := cfg.profile
        sourceEndpoint := cfg.endpoint
        destinationEndpoint := rx.aps.sourceEndpoint } }
      let r := answer v host.last s rx.aps.clusterId p header
      match responseOctets p header r.1 with
      | none => (.handled, { host with response := packet }, r.2)
      | some octets => (.handled, respond host packet octets, r.2)

/-! ## Atomic requests, whole responses -/

/-- A request of two passes is malformed and changes nothing, or its records are applied in
order. -/
theorem twoPasses_cases {ρ : Type} (parse : Bytes → Option ρ) (taken : ρ → Nat) (visit : ρ → State × Bytes → State × Bytes)
    (s : State) (command : UInt8) (head p : Bytes) :
    let records := RecordWalk.visited parse taken p.length p
    records.2 = true ∧ twoPasses parse taken visit s command head p = (.status malformed, s) ∨
      records.2 = false ∧ twoPasses parse taken visit s command head p =
        (statuses head command (records.1.foldl (fun x r => visit r x) (s, [])).2,
          (records.1.foldl (fun x r => visit r x) (s, [])).1) := by
  unfold twoPasses
  rw [RecordWalk.twice_eq]
  simp only
  cases (RecordWalk.visited parse taken p.length p).2 with
  | false => exact .inr ⟨rfl, by simp⟩
  | true => exact .inl ⟨rfl, by simp⟩

/-- Every attribute but the two strings has one or two octets. -/
theorem width_entry : ∀ entry < attributes.length, entry = manufacturerEntry ∨ entry = modelEntry ∨
    width (entryOf entry).type = 1 ∨ width (entryOf entry).type = 2 := by decide

theorem put_length (v : Variant) (last : UInt32) (s : State) {entry : Nat} (h : entry < attributes.length) :
    (put v last s entry).length = size v entry := by
  unfold put
  split
  next hman => simp [size, hman]
  next hman =>
    split
    next hmodel => simp [size, hmodel, show modelEntry ≠ manufacturerEntry by decide]
    next hmodel =>
      have hsize : size v entry = (width (entryOf entry).type).toNat := by simp [size, hman, hmodel]
      rw [hsize]
      obtain h | h | h | h := width_entry entry h
      · exact absurd h hman
      · exact absurd h hmodel
      · simp [h]
      · simp [h]

section Answers

variable {v : Variant} {last : UInt32} {s : State} {cluster : UInt16} {p : Bytes} {header : Nat}

end Answers

/-- A request is turned away, or answered by its command. -/
theorem zcl_cases (v : Variant) (cfg : Config) (host : Host) (s : State) :
    let p := body host
    let header := headerLength (byteAt p 0)
    let r := answer v host.last s host.application.aps.clusterId p header
    (zcl v cfg host s).2.2 = s ∧ (zcl v cfg host s).2.1.responsePending = host.responsePending ∨
      request cfg host = true ∧ (zcl v cfg host s).2.2 = r.2 ∧
        ((zcl v cfg host s).2.1.responsePending = host.responsePending ∨
          ∃ packet octets, responseOctets p header r.1 = some octets ∧ (zcl v cfg host s).2.1 = respond host packet octets) := by
  simp only [zcl]
  split
  · exact .inl ⟨rfl, rfl⟩
  next hrequest =>
    split
    · exact .inl ⟨rfl, rfl⟩
    · refine .inr ⟨by simpa using hrequest, ?_⟩
      split
      · exact ⟨rfl, .inl rfl⟩
      next octets hoctets => exact ⟨rfl, .inr ⟨_, octets, hoctets, rfl⟩⟩

end ZclSensor
