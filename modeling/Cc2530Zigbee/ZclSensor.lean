import Cc2530Zigbee.NwkAps
import Cc2530Zigbee.Octets

/-!
# The sensor application

`zcl_sensor.c`: the attributes of the demonstration device, their values, and the
reports it sends by itself. The values are synthetic, or come from the converter of
the chip and from a climate sensor, which are inputs here.
-/
namespace ZclSensor

open Octets
open EdWire (Packet)

/-- What the build and the board select. -/
structure Variant where
  chipSense : Bool
  sht3x : Bool
  esl29 : Bool
  senses : sht3x = true → chipSense = true

/-- The configuration of the device that the application reads. -/
structure Config where
  profile : UInt16
  endpoint : UInt8
  ownIeee : Vector UInt8 8
  deriving DecidableEq

structure Attribute where
  cluster : UInt16
  id : UInt16
  type : UInt8
  value : UInt16
  deriving DecidableEq, Repr

/-- Entries 0 to 3 are reportable. -/
def attributes : List Attribute :=
  [⟨0x0402, 0x0000, 0x29, 0⟩, ⟨0x0405, 0x0000, 0x21, 0⟩, ⟨0x0001, 0x0020, 0x20, 0⟩, ⟨0x0001, 0x0021, 0x20, 0⟩,
    ⟨0x0003, 0x0000, 0x21, 0⟩, ⟨0x0000, 0x0004, 0x42, 0⟩, ⟨0x0000, 0x0005, 0x42, 0⟩, ⟨0x0000, 0x0000, 0x20, 8⟩,
    ⟨0x0000, 0x0007, 0x30, 3⟩, ⟨0x0000, 0xfffd, 0x21, 3⟩, ⟨0x0001, 0xfffd, 0x21, 2⟩, ⟨0x0003, 0xfffd, 0x21, 2⟩,
    ⟨0x0402, 0x0001, 0x29, 2100⟩, ⟨0x0402, 0x0002, 0x29, 2500⟩, ⟨0x0402, 0xfffd, 0x21, 3⟩,
    ⟨0x0405, 0x0001, 0x21, 4500⟩, ⟨0x0405, 0x0002, 0x21, 5500⟩, ⟨0x0405, 0xfffd, 0x21, 2⟩,
    ⟨0x0002, 0x0000, 0x29, 0⟩, ⟨0x0002, 0xfffd, 0x21, 1⟩]

def entryOf (entry : Nat) : Attribute := attributes.getD entry ⟨0, 0, 0, 0⟩

def reports : Nat := 4
def basicReport : UInt8 := 4
def identifyEntry : Nat := 4
def manufacturerEntry : Nat := 5
def modelEntry : Nat := 6
def deviceEntry : Nat := 18

structure Reporting where
  min : UInt16
  max : UInt16
  change : UInt16
  last : UInt16
  age : UInt16
  deriving DecidableEq, Repr

/-- Minimum, maximum and reportable change by default. -/
def defaults : List (UInt16 × UInt16 × UInt16) := [(30, 300, 10), (30, 300, 25), (60, 3600, 1), (60, 3600, 2)]

/-- `cc2530-zigbee`. -/
def manufacturer : Bytes := [0x63, 0x63, 0x32, 0x35, 0x33, 0x30, 0x2d, 0x7a, 0x69, 0x67, 0x62, 0x65, 0x65]

/-- `LG-ESL29`, or `generic`. -/
def model (v : Variant) : Bytes :=
  if v.esl29 then [0x4c, 0x47, 0x2d, 0x45, 0x53, 0x4c, 0x32, 0x39] else [0x67, 0x65, 0x6e, 0x65, 0x72, 0x69, 0x63]

/-- `zcl_sensor_state_t` without the scratch of one request. The flags of the source are
octets that hold 0 or 1. -/
structure State where
  tcIeee : Vector UInt8 8
  report : Vector Reporting 4
  second : UInt32
  identify : UInt16
  value : UInt16
  bound : Vector UInt8 3
  basic : Bool
  pending : UInt8
  sent : Bool
  tsn : UInt8
  temperature : Int16
  millivolts : UInt16
  measured : UInt8
  climate : Int16
  humidity : UInt16
  deriving DecidableEq

/-- The entry of an attribute of a cluster. -/
def find (cluster id : UInt16) : Option Nat := attributes.findIdx? fun a => a.cluster = cluster ∧ a.id = id

/-! ## Values -/

/-- What the converters delivered: the sums of the samples, negative after a failure, and
the two words of the climate sensor when both came with a good checksum. -/
structure Reading where
  vdd : Int16
  heat : Int16
  words : Option (UInt16 × UInt16)
  deriving DecidableEq

def invalidTemperature : Int16 := -32768
def invalidHumidity : UInt16 := 0xffff

def millivoltsOf (sum : Int16) : UInt16 := UInt16.ofInt ((sum.toInt * 3450 + 4096) / 8192)

/-- Counts over the nominal, corrected for the supply. -/
def counts (sum : Int16) (mv : UInt16) : Int16 :=
  Int16.ofInt (sum.toInt - 11840 - (Int16.ofInt (((mv.toInt16.toInt - 3000) * 2).tdiv 25)).toInt)

def centi (sum : Int16) (mv : UInt16) : Int16 :=
  Int16.ofInt (2500 + (Int16.ofInt (((counts sum mv).toInt * 711 + 128) / 256)).toInt)

/-- The single measurement of supply and die temperature. -/
def measure (s : State) (r : Reading) : State :=
  if r.vdd > 0 ∧ r.heat > 0 then
    let mv := millivoltsOf r.vdd
    { s with measured := 0, millivolts := mv, temperature := centi r.heat mv }
  else { s with measured := 0, millivolts := 0, temperature := invalidTemperature }

def climateCenti (word : UInt16) : Int16 :=
  Int16.ofInt ((Int16.ofInt ((word.toNat * 17500 + 32768) / 65536 : Nat)).toInt - 4500)

def climateHumidity (word : UInt16) : UInt16 := UInt16.ofNat ((word.toNat * 10000 + 32768) / 65536)

/-- The climate measurement started one period ago. -/
def climate (s : State) (r : Reading) : State :=
  match r.words with
  | some (t, h) => { s with climate := climateCenti t, humidity := climateHumidity h }
  | none => { s with climate := invalidTemperature, humidity := invalidHumidity }

/-- The sawtooth of the synthetic values over the time of the runtime. -/
def phase (last : UInt32) : UInt8 := ((last >>> 16).toUInt16 >>> 6).toUInt8 % 41

def decivolts (mv : UInt16) : UInt16 := if mv = 0 then 0xff else ((mv + 50) / 100).toUInt8.toUInt16

def halfPercent (mv : UInt16) : UInt16 :=
  if mv = 0 then 0xff else if mv ≤ 2000 then 0 else if mv ≥ 3000 then 200 else ((mv - 2000) / 5).toUInt8.toUInt16

/-- Whole degrees, rounded away from zero. -/
def degrees (c : Int16) : Int16 :=
  if c = invalidTemperature then invalidTemperature else Int16.ofInt ((c.toInt + if c < 0 then -50 else 50).tdiv 100)

/-- The die temperature, or its synthetic stand-in. -/
def dieTemperature (v : Variant) (last : UInt32) (s : State) : Int16 :=
  if v.chipSense then s.temperature else (2100 + (phase last).toUInt16 * 10).toInt16

def value (v : Variant) (last : UInt32) (s : State) (entry : Nat) : UInt16 :=
  if entry = 2 then
    if v.chipSense then decivolts s.millivolts else (30 - phase last / 14).toUInt16
  else if entry = 3 then
    if v.chipSense then halfPercent s.millivolts else (200 - phase last).toUInt16
  else if v.sht3x ∧ entry = 0 then s.climate.toUInt16
  else if v.sht3x ∧ entry = 1 then s.humidity
  else if entry = 0 then (dieTemperature v last s).toUInt16
  else if entry = 1 then 4500 + (phase last).toUInt16 * 25
  else if entry = identifyEntry then s.identify
  else if entry = deviceEntry then (degrees (dieTemperature v last s)).toUInt16
  else (entryOf entry).value

/-- The octets of the fixed-size types that are parsed; others have none. -/
def width (type : UInt8) : UInt8 :=
  if type < 0x08 then 0
  else if type < 0x30 then (type &&& 7) + 1
  else if type < 0x32 then type - 0x2f
  else 0

/-- The octets of an attribute's value. Strings include their length. -/
def size (v : Variant) (entry : Nat) : Nat :=
  if entry = manufacturerEntry then manufacturer.length + 1
  else if entry = modelEntry then (model v).length + 1
  else (width (entryOf entry).type).toNat

/-- The value of an attribute on the wire. -/
def put (v : Variant) (last : UInt32) (s : State) (entry : Nat) : Bytes :=
  if entry = manufacturerEntry then UInt8.ofNat manufacturer.length :: manufacturer
  else if entry = modelEntry then UInt8.ofNat (model v).length :: model v
  else if size v entry > 1 then put16 (value v last s entry)
  else [(value v last s entry).toUInt8]

/-! ## Reports -/

def Reporting.zero : Reporting := ⟨0, 0, 0, 0, 0⟩

def reporting (s : State) (entry : Nat) : Reporting := s.report[entry]?.getD .zero

def setReporting (s : State) (entry : Nat) (r : Reporting) : State := { s with report := s.report.setIfInBounds entry r }

/-- The default intervals and change of an attribute. What was reported stays. -/
def restore (s : State) (entry : Nat) : State :=
  let d := defaults.getD entry (0, 0, 0)
  setReporting s entry { reporting s entry with min := d.1, max := d.2.1, change := d.2.2 }

/-- The difference to what was reported last, as the source computes it in 16 bits. -/
def delta (current last : UInt16) : UInt16 :=
  let d := current - last
  if d.toInt16 < 0 then 0 - d else d

/-- Whether a value has to be reported: enabled, past the minimum and past the maximum or
the reportable change. -/
def dueAt (r : Reporting) (current : UInt16) : Bool :=
  if r.max = 0xffff ∨ r.age < r.min then false
  else if r.max ≠ 0 ∧ r.age ≥ r.max then true
  else
    let d := delta current r.last
    ¬(d = 0 ∨ d < r.change)

def due (v : Variant) (last : UInt32) (s : State) (entry : Nat) : Bool := dueAt (reporting s entry) (value v last s entry)

/-- The endpoint that the cluster of a reportable attribute is bound to, 0 for none. -/
def boundFor (s : State) (entry : Nat) : UInt8 := s.bound[if entry < 2 then entry else 2]?.getD 0

/-- The first bound attribute from `entry` on that is due. The value that was looked at
last stays in the state. -/
def search (v : Variant) (last : UInt32) : (left : Nat) → (entry : Nat) → State → State × Option Nat
  | 0, _, s => (s, none)
  | left + 1, entry, s =>
    if boundFor s entry = 0 then search v last left (entry + 1) s
    else
      let s := { s with value := value v last s entry }
      if due v last s entry then (s, some entry) else search v last left (entry + 1) s

/-- The report of an attribute to an endpoint. -/
def reportPacket (v : Variant) (cfg : Config) (last : UInt32) (s : State) (entry : Nat) (endpoint : UInt8) : Packet :=
  let a := entryOf entry
  let octets := [0x18, s.tsn, 0x0a] ++ put16 a.id ++ a.type :: put v last s entry
  { NwkAps.Packet.zero with
    nwk := { NwkAps.Packet.zero.nwk with version := 2, radius := 30 }
    aps := { ApsFrame.Header.zero with
      flags := ApsFrame.ackRequest
      clusterId := a.cluster
      profileId := cfg.profile
      sourceEndpoint := cfg.endpoint
      destinationEndpoint := endpoint }
    length := UInt8.ofNat octets.length
    payload := Vector.ofFn fun i => byteAt octets i }

/-- The report to send now, if any. -/
def report (v : Variant) (cfg : Config) (last : UInt32) (s : State) : State × Option Packet :=
  if s.basic then
    let s := { s with pending := basicReport }
    (s, some (reportPacket v cfg last s modelEntry 1))
  else
    match search v last reports 0 s with
    | (s, none) => (s, none)
    | (s, some entry) =>
      let endpoint := boundFor s entry
      let s := { s with pending := UInt8.ofNat entry }
      (s, some (reportPacket v cfg last s entry endpoint))

/-- A report that the queue accepted counts from the next tick on. -/
def commit (s : State) : State :=
  if s.sent then
    let s := { s with sent := false, tsn := s.tsn + 1 }
    if s.pending = basicReport then { s with basic := false }
    else
      setReporting s s.pending.toNat { reporting s s.pending.toNat with last := s.value, age := 0 }
  else s

def secondSymbols : UInt32 := 62500
def measurePeriod : UInt8 := 10

/-- One second passes. -/
def passSecond (v : Variant) (s : State) : State :=
  { s with
    second := s.second + secondSymbols
    report := s.report.map fun r => if r.age ≠ 0xffff then { r with age := r.age + 1 } else r
    identify := if s.identify ≠ 0 then s.identify - 1 else s.identify
    measured := if v.chipSense ∧ s.measured ≠ 0xff then s.measured + 1 else s.measured }

/-- The seconds that are over. Each takes its symbols from the rest. -/
def passSeconds (v : Variant) (last : UInt32) : (fuel : Nat) → State → State
  | 0, s => s
  | fuel + 1, s => if last - s.second ≥ secondSymbols then passSeconds v last fuel (passSecond v s) else s

/-- `zcl_sensor_tick`. -/
def tick (v : Variant) (last : UInt32) (r : Reading) (s : State) : State :=
  let s := commit s
  let s := passSeconds v last (last - s.second).toNat s
  if v.chipSense ∧ s.measured ≥ measurePeriod then
    let s := measure s r
    if v.sht3x then climate s r else s
  else s

/-- An address that is neither all zeros nor all ones. -/
def knownIeee (ieee : Vector UInt8 8) : Bool :=
  ieee.toList.foldl (· ||| ·) 0 ≠ 0 ∧ ieee.toList.foldl (fun d b => d ||| ~~~b) 0 ≠ 0

/-- Zeroed state of a device. -/
def State.zero (tcIeee : Vector UInt8 8) : State where
  tcIeee := tcIeee
  report := Vector.replicate 4 .zero
  second := 0
  identify := 0
  value := 0
  bound := Vector.replicate 3 0
  basic := false
  pending := 0
  sent := false
  tsn := 0
  temperature := 0
  millivolts := 0
  measured := 0
  climate := 0
  humidity := 0

/-- The default configuration of an attribute, with the present value as reported. -/
def install (v : Variant) (last : UInt32) (s : State) (entry : Nat) : State :=
  let s := restore s entry
  setReporting s entry { reporting s entry with last := value v last s entry }

/-- The state after the first measurement. -/
def measuredFirst (v : Variant) (tcIeee : Vector UInt8 8) (r : Reading) : State :=
  let s := State.zero tcIeee
  let s := if v.chipSense then measure s r else s
  if v.sht3x then climate s r else s

/-- `zcl_sensor_init`, with the addresses of the device and of the trust center. -/
def init (v : Variant) (cfg : Config) (last : UInt32) (r : Reading) (ownIeee tcIeee : Vector UInt8 8) : Option State :=
  if ¬ knownIeee ownIeee ∨ ¬ knownIeee tcIeee ∨ ownIeee ≠ cfg.ownIeee ∨ cfg.endpoint = 0 ∨ cfg.endpoint > 0xf0 then none
  else
    let s := (List.range reports).foldl (install v last) (measuredFirst v tcIeee r)
    some { s with bound := Vector.replicate 3 1, second := last, basic := true }

end ZclSensor
