import Cc2530Zigbee.Build
import Cc2530Zigbee.MacFrame
import Cc2530Zigbee.Roster
import Cc2530Zigbee.Runs

/-!
# The table of parent candidates

Beacons that a scan received, as copied and unauthenticated metadata. The table
has four slots. A build that joins through routers keeps the strongest beacons
instead of refusing new ones, and notes whether it saw more than one network.
-/

/-! The NWK beacon payload. -/

namespace NwkBeacon

open Octets

inductive Result where
  | truncated | tooLong | unsupportedProtocol | unsupportedVersion | invalidFields
  deriving DecidableEq, Repr

structure Beacon where
  stackProfile : UInt8
  routerCapacity : Bool
  deviceDepth : UInt8
  endDeviceCapacity : UInt8
  extendedPanId : Vector UInt8 8
  txOffset : UInt32
  updateId : UInt8
  deriving DecidableEq

def beaconLength : Nat := 15
def protocolId : UInt8 := 0
def protocolVersion : UInt8 := 2

/-- `nwk_beacon_decode`. -/
def decode (payload : Bytes) : Except Result Beacon :=
  let epid := fieldAt payload 3 8
  if payload.length < beaconLength then .error .truncated
  else if beaconLength < payload.length then .error .tooLong
  else if byteAt payload 0 ≠ protocolId then .error .unsupportedProtocol
  else if byteAt payload 1 >>> 4 ≠ protocolVersion then .error .unsupportedVersion
  else if byteAt payload 2 &&& 3 ≠ 0 then .error .invalidFields
  else if epid.toList.foldl (· ||| ·) 0 = 0 ∨ epid.toList.foldl (· &&& ·) 0xFF = 0xFF then .error .invalidFields
  else .ok
    { stackProfile := byteAt payload 1 &&& 0x0F
      routerCapacity := byteAt payload 2 &&& 4 != 0
      deviceDepth := (byteAt payload 2 >>> 3) &&& 0x0F
      endDeviceCapacity := byteAt payload 2 >>> 7
      extendedPanId := epid
      txOffset := le32 (byteAt payload 11) (byteAt payload 12) (byteAt payload 13) 0
      updateId := byteAt payload 14 }

end NwkBeacon

namespace NwkCandidates

open Octets

inductive Result where
  | ok | added | updated | withdrawn | notEligible | full | badCrc | invalidArgument | invalidTable | outsideMask
  | macRejected | notBeacon | nwkRejected | badIndex
  deriving DecidableEq, Repr

structure Candidate where
  channel : UInt8
  panId : UInt16
  addressMode : UInt8
  coordinator : MacFrame.Address
  superframe : UInt16
  sequence : UInt8
  macFlags : UInt8
  gtsPermit : UInt8
  shortPending : Nat
  extendedPending : Nat
  network : NwkBeacon.Beacon
  rssi : Int8
  deriving DecidableEq

/-- A zeroed candidate. -/
def Candidate.zero : Candidate :=
  { channel := 0, panId := 0, addressMode := 0, coordinator := Vector.replicate 8 0, superframe := 0, sequence := 0
    macFlags := 0, gtsPermit := 0, shortPending := 0, extendedPending := 0
    network := ⟨0, false, 0, 0, Vector.replicate 8 0, 0, 0⟩, rssi := 0 }

def capacity : Nat := 4

/-- `nwk_candidates_t`. A build without parent recovery has no `rejoin`, one
that does not join through routers has none of the last three fields. -/
structure Table where
  version : UInt8
  channelMask : UInt32
  count : UInt8
  rejoin : Bool
  entries : Vector Candidate capacity
  filtered : Bool
  parent : UInt16
  epidSeen : Bool
  mixed : Bool
  firstEpid : Vector UInt8 8
  deriving DecidableEq

def tableVersion : UInt8 := 1
def channels : UInt32 := 0x07FFF800
def proProfile : UInt8 := 2
def associationPermit : UInt16 := 0x8000
def panCoordinator : UInt16 := 0x4000

def validMask (mask : UInt32) : Bool := mask != 0 && mask &&& ~~~ channels == 0

def validTable (t : Table) : Bool := t.version == tableVersion && t.count ≤ 4 && validMask t.channelMask

/-- `nwk_candidates_init`. -/
def init (mask : UInt32) : Except Result Table :=
  if !validMask mask then .error .invalidArgument
  else .ok
    { version := tableVersion, channelMask := mask, count := 0, rejoin := false
      entries := Vector.replicate capacity .zero, filtered := false, parent := 0, epidSeen := false, mixed := false
      firstEpid := Vector.replicate 8 0 }

/-- `nwk_candidates_parent`. -/
def parent (t : Table) (address : UInt16) : Result × Table :=
  if !validTable t ∨ t.count ≠ 0 then (.invalidTable, t) else (.ok, { t with parent := address, filtered := true })

/-- `nwk_candidates_rejoin`, in a build with parent recovery. -/
def rejoin (t : Table) : Result × Table :=
  if !validTable t ∨ t.count ≠ 0 then (.invalidTable, t) else (.ok, { t with rejoin := true })

/-- A record of the scan: one received frame, with the signal strength that the
radio measured. -/
structure Record where
  channel : UInt8
  crcValid : UInt8
  body : Bytes
  rssi : Int8
  deriving DecidableEq

/-- The metadata of a beacon frame. -/
def beaconOf (build : Build) (r : Record) : Except Result Candidate :=
  match MacFrame.decode r.body with
  | .error _ => .error .macRejected
  | .ok frame =>
    if frame.header.type ≠ MacFrame.beacon then .error .notBeacon
    else
      let payload := (r.body.drop frame.payloadOffset).take frame.payloadLength
      match MacFrame.beaconFields payload with
      | .error _ => .error .macRejected
      | .ok beacon =>
        match NwkBeacon.decode ((payload.drop beacon.payloadOffset).take beacon.payloadLength) with
        | .error _ => .error .nwkRejected
        | .ok network => .ok
          { channel := r.channel, panId := frame.header.sourcePan, addressMode := frame.header.sourceMode
            coordinator := frame.header.source, superframe := beacon.superframeSpecification
            sequence := frame.header.sequence, macFlags := frame.header.flags, gtsPermit := beacon.gtsPermit
            shortPending := beacon.shortCount, extendedPending := beacon.extendedCount, network := network
            rssi := if build.routerJoin then r.rssi else 0 }

/-- The channel is in the mask. -/
def scanned (mask : UInt32) (channel : UInt8) : Bool := mask &&& (1 <<< channel.toUInt32) != 0

/-- What a record says, or why it is turned away. -/
def screen (build : Build) (t : Table) (r : Record) : Except Result Candidate :=
  if r.channel < 11 ∨ 26 < r.channel ∨ 1 < r.crcValid then .error .invalidArgument
  else if !validTable t then .error .invalidTable
  else if r.crcValid = 0 then .error .badCrc
  else if !scanned t.channelMask r.channel then .error .outsideMask
  else beaconOf build r

/-- What `same_identity` compares. -/
structure Identity where
  channel : UInt8
  panId : UInt16
  addressMode : UInt8
  coordinator : MacFrame.Address
  extendedPanId : Vector UInt8 8
  deriving DecidableEq

def identity (c : Candidate) : Identity :=
  ⟨c.channel, c.panId, c.addressMode, c.coordinator, c.network.extendedPanId⟩

def sameIdentity (a b : Candidate) : Bool := identity a = identity b

/-- The preliminary filter: profile, beacon order 15, association permit or a
rejoin, end device capacity and the only short parent. -/
def eligible (build : Build) (t : Table) (c : Candidate) : Bool :=
  c.network.stackProfile == proProfile && c.superframe &&& 0x000F == 15 &&
    (build.parentRecovery && t.rejoin || c.superframe &&& associationPermit != 0) &&
    c.network.endDeviceCapacity != 0 &&
    (!t.filtered || c.addressMode != MacFrame.addressShort || MacFrame.short c.coordinator == t.parent)

/-- `nwk_candidates_score`. -/
def score (c : Candidate) : Int :=
  c.rssi.toInt + if c.superframe &&& panCoordinator ≠ 0 ∨
    (c.addressMode = MacFrame.addressShort ∧ getElem c.coordinator 0 MacFrame.at0 = 0 ∧
      getElem c.coordinator 1 MacFrame.at1 = 0) then 10 else 0

def entryAt (entries : Vector Candidate capacity) (i : Nat) : Candidate := entries.toList.getD i .zero

/-- The slot of a candidate's identity. -/
def position (t : Table) (c : Candidate) : Option Nat :=
  (List.range t.count.toNat).find? fun i => sameIdentity (entryAt t.entries i) c

/-- Every slot from `i` on takes the one behind it, below `count`. -/
def shiftDown (entries : Vector Candidate capacity) (i count : Nat) : Vector Candidate capacity :=
  (List.range' i (count - 1 - i)).foldl (fun e j => e.setIfInBounds j (entryAt e (j + 1))) entries

def withdraw (t : Table) (i : Nat) : Table :=
  let count := t.count - 1
  { t with entries := (shiftDown t.entries i t.count.toNat).setIfInBounds count.toNat .zero, count := count }

/-- The first network seen, and whether another one was. -/
def noteEpid (t : Table) (c : Candidate) : Table :=
  if !t.epidSeen then { t with firstEpid := c.network.extendedPanId, epidSeen := true }
  else if t.firstEpid ≠ c.network.extendedPanId then { t with mixed := true }
  else t

/-- A full table gives up its weakest entry for a stronger one. -/
def replaceWeakest (t : Table) (c : Candidate) : Result × Table :=
  let w := Roster.weakest (fun i => score (entryAt t.entries i)) t.count.toNat
  if score c ≤ score (entryAt t.entries w) then (.notEligible, t)
  else (.added, { t with entries := t.entries.setIfInBounds w c })

def append (t : Table) (c : Candidate) : Result × Table :=
  if t.count = 4 then (.full, t)
  else (.added, { t with entries := t.entries.setIfInBounds t.count.toNat c, count := t.count + 1 })

/-- A candidate meets the table. -/
def meet (build : Build) (t : Table) (c : Candidate) : Result × Table :=
  match position t c with
  | some i =>
    if eligible build t c then (.updated, { t with entries := t.entries.setIfInBounds i c })
    else (.withdrawn, withdraw t i)
  | none =>
    if !eligible build t c then (.notEligible, t)
    else if build.routerJoin then
      let t := noteEpid t c
      if t.count = 4 ∧ !t.filtered then replaceWeakest t c else append t c
    else append t c

/-- `nwk_candidates_consider`. -/
def consider (build : Build) (t : Table) (r : Record) : Result × Table :=
  match screen build t r with
  | .error e => (e, t)
  | .ok c => meet build t c

/-- `nwk_candidates_get`. -/
def get (t : Table) (index : UInt8) : Except Result Candidate :=
  if !validTable t then .error .invalidTable
  else if t.count ≤ index then .error .badIndex
  else .ok (entryAt t.entries index.toNat)

end NwkCandidates
