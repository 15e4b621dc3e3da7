import Cc2530Zigbee.Build
import Cc2530Zigbee.NwkFrame
import Cc2530Zigbee.CcmStar

/-!
# The key record

The opaque payload of the counter journal: identities, two network key slots
(indexed by `Bool`), the link key, a pending or retired link key, replay
floors and the packed flag and phase octets. Version 2 has 112 octets; version
3 appends the router parent and has 144.
-/
namespace SecurityKeys

open Octets
open NwkFrame (Ieee)
open CcmStar (Block)

/-- `security_keys_phase_t`, and the codes of the packed nibble beyond it. -/
inductive Phase where
  | cold | unprovisioned | provisioned | associated | received | requested | provisional | waitConfirm
  | verified | left | rejoining | failed
  | spare : Fin 4 → Phase
  deriving DecidableEq, Repr

def Phase.code : Phase → Nat
  | .cold => 0 | .unprovisioned => 1 | .provisioned => 2 | .associated => 3 | .received => 4
  | .requested => 5 | .provisional => 6 | .waitConfirm => 7 | .verified => 8 | .left => 9
  | .rejoining => 10 | .failed => 11
  | .spare n => 12 + n

def Phase.ofCode : Nat → Phase
  | 0 => .cold | 1 => .unprovisioned | 2 => .provisioned | 3 => .associated | 4 => .received
  | 5 => .requested | 6 => .provisional | 7 => .waitConfirm | 8 => .verified | 9 => .left
  | 10 => .rejoining | 11 => .failed
  | n + 12 => .spare (Fin.ofNat 4 n)

theorem Phase.code_lt (p : Phase) : p.code < 16 := by
  cases p <;> simp only [code] <;> omega

@[simp] theorem Phase.ofCode_code (p : Phase) : ofCode p.code = p := by
  cases p with
  | spare n => simp [code, ofCode, Nat.add_comm 12]
  | _ => rfl

/-- The packed octet at `PHASE`. -/
structure PhaseByte where
  phase : Phase
  parent : Fin 8
  timeoutPending : Bool
  deriving DecidableEq, Repr

/-- The octet zero. -/
def PhaseByte.zero : PhaseByte := ⟨.cold, 0, false⟩

def PhaseByte.toByte (b : PhaseByte) : UInt8 :=
  UInt8.ofNat (b.phase.code + 16 * b.parent + if b.timeoutPending then 128 else 0)

def PhaseByte.ofByte (b : UInt8) : PhaseByte :=
  ⟨.ofCode (b.toNat % 16), Fin.ofNat 8 (b.toNat / 16), decide (128 ≤ b.toNat)⟩

@[simp] theorem PhaseByte.ofByte_toByte (b : PhaseByte) : ofByte b.toByte = b := by
  obtain ⟨phase, parent, timeout⟩ := b
  have hc := phase.code_lt
  have hp := parent.isLt
  have hn : (toByte ⟨phase, parent, timeout⟩).toNat =
      phase.code + 16 * parent.val + if timeout then 128 else 0 := by
    simp only [toByte, UInt8.toNat_ofNat']
    split <;> omega
  have hcode : (toByte ⟨phase, parent, timeout⟩).toNat % 16 = phase.code := by rw [hn]; split <;> omega
  have hpar : (toByte ⟨phase, parent, timeout⟩).toNat / 16 % 8 = parent.val := by rw [hn]; split <;> omega
  have htime : decide (128 ≤ (toByte ⟨phase, parent, timeout⟩).toNat) = timeout := by
    rw [hn]
    cases timeout
    · simp
      omega
    · simp
  simp only [ofByte, hcode, Phase.ofCode_code, htime, PhaseByte.mk.injEq, and_true, true_and]
  exact Fin.ext hpar

/-- A number's bit. -/
def bit (b : UInt8) (k : Nat) : Bool := b.toNat.testBit k

/-- The number with the given bits, lowest first. -/
def value (l : List Bool) : Nat := l.foldr (fun b n => b.toNat + 2 * n) 0

def bits (l : List Bool) : UInt8 := UInt8.ofNat (value l)

theorem value_lt (l : List Bool) : value l < 2 ^ l.length := by
  induction l with
  | nil => simp [value]
  | cons b l ih =>
    have hb := b.toNat_lt
    change b.toNat + 2 * value l < 2 ^ (l.length + 1)
    rw [Nat.pow_succ]
    omega

theorem testBit_value (l : List Bool) (k : Nat) : (value l).testBit k = l.getD k false := by
  induction l generalizing k with
  | nil => simp [value]
  | cons b l ih =>
    change (b.toNat + 2 * value l).testBit k = _
    cases k with
    | zero => cases b <;> simp [Nat.testBit_zero]
    | succ k =>
      have hd : (b.toNat + 2 * value l) / 2 = value l := by
        have hb := b.toNat_lt
        omega
      rw [Nat.testBit_succ, hd, ih]
      rfl

theorem bit_bits (l : List Bool) (h : l.length ≤ 8) (k : Nat) : bit (bits l) k = l.getD k false := by
  have hlt : value l < 256 := lt_of_lt_of_le (value_lt l) (Nat.pow_le_pow_right (by decide) h)
  rw [bit, bits, UInt8.toNat_ofNat_of_lt' hlt, testBit_value]

/-- The octet at `FLAGS`: two occupied slots, then the named bits. -/
@[ext] structure Flags where
  slot : Bool → Bool
  active : Bool
  newer : Bool
  retired : Bool
  wasVerified : Bool
  rejoinAllowed : Bool
  spare : Bool

-- The derived instance would rewrite along a function equality and not compute.
instance : DecidableEq Flags := fun _ _ => decidable_of_iff _ Flags.ext_iff.symm

def Flags.zero : Flags := ⟨fun _ => false, false, false, false, false, false, false⟩

def Flags.toByte (f : Flags) : UInt8 :=
  bits [f.slot false, f.slot true, f.active, f.newer, f.retired, f.wasVerified, f.rejoinAllowed, f.spare]

def Flags.ofByte (b : UInt8) : Flags :=
  ⟨fun i => bit b (if i then 1 else 0), bit b 2, bit b 3, bit b 4, bit b 5, bit b 6, bit b 7⟩

@[simp] theorem Flags.ofByte_toByte (f : Flags) : ofByte f.toByte = f := by
  obtain ⟨slot, active, newer, retired, wasVerified, rejoinAllowed, spare⟩ := f
  have hs : (fun i => if i then slot true else slot false) = slot := by
    funext i
    cases i <;> rfl
  have hb := bit_bits [slot false, slot true, active, newer, retired, wasVerified, rejoinAllowed, spare]
    (by simp)
  simp only [ofByte, toByte, hb, Flags.mk.injEq]
  refine ⟨?_, rfl, rfl, rfl, rfl, rfl, rfl⟩
  rw [← hs]
  funext i
  cases i <;> rfl

/-- The octet at `ROUTER_FLAGS`. -/
structure RouterFlags where
  known : Bool
  active : Bool
  attempt : Bool
  unbound : Bool
  spare : Fin 16
  deriving DecidableEq

def RouterFlags.zero : RouterFlags := ⟨false, false, false, false, 0⟩

def RouterFlags.toByte (f : RouterFlags) : UInt8 :=
  bits [f.known, f.active, f.attempt, f.unbound] + UInt8.ofNat (16 * f.spare)

def RouterFlags.ofByte (b : UInt8) : RouterFlags :=
  ⟨bit b 0, bit b 1, bit b 2, bit b 3, Fin.ofNat 16 (b.toNat / 16)⟩

@[simp] theorem RouterFlags.ofByte_toByte (f : RouterFlags) : ofByte f.toByte = f := by
  obtain ⟨known, active, attempt, unbound, spare⟩ := f
  revert known active attempt unbound spare
  decide

/-- The appended octets of version 3. -/
structure Router where
  ieee : Ieee
  addr : UInt16
  nf : Bool → UInt32
  flags : RouterFlags
  update : UInt8
  reserved : Vector UInt8 12
  deriving DecidableEq

def zeroIeee : Ieee := Vector.replicate 8 0
def zeroKey : Block := Vector.replicate 16 0

def Router.zero : Router := ⟨zeroIeee, 0, fun _ => 0, .zero, 0, Vector.replicate 12 0⟩

/-- One record, field by field in the order of its octets. -/
structure Record where
  own : Ieee
  tc : Ieee
  nk : Bool → Block
  lk : Block
  pk : Block
  nf : Bool → UInt32
  af : UInt32
  ep : Ieee
  pan : UInt16
  addr : UInt16
  channel : UInt8
  update : UInt8
  seq : Bool → UInt8
  flags : Flags
  phaseByte : PhaseByte
  magic : UInt8
  version : UInt8
  router : Router
  deriving DecidableEq

/-- The first 112 octets. -/
def Record.encodeBase (r : Record) : Bytes :=
  r.own.toList ++ (r.tc.toList ++ ((r.nk false).toList ++ ((r.nk true).toList ++ (r.lk.toList ++
  (r.pk.toList ++ (put32 (r.nf false) ++ (put32 (r.nf true) ++ (put32 r.af ++ (r.ep.toList ++
  (put16 r.pan ++ (put16 r.addr ++ [r.channel, r.update, r.seq false, r.seq true, r.flags.toByte,
  r.phaseByte.toByte, r.magic, r.version])))))))))))

def Router.encode (r : Router) : Bytes :=
  r.ieee.toList ++ (put16 r.addr ++ (put32 (r.nf false) ++ (put32 (r.nf true) ++
  ([r.flags.toByte, r.update] ++ (r.reserved.toList ++ [])))))

def Record.encode (r : Record) : Bytes := r.encodeBase ++ r.router.encode

/-- The router fields at their offsets. -/
def Router.decode (s : Bytes) : Router where
  ieee := fieldAt s 112 8
  addr := u16At s 120
  nf := fun i => u32At s (if i then 126 else 122)
  flags := .ofByte (byteAt s 130)
  update := byteAt s 131
  reserved := fieldAt s 132 12

/-- Every field at its offset. -/
def Record.decode (s : Bytes) : Record where
  own := fieldAt s 0 8
  tc := fieldAt s 8 8
  nk := fun i => fieldAt s (if i then 32 else 16) 16
  lk := fieldAt s 48 16
  pk := fieldAt s 64 16
  nf := fun i => u32At s (if i then 84 else 80)
  af := u32At s 88
  ep := fieldAt s 92 8
  pan := u16At s 100
  addr := u16At s 102
  channel := byteAt s 104
  update := byteAt s 105
  seq := fun i => byteAt s (if i then 107 else 106)
  flags := .ofByte (byteAt s 108)
  phaseByte := .ofByte (byteAt s 109)
  magic := byteAt s 110
  version := byteAt s 111
  router := .decode s

theorem Record.encodeBase_length (r : Record) : r.encodeBase.length = 112 := by
  simp [encodeBase]

theorem Router.encode_length (r : Router) : r.encode.length = 32 := by
  simp [encode]

theorem Record.encode_length (r : Record) : r.encode.length = 144 := by
  simp [encode, Record.encodeBase_length, Router.encode_length]

/-- Every field in front of the router reads back. -/
theorem Record.decode_base (r : Record) (rest : Bytes) :
    decode (r.encodeBase ++ rest) = { r with router := .decode (r.encodeBase ++ rest) } := by
  have ha : r.encodeBase ++ rest = r.own.toList ++ (r.tc.toList ++ ((r.nk false).toList ++
      ((r.nk true).toList ++ (r.lk.toList ++ (r.pk.toList ++ (put32 (r.nf false) ++ (put32 (r.nf true) ++
      (put32 r.af ++ (r.ep.toList ++ (put16 r.pan ++ (put16 r.addr ++ ([r.channel, r.update, r.seq false,
      r.seq true, r.flags.toByte, r.phaseByte.toByte, r.magic, r.version] ++ rest)))))))))))) := by
    simp [encodeBase]
  rw [decode, ha]
  simp [fieldAt_skip, u32At_skip, u16At_skip, byteAt_skip]
  refine ⟨?_, ?_, ?_⟩ <;> funext i <;> cases i <;> simp [fieldAt_skip, u32At_skip, byteAt_skip]

/-- An image without router octets reads as one with zeros there. -/
theorem Router.decode_short (s : Bytes) (hl : s.length ≤ 112) : decode s = .zero := by
  have hb : ∀ i, 112 ≤ i → byteAt s i = 0 := fun i hi => byteAt_past _ i (by omega)
  have hu : ∀ i, 112 ≤ i → u32At s i = 0 := fun i hi => by
    rw [u32At, hb i hi, hb _ (by omega), hb _ (by omega), hb _ (by omega)]
    rfl
  simp only [decode, zero, Router.mk.injEq]
  refine ⟨fieldAt_past _ _ _ (by omega), ?_, ?_, ?_, hb _ (by omega), fieldAt_past _ _ _ (by omega)⟩
  · rw [u16At, hb _ (by omega), hb _ (by omega)]
    rfl
  · funext i
    exact hu _ (by split <;> omega)
  · rw [hb _ (by omega)]
    decide

/-- A version 2 image reads back without a router. -/
theorem Record.decode_encodeBase (r : Record) : decode r.encodeBase = { r with router := .zero } := by
  have h := r.decode_base []
  rw [List.append_nil, Router.decode_short _ r.encodeBase_length.le] at h
  exact h

/-- A version 3 image reads back whole. -/
theorem Record.decode_encode (r : Record) : decode r.encode = r := by
  have hl := r.encodeBase_length
  rw [encode, decode_base]
  have hr : ∀ q : Router, Router.decode (r.encodeBase ++ q.encode) = q := by
    intro ⟨ieee, addr, nf, flags, update, reserved⟩
    simp [Router.decode, Router.encode, fieldAt_skip, u16At_skip, byteAt_skip, hl]
    funext i
    cases i <;> simp [u32At_skip, hl]
  rw [hr]

/-! Validity. -/

/-- `identity`: neither all zeros nor all ones. -/
def Identity (a : Ieee) : Prop := a ≠ zeroIeee ∧ a ≠ Vector.replicate 8 0xFF

instance (a : Ieee) : Decidable (Identity a) := inferInstanceAs (Decidable (_ ∧ _))

namespace Record

/-- The phase nibble. -/
def phase (r : Record) : Phase := r.phaseByte.phase

/-- A network key is installed. -/
def network (r : Record) : Bool := r.flags.slot false || r.flags.slot true

/-- `valid_config`. -/
@[mk_iff] structure ValidConfig (r : Record) : Prop where
  own : Identity r.own
  tc : Identity r.tc
  differ : r.own ≠ r.tc
  ep : Identity r.ep
  pan : r.pan ≠ 0xFFFF
  nonzero : r.addr ≠ 0
  addr : r.addr < 0xFFF8 ∨ r.addr = 0xFFFF
  channel : 11 ≤ r.channel ∧ r.channel ≤ 26

instance (r : Record) : Decidable r.ValidConfig := decidable_of_iff _ (validConfig_iff r).symm

/-- No network key: no flag, no key, no floor but the APS one, nothing from a parent. -/
@[mk_iff] structure BlankKeys (r : Record) : Prop where
  flags : r.flags = .zero
  nk : ∀ i, r.nk i = zeroKey
  pk : r.pk = zeroKey
  nf : ∀ i, r.nf i = 0
  seq : ∀ i, r.seq i = 0
  parent : r.phaseByte.parent = 0
  timeout : r.phaseByte.timeoutPending = false

instance (r : Record) : Decidable r.BlankKeys := decidable_of_iff _ (blankKeys_iff r).symm

/-- The two network key slots. -/
@[mk_iff] structure ValidSlots (r : Record) : Prop where
  active : r.flags.slot r.flags.active = true
  newer : r.flags.newer = true → ∀ i, r.flags.slot i = true
  differ : (∀ i, r.flags.slot i = true) → r.seq false ≠ r.seq true ∧ r.nk false ≠ r.nk true
  used : ∀ i, r.flags.slot i = true → r.nk i ≠ zeroKey ∧ r.nk i ≠ r.lk ∧ r.nk i ≠ r.pk
  empty : ∀ i, r.flags.slot i = false → r.nk i = zeroKey ∧ r.nf i = 0 ∧ r.seq i = 0

instance (r : Record) : Decidable r.ValidSlots := decidable_of_iff _ (validSlots_iff r).symm

/-- The pending or retired link key. -/
def ValidPending (r : Record) : Prop :=
  if r.phase = .provisional ∨ r.phase = .waitConfirm ∨
      (r.phase = .left ∧ r.flags.retired = false ∧ r.pk ≠ zeroKey) then
    r.flags.retired = false ∧ r.pk ≠ zeroKey ∧ r.pk ≠ r.lk
  else if r.flags.retired then r.flags.wasVerified = true ∧ r.pk ≠ zeroKey ∧ r.pk ≠ r.lk
  else r.pk = zeroKey

instance (r : Record) : Decidable r.ValidPending := inferInstanceAs (Decidable (ite _ _ _))

end Record

variable (build : Build)

namespace Record

/-- How a known router fits the rest of the record. -/
def RouterJoined (r : Record) : Prop :=
  if build.routerJoin then
    if r.router.flags.unbound then
      r.flags.wasVerified = false ∧ r.router.flags = ⟨true, true, false, true, 0⟩ ∧ r.phase = .associated ∧
        r.router.ieee = r.tc
    else r.flags.wasVerified = true ∨
      (r.router.flags = ⟨true, true, false, false, 0⟩ ∧ 4 ≤ r.phase.code ∧
        (r.phase.code ≤ 7 ∨ r.phase = .left))
  else r.flags.wasVerified = true

instance (r : Record) : Decidable (r.RouterJoined build) := inferInstanceAs (Decidable (ite _ _ _))

/-- What a known router must satisfy. -/
@[mk_iff] structure KnownRouter (r : Record) : Prop where
  joined : r.RouterJoined build
  ieee : Identity r.router.ieee
  own : r.router.ieee ≠ r.own
  tc : r.router.flags.unbound = false → r.router.ieee ≠ r.tc
  nonzero : r.router.addr ≠ 0
  addr : r.router.addr < 0xFFF8
  differ : r.router.addr ≠ r.addr
  empty : ∀ i, r.flags.slot i = false → r.router.nf i = 0

instance (r : Record) : Decidable (r.KnownRouter build) := decidable_of_iff _ (knownRouter_iff build r).symm

/-- `valid_router`. -/
@[mk_iff] structure ValidRouter (r : Record) : Prop where
  reserved : r.router.reserved = Vector.replicate 12 0
  spare : r.router.flags.spare = 0
  unbound : build.routerJoin = true ∨ r.router.flags.unbound = false
  update : r.router.flags.attempt = false → r.router.update = 0
  known : r.router.flags.known = true → r.KnownRouter build
  blank : r.router.flags.known = false → r.router.ieee = zeroIeee ∧ r.router.addr = 0 ∧
    (∀ i, r.router.nf i = 0) ∧ r.router.flags = .zero

instance (r : Record) : Decidable (r.ValidRouter build) := decidable_of_iff _ (validRouter_iff build r).symm

/-- Before the first network key, or after abandoning a join without one. -/
def Keyless (r : Record) : Prop := r.phase.code ≤ 3 ∨ (r.phase = .left ∧ r.network = false)

instance (r : Record) : Decidable r.Keyless := inferInstanceAs (Decidable (_ ∨ _))

/-- `valid_record`, with the size of the image the record came from. -/
@[mk_iff] structure Valid (size : Nat) (r : Record) : Prop where
  shape : (size = 112 ∧ r.version = 2) ∨
    (build.parentRecovery = true ∧ size = 144 ∧ r.version = 3 ∧ r.ValidRouter build)
  magic : r.magic = 0x4B
  config : r.ValidConfig
  spare : r.flags.spare = false
  phases : 2 ≤ r.phase.code ∧ r.phase.code ≤ 10
  link : r.lk ≠ zeroKey
  blank : r.Keyless → r.BlankKeys
  slots : ¬ r.Keyless → r.ValidSlots
  address : r.phase = .provisioned ∨ (r.phase = .left ∧ r.network = false) ∨ r.addr ≠ 0xFFFF
  pending : r.ValidPending
  verified : r.phase = .verified → r.flags.wasVerified = true
  late : r.flags.wasVerified = true → 5 ≤ r.phase.code
  rejoin : r.flags.rejoinAllowed = true → r.phase = .left ∨ r.phase = .rejoining
  rejoining : r.phase = .rejoining → r.flags.wasVerified = true
  timeout : r.phaseByte.timeoutPending = true → r.phase ≠ .left ∧ r.phase ≠ .rejoining

instance (size : Nat) (r : Record) : Decidable (r.Valid build size) :=
  decidable_of_iff _ (valid_iff build size r).symm

/-- `router_record`. -/
def routerRecord (r : Record) : Bool := build.parentRecovery && r.version == 3

/-- The length `save` chooses. -/
def size (r : Record) : Nat := if r.routerRecord build then 144 else 112

/-- What `save` hands to the journal. -/
def image (r : Record) : Bytes := if r.routerRecord build then r.encode else r.encodeBase

/-- The parent is the router, for a rejoin the selected one. -/
def parentRouter (r : Record) : Bool :=
  r.routerRecord build && (if r.phase = .rejoining then r.router.flags.attempt else r.router.flags.active)

/-- The record field `parent_ieee_offset` points at. -/
def parentIeee (r : Record) : Ieee := if r.parentRouter build then r.router.ieee else r.tc

def parentAddress (r : Record) : UInt16 := if r.parentRouter build then r.router.addr else 0

/-- Associated through a router before the trust center is known. -/
def unbound (r : Record) : Bool := build.routerJoin && (r.routerRecord build && r.router.flags.unbound)

end Record

/-- `set_phase`. -/
def Record.setPhase (r : Record) (p : Phase) : Record :=
  { r with phaseByte := if p.code ≤ 3 then ⟨p, 0, false⟩ else
      ⟨p, if p = .rejoining then 0 else r.phaseByte.parent,
        if p = .left ∨ p = .rejoining then false else r.phaseByte.timeoutPending⟩ }

end SecurityKeys
