import Cc2530Zigbee.NvRecordValid
import Cc2530Zigbee.ReflectedCrc

/-!
# The CRC of the journal

The nibble tables in their four byte planes are the bitwise CRC-32 of a whole octet. The
replacement and the scan feed it the same octets of a page.
-/
namespace NvRecord

open Octets Flash

def crcPolynomial : BitVec 32 := 0xEDB88320#32

/-- The bitwise reflected CRC-32. -/
def crcReference (crc : UInt32) (bytes : Bytes) : UInt32 :=
  ⟨ReflectedCrc.feed crcPolynomial crc.toBitVec (bytes.map UInt8.toBitVec)⟩

/-- The bits of four octets put together. -/
theorem join_bit (c : Planes) (i : Nat) :
    (join c).toBitVec.getLsbD i =
      if i < 8 then c.c0.toBitVec.getLsbD i
      else if i < 16 then c.c1.toBitVec.getLsbD (i - 8)
      else if i < 24 then c.c2.toBitVec.getLsbD (i - 16)
      else c.c3.toBitVec.getLsbD (i - 24) := by
  have h0 := c.c0.toNat_lt
  have h1 := c.c1.toNat_lt
  have h2 := c.c2.toNat_lt
  have h3 := c.c3.toNat_lt
  have hsum : (join c).toBitVec.toNat =
      2 ^ 8 * (2 ^ 8 * (2 ^ 8 * c.c3.toNat + c.c2.toNat) + c.c1.toNat) + c.c0.toNat := by
    simp only [join, le32, UInt32.toNat_toBitVec, UInt32.toNat_ofNat']
    omega
  rw [BitVec.getLsbD, hsum, Nat.testBit_two_pow_mul_add _ h0, Nat.testBit_two_pow_mul_add _ h1,
    Nat.testBit_two_pow_mul_add _ h2]
  simp only [BitVec.getLsbD, UInt8.toNat_toBitVec]
  split_ifs <;> first | rfl | omega | exact congrArg _ (by omega)

/-- The tables hold eight shifts of every octet. -/
theorem crcEntry_shifts : ∀ value : UInt8,
    (ReflectedCrc.shift crcPolynomial)^[8] (value.toBitVec.setWidth 32) =
      (join ⟨crcEntry 0 value, crcEntry 1 value, crcEntry 2 value, crcEntry 3 value⟩).toBitVec := by
  decide +kernel

/-- One step of the byte planes is one octet of the bitwise CRC. -/
theorem crcStep_octet (c : Planes) (byte : UInt8) :
    (join (crcStep c byte)).toBitVec = ReflectedCrc.octet crcPolynomial (join c).toBitVec byte.toBitVec := by
  rw [ReflectedCrc.octet, ReflectedCrc.shift_iterate_split crcPolynomial 8 ((c.c0 ^^^ byte).toBitVec.setWidth 32),
    crcEntry_shifts]
  · apply BitVec.eq_of_getLsbD_eq
    intro i hi
    have hbyte : byte.toBitVec.getLsbD (8 + i) = false := BitVec.getLsbD_of_ge _ _ (by omega)
    simp only [BitVec.getLsbD_xor, BitVec.getLsbD_ushiftRight, join_bit, crcStep, BitVec.getLsbD_setWidth, hbyte,
      UInt8.toBitVec_xor, Bool.and_false, Bool.xor_false]
    rw [Nat.add_sub_cancel_left, show 8 + i - 16 = i - 8 by omega, show 8 + i - 24 = i - 16 by omega]
    -- the planes move down by one octet, and nothing is left of the top one
    have htop : ¬ i < 24 → c.c3.toBitVec.getLsbD (i - 16) = false := fun h => BitVec.getLsbD_of_ge _ _ (by omega)
    split_ifs with h
    all_goals first
      | rfl
      | omega
      | rw [htop (by assumption), Bool.false_xor]
  · intro i hi
    simp only [BitVec.getLsbD_setWidth, BitVec.getLsbD_xor, join_bit, if_pos hi, UInt8.toBitVec_xor]
    simp [show i < 32 by omega]
  · intro i hi
    rw [BitVec.getLsbD_setWidth, BitVec.getLsbD_of_ge _ _ hi, Bool.and_false]

theorem join_planes (crc : UInt32) : join (planes crc) = crc := le32_put crc

theorem foldl_crcStep (bytes : Bytes) (crc : UInt32) : join (bytes.foldl crcStep (planes crc)) = crcReference crc bytes := by
  induction bytes generalizing crc with
  | nil => exact join_planes crc
  | cons b bytes ih =>
    rw [List.foldl_cons, ← planes_join (crcStep (planes crc) b), ih, crcReference, crcReference, crcStep_octet, join_planes]
    rfl

/-- The CRC of whole input, of erased octets, and of input in pieces. -/
theorem crcReference_append (crc : UInt32) (s t : Bytes) :
    crcReference (crcReference crc s) t = crcReference crc (s ++ t) := by
  unfold crcReference
  rw [List.map_append, ReflectedCrc.feed_append]

/-- The CRC that a replacement stores. -/
def storedCrc (page : Page) : UInt32 := le32 (page 2040) (page 2041) (page 2042) (page 2043)

/-- A replacement that programmed all its words on an erased page left the image of its
record. -/
theorem programAll_image {s s' : State} {b : Bool} {data : Bytes} {generation : UInt32} (hblank : s.device.page b = blank)
    (h : programAll s b (recordWrites data generation) = .ok (none, s')) :
    s'.device.page b = image data generation := by
  obtain ⟨t, ht, hpage, -⟩ | ⟨d, pre, w, post, kept, hstop, -⟩ := programAll_cases s b (recordWrites data generation)
  · rw [h] at ht
    cases ht
    rw [hpage, hblank]
    rfl
  · obtain he | ⟨t, ht, -⟩ := hstop
    · rw [h] at he
      cases he
    · rw [h] at ht
      cases ht

/-- The CRC that is stored over the image is that of the record, and of the scan. -/
theorem image_scan (max : Nat) (capture : Bool) (data : Bytes) (generation : UInt32) (hl : data.length ≤ 2028) :
    storedCrc (image data generation) = recordCrc data generation ∧
      recordCrc data generation = (scan max capture (image data generation)).crc ^^^ 0xFFFFFFFF := by
  constructor
  · have h0 := image_crc data generation hl 0 (by decide)
    have h1 := image_crc data generation hl 1 (by decide)
    have h2 := image_crc data generation hl 2 (by decide)
    have h3 := image_crc data generation hl 3 (by decide)
    rw [storedCrc, h0, h1, h2, h3]
    exact le32_put _
  · rw [scan_crc, pageCrc_image data generation hl, ← recordCrc_eq data generation hl]

theorem crcUpdate_whole (crc : UInt32) (bytes : Bytes) : crcUpdate crc (some bytes) bytes.length = crcReference crc bytes := by
  rw [crcUpdate_some crc bytes _ (Nat.le_refl _), List.take_length, foldl_crcStep]

/-- The table-driven CRC is the bitwise one, whole or in pieces; no input stands for erased
octets. What a replacement stores is what the scan computes over the programmed page,
and both are the bitwise CRC of the page below it. -/
theorem journal_crc (max : Nat) (data : Bytes) (hl : data.length ≤ 2028) :
    (∀ crc bytes, crcUpdate crc (some bytes) bytes.length = crcReference crc bytes) ∧
      (∀ crc count, crcUpdate crc none count = crcUpdate crc (some (List.replicate count 0xFF)) count) ∧
      (∀ crc (pieces : List Bytes), pieces.foldl (fun crc piece => crcUpdate crc (some piece) piece.length) crc =
        crcUpdate crc (some pieces.flatten) pieces.flatten.length) ∧
      (∀ s s' b generation capture, s.device.page b = blank →
        programAll s b (recordWrites data generation) = .ok (none, s') →
        storedCrc (s'.device.page b) = recordCrc data generation ∧
          recordCrc data generation = (scan max capture (s'.device.page b)).crc ^^^ 0xFFFFFFFF) ∧
      ∀ capture page, (scan max capture page).crc = crcReference 0xFFFFFFFF ((List.range 2040).map page) := by
  refine ⟨crcUpdate_whole, ?_, ?_, ?_, ?_⟩
  · intro crc count
    rw [crcUpdate_none, crcUpdate_some _ _ _ (by simp), List.take_of_length_le (by simp)]
  · intro crc pieces
    rw [crcUpdate_whole]
    induction pieces generalizing crc with
    | nil => rfl
    | cons piece pieces ih => rw [List.foldl_cons, ih, crcUpdate_whole, crcReference_append, List.flatten_cons]
  · intro s s' b generation capture hblank hdone
    rw [programAll_image hblank hdone]
    exact image_scan max capture data generation hl
  · intro capture page
    rw [scan_crc, pageCrc, foldl_crcStep]

theorem journal_crc_check :
    crcUpdate 0xFFFFFFFF (some [0x31, 0x32, 0x33, 0x34, 0x35, 0x36, 0x37, 0x38, 0x39]) 9 ^^^ 0xFFFFFFFF = 0xCBF43926 := by
  rw [show 9 = ([0x31, 0x32, 0x33, 0x34, 0x35, 0x36, 0x37, 0x38, 0x39] : Bytes).length from rfl,
    (journal_crc 128 [1, 2, 3] (by decide)).1]
  decide +kernel

end NvRecord
