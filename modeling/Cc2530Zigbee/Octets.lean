import Mathlib

/-!
# Octet strings

Little-endian integers and fixed-size fields over octet strings. A field read
past the end of a string reads zero octets, as from a zeroed buffer. The octets
of an integer never overlap, so a shift-and-or of them is written as a sum.
-/
namespace Octets

abbrev Bytes := List UInt8

/-- The `i`-th octet of a number, least significant first. -/
def octet (n i : Nat) : UInt8 := UInt8.ofNat (n / 256 ^ i)

def le16 (a b : UInt8) : UInt16 := UInt16.ofNat (a.toNat + 256 * b.toNat)

def le32 (a b c d : UInt8) : UInt32 :=
  UInt32.ofNat (a.toNat + 256 * b.toNat + 65536 * c.toNat + 16777216 * d.toNat)

def put16 (n : UInt16) : Bytes := [octet n.toNat 0, octet n.toNat 1]

def put32 (n : UInt32) : Bytes :=
  [octet n.toNat 0, octet n.toNat 1, octet n.toNat 2, octet n.toNat 3]

@[simp] theorem octet_toNat (n i : Nat) : (octet n i).toNat = n / 256 ^ i % 256 := by
  simp [octet]

theorem le16_put (n : UInt16) : le16 (octet n.toNat 0) (octet n.toNat 1) = n := by
  have h := n.toNat_lt
  apply UInt16.toNat_inj.1
  simp [le16]
  omega

theorem le32_put (n : UInt32) :
    le32 (octet n.toNat 0) (octet n.toNat 1) (octet n.toNat 2) (octet n.toNat 3) = n := by
  have h := n.toNat_lt
  apply UInt32.toNat_inj.1
  simp [le32]
  omega

/-! Indices of the fixed-size tables. -/

theorem index3_lt (i : Fin 3) : i.val < 3 := i.isLt
theorem index4_lt (i : Fin 4) : i.val < 4 := i.isLt
theorem index8_lt (i : Fin 8) : i.val < 8 := i.isLt
theorem index16_lt (i : Fin 16) : i.val < 16 := i.isLt
theorem index125_lt (i : Fin 125) : i.val < 125 := i.isLt

instance neZero4 : NeZero 4 := ⟨by decide⟩
instance neZero8 : NeZero 8 := ⟨by decide⟩
instance neZero16 : NeZero 16 := ⟨by decide⟩

/-- The octet at an index, zero past the end. -/
def byteAt (s : Bytes) (i : Nat) : UInt8 := s.getD i 0

def u16At (s : Bytes) (i : Nat) : UInt16 := le16 (byteAt s i) (byteAt s (i + 1))

def u32At (s : Bytes) (i : Nat) : UInt32 :=
  le32 (byteAt s i) (byteAt s (i + 1)) (byteAt s (i + 2)) (byteAt s (i + 3))

/-- `n` octets from index `i` on. -/
def fieldAt (s : Bytes) (i n : Nat) : Vector UInt8 n := Vector.ofFn fun k => byteAt s (i + k)

@[simp] theorem byteAt_append_left (v : Vector UInt8 n) (s : Bytes) (i : Nat) (h : i < n) :
    byteAt (v.toList ++ s) i = v[i] := by
  have hv : i < v.toList.length := by simpa using h
  simp [byteAt, List.getD, List.getElem?_append_left hv, h]

/-! Reading behind a prefix. -/

theorem byteAt_skip (l s : Bytes) (i : Nat) (h : l.length ≤ i) : byteAt (l ++ s) i = byteAt s (i - l.length) := by
  simp [byteAt, List.getElem?_append_right h]

theorem u16At_skip (l s : Bytes) (i : Nat) (h : l.length ≤ i) : u16At (l ++ s) i = u16At s (i - l.length) := by
  rw [u16At, byteAt_skip l s i h, byteAt_skip l s (i + 1) (by omega), Nat.sub_add_comm h]
  rfl

theorem u32At_skip (l s : Bytes) (i : Nat) (h : l.length ≤ i) : u32At (l ++ s) i = u32At s (i - l.length) := by
  rw [u32At, byteAt_skip l s i h, byteAt_skip l s (i + 1) (by omega), byteAt_skip l s (i + 2) (by omega),
    byteAt_skip l s (i + 3) (by omega), Nat.sub_add_comm h, Nat.sub_add_comm h, Nat.sub_add_comm h]
  rfl

theorem fieldAt_skip (l s : Bytes) (i n : Nat) (h : l.length ≤ i) :
    fieldAt (l ++ s) i n = fieldAt s (i - l.length) n := by
  ext k hk
  simp only [fieldAt, Vector.getElem_ofFn]
  rw [byteAt_skip l s (i + k) (by omega), Nat.sub_add_comm h]

@[simp] theorem fieldAt_here (v : Vector UInt8 n) (s : Bytes) : fieldAt (v.toList ++ s) 0 n = v := by
  ext k hk
  simp [fieldAt]

@[simp] theorem u16At_here (n : UInt16) (s : Bytes) : u16At (put16 n ++ s) 0 = n := by
  simp [u16At, byteAt, put16, le16_put]

@[simp] theorem u32At_here (n : UInt32) (s : Bytes) : u32At (put32 n ++ s) 0 = n := by
  simp [u32At, byteAt, put32, le32_put]

@[simp] theorem byteAt_here (b : UInt8) (s : Bytes) : byteAt (b :: s) 0 = b := rfl

@[simp] theorem byteAt_cons (b : UInt8) (s : Bytes) (i : Nat) : byteAt (b :: s) (i + 1) = byteAt s i := by
  simp [byteAt]

@[simp] theorem fieldAt_cons (b : UInt8) (s : Bytes) (i n : Nat) :
    fieldAt (b :: s) (i + 1) n = fieldAt s i n := by
  ext k hk
  simp [fieldAt, Nat.add_right_comm i 1 k]

@[simp] theorem fieldAt_whole (v : Vector UInt8 n) : fieldAt v.toList 0 n = v := by
  simpa using fieldAt_here v []

@[simp] theorem put16_length (n : UInt16) : (put16 n).length = 2 := by simp [put16]
@[simp] theorem put32_length (n : UInt32) : (put32 n).length = 4 := by simp [put32]

/-- Past the end everything reads zero. -/
theorem byteAt_past (s : Bytes) (i : Nat) (h : s.length ≤ i) : byteAt s i = 0 := by
  simp [byteAt, h]

theorem fieldAt_past (s : Bytes) (i n : Nat) (h : s.length ≤ i) : fieldAt s i n = Vector.replicate n 0 := by
  ext k hk
  simp [fieldAt, byteAt_past s (i + k) (by omega)]

end Octets
