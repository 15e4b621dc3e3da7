import Cc2530Zigbee.Octets

/-!
# Bit fields of octets

Two octets read as one number, and the fields a mask or a shift cuts out of it.
Facts about a single octet are checked over all its values.
-/
namespace Octets

set_option maxRecDepth 8000

theorem le16_toNat (a b : UInt8) : (le16 a b).toNat = a.toNat + 256 * b.toNat := by
  have ha := a.toNat_lt
  have hb := b.toNat_lt
  simp only [le16, UInt16.toNat_ofNat']
  omega

theorem le16_eq_or (a b : UInt8) : le16 a b = a.toUInt16 ||| (b.toUInt16 <<< 8) := by
  have ha := a.toNat_lt
  have hb := b.toNat_lt
  have h := Nat.shiftLeft_add_eq_or_of_lt (show a.toNat < 2 ^ 8 from ha) b.toNat
  have hs : (b.toNat <<< (8 % 16)) % 2 ^ 16 = b.toNat <<< 8 := by
    rw [Nat.shiftLeft_eq]
    exact Nat.mod_eq_of_lt (show b.toNat * 256 < 65536 by omega)
  apply UInt16.toNat_inj.1
  rw [le16_toNat, UInt16.toNat_or, UInt16.toNat_shiftLeft, UInt8.toNat_toUInt16, UInt8.toNat_toUInt16]
  simp only [UInt16.reduceToNat]
  rw [hs, Nat.or_comm, ← h, Nat.shiftLeft_eq]
  omega

/-- The two lowest bits. -/
theorem le16_low2 (a b : UInt8) : (le16 a b &&& 3).toUInt8 = a &&& 3 := by
  apply UInt8.toNat_inj.1
  have h1 := Nat.and_two_pow_sub_one_eq_mod (a.toNat + 256 * b.toNat) 2
  have h2 := Nat.and_two_pow_sub_one_eq_mod a.toNat 2
  simp [le16_toNat] at h1 h2 ⊢

/-- The four bits above them. -/
theorem le16_next4 (a b : UInt8) : ((le16 a b >>> 2) &&& 15).toUInt8 = (a >>> 2) &&& 15 := by
  apply UInt8.toNat_inj.1
  have h1 := Nat.and_two_pow_sub_one_eq_mod ((a.toNat + 256 * b.toNat) / 4 % 256) 4
  have h2 := Nat.and_two_pow_sub_one_eq_mod (a.toNat / 4) 4
  simp [le16_toNat, Nat.shiftRight_eq_div_pow] at h1 h2 ⊢
  omega

/-- The two top bits of the low octet. -/
theorem le16_top2 (a b : UInt8) : ((le16 a b >>> 6) &&& 3).toUInt8 = a >>> 6 := by
  have ha := a.toNat_lt
  apply UInt8.toNat_inj.1
  have h1 := Nat.and_two_pow_sub_one_eq_mod ((a.toNat + 256 * b.toNat) / 64 % 256) 2
  simp [le16_toNat, Nat.shiftRight_eq_div_pow] at h1 ⊢
  omega

/-- The high octet alone. -/
theorem le16_high (a b : UInt8) : le16 a b &&& (0xFF00 : UInt16) = b.toUInt16 <<< (8 : UInt16) := by
  have ha : ∀ a : UInt8, a.toUInt16 &&& (0xFF00 : UInt16) = 0 := by decide
  have hb : ∀ b : UInt8, (b.toUInt16 <<< (8 : UInt16)) &&& (0xFF00 : UInt16) = b.toUInt16 <<< (8 : UInt16) := by
    decide
  have hd : (a.toUInt16 ||| (b.toUInt16 <<< (8 : UInt16))) &&& (0xFF00 : UInt16) =
      (a.toUInt16 &&& (0xFF00 : UInt16)) ||| ((b.toUInt16 <<< (8 : UInt16)) &&& (0xFF00 : UInt16)) :=
    UInt16.toBitVec_inj.1 BitVec.and_or_distrib_right
  rw [le16_eq_or, hd, ha a, hb b, UInt16.zero_or]

theorem high_octet (b : UInt8) : ((b.toUInt16 <<< (8 : UInt16)) >>> (8 : UInt16)).toUInt8 = b := by
  revert b
  decide

theorem high_restore (f : UInt16) (h : f &&& (0xFF : UInt16) = 0) :
    (f >>> (8 : UInt16)).toUInt8.toUInt16 <<< (8 : UInt16) = f := by
  have hf := f.toNat_lt
  have h1 := Nat.and_two_pow_sub_one_eq_mod f.toNat 8
  have h2 := congrArg UInt16.toNat h
  apply UInt16.toNat_inj.1
  simp [Nat.shiftRight_eq_div_pow, Nat.shiftLeft_eq] at h1 h2 ⊢
  omega

/-- Two octets as they were read. -/
theorem put16_le16 (a b : UInt8) : put16 (le16 a b) = [a, b] := by
  have ha := a.toNat_lt
  have hb := b.toNat_lt
  have h0 : octet (le16 a b).toNat 0 = a := by
    apply UInt8.toNat_inj.1
    rw [octet_toNat, le16_toNat]
    omega
  have h1 : octet (le16 a b).toNat 1 = b := by
    apply UInt8.toNat_inj.1
    rw [octet_toNat, le16_toNat]
    omega
  rw [put16, h0, h1]

theorem put32_le32 (a b c d : UInt8) : put32 (le32 a b c d) = [a, b, c, d] := by
  have ha := a.toNat_lt
  have hb := b.toNat_lt
  have hc := c.toNat_lt
  have hd := d.toNat_lt
  have hn : (le32 a b c d).toNat = a.toNat + 256 * b.toNat + 65536 * c.toNat + 16777216 * d.toNat := by
    simp only [le32, UInt32.toNat_ofNat']
    omega
  have hoctet (i : Nat) (x : UInt8) (hx : (le32 a b c d).toNat / 256 ^ i % 256 = x.toNat) :
      octet (le32 a b c d).toNat i = x := by
    apply UInt8.toNat_inj.1
    rw [octet_toNat, hx]
  rw [put32, hoctet 0 a (by omega), hoctet 1 b (by omega), hoctet 2 c (by omega), hoctet 3 d (by omega)]

/-! Fields of a string. -/

theorem fieldAt_toList (s : Bytes) (i n : Nat) (h : i + n ≤ s.length) :
    (fieldAt s i n).toList = (s.drop i).take n := by
  apply List.ext_getElem
  · simp
    omega
  · intro k hk _
    have hk : k < n := by simpa using hk
    simp [fieldAt, byteAt, List.getD, List.getElem?_eq_getElem (show i + k < s.length by omega)]

theorem put32_u32At (s : Bytes) (i : Nat) (h : i + 4 ≤ s.length) : put32 (u32At s i) = (s.drop i).take 4 := by
  rw [u32At, put32_le32]
  apply List.ext_getElem
  · simp
    omega
  · intro k hk _
    have hk : k < 4 := hk
    obtain rfl | rfl | rfl | rfl : k = 0 ∨ k = 1 ∨ k = 2 ∨ k = 3 := by omega
    all_goals
      simp [byteAt, List.getD, show i < s.length by omega, show i + 1 < s.length by omega,
        show i + 2 < s.length by omega, show i + 3 < s.length by omega]

theorem byteAt_toList (s : Bytes) (i : Nat) (h : i + 1 ≤ s.length) : [byteAt s i] = (s.drop i).take 1 := by
  rw [byteAt, List.getD_eq_getElem _ _ h, List.drop_eq_getElem_cons h]
  rfl

/-- Two strings that agree on a stretch. -/
theorem slice_congr {s t : Bytes} {i n : Nat} (hs : n ≤ s.length) (ht : n ≤ t.length)
    (h : ∀ j, i ≤ j → j < n → byteAt s j = byteAt t j) : (s.take n).drop i = (t.take n).drop i := by
  apply List.ext_getElem
  · simp
    omega
  · intro k hk hk'
    simp only [List.length_drop, List.length_take] at hk
    have hj := h (i + k) (Nat.le_add_right ..) (by omega)
    simp only [byteAt, List.getD, List.getElem?_eq_getElem (show i + k < s.length by omega),
      List.getElem?_eq_getElem (show i + k < t.length by omega), Option.getD_some] at hj
    simpa using hj

/-- Past a front of known length. -/
theorem take_past {front : Bytes} {n : Nat} (h : front.length = n) (rest : Bytes) (k : Nat) :
    (front ++ rest).take (n + k) = front ++ rest.take k := by
  rw [← h, List.take_length_add_append]

theorem drop_past {front : Bytes} {n : Nat} (h : front.length = n) (rest : Bytes) (k : Nat) :
    (front ++ rest).drop (n + k) = rest.drop k := by
  rw [← h, List.drop_length_add_append]

/-- A string split behind its first `n` octets. -/
theorem split_front {body : Bytes} {n : Nat} (h : n ≤ body.length) :
    ∃ front rest : Bytes, front.length = n ∧ body = front ++ rest :=
  ⟨body.take n, body.drop n, List.length_take_of_le h, (List.take_append_drop n body).symm⟩

theorem eight_octets {front : Bytes} (h : front.length = 8) :
    ∃ b0 b1 b2 b3 b4 b5 b6 b7 : UInt8, front = [b0, b1, b2, b3, b4, b5, b6, b7] := by
  obtain ⟨b0, s, rfl⟩ := List.exists_cons_of_length_eq_add_one h
  obtain ⟨b1, s, rfl⟩ := List.exists_cons_of_length_eq_add_one (Nat.succ.inj h)
  obtain ⟨b2, b3, b4, h⟩ := List.length_eq_three.1 (show (s.take 3).length = 3 by simp at h; simp [h])
  obtain ⟨b5, b6, b7, h'⟩ := List.length_eq_three.1 (show (s.drop 3).length = 3 by simp at *; omega)
  refine ⟨b0, b1, b2, b3, b4, b5, b6, b7, ?_⟩
  rw [← List.take_append_drop 3 s, h, h']
  rfl

theorem byteAt_getElem (s : Bytes) (i : Nat) (h : i < s.length) : byteAt s i = s[i] := by
  simp [byteAt, h]

end Octets
