import Cc2530Zigbee.CcmMode
import Cc2530Zigbee.CcmStar

/-!
# `ccm_star_crypt` is CCM

The authentication loop feeds one octet at a time into one buffer, with the
length prefix of the associated data already in it. What it has absorbed after
any number of octets is the chain over the whole blocks, with the rest in the
buffer. From there sealing is the construction, opening undoes it, and a
changed tag is refused.
-/
namespace CcmStar

open Octets
open CcmMode (chain wholeBlocks lastBlock blocks_eq wholeBlocks_snoc)

/-- A block function as a cipher that never refuses. -/
def cipher (E : Block → Block → Block) : Aes := fun key b => some (E key b)

variable {E : Block → Block → Block} {key mac0 : Block} {nonce : Vector UInt8 13}

theorem flush_cipher (s : Mac) : flush (cipher E) key s = some ⟨chain (E key) s.mac s.block, zeroBlock, 0⟩ := rfl

/-- The loop has absorbed the octets `u` after the chain value `mac0`. -/
structure Absorbed (f : Block → Block) (mac0 : Block) (u : Bytes) (s : Mac) : Prop where
  mac : s.mac = (wholeBlocks u).foldl (chain f) mac0
  block : s.block = lastBlock u
  position : s.position = u.length % 16

theorem lastBlock_nil : lastBlock [] = zeroBlock := by
  ext k hk
  simp [lastBlock, fieldAt, byteAt, zeroBlock]

/-- Nothing is left over after whole blocks. -/
theorem lastBlock_whole (u : Bytes) (h : u.length % 16 = 0) : lastBlock u = zeroBlock := by
  rw [lastBlock, fieldAt_past _ _ _ (by omega)]
  rfl

/-- One more octet in the buffer. -/
theorem lastBlock_set (u : Bytes) (b : UInt8) :
    (lastBlock u).setIfInBounds (u.length % 16) b = fieldAt (u ++ [b]) (16 * (u.length / 16)) 16 := by
  have hm : 16 * (u.length / 16) + u.length % 16 = u.length := Nat.div_add_mod u.length 16
  ext k hk
  simp only [Vector.getElem_setIfInBounds, lastBlock, fieldAt, Vector.getElem_ofFn, byteAt]
  split
  · rename_i he
    subst he
    rw [hm, List.getD_append_right _ _ _ _ (le_refl _), Nat.sub_self]
    rfl
  · by_cases hlt : 16 * (u.length / 16) + k < u.length
    · rw [List.getD_append _ _ _ _ hlt]
    · rw [List.getD_append_right _ _ _ _ (by omega), List.getD_eq_default _ _ (by omega),
        List.getD_eq_default _ _ (by simp; omega)]

theorem feed_absorbs (data u : Bytes) (s : Mac) (h : Absorbed (E key) mac0 u s) :
    ∃ s', feed (cipher E) key s data = some s' ∧ Absorbed (E key) mac0 (u ++ data) s' := by
  induction data generalizing s u with
  | nil => exact ⟨s, rfl, by simpa using h⟩
  | cons b data ih =>
    have hset : s.block.setIfInBounds s.position b = fieldAt (u ++ [b]) (16 * (u.length / 16)) 16 := by
      rw [h.block, h.position, lastBlock_set]
    have hwhole := wholeBlocks_snoc u b
    rw [show u ++ b :: data = (u ++ [b]) ++ data by simp]
    simp only [feed, hset]
    split
    · -- The buffer is full: the block joins the chain.
      rename_i hfull
      rw [h.position] at hfull
      rw [flush_cipher]
      simp only
      apply ih
      rw [if_pos (by omega)] at hwhole
      refine ⟨?_, (lastBlock_whole _ (by simp; omega)).symm, by simp; omega⟩
      rw [hwhole, List.foldl_append, h.mac]
      rfl
    · rename_i hfree
      rw [h.position] at hfree
      apply ih
      rw [if_neg (by omega)] at hwhole
      have hdiv : (u ++ [b]).length / 16 = u.length / 16 := by simp; omega
      refine ⟨by rw [hwhole]; exact h.mac, by rw [lastBlock, hdiv], ?_⟩
      simp only [h.position, List.length_append, List.length_singleton]
      omega

/-- What is left over is chained with its padding. -/
theorem settle_absorbed {u : Bytes} {s : Mac} (h : Absorbed (E key) mac0 u s) :
    settle (cipher E) key s = some ⟨(CcmMode.blocks u).foldl (chain (E key)) mac0, zeroBlock, 0⟩ := by
  unfold settle
  rw [blocks_eq]
  split
  · rename_i hp
    rw [h.position] at hp
    rw [if_neg hp, flush_cipher, List.foldl_append, h.mac, h.block]
    rfl
  · rename_i hp
    have hz : u.length % 16 = 0 := by
      rw [← h.position]
      simpa using hp
    have hs : s = ⟨s.mac, zeroBlock, 0⟩ := by
      rw [← lastBlock_whole u hz, ← h.block, ← hz, ← h.position]
    rw [if_pos hz, ← h.mac]
    exact congrArg some hs

theorem feed_settle (data u : Bytes) (s : Mac) (h : Absorbed (E key) mac0 u s) :
    (feed (cipher E) key s data).bind (settle (cipher E) key) =
      some ⟨(CcmMode.blocks (u ++ data)).foldl (chain (E key)) mac0, zeroBlock, 0⟩ := by
  obtain ⟨s', hs', ha⟩ := feed_absorbs data u s h
  rw [hs', Option.bind_some, settle_absorbed ha]

theorem absorbed_start (mac0 : Block) (f : Block → Block) : Absorbed f mac0 [] ⟨mac0, zeroBlock, 0⟩ :=
  ⟨rfl, lastBlock_nil.symm, rfl⟩

/-- The length prefix stands in the buffer before the first octet. -/
theorem absorbed_first (mac0 : Block) (f : Block → Block) (n : Nat) (h : n < 256) :
    Absorbed f mac0 (CcmMode.be16 n) ⟨mac0, zeroBlock.setIfInBounds 1 (UInt8.ofNat n), 2⟩ := by
  refine ⟨by simp [wholeBlocks, CcmMode.be16], ?_, rfl⟩
  have h0 : UInt8.ofNat (n / 256) = 0 := by rw [Nat.div_eq_of_lt h]; rfl
  ext k hk
  simp only [CcmMode.be16, h0, lastBlock, fieldAt, byteAt, zeroBlock, Vector.getElem_setIfInBounds,
    Vector.getElem_ofFn]
  obtain _ | _ | k := k
  · simp
  · simp
  · simp

theorem nonceBlock_framed (flags n : Nat) (h : n < 256) :
    nonceBlock (UInt8.ofNat flags) nonce (UInt8.ofNat n) = CcmMode.framed flags nonce n := by
  have h0 : UInt8.ofNat (n / 256) = 0 := by rw [Nat.div_eq_of_lt h]; rfl
  ext k hk
  simp only [nonceBlock, CcmMode.framed, CcmMode.be16, h0, fieldAt, Vector.getElem_ofFn, byteAt, Nat.zero_add,
    List.cons_append]
  obtain _ | k := k
  · rfl
  · rw [dif_neg (by omega), List.getD_cons_succ]
    by_cases hn : k < 13
    · rw [dif_pos (by omega), List.getD_append _ _ _ _ (by simpa using hn)]
      simp [hn]
    · rw [dif_neg (by omega), List.getD_append_right _ _ _ _ (by simp; omega)]
      obtain rfl | rfl : k = 13 ∨ k = 14 := by omega
      · simp
      · simp

/-- The tag lengths of the module. -/
def TagLength (n : Nat) : Prop := n = 4 ∨ n = 8 ∨ n = 16

theorem flags_eq (aad : Bytes) (n : Nat) (h : TagLength n) :
    UInt8.ofNat (1 + 8 * ((n - 2) / 2)) ||| (if aad.length ≠ 0 then 0x40 else 0) =
      UInt8.ofNat ((if aad = [] then 0 else 64) + 8 * ((n - 2) / 2) + 1) := by
  by_cases ha : aad = []
  · obtain rfl | rfl | rfl := h <;> simp [ha]
  · have hl : aad.length ≠ 0 := by simpa using ha
    obtain rfl | rfl | rfl := h <;> simp only [if_neg ha, if_pos hl] <;> decide

/-- The authentication loop computes the chain over all authentication blocks. -/
theorem authenticate_eq (aad message : Bytes) (n : Nat) (hn : TagLength n) (ha : aad.length ≤ maxAad)
    (hm : message.length ≤ maxMessage) :
    ∃ s, authenticate (cipher E) key nonce aad message n = some s ∧
      s.mac = CcmMode.cbcMac (E key) (CcmMode.authBlocks nonce aad message n) := by
  unfold maxAad at ha
  unfold maxMessage at hm
  have hfirst : nonceBlock (UInt8.ofNat (1 + 8 * ((n - 2) / 2)) ||| (if aad.length ≠ 0 then 0x40 else 0)) nonce
      (UInt8.ofNat message.length) = CcmMode.firstBlock nonce aad message n := by
    rw [flags_eq aad n hn, nonceBlock_framed _ _ (by omega)]
    rfl
  unfold authenticate
  simp only [hfirst, flush_cipher]
  generalize hc : chain (E key) zeroBlock (CcmMode.firstBlock nonce aad message n) = mac0
  have hstart : CcmMode.cbcMac (E key) (CcmMode.authBlocks nonce aad message n) =
      (CcmMode.blocks message).foldl (chain (E key))
        ((CcmMode.blocks (CcmMode.encodeAad aad)).foldl (chain (E key)) mac0) := by
    rw [← hc, CcmMode.authBlocks, CcmMode.cbcMac, List.foldl_append, List.foldl_cons]
    rfl
  by_cases hz : aad.length ≠ 0
  · have hne : aad ≠ [] := fun he => hz (by rw [he]; rfl)
    rw [if_pos hz, feed_settle aad _ _ (absorbed_first mac0 (E key) aad.length (by omega))]
    simp only
    rw [feed_settle message [] _ (absorbed_start _ (E key))]
    exact ⟨_, rfl, by rw [hstart, CcmMode.encodeAad, if_neg hne, List.nil_append]⟩
  · have hnil : aad = [] := by simpa using hz
    rw [if_neg hz]
    simp only
    rw [feed_settle message [] _ (absorbed_start _ (E key))]
    exact ⟨_, rfl, by rw [hstart, CcmMode.encodeAad, if_pos hnil, List.nil_append]; rfl⟩

theorem counter_eq (n : Nat) (h : n < 256) :
    counter (cipher E) key nonce (UInt8.ofNat n) = some (E key (CcmMode.counterBlock nonce n)) := by
  rw [counter, CcmMode.counterBlock, ← nonceBlock_framed 1 n h]
  rfl

/-- The transform masks with the key stream from its block number on. -/
theorem transform_eq (count first : Nat) (work : Bytes) (hw : work.length ≤ 16 * count)
    (hn : first + count ≤ 256) :
    transform (cipher E) key nonce count (UInt8.ofNat first) work =
      some (CcmMode.mask work (CcmMode.keyStream (E key) nonce first count)) := by
  induction count generalizing first work with
  | zero =>
    have hnil : work = [] := by
      rw [← List.length_eq_zero_iff]
      omega
    rw [hnil]
    rfl
  | succ count ih =>
    rw [transform]
    split
    · rename_i hnil
      rw [hnil]
      rfl
    · rw [counter_eq first (by omega)]
      have hnext : UInt8.ofNat first + 1 = UInt8.ofNat (first + 1) := by simp
      simp only [hnext]
      rw [ih (first + 1) (work.drop 16) (by simp; omega) (by omega), CcmMode.keyStream_succ,
        CcmMode.mask_append, Vector.length_toList]
      rfl

theorem transform_cipherText (work : Bytes) (h : work.length ≤ maxMessage) :
    transform (cipher E) key nonce (blocks work) 1 work = some (CcmMode.cipherText (E key) nonce work) := by
  unfold maxMessage at h
  exact transform_eq (blocks work) 1 work (by unfold blocks; omega) (by unfold blocks; omega)

/-- The tag as the code masks it. -/
theorem masked_tag (m c : Block) (n : Nat) : (xor m c).toList.take n = CcmMode.mask (m.toList.take n) c.toList := by
  apply List.ext_getElem
  · simp [CcmMode.mask]
  · intro k hk _
    simp [CcmMode.mask, xor]

/-- Sealing is the construction. -/
theorem crypt_seal (aad message : Bytes) (n capacity : Nat) (limits : Limits) (hu : limits.usable = true)
    (hn : TagLength n) (ha : aad.length ≤ maxAad) (hm : message.length ≤ maxMessage)
    (hc : message.length + n ≤ capacity) :
    crypt (cipher E) false key nonce aad message n capacity limits =
      .ok (CcmMode.sealMessage (E key) nonce aad message n) := by
  obtain ⟨s, hs, hmac⟩ := @authenticate_eq E key nonce aad message n hn ha hm
  have ht : ¬ (n ≠ 4 ∧ n ≠ 8 ∧ n ≠ 16) := by
    obtain rfl | rfl | rfl := hn <;> simp
  have h0 : counter (cipher E) key nonce 0 = some (E key (CcmMode.counterBlock nonce 0)) := counter_eq 0 (by omega)
  unfold crypt
  simp only [hu, Bool.not_true, Bool.false_eq_true, if_false, if_neg ht, false_and, false_or, Nat.sub_zero,
    Nat.add_zero, List.take_length, if_neg (show ¬ (maxAad < aad.length ∨ maxMessage < message.length) by omega),
    if_neg (show ¬ capacity < message.length + n by omega), hs, h0, transform_cipherText message hm, masked_tag, hmac]
  rfl

/-- Opening recovers a message and accepts exactly its own tag. -/
theorem crypt_open (aad message t : Bytes) (n capacity : Nat) (limits : Limits) (hu : limits.usable = true)
    (hn : TagLength n) (ha : aad.length ≤ maxAad) (hm : message.length ≤ maxMessage)
    (hc : message.length ≤ capacity) (ht : t.length = n) :
    crypt (cipher E) true key nonce aad (CcmMode.cipherText (E key) nonce message ++ t) n capacity limits =
      if CcmMode.tag (E key) nonce aad message n = t then .ok message else .error .auth := by
  obtain ⟨s, hs, hmac⟩ := @authenticate_eq E key nonce aad message n hn ha hm
  have htag : ¬ (n ≠ 4 ∧ n ≠ 8 ∧ n ≠ 16) := by
    obtain rfl | rfl | rfl := hn <;> simp
  have h0 : counter (cipher E) key nonce 0 = some (E key (CcmMode.counterBlock nonce 0)) := counter_eq 0 (by omega)
  have hlen := @CcmMode.cipherText_length (E key) nonce message
  have hsize : (CcmMode.cipherText (E key) nonce message ++ t).length - n = message.length := by
    rw [List.length_append, hlen, ht]
    omega
  have htake : (CcmMode.cipherText (E key) nonce message ++ t).take message.length =
      CcmMode.cipherText (E key) nonce message := by
    rw [← hlen, List.take_left']
    rfl
  have hdrop : ((CcmMode.cipherText (E key) nonce message ++ t).drop message.length).take n = t := by
    rw [← hlen, List.drop_left', ← ht, List.take_length]
    rfl
  have hlong : ¬ (maxAad < aad.length ∨
      (CcmMode.cipherText (E key) nonce message ++ t).length < n ∨
      maxMessage + n < (CcmMode.cipherText (E key) nonce message ++ t).length) := by
    rw [List.length_append, hlen, ht]
    omega
  unfold crypt
  simp only [hu, Bool.not_true, Bool.false_eq_true, if_false, if_neg htag, true_and, if_true, if_neg hlong, hsize,
    Nat.add_zero, if_neg (show ¬ capacity < message.length by omega), htake,
    transform_cipherText _ (show (CcmMode.cipherText (E key) nonce message).length ≤ maxMessage by rw [hlen]; exact hm),
    CcmMode.cipherText_cipherText, hs, h0, masked_tag, hmac, hdrop]
  by_cases he : CcmMode.tag (E key) nonce aad message n = t
  · rw [if_pos he]
    exact if_neg (not_not_intro he)
  · rw [if_neg he]
    exact if_pos he

/-- For every block function, within the module's limits: sealing is the CCM
construction, opening a sealed message gives it back, and opening with any
other tag is an authentication error that publishes nothing. -/
theorem crypt_correct (E : Block → Block → Block) (key : Block) (nonce : Vector UInt8 13) (aad message : Bytes)
    (n sealing opening : Nat) (limits : Limits) (hu : limits.usable = true) (hn : TagLength n)
    (ha : aad.length ≤ maxAad) (hm : message.length ≤ maxMessage) (hs : message.length + n ≤ sealing)
    (ho : message.length ≤ opening) :
    crypt (cipher E) false key nonce aad message n sealing limits =
      .ok (CcmMode.sealMessage (E key) nonce aad message n) ∧
    crypt (cipher E) true key nonce aad (CcmMode.sealMessage (E key) nonce aad message n) n opening limits =
      .ok message ∧
    ∀ t : Bytes, t.length = n → t ≠ CcmMode.tag (E key) nonce aad message n →
      crypt (cipher E) true key nonce aad (CcmMode.cipherText (E key) nonce message ++ t) n opening limits =
        .error .auth := by
  have h16 : n ≤ 16 := by obtain rfl | rfl | rfl := hn <;> omega
  refine ⟨crypt_seal aad message n sealing limits hu hn ha hm hs, ?_, fun t ht hne => ?_⟩
  · rw [CcmMode.sealMessage, crypt_open aad message _ n opening limits hu hn ha hm ho (CcmMode.tag_length _ _ _ _ h16),
      if_pos rfl]
  · rw [crypt_open aad message t n opening limits hu hn ha hm ho ht, if_neg (Ne.symm hne)]

/-- Three octets behind one octet of associated data, with a short tag. -/
theorem crypt_correct_sample :
    (⟨1, 1⟩ : Limits).usable = true ∧ TagLength 4 ∧
    crypt (cipher xor) true zeroBlock (Vector.replicate 13 7) [9]
      (CcmMode.sealMessage (xor zeroBlock) (Vector.replicate 13 7) [9] [1, 2, 3] 4) 4 3 ⟨1, 1⟩ = .ok [1, 2, 3] := by
  have hu : (⟨1, 1⟩ : Limits).usable = true := by decide
  have hn : TagLength 4 := .inl rfl
  exact ⟨hu, hn, (crypt_correct xor zeroBlock (Vector.replicate 13 7) [9] [1, 2, 3] 4 7 3 ⟨1, 1⟩ hu hn (by decide)
    (by decide) (by decide) (by decide)).2.1⟩

end CcmStar
