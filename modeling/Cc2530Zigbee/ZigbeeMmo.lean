import Cc2530Zigbee.BlockHash
import Cc2530Zigbee.KeyHash

/-!
# The hash calls

`zigbee_mmo_hash` and `zigbee_key_hash` with the buffers they write. The encryption
service is a block function whose calls may fail, each with a status of its own.
-/
namespace ZigbeeMmo

open Octets
open CcmStar (Block zeroBlock xor Limits)
open KeyHash (Result mmoMax hashTransport hashLoad hashVerify)

/-- The encryption service: the cipher, and the status and polls of every call. Status 0 is
`AES_OK`. -/
structure Engine where
  cipher : Block → Block → Block
  status : Nat → UInt8
  polls : Nat → UInt32

/-- `zigbee_mmo_info_t`. -/
structure Info where
  polls : UInt32
  blocks : UInt8
  aesStatus : UInt8
  deriving DecidableEq, Repr

/-- Which pointers of a call are null. -/
structure Nulls where
  input : Bool
  output : Bool
  info : Bool
  deriving DecidableEq, Repr

/-- What a call leaves: no failure is `ZIGBEE_MMO_OK`. -/
structure Outcome where
  failure : Option Result
  output : Block
  info : Info
  calls : Nat

/-- The private state of a hash, and the calls of the service so far. -/
structure Hashing where
  hash : Block
  block : Block
  info : Info
  calls : Nat

/-- `compress`: false after a failed call. -/
def compress (e : Engine) (s : Hashing) : Bool × Hashing :=
  let status := e.status s.calls
  let s := { s with
    info := { polls := s.info.polls + e.polls s.calls, blocks := s.info.blocks + 1, aesStatus := status }
    calls := s.calls + 1 }
  if status ≠ 0 then (false, s) else (true, { s with hash := xor (e.cipher s.hash s.block) s.block })

/-- The loop over whole blocks, up to a failure. -/
def absorb (e : Engine) (input : Bytes) : (fuel : Nat) → (offset : Nat) → Hashing → Bool × Nat × Hashing
  | 0, offset, s => (true, offset, s)
  | fuel + 1, offset, s =>
    if input.length - offset ≥ 16 then
      let r := compress e { s with block := fieldAt input offset 16 }
      if r.1 then absorb e input fuel (offset + 16) r.2 else (false, offset, r.2)
    else (true, offset, s)

/-- The last octets and the mark. -/
def marked (input : Bytes) (offset : Nat) : Block :=
  let remaining := input.length - offset
  Vector.ofFn fun i => if i.val < remaining then byteAt input (offset + i) else if i.val = remaining then 0x80 else 0

/-- The length in bits closes a block. -/
def closed (block : Block) (length : Nat) : Block :=
  (block.set 14 (UInt8.ofNat (length >>> 5))).set 15 (UInt8.ofNat (length <<< 3))

/-- The blocks of a message, up to a failure. -/
def hashing (e : Engine) (input : Bytes) (calls : Nat) : Bool × Hashing :=
  let r := absorb e input input.length 0 ⟨zeroBlock, zeroBlock, ⟨0, 0, 0⟩, calls⟩
  if ¬ r.1 then (false, r.2.2)
  else
    let offset := r.2.1
    let s := { r.2.2 with block := marked input offset }
    let r := if input.length - offset ≥ 14 then
      let r := compress e s
      (r.1, { r.2 with block := zeroBlock })
    else (true, s)
    if ¬ r.1 then r else compress e { r.2 with block := closed r.2.block input.length }

/-- `zigbee_mmo_hash`. -/
def mmoHash (e : Engine) (limits : Limits) (nulls : Nulls) (input : Bytes) (output : Block) (info : Info) (calls : Nat) :
    Outcome :=
  if (nulls.input ∧ input.length ≠ 0) ∨ nulls.output ∨ nulls.info ∨ ¬ limits.usable then
    ⟨some .argument, output, info, calls⟩
  else if input.length > mmoMax then ⟨some .length, output, info, calls⟩
  else
    let r := hashing e input calls
    if r.1 then ⟨none, r.2.hash, r.2.info, r.2.calls⟩ else ⟨some .aes, output, r.2.info, r.2.calls⟩

/-- `account`. -/
def account (total step : Info) : Info :=
  { polls := total.polls + step.polls, blocks := total.blocks + step.blocks, aesStatus := step.aesStatus }

/-- `zigbee_key_hash`. The private hash buffer holds the first digest, then the second. -/
def keyHash (e : Engine) (limits : Limits) (nulls : Nulls) (key : Block) (purpose : UInt8) (output : Block) (info : Info)
    (calls : Nat) : Outcome :=
  if nulls.input ∨ nulls.output ∨ nulls.info ∨ ¬ limits.usable ∨
      (purpose ≠ hashTransport ∧ purpose ≠ hashLoad ∧ purpose ≠ hashVerify) then
    ⟨some .argument, output, info, calls⟩
  else
    let step := ⟨0, 0, 0⟩
    let first := mmoHash e limits ⟨false, false, false⟩ (key.toList.map (· ^^^ 0x36) ++ [purpose]) zeroBlock step calls
    let total := account step first.info
    if first.failure ≠ none then ⟨first.failure, output, total, first.calls⟩
    else
      let second := mmoHash e limits ⟨false, false, false⟩ (key.toList.map (· ^^^ 0x5c) ++ first.output.toList)
        first.output first.info first.calls
      ⟨second.failure, if second.failure = none then second.output else output, account total second.info, second.calls⟩

/-! ## The constructions -/

/-- The length of a message in bits, in two octets, the high one first. -/
def bitLength (length : Nat) : Bytes := [UInt8.ofNat (8 * length / 256), UInt8.ofNat (8 * length)]

/-- A block enters a Matyas-Meyer-Oseas hash. -/
def feedBlock (cipher : Block → Block → Block) (hash : Block) (b : Bytes) : Block :=
  xor (cipher hash (fieldAt b 0 16)) (fieldAt b 0 16)

/-- The Matyas-Meyer-Oseas hash from the zero block. -/
def matyasMeyerOseas (cipher : Block → Block → Block) (m : Bytes) : Block :=
  BlockHash.hash 16 0x80 0 bitLength (feedBlock cipher) zeroBlock m

/-- The keyed hash of a purpose octet. -/
def hmac (cipher : Block → Block → Block) (key : Block) (purpose : UInt8) : Block :=
  BlockHash.keyed (matyasMeyerOseas cipher) Vector.toList (· ^^^ 0x36) (· ^^^ 0x5c) key.toList [purpose]

/-! ## The calls compute the constructions -/

/-- What is left of a hash when the first octets are in. -/
def remaining (cipher : Block → Block → Block) (length : Nat) (hash : Block) (rest : Bytes) : Block :=
  (BlockHash.blocks 16 (BlockHash.padded 16 0x80 0 bitLength length rest)).foldl (feedBlock cipher) hash

variable {e : Engine}

theorem compress_hash {s : Hashing} (h : (compress e s).1 = true) :
    (compress e s).2.hash = xor (e.cipher s.hash s.block) s.block := by
  unfold compress at h ⊢
  simp only at h ⊢
  split at h
  · cases h
  next hok => rw [if_neg hok]

theorem compress_ok (hall : ∀ i, e.status i = 0) (s : Hashing) : (compress e s).1 = true := by
  simp [compress, hall]

theorem fieldAt_drop (input : Bytes) (offset : Nat) : fieldAt (input.drop offset) 0 16 = fieldAt input offset 16 := by
  ext i hi
  simp [fieldAt, byteAt]

/-- A whole block of the rest is fed. -/
theorem remaining_step (cipher : Block → Block → Block) (length : Nat) (hash : Block) (input : Bytes) (offset : Nat)
    (h : input.length - offset ≥ 16) :
    remaining cipher length hash (input.drop offset) =
      remaining cipher length (xor (cipher hash (fieldAt input offset 16)) (fieldAt input offset 16))
        (input.drop (offset + 16)) := by
  have hblock : ((input.drop offset).take 16).length = 16 := by
    rw [List.length_take, List.length_drop]
    omega
  have hsplit : input.drop offset = (input.drop offset).take 16 ++ input.drop (offset + 16) := by
    rw [← List.drop_drop, List.take_append_drop]
  have hfield : fieldAt ((input.drop offset).take 16) 0 16 = fieldAt input offset 16 := by
    rw [← fieldAt_drop]
    ext i hi
    simp [fieldAt, byteAt]
  rw [remaining, remaining]
  conv_lhs => rw [hsplit]
  rw [BlockHash.padded_append _ _ _ _ _ _ _ hblock, BlockHash.blocks_append (by decide) _ _ hblock, List.foldl_cons,
    feedBlock, hfield]

theorem absorb_remaining {input : Bytes} {fuel offset offset' : Nat} {s s' : Hashing} (length : Nat)
    (h : absorb e input fuel offset s = (true, offset', s')) (hfuel : input.length - offset ≤ 16 * fuel)
    (hoffset : offset ≤ input.length) :
    offset' ≤ input.length ∧ input.length - offset' < 16 ∧
      remaining e.cipher length s'.hash (input.drop offset') = remaining e.cipher length s.hash (input.drop offset) := by
  induction fuel generalizing offset s with
  | zero =>
    obtain ⟨-, hs⟩ := Prod.mk.inj h
    obtain ⟨rfl, rfl⟩ := Prod.mk.inj hs
    exact ⟨hoffset, by omega, rfl⟩
  | succ fuel ih =>
    simp only [absorb] at h
    split at h
    next hwhole =>
      split at h
      next hok =>
        obtain ⟨hle, hlt, heq⟩ := ih h (by omega) (by omega)
        refine ⟨hle, hlt, ?_⟩
        rw [heq, remaining_step _ _ _ _ _ hwhole, compress_hash hok]
      next => cases h
    next hpart =>
      obtain ⟨-, hs⟩ := Prod.mk.inj h
      obtain ⟨rfl, rfl⟩ := Prod.mk.inj hs
      exact ⟨hoffset, by omega, rfl⟩

theorem absorb_ok (hall : ∀ i, e.status i = 0) (input : Bytes) (fuel offset : Nat) (s : Hashing) :
    (absorb e input fuel offset s).1 = true := by
  induction fuel generalizing offset s with
  | zero => rfl
  | succ fuel ih =>
    simp only [absorb]
    split
    · rw [if_pos (compress_ok hall _)]
      exact ih _ _
    · rfl

theorem byteAt_first {l : Bytes} (s : Bytes) {i : Nat} (h : i < l.length) : byteAt (l ++ s) i = byteAt l i := by
  rw [byteAt, byteAt, List.getD_append _ _ _ _ h]

theorem byteAt_zeros (n : Nat) (s : Bytes) {i : Nat} (h : i < n) : byteAt (List.replicate n 0 ++ s) i = 0 := by
  rw [byteAt_first _ (by simpa using h), byteAt, List.getD_replicate _ h]

/-- The zeros of a rest that is shorter than a block. -/
theorem gap_short {r : Nat} (h : r < 16) : BlockHash.gap 16 2 r = if r < 14 then 13 - r else 29 - r := by
  unfold BlockHash.gap
  split <;> omega

theorem padded_length (length : Nat) {rest : Bytes} (h : rest.length < 16) :
    (BlockHash.padded 16 0x80 0 bitLength length rest).length = if rest.length < 14 then 16 else 32 := by
  simp only [BlockHash.padded, List.length_append, List.length_cons, List.length_replicate]
  rw [show (bitLength length).length = 2 from rfl, gap_short h]
  split <;> omega

/-- The octets of a padded rest that is shorter than a block. -/
theorem padded_octet (length : Nat) {rest : Bytes} (hshort : rest.length < 16) (i : Nat) :
    byteAt (BlockHash.padded 16 0x80 0 bitLength length rest) i =
      if i < rest.length then byteAt rest i
      else if i = rest.length then 0x80
      else if i = (if rest.length < 14 then 14 else 30) then UInt8.ofNat (8 * length / 256)
      else if i = (if rest.length < 14 then 15 else 31) then UInt8.ofNat (8 * length)
      else 0 := by
  have hgap := gap_short hshort
  rw [BlockHash.padded, show (bitLength length).length = 2 from rfl, hgap]
  by_cases hmessage : i < rest.length
  · rw [if_pos hmessage, byteAt_first _ hmessage]
  rw [if_neg hmessage, byteAt_skip _ _ _ (by omega)]
  by_cases hmark : i = rest.length
  · rw [if_pos hmark, hmark, Nat.sub_self, byteAt_here]
  obtain ⟨k, hk⟩ : ∃ k, i - rest.length = k + 1 := ⟨i - rest.length - 1, by omega⟩
  rw [if_neg hmark, hk, byteAt_cons]
  generalize hn : (if rest.length < 14 then 13 - rest.length else 29 - rest.length) = n
  by_cases hzero : k < n
  · rw [byteAt_zeros _ _ hzero, if_neg (by split at hn <;> split <;> omega), if_neg (by split at hn <;> split <;> omega)]
  rw [byteAt_skip _ _ _ (by simpa using hzero), List.length_replicate]
  by_cases hhigh : k = n
  · rw [if_pos (by split at hn <;> split <;> omega), hhigh, Nat.sub_self]
    rfl
  rw [if_neg (by split at hn <;> split <;> omega)]
  by_cases hlow : k = n + 1
  · rw [if_pos (by split at hn <;> split <;> omega), hlow, Nat.add_sub_cancel_left]
    rfl
  · rw [if_neg (by split at hn <;> split <;> omega), byteAt_past _ _ (by simp [bitLength]; omega)]

theorem shift_high (length : Nat) : UInt8.ofNat (length >>> 5) = UInt8.ofNat (8 * length / 256) := by
  congr 1
  rw [Nat.shiftRight_eq_div_pow]
  omega

theorem shift_low (length : Nat) : UInt8.ofNat (length <<< 3) = UInt8.ofNat (8 * length) := by
  congr 1
  rw [Nat.shiftLeft_eq]
  omega

theorem byteAt_drop (input : Bytes) (offset i : Nat) : byteAt (input.drop offset) i = byteAt input (offset + i) := by
  simp [byteAt]

/-- A rest that leaves room for the length is one block. -/
theorem last_block (length : Nat) (input : Bytes) (offset : Nat) (h : input.length - offset < 14) :
    fieldAt (BlockHash.padded 16 0x80 0 bitLength length (input.drop offset)) 0 16 = closed (marked input offset) length := by
  ext i hi
  rw [closed, fieldAt, Vector.getElem_ofFn, Nat.zero_add, padded_octet _ (by rw [List.length_drop]; omega),
    List.length_drop, if_pos h, if_pos h, byteAt_drop]
  simp only [Vector.getElem_set, marked, Vector.getElem_ofFn, shift_high, shift_low]
  by_cases hlow : i = 15
  · rw [if_neg (by omega), if_neg (by omega), if_neg (by omega), if_pos hlow, if_pos hlow.symm]
  rw [if_neg (Ne.symm hlow)]
  by_cases hhigh : i = 14
  · rw [if_neg (by omega), if_neg (by omega), if_pos hhigh, if_pos hhigh.symm]
  rw [if_neg (Ne.symm hhigh), if_neg hhigh, if_neg hlow]

/-- A longer rest fills a block without the length. -/
theorem marked_block (length : Nat) (input : Bytes) (offset : Nat) (h : 14 ≤ input.length - offset)
    (hshort : input.length - offset < 16) :
    fieldAt (BlockHash.padded 16 0x80 0 bitLength length (input.drop offset)) 0 16 = marked input offset := by
  ext i hi
  rw [marked, fieldAt, Vector.getElem_ofFn, Nat.zero_add, padded_octet _ (by rw [List.length_drop]; omega),
    List.length_drop, Vector.getElem_ofFn, byteAt_drop]
  simp only [if_neg (show ¬ input.length - offset < 14 by omega), if_neg (show i ≠ 30 by omega),
    if_neg (show i ≠ 31 by omega)]

/-- The length of a longer rest has a block of its own. -/
theorem length_block (length : Nat) (input : Bytes) (offset : Nat) (h : 14 ≤ input.length - offset)
    (hshort : input.length - offset < 16) :
    fieldAt (BlockHash.padded 16 0x80 0 bitLength length (input.drop offset)) 16 16 = closed zeroBlock length := by
  ext i hi
  rw [closed, fieldAt, Vector.getElem_ofFn, padded_octet _ (by rw [List.length_drop]; omega), List.length_drop,
    if_neg (show ¬ 16 + i < input.length - offset by omega), if_neg (show 16 + i ≠ input.length - offset by omega)]
  simp only [if_neg (show ¬ input.length - offset < 14 by omega), Vector.getElem_set, shift_high, shift_low, zeroBlock]
  by_cases hlow : i = 15
  · rw [if_neg (by omega), if_pos (by omega), if_pos hlow.symm]
  by_cases hhigh : i = 14
  · rw [if_pos (by omega), if_neg (by omega), if_pos hhigh.symm]
  · rw [if_neg (by omega), if_neg (by omega), if_neg (by omega), if_neg (by omega), Vector.getElem_replicate]

theorem remaining_last (cipher : Block → Block → Block) (length : Nat) (hash : Block) (input : Bytes) (offset : Nat)
    (h : input.length - offset < 14) :
    remaining cipher length hash (input.drop offset) =
      xor (cipher hash (closed (marked input offset) length)) (closed (marked input offset) length) := by
  have hsize := padded_length length (show (input.drop offset).length < 16 by rw [List.length_drop]; omega)
  rw [List.length_drop, if_pos h] at hsize
  rw [remaining, BlockHash.blocks_single (by decide) _ hsize, List.foldl_cons, List.foldl_nil, feedBlock,
    last_block _ _ _ h]

theorem fieldAt_take (s : Bytes) (n : Nat) : fieldAt (s.take n) 0 n = fieldAt s 0 n := by
  ext i hi
  simp [fieldAt, byteAt]

theorem remaining_spill (cipher : Block → Block → Block) (length : Nat) (hash : Block) (input : Bytes) (offset : Nat)
    (h : 14 ≤ input.length - offset) (hshort : input.length - offset < 16) :
    remaining cipher length hash (input.drop offset) =
      xor (cipher (xor (cipher hash (marked input offset)) (marked input offset)) (closed zeroBlock length))
        (closed zeroBlock length) := by
  have hsize := padded_length length (show (input.drop offset).length < 16 by rw [List.length_drop]; omega)
  have hmarked := marked_block length input offset h hshort
  have hlength := length_block length input offset h hshort
  rw [List.length_drop, if_neg (by omega)] at hsize
  rw [remaining]
  generalize BlockHash.padded 16 0x80 0 bitLength length (input.drop offset) = p at *
  have hfirst : (p.take 16).length = 16 := by rw [List.length_take, hsize]; rfl
  have hsecond : (p.drop 16).length = 16 := by rw [List.length_drop, hsize]
  rw [← List.take_append_drop 16 p, BlockHash.blocks_append (by decide) _ _ hfirst,
    BlockHash.blocks_single (by decide) _ hsecond, List.foldl_cons, List.foldl_cons, List.foldl_nil, feedBlock, feedBlock,
    fieldAt_take, hmarked, fieldAt_drop, hlength]

/-- A hash whose calls all succeed is the construction. -/
theorem hashing_hash {input : Bytes} {calls : Nat} (h : (hashing e input calls).1 = true) :
    (hashing e input calls).2.hash = matyasMeyerOseas e.cipher input := by
  unfold hashing at h ⊢
  generalize hread : absorb e input input.length 0 ⟨zeroBlock, zeroBlock, ⟨0, 0, 0⟩, calls⟩ = r at h ⊢
  obtain ⟨ok, offset, s⟩ := r
  cases ok with
  | false => simp at h
  | true =>
    simp only [not_true_eq_false, if_false] at h ⊢
    obtain ⟨-, hshort, hrest⟩ := absorb_remaining input.length hread (by omega) (Nat.zero_le _)
    have hwhole : matyasMeyerOseas e.cipher input = remaining e.cipher input.length s.hash (input.drop offset) := hrest.symm
    rw [hwhole]
    by_cases hspill : input.length - offset ≥ 14
    · simp only [if_pos hspill] at h ⊢
      split at h
      next hfail => exact absurd h hfail
      next hok =>
        rw [if_neg hok, compress_hash h, compress_hash (Bool.eq_true_of_not_eq_false (by simpa using hok)),
          remaining_spill _ _ _ _ _ hspill hshort]
    · simp only [if_neg hspill, not_true_eq_false, if_false] at h ⊢
      rw [compress_hash h, remaining_last _ _ _ _ _ (by omega)]

theorem hashing_ok (hall : ∀ i, e.status i = 0) (input : Bytes) (calls : Nat) : (hashing e input calls).1 = true := by
  unfold hashing
  simp only [absorb_ok hall, not_true_eq_false, if_false]
  split
  · simp only [compress_ok hall, not_true_eq_false, if_false]
  · simp only [compress_ok hall, not_true_eq_false, if_false]

/-- What a call of `zigbee_mmo_hash` leaves. -/
theorem mmoHash_cases (e : Engine) (limits : Limits) (nulls : Nulls) (input : Bytes) (output : Block) (info : Info)
    (calls : Nat) :
    ((mmoHash e limits nulls input output info calls).failure = none ∧
      (mmoHash e limits nulls input output info calls).output = matyasMeyerOseas e.cipher input) ∨
    ((mmoHash e limits nulls input output info calls).failure ≠ none ∧
      (mmoHash e limits nulls input output info calls).output = output) := by
  unfold mmoHash
  split
  · exact .inr ⟨nofun, rfl⟩
  split
  · exact .inr ⟨nofun, rfl⟩
  simp only
  split
  next hok => exact .inl ⟨rfl, hashing_hash hok⟩
  next => exact .inr ⟨nofun, rfl⟩

theorem mmoHash_ok (hall : ∀ i, e.status i = 0) {limits : Limits} (hlimits : limits.usable = true) {nulls : Nulls}
    {input : Bytes} (hin : nulls.input = true → input.length = 0) (hout : nulls.output = false) (hinfo : nulls.info = false)
    (hlength : input.length ≤ mmoMax) (output : Block) (info : Info) (calls : Nat) :
    (mmoHash e limits nulls input output info calls).failure = none := by
  unfold mmoHash
  rw [if_neg (by simp only [hout, hinfo, hlimits]; tauto), if_neg (by omega)]
  simp only [hashing_ok hall, if_true]

theorem keyHash_cases (e : Engine) (limits : Limits) (nulls : Nulls) (key : Block) (purpose : UInt8) (output : Block)
    (info : Info) (calls : Nat) :
    ((keyHash e limits nulls key purpose output info calls).failure = none ∧
      (keyHash e limits nulls key purpose output info calls).output = hmac e.cipher key purpose) ∨
    ((keyHash e limits nulls key purpose output info calls).failure ≠ none ∧
      (keyHash e limits nulls key purpose output info calls).output = output) := by
  unfold keyHash
  split
  · exact .inr ⟨nofun, rfl⟩
  simp only
  obtain ⟨hfirst, hdigest⟩ | ⟨hfirst, -⟩ := mmoHash_cases e limits ⟨false, false, false⟩
    (key.toList.map (· ^^^ 0x36) ++ [purpose]) zeroBlock ⟨0, 0, 0⟩ calls
  · rw [if_neg (not_not_intro hfirst)]
    obtain ⟨hsecond, hkeyed⟩ | ⟨hsecond, -⟩ := mmoHash_cases e limits ⟨false, false, false⟩
      (key.toList.map (· ^^^ 0x5c) ++
        (mmoHash e limits ⟨false, false, false⟩ (key.toList.map (· ^^^ 0x36) ++ [purpose]) zeroBlock ⟨0, 0, 0⟩
          calls).output.toList)
      (mmoHash e limits ⟨false, false, false⟩ (key.toList.map (· ^^^ 0x36) ++ [purpose]) zeroBlock ⟨0, 0, 0⟩ calls).output
      (mmoHash e limits ⟨false, false, false⟩ (key.toList.map (· ^^^ 0x36) ++ [purpose]) zeroBlock ⟨0, 0, 0⟩ calls).info
      (mmoHash e limits ⟨false, false, false⟩ (key.toList.map (· ^^^ 0x36) ++ [purpose]) zeroBlock ⟨0, 0, 0⟩ calls).calls
    · refine .inl ⟨hsecond, ?_⟩
      simp only [if_pos hsecond]
      rw [hkeyed, hdigest]
      rfl
    · refine .inr ⟨hsecond, ?_⟩
      simp only [if_neg hsecond]
  · rw [if_pos hfirst]
    exact .inr ⟨hfirst, rfl⟩

theorem keyHash_ok (hall : ∀ i, e.status i = 0) {limits : Limits} (hlimits : limits.usable = true) {purpose : UInt8}
    (hpurpose : purpose = hashTransport ∨ purpose = hashLoad ∨ purpose = hashVerify) (key output : Block) (info : Info)
    (calls : Nat) :
    (keyHash e limits ⟨false, false, false⟩ key purpose output info calls).failure = none := by
  have hsize : ∀ (input : Bytes) (output : Block) (info : Info) (calls : Nat), input.length ≤ mmoMax →
      (mmoHash e limits ⟨false, false, false⟩ input output info calls).failure = none := fun input output info calls h =>
    mmoHash_ok hall hlimits (fun hnull => absurd hnull Bool.false_ne_true) rfl rfl h output info calls
  unfold keyHash
  rw [if_neg (by simp only [hlimits]; tauto)]
  simp only
  rw [if_neg (not_not_intro (hsize _ _ _ _ (by simp [mmoMax])))]
  exact hsize _ _ _ _ (by simp [mmoMax])

/-- A call that succeeds leaves the construction, one that fails leaves the output as it was, and
only bad arguments or the encryption service make a call fail. -/
theorem hash_constructions (e : Engine) (limits : Limits) (nulls : Nulls) (input : Bytes) (key : Block) (purpose : UInt8)
    (output : Block) (info : Info) (calls : Nat) :
    ((mmoHash e limits nulls input output info calls).output =
      if (mmoHash e limits nulls input output info calls).failure = none then matyasMeyerOseas e.cipher input else output) ∧
    ((keyHash e limits nulls key purpose output info calls).output =
      if (keyHash e limits nulls key purpose output info calls).failure = none then hmac e.cipher key purpose else output) ∧
    ((∀ i, e.status i = 0) → limits.usable = true → nulls.output = false → nulls.info = false →
      ((nulls.input = true → input.length = 0) → input.length ≤ mmoMax →
        (mmoHash e limits nulls input output info calls).failure = none) ∧
      (nulls.input = false → purpose = hashTransport ∨ purpose = hashLoad ∨ purpose = hashVerify →
        (keyHash e limits nulls key purpose output info calls).failure = none)) := by
  refine ⟨?_, ?_, fun hall hlimits hout hinfo => ⟨fun hin hlength => ?_, fun hin hpurpose => ?_⟩⟩
  · obtain ⟨h, hval⟩ | ⟨h, hval⟩ := mmoHash_cases e limits nulls input output info calls
    · rw [if_pos h, hval]
    · rw [if_neg h, hval]
  · obtain ⟨h, hval⟩ | ⟨h, hval⟩ := keyHash_cases e limits nulls key purpose output info calls
    · rw [if_pos h, hval]
    · rw [if_neg h, hval]
  · exact mmoHash_ok hall hlimits hin hout hinfo hlength output info calls
  · obtain rfl : nulls = ⟨false, false, false⟩ := by cases nulls; simp_all
    exact keyHash_ok hall hlimits hpurpose key output info calls

/-- Fifteen octets need a block for their length. -/
theorem hash_constructions_spill :
    (mmoHash ⟨xor, fun _ => 0, fun _ => 1⟩ ⟨1, 1⟩ ⟨false, false, false⟩ (List.replicate 15 7) zeroBlock ⟨0, 0, 0⟩ 0).failure
      = none :=
  ((hash_constructions ⟨xor, fun _ => 0, fun _ => 1⟩ ⟨1, 1⟩ ⟨false, false, false⟩ (List.replicate 15 7) zeroBlock 0
    zeroBlock ⟨0, 0, 0⟩ 0).2.2 (fun _ => rfl) rfl rfl rfl).1 (fun h => absurd h Bool.false_ne_true) (by decide)

end ZigbeeMmo
