import Cc2530Zigbee.Octets

/-!
# The CCM construction over a block function

Counter mode with a CBC-MAC, with a length field of two octets: the
authentication blocks, the counter blocks and a sealed message, over any
function on blocks of sixteen octets.
-/
namespace CcmMode

open Octets

abbrev Block := Vector UInt8 16

def xor (a b : Block) : Block := Vector.ofFn fun i => getElem a i (index16_lt i) ^^^ getElem b i (index16_lt i)

def zero : Block := Vector.replicate 16 0

/-- A string cut into blocks, the last one padded with zeros. -/
def blocks (s : Bytes) : List Block := (List.range ((s.length + 15) / 16)).map fun k => fieldAt s (16 * k) 16

/-- Two octets, most significant first. -/
def be16 (n : Nat) : Bytes := [UInt8.ofNat (n / 256), UInt8.ofNat n]

variable (E : Block → Block)

/-- One link of the chain. -/
def chain (mac b : Block) : Block := E (xor b mac)

def cbcMac (bs : List Block) : Block := bs.foldl (chain E) zero

/-- Flags, nonce and a two-octet number in one block. -/
def framed (flags : Nat) (nonce : Vector UInt8 13) (n : Nat) : Block :=
  fieldAt (UInt8.ofNat flags :: nonce.toList ++ be16 n) 0 16

/-- The first authentication block: the flags say whether there is associated
data, how long the tag is and that the length field has two octets. -/
def firstBlock (nonce : Vector UInt8 13) (aad message : Bytes) (tagLength : Nat) : Block :=
  framed ((if aad = [] then 0 else 64) + 8 * ((tagLength - 2) / 2) + 1) nonce message.length

/-- The associated data behind its length, or nothing. -/
def encodeAad (aad : Bytes) : Bytes := if aad = [] then [] else be16 aad.length ++ aad

def authBlocks (nonce : Vector UInt8 13) (aad message : Bytes) (tagLength : Nat) : List Block :=
  firstBlock nonce aad message tagLength :: blocks (encodeAad aad) ++ blocks message

def counterBlock (nonce : Vector UInt8 13) (n : Nat) : Block := framed 1 nonce n

/-- The key stream of the counters from `first` on. -/
def keyStream (nonce : Vector UInt8 13) (first count : Nat) : Bytes :=
  (List.range count).flatMap fun i => (E (counterBlock nonce (first + i))).toList

def mask (s key : Bytes) : Bytes := List.zipWith (· ^^^ ·) s key

/-- The message under the counters from one on. -/
def cipherText (nonce : Vector UInt8 13) (message : Bytes) : Bytes :=
  mask message (keyStream E nonce 1 ((message.length + 15) / 16))

/-- The tag under counter zero. -/
def tag (nonce : Vector UInt8 13) (aad message : Bytes) (tagLength : Nat) : Bytes :=
  mask ((cbcMac E (authBlocks nonce aad message tagLength)).toList.take tagLength)
    (E (counterBlock nonce 0)).toList

def sealMessage (nonce : Vector UInt8 13) (aad message : Bytes) (tagLength : Nat) : Bytes :=
  cipherText E nonce message ++ tag E nonce aad message tagLength

variable {E}

theorem keyStream_length (nonce : Vector UInt8 13) (first count : Nat) :
    (keyStream E nonce first count).length = 16 * count := by
  induction count with
  | zero => rfl
  | succ n ih =>
    rw [keyStream, List.range_succ, List.flatMap_append, List.length_append]
    simp only [keyStream] at ih
    rw [ih]
    simp
    omega

theorem keyStream_succ (nonce : Vector UInt8 13) (first count : Nat) :
    keyStream E nonce first (count + 1) =
      (E (counterBlock nonce first)).toList ++ keyStream E nonce (first + 1) count := by
  rw [keyStream, List.range_succ_eq_map, List.flatMap_cons, List.flatMap_map]
  simp only [keyStream, Nat.add_zero, Nat.add_assoc, Nat.add_comm 1, Nat.succ_eq_add_one]

theorem mask_length (s key : Bytes) (h : s.length ≤ key.length) : (mask s key).length = s.length := by
  simp [mask, h]

/-- Masking twice gives the string back. -/
theorem mask_mask (s key : Bytes) (h : s.length ≤ key.length) : mask (mask s key) key = s := by
  apply List.ext_getElem
  · simp [mask, h]
  · intro k _ _
    simp [mask]

theorem mask_append (s c rest : Bytes) :
    mask s (c ++ rest) = mask (s.take c.length) c ++ mask (s.drop c.length) rest := by
  induction c generalizing s with
  | nil => simp [mask]
  | cons b c ih =>
    cases s with
    | nil => simp [mask]
    | cons a s =>
      have h := ih s
      simp only [mask] at h
      simp [mask, h]

theorem cipherText_length (nonce : Vector UInt8 13) (message : Bytes) :
    (cipherText E nonce message).length = message.length := by
  apply mask_length
  rw [keyStream_length]
  omega

/-- Counter mode is its own inverse. -/
theorem cipherText_cipherText (nonce : Vector UInt8 13) (message : Bytes) :
    cipherText E nonce (cipherText E nonce message) = message := by
  have hl := @cipherText_length E nonce message
  unfold cipherText at hl ⊢
  rw [hl]
  apply mask_mask
  rw [keyStream_length]
  omega

theorem tag_length (nonce : Vector UInt8 13) (aad message : Bytes) (n : Nat) (h : n ≤ 16) :
    (tag E nonce aad message n).length = n := by
  simp [tag, mask, h]

/-! Chaining block by block. -/

/-- A block inside a string does not depend on what follows. -/
theorem fieldAt_append (s t : Bytes) (i n : Nat) (h : i + n ≤ s.length) : fieldAt (s ++ t) i n = fieldAt s i n := by
  ext k hk
  simp only [fieldAt, Vector.getElem_ofFn, byteAt]
  rw [List.getD_append _ _ _ _ (by omega)]

/-- The whole blocks of a string. -/
def wholeBlocks (s : Bytes) : List Block := (List.range (s.length / 16)).map fun k => fieldAt s (16 * k) 16

/-- The octets behind the last whole block, padded with zeros. -/
def lastBlock (s : Bytes) : Block := fieldAt s (16 * (s.length / 16)) 16

theorem wholeBlocks_snoc (s : Bytes) (b : UInt8) :
    wholeBlocks (s ++ [b]) =
      if s.length % 16 = 15 then wholeBlocks s ++ [fieldAt (s ++ [b]) (16 * (s.length / 16)) 16]
      else wholeBlocks s := by
  have hsame : ∀ k ∈ List.range (s.length / 16), fieldAt (s ++ [b]) (16 * k) 16 = fieldAt s (16 * k) 16 := by
    intro k hk
    have := List.mem_range.1 hk
    exact fieldAt_append s [b] _ _ (by omega)
  unfold wholeBlocks
  rw [List.length_append, List.length_singleton]
  split
  · rw [show (s.length + 1) / 16 = s.length / 16 + 1 by omega, List.range_succ, List.map_append,
      List.map_congr_left hsame]
    rfl
  · rw [show (s.length + 1) / 16 = s.length / 16 by omega, List.map_congr_left hsame]

/-- The padded blocks are the whole ones and, when octets are left, the last one. -/
theorem blocks_eq (s : Bytes) :
    blocks s = if s.length % 16 = 0 then wholeBlocks s else wholeBlocks s ++ [lastBlock s] := by
  unfold blocks wholeBlocks lastBlock
  split
  · rw [show (s.length + 15) / 16 = s.length / 16 by omega]
  · rw [show (s.length + 15) / 16 = s.length / 16 + 1 by omega, List.range_succ, List.map_append]
    rfl

theorem cbcMac_append (a b : List Block) : cbcMac E (a ++ b) = b.foldl (chain E) (cbcMac E a) := by
  simp [cbcMac]

end CcmMode
