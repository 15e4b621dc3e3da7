import Cc2530Zigbee.Octets

/-!
# CCM* over a block function

The block function is a parameter; it may refuse a block, as the hardware may.
The authentication loop feeds one octet at a time and flushes full blocks.
-/
namespace CcmStar

open Octets

abbrev Block := Vector UInt8 16

/-- `aes128_encrypt_block`: a key, a block, and the cipher text unless the
hardware reports an error. -/
abbrev Aes := Block → Block → Option Block

structure Limits where
  blockTimeout : UInt32
  blockPolls : UInt16
  deriving DecidableEq

def halfRange : UInt32 := 0x00800000

/-- The bounds every block operation needs. -/
def Limits.usable (l : Limits) : Bool := l.blockTimeout != 0 && l.blockTimeout < halfRange && l.blockPolls != 0

/-- How a call can fail. -/
inductive Result where
  | argument | length | tag | space | aes | auth
  deriving DecidableEq, Repr

def maxAad : Nat := 132
def maxMessage : Nat := 116

def zeroBlock : Block := Vector.replicate 16 0

def xor (a b : Block) : Block := Vector.ofFn fun i => a[i] ^^^ b[i]

/-- The variables of the authentication loop. -/
structure Mac where
  mac : Block
  block : Block
  position : Nat

def flush (aes : Aes) (key : Block) (s : Mac) : Option Mac :=
  match aes key (xor s.block s.mac) with
  | some cipher => some ⟨cipher, zeroBlock, 0⟩
  | none => none

def feed (aes : Aes) (key : Block) (s : Mac) : Bytes → Option Mac
  | [] => some s
  | b :: rest =>
    let s : Mac := { s with block := s.block.setIfInBounds s.position b, position := s.position + 1 }
    if s.position = 16 then
      match flush aes key s with
      | some s => feed aes key s rest
      | none => none
    else feed aes key s rest

/-- A partly filled block is flushed. -/
def settle (aes : Aes) (key : Block) (s : Mac) : Option Mac :=
  if s.position ≠ 0 then flush aes key s else some s

/-- A nonce between a first octet and a block number. -/
def nonceBlock (first : UInt8) (nonce : Vector UInt8 13) (last : UInt8) : Block :=
  Vector.ofFn fun i => if h : i.val = 0 then first
    else if h : i.val < 14 then nonce[i.val - 1]
    else if i.val = 14 then 0 else last

def authenticate (aes : Aes) (key : Block) (nonce : Vector UInt8 13) (aad work : Bytes) (tagLength : Nat) :
    Option Mac :=
  let flags := UInt8.ofNat (1 + 8 * ((tagLength - 2) / 2)) ||| (if aad.length ≠ 0 then 0x40 else 0)
  let start : Mac := ⟨zeroBlock, nonceBlock flags nonce (UInt8.ofNat work.length), 0⟩
  match flush aes key start with
  | none => none
  | some s =>
    let prefixed : Mac := { s with
      block := s.block.setIfInBounds 1 (UInt8.ofNat aad.length), position := 2 }
    let associated := if aad.length ≠ 0 then (feed aes key prefixed aad).bind (settle aes key) else some s
    match associated with
    | none => none
    | some s => (feed aes key s work).bind (settle aes key)

def counter (aes : Aes) (key : Block) (nonce : Vector UInt8 13) (number : UInt8) : Option Block :=
  aes key (nonceBlock 1 nonce number)

/-- The key stream over `blocks` further blocks of the work area. -/
def transform (aes : Aes) (key : Block) (nonce : Vector UInt8 13) : Nat → UInt8 → Bytes → Option Bytes
  | 0, _, _ => some []
  | blocks + 1, number, work =>
    if work = [] then some []
    else match counter aes key nonce number with
      | none => none
      | some cipher =>
        match transform aes key nonce blocks (number + 1) (work.drop 16) with
        | none => none
        | some rest => some (List.zipWith (· ^^^ ·) (work.take 16) cipher.toList ++ rest)

/-- As many blocks as a work area can need. -/
def blocks (work : Bytes) : Nat := (work.length + 15) / 16

/-- `ccm_star_crypt` with its pointers in order. -/
def crypt (aes : Aes) (opening : Bool) (key : Block) (nonce : Vector UInt8 13) (aad input : Bytes)
    (tagLength capacity : Nat) (limits : Limits) : Except Result Bytes :=
  if !limits.usable then .error .argument
  else if tagLength ≠ 4 ∧ tagLength ≠ 8 ∧ tagLength ≠ 16 then .error .tag
  else if maxAad < aad.length ∨ (opening = true ∧ input.length < tagLength) ∨
      maxMessage + (if opening then tagLength else 0) < input.length then .error .length
  else
    let size := input.length - (if opening then tagLength else 0)
    let total := size + (if opening then 0 else tagLength)
    if capacity < total then .error .space
    else
      let work := input.take size
      let plain := if opening then transform aes key nonce (blocks work) 1 work else some work
      match plain with
      | none => .error .aes
      | some plain =>
        match authenticate aes key nonce aad plain tagLength, counter aes key nonce 0 with
        | some s, some cipher =>
          let mac := (xor s.mac cipher).toList.take tagLength
          if opening then
            if mac ≠ (input.drop size).take tagLength then .error .auth else .ok plain
          else
            match transform aes key nonce (blocks plain) 1 plain with
            | none => .error .aes
            | some cipherText => .ok (cipherText ++ mac)
        | _, _ => .error .aes

end CcmStar
