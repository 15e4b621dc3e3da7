import Cc2530Zigbee.CcmStar

/-!
# AES-MMO, install codes and key hashes
-/
namespace KeyHash

open Octets CcmStar

/-- How a call can fail. -/
inductive Result where
  | argument | length | crc | aes
  deriving DecidableEq, Repr

def mmoMax : Nat := 32
def installCodeSize : Nat := 18

def compress (aes : Aes) (hash block : Block) : Option Block :=
  match aes hash block with
  | some cipher => some (xor cipher block)
  | none => none

/-- The full blocks of the input, at most `fuel` of them, and what remains. -/
def absorb (aes : Aes) : Nat → Block → Bytes → Option (Block × Bytes)
  | 0, hash, input => some (hash, input)
  | fuel + 1, hash, input =>
    if input.length < 16 then some (hash, input)
    else match compress aes hash (fieldAt input 0 16) with
      | some hash => absorb aes fuel hash (input.drop 16)
      | none => none

/-- `zigbee_mmo_hash` with its pointers in order. -/
def mmoHash (aes : Aes) (input : Bytes) (limits : Limits) : Except Result Block :=
  if !limits.usable then .error .argument
  else if mmoMax < input.length then .error .length
  else match absorb aes 2 zeroBlock input with
    | none => .error .aes
    | some (hash, rest) =>
      let tail : Block := (fieldAt rest 0 16).setIfInBounds rest.length 0x80
      let padded := if 14 ≤ rest.length then (compress aes hash tail).map fun h => (h, zeroBlock)
        else some (hash, tail)
      match padded with
      | none => .error .aes
      | some (hash, block) =>
        let block := (block.setIfInBounds 14 (UInt8.ofNat (input.length >>> 5))).setIfInBounds 15
          (UInt8.ofNat (input.length <<< 3))
        match compress aes hash block with
        | some hash => .ok hash
        | none => .error .aes

def crcBit (crc : UInt16) : UInt16 := (crc >>> 1) ^^^ (if crc &&& 1 ≠ 0 then 0x8408 else 0)

def crcOctet (crc : UInt16) (byte : UInt8) : UInt16 :=
  (List.range 8).foldl (fun crc _ => crcBit crc) (crc ^^^ byte.toUInt16)

def installCrc (code : Bytes) : UInt16 := (code.take 16).foldl crcOctet 0xFFFF ^^^ 0xFFFF

/-- `install_code_derive`. -/
def installCodeDerive (aes : Aes) (code : Bytes) (limits : Limits) : Except Result Block :=
  if code.length ≠ installCodeSize then .error .length
  else if u16At code 16 ≠ installCrc code then .error .crc
  else mmoHash aes code limits

def hashTransport : UInt8 := 0
def hashLoad : UInt8 := 2
def hashVerify : UInt8 := 3

/-- `zigbee_key_hash`: two nested hashes under a padded key. -/
def keyHash (aes : Aes) (key : Block) (purpose : UInt8) (limits : Limits) : Except Result Block :=
  if !limits.usable ∨ (purpose ≠ hashTransport ∧ purpose ≠ hashLoad ∧ purpose ≠ hashVerify) then
    .error .argument
  else match mmoHash aes (key.toList.map (· ^^^ 0x36) ++ [purpose]) limits with
    | .error e => .error e
    | .ok inner => mmoHash aes (key.toList.map (· ^^^ 0x5C) ++ inner.toList) limits

end KeyHash
