import Cc2530Zigbee.Octets

/-!
# Bounded accesses

Octets read and written one at a time, where an access outside of its object is a
fault. A program in this form that ends without a fault has kept to its objects.
-/
namespace BoundedAccess

open Octets

inductive Fault where
  | read | write
  deriving DecidableEq, Repr

/-- The octet at a position of an object. -/
def read (object : Bytes) (i : Nat) : Except Fault UInt8 :=
  match object[i]? with
  | some octet => .ok octet
  | none => .error .read

/-- One more octet at the end of a buffer of `size` octets. -/
def push (size : Nat) (buffer : Bytes) (octet : UInt8) : Except Fault Bytes :=
  if buffer.length < size then .ok (buffer ++ [octet]) else .error .write

theorem read_inside {object : Bytes} {i : Nat} (h : i < object.length) : read object i = .ok (byteAt object i) := by
  simp [read, byteAt, h]

theorem read_skip (before object : Bytes) (i : Nat) : read (before ++ object) (before.length + i) = read object i := by
  rw [read, read, List.getElem?_append_right (Nat.le_add_right _ _), Nat.add_sub_cancel_left]

theorem push_inside {size : Nat} {buffer : Bytes} (h : buffer.length < size) (octet : UInt8) :
    push size buffer octet = .ok (buffer ++ [octet]) := if_pos h

theorem push_full {size : Nat} {buffer : Bytes} (h : size ≤ buffer.length) (octet : UInt8) :
    push size buffer octet = .error .write := if_neg (Nat.not_lt.2 h)

@[simp] theorem ok_bind {α β : Type} (a : α) (f : α → Except Fault β) : ((Except.ok a : Except Fault α) >>= f) = f a := rfl

@[simp] theorem error_bind {α β : Type} (e : Fault) (f : α → Except Fault β) :
    ((Except.error e : Except Fault α) >>= f) = .error e := rfl

@[simp] theorem pure_ok {α : Type} (a : α) : (pure a : Except Fault α) = .ok a := rfl

end BoundedAccess
