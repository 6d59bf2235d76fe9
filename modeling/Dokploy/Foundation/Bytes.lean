import Mathlib.Algebra.GroupWithZero.Nat
import Mathlib.Data.List.Basic

namespace Dokploy
namespace Foundation

/-!
# Reading a byte buffer

A number is stored with its lowest byte first.  Reading one outside the buffer
is an error of its own, so that a program which never meets it has checked
every offset it uses.  A slice stops at the end of the buffer and never fails.
-/

/-- A number was read outside the buffer. -/
inductive OutOfRange where
  | outOfRange
  deriving DecidableEq, Repr

namespace Bytes

/-- The number of bytes with the lowest one first. -/
def littleEndian (bytes : List UInt8) : Nat :=
  bytes.foldr (fun byte higher => byte.toNat + 256 * higher) 0

def slice (buffer : List UInt8) (start stop : Nat) : List UInt8 :=
  (buffer.drop start).take (stop - start)

/-- The number stored in `width` bytes at an offset. -/
def numberAt (buffer : List UInt8) (width offset : Nat) : Nat :=
  littleEndian (slice buffer offset (offset + width))

def readNumber (buffer : List UInt8) (width offset : Nat) : Except OutOfRange Nat :=
  if offset + width ≤ buffer.length then .ok (numberAt buffer width offset) else .error .outOfRange

theorem readNumber_inside {buffer : List UInt8} {width offset : Nat}
    (inside : offset + width ≤ buffer.length) :
    readNumber buffer width offset = .ok (numberAt buffer width offset) :=
  if_pos inside

theorem ok_bind {Value Result : Type} (value : Value) (next : Value -> Except OutOfRange Result) :
    ((Except.ok value : Except OutOfRange Value) >>= next) = next value := rfl

def At (buffer : List UInt8) (offset : Nat) (bytes : List UInt8) : Prop :=
  Exists fun before => Exists fun after => buffer = before ++ (bytes ++ after) ∧ before.length = offset

namespace At

variable {buffer bytes first second : List UInt8} {offset : Nat}

theorem left (here : At buffer offset (first ++ second)) : At buffer offset first := by
  rcases here with ⟨before, after, isBuffer, isOffset⟩
  exact ⟨before, second ++ after, by rw [isBuffer, List.append_assoc], isOffset⟩

theorem right (here : At buffer offset (first ++ second)) : At buffer (offset + first.length) second := by
  rcases here with ⟨before, after, isBuffer, isOffset⟩
  refine ⟨before ++ first, after, ?_, ?_⟩
  · rw [isBuffer, List.append_assoc, List.append_assoc]
  · rw [List.length_append, isOffset]

theorem inside (here : At buffer offset bytes) : offset + bytes.length ≤ buffer.length := by
  rcases here with ⟨before, after, isBuffer, isOffset⟩
  rw [isBuffer, List.length_append, List.length_append, isOffset]
  omega

theorem slice_eq (here : At buffer offset bytes) : slice buffer offset (offset + bytes.length) = bytes := by
  rcases here with ⟨before, after, isBuffer, isOffset⟩
  rw [slice, isBuffer, ← isOffset, List.drop_left, Nat.add_sub_cancel_left, List.take_left]

theorem field {fields : List (List UInt8)} (here : At buffer offset fields.flatten) (index : Nat)
    (isField : fields[index]? = some bytes) :
    At buffer (offset + (fields.take index).flatten.length) bytes := by
  rcases List.getElem?_eq_some_iff.mp isField with ⟨small, isBytes⟩
  have split : fields = fields.take index ++ bytes :: fields.drop (index + 1) := by
    rw [← isBytes, ← List.drop_eq_getElem_cons small, List.take_append_drop]
  rw [split, List.flatten_append, List.flatten_cons] at here
  exact here.right.left

end At

/-- One bit of the division by the polynomial of CRC-32, lowest bit first. -/
def crcBit (register : Nat) : Nat :=
  if register % 2 = 1 then (register / 2) ^^^ 0xedb88320 else register / 2

def crcByte (register : Nat) (byte : UInt8) : Nat :=
  crcBit (crcBit (crcBit (crcBit (crcBit (crcBit (crcBit (crcBit (register ^^^ byte.toNat))))))))

def crc32 (bytes : List UInt8) : Nat :=
  bytes.foldl crcByte 0xffffffff ^^^ 0xffffffff

theorem crcBit_small {register : Nat} (small : register < 2 ^ 32) : crcBit register < 2 ^ 32 := by
  unfold crcBit
  split
  · exact Nat.xor_lt_two_pow (by omega) (by decide)
  · omega

theorem crc32_small (bytes : List UInt8) : crc32 bytes < 2 ^ 32 := by
  refine Nat.xor_lt_two_pow ?_ (by decide)
  have start : 0xffffffff < 2 ^ 32 := by decide
  generalize 0xffffffff = register at start ⊢
  induction bytes generalizing register with
  | nil => exact start
  | cons byte rest ih =>
      refine ih _ ?_
      have begun : register ^^^ byte.toNat < 2 ^ 32 :=
        Nat.xor_lt_two_pow start (Nat.lt_trans byte.toNat_lt (by decide))
      exact crcBit_small (crcBit_small (crcBit_small (crcBit_small (crcBit_small (crcBit_small (crcBit_small
        (crcBit_small begun)))))))

end Bytes
end Foundation
end Dokploy
