import Pinyon.Pine.Target

namespace Pinyon
namespace Pine

/-!
# Strings and numbers in buffers

A string is what a reader finds up to the first NUL.  The conversions of numbers
write into a buffer of a fixed size; `none` is a store behind its end or a signed
overflow.
-/

/-- The characters of a NUL-terminated string. -/
structure CString where
  chars : List UInt8
  terminated : (0 : UInt8) ∉ chars
deriving DecidableEq

namespace CString

def empty : CString where
  chars := []
  terminated := List.not_mem_nil

/-- `strlen`. -/
def strlen (string : CString) : Nat :=
  string.chars.length

/-- The string at the start of a buffer that has a NUL. -/
def ofBuffer (buf : List UInt8) : Option CString :=
  if (0 : UInt8) ∈ buf then
    some
      { chars := buf.takeWhile (fun char => char != 0)
        terminated := fun member => by
          have differs := List.mem_takeWhile_imp member
          simp at differs }
  else none

end CString

/-- A store into a buffer. -/
def storeChar (buf : List UInt8) (pos : Nat) (char : UInt8) : Option (List UInt8) :=
  if pos < buf.length then some (buf.set pos char) else none

section

variable {buf : List UInt8} {pos : Nat}

theorem storeChar_of_lt (inside : pos < buf.length) (char : UInt8) :
    storeChar buf pos char = some (buf.set pos char) :=
  if_pos inside

theorem set_eq (inside : pos < buf.length) (char : UInt8) :
    buf.set pos char = buf.take pos ++ char :: buf.drop (pos + 1) := by
  rw [List.set_eq_take_append_cons_drop, if_pos inside]

theorem take_succ_set (inside : pos < buf.length) (char : UInt8) :
    (buf.set pos char).take (pos + 1) = buf.take pos ++ [char] := by
  rw [List.take_add_one, List.take_set_of_le (Nat.le_refl pos), List.getElem?_set_self inside,
    Option.toList_some]

end

/-! ## Limits -/

/-- The integer types that `limits` knows, `bool` apart. -/
inductive IntType where
  | char
  | signedChar
  | unsignedChar
  | short
  | unsignedShort
  | int
  | unsignedInt
  | long
  | unsignedLong
  | longLong
  | unsignedLongLong
deriving DecidableEq, Repr

namespace IntType

def width (target : Target) : IntType -> Nat
  | char | signedChar | unsignedChar => 8
  | short | unsignedShort => 16
  | int | unsignedInt => 32
  | long | unsignedLong => target.wordWidth
  | longLong | unsignedLongLong => 64

/-- `char` is unsigned on both machines. -/
def isSigned : IntType -> Bool
  | signedChar | short | int | long | longLong => true
  | char | unsignedChar | unsignedShort | unsignedInt | unsignedLong | unsignedLongLong => false

def min (target : Target) (type : IntType) : Int :=
  if type.isSigned then -2 ^ (type.width target - 1) else 0

def max (target : Target) (type : IntType) : Int :=
  if type.isSigned then 2 ^ (type.width target - 1) - 1 else 2 ^ type.width target - 1

/-- `log`, to the base ten. -/
def log (num : Int) : Nat :=
  Nat.log 10 num.toNat

/-- `digits10`, one more than there are for two of the types. -/
def digits10 (target : Target) (type : IntType) : Nat :=
  match type with
  | signedChar | short => log (type.max target) + 2
  | _ => log (type.max target) + 1

def characters10 (target : Target) (type : IntType) : Nat :=
  type.digits10 target + if type.isSigned then 1 else 0

def digits16 (target : Target) (type : IntType) : Nat :=
  type.width target / charBit * 2

/-- The value that a conversion to the type gives. -/
def convert (target : Target) (type : IntType) (num : Int) : Int :=
  if type.isSigned then Int.bmod num (2 ^ type.width target) else num % 2 ^ type.width target

/-- The type in which the arithmetic of a type is done. -/
def promoted (target : Target) (type : IntType) : IntType :=
  if type.width target < int.width target then int else type

/-- The result of an operation, stored in a variable of the type. -/
def arithmetic (target : Target) (type : IntType) (num : Int) : Option Int :=
  let wide := type.promoted target
  if wide.isSigned ∧ (num < wide.min target ∨ wide.max target < num) then none
  else some (type.convert target num)

/-- `size_t`. -/
def size (target : Target) : IntType :=
  match target with
  | .aarch32 => unsignedInt
  | .aarch64 => unsignedLong

/-- `ssize_t`. -/
def ssize (target : Target) : IntType :=
  match target with
  | .aarch32 => int
  | .aarch64 => long

/-- `PtrData`. -/
def ptrData (target : Target) : IntType :=
  size target

/-- `abs`. -/
def abs (target : Target) (type : IntType) (num : Int) : Option Int :=
  if 0 ≤ num then some num else type.arithmetic target (-num)

/-- `pow`. -/
def pow (target : Target) (type : IntType) (num : Int) : Nat -> Option Int
  | 0 => some 1
  | 1 => some num
  | power + 2 => do
      let result <- pow target type num (power + 1)
      type.arithmetic target (result * num)

end IntType

/-! ## Numbers -/

/-- The loop of `to_strbuf`, with as many of the `len` digits still to come. -/
def writeDigits (target : Target) (type : IntType) (start bufsize len : Nat) :
    Nat -> List UInt8 -> Int -> Option (List UInt8)
  | 0, buf, _ => some buf
  | remaining + 1, buf, absnum =>
      let pos := len - (remaining + 1)
      if pos < bufsize then do
        let divisor <- type.pow target 10 remaining
        let digit <- type.arithmetic target (absnum.tdiv divisor)
        let buf <- storeChar buf (start + pos) (UInt8.ofInt (48 + digit))
        let product <- type.arithmetic target (digit * divisor)
        let absnum <- type.arithmetic target (absnum - product)
        writeDigits target type start bufsize len remaining buf absnum
      else some buf

/-- `to_strbuf`, into the part of a buffer from `start` on. -/
def toStrbuf (target : Target) (type : IntType) (buf : List UInt8) (start bufsize : Nat)
    (num : Int) : Option (List UInt8) :=
  if bufsize < type.characters10 target + 1 then some buf
  else if type.isSigned ∧ num < 0 then do
    let absnum <- type.abs target num
    let buf <- storeChar buf start '-'.toUInt8
    let len := IntType.log absnum + 1
    let buf <- writeDigits target type (start + 1) (bufsize - 1) len len buf absnum
    storeChar buf (start + 1 + len) 0
  else do
    let len := IntType.log num + 1
    let buf <- writeDigits target type start bufsize len len buf num
    storeChar buf (start + len) 0

inductive ToAFlag where
  | upper
  | lower
deriving DecidableEq, Repr

def hexDigit (flag : ToAFlag) (hexNum : Nat) : UInt8 :=
  if hexNum < 10 then UInt8.ofNat (hexNum + 48)
  else UInt8.ofNat (hexNum - 10 + match flag with | .upper => 65 | .lower => 97)

/-- The first loop of `to_strbuf_hex`. -/
def writeZeros (start : Nat) : Nat -> List UInt8 -> Option (List UInt8)
  | 0, buf => some buf
  | length + 1, buf => do
      let buf <- writeZeros start length buf
      storeChar buf (start + length) '0'.toUInt8

/-- The second loop of `to_strbuf_hex`, from the last digit to the first. -/
def writeHexDigits (flag : ToAFlag) (start : Nat) : Nat -> List UInt8 -> Nat -> Option (List UInt8)
  | 0, buf, _ => some buf
  | pos + 1, buf, num =>
      if 0 < num then do
        let buf <- storeChar buf (start + pos) (hexDigit flag (num % 16))
        writeHexDigits flag start pos buf (num / 16)
      else some buf

/-- `to_strbuf_hex`, of an unsigned type. -/
def toStrbufHex (target : Target) (type : IntType) (buf : List UInt8) (start bufsize : Nat)
    (num : Nat) (flag : ToAFlag) : Option (List UInt8) := do
  let length := type.digits16 target
  if bufsize < length + 1 then some buf
  else
    let buf <- writeZeros start length buf
    let buf <- storeChar buf (start + length) 0
    writeHexDigits flag start length buf num

end Pine
end Pinyon
