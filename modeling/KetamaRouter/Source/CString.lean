import Mathlib.Algebra.Group.Int.Defs
import Mathlib.Algebra.Group.Nat.Defs
import Mathlib.Data.Int.Notation
import Mathlib.Data.List.Basic

/-!
# C strings, `atoi` and the `printf` conversions in use

Byte buffers are lists of bytes.  `cStr` is what the string functions of
`<string.h>` see of a buffer: the bytes before the first NUL.
-/

namespace KetamaRouter

abbrev Bytes := List UInt8

/-- The bytes of an ASCII literal of the source. -/
def ascii (literal : String) : Bytes :=
  literal.toList.map fun char => UInt8.ofNat char.toNat

def cStr (buffer : Bytes) : Bytes :=
  buffer.takeWhile (· ≠ 0)

def strlen (buffer : Bytes) : Nat :=
  (cStr buffer).length

/-- `strchr`, as an offset from the start of the string. -/
def strchr (text : Bytes) (char : UInt8) : Option Nat :=
  text.idxOf? char

def isSpace (char : UInt8) : Bool :=
  char = 32 || (9 ≤ char && char ≤ 13)

def isDigit (char : UInt8) : Bool :=
  48 ≤ char && char ≤ 57

def digitsValue (digits : Bytes) : Nat :=
  digits.foldl (fun value digit => 10 * value + (digit.toNat - 48)) 0

/-- The mathematical integer spelled at the start of `text`: white space, an
optional sign and the longest run of digits. -/
def writtenNumber (text : Bytes) : ℤ :=
  match text.dropWhile isSpace with
  | [] => 0
  | char :: rest =>
      if char = 45 then -(digitsValue (rest.takeWhile isDigit) : ℤ)
      else if char = 43 then (digitsValue (rest.takeWhile isDigit) : ℤ)
      else (digitsValue ((char :: rest).takeWhile isDigit) : ℤ)

def longMax : ℤ := 2 ^ 63 - 1

def longMin : ℤ := -(2 ^ 63)

def intMax : Nat := 2 ^ 31 - 1

/-- `strtol(text, NULL, 10)`, which saturates at the bounds of `long`. -/
def strtol (text : Bytes) : ℤ :=
  max longMin (min longMax (writtenNumber text))

/-- `atoi` is `strtol` converted to a 32-bit `int`. -/
def atoi (text : Bytes) : ℤ :=
  (strtol text).bmod (2 ^ 32)

/-- `%d` of a non-negative argument. -/
def formatDecimal (number : Nat) : Bytes :=
  (Nat.toDigits 10 number).map fun char => UInt8.ofNat char.toNat

/-- `%d` -/
def formatInt (number : ℤ) : Bytes :=
  if number < 0 then 45 :: formatDecimal number.natAbs
  else formatDecimal number.natAbs

/-- The `int` that `printf` receives for the precision `(uint32_t)len`. -/
def precision (len : Nat) : ℤ :=
  (len : ℤ).bmod (2 ^ 32)

/-- `%.*s`: a negative precision counts as no precision. -/
def formatStr (precision : ℤ) (text : Bytes) : Bytes :=
  if precision < 0 then cStr text
  else (cStr text).take precision.toNat

end KetamaRouter
