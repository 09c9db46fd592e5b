import Mathlib.Data.List.Infix

namespace FlukeCda.Rescue

/-- Bytes of a C string: what stands before the first NUL. -/
def cString (bytes : List UInt8) : List UInt8 := bytes.takeWhile (· ≠ 0)

/-- `isspace` of the C locale: blank, and tab to carriage return. -/
def isspace (c : UInt8) : Bool := c == 0x20 || (0x09 ≤ c && c ≤ 0x0d)

/-- Value of a character as a digit of `strtol`: 0 to 9, then the letters. -/
def digitValue (c : UInt8) : Option Nat :=
  if 0x30 ≤ c ∧ c ≤ 0x39 then some (c.toNat - 0x30)
  else if 0x61 ≤ c ∧ c ≤ 0x7a then some (c.toNat - 0x61 + 10)
  else if 0x41 ≤ c ∧ c ≤ 0x5a then some (c.toNat - 0x41 + 10)
  else none

def isDigitOf (base : Nat) (c : UInt8) : Bool := (digitValue c).any (· < base)

/-- Value of the longest initial run of digits; what follows is ignored. -/
def digitsValue (base : Nat) : Nat → List UInt8 → Nat
  | value, [] => value
  | value, c :: rest =>
    match digitValue c with
    | some digit => if digit < base then digitsValue base (value * base + digit) rest else value
    | none => value

def longMax : Int := 2147483647
def longMin : Int := -2147483648

/-- The sign of the number and the text after it. -/
def strtolSign : List UInt8 → Bool × List UInt8
  | [] => (false, [])
  | c :: rest => if c = 0x2d then (true, rest) else if c = 0x2b then (false, rest) else (false, c :: rest)

/-- Base 0: a leading 0x with a hexadecimal digit behind it means 16, any
other leading 0 means 8, everything else 10. -/
def strtolBase : List UInt8 → Nat × List UInt8
  | c :: x :: digit :: rest =>
    if c ≠ 0x30 then (10, c :: x :: digit :: rest)
    else if (x = 0x78 ∨ x = 0x58) ∧ isDigitOf 16 digit then (16, digit :: rest)
    else (8, c :: x :: digit :: rest)
  | [c, x] => (if c = 0x30 then 8 else 10, [c, x])
  | [c] => (if c = 0x30 then 8 else 10, [c])
  | [] => (10, [])

/-- `strtol(buffer, NULL, 0)` with the 32 bit `long` of the target. -/
def strtol (buffer : List UInt8) : Int :=
  let signed := strtolSign ((cString buffer).dropWhile isspace)
  let based := strtolBase signed.2
  let magnitude : Int := digitsValue based.1 0 based.2
  max longMin (min longMax (if signed.1 then -magnitude else magnitude))

/-- The result saturates; it never leaves the range of `long`. -/
theorem strtol_bounds (buffer : List UInt8) : longMin ≤ strtol buffer ∧ strtol buffer ≤ longMax := by
  have ordered : longMin ≤ longMax := by decide
  simp only [strtol]
  omega

/-- Trailing text, white space, signs and the octal and hexadecimal forms all count. -/
example : strtol [0x34, 0x0a] = 4 ∧ strtol [0x20, 0x2b, 0x30, 0x78, 0x37, 0x7a] = 7 ∧
    strtol [0x30, 0x34, 0x38] = 4 ∧
    strtol [0x30, 0x78, 0x67] = 0 ∧ strtol [0x2d, 0x31] = -1 := by decide

end FlukeCda.Rescue
