import Mathlib.Algebra.GroupWithZero.Nat
import LinuxBtProxy.Rust

/-!
# LinuxBtProxy.Text

Rust text, as the source uses it: hexadecimal formatting of bytes and 16-bit
ids, `u8::from_str_radix(_, 16)`, and slices by byte positions.

A `&str` is the list of its characters.  `from_str_radix` takes an optional
leading `+` and any number of digits, as the standard library does.
-/

namespace LinuxBtProxy

/-! ## Formatting -/

/-- A digit of `{:x}`. -/
def lowerHexDigit (n : Nat) : Char := Nat.digitChar n

/-- A digit of `{:X}`. -/
def upperHexDigit (n : Nat) : Char := (Nat.digitChar n).toUpper

/-- `format!("{b:02X}")`. -/
def upperHex2 (b : UInt8) : List Char :=
  [upperHexDigit (b.toNat / 16), upperHexDigit (b.toNat % 16)]

/-- Two digits of `{:x}`. -/
def lowerHex2 (b : UInt8) : List Char :=
  [lowerHexDigit (b.toNat / 16), lowerHexDigit (b.toNat % 16)]

/-- `format!("{id:04x}")`. -/
def lowerHex4 (id : UInt16) : List Char :=
  [lowerHexDigit (id.toNat / 4096), lowerHexDigit (id.toNat / 256 % 16),
    lowerHexDigit (id.toNat / 16 % 16), lowerHexDigit (id.toNat % 16)]

/-! ## Positions in bytes -/

/-- `str::len`: the length of the UTF-8 encoding. -/
def utf8Len (s : List Char) : Nat := (s.map Char.utf8Size).sum

/-- The text from byte `n` on, if a character starts or the text ends there. -/
def dropUtf8 (n : Nat) : List Char → Option (List Char)
  | [] => if n = 0 then some [] else none
  | c :: cs =>
      if n = 0 then some (c :: cs)
      else if c.utf8Size ≤ n then dropUtf8 (n - c.utf8Size) cs
      else none

/-- The text up to byte `n`, if a character starts or the text ends there. -/
def takeUtf8 (n : Nat) : List Char → Option (List Char)
  | [] => if n = 0 then some [] else none
  | c :: cs =>
      if n = 0 then some []
      else if c.utf8Size ≤ n then (takeUtf8 (n - c.utf8Size) cs).map (c :: ·)
      else none

/-- `&s[start..stop]`. -/
def strSlice (s : List Char) (start stop : Nat) : Except Panic (List Char) :=
  match (dropUtf8 start s).bind (takeUtf8 (stop - start)) with
  | some slice => .ok slice
  | none => .error .charBoundary

/-! ## Parsing -/

/-- `char::to_digit(16)`. -/
def hexDigit (c : Char) : Option Nat :=
  if '0' ≤ c ∧ c ≤ '9' then some (c.toNat - '0'.toNat)
  else if 'a' ≤ c ∧ c ≤ 'f' then some (c.toNat - 'a'.toNat + 10)
  else if 'A' ≤ c ∧ c ≤ 'F' then some (c.toNat - 'A'.toNat + 10)
  else none

/-- The digit loop of `u8::from_str_radix(_, 16)`: an invalid digit or an
overflow of the byte fails. -/
def parseHexDigits (acc : Nat) : List Char → Option UInt8
  | [] => some (UInt8.ofNat acc)
  | c :: cs => do
      let d ← hexDigit c
      if acc * 16 + d < 256 then parseHexDigits (acc * 16 + d) cs else none

/-- `u8::from_str_radix(src, 16).ok()`. -/
def fromStrRadix16 (src : List Char) : Option UInt8 :=
  match src with
  | [] => none
  | ['+'] | ['-'] => none
  | '+' :: digits => parseHexDigits 0 digits
  | digits => parseHexDigits 0 digits

end LinuxBtProxy
