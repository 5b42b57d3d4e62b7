import Revhv.Lib.HexText

/-!
# `Revhv.Um.Numbers`: the numbers of the commands

`parse_u64_token` of `commands.cpp`, `parse_hex_offset` of `kmodules.cpp`, and
the two functions of the standard library below them, `from_chars` and
`stoull`, both with base 16. A string is the list of its bytes.
-/

set_option autoImplicit false

namespace Revhv.Numbers

open Revhv.Lib

/-- The digit separators that `parse_u64_token` leaves out. -/
def isSeparator (c : UInt8) : Bool :=
  c == '`'.toUInt8 || c == '\''.toUInt8 || c == '_'.toUInt8

/-- `x` or `X`. -/
def isX (c : UInt8) : Bool := c == 'x'.toUInt8 || c == 'X'.toUInt8

/-- `h` or `H`. -/
def isH (c : UInt8) : Bool := c == 'h'.toUInt8 || c == 'H'.toUInt8

/-- `isspace` in the "C" locale. -/
def isSpace (c : UInt8) : Bool := c == 32 || (9 ≤ c.toNat && c.toNat ≤ 13)

/-- `from_chars` for a `uint64_t` in base 16: the value and what is
left, `none` when no digit is there or the value does not fit. -/
def fromChars (s : List UInt8) : Option (UInt64 × List UInt8) :=
  let run := s.takeWhile isHexDigit
  if run = [] then none
  else if 2 ^ 64 ≤ hexValue run then none
  else some (UInt64.ofNat (hexValue run), s.dropWhile isHexDigit)

/-- The token without a `0x` in front or an `h` at the end. -/
def stripMarker (sanitized : List UInt8) : List UInt8 :=
  match sanitized with
  | c :: x :: d :: rest =>
    if c = '0'.toUInt8 ∧ isX x then d :: rest
    else if (sanitized.getLast?).any isH then sanitized.dropLast
    else sanitized
  | _ => if (sanitized.getLast?).any isH then sanitized.dropLast else sanitized

/-- `parse_u64_token`. The base is 16 on every path. -/
def parseU64Token (token : List UInt8) : Option UInt64 :=
  let sanitized := token.filter (!isSeparator ·)
  if sanitized = [] then none
  else
    let sanitized := stripMarker sanitized
    if sanitized = [] then none
    else
      match fromChars sanitized with
      | some (parsed, []) => some parsed
      | _ => none

/-- The sign in front of a number. -/
def stripSign : List UInt8 → Bool × List UInt8
  | [] => (false, [])
  | c :: s =>
    if c = '-'.toUInt8 then (true, s) else if c = '+'.toUInt8 then (false, s) else (false, c :: s)

/-- The prefix of a number in base 16. It is one only when a digit
follows. -/
def stripPrefix : List UInt8 → List UInt8
  | c :: x :: d :: s =>
    if c = '0'.toUInt8 ∧ isX x ∧ isHexDigit d then d :: s else c :: x :: d :: s
  | s => s

/-- `stoull(s, nullptr, 16)`, `none` for an exception. -/
def stoull (s : List UInt8) : Option UInt64 :=
  let signed := stripSign (s.dropWhile isSpace)
  let run := (stripPrefix signed.2).takeWhile isHexDigit
  if run = [] then none
  else if 2 ^ 64 ≤ hexValue run then none
  else some (if signed.1 then -UInt64.ofNat (hexValue run) else UInt64.ofNat (hexValue run))

/-- `parse_hex_offset`. -/
def parseHexOffset (s : List UInt8) : Option UInt64 :=
  if s = [] then none else stoull s

end Revhv.Numbers
