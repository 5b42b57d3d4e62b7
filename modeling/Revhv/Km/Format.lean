import Mathlib.Algebra.GroupWithZero.Nat
import Mathlib.Logic.Function.Basic

/-!
# `Revhv.Km.Format`: the formatter of the log messages

`int_to_str` and `format` of `format.cpp`. A C string is the list of its bytes
without the terminator, so the end of the list is the terminator. Every store
of `format` but the last is a `buffer[pos++]`: the model carries the bytes
stored so far, whose number is `pos`.
-/

set_option autoImplicit false

namespace Revhv.Format

/-! ### Arguments -/

/-- A C string: its bytes before the terminator. -/
abbrev CString : Type := { bytes : List UInt8 // 0 ∉ bytes }

/-- A slot of the `va_list`: its eight bytes, and the C string they
point to when they are the address of one. -/
structure Arg where
  value : BitVec 64
  pointee : Option CString
deriving DecidableEq

/-- What `format` does wrong when it does not end: it goes on behind the
terminator of the format string, or an argument does not match. -/
inductive Fault where
  | pastFormat
  | badArgument
deriving DecidableEq

/-- The string `"(null)"`. -/
def nullText : CString := ⟨"(null)".toList.map Char.toUInt8, by decide⟩

/-- `va_arg(args, const char*)` with the replacement of a null pointer. -/
def Arg.string (arg : Arg) : Option CString :=
  if arg.value = 0 then some nullText else arg.pointee

/-- `va_arg` of a signed type: `intptr_t`, or `int` and its sign
extension. -/
def Arg.signed (arg : Arg) (isLongLong : Bool) : BitVec 64 :=
  if isLongLong then arg.value else (arg.value.truncate 32).signExtend 64

/-- `va_arg` of an unsigned type: `uint64_t`, or `uint32_t`. -/
def Arg.unsigned (arg : Arg) (isLongLong : Bool) : BitVec 64 :=
  if isLongLong then arg.value else (arg.value.truncate 32).zeroExtend 64

/-! ### `int_to_str` -/

/-- `digits[value]`. -/
def digits (value : Nat) : UInt8 :=
  ("0123456789abcdef".toList.map Char.toUInt8).getD value 0

/-- The `do` loop over `temp`, which has `room` bytes: the digits of
`value`, the least significant first. -/
def temp (base : Nat) : Nat → Nat → List UInt8
  | 0, _ => []
  | room + 1, value =>
    digits (value % base) :: if value / base > 0 then temp base room (value / base) else []

/-- `int_to_str`: the bytes that it writes. -/
def intToStr (maxSize value base : Nat) (isNegative : Bool) : List UInt8 :=
  if maxSize = 0 then []
  else
    let sign :=
      if isNegative ∧ base = 10 ∧ value > 0 then
        if 0 < maxSize - 1 then ['-'.toUInt8] else []
      else []
    sign ++ (temp base 32 value).reverse.take (maxSize - 1 - sign.length)

/-! ### `format` -/

/-- `max_size - 3`, as a `size_t`. -/
def roomForPrefix (maxSize : Nat) : Nat := (maxSize + 2 ^ 64 - 3) % 2 ^ 64

/-- The `switch` on the conversion character `c`: the arguments that are
left, and the text. -/
def conversion (maxSize : Nat) (isLongLong : Bool) (c : UInt8) (args : List Arg)
    (text : List UInt8) : Except Fault (List Arg × List UInt8) :=
  if c = 's'.toUInt8 then
    match args with
    | [] => .error .badArgument
    | arg :: args =>
      match arg.string with
      | none => .error .badArgument
      | some s => .ok (args, text ++ s.val.take (maxSize - 1 - text.length))
  else if c = 'd'.toUInt8 ∨ c = 'i'.toUInt8 then
    match args with
    | [] => .error .badArgument
    | arg :: args =>
      let val := arg.signed isLongLong
      let uval := if val.slt 0 then -val else val
      .ok (args, text ++ intToStr (maxSize - text.length) uval.toNat 10 (val.slt 0))
  else if c = 'u'.toUInt8 then
    match args with
    | [] => .error .badArgument
    | arg :: args =>
      .ok (args, text ++
        intToStr (maxSize - text.length) (arg.unsigned isLongLong).toNat 10 false)
  else if c = 'x'.toUInt8 then
    match args with
    | [] => .error .badArgument
    | arg :: args =>
      .ok (args, text ++
        intToStr (maxSize - text.length) (arg.unsigned isLongLong).toNat 16 false)
  else if c = 'p'.toUInt8 then
    match args with
    | [] => .error .badArgument
    | arg :: args =>
      let text :=
        if text.length < roomForPrefix maxSize then text ++ ['0'.toUInt8, 'x'.toUInt8] else text
      .ok (args, text ++ intToStr (maxSize - text.length) arg.value.toNat 16 false)
  else
    -- `%%` and an unknown conversion both store the character itself.
    .ok (args, text ++ [c])

/-- The `while` loop of `format`. The first list is what `p` points to. -/
def loop (maxSize : Nat) : List UInt8 → List Arg → List UInt8 → Except Fault (List UInt8)
  | [], _, text => .ok text
  | c :: p, args, text =>
    if text.length < maxSize - 1 then
      if c ≠ '%'.toUInt8 then loop maxSize p args (text ++ [c])
      else
        -- At the terminator, the `switch` stores it and `p++` leaves the string: the
        -- condition of the loop reads `*p` before it looks at `pos`.
        match p with
        | [] => .error .pastFormat
        | c₁ :: p₁ =>
          if c₁ = 'l'.toUInt8 then
            match p₁ with
            | [] => .error .pastFormat
            | c₂ :: p₂ =>
              if c₂ = 'l'.toUInt8 then
                match p₂ with
                | [] => .error .pastFormat
                | c₃ :: p₃ =>
                  match conversion maxSize true c₃ args text with
                  | .error fault => .error fault
                  | .ok (args, text) => loop maxSize p₃ args text
              else
                match conversion maxSize false c₂ args text with
                | .error fault => .error fault
                | .ok (args, text) => loop maxSize p₂ args text
          else
            match conversion maxSize false c₁ args text with
            | .error fault => .error fault
            | .ok (args, text) => loop maxSize p₁ args text
    else .ok text

/-- What a call of `format` does: its stores into the buffer in order,
each an offset and a byte, and the `int` that it returns. -/
structure Outcome where
  stores : List (Nat × UInt8)
  returned : BitVec 32
deriving DecidableEq

/-- The stores of a text and of its terminator. -/
def storesOf (text : List UInt8) : List (Nat × UInt8) :=
  (text ++ [0]).mapIdx fun offset byte => (offset, byte)

/-- `format`, for a buffer that is not null. -/
def format (fmt : CString) (maxSize : Nat) (args : List Arg) : Except Fault Outcome :=
  if maxSize = 0 then .ok ⟨[], 0⟩
  else
    match loop maxSize fmt.val args [] with
    | .error fault => .error fault
    | .ok text => .ok ⟨storesOf text, BitVec.ofNat 32 text.length⟩

/-- The buffer after stores, on the bytes before them. -/
def stored (before : Nat → UInt8) (stores : List (Nat × UInt8)) : Nat → UInt8 :=
  stores.foldl (fun buffer store => Function.update buffer store.1 store.2) before

end Revhv.Format
