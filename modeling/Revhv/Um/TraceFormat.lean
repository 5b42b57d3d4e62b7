import Revhv.Um.TraceParser
import Revhv.Um.TraceSymbols

/-!
# `Revhv.Um.TraceFormat`: custom formats of trace entries

`parse_field_type` and `apply_custom_format` of `trace_parser.hpp`. The scan
works on the rest of the format string from `pos` on. It carries the state of
the loaded images, which `resolve_address` changes. `std::vformat` on one
argument is a parameter, with `none` for an exception.
-/

set_option autoImplicit false

namespace Revhv.TraceFormat

open Revhv.Symbols Revhv.Trace Revhv.TraceParser Revhv.TraceSymbols

/-- The names of `parse_field_type`, in the order of its tests. -/
def fieldNames : List (Text × EptTransitionDataField) :=
  [(lit "rip", .guestRip), (lit "rsp", .guestRsp), (lit "rax", .guestRax), (lit "rbx", .guestRbx),
    (lit "rcx", .guestRcx), (lit "rdx", .guestRdx), (lit "rsi", .guestRsi), (lit "rdi", .guestRdi),
    (lit "rbp", .guestRbp), (lit "r8", .guestR8), (lit "r9", .guestR9), (lit "r10", .guestR10),
    (lit "r11", .guestR11), (lit "r12", .guestR12), (lit "r13", .guestR13), (lit "r14", .guestR14),
    (lit "r15", .guestR15), (lit "retaddr", .guestRetaddr)]

/-- `parse_field_type`. -/
def parseFieldType (name : Text) : EptTransitionDataField :=
  (fieldNames.lookup name).getD .none

/-- The opening brace. -/
def openBrace : UInt8 := '{'.toUInt8

/-- The closing brace. -/
def closeBrace : UInt8 := '}'.toUInt8

/-- The colon between a field name and its spec. -/
def colon : UInt8 := ':'.toUInt8

section
variable (modules : List Kmodule) (load : Text → UInt64 → Option Pe)
  (vformat : Text → UInt64 → Option Text) (e : Entry) (cfg : EptTransitionCfg)

/-- The text of a value: resolved without a spec, formatted otherwise,
and `?` when the spec is no good. -/
def valueText (st : PeState) (val : UInt64) (spec : Text) : Text × PeState :=
  if spec = [] then
    let resolved := TraceSymbols.resolveAddress modules load st val
    (resolved.1.text, resolved.2)
  else ((vformat ([openBrace, colon] ++ spec ++ [closeBrace]) val).getD (lit "?"), st)

/-- The value of a field: the data of the slot that holds it, 0 without
one. -/
def fieldValue (field : EptTransitionDataField) : UInt64 :=
  match findDataSlot cfg field with
  | some slot => e.data slot
  | none => 0

/-- The text of a placeholder, what stands between its braces. -/
def placeholderText (st : PeState) (placeholder : Text) : Text × PeState :=
  match placeholder.dropWhile (· ≠ colon) with
  | [] => valueText modules load vformat st (fieldValue e cfg (parseFieldType placeholder)) []
  | _ :: spec =>
    valueText modules load vformat st
      (fieldValue e cfg (parseFieldType (placeholder.takeWhile (· ≠ colon)))) spec

/-- What one round of the scan does: it ends with the result, or goes
on. -/
inductive Round where
  | done (result : Text) (st : PeState)
  | again (rest result : Text) (st : PeState)

/-- A round of the `while` loop. -/
def scanRound (rest result : Text) (st : PeState) : Round :=
  match rest with
  | [] => .done result st
  | c :: more =>
    -- A doubled brace stands for itself.
    if c = openBrace ∧ more.head? = some openBrace then .again more.tail (result ++ [openBrace]) st
    else if c = closeBrace ∧ more.head? = some closeBrace then
      .again more.tail (result ++ [closeBrace]) st
    else if c ≠ openBrace then .again more (result ++ [c]) st
    -- Without an end the rest is copied as it is.
    else if closeBrace ∉ more then .done (result ++ rest) st
    else
      let value := placeholderText modules load vformat e cfg st
        (more.takeWhile (· ≠ closeBrace))
      .again (more.dropWhile (· ≠ closeBrace)).tail (result ++ value.1) value.2

/-- The `while` loop, for so many rounds at most. -/
def scan : Nat → Text → Text → PeState → Option (Text × PeState)
  | 0, _, _, _ => none
  | fuel + 1, rest, result, st =>
    match scanRound modules load vformat e cfg rest result st with
    | .done result st => some (result, st)
    | .again rest result st => scan fuel rest result st

/-- `apply_custom_format`. Every round but the last one takes a
character of the format, so that the rounds suffice
(`applyCustomFormat_template`). -/
def applyCustomFormat (st : PeState) (fmt : Text) : Option (Text × PeState) :=
  scan modules load vformat e cfg (fmt.length + 1) fmt [] st

end

end Revhv.TraceFormat
