import Revhv.Um.Numbers
import Revhv.Um.Symbols

/-!
# `Revhv.Um.Kmodules`: symbolic addresses

`kmodule_context::resolve_address` and `resolve_symbol` of `kmodules.cpp`, and
`parse_expression` of `commands.cpp` on top of them. What `ensure_parsed`
returns for a module is a parameter.
-/

set_option autoImplicit false

namespace Revhv.Kmodules

open Revhv.Lib Revhv.Numbers Revhv.Symbols

/-- `utils::to_hexstr`. -/
def toHexstr (value : UInt64) : Text := toHex value.toNat

/-- What `resolve_address` prints: the symbolic part, and the section
behind it. -/
structure Resolved where
  symbolic : Text
  sectionPart : Text
deriving DecidableEq

/-- The whole text. -/
def Resolved.text (resolved : Resolved) : Text := resolved.symbolic ++ resolved.sectionPart

section
variable (modules : List Kmodule) (parsed : Kmodule → Option Pe)

/-- `append_section`: the section that contains an address, behind ` |
`. -/
def sectionSuffix (mod : Kmodule) (pe : Pe) (rva : UInt64) : Text :=
  match pe.sections.find? (·.contains rva) with
  | none => []
  | some sect =>
    lit " | " ++ mod.name ++ lit ":" ++ sect.name ++ lit "+" ++ toHexstr (rva - sect.rva)

/-- The loop body of `resolve_address` for the module that contains the
address. -/
def resolveIn (mod : Kmodule) (address : UInt64) : Resolved :=
  let rva := address - mod.base
  if rva = 0 then ⟨mod.name, []⟩
  else
    match parsed mod with
    | none => ⟨mod.name ++ lit "+" ++ toHexstr rva, []⟩
    | some pe =>
      match getClosestSymbol pe.symbols rva with
      | none => ⟨mod.name ++ lit "+" ++ toHexstr rva, sectionSuffix mod pe rva⟩
      | some symbol =>
        let offset := rva - symbol.rva
        if offset = 0 then ⟨mod.name ++ lit "!" ++ symbol.name, sectionSuffix mod pe rva⟩
        else
          ⟨mod.name ++ lit "!" ++ symbol.name ++ lit "+" ++ toHexstr offset,
            sectionSuffix mod pe rva⟩

/-- `resolve_address`. -/
def resolveAddress (address : UInt64) : Resolved :=
  match modules.find? (·.contains address) with
  | some mod => resolveIn parsed mod address
  | none => ⟨toHexstr address, []⟩

/-- The characters of `find_first_of("!:+")`. -/
def isSplit (c : UInt8) : Bool :=
  c == '!'.toUInt8 || c == ':'.toUInt8 || c == '+'.toUInt8

/-- `::tolower`. -/
def toLower (c : UInt8) : UInt8 := if 65 ≤ c.toNat ∧ c.toNat ≤ 90 then c + 32 else c

/-- The extensions that are stripped from a module name. -/
def knownExts : List Text := [lit ".sys", lit ".dll", lit ".exe"]

/-- The name ends in the extension, whatever the case of its letters is. -/
def hasExt (name ext : Text) : Bool :=
  ext.length < name.length && (name.drop (name.length - ext.length)).map toLower == ext

/-- A module name without its known extension. -/
def stripExt (name : Text) : Text :=
  match knownExts.find? (hasExt name) with
  | some ext => name.take (name.length - ext.length)
  | none => name

/-- The name that is looked up for the module part of an expression. -/
def lookupName (name : Text) : Text :=
  if stripExt name = lit "nt" then lit "ntoskrnl" else stripExt name

/-- `get_module_by_name`. -/
def getModuleByName (name : Text) : Option Kmodule := modules.find? (·.name == name)

/-- The name without a leading dot. -/
def stripDot : Text → Text
  | [] => []
  | c :: s => if c = '.'.toUInt8 then s else c :: s

/-- The part of `resolve_symbol` behind a `!` or a `:`: a name, and an
offset when there is a `+`. -/
def splitOffset (rest : Text) : Option (Text × UInt64) :=
  match rest.dropWhile (· != '+'.toUInt8) with
  | [] => some (rest, 0)
  | _ :: offset => (parseHexOffset offset).map (rest.takeWhile (· != '+'.toUInt8), ·)

/-- `resolve_symbol`. -/
def resolveSymbol (symbolStr : Text) : Option UInt64 :=
  -- The name reaches up to the first of `+`, `:` and `!`.
  if symbolStr = [] then none
  else
    match getModuleByName modules (lookupName (symbolStr.takeWhile (!isSplit ·))) with
    | none => none
    | some mod =>
      match symbolStr.dropWhile (!isSplit ·) with
      | [] => some mod.base
      | separator :: rest =>
        if separator = '+'.toUInt8 then (parseHexOffset rest).map (mod.base + ·)
        else
          match splitOffset rest with
          | none => none
          | some (namePart, trailingOffset) =>
            -- Behind `:` stands a section, behind `!` a symbol.
            if separator = ':'.toUInt8 then
              (parsed mod).bind fun pe =>
                (pe.sections.find? fun sect => stripDot sect.name == stripDot namePart).map
                  fun sect => mod.base + sect.rva + trailingOffset
            else
              (parsed mod).bind fun pe =>
                (pe.symbols.find? fun sym => sym.name == namePart).map
                  fun sym => mod.base + sym.rva + trailingOffset

/-- `parse_expression`. -/
def parseExpression (token : Text) : Option UInt64 :=
  match parseU64Token token with
  | some value => some value
  | none => resolveSymbol modules parsed token

end

end Revhv.Kmodules
