import Revhv.Um.Symbols

/-!
# `Revhv.Um.TraceSymbols`: symbol resolution in the trace parser

`get_or_load_pe` and `resolve_address` of `trace_parser.hpp`. The parser keeps
the images it loaded by the name of their module, and the names it tried.
What a file gives, from its existence to its symbols, is a parameter.
-/

set_option autoImplicit false

namespace Revhv.TraceSymbols

open Revhv.Lib Revhv.Symbols

/-- `m_pe_cache` and `m_pe_attempted`. -/
structure PeState where
  cache : List (Text × Pe)
  attempted : List Text
deriving DecidableEq

/-- The state of a parser that resolved nothing. -/
def PeState.empty : PeState := ⟨[], []⟩

/-- What `resolve_address` prints, before it is formatted. -/
inductive Resolution where
  | raw (address : UInt64)
  | start (mod : Kmodule)
  | offset (mod : Kmodule) (off : UInt64)
  | sect (mod : Kmodule) (s : Section) (off : UInt64)
  | symbol (mod : Kmodule) (sym : SymbolInfo) (off : UInt64)
deriving DecidableEq

/-- `{:x}`. -/
def formatX (value : UInt64) : Text := toHex value.toNat

/-- `{:016x}`. -/
def format016x (value : UInt64) : Text :=
  List.replicate (16 - (formatX value).length) '0'.toUInt8 ++ formatX value

/-- The texts of `resolve_address`. -/
def Resolution.text : Resolution → Text
  | .raw address => format016x address
  | .start mod => mod.name
  | .offset mod rva => mod.name ++ lit "+" ++ formatX rva
  | .sect mod s off => mod.name ++ lit ":" ++ s.name ++ lit "+" ++ formatX off
  | .symbol mod sym off =>
    if off = 0 then mod.name ++ lit "!" ++ sym.name
    else mod.name ++ lit "!" ++ sym.name ++ lit "+" ++ formatX off

section
variable (modules : List Kmodule) (load : Text → UInt64 → Option Pe)

/-- The image that the file of a module gives: it exists, maps and
parses. An empty path is not tried. -/
def loadPe (mod : Kmodule) : Option Pe :=
  if mod.fullPath = [] then none else load mod.fullPath mod.base

/-- `get_or_load_pe`. -/
def getOrLoadPe (st : PeState) (mod : Kmodule) : Option Pe × PeState :=
  match st.cache.lookup mod.name with
  | some pe => (some pe, st)
  | none =>
    if mod.name ∈ st.attempted then (none, st)
    else
      let st := { st with attempted := mod.name :: st.attempted }
      match loadPe load mod with
      | none => (none, st)
      | some pe => (some pe, { st with cache := (mod.name, pe) :: st.cache })

/-- The part of `resolve_address` behind the load of the image. A parsed
image is valid. -/
def nameIn (mod : Kmodule) (pe : Option Pe) (rva : UInt64) : Resolution :=
  match pe with
  | none => .offset mod rva
  | some pe =>
    match getClosestSymbol pe.symbols rva with
    | none =>
      match pe.sections.find? (·.contains rva) with
      | some sect => .sect mod sect (rva - sect.rva)
      | none => .offset mod rva
    | some sym => .symbol mod sym (rva - sym.rva)

/-- `resolve_address`, with the state of the images. -/
def resolveAddress (st : PeState) (address : UInt64) : Resolution × PeState :=
  match modules.find? (·.contains address) with
  | none => (.raw address, st)
  | some mod =>
    let rva := address - mod.base
    if rva = 0 then (.start mod, st)
    else
      let loaded := getOrLoadPe load st mod
      (nameIn mod loaded.1 rva, loaded.2)

/-- The state after addresses were resolved, one after the other. -/
def resolveAll : PeState → List UInt64 → PeState
  | st, [] => st
  | st, address :: addresses => resolveAll (resolveAddress modules load st address).2 addresses

end

end Revhv.TraceSymbols
