import Mathlib.Data.List.TakeWhile
import Revhv.Lib.HexText

/-!
# `Revhv.Um.Symbols`: what an address is named after

The modules, the parsed images and the search for the closest symbol, as both
`kmodule_context` and the trace parser use them.
-/

set_option autoImplicit false

namespace Revhv.Symbols

open Revhv.Lib

/-- A text of the program: the bytes of a `std::string`. -/
abbrev Text : Type := List UInt8

/-- The text of a literal. -/
def lit (s : String) : Text := s.toList.map Char.toUInt8

/-- A loaded module. -/
structure Kmodule where
  base : UInt64
  size : UInt64
  name : Text
  fullPath : Text
deriving DecidableEq

/-- The test of `resolve_address` for a module. -/
def Kmodule.contains (mod : Kmodule) (address : UInt64) : Bool :=
  !(address < mod.base || mod.base + mod.size ≤ address)

/-- The ranges of the modules do not overlap. -/
def Disjoint (modules : List Kmodule) : Prop :=
  modules.Pairwise fun mod other => ∀ address, ¬ (mod.contains address ∧ other.contains address)

/-- In modules that do not overlap, the search finds the one that
contains the address. -/
theorem find_contains {modules : List Kmodule} {mod : Kmodule} {address : UInt64}
    (hdisjoint : Disjoint modules)
    (hmod : mod ∈ modules) (hin : mod.contains address = true) :
    modules.find? (·.contains address) = some mod := by
  induction modules with
  | nil => cases hmod
  | cons other modules ih =>
    rw [List.find?_cons]
    rcases List.pairwise_cons.mp hdisjoint with ⟨hother, hrest⟩
    rcases List.mem_cons.mp hmod with rfl | hmod
    · rw [hin]
    · cases hcontains : other.contains address with
      | true => exact absurd ⟨hcontains, hin⟩ (hother mod hmod address)
      | false => exact ih hrest hmod

/-- `pe::section`, without the address that no lookup reads. -/
structure Section where
  name : Text
  rva : UInt64
  size : UInt64
deriving DecidableEq

/-- The test of `resolve_address` for a section. -/
def Section.contains (sect : Section) (rva : UInt64) : Bool :=
  sect.rva ≤ rva && rva < sect.rva + sect.size

/-- `pdb::symbol_info`. -/
structure SymbolInfo where
  name : Text
  rva : UInt64
deriving DecidableEq

/-- A parsed image: its sections, and its symbols in the order of their
addresses. -/
structure Pe where
  sections : List Section
  symbols : List SymbolInfo
deriving DecidableEq

/-- `get_closest_symbol`. On symbols in order, `std::upper_bound` ends
behind those that are not above `rva`, and the element before it is the
last of them. -/
def getClosestSymbol (symbols : List SymbolInfo) (rva : UInt64) : Option SymbolInfo :=
  (symbols.takeWhile fun symbol => !(rva < symbol.rva)).getLast?

/-- A closest symbol is not above the address. -/
theorem getClosestSymbol_le {symbols : List SymbolInfo} {rva : UInt64} {symbol : SymbolInfo}
    (h : getClosestSymbol symbols rva = some symbol) : symbol ∈ symbols ∧ symbol.rva ≤ rva := by
  have hmem := List.mem_of_getLast? h
  refine ⟨(List.takeWhile_sublist _).subset hmem, ?_⟩
  have hle := List.mem_takeWhile_imp hmem
  simpa using hle

end Revhv.Symbols
