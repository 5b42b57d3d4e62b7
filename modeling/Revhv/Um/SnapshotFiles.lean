import Revhv.Lib.RecordLayout
import Revhv.Um.TraceParser

/-!
# `Revhv.Um.SnapshotFiles`: the files of an offline snapshot, byte by byte

The writers `export_trace_config` (`revhv-um/commands.cpp`) and
`export_modules` (`revhv-um/kmodules.cpp`), the readers `load_trace_cfg`
and `load_modules` (`revhv-um/trace_parser.hpp`), and the records of
`common/trace_cfg_export.hpp` and `common/module_export.hpp` between them.

Writer and reader share the structs of the two headers, so a struct is one
record type with one layout. Three of them end in padding of the compiler,
which nobody sets and nobody reads: a record has it as its `tail`, and the
writers take it from `tails`. A file is the bytes written to it; a file that
cannot be opened and a full disk are not modelled.
-/

set_option autoImplicit false

namespace Revhv.SnapshotFiles

open Revhv.Trace Revhv.AtConfig Revhv.TraceParser Revhv.Lib.RecordLayout

/-! ### Character arrays -/

/-- A zeroed `char[n]` after the `memcpy` of at most `n - 1` characters
of `s`. -/
def charArray (n : Nat) (s : List UInt8) : Vector UInt8 n :=
  Vector.ofFn fun i => (s.take (n - 1)).getD i 0

/-- `std::string::assign` of a character array up to its `strnlen`. -/
def assign {n : Nat} (a : Vector UInt8 n) : List UInt8 :=
  a.toList.takeWhile (· ≠ 0)

/-! ### `trace_cfg.bin` -/

/-- The first eight bytes of a `trace_cfg.bin`. -/
def traceCfgMagic : UInt64 := 0x47464354565200

/-- The format version of `trace_cfg.bin`. -/
def traceCfgVersion : UInt32 := 2

/-- `trace_cfg_export::file_header`. -/
structure TraceCfgHeader where
  magic : UInt64
  version : UInt32
  dataFieldCount : UInt32
  exactEntryCount : UInt32
  pad : UInt32
  genericCfg : EptTransitionCfg
  genericFormat : Vector UInt8 256
  tail : Vector UInt8 2

/-- `trace_cfg_export::exact_entry`. -/
structure ExactEntry where
  addr : UInt64
  cfg : EptTransitionCfg
  format : Vector UInt8 256
  tail : Vector UInt8 2

/-- The bytes of an `ept_transition_cfg`: six selectors. -/
def transitionCfgLayout : Layout EptTransitionCfg :=
  ((Layout.uint8.map EptTransitionDataField.code EptTransitionDataField.ofCode
    EptTransitionDataField.ofCode_code).array 6).map EptTransitionCfg.dataMap EptTransitionCfg.mk
    fun _ => rfl

/-- The bytes of a `trace_cfg_export::file_header`. -/
def traceCfgHeaderLayout : Layout TraceCfgHeader :=
  (Layout.uint64.prod <| Layout.uint32.prod <| Layout.uint32.prod <| Layout.uint32.prod <|
    Layout.uint32.prod <| transitionCfgLayout.prod <| (Layout.bytes 256).prod <|
    Layout.bytes 2).map
    (fun h => (h.magic, h.version, h.dataFieldCount, h.exactEntryCount, h.pad, h.genericCfg,
      h.genericFormat, h.tail))
    (fun (magic, version, dataFieldCount, exactEntryCount, pad, genericCfg, genericFormat, tail) =>
      ⟨magic, version, dataFieldCount, exactEntryCount, pad, genericCfg, genericFormat, tail⟩)
    fun _ => rfl

/-- The bytes of a `trace_cfg_export::exact_entry`. -/
def exactEntryLayout : Layout ExactEntry :=
  (Layout.uint64.prod <| transitionCfgLayout.prod <| (Layout.bytes 256).prod <|
    Layout.bytes 2).map
    (fun e => (e.addr, e.cfg, e.format, e.tail))
    (fun (addr, cfg, format, tail) => ⟨addr, cfg, format, tail⟩)
    fun _ => rfl

/-- The header that `export_trace_config` writes. -/
def traceCfgHeader (tail : Vector UInt8 2) (eng : Engine) : TraceCfgHeader where
  magic := traceCfgMagic
  version := traceCfgVersion
  dataFieldCount := UInt32.ofNat maxDataFields
  exactEntryCount := UInt32.ofNat eng.exactTransitionCfgs.length
  pad := 0
  genericCfg := eng.genericTransitionCfg
  genericFormat := charArray maxFormatLength eng.genericTransitionFmt
  tail := tail

/-- The record that `export_trace_config` writes for an exact config. -/
def exactEntry (tail : Vector UInt8 2) (e : ExactCfgEntry) : ExactEntry where
  addr := e.addr
  cfg := e.cfg
  format := charArray maxFormatLength e.fmt
  tail := tail

/-- The bytes that `export_trace_config` writes. Record `i` gets the
padding `tails i`, and the header comes as record 0. -/
def exportTraceConfig (tails : Nat → Vector UInt8 2) (eng : Engine) : List UInt8 :=
  traceCfgHeaderLayout.toBytes (traceCfgHeader (tails 0) eng) ++
    writeRecords exactEntryLayout
      (eng.exactTransitionCfgs.mapIdx fun i e => exactEntry (tails (i + 1)) e)

/-- `std::vector::resize`. -/
def resize {α : Type} (v : List α) (n : Nat) (fresh : α) : List α :=
  v.take n ++ List.replicate (n - v.length) fresh

/-- A value-initialised `exact_cfg_entry`. -/
def freshExactCfg : ExactCfgEntry where
  addr := 0
  cfg := ⟨fun _ => .none⟩
  fmt := []

/-- What `load_trace_cfg` stores for a record. -/
def loadExactEntry (entry : ExactEntry) : ExactCfgEntry where
  addr := entry.addr
  cfg := entry.cfg
  fmt := assign entry.format

/-- `load_trace_cfg`, on the members of the parser and the bytes of the
file. -/
def loadTraceCfg (p : Parser) (file : List UInt8) : Parser :=
  match readRecord traceCfgHeaderLayout file with
  | none => p
  | some (hdr, stream) =>
    if hdr.magic ≠ traceCfgMagic ∨ hdr.version ≠ traceCfgVersion then p
    else
      { genericCfg := hdr.genericCfg
        genericFmt := assign hdr.genericFormat
        -- A record that is cut off ends the loop; the slots from it on stay as they are.
        exactCfgs := (readSlots exactEntryLayout loadExactEntry
          (resize p.exactCfgs hdr.exactEntryCount.toNat freshExactCfg) stream).1
        ripSlot := findDataSlot hdr.genericCfg .guestRip }

/-! ### The module list -/

/-- "RVMOD", little-endian. -/
def moduleMagic : UInt64 := 0x444F4D5652

/-- The format version of a module list. -/
def moduleVersion : UInt32 := 1

/-- Length of the name array of a module, its NUL included. -/
def maxNameLength : Nat := 64

/-- Length of the path array of a module, its NUL included. -/
def maxPathLength : Nat := 260

/-- `module_export::file_header`. -/
structure ModuleHeader where
  magic : UInt64
  version : UInt32
  moduleCount : UInt32

/-- `module_export::module_entry`. -/
structure ModuleEntry where
  base : UInt64
  size : UInt64
  name : Vector UInt8 64
  fullPath : Vector UInt8 260
  tail : Vector UInt8 4

/-- The bytes of a `module_export::file_header`. -/
def moduleHeaderLayout : Layout ModuleHeader :=
  (Layout.uint64.prod <| Layout.uint32.prod Layout.uint32).map
    (fun h => (h.magic, h.version, h.moduleCount))
    (fun (magic, version, moduleCount) => ⟨magic, version, moduleCount⟩)
    fun _ => rfl

/-- The bytes of a `module_export::module_entry`. -/
def moduleEntryLayout : Layout ModuleEntry :=
  (Layout.uint64.prod <| Layout.uint64.prod <| (Layout.bytes 64).prod <|
    (Layout.bytes 260).prod <| Layout.bytes 4).map
    (fun e => (e.base, e.size, e.name, e.fullPath, e.tail))
    (fun (base, size, name, fullPath, tail) => ⟨base, size, name, fullPath, tail⟩)
    fun _ => rfl

/-- `kmodule` in the controller and `module_info` in the parser, which
have the same members. -/
structure ModuleInfo where
  base : UInt64
  size : UInt64
  name : List UInt8
  fullPath : List UInt8
  deriving DecidableEq

/-- The header that `export_modules` writes. -/
def moduleHeader (modules : List ModuleInfo) : ModuleHeader where
  magic := moduleMagic
  version := moduleVersion
  moduleCount := UInt32.ofNat modules.length

/-- The record that `export_modules` writes for a module. -/
def moduleEntry (tail : Vector UInt8 4) (mod : ModuleInfo) : ModuleEntry where
  base := mod.base
  size := mod.size
  name := charArray maxNameLength mod.name
  fullPath := charArray maxPathLength mod.fullPath
  tail := tail

/-- The bytes that `export_modules` writes, `none` for an empty list. -/
def exportModules (tails : Nat → Vector UInt8 4) (modules : List ModuleInfo) :
    Option (List UInt8) :=
  if modules = [] then none
  else some (moduleHeaderLayout.toBytes (moduleHeader modules) ++
    writeRecords moduleEntryLayout (modules.mapIdx fun i mod => moduleEntry (tails i) mod))

/-- A value-initialised `module_info`. -/
def freshModule : ModuleInfo where
  base := 0
  size := 0
  name := []
  fullPath := []

/-- What `load_modules` stores for a record. -/
def loadModuleEntry (me : ModuleEntry) : ModuleInfo where
  base := me.base
  size := me.size
  name := assign me.name
  fullPath := assign me.fullPath

/-- `load_modules`, on the module list of the parser and the bytes of
the file: the list then, and what it returns. -/
def loadModules (modules : List ModuleInfo) (file : List UInt8) : List ModuleInfo × Bool :=
  match readRecord moduleHeaderLayout file with
  | none => (modules, false)
  | some (hdr, stream) =>
    if hdr.magic ≠ moduleMagic ∨ hdr.version ≠ moduleVersion then (modules, false)
    else readSlots moduleEntryLayout loadModuleEntry
      (resize modules hdr.moduleCount.toNat freshModule) stream

end Revhv.SnapshotFiles
