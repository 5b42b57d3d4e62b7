import Revhv.Um.AtConfig

/-!
# `Revhv.Um.TraceParser`: config selection in the offline parser

`load_trace_cfg` and the part of `format_entry` that chooses the config
and the display format for an entry (`revhv-um/trace_parser.hpp`). The
parser never sees the guest RIP itself: it reads it back from the slot
in which the generic config captures it.
-/

set_option autoImplicit false

namespace Revhv.TraceParser

open Revhv.Trace Revhv.AtConfig

/-- The config state of the parser. `ripSlot` is `none` for -1. -/
structure Parser where
  genericCfg : EptTransitionCfg
  genericFmt : List UInt8
  exactCfgs : List ExactCfgEntry
  ripSlot : Option (Fin 6)

/-- The first slot of `cfg` that holds `field` (`find_data_slot`). -/
def findDataSlot (cfg : EptTransitionCfg) (field : EptTransitionDataField) : Option (Fin 6) :=
  (List.finRange 6).find? fun i => cfg.dataMap i = field

/-- `load_trace_cfg` on the records of an export. -/
def loadTraceCfg (file : TraceCfgExport) : Parser where
  genericCfg := file.genericCfg
  genericFmt := file.genericFormat
  exactCfgs := file.exactEntries
  ripSlot := findDataSlot file.genericCfg .guestRip

/-- The entry of the exact configs that `format_entry` finds for `e`. -/
def findExact (p : Parser) (e : Entry) : Option ExactCfgEntry :=
  p.ripSlot.bind fun slot => p.exactCfgs.find? fun ex => ex.addr = e.data slot

/-- The config and the custom format with which `format_entry` prints an
entry of the target-transition kind. An empty format stands for none. -/
def selectCfg (p : Parser) (e : Entry) : EptTransitionCfg × List UInt8 :=
  match findExact p e with
  | none => (p.genericCfg, p.genericFmt)
  | some ex => (ex.cfg, if ex.fmt ≠ [] then ex.fmt else p.genericFmt)

/-- The fields `format_entry` prints without a custom format: name and
raw value of every slot that the selected config assigns. -/
def printedFields (p : Parser) (e : Entry) : List (EptTransitionDataField × UInt64) :=
  ((List.finRange 6).filter fun i => (selectCfg p e).1.dataMap i ≠ .none).map fun i =>
    ((selectCfg p e).1.dataMap i, e.data i)

end Revhv.TraceParser
