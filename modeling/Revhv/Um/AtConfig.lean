import Revhv.Km.TransitionCfg

/-!
# `Revhv.Um.AtConfig`: the controller's mirror of the capture configs

`handle_at_config` (`revhv-um/commands.cpp`) sends a config to the cores
and, when they accept it, mirrors it in two members of the engine.
`export_trace_config` writes the mirror out for the offline parser.
The strings are lists of bytes.
-/

set_option autoImplicit false

namespace Revhv.AtConfig

open Revhv.Trace Revhv.TransitionCfg

/-- A mirrored exact-address config with its optional display format. -/
structure ExactCfgEntry where
  addr : UInt64
  cfg : EptTransitionCfg
  fmt : List UInt8
  deriving DecidableEq

/-- The members of the engine that `at config` works on. -/
structure Engine where
  genericTransitionCfg : EptTransitionCfg
  genericTransitionFmt : List UInt8
  exactTransitionCfgs : List ExactCfgEntry

/-- An engine at its start. -/
def Engine.start : Engine where
  genericTransitionCfg := defaultGenericCfg
  genericTransitionFmt := []
  exactTransitionCfgs := []

/-- Change the first entry for `addr`, or append `new` when there is
none. -/
def updateFirst (addr : UInt64) (f : ExactCfgEntry → ExactCfgEntry) (new : List ExactCfgEntry) :
    List ExactCfgEntry → List ExactCfgEntry
  | [] => new
  | e :: es => if e.addr = addr then f e :: es else e :: updateFirst addr f new es

/-- The commands that change configs or formats. -/
inductive ConfigCommand where
  | generic (cfg : EptTransitionCfg)
  | exact (addr : UInt64) (cfg : EptTransitionCfg)
  | fmtGeneric (fmt : List UInt8)
  | fmtExact (addr : UInt64) (fmt : List UInt8)
  deriving DecidableEq

/-- One `at config` command, on a vCPU and on the engine. The engine
mirrors a config only when the hypercall succeeds. -/
def atConfig (cfgs : TransitionCfgs) (eng : Engine) : ConfigCommand → TransitionCfgs × Engine
  | .generic cfg =>
      ({ cfgs with genericTransitionCfg := cfg }, { eng with genericTransitionCfg := cfg })
  | .exact addr cfg =>
      match insertExactTransitionCfg cfgs addr cfg with
      -- The hypervisor refused, so the mirror stays.
      | none => (cfgs, eng)
      | some cfgs' =>
          (cfgs', { eng with
            exactTransitionCfgs := updateFirst addr (fun e => { e with cfg := cfg })
              [⟨addr, cfg, []⟩] eng.exactTransitionCfgs })
  | .fmtGeneric fmt => (cfgs, { eng with genericTransitionFmt := fmt })
  | .fmtExact addr fmt =>
      (cfgs, { eng with
        -- A format is only set where the address has an entry.
        exactTransitionCfgs := updateFirst addr (fun e => { e with fmt := fmt }) []
          eng.exactTransitionCfgs })

/-- The capture configs of a vCPU on which a controller has started: the
table is empty, and the controller has set the default generic config. -/
def initialCfgs : TransitionCfgs where
  genericTransitionCfg := defaultGenericCfg
  exactTransitionCfgs _ := ⟨0, ⟨fun _ => .none⟩⟩
  exactTransitionCfgCount := 0

/-- The vCPU and the engine after a series of commands. -/
def atConfigs (cmds : List ConfigCommand) : TransitionCfgs × Engine :=
  cmds.foldl (fun s cmd => atConfig s.1 s.2 cmd) (initialCfgs, Engine.start)

/-- Maximum length of a display format in the export, its NUL included. -/
def maxFormatLength : Nat := 256

/-- The records of an exported config. The format arrays are given up to
their first NUL. -/
structure TraceCfgExport where
  genericCfg : EptTransitionCfg
  genericFormat : List UInt8
  exactEntries : List ExactCfgEntry

/-- A format as its array in the export reads back: cut to 255 bytes, up
to the first NUL. -/
def exportFormat (fmt : List UInt8) : List UInt8 :=
  (fmt.take (maxFormatLength - 1)).takeWhile (· ≠ 0)

/-- `export_trace_config`. -/
def exportTraceConfig (eng : Engine) : TraceCfgExport where
  genericCfg := eng.genericTransitionCfg
  genericFormat := exportFormat eng.genericTransitionFmt
  exactEntries := eng.exactTransitionCfgs.map fun e => { e with fmt := exportFormat e.fmt }

end Revhv.AtConfig
