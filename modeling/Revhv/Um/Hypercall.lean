import Revhv.Km.Hypercall.AutoTrace
import Revhv.Lib.Broadcast
import Revhv.Um.AtConfig

/-!
# `Revhv.Um.Hypercall`: the controller's broadcasts

`auto_trace_enable` and `config_ept_transition` (`revhv-um/hypercall.cpp`)
make one hypercall on every core in turn. They do not stop at a core
that refuses, and report whether one did. `handle_at_config_ept_transition`
(`revhv-km/hypercall.cpp`) is the core's side of the second.

`controllerMachine` is the life of the controller (`revhv-um/commands.cpp`)
as far as capture configs go: it starts with the default generic config
on all cores and an empty mirror, serves `at config` commands, exits,
and starts again while the hypervisor keeps running.
-/

set_option autoImplicit false

namespace Revhv.Hypercall

open Revhv.Lib Revhv.Memory Revhv.Trace Revhv.TransitionCfg Revhv.Vcpu Revhv.Vmexit

/-! ### One core -/

/-- An `at_config_request` with its scope. -/
inductive ConfigRequest where
  | generic (cfg : EptTransitionCfg)
  | exactAddr (addr : UInt64) (cfg : EptTransitionCfg)
  | unknown
  deriving DecidableEq

/-- `handle_at_config_ept_transition`. `none` is a request that cannot
be read. -/
def handleAtConfigEptTransition (v : Vcpu) : Option ConfigRequest → Vcpu
  | none => setRax v 0
  | some (.generic cfg) =>
      let v := { v with transitionCfgs := { v.transitionCfgs with genericTransitionCfg := cfg } }
      setRax v 1
  | some (.exactAddr addr cfg) =>
      match insertExactTransitionCfg v.transitionCfgs addr cfg with
      | some transitionCfgs => setRax { v with transitionCfgs } 1
      | none => setRax v 0
  | some .unknown => setRax v 0

/-- What a hypercall of the controller meets on a core. -/
structure CallSite where
  /-- The VMCALL reaches the hypervisor. If not, the controller catches
  the exception. -/
  delivered : Bool
  /-- The request can be read from guest memory. -/
  readable : Bool
  /-- The registers that carry no argument. -/
  registers : GuestContext
  /-- The guest's page tables. -/
  tables : Tables

/-- `__vmcall` under `__try`: the answer is whether RAX is not zero. -/
def vmcall (site : CallSite) (ctx : GuestContext) (handler : Vcpu → Vcpu) (v : Vcpu) :
    Vcpu × Bool :=
  if site.delivered then
    let v := handler { v with guestContext := ctx }
    (v, v.guestContext.rax != 0)
  else (v, false)

/-- The call of `auto_trace_enable` on one core. -/
def enableCall (systemCr3 : Nat) (site : CallSite) (targetVa targetSize : UInt64) (v : Vcpu) :
    Vcpu × Bool :=
  vmcall site { site.registers with rdx := targetVa, r8 := targetSize }
    (handleEnableAutoTrace systemCr3 site.tables) v

/-- The call of `config_ept_transition` on one core. -/
def configCall (site : CallSite) (req : ConfigRequest) (v : Vcpu) : Vcpu × Bool :=
  vmcall site site.registers
    (fun v => handleAtConfigEptTransition v (if site.readable then some req else none)) v

/-! ### All cores -/

variable {n : Nat}

/-- `for_each_cpu` (`revhv-um/utils.hpp`), with the conjunction of what
the calls answer. `SetThreadAffinityMask` is asked for one core after
another, and iteration `i` runs on core `place i`, wherever that is: the
source does not look at the answer. -/
def forEachCpu (place : Fin n → Fin n) (call : Fin n → Vcpu → Vcpu × Bool) (cores : Fin n → Vcpu) :
    (Fin n → Vcpu) × Bool :=
  ((List.finRange n).map place).foldl (Broadcast.visit call) (cores, true)

/-- `auto_trace_enable`. -/
def autoTraceEnable (place : Fin n → Fin n) (systemCr3 : Nat) (sites : Fin n → CallSite)
    (targetVa targetSize : UInt64) (cores : Fin n → Vcpu) : (Fin n → Vcpu) × Bool :=
  forEachCpu place (fun c => enableCall systemCr3 (sites c) targetVa targetSize) cores

/-- `config_ept_transition`. -/
def configEptTransition (place : Fin n → Fin n) (sites : Fin n → CallSite) (req : ConfigRequest)
    (cores : Fin n → Vcpu) : (Fin n → Vcpu) × Bool :=
  forEachCpu place (fun c => configCall (sites c) req) cores

end Revhv.Hypercall

namespace Revhv.AtConfig

open Revhv.Hypercall Revhv.Lib Revhv.Trace Revhv.TransitionCfg Revhv.Vmexit

/-! ### The controller -/

/-- What `handle_at_config` does to the mirror when all cores have
accepted a request. -/
def Engine.mirror (eng : Engine) : ConfigRequest → Engine
  | .generic cfg => { eng with genericTransitionCfg := cfg }
  | .exactAddr addr cfg =>
      { eng with
        exactTransitionCfgs := updateFirst addr (fun e => { e with cfg := cfg })
          [⟨addr, cfg, []⟩] eng.exactTransitionCfgs }
  | .unknown => eng

/-- The cores, and the controller if it runs. -/
structure ControllerState (n : Nat) where
  cores : Fin n → Vcpu
  engine : Option Engine

/-- What happens to the controller. -/
inductive ControllerEvent (n : Nat) where
  | start (sites : Fin n → CallSite)
  | atConfig (req : ConfigRequest) (sites : Fin n → CallSite)
  | exit

/-- The controller with all cores. Its constructor does not look at the
answer. Each iteration of `for_each_cpu` runs on its core, or on none if
the VMCALL is not delivered. -/
def controllerMachine (n : Nat) : Machine (ControllerState n) (ControllerEvent n) where
  next s
    | .start sites =>
        match s.engine with
        | some _ => none
        | none => some
            { cores := (configEptTransition id sites (.generic defaultGenericCfg) s.cores).1
              engine := some .start }
    | .atConfig req sites =>
        match s.engine with
        | none => none
        | some eng =>
            let (cores, success) := configEptTransition id sites req s.cores
            -- One core that refuses keeps the mirror as it was, the others have
            -- changed.
            some { cores, engine := some (if success then eng.mirror req else eng) }
    | .exit => some { s with engine := none }

/-- The capture config of a zeroed vCPU. -/
def zeroedCfgs : TransitionCfgs where
  genericTransitionCfg := ⟨fun _ => .none⟩
  exactTransitionCfgs _ := ⟨0, ⟨fun _ => .none⟩⟩
  exactTransitionCfgCount := 0

end Revhv.AtConfig
