import Revhv.Lib.Machine
import Mathlib.Logic.Function.Basic
import Mathlib.Data.Fin.Basic

/-!
# `Revhv.Km.Error`: the crash protocol

`raise_host_crash`, `unrecoverable_host_error` and
`give_control_on_unrecoverable_error` (`revhv-km/error.cpp`), as the
steps that a core takes in them, with the two NMI handlers that call the
last one (`revhv-km/exception.cpp`, `revhv-km/vmexit.cpp`) and the parts
of `devirtualize` (`revhv-km/vcpu.cpp`) that decide who handles an
interruption: VMXOFF, and the load of the OS interrupt table.

`crashMachine` interleaves the cores, host errors, external NMIs and the
initiator's broadcast. Two ghost fields: `won` marks the cores that won
the compare-exchange of `crash_in_progress`, and `acks` lists the cores
in the order in which they incremented `crash_ack_core_count`.
-/

set_option autoImplicit false

namespace Revhv.Error

open Revhv.Lib

/-- Why a core devirtualizes: it raised the crash, or it responds to it. -/
inductive Role where
  | initiator
  | responder
  deriving DecidableEq

/-- Where a core goes on when it finds that no crash is in progress. -/
inductive Resume where
  /-- The NMI exit: on with the exit handler. -/
  | exitHandler
  /-- A host NMI in the exit handler. -/
  | root
  /-- A host NMI before the compare-exchange. -/
  | raise
  /-- After a lost compare-exchange there is no way on. -/
  | noReturn
  deriving DecidableEq

/-- Where a core is. -/
inductive CorePc where
  | guest
  /-- In the exit handler, outside the crash protocol. -/
  | root
  /-- In `raise_host_crash`, before the compare-exchange. -/
  | raise
  /-- In `give_control_on_unrecoverable_error`, before the load of
  `crash_in_progress`. -/
  | check (resume : Resume)
  /-- In `devirtualize`, before VMXOFF. -/
  | vmxoff (role : Role)
  /-- Between VMXOFF and the load of the OS interrupt table. -/
  | restoreIdt (role : Role)
  /-- In the rest of `devirtualize`. -/
  | restoreRest (role : Role)
  /-- Before the increment of `crash_ack_core_count`. -/
  | acknowledge (role : Role)
  /-- The initiator before it sends the NMIs. -/
  | notify
  /-- The initiator in its busy wait. -/
  | wait
  /-- In `KeBugCheckEx`. `notified` tells the call behind the busy wait
  from the one behind a failed `MmMapIoSpace`. -/
  | bugcheck (notified : Bool)
  /-- In `cpu_hang_unblock_nmi`. -/
  | parked
  deriving DecidableEq

/-- The hypervisor's interrupt table is loaded. -/
def CorePc.hostIdt : CorePc → Bool
  | .root | .raise | .check _ | .vmxoff _ | .restoreIdt _ => true
  | _ => false

/-- A core: its program point, whether it is in VMX operation, whether
NMIs are blocked, and whether one is latched. -/
structure Core where
  pc : CorePc
  vmx : Bool
  nmiBlocked : Bool
  nmiPending : Bool
  deriving DecidableEq

/-- How the initiator reaches the LAPIC: as an x2APIC, through the
mapped registers, or not at all because `MmMapIoSpace` fails. -/
inductive LapicAccess where
  | x2apic
  | mapped
  | unmapped
  deriving DecidableEq

/-- What happens next to a core. -/
inductive CoreEvent where
  /-- A VM exit that is not an NMI. -/
  | vmexit
  | vmentry
  /-- An unexpected exception in the host. -/
  | hostError
  /-- An external NMI arrives and is latched. -/
  | externalNmi
  /-- The latched NMI is delivered. -/
  | deliverNmi
  /-- The next step of the protocol. `lapic` matters only to the
  initiator. -/
  | step (lapic : LapicAccess)
  deriving DecidableEq

/-- The cores, `crash_in_progress`, `crash_ack_core_count` and the ghost
fields. -/
structure CrashState (n : Nat) where
  cores : Fin n → Core
  crashInProgress : Bool
  crashAckCoreCount : Nat
  won : Fin n → Bool
  acks : List (Fin n)

/-- Where a core goes on from an interrupted program point. Only the
first two are ever resumed, since a set flag is never cleared. -/
def CorePc.resume : CorePc → Resume
  | .root => .root
  | .raise => .raise
  | _ => .noReturn

/-- The delivery of a latched NMI. In the guest it exits, under the
hypervisor's interrupt table it runs the host handler, and after that
table is gone it is the OS that handles it. -/
def deliverNmi (k : Core) : Option Core :=
  if k.nmiPending ∧ ¬ k.nmiBlocked then
    if k.pc = .guest then
      some { k with pc := .check .exitHandler, nmiPending := false, nmiBlocked := true }
    else if k.pc.hostIdt then
      some { k with pc := .check k.pc.resume, nmiPending := false, nmiBlocked := true }
    else some { k with nmiPending := false }
  else none

/-- One event of a core that touches nothing outside it. -/
def localEvent (k : Core) : CoreEvent → Option Core
  | .vmexit => if k.pc = .guest then some { k with pc := .root } else none
  | .vmentry =>
      if k.pc = .root then some { k with pc := .guest, nmiBlocked := false } else none
  | .hostError => if k.pc.hostIdt then some { k with pc := .raise } else none
  | .externalNmi => some { k with nmiPending := true }
  | .deliverNmi => deliverNmi k
  | .step _ => none

/-- The core with another program point. -/
def CrashState.goto {n : Nat} (s : CrashState n) (c : Fin n) (pc : CorePc) : CrashState n :=
  { s with cores := Function.update s.cores c { s.cores c with pc := pc } }

/-- The broadcast latches an NMI on every other core. -/
def CrashState.broadcastNmi {n : Nat} (s : CrashState n) (c : Fin n) : CrashState n :=
  { s with cores := fun c' =>
      if c' = c then s.cores c' else { s.cores c' with nmiPending := true } }

/-- One step of the protocol on core `c`. -/
def protocolStep {n : Nat} (s : CrashState n) (c : Fin n) (lapic : LapicAccess) :
    Option (CrashState n) :=
  let k := s.cores c
  match k.pc with
  | .raise =>
      if s.crashInProgress then some (s.goto c (.check .noReturn))
      else
        some { s.goto c (.vmxoff .initiator) with
          crashInProgress := true
          won := Function.update s.won c true }
  | .check resume =>
      if s.crashInProgress then some (s.goto c (.vmxoff .responder))
      else
        match resume with
        -- The NMI is queued for the guest. The exit handler goes on with NMIs blocked, the
        -- interrupted host code without.
        | .exitHandler => some (s.goto c .root)
        | .root => some { s with
            cores := Function.update s.cores c { k with pc := .root, nmiBlocked := false } }
        | .raise => some { s with
            cores := Function.update s.cores c { k with pc := .raise, nmiBlocked := false } }
        | .noReturn => none
  | .vmxoff role =>
      if k.vmx then some { s with
        cores := Function.update s.cores c { k with pc := .restoreIdt role, vmx := false } }
      -- Outside VMX operation the instruction faults, and the fault is a host error.
      else some (s.goto c .raise)
  | .restoreIdt role => some (s.goto c (.restoreRest role))
  | .restoreRest role => some (s.goto c (.acknowledge role))
  | .acknowledge role =>
      -- The initiator switches its code segment before the increment and the responder hangs
      -- behind it, both with an IRET that unblocks NMIs.
      let pc := match role with
        | .initiator => .notify
        | .responder => .parked
      some { s with
        cores := Function.update s.cores c { k with pc := pc, nmiBlocked := false }
        crashAckCoreCount := s.crashAckCoreCount + 1
        acks := s.acks ++ [c] }
  | .notify =>
      match lapic with
      | .unmapped => some (s.goto c (.bugcheck false))
      | _ => some ((s.broadcastNmi c).goto c .wait)
  | .wait =>
      if s.crashAckCoreCount < n then some s else some (s.goto c (.bugcheck true))
  | _ => none

/-- All cores, in any interleaving. -/
def crashMachine (n : Nat) : Machine (CrashState n) (Fin n × CoreEvent) where
  next s ev :=
    match ev.2 with
    | .step lapic => protocolStep s ev.1 lapic
    | e => (localEvent (s.cores ev.1) e).map fun k =>
        { s with cores := Function.update s.cores ev.1 k }

/-- All cores run the guest and no crash is in progress. -/
def CrashState.initial (n : Nat) : CrashState n where
  cores _ := ⟨.guest, true, false, false⟩
  crashInProgress := false
  crashAckCoreCount := 0
  won _ := false
  acks := []

end Revhv.Error
