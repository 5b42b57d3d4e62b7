import Mathlib.Algebra.GroupWithZero.Nat
import Revhv.Km.Trace
import Revhv.Km.Vcpu

/-!
# `Revhv.Km.TransitionCfg`: capture configs on a vCPU

The table of exact-address configs with its insert
(`revhv-km/hypercall.cpp`), and what the exit handler does with it at a
target-to-normal transition (`revhv-km/vmexit.cpp`): look up the config
for the guest RIP and resolve its six data fields.
-/

set_option autoImplicit false

namespace Revhv.TransitionCfg

open Revhv.Trace Revhv.Vcpu

/-- Number of slots of the table, a power of two. -/
def maxExactTransitionCfgs : Nat := 64

/-- A slot of the table. Address 0 marks an empty one. -/
structure ExactEntry where
  addr : UInt64
  cfg : EptTransitionCfg
  deriving DecidableEq

/-- The capture configs of a vCPU. -/
structure TransitionCfgs where
  genericTransitionCfg : EptTransitionCfg
  exactTransitionCfgs : Fin maxExactTransitionCfgs → ExactEntry
  exactTransitionCfgCount : Nat

/-- The table has slots, so a numeral is one of them. -/
instance : NeZero maxExactTransitionCfgs := ⟨by decide⟩

/-- The slot a probe of `addr` starts at. -/
def initialSlot (addr : UInt64) : Nat := (addr.toNat >>> 3) &&& (maxExactTransitionCfgs - 1)

/-- The slot of round `i`. -/
def slotAt (addr : UInt64) (i : Nat) : Fin maxExactTransitionCfgs :=
  Fin.ofNat maxExactTransitionCfgs (initialSlot addr + i)

/-- The loop of `insert_exact_transition_cfg` from round `i` on. -/
def insertLoop (cfgs : TransitionCfgs) (addr : UInt64) (cfg : EptTransitionCfg) :
    (fuel i : Nat) → Option TransitionCfgs
  -- All slots are taken by other addresses.
  | 0, _ => none
  | fuel + 1, i =>
      let slot := slotAt addr i
      let e := cfgs.exactTransitionCfgs slot
      if e.addr = addr then
        -- The address has a slot: the count stays.
        some { cfgs with
          exactTransitionCfgs := Function.update cfgs.exactTransitionCfgs slot { e with cfg := cfg } }
      else if e.addr = 0 then
        some { cfgs with
          exactTransitionCfgs := Function.update cfgs.exactTransitionCfgs slot ⟨addr, cfg⟩
          exactTransitionCfgCount := cfgs.exactTransitionCfgCount + 1 }
      else insertLoop cfgs addr cfg fuel (i + 1)

/-- `insert_exact_transition_cfg`: `none` when the table is full. -/
def insertExactTransitionCfg (cfgs : TransitionCfgs) (addr : UInt64) (cfg : EptTransitionCfg) :
    Option TransitionCfgs :=
  insertLoop cfgs addr cfg maxExactTransitionCfgs 0

/-- The loop of `lookup_transition_cfg` from round `i` on. -/
def lookupLoop (cfgs : TransitionCfgs) (guestRip : UInt64) :
    (fuel i : Nat) → Option EptTransitionCfg
  | 0, _ => none
  | fuel + 1, i =>
      let e := cfgs.exactTransitionCfgs (slotAt guestRip i)
      if e.addr = 0 then none
      else if e.addr = guestRip then some e.cfg
      else lookupLoop cfgs guestRip fuel (i + 1)

/-- `lookup_transition_cfg`. -/
def lookupTransitionCfg (cfgs : TransitionCfgs) (guestRip : UInt64) : EptTransitionCfg :=
  if 0 < cfgs.exactTransitionCfgCount then
    (lookupLoop cfgs guestRip maxExactTransitionCfgs 0).getD cfgs.genericTransitionCfg
  else cfgs.genericTransitionCfg

/-- The guest at the transition: RIP and RSP from the VMCS, the saved
registers, and the eight bytes `read_guest_virtual` reads at an address,
those it cannot read being 0. -/
structure GuestState where
  rip : UInt64
  rsp : UInt64
  ctx : GuestContext
  readGuestVirtual : UInt64 → UInt64

/-- `resolve_data_field`. -/
def resolveDataField (g : GuestState) : EptTransitionDataField → UInt64
  | .none => 0
  | .guestRip => g.rip
  | .guestRsp => g.rsp
  | .guestRax => g.ctx.rax
  | .guestRbx => g.ctx.rbx
  | .guestRcx => g.ctx.rcx
  | .guestRdx => g.ctx.rdx
  | .guestRsi => g.ctx.rsi
  | .guestRdi => g.ctx.rdi
  | .guestRbp => g.ctx.rbp
  | .guestR8 => g.ctx.r8
  | .guestR9 => g.ctx.r9
  | .guestR10 => g.ctx.r10
  | .guestR11 => g.ctx.r11
  | .guestR12 => g.ctx.r12
  | .guestR13 => g.ctx.r13
  | .guestR14 => g.ctx.r14
  | .guestR15 => g.ctx.r15
  -- A failed read leaves the zero of the initialised variable.
  | .guestRetaddr => if g.rsp = 0 then 0 else g.readGuestVirtual g.rsp
  | .other _ _ => 0

/-- `resolve_data_fields`. -/
def resolveDataFields (cfg : EptTransitionCfg) (g : GuestState) : Fin 6 → UInt64 :=
  fun i => resolveDataField g (cfg.dataMap i)

/-- The entry `handle_ept_violation` hands to `emit` at a
target-to-normal transition. -/
def transitionEntry (cfgs : TransitionCfgs) (core : UInt16) (tsc : UInt64) (g : GuestState) :
    Entry :=
  makeEntry .eptTargetTransition core tsc
    (resolveDataFields (lookupTransitionCfg cfgs g.rip) g)

end Revhv.TransitionCfg
