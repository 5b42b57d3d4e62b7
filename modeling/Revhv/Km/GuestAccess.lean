import Revhv.Km.Hypercall.AutoTrace
import Revhv.Km.Trace

/-!
# `Revhv.Km.GuestAccess`: memory accesses of the guest

What the processor does with an access of the guest: it looks at the
entry of the view in use and performs the access, or it reports an EPT
violation and, when `handle_ept_violation` has returned, tries again.
The views map the first 512 GB only.
-/

set_option autoImplicit false

namespace Revhv.Vmexit

open Revhv.Ept Revhv.Lib Revhv.Memory Revhv.Trace Revhv.TransitionCfg Revhv.Vcpu

/-- The kinds of accesses. -/
inductive AccessKind where
  | fetch
  | read
  | write
  deriving DecidableEq

/-- An access of the guest, with the guest's state and the time stamp
counter at that point. -/
structure Access where
  kind : AccessKind
  guestPhysicalAddress : Nat
  guestLinearAddress : Nat
  guest : GuestState
  tsc : UInt64

/-- The page an access goes to. -/
def Access.page (a : Access) : GuestPage := pageOf a.guestPhysicalAddress

/-- The right an access needs. -/
def permits (e : EptPte) : AccessKind → Bool
  | .fetch => e.executeAccess
  | .read => e.readAccess
  | .write => e.writeAccess

/-- The view lets the access through. -/
def EptPages.Permits (pages : EptPages) (a : Access) : Prop :=
  a.guestPhysicalAddress < 2 ^ 39 ∧ permits (pages.walk a.page) a.kind = true

/-- The rights of a page are read off its walk. -/
instance (pages : EptPages) (a : Access) : Decidable (EptPages.Permits pages a) :=
  inferInstanceAs (Decidable (_ ∧ _))

/-- The violation the processor reports otherwise. -/
def Access.violation (a : Access) : EptViolation where
  executeAccess := decide (a.kind = .fetch)
  causedByTranslation := true
  guestPhysicalAddress := a.guestPhysicalAddress
  guestLinearAddress := a.guestLinearAddress
  guest := a.guest
  tsc := a.tsc

/-- An access with so many attempts. `none`: they did not suffice, or
the handler has stopped with an unrecoverable error. -/
def performAccess : Nat → Vcpu → Access → Option Vcpu
  | 0, _, _ => none
  | attempts + 1, v, a =>
      if EptPages.Permits v.walkedPages a then some v
      else
        (handleEptViolation { v with guestContext := a.guest.ctx } a.violation).bind fun v' =>
          performAccess attempts v' a

/-! ### Instructions -/

/-- An instruction of the guest. Its bytes lie on one virtual page or on
two. -/
structure Instruction where
  address : Nat
  length : Nat
  guest : GuestState
  nonempty : 0 < length
  twoPages : toPfn (address + (length - 1)) ≤ toPfn address + 1

/-- The page of byte `k`, where `paging` is the guest's own paging. -/
def Instruction.page (i : Instruction) (paging : Nat → GuestPage) (k : Nat) : GuestPage :=
  paging (toPfn (i.address + k))

/-- The fetch of byte `k`. -/
def Instruction.fetch (i : Instruction) (paging : Nat → GuestPage) (k : Nat) (tsc : UInt64) :
    Access where
  kind := .fetch
  guestPhysicalAddress := (i.page paging k).frame * 2 ^ 12 + offset (i.address + k)
  guestLinearAddress := i.address + k
  guest := i.guest
  tsc

/-- A processor that tries to fetch an instruction. In each event it
reports a violation for one of the bytes that the view in use does not
let it fetch, and tries again. It comes to an end when there is none. -/
def fetchMachine (paging : Nat → GuestPage) (i : Instruction) : Machine Vcpu (Nat × UInt64) where
  next v e :=
    let a := i.fetch paging e.1 e.2
    if e.1 < i.length ∧ ¬ EptPages.Permits v.walkedPages a then
      handleEptViolation { v with guestContext := a.guest.ctx } a.violation
    else none

/-- An access, or another core's drain of this core's ring. -/
inductive GuestEvent where
  | access (a : Access)
  | drain (maxEntries : Nat)

/-- A vCPU, and the entries drained from its ring so far. -/
structure TracedVcpu where
  vcpu : Vcpu
  drained : List Entry

/-- A guest that runs between two hypercalls. -/
def guestMachine (attempts : Nat) : Machine TracedVcpu GuestEvent where
  next s
    | .access a => (performAccess attempts s.vcpu a).map fun v' => { s with vcpu := v' }
    | .drain maxEntries =>
        let result := drain s.vcpu.traceBuffer maxEntries
        some ⟨{ s.vcpu with traceBuffer := result.1 }, s.drained ++ result.2⟩

end Revhv.Vmexit
