import Revhv.Proofs.EptMachine

/-!
# `Revhv.Proofs.ViewLockstep`: a hook goes into both views or into neither

`handle_ept_hook` adds a hook to the normal view and then to the target
view. It has no way back when only the second call fails. The two views
agree in everything `add_hook` looks at, so this never happens.

* `views_lockstep`: in every state of a run the two views have split the
  same PDEs, with the same tables, and hold the same hooks. `add_hook`
  gives the same answer on both, and a hook request changes both views
  or none.
-/

set_option autoImplicit false

namespace Revhv.Hypercall

open Revhv.Ept Revhv.Lib Revhv.Memory Revhv.Trace Revhv.Vcpu Revhv.Vmexit

/-- What a hook request has done: the same hook is the last one of both
views, or nothing has changed in either. -/
def BothOrNeither (v v' : Vcpu) : Prop :=
  (v'.guestContext.rax = 1 ∧ ∃ hook, v'.ept.normal.hooks = v.ept.normal.hooks ++ [hook] ∧
    v'.ept.target.hooks = v.ept.target.hooks ++ [hook]) ∨
  (v'.guestContext.rax = 0 ∧ v'.ept = v.ept)

/-- A hypercall for a hook puts it in both views or in neither. -/
theorem handleEptHook_both {v : Vcpu} (h : v.ept.WF) (ctx : GuestContext) :
    BothOrNeither v (handleEptHook { v with guestContext := ctx }) := by
  have hlock := lockstep_addHook h.normal h.target h.lockstep ctx.rdx.toNat ctx.r8.toNat
  unfold handleEptHook
  cases addHook_cases h.normal ctx.rdx.toNat ctx.r8.toNat with
  | inl hrefused =>
    simp only [hrefused]
    exact Or.inr ⟨rfl, rfl⟩
  | inr hstored =>
    obtain ⟨normal, hnormal, _⟩ := hstored
    cases addHook_cases h.target ctx.rdx.toNat ctx.r8.toNat with
    | inl hrefused =>
      -- The lockstep rules a hook in one view out.
      rw [hnormal, hrefused] at hlock
      cases hlock.1
    | inr hstored' =>
      obtain ⟨target, htarget, _⟩ := hstored'
      obtain ⟨pte, hhooks⟩ := hooks_addHook h.normal hnormal
      rw [hnormal, htarget] at hlock
      have hsame : target.hooks = normal.hooks := hlock.2.hooks.symm
      simp only [hnormal, htarget, if_true]
      refine Or.inl ⟨rfl, _, hhooks, ?_⟩
      show target.hooks = v.ept.target.hooks ++ [_]
      rw [hsame, hhooks, h.lockstep.hooks]

/-- In every state a run reaches the views are in lockstep, `add_hook`
answers the same on both, and a hook request changes both or none. -/
theorem views_lockstep (systemCr3 : Nat) (setup : VcpuSetup) (entries : Nat → Entry)
    (es : List EptExit) {v : Vcpu}
    (hrun : (eptMachine systemCr3).run (initialVcpu setup entries) es = some v) :
    Lockstep v.ept.normal v.ept.target ∧
      (∀ i j, v.ept.normal.IsSplit i j ↔ v.ept.target.IsSplit i j) ∧
      (∀ origPfn hookPfn,
        (addHook v.ept.normal origPfn hookPfn).2 = (addHook v.ept.target origPfn hookPfn).2) ∧
      ∀ ctx, BothOrNeither v (handleEptHook { v with guestContext := ctx }) := by
  have h := (reachable_wf hrun).ept
  refine ⟨h.lockstep, h.lockstep.isSplit h.normal h.target, fun origPfn hookPfn => ?_,
    handleEptHook_both h⟩
  exact (lockstep_addHook h.normal h.target h.lockstep origPfn hookPfn).1

/-- A hook on a new vCPU, and an end of a session that never started. -/
theorem views_lockstep_oneHook : ∃ v,
    (eptMachine 1).run plainVcpu [.eptHook (hypercallContext 5 6), .disableAutoTrace .zero] =
      some v ∧ Lockstep v.ept.normal v.ept.target := by
  have hrun : (eptMachine 1).run plainVcpu
      [.eptHook (hypercallContext 5 6), .disableAutoTrace .zero] =
      some (handleDisableAutoTrace
        { handleEptHook { plainVcpu with guestContext := hypercallContext 5 6 } with
          guestContext := .zero }) := rfl
  exact ⟨_, hrun, (views_lockstep 1 plainSetup _ _ hrun).1⟩

end Revhv.Hypercall
