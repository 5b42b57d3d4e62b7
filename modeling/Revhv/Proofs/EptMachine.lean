import Revhv.Km.Hypercall.AutoTrace
import Revhv.Proofs.EptMemoryTypes
import Revhv.Proofs.EptTrace

/-!
# `Revhv.Proofs.EptMachine`: what a VM exit does to the two views

`Vcpu.views` are the two views of a vCPU as guarded views. `ViewStep`
lists what an exit of `eptMachine` can do to them, with everything a
later argument needs to know about the exit.

* `next_viewStep`: every step is one of the list, and keeps the shape
  invariant.
* `reachable_wf`: the invariant holds after every run of a new vCPU.
-/

set_option autoImplicit false

namespace Revhv.Hypercall

open Revhv.Ept Revhv.Lib Revhv.Memory Revhv.Trace Revhv.TransitionCfg Revhv.Vcpu Revhv.Vmexit

/-! ### Pairs of views -/

/-- The normal and the target view. -/
structure ViewPair where
  normal : View GuestPage Nat
  target : View GuestPage Nat

namespace ViewPair

/-- The same operation on both views. -/
def both (f : View GuestPage Nat → View GuestPage Nat) (p : ViewPair) : ViewPair :=
  ⟨f p.normal, f p.target⟩

/-- A hook in both views. -/
def guard (p : ViewPair) (q : GuestPage) (s : Nat) : ViewPair := p.both fun v => v.guard q s

/-- All hooks suspended. -/
def suspend (p : ViewPair) : ViewPair := p.both (View.suspend GuestPage.frame)

/-- Full access everywhere, then the suspended hooks armed. -/
def reset (p : ViewPair) : ViewPair :=
  p.both fun v => (v.setAccess true true true).resume GuestPage.frame

/-- The pages trapped in the normal view, and the only executable ones
of the target view. -/
def trace (p : ViewPair) (pages : List GuestPage) : ViewPair where
  normal := p.normal.setExecute pages false
  target := (p.target.setAccess true true false).setExecute pages true

/-- The view in use. -/
def current (p : ViewPair) (inNormal : Bool) : View GuestPage Nat :=
  if inNormal then p.normal else p.target

/-- An operation on the view in use. -/
def onCurrent (p : ViewPair) (inNormal : Bool) (f : View GuestPage Nat → View GuestPage Nat) :
    ViewPair :=
  if inNormal then { p with normal := f p.normal } else { p with target := f p.target }

end ViewPair

end Revhv.Hypercall

namespace Revhv.Ept

/-- Some hook on the page has a pointer. -/
def EptPages.ActiveHook (pages : EptPages) (q : GuestPage) : Prop :=
  ∃ hook ∈ pages.hooks, hook.origPfn = q.frame ∧ hook.pte.isSome = true

/-- The processor may fetch instructions from the page. -/
def EptPages.Executable (pages : EptPages) (q : GuestPage) : Prop :=
  (pages.walk q).executeAccess = true

/-- Active hooks are active guards. -/
theorem activeHook_iff {pages : EptPages} (h : pages.WF) (q : GuestPage) :
    pages.ActiveHook q ↔ pages.view.Guarded q := by
  constructor
  · intro hactive
    obtain ⟨hook, hmem, horig, hpte⟩ := hactive
    exact ⟨hook.guard, List.mem_map_of_mem hmem, page_of_origPfn horig, hpte⟩
  · intro hguarded
    obtain ⟨g, hg, hpage, hactive⟩ := hguarded
    obtain ⟨hook, hmem, rfl⟩ := List.mem_map.mp hg
    obtain ⟨q', horig, _⟩ := h.hook hook hmem
    have heq : q' = q := (page_of_origPfn horig).symm.trans hpage
    exact ⟨hook, hmem, heq ▸ horig, hactive⟩

end Revhv.Ept

namespace Revhv.Vmexit

open Revhv.Ept Revhv.Hypercall Revhv.Lib

/-- The views of a vCPU. -/
def Vcpu.views (v : Vcpu) : ViewPair := ⟨v.ept.normal.view, v.ept.target.view⟩

/-- The shape invariant, and the agreement of the VMCS with
`in_normal_execution`. -/
structure Vcpu.WF (v : Vcpu) : Prop where
  ept : v.ept.WF
  pointer : v.eptPointer = v.currentEptp

/-- A page can be executed where the view says so. -/
theorem executable_normal_iff (v : Vcpu) (q : GuestPage) :
    v.ept.normal.Executable q ↔ (v.views.normal.map q).execute = true := Iff.rfl

/-- The same for the target view. -/
theorem executable_target_iff (v : Vcpu) (q : GuestPage) :
    v.ept.target.Executable q ↔ (v.views.target.map q).execute = true := Iff.rfl

/-- The hooks of the two views agree. -/
theorem Vcpu.WF.guards {v : Vcpu} (h : v.WF) : v.views.target.guards = v.views.normal.guards :=
  congrArg (List.map EptHook.guard) h.ept.lockstep.hooks.symm

/-- The processor walks the view the handlers take for the current one. -/
theorem Vcpu.WF.walkedPages {v : Vcpu} (h : v.WF) : v.walkedPages = v.currentEptPages := by
  unfold Vcpu.walkedPages Vcpu.currentEptPages
  rw [h.pointer]
  unfold Vcpu.currentEptp
  cases v.inNormalExecution with
  | true => rfl
  | false => rfl

end Revhv.Vmexit

namespace Revhv.Hypercall

open Revhv.Ept Revhv.Lib Revhv.Memory Revhv.Trace Revhv.TransitionCfg Revhv.Vcpu Revhv.Vmexit

/-- The frame number in a hook request is that of its page. -/
theorem hookable_frame {pages : EptPages} {origPfn : Nat} (h : Hookable pages origPfn) :
    (hookedPage origPfn).frame = castUInt32 origPfn := (origPfn_eq_frame h.below).symm

/-- The guards of the view in use are those of the normal view. -/
theorem guards_current {v : Vcpu} (h : v.WF) :
    (v.views.current v.inNormalExecution).guards = v.views.normal.guards := by
  unfold ViewPair.current
  split
  · rfl
  · exact h.guards

/-- The views have their hooks in common, so the one in use guards what
the normal one does. -/
theorem guarded_current {v : Vcpu} (h : v.WF) (q : GuestPage) :
    (v.views.current v.inNormalExecution).Guarded q ↔ v.views.normal.Guarded q := by
  unfold View.Guarded
  rw [guards_current h]

/-- The same for suspended hooks. -/
theorem suspended_current {v : Vcpu} (h : v.WF) (q : GuestPage) :
    (v.views.current v.inNormalExecution).Suspended q ↔ v.views.normal.Suspended q := by
  unfold View.Suspended
  rw [guards_current h]

/-- The same for the target view. -/
theorem guarded_target {v : Vcpu} (h : v.WF) (q : GuestPage) :
    v.views.target.Guarded q ↔ v.views.normal.Guarded q := by
  unfold View.Guarded
  rw [h.guards]

/-- The same for the suspended hooks of the target view. -/
theorem suspended_target {v : Vcpu} (h : v.WF) (q : GuestPage) :
    v.views.target.Suspended q ↔ v.views.normal.Suspended q := by
  unfold View.Suspended
  rw [h.guards]

/-- What an exit has done, `v` being the vCPU before it and `v'` the one
after. -/
inductive ViewStep (systemCr3 : Nat) (v v' : Vcpu) : EptExit → Prop
  /-- The hook was refused: out of hooks or of tables, or no page below
  512 GB. -/
  | hookRefused {ctx : GuestContext} (hookable : ¬ Hookable v.ept.normal ctx.rdx.toNat)
      (views : v'.views = v.views)
      (inNormal : v'.inNormalExecution = v.inNormalExecution)
      (rax : v'.guestContext.rax = 0) : ViewStep systemCr3 v v' (.eptHook ctx)
  /-- The hook was stored in both views. -/
  | hookStored {ctx : GuestContext} (hookable : Hookable v.ept.normal ctx.rdx.toNat)
      (views : v'.views =
        v.views.guard (hookedPage ctx.rdx.toNat) (castUInt32 ctx.r8.toNat))
      (inNormal : v'.inNormalExecution = v.inNormalExecution)
      (rax : v'.guestContext.rax = 1) : ViewStep systemCr3 v v' (.eptHook ctx)
  /-- A session has started on the pages of the range. -/
  | enabled {tables : Tables} {ctx : GuestContext}
      (traceable : Traceable v.ept.normal tables systemCr3 ctx.rdx.toNat ctx.r8.toNat)
      (lookedUp : LookedUp v.ept.normal
        (tracedPages tables systemCr3 ctx.rdx.toNat ctx.r8.toNat) v'.ept.normal)
      (views : v'.views = v.views.suspend.trace
        (tracedPages tables systemCr3 ctx.rdx.toNat ctx.r8.toNat))
      (inNormal : v'.inNormalExecution = true)
      (ring : v'.traceBuffer = activate v.traceBuffer)
      (cfgs : v'.transitionCfgs = v.transitionCfgs) (core : v'.coreId = v.coreId)
      (rax : v'.guestContext.rax = 1) : ViewStep systemCr3 v v' (.enableAutoTrace tables ctx)
  /-- The session could not be started. -/
  | enableFailed {tables : Tables} {ctx : GuestContext}
      (traceable : ¬ Traceable v.ept.normal tables systemCr3 ctx.rdx.toNat ctx.r8.toNat)
      (views : v'.views = v.views.suspend.reset)
      (inNormal : v'.inNormalExecution = v.inNormalExecution)
      (rax : v'.guestContext.rax = 0) : ViewStep systemCr3 v v' (.enableAutoTrace tables ctx)
  /-- The session, if there was one, has ended. -/
  | disabled {ctx : GuestContext} (views : v'.views = v.views.reset)
      (inNormal : v'.inNormalExecution = true) : ViewStep systemCr3 v v' (.disableAutoTrace ctx)
  /-- Memory types only. -/
  | retyped {mtrrState : MtrrState} (views : v'.views = v.views)
      (inNormal : v'.inNormalExecution = v.inNormalExecution) :
      ViewStep systemCr3 v v' (.wrmsrMtrr mtrrState)
  /-- An active hook shows its shadow frame to an execution. -/
  | swappedIn {exit : EptViolation} {g : Guard GuestPage Nat} (execute : exit.executeAccess = true)
      (mem : g ∈ (v.views.current v.inNormalExecution).guards) (active : g.active = true)
      (page : g.page.frame = toPfn exit.physicalAddress)
      (views : v'.views =
        v.views.onCurrent v.inNormalExecution fun w => w.swapIn g.page g.shadow)
      (inNormal : v'.inNormalExecution = v.inNormalExecution) :
      ViewStep systemCr3 v v' (.eptViolation exit)
  /-- An active hook shows its own frame to a data access. -/
  | swappedOut {exit : EptViolation} {g : Guard GuestPage Nat}
      (execute : exit.executeAccess = false)
      (mem : g ∈ (v.views.current v.inNormalExecution).guards) (active : g.active = true)
      (page : g.page.frame = toPfn exit.physicalAddress)
      (views : v'.views =
        v.views.onCurrent v.inNormalExecution fun w => w.swapOut GuestPage.frame g.page)
      (inNormal : v'.inNormalExecution = v.inNormalExecution) :
      ViewStep systemCr3 v v' (.eptViolation exit)
  /-- An execution of a page without a hook, or with a suspended one in
  front, has changed the view in use. -/
  | flipped {exit : EptViolation} (execute : exit.executeAccess = true)
      (first : ∀ g ∈ (v.views.current v.inNormalExecution).guards,
        g.page.frame = toPfn exit.physicalAddress →
          (v.views.current v.inNormalExecution).Suspended g.page)
      (views : v'.views = v.views) (inNormal : v'.inNormalExecution = !v.inNormalExecution)
      (cfgs : v'.transitionCfgs = v.transitionCfgs) (core : v'.coreId = v.coreId)
      (ring : v'.traceBuffer =
        if v.inNormalExecution then v.traceBuffer
        else emit v.traceBuffer .eptTargetTransition (UInt16.ofNat v.coreId) exit.tsc
          (resolveDataFields (lookupTransitionCfg v.transitionCfgs exit.guest.rip) exit.guest)) :
      ViewStep systemCr3 v v' (.eptViolation exit)

/-! ### One exit at a time -/

section
variable {systemCr3 : Nat} {v : Vcpu}

/-- A hypercall for a hook, on both views. They are in lockstep, so they
take the hook or refuse it together. -/
theorem viewStep_eptHook (h : v.WF) (ctx : GuestContext) :
    (handleEptHook { v with guestContext := ctx }).WF ∧
      ViewStep systemCr3 v (handleEptHook { v with guestContext := ctx }) (.eptHook ctx) := by
  have hlock := lockstep_addHook h.ept.normal h.ept.target h.ept.lockstep ctx.rdx.toNat
    ctx.r8.toNat
  have hable := addHook_iff h.ept.normal ctx.rdx.toNat ctx.r8.toNat
  unfold handleEptHook
  cases addHook_cases h.ept.normal ctx.rdx.toNat ctx.r8.toNat with
  | inl hrefused =>
    rw [hrefused] at hable
    simp only [hrefused]
    exact ⟨⟨h.ept, h.pointer⟩,
      ViewStep.hookRefused (mt hable.mpr Bool.false_ne_true) rfl rfl rfl⟩
  | inr hstored =>
    obtain ⟨normal, hnormal, hwf, hview, _⟩ := hstored
    cases addHook_cases h.ept.target ctx.rdx.toNat ctx.r8.toNat with
    | inl hrefused =>
      -- The lockstep rules a hook in one view out.
      rw [hnormal, hrefused] at hlock
      cases hlock.1
    | inr hstored' =>
      obtain ⟨target, htarget, hwf', hview', _⟩ := hstored'
      rw [hnormal, htarget] at hlock
      rw [hnormal] at hable
      simp only [hnormal, htarget, if_true]
      refine ⟨⟨⟨hwf, hwf', hlock.2⟩, h.pointer⟩,
        ViewStep.hookStored (hable.mp rfl) ?_ rfl rfl⟩
      show ViewPair.mk normal.view target.view = _
      rw [hview, hview']
      rfl

/-- Suspending the hooks keeps both views in order. -/
theorem wf_deactivateViews {views : EptViews} (h : views.WF) : (deactivateViews views).WF :=
  ⟨wf_deactivateHooks h.normal, wf_deactivateHooks h.target,
    lockstep_deactivateHooks h.normal h.target h.lockstep⟩

/-- So does arming them. -/
theorem wf_reactivateViews {views : EptViews} (h : views.WF) : (reactivateViews views).WF :=
  ⟨wf_reactivateHooks h.normal, wf_reactivateHooks h.target,
    lockstep_reactivateHooks h.normal h.target h.lockstep⟩

/-- Full access and re-armed hooks, from opened views. -/
theorem reactivateViews_opened {normal target : View GuestPage Nat} {views : EptViews}
    (h : Opened normal target views) :
    ViewPair.mk (reactivateViews views).normal.view (reactivateViews views).target.view =
      ViewPair.reset ⟨normal, target⟩ := by
  show ViewPair.mk (reactivateHooks views.normal).view (reactivateHooks views.target).view = _
  rw [view_reactivateHooks h.wf.normal, view_reactivateHooks h.wf.target, h.normal, h.target]
  rfl

/-- A hypercall that starts a session, or fails to. -/
theorem viewStep_enableAutoTrace (h : v.WF) (tables : Tables) (ctx : GuestContext) :
    (handleEnableAutoTrace systemCr3 tables { v with guestContext := ctx }).WF ∧
      ViewStep systemCr3 v (handleEnableAutoTrace systemCr3 tables { v with guestContext := ctx })
        (.enableAutoTrace tables ctx) := by
  have hwf := wf_deactivateViews h.ept
  have hnormal : (deactivateViews v.ept).normal.view = v.views.suspend.normal :=
    view_deactivateHooks h.ept.normal
  have htarget : (deactivateViews v.ept).target.view = v.views.suspend.target :=
    view_deactivateHooks h.ept.target
  obtain ⟨htable, hused⟩ := tableOf_deactivateHooks h.ept.normal
  unfold handleEnableAutoTrace
  show (finishEnableAutoTrace _ (enableAutoTrace tables systemCr3 (deactivateViews v.ept)
    ctx.rdx.toNat ctx.r8.toNat)).WF ∧ ViewStep _ _ (finishEnableAutoTrace _ (enableAutoTrace tables
    systemCr3 (deactivateViews v.ept) ctx.rdx.toNat ctx.r8.toNat)) _
  -- The loop over the pages ends with all of them traced, or breaks off and
  -- opens both views again.
  cases enableAutoTrace_cases tables systemCr3 hwf ctx.rdx.toNat ctx.r8.toNat with
  | inl hok =>
    obtain ⟨views, hviews, htraced, htraceable⟩ := hok
    rw [hviews]
    refine ⟨⟨htraced.wf, rfl⟩, ViewStep.enabled ((traceable_congr htable hused).mp htraceable)
      (lookedUp_congr htable hused htraced.lookedUp) ?_ rfl rfl rfl rfl rfl⟩
    show ViewPair.mk views.normal.view views.target.view = _
    rw [htraced.normal, htraced.target, hnormal, htarget]
    rfl
  | inr herr =>
    obtain ⟨views, hviews, hopened, htraceable⟩ := herr
    rw [hviews]
    refine ⟨⟨wf_reactivateViews hopened.wf, h.pointer⟩,
      ViewStep.enableFailed (mt (traceable_congr htable hused).mpr htraceable) ?_ rfl rfl⟩
    refine (reactivateViews_opened hopened).trans ?_
    rw [hnormal, htarget]
    rfl

/-- A hypercall that ends a session, or runs without one. -/
theorem viewStep_disableAutoTrace (h : v.WF) (ctx : GuestContext) :
    (handleDisableAutoTrace { v with guestContext := ctx }).WF ∧
      ViewStep systemCr3 v (handleDisableAutoTrace { v with guestContext := ctx })
        (.disableAutoTrace ctx) := by
  have hopened := restoreAutoTrace_opened h.ept
  exact ⟨⟨wf_reactivateViews hopened.wf, rfl⟩,
    ViewStep.disabled (reactivateViews_opened hopened) rfl⟩

/-- A write to an MTRR gives the pages other types, and nothing else. -/
theorem viewStep_wrmsrMtrr (h : v.WF) (mtrrState : MtrrState) :
    (handleWrmsrMtrr v mtrrState).WF ∧
      ViewStep systemCr3 v (handleWrmsrMtrr v mtrrState) (.wrmsrMtrr mtrrState) := by
  have hshows : Shows v.ept.normal.view v.ept.target.view v.ept.normal v.ept.target :=
    ⟨h.ept.normal, h.ept.target, h.ept.lockstep, rfl, rfl⟩
  have hnew := updateEptMemoryTypes_pair mtrrState hshows
  refine ⟨⟨⟨hnew.wf, hnew.wf', hnew.lockstep⟩, h.pointer⟩, ViewStep.retyped ?_ rfl⟩
  show ViewPair.mk (updateEptMemoryTypes v.ept.normal mtrrState).view
    (updateEptMemoryTypes v.ept.target mtrrState).view = _
  rw [hnew.view, hnew.view']
  rfl

/-- The entry of a page, rewritten in the view in use. -/
theorem views_writeCurrentPte (h : v.WF) {q : GuestPage} {pte : PtePtr}
    (hq : v.currentEptPages.ptr q = some pte) {f : EptPte → EptPte} {m : Mapping Nat}
    (hf : ∀ e, (f e).mapping = m) :
    (v.writeCurrentPte pte f).ept.WF ∧
      (v.writeCurrentPte pte f).views = v.views.onCurrent v.inNormalExecution fun w =>
        { w with map := fun q' => if q' = q then m else w.map q' } := by
  -- One entry is written, and with it what one page of the view maps.
  have hmap : ∀ {pages : EptPages}, pages.WF → pages.ptr q = some pte →
      (pages.writePte pte f).view =
        { pages.view with map := fun q' => if q' = q then m else pages.view.map q' } := by
    intro pages hwf hptr
    show View.mk _ _ = View.mk _ _
    congr 1
    funext q'
    rw [walk_writePte hwf hptr]
    split
    · exact hf _
    · rfl
  unfold Vcpu.writeCurrentPte
  -- The view in use is the one that is written. The other stays.
  cases hin : v.inNormalExecution with
  | true =>
    simp only [Vcpu.currentEptPages, hin, if_true] at hq
    refine ⟨⟨wf_writePte h.ept.normal pte f, h.ept.target,
      ⟨h.ept.lockstep.used, h.ept.lockstep.table, h.ept.lockstep.hooks⟩⟩, ?_⟩
    show ViewPair.mk (v.ept.normal.writePte pte f).view v.ept.target.view = _
    rw [hmap h.ept.normal hq]
    rfl
  | false =>
    simp only [Vcpu.currentEptPages, hin, Bool.false_eq_true, if_false] at hq
    refine ⟨⟨h.ept.normal, wf_writePte h.ept.target pte f,
      ⟨h.ept.lockstep.used, h.ept.lockstep.table, h.ept.lockstep.hooks⟩⟩, ?_⟩
    show ViewPair.mk v.ept.normal.view (v.ept.target.writePte pte f).view = _
    rw [hmap h.ept.target hq]
    rfl

/-- The view in use is one of the two. -/
theorem wf_currentEptPages (h : v.WF) : v.currentEptPages.WF := by
  unfold Vcpu.currentEptPages
  split
  · exact h.ept.normal
  · exact h.ept.target

/-- What the view in use shows. -/
theorem view_currentEptPages : v.currentEptPages.view = v.views.current v.inNormalExecution := by
  unfold Vcpu.currentEptPages ViewPair.current
  split
  · rfl
  · rfl

/-- The branch without an active hook. -/
theorem viewStep_flipView (h : v.WF) {exit : EptViolation} {v' : Vcpu}
    (hfirst : ∀ g ∈ (v.views.current v.inNormalExecution).guards,
      g.page.frame = toPfn exit.physicalAddress →
        (v.views.current v.inNormalExecution).Suspended g.page)
    (hflip : flipView { v with guestContext := exit.guest.ctx } exit = some v') :
    v'.WF ∧ ViewStep systemCr3 v v' (.eptViolation exit) := by
  unfold flipView at hflip
  split at hflip
  · rename_i hexecute
    simp only at hflip
    -- A record is emitted on the way back to the normal view, with the fields
    -- the configuration asks for.
    cases hin : v.inNormalExecution with
    | true =>
      rw [hin, if_pos rfl] at hflip
      cases hflip
      refine ⟨⟨h.ept, rfl⟩, ViewStep.flipped hexecute hfirst rfl ?_ rfl rfl ?_⟩
      · rw [hin]
        rfl
      · rw [if_pos hin]
        rfl
    | false =>
      rw [hin, if_neg Bool.false_ne_true] at hflip
      cases hflip
      refine ⟨⟨h.ept, rfl⟩, ViewStep.flipped hexecute hfirst rfl ?_ rfl rfl ?_⟩
      · rw [hin]
        rfl
      · rw [if_neg (by rw [hin]; exact Bool.false_ne_true)]
        rfl
  · cases hflip

/-- The hooks that `get_hook_by_orig_pfn` can find are guards of the
view in use. -/
theorem guard_of_hook (h : v.WF) {hook : EptHook} (hmem : hook ∈ v.currentEptPages.hooks) :
    hook.guard ∈ (v.views.current v.inNormalExecution).guards ∧
      hook.guard.page.frame = hook.origPfn := by
  obtain ⟨q, horig, _⟩ := (wf_currentEptPages h).hook hook hmem
  refine ⟨?_, ?_⟩
  · rw [← view_currentEptPages]
    exact List.mem_map_of_mem hmem
  · show hook.page.frame = hook.origPfn
    rw [page_of_origPfn horig, horig]

/-- An EPT violation. It swaps a hook of the view in use or changes the
view, and on any other page it is not answered. -/
theorem viewStep_eptViolation (h : v.WF) {exit : EptViolation} {v' : Vcpu}
    (hnext : handleEptViolation { v with guestContext := exit.guest.ctx } exit = some v') :
    v'.WF ∧ ViewStep systemCr3 v v' (.eptViolation exit) := by
  unfold handleEptViolation at hnext
  have hpages : Vcpu.currentEptPages { v with guestContext := exit.guest.ctx } =
      v.currentEptPages := rfl
  rw [hpages] at hnext
  cases hfind : getHookByOrigPfn v.currentEptPages (toPfn exit.physicalAddress) with
  | none =>
    rw [hfind] at hnext
    refine viewStep_flipView h (fun g hg hpage => ?_) hnext
    -- No hook is on the frame, so no guard is on its page.
    rw [← view_currentEptPages] at hg
    obtain ⟨hook, hmem, rfl⟩ := List.mem_map.mp hg
    have horig := (guard_of_hook h hmem).2
    have hno := List.find?_eq_none.mp hfind hook hmem
    exact (hno (decide_eq_true (horig.symm.trans hpage))).elim
  | some hook =>
    rw [hfind] at hnext
    have hmem : hook ∈ v.currentEptPages.hooks := List.mem_of_find?_eq_some hfind
    have horig : hook.origPfn = toPfn exit.physicalAddress := by
      simpa using List.find?_some hfind
    obtain ⟨hguard, hframe⟩ := guard_of_hook h hmem
    cases hpte : hook.pte with
    | none =>
      have hnext' : flipView { v with guestContext := exit.guest.ctx } exit = some v' := by
        cases hook
        cases hpte
        exact hnext
      refine viewStep_flipView h (fun g hg hpage => ?_) hnext'
      have hsame : g.page = hook.guard.page := by
        apply GuestPage.frame_injective
        rw [hpage, hframe, horig]
      exact ⟨hook.guard, hguard, hsame.symm, by simp [EptHook.guard, hpte]⟩
    | some pte =>
      obtain ⟨q, hq, _, hptr⟩ := (wf_currentEptPages h).hook hook hmem
      have hptr : v.currentEptPages.ptr q = some pte := by
        cases hptr with
        | inl hnone =>
          rw [hpte] at hnone
          cases hnone
        | inr heq => exact heq.symm.trans hpte
      have hpage : hook.guard.page = q := page_of_origPfn hq
      have hactive : hook.guard.active = true := by simp [EptHook.guard, hpte]
      cases hexecute : exit.executeAccess with
      | true =>
        have hw := views_writeCurrentPte (v := v) h hptr
          (f := fun e => { e.withAccess false false true with pageFrameNumber := hook.hookPfn })
          (m := ⟨false, false, true, hook.hookPfn⟩) fun _ => rfl
        cases hook
        cases hpte
        simp only [hexecute, if_true] at hnext
        cases hnext
        refine ⟨⟨hw.1, h.pointer⟩,
          ViewStep.swappedIn hexecute hguard hactive (hframe.trans horig) ?_ rfl⟩
        rw [hpage]
        exact hw.2
      | false =>
        have hw := views_writeCurrentPte (v := v) h hptr
          (f := fun e => { e.withAccess true true false with pageFrameNumber := hook.origPfn })
          (m := ⟨true, true, false, q.frame⟩) fun _ => by rw [hq]; rfl
        cases hook
        cases hpte
        simp only [hexecute, Bool.false_eq_true, if_false] at hnext
        cases hnext
        refine ⟨⟨hw.1, h.pointer⟩,
          ViewStep.swappedOut hexecute hguard hactive (hframe.trans horig) ?_ rfl⟩
        rw [hpage]
        exact hw.2

/-- Every step of the machine is one of the list and keeps the
invariant. -/
theorem next_viewStep {e : EptExit} {v' : Vcpu} (h : v.WF)
    (hnext : (eptMachine systemCr3).next v e = some v') : v'.WF ∧ ViewStep systemCr3 v v' e := by
  cases e with
  | eptHook ctx =>
    cases hnext
    exact viewStep_eptHook h ctx
  | enableAutoTrace tables ctx =>
    cases hnext
    exact viewStep_enableAutoTrace h tables ctx
  | disableAutoTrace ctx =>
    cases hnext
    exact viewStep_disableAutoTrace h ctx
  | wrmsrMtrr mtrrState =>
    cases hnext
    exact viewStep_wrmsrMtrr h mtrrState
  | eptViolation exit => exact viewStep_eptViolation h hnext

end

/-- An execute violation is always handled. -/
theorem next_execute (systemCr3 : Nat) (v : Vcpu) {exit : EptViolation}
    (hexecute : exit.executeAccess = true) :
    ∃ v', (eptMachine systemCr3).next v (.eptViolation exit) = some v' := by
  show ∃ v', handleEptViolation { v with guestContext := exit.guest.ctx } exit = some v'
  have hflip : ∃ v', flipView { v with guestContext := exit.guest.ctx } exit = some v' := by
    unfold flipView
    rw [if_pos hexecute]
    split
    · exact ⟨_, rfl⟩
    · exact ⟨_, rfl⟩
  unfold handleEptViolation
  split
  · exact ⟨_, rfl⟩
  · exact hflip

/-! ### Runs of a new vCPU -/

/-- Both views of a new vCPU are the identity map. -/
theorem initialVcpu_shows (setup : VcpuSetup) (entries : Nat → Entry) :
    Shows identityView identityView (initialVcpu setup entries).ept.normal
      (initialVcpu setup entries).ept.target :=
  initializeEpt_pair setup.framesNormal setup.framesTarget setup.mtrrState

/-- A new vCPU is in order. -/
theorem initialVcpu_wf (setup : VcpuSetup) (entries : Nat → Entry) :
    (initialVcpu setup entries).WF :=
  have h := initialVcpu_shows setup entries
  ⟨⟨h.wf, h.wf', h.lockstep⟩, rfl⟩

/-- A new vCPU maps every page to itself in both views, and has no
hooks. -/
theorem initialVcpu_views (setup : VcpuSetup) (entries : Nat → Entry) :
    (initialVcpu setup entries).views = ⟨identityView, identityView⟩ := by
  have h := initialVcpu_shows setup entries
  show ViewPair.mk _ _ = _
  rw [h.view, h.view']

/-- The invariant after any run. -/
theorem reachable_wf {systemCr3 : Nat} {setup : VcpuSetup} {entries : Nat → Entry}
    {es : List EptExit} {v : Vcpu}
    (hrun : (eptMachine systemCr3).run (initialVcpu setup entries) es = some v) : v.WF :=
  (eptMachine systemCr3).invariant_of_run (fun _ _ _ h hnext => (next_viewStep h hnext).1)
    (initialVcpu_wf setup entries) hrun

/-! ### A small vCPU -/

/-- A vCPU with the MTRRs off, its tables at frames 256 to 511 and 512
to 767. -/
def plainSetup : VcpuSetup where
  framesNormal := ⟨fun t => 256 + t, fun _ _ h => Fin.ext (Nat.add_left_cancel h)⟩
  framesTarget := ⟨fun t => 512 + t, fun _ _ h => Fin.ext (Nat.add_left_cancel h)⟩
  mtrrState := ⟨false, false, 0, false, fun _ => 0, []⟩
  transitionCfgs := ⟨defaultGenericCfg, fun _ => ⟨0, defaultGenericCfg⟩, 0⟩
  coreId := 0

/-- That vCPU when it starts. -/
def plainVcpu : Vcpu := initialVcpu plainSetup fun _ => makeEntry .invalid 0 0 fun _ => 0

/-- It is in order. -/
theorem plainVcpu_wf : plainVcpu.WF := initialVcpu_wf plainSetup _

/-- No table is used up: with the MTRRs off every PDE is uniform. -/
theorem plainVcpu_used : plainVcpu.ept.normal.splitPteUsed = 0 :=
  initializeEpt_used plainSetup.framesNormal rfl

/-- Page tables with the root at frame 1 that map the first gigabyte to
itself. -/
def directTables : Tables := fun frame i =>
  if frame = 1 ∧ i = 0 then ⟨true, true, false, 2, 0⟩
  else if frame = 2 ∧ i = 0 then ⟨true, true, true, 0, 0⟩
  else .zero

/-- The registers of a hypercall. -/
def hypercallContext (rdx r8 : UInt64) : GuestContext := { GuestContext.zero with rdx, r8 }

/-- With tables to spare a session on one page starts. -/
theorem traceable_onePage {pages : EptPages} (hused : pages.splitPteUsed < eptSplitPteCount)
    {tables : Tables} {systemCr3 targetVa targetSize : Nat}
    (hcount : targetPageCount targetVa targetSize = 1)
    (hbelow : pml4Idx (gvaToGpa tables systemCr3 (targetPageVa targetVa 0)).1 = 0) :
    Traceable pages tables systemCr3 targetVa targetSize := by
  refine ⟨fun n hn _ => ?_, ?_⟩
  · rw [hcount, Nat.lt_one_iff] at hn
    rw [hn]
    exact hbelow
  · have hcard := card_newPdes_le pages (tracedPages tables systemCr3 targetVa targetSize)
    have hlength : (tracedPages tables systemCr3 targetVa targetSize).length ≤ 1 := by
      unfold tracedPages
      rw [hcount]
      exact List.length_filterMap_le _ _
    omega

/-- An enable on one page that `Traceable` covers starts a session. -/
theorem enabled_of_traceable {v : Vcpu} (h : v.WF) {ctx : GuestContext}
    (htraceable : Traceable v.ept.normal directTables 1 ctx.rdx.toNat ctx.r8.toNat) :
    ∃ v', (eptMachine 1).next v (.enableAutoTrace directTables ctx) = some v' ∧
      v'.guestContext.rax = 1 ∧ v'.WF ∧
      v'.views = v.views.suspend.trace (tracedPages directTables 1 ctx.rdx.toNat ctx.r8.toNat) ∧
      LookedUp v.ept.normal (tracedPages directTables 1 ctx.rdx.toNat ctx.r8.toNat)
        v'.ept.normal := by
  have hboth : (handleEnableAutoTrace 1 directTables { v with guestContext := ctx }).WF ∧
      ViewStep 1 v (handleEnableAutoTrace 1 directTables { v with guestContext := ctx })
        (.enableAutoTrace directTables ctx) := viewStep_enableAutoTrace h directTables ctx
  obtain ⟨hwf, hstep⟩ := hboth
  cases hstep with
  | enabled _ lookedUp views _ _ _ _ rax => exact ⟨_, rfl, rax, hwf, views, lookedUp⟩
  | enableFailed hno _ _ _ => exact absurd htraceable hno

/-- The page at address `0x1000`. -/
def firstPage : GuestPage := ⟨0, 0, 1⟩

/-- The pages of the range 0x1000 to 0x2000 under those tables. -/
theorem tracedPages_first : tracedPages directTables 1 0x1000 0x1000 = [firstPage] := by decide

/-- The small vCPU can start a session on its first page. -/
theorem plainVcpu_session : ∃ v,
    (eptMachine 1).next plainVcpu
      (.enableAutoTrace directTables (hypercallContext 0x1000 0x1000)) = some v ∧
    v.guestContext.rax = 1 ∧ v.WF ∧
    v.views = (ViewPair.mk identityView identityView).suspend.trace [firstPage] ∧
    v.ept.normal.splitPteUsed ≤ 1 ∧ v.inNormalExecution = true := by
  have hused := plainVcpu_used
  obtain ⟨v, hnext, hrax, hwf, hviews, hlooked⟩ := enabled_of_traceable plainVcpu_wf
    (show Traceable plainVcpu.ept.normal directTables 1
      (hypercallContext 0x1000 0x1000).rdx.toNat (hypercallContext 0x1000 0x1000).r8.toNat from
      traceable_onePage (by rw [hused]; decide) (by decide) (by decide))
  have hpages : tracedPages directTables 1 (hypercallContext 0x1000 0x1000).rdx.toNat
      (hypercallContext 0x1000 0x1000).r8.toNat = [firstPage] := tracedPages_first
  rw [hpages] at hviews hlooked
  refine ⟨v, hnext, hrax, hwf, ?_, ?_, ?_⟩
  · rw [hviews, show plainVcpu.views = _ from initialVcpu_views plainSetup _]
  · have hcard := card_newPdes_le plainVcpu.ept.normal [firstPage]
    rw [hlooked.used, hused, Nat.zero_add]
    exact hcard
  · -- RAX tells the two outcomes apart.
    obtain ⟨_, hstep⟩ := next_viewStep plainVcpu_wf hnext
    cases hstep with
    | enabled _ _ _ inNormal _ _ _ _ => exact inNormal
    | enableFailed _ _ _ hzero =>
      rw [hrax] at hzero
      cases hzero

/-- A fetch fault at an address that is mapped to itself, with the
registers zero. -/
def fetchFault (address : Nat) : EptViolation :=
  ⟨true, true, address, address, ⟨UInt64.ofNat address, 0, .zero, fun _ => 0⟩, 0⟩

/-- While all hooks are suspended, a fetch fault changes the view in
use. -/
theorem flips_of_suspended {v : Vcpu} (hnone : ∀ hook ∈ v.currentEptPages.hooks, hook.pte = none)
    (address : Nat) :
    ∃ v', (eptMachine 1).next v (.eptViolation (fetchFault address)) = some v' ∧
      v'.ept = v.ept ∧ v'.inNormalExecution = !v.inNormalExecution := by
  have hpages : Vcpu.currentEptPages { v with guestContext := (fetchFault address).guest.ctx } =
      v.currentEptPages := rfl
  have hflips : ∃ v', flipView { v with guestContext := (fetchFault address).guest.ctx }
      (fetchFault address) = some v' ∧ v'.ept = v.ept ∧
        v'.inNormalExecution = !v.inNormalExecution := by
    cases hin : v.inNormalExecution with
    | true => exact ⟨_, rfl, rfl, rfl⟩
    | false => exact ⟨_, rfl, rfl, rfl⟩
  show ∃ v', handleEptViolation { v with guestContext := (fetchFault address).guest.ctx }
    (fetchFault address) = some v' ∧ _
  rw [handleEptViolation, hpages]
  cases hfind : getHookByOrigPfn v.currentEptPages (toPfn (fetchFault address).physicalAddress) with
  | none => exact hflips
  | some hook =>
    -- The hook in front has no entry to swap.
    have hpte : hook.pte = none := hnone hook (List.mem_of_find?_eq_some hfind)
    cases hook with
    | mk origPfn hookPfn pte =>
      cases hpte
      exact hflips

end Revhv.Hypercall
