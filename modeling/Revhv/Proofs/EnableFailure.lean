import Revhv.Proofs.EptMachine

/-!
# `Revhv.Proofs.EnableFailure`: an enable that fails

`handle_enable_auto_trace` suspends the hooks before it tries. When
`enable_auto_trace` gives up, both views have full access, and the hooks
are armed again. This is the state of a vCPU without a session.

* `failedEnable_unaffected_iff`: the call has left the vCPU as it was
  exactly when that is the state it was in.
* `failedEnable_ends_session`: after a failure during a session the
  pages of the session are no longer trapped.
-/

set_option autoImplicit false

namespace Revhv.EnableFailure

open Revhv.Ept Revhv.Hypercall Revhv.Lib Revhv.Memory Revhv.Trace Revhv.Vcpu Revhv.Vmexit

/-! ### The property -/

/-- The two positions of a page with an active hook: its own frame for
data, or the frame of the hook for execution. -/
def SwapPosition (w : View GuestPage Nat) (q : GuestPage) (m : Mapping Nat) : Prop :=
  m = ⟨true, true, false, q.frame⟩ ∨
    ∃ g ∈ w.guards, g.page = q ∧ m = ⟨false, false, true, g.shadow⟩

/-- The page has the same rights and the same frame, the position of an
active hook aside. -/
def SamePage (w w' : View GuestPage Nat) (q : GuestPage) : Prop :=
  w'.map q = w.map q ∨
    w.Guarded q ∧ SwapPosition w q (w.map q) ∧ SwapPosition w' q (w'.map q)

/-- The vCPU behaves as before: the same pages, hooks and trapped pages,
the same view in use, and the same ring. -/
structure Unaffected (v v' : Vcpu) : Prop where
  normal : ∀ q, SamePage v.views.normal v'.views.normal q
  target : ∀ q, SamePage v.views.target v'.views.target q
  hooks : v'.views.normal.guards = v.views.normal.guards ∧
    v'.views.target.guards = v.views.target.guards
  inNormal : v'.inNormalExecution = v.inNormalExecution
  pointer : v'.eptPointer = v.eptPointer
  ring : v'.traceBuffer = v.traceBuffer

/-! ### The condition -/

/-- A view outside any session: all hooks armed and in one of their
positions, full access to the other pages. -/
structure QuietView (w : View GuestPage Nat) : Prop where
  armed : ∀ g ∈ w.guards, g.active = true
  position : ∀ q, w.Guarded q → SwapPosition w q (w.map q)
  access : ∀ q, ¬ w.Guarded q →
    (w.map q).read = true ∧ (w.map q).write = true ∧ (w.map q).execute = true

/-- A vCPU without a session. -/
structure Quiet (v : Vcpu) : Prop where
  normal : QuietView v.views.normal
  target : QuietView v.views.target

/-! ### One view -/

/-- A view after a failure. -/
def failed (w : View GuestPage Nat) : View GuestPage Nat :=
  ((w.suspend GuestPage.frame).setAccess true true true).resume GuestPage.frame

/-- A failed enable has all hooks active. -/
theorem guards_failed (w : View GuestPage Nat) :
    (failed w).guards = w.guards.map fun g => { g with active := true } := by
  show (w.guards.map fun g => { g with active := false }).map (fun g => { g with active := true }) = _
  rw [List.map_map]
  rfl

/-- A page with a hook shows its own frame, not to execution. The others
have full access. -/
theorem map_failed (w : View GuestPage Nat) (q : GuestPage) :
    (failed w).map q =
      if ∃ g ∈ w.guards, g.page = q then ⟨true, true, false, q.frame⟩
      else ⟨true, true, true, (w.map q).frame⟩ := by
  -- The handler has deactivated every hook, so exactly the hooked pages are
  -- suspended.
  have hsuspended : ((w.suspend GuestPage.frame).setAccess true true true).Suspended q ↔
      ∃ g ∈ w.guards, g.page = q := by
    constructor
    · intro h
      obtain ⟨g, hg, hpage, _⟩ := h
      obtain ⟨g', hg', rfl⟩ := List.mem_map.mp hg
      exact ⟨g', hg', hpage⟩
    · intro h
      obtain ⟨g, hg, hpage⟩ := h
      exact ⟨{ g with active := false }, List.mem_map_of_mem hg, hpage, rfl⟩
  unfold failed
  rw [View.map_resume]
  by_cases hhook : ∃ g ∈ w.guards, g.page = q
  · rw [if_pos hhook, if_pos (hsuspended.mpr hhook)]
    rfl
  · rw [if_neg hhook, if_neg (mt hsuspended.mp hhook), View.map_setAccess, View.map_suspend,
      if_neg]
    intro hguarded
    obtain ⟨g, hg, hpage, _⟩ := hguarded
    exact hhook ⟨g, hg, hpage⟩

/-- Armed hooks are guards as soon as they are on the page. -/
theorem guarded_iff {w : View GuestPage Nat} (harmed : ∀ g ∈ w.guards, g.active = true)
    (q : GuestPage) : w.Guarded q ↔ ∃ g ∈ w.guards, g.page = q := by
  constructor
  · intro h
    obtain ⟨g, hg, hpage, _⟩ := h
    exact ⟨g, hg, hpage⟩
  · intro h
    obtain ⟨g, hg, hpage⟩ := h
    exact ⟨g, hg, hpage, harmed g hg⟩

/-- A mapping with all rights. -/
theorem full_access {m : Mapping Nat} (hread : m.read = true) (hwrite : m.write = true)
    (hexecute : m.execute = true) : ⟨true, true, true, m.frame⟩ = m := by
  cases m with
  | mk read write execute frame =>
    cases hread
    cases hwrite
    cases hexecute
    rfl

/-- A failure leaves a view as it was exactly outside any session. -/
theorem failed_same_iff (w : View GuestPage Nat) :
    ((∀ q, SamePage w (failed w) q) ∧ (failed w).guards = w.guards) ↔ QuietView w := by
  -- If nothing changed, the state before is the one the failed enable writes.
  constructor
  · intro h
    obtain ⟨hpages, hguards⟩ := h
    have harmed : ∀ g ∈ w.guards, g.active = true := by
      intro g hg
      rw [← hguards, guards_failed] at hg
      obtain ⟨_, _, rfl⟩ := List.mem_map.mp hg
      rfl
    refine ⟨harmed, fun q hguarded => ?_, fun q hguarded => ?_⟩
    · have hmap := map_failed w q
      rw [if_pos ((guarded_iff harmed q).mp hguarded)] at hmap
      cases hpages q with
      | inl hsame => exact Or.inl (hsame.symm.trans hmap)
      | inr hswap => exact hswap.2.1
    · have hmap := map_failed w q
      rw [if_neg (mt (guarded_iff harmed q).mpr hguarded)] at hmap
      cases hpages q with
      | inl hsame =>
        rw [← hsame, hmap]
        exact ⟨rfl, rfl, rfl⟩
      | inr hswap => exact absurd hswap.1 hguarded
  · -- A quiet view is what the failed enable writes, up to where a hook is
    -- swapped.
    intro h
    constructor
    · intro q
      have hmap := map_failed w q
      by_cases hguarded : w.Guarded q
      · rw [if_pos ((guarded_iff h.armed q).mp hguarded)] at hmap
        exact Or.inr ⟨hguarded, h.position q hguarded, Or.inl hmap⟩
      · rw [if_neg (mt (guarded_iff h.armed q).mpr hguarded)] at hmap
        obtain ⟨hread, hwrite, hexecute⟩ := h.access q hguarded
        exact Or.inl (hmap.trans (full_access hread hwrite hexecute))
    · rw [guards_failed]
      refine (List.map_congr_left fun g hg => ?_).trans (List.map_id _)
      rw [← h.armed g hg]
      rfl

/-! ### The hypercall -/

/-- A call that returns 0 leaves everything but the views, RAX and the
INVEPTs alone. -/
theorem failedEnable_frame {systemCr3 : Nat} {tables : Tables} {v : Vcpu}
    (hfail : (handleEnableAutoTrace systemCr3 tables v).guestContext.rax = 0) :
    (handleEnableAutoTrace systemCr3 tables v).eptPointer = v.eptPointer ∧
      (handleEnableAutoTrace systemCr3 tables v).traceBuffer = v.traceBuffer := by
  unfold handleEnableAutoTrace at hfail ⊢
  revert hfail
  generalize enableAutoTrace _ _ _ _ _ = answer
  intro hfail
  cases answer with
  | ok views =>
    have hone : (1 : UInt64) = 0 := hfail
    exact absurd hone (by decide)
  | error views => exact ⟨rfl, rfl⟩

/-- A request that is answered with 0 leaves the vCPU as before exactly
when there was no session. -/
theorem unaffected_iff_quiet {systemCr3 : Nat} {v v' : Vcpu} (h : v.WF) {tables : Tables}
    {ctx : GuestContext}
    (hnext : (eptMachine systemCr3).next v (.enableAutoTrace tables ctx) = some v')
    (hfail : v'.guestContext.rax = 0) : Unaffected v v' ↔ Quiet v := by
  obtain ⟨_, hstep⟩ := next_viewStep h hnext
  cases hstep with
  -- An enable that succeeded answers 1.
  | enabled _ _ _ _ _ _ _ rax =>
    rw [rax] at hfail
    exact absurd hfail (by decide)
  | enableFailed _ views inNormal _ =>
    have hnormal : v'.views.normal = failed v.views.normal := congrArg ViewPair.normal views
    have htarget : v'.views.target = failed v.views.target := congrArg ViewPair.target views
    -- The EPT pointer and the trace buffer are not written on the way to the
    -- failure.
    cases hnext
    have hframe := failedEnable_frame hfail
    constructor
    · intro h
      refine ⟨(failed_same_iff _).mp ⟨?_, ?_⟩, (failed_same_iff _).mp ⟨?_, ?_⟩⟩
      · rw [← hnormal]
        exact h.normal
      · rw [← hnormal]
        exact h.hooks.1
      · rw [← htarget]
        exact h.target
      · rw [← htarget]
        exact h.hooks.2
    · intro h
      obtain ⟨hpages, hguards⟩ := (failed_same_iff _).mpr h.normal
      obtain ⟨hpages', hguards'⟩ := (failed_same_iff _).mpr h.target
      refine ⟨?_, ?_, ⟨?_, ?_⟩, inNormal, hframe.1, hframe.2⟩
      · rw [hnormal]
        exact hpages
      · rw [htarget]
        exact hpages'
      · rw [hnormal]
        exact hguards
      · rw [htarget]
        exact hguards'

/-- For every state a run reaches and every request that is answered
with 0, the vCPU behaves as before exactly when there was no session. -/
theorem failedEnable_unaffected_iff (systemCr3 : Nat) (setup : VcpuSetup) (entries : Nat → Entry)
    (es : List EptExit) {v : Vcpu}
    (hrun : (eptMachine systemCr3).run (initialVcpu setup entries) es = some v)
    (tables : Tables) (ctx : GuestContext) {v' : Vcpu}
    (hnext : (eptMachine systemCr3).next v (.enableAutoTrace tables ctx) = some v')
    (hfail : v'.guestContext.rax = 0) : Unaffected v v' ↔ Quiet v :=
  unaffected_iff_quiet (reachable_wf hrun) hnext hfail

/-! ### A failure during a session -/

/-- Page tables with the root at frame 1 that map the first gigabyte to
address `2 ^ 39`. -/
def farTables : Tables := fun frame i =>
  if frame = 1 ∧ i = 0 then ⟨true, true, false, 2, 0⟩
  else if frame = 2 ∧ i = 0 then ⟨true, true, true, 2 ^ 27, 0⟩
  else .zero

/-- No session can be started there. -/
theorem not_traceable_far (pages : EptPages) :
    ¬ Traceable pages farTables 1 0x2000 0x1000 := by
  intro h
  have hbelow := h.below 0 (by decide) (by decide)
  exact absurd hbelow (by decide)

/-- A request for that range is answered with 0. -/
theorem enableFailed_far {v : Vcpu} (h : v.WF) :
    ∃ v', (eptMachine 1).next v (.enableAutoTrace farTables (hypercallContext 0x2000 0x1000)) =
        some v' ∧ v'.guestContext.rax = 0 ∧ v'.views = v.views.suspend.reset := by
  have hboth : (handleEnableAutoTrace 1 farTables
        { v with guestContext := hypercallContext 0x2000 0x1000 }).WF ∧
      ViewStep 1 v (handleEnableAutoTrace 1 farTables
        { v with guestContext := hypercallContext 0x2000 0x1000 })
        (.enableAutoTrace farTables (hypercallContext 0x2000 0x1000)) :=
    viewStep_enableAutoTrace h _ _
  obtain ⟨_, hstep⟩ := hboth
  cases hstep with
  | enabled traceable _ _ _ _ _ _ _ => exact absurd traceable (not_traceable_far _)
  | enableFailed _ views _ rax => exact ⟨_, rfl, rax, views⟩

/-- On a new vCPU it changes nothing. -/
theorem failedEnable_unaffected_newVcpu : ∃ v',
    (eptMachine 1).next plainVcpu (.enableAutoTrace farTables (hypercallContext 0x2000 0x1000)) =
      some v' ∧ Unaffected plainVcpu v' := by
  obtain ⟨v', hnext, hfail, _⟩ := enableFailed_far plainVcpu_wf
  have hquiet : QuietView identityView :=
    ⟨fun _ hg => absurd hg List.not_mem_nil,
      fun _ hguarded => by
        obtain ⟨_, hg, _⟩ := hguarded
        exact absurd hg List.not_mem_nil,
      fun _ _ => ⟨rfl, rfl, rfl⟩⟩
  have hviews : plainVcpu.views = ⟨identityView, identityView⟩ := initialVcpu_views plainSetup _
  have hplain : Quiet plainVcpu := by
    constructor
    · rw [hviews]
      exact hquiet
    · rw [hviews]
      exact hquiet
  exact ⟨v', hnext, (failedEnable_unaffected_iff 1 plainSetup _ [] rfl farTables _ hnext
    hfail).mpr hplain⟩

/-- The claimed property fails: after a session has been started on the
first page, a request that is answered with 0 lets that page run in the
normal view again. -/
theorem failedEnable_ends_session : ∃ v v',
    (eptMachine 1).run plainVcpu
      [.enableAutoTrace directTables (hypercallContext 0x1000 0x1000)] = some v ∧
    (eptMachine 1).next v (.enableAutoTrace farTables (hypercallContext 0x2000 0x1000)) = some v' ∧
    v'.guestContext.rax = 0 ∧ ¬ v.ept.normal.Executable firstPage ∧
    v'.ept.normal.Executable firstPage ∧ ¬ Unaffected v v' := by
  obtain ⟨v, hnext, _, hwf, hviews, _⟩ := plainVcpu_session
  have hrun : (eptMachine 1).run plainVcpu
      [.enableAutoTrace directTables (hypercallContext 0x1000 0x1000)] = some v := by
    rw [Machine.run_cons, hnext, Option.bind_some, Machine.run_nil]
  obtain ⟨v', hfailed, rax, views⟩ := enableFailed_far hwf
  have htrapped : (v.views.normal.map firstPage).execute = false := by
    rw [hviews]
    decide
  have hruns : (v'.views.normal.map firstPage).execute = true := by
    rw [views, hviews]
    decide
  refine ⟨v, v', hrun, hfailed, rax, ?_, hruns, fun h => ?_⟩
  · rw [executable_normal_iff, htrapped]
    exact Bool.false_ne_true
  · cases h.normal firstPage with
    | inl hsame =>
      rw [hsame, htrapped] at hruns
      exact Bool.false_ne_true hruns
    | inr hswap =>
      -- The session has suspended all hooks.
      have hguarded := hswap.1
      rw [hviews] at hguarded
      exact View.not_guarded_suspend GuestPage.frame hguarded

end Revhv.EnableFailure
