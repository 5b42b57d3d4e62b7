import Revhv.Proofs.EptMachine

/-!
# `Revhv.Proofs.ViewFlip`: a flip lands where the page can run

For an execution of a page without an active hook
`handle_ept_violation` changes the view in use and lets the guest try
again. This helps only if the other view lets the page run. Otherwise
the core changes views forever.

* `flips_land`: in every run whose steps meet `StrandsNothing`, each
  page without an active hook can be executed in one of the views, and
  each flip lands in such a view.
* `enable_strands_page`: two enables in a row break it. The normal view
  still traps the first range, and the target view no longer admits it.

`StrandsNothing` names the two ways into trouble. One is an enable that
leaves a page trapped in the normal view outside its own range. The
other is a hook stored on a page whose oldest hook is suspended: the
violation handler looks at the suspended one.
-/

set_option autoImplicit false

namespace Revhv.ViewFlip

open Revhv.Ept Revhv.Hypercall Revhv.Lib Revhv.Memory Revhv.Trace Revhv.Vcpu Revhv.Vmexit

/-- Every page below 512 GB without an active hook can be executed in
one of the views. -/
def RunnableSomewhere (v : Vcpu) : Prop :=
  ∀ q, ¬ v.ept.normal.ActiveHook q → ¬ v.ept.target.ActiveHook q →
    v.ept.normal.Executable q ∨ v.ept.target.Executable q

/-- The processor has reported an instruction fetch from page `q`, which
the view it walks does not let it execute. -/
structure FetchFault (v : Vcpu) (exit : EptViolation) (q : GuestPage) : Prop where
  execute : exit.executeAccess = true
  translation : exit.causedByTranslation = true
  page : toPfn exit.guestPhysicalAddress = q.frame
  denied : ¬ v.walkedPages.Executable q

/-- Handling the fault has changed the view, and in the new one the page
can be executed. -/
def Lands (v' : Vcpu) (q : GuestPage) : Prop := v'.walkedPages.Executable q

/-- What a step has to meet so that it strands no page. -/
def StrandsNothing (systemCr3 : Nat) (v : Vcpu) : EptExit → Prop
  -- The oldest hook on the page, if there is one, is active.
  | .eptHook ctx => Hookable v.ept.normal ctx.rdx.toNat →
      ∀ hook, getHookByOrigPfn v.ept.normal (castUInt32 ctx.rdx.toNat) = some hook →
        hook.pte ≠ none
  -- The pages trapped in the normal view are in the new range again.
  | .enableAutoTrace tables ctx =>
      Traceable v.ept.normal tables systemCr3 ctx.rdx.toNat ctx.r8.toNat →
      ∀ q, ¬ v.ept.normal.Executable q → ¬ v.ept.normal.ActiveHook q →
        q ∈ tracedPages tables systemCr3 ctx.rdx.toNat ctx.r8.toNat
  | .disableAutoTrace _ => True
  | .wrmsrMtrr _ => True
  | .eptViolation _ => True

/-! ### The invariant -/

/-- A page can be executed in one of the views or has an active guard. -/
def Runs (p : ViewPair) (q : GuestPage) : Prop :=
  (p.normal.map q).execute = true ∨ (p.target.map q).execute = true ∨ p.normal.Guarded q

/-- The invariant of a run. -/
structure FlipInv (v : Vcpu) : Prop where
  wf : v.WF
  uniform : v.views.normal.Uniform
  runs : ∀ q, Runs v.views q

/-- A new guard takes the right to execute from its own page only. -/
theorem runs_guard {p : ViewPair} (h : ∀ q, Runs p q) (q₀ : GuestPage) (s : Nat)
    (q : GuestPage) : Runs (p.guard q₀ s) q := by
  by_cases hq : q = q₀
  · exact Or.inr (Or.inr (View.guarded_guard.mpr (Or.inr hq)))
  · have hnormal : (p.guard q₀ s).normal.map q = p.normal.map q := if_neg hq
    have htarget : (p.guard q₀ s).target.map q = p.target.map q := if_neg hq
    unfold Runs
    rw [hnormal, htarget]
    exact (h q).imp_right fun hrest => hrest.imp_right fun hguarded =>
      View.guarded_guard.mpr (Or.inl hguarded)

/-- After an enable the pages of the range run in the target view. The
others run in the normal view if nothing but an active hook has kept
them from it before. -/
theorem runs_trace {p : ViewPair} {pages : List GuestPage}
    (h : ∀ q, (p.normal.map q).execute ≠ true → ¬ p.normal.Guarded q → q ∈ pages)
    (q : GuestPage) : Runs (p.suspend.trace pages) q := by
  by_cases hq : q ∈ pages
  · have htarget : (p.suspend.trace pages).target.map q = _ := if_pos hq
    refine Or.inr (Or.inl ?_)
    rw [htarget]
  · have hnormal : (p.suspend.trace pages).normal.map q =
        (p.normal.suspend GuestPage.frame).map q := if_neg hq
    refine Or.inl ?_
    rw [hnormal, View.map_suspend]
    split
    · rfl
    · rename_i hguarded
      by_contra hdenied
      exact hq (h q hdenied hguarded)

/-- An enable has suspended all hooks. -/
theorem uniform_trace (p : ViewPair) (pages : List GuestPage) :
    (p.suspend.trace pages).normal.Uniform := View.uniform_suspend GuestPage.frame p.normal

/-- Full access and re-armed hooks. -/
theorem runs_reset (p : ViewPair) (q : GuestPage) : Runs p.reset q :=
  (View.runs_or_guarded_reset GuestPage.frame p.normal q).imp_right Or.inr

/-- An operation on one page of one view, a guarded one. -/
theorem runs_onCurrent {p : ViewPair} {q₀ : GuestPage} (hguarded : p.normal.Guarded q₀)
    (inNormal : Bool) {m : Mapping Nat} (h : ∀ q, Runs p q) (q : GuestPage) :
    Runs (p.onCurrent inNormal fun w => { w with map := fun q' => if q' = q₀ then m else w.map q' })
      q := by
  have hq := h q
  by_cases heq : q = q₀
  · cases inNormal with
    | true => exact Or.inr (Or.inr (heq ▸ hguarded))
    | false => exact Or.inr (Or.inr (heq ▸ hguarded))
  · cases inNormal with
    | true =>
      unfold Runs ViewPair.onCurrent
      simp only [if_true, if_neg heq]
      exact hq
    | false =>
      unfold Runs ViewPair.onCurrent
      simp only [Bool.false_eq_true, if_false, if_neg heq]
      exact hq

/-- A swap leaves the guards alone. -/
theorem uniform_onCurrent {p : ViewPair} (h : p.normal.Uniform) (inNormal : Bool)
    (map : View GuestPage Nat → GuestPage → Mapping Nat) :
    (p.onCurrent inNormal fun w => { w with map := map w }).normal.Uniform := by
  cases inNormal with
  | true => exact h
  | false => exact h

/-- When the oldest hook on a page is active, none on it is suspended. -/
theorem not_suspended_of_first {v : Vcpu} (h : FlipInv v) {q : GuestPage}
    (hfirst : ∀ hook, getHookByOrigPfn v.ept.normal q.frame = some hook → hook.pte ≠ none) :
    ¬ v.views.normal.Suspended q := by
  intro hsuspended
  obtain ⟨g, hg, hpage, hactive⟩ := hsuspended
  obtain ⟨hook, hmem, rfl⟩ := List.mem_map.mp hg
  obtain ⟨q', horig, _⟩ := h.wf.ept.normal.hook hook hmem
  have heq : q' = q := (page_of_origPfn horig).symm.trans hpage
  subst heq
  -- The handler finds the first hook of the frame, which is active by
  -- assumption.
  cases hfind : getHookByOrigPfn v.ept.normal q'.frame with
  | none =>
    have hno := List.find?_eq_none.mp hfind hook hmem
    exact hno (decide_eq_true horig)
  | some first =>
    have hfmem : first ∈ v.ept.normal.hooks := List.mem_of_find?_eq_some hfind
    have hforig : first.origPfn = q'.frame := by simpa using List.find?_some hfind
    have hguarded : v.views.normal.Guarded q' :=
      (activeHook_iff h.wf.ept.normal q').mp
        ⟨first, hfmem, hforig, Option.isSome_iff_ne_none.mpr (hfirst first hfind)⟩
    exact h.uniform q' hguarded ⟨hook.guard, hg, hpage, hactive⟩

/-- Every step that strands nothing keeps the invariant. -/
theorem flipInv_step {systemCr3 : Nat} {v v' : Vcpu} {e : EptExit} (h : FlipInv v)
    (hok : StrandsNothing systemCr3 v e)
    (hnext : (eptMachine systemCr3).next v e = some v') : FlipInv v' := by
  obtain ⟨hwf, hstep⟩ := next_viewStep h.wf hnext
  -- The handlers keep the model's own invariant: left are the two facts about
  -- the views.
  have huniform : v'.views.normal.Uniform → (∀ q, Runs v'.views q) → FlipInv v' :=
    fun hu hr => ⟨hwf, hu, hr⟩
  cases e with
  | eptHook ctx =>
    cases hstep with
    | hookRefused _ views _ _ =>
      rw [views] at huniform
      exact huniform h.uniform h.runs
    -- A new hook is active, so the earlier hooks of its page must be active
    -- too.
    | hookStored hookable views _ _ =>
      rw [views] at huniform
      have hsuspended : ¬ v.views.normal.Suspended (hookedPage ctx.rdx.toNat) := by
        apply not_suspended_of_first h
        rw [hookable_frame hookable]
        exact hok hookable
      exact huniform (View.uniform_guard h.uniform _ hsuspended) (runs_guard h.runs _ _)
  | enableAutoTrace tables ctx =>
    cases hstep with
    -- A page of an earlier session would be denied in both views, which `hok`
    -- excludes.
    | enabled traceable _ views _ _ _ _ _ =>
      rw [views] at huniform
      refine huniform (uniform_trace v.views _) (runs_trace fun q hdenied hguarded => ?_)
      exact hok traceable q hdenied (mt (activeHook_iff h.wf.ept.normal q).mp hguarded)
    -- The failed enable restores and reactivates, as the disable does.
    | enableFailed _ views _ _ =>
      rw [views] at huniform
      exact huniform (View.uniform_resume GuestPage.frame _) (runs_reset _)
  | disableAutoTrace ctx =>
    cases hstep with
    | disabled views _ =>
      rw [views] at huniform
      exact huniform (View.uniform_resume GuestPage.frame _) (runs_reset _)
  | wrmsrMtrr mtrrState =>
    cases hstep with
    | retyped views _ =>
      rw [views] at huniform
      exact huniform h.uniform h.runs
  | eptViolation exit =>
    cases hstep with
    -- The swap changes the guarded page of the current view only.
    | swappedIn _ mem active _ views _ =>
      have hguarded := (guarded_current h.wf _).mp ⟨_, mem, rfl, active⟩
      rw [views] at huniform
      exact huniform (uniform_onCurrent h.uniform _ _)
        (runs_onCurrent hguarded v.inNormalExecution h.runs)
    | swappedOut _ mem active _ views _ =>
      have hguarded := (guarded_current h.wf _).mp ⟨_, mem, rfl, active⟩
      rw [views] at huniform
      exact huniform (uniform_onCurrent h.uniform _ _)
        (runs_onCurrent hguarded v.inNormalExecution h.runs)
    | flipped _ _ views _ _ _ _ =>
      rw [views] at huniform
      exact huniform h.uniform h.runs

/-- A new vCPU has every page in both views. -/
theorem flipInv_initial (setup : VcpuSetup) (entries : Nat → Entry) :
    FlipInv (initialVcpu setup entries) := by
  have hviews := initialVcpu_views setup entries
  refine ⟨initialVcpu_wf setup entries, ?_, ?_⟩
  · rw [hviews]
    intro q hguarded
    obtain ⟨g, hg, _⟩ := hguarded
    exact absurd hg List.not_mem_nil
  · rw [hviews]
    exact fun _ => Or.inl rfl

/-- The invariant gives the property of the pages. -/
theorem FlipInv.runnable {v : Vcpu} (h : FlipInv v) : RunnableSomewhere v := by
  intro q hnormal _
  cases h.runs q with
  | inl hrun => exact Or.inl hrun
  | inr hrest =>
    cases hrest with
    | inl hrun => exact Or.inr hrun
    | inr hguarded => exact absurd ((activeHook_iff h.wf.ept.normal q).mpr hguarded) hnormal

/-- The invariant gives the property of a flip. -/
theorem FlipInv.lands {systemCr3 : Nat} {v v' : Vcpu} (h : FlipInv v) {exit : EptViolation}
    {q : GuestPage} (hfault : FetchFault v exit q)
    (hnext : (eptMachine systemCr3).next v (.eptViolation exit) = some v')
    (hflip : v'.eptPointer ≠ v.eptPointer) : Lands v' q := by
  obtain ⟨hwf, hstep⟩ := next_viewStep h.wf hnext
  have hsame : v'.inNormalExecution = v.inNormalExecution → v'.eptPointer = v.eptPointer := by
    intro heq
    rw [hwf.pointer, h.wf.pointer]
    unfold Vcpu.currentEptp
    rw [heq]
  cases hstep with
  | swappedIn _ _ _ _ _ inNormal => exact absurd (hsame inNormal) hflip
  | swappedOut _ _ _ _ _ inNormal => exact absurd (hsame inNormal) hflip
  | flipped _ first views inNormal _ _ _ =>
    have hpage : q.frame = toPfn exit.physicalAddress := by
      unfold EptViolation.physicalAddress
      rw [if_pos hfault.translation, hfault.page]
    -- An active guard on the page would have a suspended one beside it.
    have hnot : ¬ v.views.normal.Guarded q := by
      intro hguarded
      obtain ⟨g, hg, hgpage, _⟩ := (guarded_current h.wf q).mpr hguarded
      have hs := first g hg (hgpage ▸ hpage)
      rw [hgpage] at hs
      exact h.uniform q hguarded ((suspended_current h.wf q).mp hs)
    have hdenied : ¬ (v.currentEptPages.walk q).executeAccess = true := by
      rw [← h.wf.walkedPages]
      exact hfault.denied
    have hruns : (v.views.normal.map q).execute = true ∨ (v.views.target.map q).execute = true :=
      (h.runs q).imp_right fun hrest => hrest.resolve_right hnot
    have hnormal : (v'.ept.normal.walk q).executeAccess = (v.views.normal.map q).execute :=
      congrArg (fun p : ViewPair => (p.normal.map q).execute) views
    have htarget : (v'.ept.target.walk q).executeAccess = (v.views.target.map q).execute :=
      congrArg (fun p : ViewPair => (p.target.map q).execute) views
    show (v'.walkedPages.walk q).executeAccess = true
    rw [hwf.walkedPages]
    unfold Vcpu.currentEptPages at hdenied ⊢
    cases hin : v.inNormalExecution with
    | true =>
      rw [hin] at inNormal
      rw [hin, if_pos rfl] at hdenied
      rw [inNormal, Bool.not_true, if_neg Bool.false_ne_true, htarget]
      exact hruns.resolve_left hdenied
    | false =>
      rw [hin] at inNormal
      rw [hin, if_neg Bool.false_ne_true] at hdenied
      rw [inNormal, Bool.not_false, if_pos rfl, hnormal]
      exact hruns.resolve_right hdenied

/-- Along a run that strands nothing, every page without an active hook
can be executed in one of the views, and a flip for a fetch fault lands
in a view where the page can be. -/
theorem flips_land (systemCr3 : Nat) (setup : VcpuSetup) (entries : Nat → Entry)
    (es : List EptExit) {v : Vcpu}
    (hrun : (eptMachine systemCr3).run (initialVcpu setup entries) es = some v)
    (hok : (eptMachine systemCr3).Along (StrandsNothing systemCr3) (initialVcpu setup entries) es) :
    RunnableSomewhere v ∧
      ∀ exit q v', FetchFault v exit q →
        (eptMachine systemCr3).next v (.eptViolation exit) = some v' →
        v'.eptPointer ≠ v.eptPointer → Lands v' q := by
  have h := (eptMachine systemCr3).invariant_of_along (fun _ _ _ hI hstep hnext =>
    flipInv_step hI hstep hnext) (flipInv_initial setup entries) hok hrun
  exact ⟨h.runnable, fun _ _ _ hfault hnext hflip => h.lands hfault hnext hflip⟩

/-! ### Runs of the small vCPU -/

/-- The page at address `0x2000`. -/
def secondPage : GuestPage := ⟨0, 0, 2⟩

/-- A session on the first page, and then, without an end to it, one on
the second. -/
def twoEnables : List EptExit :=
  [.enableAutoTrace directTables (hypercallContext 0x1000 0x1000),
    .enableAutoTrace directTables (hypercallContext 0x2000 0x1000)]

/-- The pages of the range 0x2000 to 0x3000 under the direct tables. -/
theorem tracedPages_second : tracedPages directTables 1 0x2000 0x1000 = [secondPage] := by decide

/-- The claimed property fails: after two enables in a row the first
page can be executed in neither view, with no hook on it. -/
theorem enable_strands_page : ∃ v,
    (eptMachine 1).run plainVcpu twoEnables = some v ∧ ¬ RunnableSomewhere v := by
  obtain ⟨v₁, hnext₁, _, hwf₁, hviews₁, hused₁, _⟩ := plainVcpu_session
  obtain ⟨v₂, hnext₂, _, hwf₂, hviews₂, _⟩ := enabled_of_traceable hwf₁
    (show Traceable v₁.ept.normal directTables 1
      (hypercallContext 0x2000 0x1000).rdx.toNat (hypercallContext 0x2000 0x1000).r8.toNat from
      traceable_onePage (Nat.lt_of_le_of_lt hused₁ (by decide)) (by decide) (by decide))
  have hviews : v₂.views = ((ViewPair.mk identityView identityView).suspend.trace
      [firstPage]).suspend.trace [secondPage] := by
    rw [hviews₂, hviews₁]
    rw [show (tracedPages directTables 1 (hypercallContext 0x2000 0x1000).rdx.toNat
      (hypercallContext 0x2000 0x1000).r8.toNat) = [secondPage] from tracedPages_second]
  refine ⟨v₂, ?_, fun hsomewhere => ?_⟩
  · unfold twoEnables
    rw [Machine.run_cons, hnext₁, Option.bind_some, Machine.run_cons, hnext₂, Option.bind_some,
      Machine.run_nil]
  · -- The page of the first session: no view executes it and no hook covers it.
    have hunhooked : ¬ v₂.views.normal.Guarded firstPage := by
      rw [hviews]
      exact View.not_guarded_suspend GuestPage.frame
    have hnormal := mt (activeHook_iff hwf₂.ept.normal firstPage).mp hunhooked
    have htarget : ¬ v₂.ept.target.ActiveHook firstPage := by
      rw [activeHook_iff hwf₂.ept.target]
      show ¬ v₂.views.target.Guarded firstPage
      rw [hviews]
      exact View.not_guarded_suspend GuestPage.frame
    have hdenied : (v₂.views.normal.map firstPage).execute = false ∧
        (v₂.views.target.map firstPage).execute = false := by
      rw [hviews]
      decide
    have hrun := hsomewhere firstPage hnormal htarget
    rw [executable_normal_iff, executable_target_iff, hdenied.1, hdenied.2] at hrun
    exact Bool.false_ne_true (or_self_iff.mp hrun)

/-- A session on the first page, and a fetch there. The fault flips the
view, and in the other one the page can be executed. -/
theorem flips_land_oneSession : ∃ v v',
    (eptMachine 1).run plainVcpu
      [.enableAutoTrace directTables (hypercallContext 0x1000 0x1000)] = some v ∧
    RunnableSomewhere v ∧ FetchFault v (fetchFault 0x1000) firstPage ∧
    (eptMachine 1).next v (.eptViolation (fetchFault 0x1000)) = some v' ∧
    v'.eptPointer ≠ v.eptPointer ∧ Lands v' firstPage := by
  obtain ⟨v, hnext, _, hwf, hviews, _, hin⟩ := plainVcpu_session
  have hrun : (eptMachine 1).run plainVcpu
      [.enableAutoTrace directTables (hypercallContext 0x1000 0x1000)] = some v := by
    rw [Machine.run_cons, hnext]
    rfl
  have hstrands : (eptMachine 1).Along (StrandsNothing 1) plainVcpu
      [.enableAutoTrace directTables (hypercallContext 0x1000 0x1000)] := by
    refine ⟨fun _ q hdenied _ => ?_, fun v _ => trivial⟩
    -- Nothing is trapped in the normal view of a new vCPU.
    have hplain : plainVcpu.views = ⟨identityView, identityView⟩ := initialVcpu_views plainSetup _
    rw [executable_normal_iff, hplain] at hdenied
    exact absurd rfl hdenied
  obtain ⟨hsomewhere, hlands⟩ := flips_land 1 plainSetup _ _ hrun hstrands
  -- The session traps its page in the normal view.
  have hdenied : ¬ v.walkedPages.Executable firstPage := by
    rw [hwf.walkedPages, Vcpu.currentEptPages, hin, if_pos rfl, executable_normal_iff, hviews]
    decide
  have hnone : v.currentEptPages.hooks = [] := by
    have hguards : v.currentEptPages.view.guards = [] := by
      rw [view_currentEptPages, hin, hviews]
      rfl
    exact List.map_eq_nil_iff.mp hguards
  obtain ⟨v', hflip, _, hout⟩ := flips_of_suspended
    (fun hook hmem => absurd (hnone ▸ hmem) List.not_mem_nil) 0x1000
  have hfault : FetchFault v (fetchFault 0x1000) firstPage := ⟨rfl, rfl, rfl, hdenied⟩
  have hchanged : v'.eptPointer ≠ v.eptPointer := by
    rw [(next_viewStep hwf hflip).1.pointer, hwf.pointer, Vcpu.currentEptp, Vcpu.currentEptp, hout,
      hin]
    decide
  exact ⟨v, v', hrun, hsomewhere, hfault, hflip, hchanged, hlands _ _ _ hfault hflip hchanged⟩

end Revhv.ViewFlip
