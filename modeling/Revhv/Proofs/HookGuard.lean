import Revhv.Proofs.EptMachine

/-!
# `Revhv.Proofs.HookGuard`: what a hook keeps from the guest

A hook of page `q` with frame `h` is to show `h` to execution only and
the page's own frame to data accesses only.

* `hook_guards`: along a run whose steps meet `KeepsGuards`, every hook
  that was stored does this in both views, from then on and except
  while a running session has suspended it.
* `disable_opens_hook`: an end of a session that never began breaks
  it. The page of an active hook gets full access, and
  `reactivate_hooks` passes over hooks that are active already.

`KeepsGuards` names the ways into trouble: that end of a session, a
hook frame that does not fit into the 32 bits of the hook or is the
page's own, and a second hook on a page that meets another frame there
or a suspended hook.
-/

set_option autoImplicit false

namespace Revhv.HookGuard

open Revhv.Ept Revhv.Hypercall Revhv.Lib Revhv.Memory Revhv.Trace Revhv.Vcpu Revhv.Vmexit

/-! ### The property -/

/-- The entry does not let the guest read or write frame `h`, nor
execute the page's own frame. -/
structure Hides (e : EptPte) (q : GuestPage) (h : Nat) : Prop where
  data : (e.readAccess = true ∨ e.writeAccess = true) → e.pageFrameNumber ≠ h
  code : e.executeAccess = true → e.pageFrameNumber ≠ q.frame

/-- An execution of page `q` that the processor reports. -/
structure ExecutesPage (exit : EptViolation) (q : GuestPage) : Prop where
  execute : exit.executeAccess = true
  translation : exit.causedByTranslation = true
  page : toPfn exit.guestPhysicalAddress = q.frame

/-- Page `q` is guarded in both views, and an execution of it ends up in
frame `h`. -/
structure GuardsPage (systemCr3 : Nat) (v : Vcpu) (q : GuestPage) (h : Nat) : Prop where
  normal : Hides (v.ept.normal.walk q) q h
  target : Hides (v.ept.target.walk q) q h
  resolved : ∀ exit, ExecutesPage exit q →
    ∃ v', (eptMachine systemCr3).next v (.eptViolation exit) = some v' ∧
      v'.walkedPages.Executable q ∧ (v'.walkedPages.walk q).pageFrameNumber = h

/-! ### Sessions -/

/-- A vCPU, and whether a session is running on it. -/
structure SessionVcpu where
  vcpu : Vcpu
  running : Bool

/-- Whether a session is running after an exit that has led to `v'`. -/
def runningAfter (running : Bool) (v' : Vcpu) : EptExit → Bool
  | .enableAutoTrace _ _ => decide (v'.guestContext.rax = 1)
  | .disableAutoTrace _ => false
  | .eptHook _ => running
  | .wrmsrMtrr _ => running
  | .eptViolation _ => running

/-- `eptMachine` with a record of sessions. A failed enable ends the
session, too. -/
def hookMachine (systemCr3 : Nat) : Machine SessionVcpu EptExit where
  next s e := ((eptMachine systemCr3).next s.vcpu e).map fun v' =>
    ⟨v', runningAfter s.running v' e⟩

/-- A step of the session machine is one of the vCPU. -/
theorem next_hookMachine {systemCr3 : Nat} {s s' : SessionVcpu} {e : EptExit}
    (h : (hookMachine systemCr3).next s e = some s') :
    ∃ v', (eptMachine systemCr3).next s.vcpu e = some v' ∧
      s' = ⟨v', runningAfter s.running v' e⟩ := by
  obtain ⟨v', hnext, heq⟩ := Option.map_eq_some_iff.mp h
  exact ⟨v', hnext, heq.symm⟩

/-- A step of the vCPU is one of the session machine. -/
theorem hookMachine_next {systemCr3 : Nat} {s : SessionVcpu} {e : EptExit} {v' : Vcpu}
    (h : (eptMachine systemCr3).next s.vcpu e = some v') :
    (hookMachine systemCr3).next s e = some ⟨v', runningAfter s.running v' e⟩ :=
  congrArg (Option.map fun v' => SessionVcpu.mk v' (runningAfter s.running v' e)) h

/-- What a step has to meet to leave every guard in place. -/
def KeepsGuards (s : SessionVcpu) : EptExit → Prop
  | .eptHook ctx => Hookable s.vcpu.ept.normal ctx.rdx.toNat →
      ctx.r8.toNat < 2 ^ 32 ∧ ctx.r8.toNat ≠ (hookedPage ctx.rdx.toNat).frame ∧
      -- Older hooks on the page are active and show the same frame.
      ∀ hook ∈ s.vcpu.ept.normal.hooks, hook.origPfn = (hookedPage ctx.rdx.toNat).frame →
        hook.hookPfn = ctx.r8.toNat ∧ hook.pte ≠ none
  -- No hook is active.
  | .disableAutoTrace _ => ∀ hook ∈ s.vcpu.ept.normal.hooks, hook.pte = none
  | .enableAutoTrace _ _ => True
  | .wrmsrMtrr _ => True
  | .eptViolation _ => True

/-! ### The invariant -/

/-- Page `q` is sealed in both views. -/
structure SealedPair (p : ViewPair) (q : GuestPage) (s : Nat) : Prop where
  normal : View.Sealed GuestPage.frame p.normal q s
  target : View.Sealed GuestPage.frame p.target q s

/-- The invariant of a run. -/
structure GuardInv (s : SessionVcpu) : Prop where
  wf : s.vcpu.WF
  isSealed : ∀ q, ∃ h, SealedPair s.vcpu.views q h
  shadow : ∀ g ∈ s.vcpu.views.normal.guards, g.shadow ≠ g.page.frame
  suspended : ∀ g ∈ s.vcpu.views.normal.guards, g.active = false → s.running = true

section
variable {p : ViewPair} {q : GuestPage} {h : Nat}

/-- The shadow of a page is that of its guards. -/
theorem sealed_rename {w : View GuestPage Nat} {h' : Nat}
    (hsealed : View.Sealed GuestPage.frame w q h)
    (hshadow : ∀ g ∈ w.guards, g.page = q → g.shadow = h') :
    View.Sealed GuestPage.frame w q h' where
  shadow := hshadow
  together := hsealed.together
  atHome := hsealed.atHome
  form hguarded := by
    have heq : h = h' := by
      obtain ⟨g, hg, hpage, _⟩ := hguarded
      exact (hsealed.shadow g hg hpage).symm.trans (hshadow g hg hpage)
    rw [← heq]
    exact hsealed.form hguarded

/-- A suspension keeps a page sealed. -/
theorem sealedPair_suspend (hp : SealedPair p q h) : SealedPair p.suspend q h :=
  ⟨View.sealed_suspend hp.normal, View.sealed_suspend hp.target⟩

/-- A reset keeps a page sealed whose hooks are suspended. -/
theorem sealedPair_reset (hp : SealedPair p q h) (hnormal : ¬ p.normal.Guarded q)
    (htarget : ¬ p.target.Guarded q) : SealedPair p.reset q h :=
  ⟨View.sealed_resume (View.sealed_setAccess hp.normal _ _ _ hnormal),
    View.sealed_resume (View.sealed_setAccess hp.target _ _ _ htarget)⟩

/-- A session keeps a page sealed whose hooks are suspended. -/
theorem sealedPair_trace (hp : SealedPair p q h) (hnormal : ¬ p.normal.Guarded q)
    (htarget : ¬ p.target.Guarded q) (pages : List GuestPage) :
    SealedPair (p.trace pages) q h := by
  refine ⟨View.sealed_setExecute hp.normal pages false hnormal, ?_⟩
  have hopened := View.sealed_setAccess hp.target true true false htarget
  exact View.sealed_setExecute hopened pages true htarget

/-- A hook on another page keeps a page sealed. -/
theorem sealedPair_guard_of_ne (hp : SealedPair p q h) {q₀ : GuestPage} (h₀ : Nat)
    (hne : q₀ ≠ q) : SealedPair (p.guard q₀ h₀) q h :=
  ⟨View.sealed_guard_of_ne hp.normal h₀ hne, View.sealed_guard_of_ne hp.target h₀ hne⟩

/-- So does one on the page itself with the same shadow, unless a hook
there is suspended. -/
theorem sealedPair_guard (hp : SealedPair p q h) (hnormal : ¬ p.normal.Suspended q)
    (htarget : ¬ p.target.Suspended q) : SealedPair (p.guard q h) q h :=
  ⟨View.sealed_guard hp.normal hnormal, View.sealed_guard hp.target htarget⟩

/-- An edit of the view in use that keeps the page sealed there. -/
theorem sealedPair_onCurrent (hp : SealedPair p q h) (inNormal : Bool)
    {f : View GuestPage Nat → View GuestPage Nat}
    (hf : View.Sealed GuestPage.frame (p.current inNormal) q h →
      View.Sealed GuestPage.frame (f (p.current inNormal)) q h) :
    SealedPair (p.onCurrent inNormal f) q h := by
  cases inNormal with
  | true => exact ⟨hf hp.normal, hp.target⟩
  | false => exact ⟨hp.normal, hf hp.target⟩

/-- A page sealed in both views is sealed in the one in use. -/
theorem sealed_current (hp : SealedPair p q h) (inNormal : Bool) :
    View.Sealed GuestPage.frame (p.current inNormal) q h := by
  cases inNormal with
  | true => exact hp.normal
  | false => exact hp.target

/-- An operation on the view in use that leaves its hooks leaves those
of the normal view. -/
theorem guards_onCurrent (p : ViewPair) (inNormal : Bool)
    {f : View GuestPage Nat → View GuestPage Nat} (hf : ∀ w, (f w).guards = w.guards) :
    (p.onCurrent inNormal f).normal.guards = p.normal.guards := by
  cases inNormal with
  | true => exact hf p.normal
  | false => rfl

end

/-! ### One step -/

/-- A step that adds no hook and keeps all of them as they are. -/
theorem GuardInv.of_guards {s : SessionVcpu} (h : GuardInv s) {v' : Vcpu} {running : Bool}
    (hwf : v'.WF) (hguards : v'.views.normal.guards = s.vcpu.views.normal.guards)
    (hrunning : running = s.running) (hsealed : ∀ q, ∃ h, SealedPair v'.views q h) :
    GuardInv ⟨v', running⟩ := by
  refine ⟨hwf, hsealed, ?_, ?_⟩
  · show ∀ g ∈ v'.views.normal.guards, _
    rw [hguards]
    exact h.shadow
  · show ∀ g ∈ v'.views.normal.guards, g.active = false → running = true
    rw [hguards, hrunning]
    exact h.suspended

/-- A step after which all hooks are active. -/
theorem guardInv_reset {s : SessionVcpu} (h : GuardInv s) {v' : Vcpu} {p : ViewPair}
    {running : Bool} (hwf : v'.WF) (hviews : v'.views = p.reset)
    (hguards : ∀ g ∈ p.normal.guards, ∃ g' ∈ s.vcpu.views.normal.guards,
      g'.page = g.page ∧ g'.shadow = g.shadow)
    (hsealed : ∀ q, ∃ h, SealedPair p.reset q h) : GuardInv ⟨v', running⟩ := by
  refine ⟨hwf, ?_, ?_, ?_⟩
  · show ∀ q, ∃ h, SealedPair v'.views q h
    rw [hviews]
    exact hsealed
  · show ∀ g ∈ v'.views.normal.guards, _
    rw [hviews]
    intro g hg
    obtain ⟨g₀, hg₀, rfl⟩ := List.mem_map.mp hg
    obtain ⟨g', hg', hpage, hshadow⟩ := hguards g₀ hg₀
    show g₀.shadow ≠ g₀.page.frame
    rw [← hpage, ← hshadow]
    exact h.shadow g' hg'
  · show ∀ g ∈ v'.views.normal.guards, g.active = false → running = true
    rw [hviews]
    intro g hg hactive
    obtain ⟨g₀, _, rfl⟩ := List.mem_map.mp hg
    cases hactive

/-- No hook is active, so no page is guarded in either view. -/
theorem not_guarded_of_suspended {v : Vcpu} (h : v.WF)
    (hnone : ∀ hook ∈ v.ept.normal.hooks, hook.pte = none) (q : GuestPage) :
    ¬ v.views.normal.Guarded q ∧ ¬ v.views.target.Guarded q := by
  have hnormal : ¬ v.views.normal.Guarded q := by
    intro hguarded
    obtain ⟨hook, hmem, _, hactive⟩ := (activeHook_iff h.ept.normal q).mpr hguarded
    rw [hnone hook hmem] at hactive
    cases hactive
  exact ⟨hnormal, mt (guarded_target h q).mp hnormal⟩

/-- A hook on a page whose older hooks are active and show the same
frame. -/
theorem guardInv_hookStored {s : SessionVcpu} (h : GuardInv s) {v' : Vcpu} {ctx : GuestContext}
    (hwf : v'.WF) (hviews : v'.views =
      s.vcpu.views.guard (hookedPage ctx.rdx.toNat) (castUInt32 ctx.r8.toNat))
    (hcut : ctx.r8.toNat < 2 ^ 32) (hne : ctx.r8.toNat ≠ (hookedPage ctx.rdx.toNat).frame)
    (holder : ∀ hook ∈ s.vcpu.ept.normal.hooks,
      hook.origPfn = (hookedPage ctx.rdx.toNat).frame →
        hook.hookPfn = ctx.r8.toNat ∧ hook.pte ≠ none) : GuardInv ⟨v', s.running⟩ := by
  have hcast : castUInt32 ctx.r8.toNat = ctx.r8.toNat := Nat.mod_eq_of_lt hcut
  rw [hcast] at hviews
  generalize ctx.r8.toNat = shadow at *
  generalize hookedPage ctx.rdx.toNat = page at *
  -- A hook that is already on the page has the same shadow and is active, by
  -- the condition on the call.
  have hguards : ∀ g ∈ s.vcpu.views.normal.guards, g.page = page →
      g.shadow = shadow ∧ g.active = true := by
    intro g hg hpage
    obtain ⟨hook, hmem, rfl⟩ := List.mem_map.mp hg
    obtain ⟨q, horig, _⟩ := h.wf.ept.normal.hook hook hmem
    have heq : q = page := (page_of_origPfn horig).symm.trans hpage
    obtain ⟨hshadow, hpte⟩ := holder hook hmem (heq ▸ horig)
    exact ⟨hshadow, Option.isSome_iff_ne_none.mpr hpte⟩
  have hnot : ¬ s.vcpu.views.normal.Suspended page := by
    intro hsuspended
    obtain ⟨g, hg, hpage, hactive⟩ := hsuspended
    rw [(hguards g hg hpage).2] at hactive
    cases hactive
  have hmem : ∀ g ∈ v'.views.normal.guards,
      g ∈ s.vcpu.views.normal.guards ∨ g = ⟨page, shadow, true⟩ := by
    rw [hviews]
    intro g hg
    exact (List.mem_append.mp hg).imp_right List.mem_singleton.mp
  refine ⟨hwf, fun q => ?_, fun g hg => ?_, fun g hg hactive => ?_⟩
  · obtain ⟨old, hsealed⟩ := h.isSealed q
    show ∃ h, SealedPair v'.views q h
    rw [hviews]
    -- The new hook is last in the list, and the sweep leaves the page with the
    -- last of them.
    by_cases hq : page = q
    · subst hq
      have hnormal := sealed_rename hsealed.normal fun g hg hpage => (hguards g hg hpage).1
      have hshadow : ∀ g ∈ s.vcpu.views.target.guards, g.page = page → g.shadow = shadow := by
        intro g hg hpage
        rw [h.wf.guards] at hg
        exact (hguards g hg hpage).1
      have htarget := sealed_rename hsealed.target hshadow
      exact ⟨shadow, sealedPair_guard ⟨hnormal, htarget⟩ hnot
        (mt (suspended_target h.wf page).mp hnot)⟩
    · exact ⟨old, sealedPair_guard_of_ne hsealed shadow hq⟩
  · cases hmem g hg with
    | inl hold => exact h.shadow g hold
    | inr hnew =>
      rw [hnew]
      exact hne
  · cases hmem g hg with
    | inl hold => exact h.suspended g hold hactive
    | inr hnew =>
      rw [hnew] at hactive
      cases hactive

/-- Every step that keeps the guards keeps the invariant. -/
theorem guardInv_step {systemCr3 : Nat} {s s' : SessionVcpu} {e : EptExit} (h : GuardInv s)
    (hok : KeepsGuards s e) (hnext : (hookMachine systemCr3).next s e = some s') :
    GuardInv s' := by
  obtain ⟨v', hept, rfl⟩ := next_hookMachine hnext
  obtain ⟨hwf, hstep⟩ := next_viewStep h.wf hept
  have hsame : v'.views = s.vcpu.views → ∀ q, ∃ h, SealedPair v'.views q h := by
    intro hviews
    rw [hviews]
    exact h.isSealed
  have hsuspend : ∀ q, ∃ h, SealedPair s.vcpu.views.suspend q h := by
    intro q
    obtain ⟨shadow, hsealed⟩ := h.isSealed q
    exact ⟨shadow, sealedPair_suspend hsealed⟩
  have hopen : ∀ q, ¬ s.vcpu.views.suspend.normal.Guarded q ∧
      ¬ s.vcpu.views.suspend.target.Guarded q := by
    intro q
    exact ⟨View.not_guarded_suspend _, View.not_guarded_suspend _⟩
  -- One case for each exit. Only hooks and sessions change which pages are
  -- guarded.
  cases e with
  | eptHook ctx =>
    cases hstep with
    | hookRefused _ views _ _ =>
      exact h.of_guards hwf (congrArg (fun p => p.normal.guards) views) rfl (hsame views)
    | hookStored hookable views _ _ =>
      obtain ⟨hcut, hne, holder⟩ := hok hookable
      exact guardInv_hookStored h hwf views hcut hne holder
  | enableAutoTrace tables ctx =>
    cases hstep with
    | enabled _ _ views _ _ _ _ rax =>
      refine ⟨hwf, fun q => ?_, ?_, fun _ _ _ => decide_eq_true rax⟩
      · obtain ⟨shadow, hsealed⟩ := hsuspend q
        show ∃ h, SealedPair v'.views q h
        rw [views]
        exact ⟨shadow, sealedPair_trace hsealed (hopen q).1 (hopen q).2 _⟩
      · show ∀ g ∈ v'.views.normal.guards, _
        rw [views]
        intro g hg
        obtain ⟨g₀, hg₀, rfl⟩ := List.mem_map.mp hg
        exact h.shadow g₀ hg₀
    | enableFailed _ views _ _ =>
      refine guardInv_reset h hwf views (fun g hg => ?_) fun q => ?_
      · obtain ⟨g₀, hg₀, rfl⟩ := List.mem_map.mp hg
        exact ⟨g₀, hg₀, rfl, rfl⟩
      · obtain ⟨shadow, hsealed⟩ := hsuspend q
        exact ⟨shadow, sealedPair_reset hsealed (hopen q).1 (hopen q).2⟩
  | disableAutoTrace ctx =>
    cases hstep with
    | disabled views _ =>
      refine guardInv_reset h hwf views (fun g hg => ⟨g, hg, rfl, rfl⟩) fun q => ?_
      obtain ⟨shadow, hsealed⟩ := h.isSealed q
      obtain ⟨hnormal, htarget⟩ := not_guarded_of_suspended h.wf hok q
      exact ⟨shadow, sealedPair_reset hsealed hnormal htarget⟩
  | wrmsrMtrr mtrrState =>
    cases hstep with
    | retyped views _ =>
      exact h.of_guards hwf (congrArg (fun p => p.normal.guards) views) rfl (hsame views)
  | eptViolation exit =>
    cases hstep with
    | swappedIn _ mem active _ views _ =>
      refine h.of_guards hwf ?_ rfl fun q => ?_
      · rw [views]
        exact guards_onCurrent _ _ fun _ => rfl
      · obtain ⟨shadow, hsealed⟩ := h.isSealed q
        rw [views]
        refine ⟨shadow, sealedPair_onCurrent hsealed _ fun hcurrent => ?_⟩
        exact View.sealed_swapIn hcurrent (hcurrent.shadow _ mem) ⟨_, mem, rfl, active⟩
    | swappedOut _ _ _ _ views _ =>
      refine h.of_guards hwf ?_ rfl fun q => ?_
      · rw [views]
        exact guards_onCurrent _ _ fun _ => rfl
      · obtain ⟨shadow, hsealed⟩ := h.isSealed q
        rw [views]
        exact ⟨shadow, sealedPair_onCurrent hsealed _ fun hcurrent =>
          View.sealed_swapOut hcurrent _⟩
    | flipped _ _ views _ _ _ _ =>
      exact h.of_guards hwf (congrArg (fun p => p.normal.guards) views) rfl (hsame views)

/-- A new vCPU has no hooks. -/
theorem guardInv_initial (setup : VcpuSetup) (entries : Nat → Entry) :
    GuardInv ⟨initialVcpu setup entries, false⟩ := by
  have hviews := initialVcpu_views setup entries
  refine ⟨initialVcpu_wf setup entries, fun q => ⟨0, ?_⟩, ?_, ?_⟩
  · -- The identity view has no hooks at all.
    have hnone : ¬ identityView.Guarded q := by
      intro hguarded
      obtain ⟨g, hg, _⟩ := hguarded
      exact absurd hg List.not_mem_nil
    have hidentity : View.Sealed GuestPage.frame identityView q 0 :=
      ⟨fun _ hg => absurd hg List.not_mem_nil, fun hguarded => absurd hguarded hnone,
        fun _ => rfl, fun hguarded => absurd hguarded hnone⟩
    show SealedPair (initialVcpu setup entries).views q 0
    rw [hviews]
    exact ⟨hidentity, hidentity⟩
  · show ∀ g ∈ (initialVcpu setup entries).views.normal.guards, _
    rw [hviews]
    exact fun _ hg => absurd hg List.not_mem_nil
  · show ∀ g ∈ (initialVcpu setup entries).views.normal.guards, _
    rw [hviews]
    exact fun _ hg => absurd hg List.not_mem_nil

/-! ### From the invariant to the property -/

/-- A guarded page keeps the two frames apart. -/
theorem hides_of_sealed {pages : EptPages} {q : GuestPage} {h : Nat}
    (hsealed : View.Sealed GuestPage.frame pages.view q h) (hguarded : pages.view.Guarded q)
    (hne : h ≠ q.frame) : Hides (pages.walk q) q h := by
  have hform := hsealed.form hguarded
  constructor
  · -- A page at home can be read but not executed, and one in shadow the other
    -- way round.
    intro hdata
    cases hform with
    | inl hhome =>
      have hframe : (pages.walk q).pageFrameNumber = q.frame := hhome.2
      rw [hframe]
      exact hne.symm
    | inr hshadow =>
      have hread : (pages.walk q).readAccess = false := hshadow.1
      have hwrite : (pages.walk q).writeAccess = false := hshadow.2.1
      rw [hread, hwrite, or_self] at hdata
      exact absurd hdata Bool.false_ne_true
  · intro hcode
    cases hform with
    | inl hhome =>
      have hexecute : (pages.walk q).executeAccess = false := hhome.1
      rw [hexecute] at hcode
      exact absurd hcode Bool.false_ne_true
    | inr hshadow =>
      have hframe : (pages.walk q).pageFrameNumber = h := hshadow.2.2
      rw [hframe]
      exact hne

/-- An operation on the view in use is seen there. -/
theorem current_onCurrent (p : ViewPair) (inNormal : Bool)
    (f : View GuestPage Nat → View GuestPage Nat) :
    (p.onCurrent inNormal f).current inNormal = f (p.current inNormal) := by
  cases inNormal with
  | true => rfl
  | false => rfl

/-- An active hook guards its page. -/
theorem GuardInv.guards {s : SessionVcpu} (h : GuardInv s) (systemCr3 : Nat) {hook : EptHook}
    (hmem : hook ∈ s.vcpu.ept.normal.hooks) (hpte : hook.pte ≠ none) :
    GuardsPage systemCr3 s.vcpu hook.page hook.hookPfn := by
  have hguard : hook.guard ∈ s.vcpu.views.normal.guards := List.mem_map_of_mem hmem
  have hguarded : s.vcpu.views.normal.Guarded hook.page :=
    ⟨hook.guard, hguard, rfl, Option.isSome_iff_ne_none.mpr hpte⟩
  have htarget := (guarded_target h.wf hook.page).mpr hguarded
  have hcurrent := (guarded_current h.wf hook.page).mpr hguarded
  have hne : hook.hookPfn ≠ hook.page.frame := h.shadow hook.guard hguard
  obtain ⟨shadow, hsealed⟩ := h.isSealed hook.page
  have heq : shadow = hook.hookPfn := (hsealed.normal.shadow hook.guard hguard rfl).symm
  rw [heq] at hsealed
  refine ⟨hides_of_sealed hsealed.normal hguarded hne, hides_of_sealed hsealed.target htarget hne,
    fun exit hexit => ?_⟩
  have hcurrentSealed := sealed_current hsealed s.vcpu.inNormalExecution
  have hphysical : toPfn exit.physicalAddress = hook.page.frame := by
    unfold EptViolation.physicalAddress
    rw [if_pos hexit.translation, hexit.page]
  obtain ⟨v', hnext⟩ := next_execute systemCr3 s.vcpu hexit.execute
  refine ⟨v', hnext, ?_⟩
  obtain ⟨hwf, hstep⟩ := next_viewStep h.wf hnext
  cases hstep with
  | @swappedIn _ g _ mem _ page views inNormal =>
    have hpage : g.page = hook.page := GuestPage.frame_injective (page.trans hphysical)
    have hshadow : g.shadow = hook.hookPfn := hcurrentSealed.shadow g mem hpage
    have hview : v'.currentEptPages.view =
        (s.vcpu.views.current s.vcpu.inNormalExecution).swapIn hook.page hook.hookPfn := by
      rw [view_currentEptPages, views, inNormal, current_onCurrent, hpage, hshadow]
    have hmap : (v'.currentEptPages.view.map hook.page) =
        ⟨false, false, true, hook.hookPfn⟩ := by
      rw [hview, View.map_swapIn, if_pos rfl]
    rw [hwf.walkedPages]
    exact ⟨congrArg Mapping.execute hmap, congrArg Mapping.frame hmap⟩
  | swappedOut execute _ _ _ _ _ =>
    rw [hexit.execute] at execute
    cases execute
  | flipped _ first _ _ _ _ _ =>
    -- The hook in front is suspended, but no hook on the page is.
    have hguard' := hcurrent
    obtain ⟨g, hg, hpage, _⟩ := hguard'
    have hsuspended := first g hg (by rw [hpage, hphysical])
    rw [hpage] at hsuspended
    exact absurd hsuspended (hcurrentSealed.together hcurrent)

/-! ### A stored hook stays -/

/-- The pages and frames of the hooks, oldest first. -/
def hookKeys (v : Vcpu) : List (GuestPage × Nat) :=
  v.views.normal.guards.map fun g => (g.page, g.shadow)

/-- The hooks can be read off the normal view. -/
theorem hookKeys_of_views {v v' : Vcpu} {p : ViewPair} (hviews : v'.views = p)
    (hkeys : p.normal.guards.map (fun g => (g.page, g.shadow)) = hookKeys v) :
    hookKeys v <+: hookKeys v' := by
  unfold hookKeys
  rw [hviews]
  exact hkeys ▸ List.prefix_rfl

/-- No step drops a hook or changes its page or frame. -/
theorem hookKeys_next {systemCr3 : Nat} {v v' : Vcpu} {e : EptExit} (h : v.WF)
    (hnext : (eptMachine systemCr3).next v e = some v') : hookKeys v <+: hookKeys v' := by
  obtain ⟨_, hstep⟩ := next_viewStep h hnext
  -- Hooks are appended and never removed, and what a session does to them keeps
  -- page and shadow.
  cases hstep with
  | hookRefused _ views _ _ => exact hookKeys_of_views views rfl
  | hookStored _ views _ _ =>
    unfold hookKeys
    rw [views]
    show _ <+: (v.views.normal.guards ++ [_]).map _
    rw [List.map_append]
    exact List.prefix_append _ _
  | enabled _ _ views _ _ _ _ _ =>
    apply hookKeys_of_views views
    show (v.views.normal.guards.map _).map _ = _
    rw [List.map_map]
    rfl
  | enableFailed _ views _ _ =>
    apply hookKeys_of_views views
    show ((v.views.normal.guards.map _).map _).map _ = _
    rw [List.map_map, List.map_map]
    rfl
  | disabled views _ =>
    apply hookKeys_of_views views
    show (v.views.normal.guards.map _).map _ = _
    rw [List.map_map]
    rfl
  | retyped views _ => exact hookKeys_of_views views rfl
  | swappedIn _ _ _ _ views _ =>
    apply hookKeys_of_views views
    exact congrArg (List.map _) (guards_onCurrent _ _ fun _ => rfl)
  | swappedOut _ _ _ _ views _ =>
    apply hookKeys_of_views views
    exact congrArg (List.map _) (guards_onCurrent _ _ fun _ => rfl)
  | flipped _ _ views _ _ _ _ => exact hookKeys_of_views views rfl

/-- By induction, no run drops a hook or changes its page or frame. -/
theorem hookKeys_run {systemCr3 : Nat} {s s' : SessionVcpu} {es : List EptExit} (h : s.vcpu.WF)
    (hrun : (hookMachine systemCr3).run s es = some s') : hookKeys s.vcpu <+: hookKeys s'.vcpu := by
  have hboth : s'.vcpu.WF ∧ hookKeys s.vcpu <+: hookKeys s'.vcpu :=
    (hookMachine systemCr3).invariant_of_run (I := fun t => t.vcpu.WF ∧ _ <+: hookKeys t.vcpu)
      (fun t e t' hI hnext => by
        obtain ⟨v', hept, rfl⟩ := next_hookMachine hnext
        exact ⟨(next_viewStep hI.1 hept).1, hI.2.trans (hookKeys_next hI.1 hept)⟩)
      ⟨h, List.prefix_rfl⟩ hrun
  exact hboth.2

/-- The hook a request has stored, at its place. -/
theorem hookKeys_stored {systemCr3 : Nat} {v v' : Vcpu} {ctx : GuestContext} (h : v.WF)
    (hnext : (eptMachine systemCr3).next v (.eptHook ctx) = some v')
    (hrax : v'.guestContext.rax = 1) :
    Hookable v.ept.normal ctx.rdx.toNat ∧
      hookKeys v' = hookKeys v ++ [(hookedPage ctx.rdx.toNat, castUInt32 ctx.r8.toNat)] := by
  obtain ⟨_, hstep⟩ := next_viewStep h hnext
  cases hstep with
  | hookRefused _ _ _ rax =>
    rw [rax] at hrax
    exact absurd hrax (by decide)
  | hookStored hookable views _ _ =>
    refine ⟨hookable, ?_⟩
    unfold hookKeys
    rw [views]
    show (v.views.normal.guards ++ [_]).map _ = _
    rw [List.map_append]
    rfl

/-- Keys belong to hooks. -/
theorem hook_of_key {v : Vcpu} {n : Nat} {q : GuestPage} {h : Nat}
    (hkey : (hookKeys v)[n]? = some (q, h)) :
    ∃ hook, v.ept.normal.hooks[n]? = some hook ∧ hook.page = q ∧ hook.hookPfn = h := by
  unfold hookKeys at hkey
  rw [List.getElem?_map, Option.map_eq_some_iff] at hkey
  obtain ⟨g, hg, hpair⟩ := hkey
  have hguard : (v.ept.normal.hooks.map EptHook.guard)[n]? = some g := hg
  rw [List.getElem?_map, Option.map_eq_some_iff] at hguard
  obtain ⟨hook, hhook, rfl⟩ := hguard
  exact ⟨hook, hhook, (Prod.mk.inj hpair).1, (Prod.mk.inj hpair).2⟩

/-- Along a run that keeps the guards, a hook that has been stored is in
both views from then on. A running session has suspended it, or it
guards its page. -/
theorem hook_guards (systemCr3 : Nat) (setup : VcpuSetup) (entries : Nat → Entry)
    (es₁ es₂ : List EptExit) (ctx : GuestContext) {s₁ s₂ s₃ : SessionVcpu}
    (hrun₁ : (hookMachine systemCr3).run ⟨initialVcpu setup entries, false⟩ es₁ = some s₁)
    (hnext : (hookMachine systemCr3).next s₁ (.eptHook ctx) = some s₂)
    (hrax : s₂.vcpu.guestContext.rax = 1)
    (hrun₂ : (hookMachine systemCr3).run s₂ es₂ = some s₃)
    (hok : (hookMachine systemCr3).Along KeepsGuards ⟨initialVcpu setup entries, false⟩
      (es₁ ++ .eptHook ctx :: es₂)) :
    ∃ hook, s₃.vcpu.ept.normal.hooks[s₁.vcpu.ept.normal.hooks.length]? = some hook ∧
      s₃.vcpu.ept.target.hooks[s₁.vcpu.ept.normal.hooks.length]? = some hook ∧
      ((hook.pte = none ∧ s₃.running = true) ∨
        GuardsPage systemCr3 s₃.vcpu (hookedPage ctx.rdx.toNat) ctx.r8.toNat) := by
  -- The run is cut at the hook, and the invariant is carried over the three
  -- parts.
  obtain ⟨hok₁, hok₂⟩ := (hookMachine systemCr3).along_append hok hrun₁
  have hkeep := fun s e s' hI hstep hn => @guardInv_step systemCr3 s s' e hI hstep hn
  have hinv₁ := (hookMachine systemCr3).invariant_of_along hkeep (guardInv_initial setup entries)
    hok₁ hrun₁
  have hinv₂ := hkeep _ _ _ hinv₁ hok₂.1 hnext
  have hinv₃ := (hookMachine systemCr3).invariant_of_along hkeep hinv₂ (hok₂.2 s₂ hnext) hrun₂
  have hpointer := hookKeys_run hinv₂.wf hrun₂
  obtain ⟨v₂, hept, rfl⟩ := next_hookMachine hnext
  obtain ⟨hookable, hstored⟩ := hookKeys_stored hinv₁.wf hept hrax
  have hcut := (hok₂.1 hookable).1
  have hlength : s₁.vcpu.ept.normal.hooks.length = (hookKeys s₁.vcpu).length := by
    unfold hookKeys
    rw [List.length_map]
    exact (List.length_map _).symm
  -- The hook got the index that was the length of the list, and later exits
  -- only append.
  have hkey : (hookKeys s₃.vcpu)[s₁.vcpu.ept.normal.hooks.length]? =
      some (hookedPage ctx.rdx.toNat, castUInt32 ctx.r8.toNat) := by
    have hold : (hookKeys v₂)[(hookKeys s₁.vcpu).length]? =
        some (hookedPage ctx.rdx.toNat, castUInt32 ctx.r8.toNat) := by
      rw [hstored, List.getElem?_concat_length]
    rw [hlength]
    obtain ⟨rest, hrest⟩ := hpointer
    rw [← hrest, List.getElem?_append_left (List.getElem?_eq_some_iff.mp hold).1]
    exact hold
  obtain ⟨hook, hhook, hpage, hframe⟩ := hook_of_key hkey
  have hmem : hook ∈ s₃.vcpu.ept.normal.hooks := List.mem_of_getElem? hhook
  refine ⟨hook, hhook, ?_, ?_⟩
  · rw [← hinv₃.wf.ept.lockstep.hooks]
    exact hhook
  · -- A hook without an entry is suspended, which happens inside a session
    -- only.
    cases hpte : hook.pte with
    | none =>
      have hactive : hook.guard.active = false := by
        show hook.pte.isSome = false
        rw [hpte]
        rfl
      exact Or.inl ⟨rfl, hinv₃.suspended hook.guard (List.mem_map_of_mem hmem) hactive⟩
    | some pte =>
      have hguards := hinv₃.guards systemCr3 hmem (hpte ▸ Option.some_ne_none pte)
      rw [hpage, hframe, show castUInt32 ctx.r8.toNat = ctx.r8.toNat from
        Nat.mod_eq_of_lt hcut] at hguards
      exact Or.inr hguards

/-! ### Runs of the small vCPU -/

/-- A hypercall for a hook takes one table of the normal view at most. -/
theorem handleEptHook_used {v : Vcpu} (h : v.WF) (ctx : GuestContext) :
    (handleEptHook { v with guestContext := ctx }).ept.normal.splitPteUsed ≤
      v.ept.normal.splitPteUsed + 1 := by
  have hused := addHook_used h.ept.normal ctx.rdx.toNat ctx.r8.toNat
  unfold handleEptHook
  cases addHook_cases h.ept.normal ctx.rdx.toNat ctx.r8.toNat with
  | inl hrefused =>
    simp only [hrefused]
    exact Nat.le_succ _
  | inr hstored =>
    obtain ⟨normal, hnormal, _⟩ := hstored
    rw [hnormal] at hused
    simp only [hnormal, if_true]
    cases addHook v.ept.target ctx.rdx.toNat ctx.r8.toNat with
    | mk target stored => cases stored <;> exact hused

/-- The small vCPU takes the hook, and has tables to spare then. -/
theorem plainVcpu_hook : ∃ v,
    (eptMachine 1).next plainVcpu (.eptHook (hypercallContext 1 6)) = some v ∧ v.WF ∧
      v.views = (ViewPair.mk identityView identityView).guard firstPage 6 ∧
      v.guestContext.rax = 1 ∧ v.ept.normal.splitPteUsed < eptSplitPteCount := by
  have hboth : (handleEptHook { plainVcpu with guestContext := hypercallContext 1 6 }).WF ∧
      ViewStep 1 plainVcpu
        (handleEptHook { plainVcpu with guestContext := hypercallContext 1 6 })
        (.eptHook (hypercallContext 1 6)) := viewStep_eptHook plainVcpu_wf _
  have hviews : plainVcpu.views = ⟨identityView, identityView⟩ := initialVcpu_views plainSetup _
  obtain ⟨hwf, hstep⟩ := hboth
  cases hstep with
  | hookRefused hno _ _ _ =>
    refine absurd ⟨?_, by decide, Or.inr ?_⟩ hno
    · have hguards := congrArg (fun p : ViewPair => p.normal.guards.length) hviews
      have hlength : plainVcpu.ept.normal.hooks.length = 0 :=
        (List.length_map EptHook.guard).symm.trans hguards
      rw [hlength]
      decide
    · rw [plainVcpu_used]
      decide
  | hookStored _ views _ rax =>
    refine ⟨_, rfl, hwf, ?_, rax, ?_⟩
    · rw [views, hviews]
      rfl
    · have hused := handleEptHook_used plainVcpu_wf (hypercallContext 1 6)
      rw [plainVcpu_used] at hused
      exact lt_of_le_of_lt hused (by decide)

/-- The claimed property fails: after a hook and an end of a session
that never began, the hook is active and its page can be executed with
its own frame. -/
theorem disable_opens_hook : ∃ s₁ s₂,
    (hookMachine 1).next ⟨plainVcpu, false⟩ (.eptHook (hypercallContext 1 6)) = some s₁ ∧
      s₁.vcpu.guestContext.rax = 1 ∧
      (hookMachine 1).next s₁ (.disableAutoTrace .zero) = some s₂ ∧ s₂.running = false ∧
      s₂.vcpu.ept.normal.ActiveHook firstPage ∧
      ¬ Hides (s₂.vcpu.ept.normal.walk firstPage) firstPage 6 := by
  obtain ⟨v, hnext, hwf, hviews, hrax, _⟩ := plainVcpu_hook
  have hboth : (handleDisableAutoTrace { v with guestContext := .zero }).WF ∧
      ViewStep 1 v (handleDisableAutoTrace { v with guestContext := .zero })
        (.disableAutoTrace .zero) := viewStep_disableAutoTrace hwf _
  obtain ⟨hwf', hstep⟩ := hboth
  cases hstep with
  | disabled views _ =>
    rw [hviews] at views
    refine ⟨⟨v, false⟩, ⟨handleDisableAutoTrace { v with guestContext := .zero }, false⟩,
      hookMachine_next hnext, hrax, rfl, rfl, ?_, fun hhides => ?_⟩
    · rw [activeHook_iff hwf'.ept.normal]
      show (handleDisableAutoTrace { v with guestContext := .zero }).views.normal.Guarded firstPage
      rw [views]
      decide
    · -- The reset gave the page all rights on its own frame, so a fetch sees
      -- the unhooked code.
      have hmap : (handleDisableAutoTrace { v with guestContext := .zero }).views.normal.map
          firstPage = ⟨true, true, true, firstPage.frame⟩ := by
        rw [views]
        decide
      exact hhides.code (congrArg Mapping.execute hmap) (congrArg Mapping.frame hmap)

/-- A session on the first page: its start, a fetch there and its end. -/
def pageSession : List EptExit :=
  [.enableAutoTrace directTables (hypercallContext 0x1000 0x1000),
    .eptViolation (fetchFault 0x1000), .disableAutoTrace .zero]

/-- Guards that are suspended belong to hooks without an entry. -/
theorem pte_none_of_suspended {pages : EptPages} {w : View GuestPage Nat}
    (hguards : pages.view.guards = (w.suspend GuestPage.frame).guards) :
    ∀ hook ∈ pages.hooks, hook.pte = none := by
  intro hook hmem
  have hguard : hook.guard ∈ (w.suspend GuestPage.frame).guards :=
    hguards ▸ List.mem_map_of_mem hmem
  obtain ⟨g, _, hg⟩ := List.mem_map.mp hguard
  have hactive : hook.pte.isSome = false := congrArg Guard.active hg.symm
  exact Option.not_isSome_iff_eq_none.mp (ne_true_of_eq_false hactive)

/-- With tables to spare the whole session runs, and it keeps the
guards: the hooks are suspended when it ends. -/
theorem runs_pageSession {v : Vcpu} (h : v.WF) (running : Bool)
    (hused : v.ept.normal.splitPteUsed < eptSplitPteCount) :
    ∃ v', (hookMachine 1).run ⟨v, running⟩ pageSession = some ⟨v', false⟩ ∧
      (hookMachine 1).Along KeepsGuards ⟨v, running⟩ pageSession := by
  obtain ⟨v₁, hnext₁, hrax₁, hwf₁, hviews₁, _⟩ := enabled_of_traceable h
    (show Traceable v.ept.normal directTables 1
      (hypercallContext 0x1000 0x1000).rdx.toNat (hypercallContext 0x1000 0x1000).r8.toNat from
      traceable_onePage hused (by decide) (by decide))
  have hnormal : ∀ hook ∈ v₁.ept.normal.hooks, hook.pte = none :=
    pte_none_of_suspended (w := v.views.normal)
      (congrArg (fun p : ViewPair => p.normal.guards) hviews₁)
  have htarget : ∀ hook ∈ v₁.ept.target.hooks, hook.pte = none :=
    pte_none_of_suspended (w := v.views.target)
      (congrArg (fun p : ViewPair => p.target.guards) hviews₁)
  have hcurrent : ∀ hook ∈ v₁.currentEptPages.hooks, hook.pte = none := by
    unfold Vcpu.currentEptPages
    split
    · exact hnormal
    · exact htarget
  obtain ⟨v₂, hnext₂, hept, _⟩ := flips_of_suspended hcurrent 0x1000
  have hstep₁ := hookMachine_next (s := ⟨v, running⟩) hnext₁
  have hstep₂ : (hookMachine 1).next ⟨v₁, runningAfter running v₁
      (.enableAutoTrace directTables (hypercallContext 0x1000 0x1000))⟩
        (.eptViolation (fetchFault 0x1000)) = _ := hookMachine_next hnext₂
  refine ⟨handleDisableAutoTrace { v₂ with guestContext := .zero }, ?_, ?_⟩
  · unfold pageSession
    rw [Machine.run_cons, hstep₁, Option.bind_some, Machine.run_cons, hstep₂]
    rfl
  · refine ⟨trivial, fun s₁ hs₁ => ⟨trivial, fun s₂ hs₂ => ⟨?_, fun _ _ => trivial⟩⟩⟩
    cases Option.some.inj (hstep₁.symm.trans hs₁)
    cases Option.some.inj (hstep₂.symm.trans hs₂)
    -- The fetch has not touched the entries or the hooks.
    show ∀ hook ∈ v₂.ept.normal.hooks, hook.pte = none
    rw [hept]
    exact hnormal

/-- A hook on a new vCPU, and a session on its page from start to end,
with a fetch that changes the view. The hook guards its page again. -/
theorem hook_guards_oneHook : ∃ s₂ s₃,
    (hookMachine 1).next ⟨plainVcpu, false⟩ (.eptHook (hypercallContext 1 6)) = some s₂ ∧
      (hookMachine 1).run s₂ pageSession = some s₃ ∧ GuardsPage 1 s₃.vcpu firstPage 6 := by
  obtain ⟨v, hnext, hwf, hviews, hrax, hused⟩ := plainVcpu_hook
  have hfirst : (hookMachine 1).next ⟨plainVcpu, false⟩ (.eptHook (hypercallContext 1 6)) =
      some ⟨v, false⟩ := hookMachine_next hnext
  obtain ⟨v', hsession, halong⟩ := runs_pageSession hwf false hused
  have hok : (hookMachine 1).Along KeepsGuards ⟨plainVcpu, false⟩
      ([] ++ .eptHook (hypercallContext 1 6) :: pageSession) := by
    refine ⟨fun _ => ⟨by decide, by decide, fun hook hmem => ?_⟩, fun s hs => ?_⟩
    · -- The new vCPU has no older hook.
      have hguards : plainVcpu.ept.normal.hooks.map EptHook.guard = [] :=
        congrArg (fun p : ViewPair => p.normal.guards) (initialVcpu_views plainSetup _)
      rw [List.map_eq_nil_iff.mp hguards] at hmem
      exact absurd hmem List.not_mem_nil
    · cases Option.some.inj (hfirst.symm.trans hs)
      exact halong
  obtain ⟨hook, _, _, hguards⟩ := hook_guards 1 plainSetup _ [] pageSession
    (hypercallContext 1 6) rfl hfirst hrax hsession hok
  refine ⟨⟨v, false⟩, ⟨v', false⟩, hfirst, hsession, ?_⟩
  cases hguards with
  | inl hsuspended =>
    have hrunning : false = true := hsuspended.2
    exact absurd hrunning Bool.false_ne_true
  | inr hguards => exact hguards

end Revhv.HookGuard
