import Revhv.Km.GuestAccess
import Revhv.Proofs.HookGuard
import Revhv.Proofs.Crossings

/-!
# `Revhv.Proofs.FaultingPage`: the page an EPT violation is handled for

The processor reports a violation for an access of the guest, or for an
access that its own walk of the guest's page tables makes. In the second
case the qualification says that the address is no translation, and
`handle_ept_violation` takes the linear address for a physical one.

* `violation_handled_iff`: in every reachable state, exactly which
  violations are handled for the page they are about.
* `walk_unhandled`: a walk through a hooked page of page tables ends in
  `unrecoverable_host_error`.
-/

set_option autoImplicit false

namespace Revhv.FaultingPage

open Revhv.Crossings Revhv.Ept Revhv.Hypercall Revhv.Lib Revhv.Memory Revhv.Trace Revhv.Vcpu
  Revhv.Vmexit

/-! ### The property -/

/-- The violation that is reported for an access of the guest or of its
page walk. -/
def violationOf (a : Access) (byWalk : Bool) : EptViolation :=
  { a.violation with causedByTranslation := !byWalk }

/-- The processor reports a violation: the view it walks denies the
access. A page walk reads and writes. -/
structure Reported (v : Vcpu) (a : Access) (byWalk : Bool) : Prop where
  below : a.guestPhysicalAddress < 2 ^ 39
  denied : ¬ EptPages.Permits v.walkedPages a
  data : byWalk = true → a.kind ≠ .fetch

/-- What the handler is to do about an access to the page it goes to. -/
structure Handled (v v' : Vcpu) (a : Access) : Prop where
  /-- The entry of a hooked page is switched in the view in use, and no
  other. -/
  hooked : v.currentEptPages.ActiveHook a.page →
    v'.inNormalExecution = v.inNormalExecution ∧ EptPages.Permits v'.walkedPages a ∧
      ∀ q, q ≠ a.page → (v'.walkedPages.walk q).mapping = (v.walkedPages.walk q).mapping
  /-- An execution of another page flips the view. -/
  flipped : ¬ v.currentEptPages.ActiveHook a.page → a.kind = .fetch →
    v'.inNormalExecution = !v.inNormalExecution ∧ v'.views = v.views

/-- The address that the handler takes lies on the page, and the oldest
hook on a page with an active hook is active. -/
structure FindsPage (v : Vcpu) (a : Access) (byWalk : Bool) : Prop where
  linear : byWalk = true → toPfn a.guestLinearAddress = a.page.frame
  oldest : v.currentEptPages.ActiveHook a.page →
    ∀ hook, getHookByOrigPfn v.currentEptPages a.page.frame = some hook → hook.pte ≠ none

/-! ### The handler -/

section
variable {systemCr3 : Nat} {v v' : Vcpu} {a : Access} {byWalk : Bool}

/-- The exit of a fetch is the only one that says execute. -/
theorem executeAccess_violationOf : (violationOf a byWalk).executeAccess = true ↔ a.kind = .fetch :=
  decide_eq_true_iff

/-- The frame the handler looks for is that of the page when the
condition holds. -/
theorem toPfn_violationOf (hbelow : a.guestPhysicalAddress < 2 ^ 39)
    (hlinear : byWalk = true → toPfn a.guestLinearAddress = a.page.frame) :
    toPfn (violationOf a byWalk).physicalAddress = a.page.frame := by
  cases hwalk : byWalk with
  | true => exact hlinear hwalk
  | false => exact (frame_pageOf hbelow).symm

/-- The processor walks the view that `in_normal_execution` names. -/
theorem mapping_walkedPages (h : v.WF) (q : GuestPage) :
    (v.walkedPages.walk q).mapping = (v.views.current v.inNormalExecution).map q := by
  rw [h.walkedPages]
  exact congrArg (fun w : View GuestPage Nat => w.map q) view_currentEptPages

/-- Which accesses a view permits depends on the rights of the page
alone. -/
theorem permits_congr {pages pages' : EptPages}
    (h : (pages'.walk a.page).mapping = (pages.walk a.page).mapping)
    (hpermits : EptPages.Permits pages' a) : EptPages.Permits pages a := by
  refine ⟨hpermits.1, ?_⟩
  have hright := hpermits.2
  cases hkind : a.kind with
  | fetch =>
    rw [hkind] at hright
    exact (congrArg Mapping.execute h).symm.trans hright
  | read =>
    rw [hkind] at hright
    exact (congrArg Mapping.read h).symm.trans hright
  | write =>
    rw [hkind] at hright
    exact (congrArg Mapping.write h).symm.trans hright

/-- A data access is reported for hooked pages only. -/
theorem activeHook_of_data (hwf : v.WF) (hopen : OpenPair v.views)
    (hreported : Reported v a byWalk) (hkind : a.kind ≠ .fetch) :
    v.currentEptPages.ActiveHook a.page := by
  by_contra hnone
  have hguarded : ¬ (v.views.current v.inNormalExecution).Guarded a.page := by
    rw [← view_currentEptPages]
    exact mt (activeHook_iff (wf_currentEptPages hwf) a.page).mpr hnone
  -- An entry without an active hook is open to data in either view.
  have hcurrent : (v.views.current v.inNormalExecution).Open := by
    cases v.inNormalExecution with
    | true => exact hopen.normal
    | false => exact hopen.target
  rcases hcurrent a.page hguarded with ⟨hread, hwrite⟩
  have hmap := mapping_walkedPages hwf a.page
  refine hreported.denied ⟨hreported.below, ?_⟩
  -- A data access would have been permitted.
  cases hcase : a.kind with
  | fetch => exact absurd hcase hkind
  | read => exact (congrArg Mapping.read hmap).trans hread
  | write => exact (congrArg Mapping.write hmap).trans hwrite

/-- An active hook that is found keeps the view in use. -/
theorem inNormal_of_active {exit : EptViolation} {hook : EptHook}
    (hfind : getHookByOrigPfn v.currentEptPages (toPfn exit.physicalAddress) = some hook)
    (hactive : hook.pte ≠ none) :
    ∃ v', (eptMachine systemCr3).next v (.eptViolation exit) = some v' ∧
      v'.inNormalExecution = v.inNormalExecution := by
  show ∃ v', handleEptViolation { v with guestContext := exit.guest.ctx } exit = some v' ∧ _
  have hpages : Vcpu.currentEptPages { v with guestContext := exit.guest.ctx } =
      v.currentEptPages := rfl
  unfold handleEptViolation
  rw [hpages, hfind]
  rcases hook with ⟨origPfn, hookPfn, pte⟩
  cases pte with
  | none => exact absurd rfl hactive
  | some pte => exact ⟨_, rfl, rfl⟩

/-- Without one the handler flips the view, for an execution, or gives
up. -/
theorem flipView_of_inactive {exit : EptViolation}
    (hinactive : ∀ hook,
      getHookByOrigPfn v.currentEptPages (toPfn exit.physicalAddress) = some hook →
        hook.pte = none) :
    (eptMachine systemCr3).next v (.eptViolation exit) =
      flipView { v with guestContext := exit.guest.ctx } exit := by
  show handleEptViolation { v with guestContext := exit.guest.ctx } exit = _
  have hpages : Vcpu.currentEptPages { v with guestContext := exit.guest.ctx } =
      v.currentEptPages := rfl
  unfold handleEptViolation
  rw [hpages]
  -- Without a hook, or with a suspended one, the handler goes on to flip the
  -- view.
  cases hfind : getHookByOrigPfn v.currentEptPages (toPfn exit.physicalAddress) with
  | none => rfl
  | some hook =>
    have hnone := hinactive hook hfind
    rcases hook with ⟨origPfn, hookPfn, pte⟩
    rw [show pte = none from hnone]

/-- The view changes for a fetch, and for nothing else. -/
theorem flipView_cases {exit : EptViolation} :
    (exit.executeAccess = true ∧ ∃ v', flipView v exit = some v' ∧
      v'.inNormalExecution = !v.inNormalExecution ∧ v'.views = v.views) ∨
    (exit.executeAccess = false ∧ flipView v exit = none) := by
  unfold flipView
  cases hexecute : exit.executeAccess with
  | false => exact Or.inr ⟨rfl, rfl⟩
  | true =>
    refine Or.inl ⟨rfl, ?_⟩
    cases hin : v.inNormalExecution with
    | true => exact ⟨_, rfl, rfl, rfl⟩
    | false => exact ⟨_, rfl, rfl, rfl⟩

/-- The oldest hook on the page of an active hook, when it is active. -/
theorem oldest_hook (hactive : v.currentEptPages.ActiveHook a.page) :
    ∃ hook, getHookByOrigPfn v.currentEptPages a.page.frame = some hook := by
  rcases hactive with ⟨hook, hmem, horig, -⟩
  cases hfind : getHookByOrigPfn v.currentEptPages a.page.frame with
  | none =>
    have hno := List.find?_eq_none.mp hfind hook hmem
    exact absurd (decide_eq_true horig) hno
  | some first => exact ⟨first, rfl⟩

/-- When the condition holds the violation is handled. -/
theorem handled_of_findsPage (hwf : v.WF) (hopen : OpenPair v.views)
    (hreported : Reported v a byWalk) (hfinds : FindsPage v a byWalk) :
    ∃ v', (eptMachine systemCr3).next v (.eptViolation (violationOf a byWalk)) = some v' ∧
      Handled v v' a := by
  have hframe := toPfn_violationOf hreported.below hfinds.linear
  -- The hook that is found first is the oldest on the page, active by
  -- `FindsPage`.
  by_cases hactive : v.currentEptPages.ActiveHook a.page
  · rcases oldest_hook hactive with ⟨hook, hfind⟩
    have hfind' := hfind
    rw [← hframe] at hfind'
    rcases @inNormal_of_active systemCr3 v _ _ hfind' (hfinds.oldest hactive hook hfind) with
      ⟨v', hnext, hsame⟩
    refine ⟨v', hnext, fun _ => ⟨hsame, ?_⟩, fun hno => absurd hactive hno⟩
    rcases next_viewStep hwf hnext with ⟨hwf', hstep⟩
    have hmap : ∀ q, (v'.walkedPages.walk q).mapping =
        (v'.views.current v.inNormalExecution).map q := by
      intro q
      rw [mapping_walkedPages hwf', hsame]
    have hmapOld := mapping_walkedPages hwf
    cases hstep with
    | @swappedIn _ g execute _ _ page views _ =>
      have hpage : g.page = a.page := GuestPage.frame_injective (page.trans hframe)
      rw [views, HookGuard.current_onCurrent, hpage] at hmap
      refine ⟨⟨hreported.below, ?_⟩, ?_⟩
      · rw [executeAccess_violationOf.mp execute]
        have hthere := hmap a.page
        -- The swap writes this page for this kind of access and leaves the
        -- other pages.
        rw [View.map_swapIn, if_pos rfl] at hthere
        exact congrArg Mapping.execute hthere
      · intro q hq
        rw [hmap, hmapOld, View.map_swapIn, if_neg hq]
    | @swappedOut _ g execute _ _ page views _ =>
      have hpage : g.page = a.page := GuestPage.frame_injective (page.trans hframe)
      rw [views, HookGuard.current_onCurrent, hpage] at hmap
      refine ⟨⟨hreported.below, ?_⟩, ?_⟩
      · have hthere := hmap a.page
        rw [View.map_swapOut, if_pos rfl] at hthere
        cases hkind : a.kind with
        | fetch =>
          rw [executeAccess_violationOf.mpr hkind] at execute
          cases execute
        | read => exact congrArg Mapping.read hthere
        | write => exact congrArg Mapping.write hthere
      · intro q hq
        rw [hmap, hmapOld, View.map_swapOut, if_neg hq]
    | flipped _ _ _ inNormal _ _ _ =>
      rw [hsame] at inNormal
      exact absurd inNormal (by simp)
  · -- No hook on the page is active, so it is open to data, and the access is a fetch.
    have hinactive : ∀ hook, getHookByOrigPfn v.currentEptPages
        (toPfn (violationOf a byWalk).physicalAddress) = some hook → hook.pte = none := by
      intro hook hfind
      rw [hframe] at hfind
      have hmem : hook ∈ v.currentEptPages.hooks := List.mem_of_find?_eq_some hfind
      have horig : hook.origPfn = a.page.frame := by simpa using List.find?_some hfind
      by_contra hsome
      exact hactive ⟨hook, hmem, horig, Option.isSome_iff_ne_none.mpr hsome⟩
    have hkind : a.kind = .fetch := by
      by_contra hdata
      exact hactive (activeHook_of_data hwf hopen hreported hdata)
    rw [flipView_of_inactive hinactive]
    rcases @flipView_cases { v with guestContext := (violationOf a byWalk).guest.ctx }
      (violationOf a byWalk) with ⟨_, v', hflip, hin, hviews⟩ | ⟨hdata, _⟩
    · exact ⟨v', hflip, fun hyes => absurd hyes hactive, fun _ _ => ⟨hin, hviews⟩⟩
    · rw [executeAccess_violationOf.mpr hkind] at hdata
      cases hdata

/-- A violation that is handled meets the condition. -/
theorem findsPage_of_handled (hwf : v.WF) (hopen : OpenPair v.views)
    (hreported : Reported v a byWalk)
    (hnext : (eptMachine systemCr3).next v (.eptViolation (violationOf a byWalk)) = some v')
    (hhandled : Handled v v' a) : FindsPage v a byWalk := by
  have hlinear : byWalk = true → toPfn a.guestLinearAddress = a.page.frame := by
    intro hwalk
    by_contra hother
    have hkind := hreported.data hwalk
    have hactive := activeHook_of_data hwf hopen hreported hkind
    rcases hhandled.hooked hactive with ⟨hsame, hpermits, -⟩
    have hdata : (violationOf a byWalk).executeAccess ≠ true :=
      mt executeAccess_violationOf.mp hkind
    have haddress : (violationOf a byWalk).physicalAddress = a.guestLinearAddress := by
      subst hwalk
      rfl
    rcases next_viewStep hwf hnext with ⟨hwf', hstep⟩
    cases hstep with
    | swappedIn execute _ _ _ _ _ => exact hdata execute
    | @swappedOut _ g _ _ _ page views _ =>
      -- The entry of another page has changed, and this one denies the access as before.
      rw [haddress] at page
      have hne : a.page ≠ g.page := by
        intro heq
        rw [heq, page] at hother
        exact hother rfl
      refine hreported.denied (permits_congr ?_ hpermits)
      rw [mapping_walkedPages hwf', hsame, views, HookGuard.current_onCurrent, View.map_swapOut,
        if_neg hne, mapping_walkedPages hwf]
    | flipped execute _ _ _ _ _ _ => exact hdata execute
  refine ⟨hlinear, ?_⟩
  intro hactive hook hfind hnone
  rw [← toPfn_violationOf hreported.below hlinear] at hfind
  have hinactive : ∀ hook', getHookByOrigPfn v.currentEptPages
      (toPfn (violationOf a byWalk).physicalAddress) = some hook' → hook'.pte = none := by
    intro hook' hfind'
    rw [hfind] at hfind'
    cases hfind'
    exact hnone
  rw [flipView_of_inactive hinactive] at hnext
  have hsame := (hhandled.hooked hactive).1
  rcases @flipView_cases { v with guestContext := (violationOf a byWalk).guest.ctx }
    (violationOf a byWalk) with ⟨_, v₁, hflip, hin, -⟩ | ⟨_, hfails⟩
  · rw [hflip] at hnext
    cases hnext
    rw [hsame] at hin
    exact absurd hin (by simp)
  · rw [hfails] at hnext
    cases hnext

end

/-- After any run, a violation that the processor reports for a page
below 512 GB is handled for that page if and only if the condition
holds. -/
theorem violation_handled_iff (systemCr3 : Nat) (setup : VcpuSetup) (entries : Nat → Entry)
    {es : List EptExit} {v : Vcpu} {a : Access} {byWalk : Bool}
    (hrun : (eptMachine systemCr3).run (initialVcpu setup entries) es = some v)
    (hreported : Reported v a byWalk) :
    (∃ v', (eptMachine systemCr3).next v (.eptViolation (violationOf a byWalk)) = some v' ∧
      Handled v v' a) ↔ FindsPage v a byWalk := by
  have hwf := reachable_wf hrun
  have hopen := reachable_open hrun
  constructor
  · rintro ⟨v', hnext, hhandled⟩
    exact findsPage_of_handled hwf hopen hreported hnext hhandled
  · intro hfinds
    exact handled_of_findsPage hwf hopen hreported hfinds

/-! ### A hook on the small vCPU -/

/-- An access to an address in the hooked page, at the same linear
address for all kinds. -/
def accessAt (kind : AccessKind) (guestPhysicalAddress : Nat) : Access where
  kind
  guestPhysicalAddress
  guestLinearAddress := 0x400000
  guest := ⟨0x400000, 0, .zero, fun _ => 0⟩
  tsc := 0

/-- The hook is the only one, and its page cannot be fetched from. -/
theorem fetch_reported {v : Vcpu} (hwf : v.WF)
    (hviews : v.views = (ViewPair.mk identityView identityView).guard firstPage 6) :
    Reported v (accessAt .fetch 0x1000) false := by
  refine ⟨by decide, ?_, nofun⟩
  rintro ⟨-, hexecute⟩
  have hmap := mapping_walkedPages hwf firstPage
  have hdenied : ((v.views.current v.inNormalExecution).map firstPage).execute = false := by
    rw [hviews]
    -- Both views guard the page.
    cases v.inNormalExecution with
    | true => decide
    | false => decide
  have hwalk : (v.walkedPages.walk firstPage).executeAccess = false :=
    (congrArg Mapping.execute hmap).trans hdenied
  have hpage : (accessAt .fetch 0x1000).page = firstPage := by decide
  rw [hpage] at hexecute
  rw [show permits (v.walkedPages.walk firstPage) (accessAt .fetch 0x1000).kind =
    (v.walkedPages.walk firstPage).executeAccess from rfl, hwalk] at hexecute
  cases hexecute

/-- It is active, so the handler finds it. -/
theorem fetch_findsPage {v : Vcpu} (hwf : v.WF)
    (hviews : v.views = (ViewPair.mk identityView identityView).guard firstPage 6) :
    FindsPage v (accessAt .fetch 0x1000) false := by
  refine ⟨nofun, ?_⟩
  intro _ hook hfind hnone
  have hmem : hook ∈ v.currentEptPages.hooks := List.mem_of_find?_eq_some hfind
  have hguard := (guard_of_hook hwf hmem).1
  rw [guards_current hwf, hviews] at hguard
  have hactive : hook.guard.active = true := by
    rw [List.mem_singleton.mp hguard]
  rw [show hook.guard.active = hook.pte.isSome from rfl, hnone] at hactive
  cases hactive

/-- A fetch from the hooked page is handled. -/
theorem violation_handled_fetch : ∃ v v',
    (eptMachine 1).run plainVcpu [.eptHook (hypercallContext 1 6)] = some v ∧
    Reported v (accessAt .fetch 0x1000) false ∧
    (eptMachine 1).next v (.eptViolation (violationOf (accessAt .fetch 0x1000) false)) =
      some v' ∧ Handled v v' (accessAt .fetch 0x1000) := by
  rcases HookGuard.plainVcpu_hook with ⟨v, hnext, hwf, hviews, -, -⟩
  have hrun : (eptMachine 1).run plainVcpu [.eptHook (hypercallContext 1 6)] = some v := by
    rw [Machine.run, hnext]
    rfl
  have hreported := fetch_reported hwf hviews
  rcases (violation_handled_iff 1 plainSetup _ hrun hreported).mpr (fetch_findsPage hwf hviews)
    with ⟨v', hhandle, hhandled⟩
  exact ⟨v, v', hrun, hreported, hhandle, hhandled⟩

/-- After the fetch the page shows its shadow frame, to execution only. -/
theorem fetched {v : Vcpu} (hwf : v.WF)
    (hviews : v.views = (ViewPair.mk identityView identityView).guard firstPage 6) :
    ∃ v', (eptMachine 1).next v (.eptViolation (violationOf (accessAt .fetch 0x1000) false)) =
        some v' ∧ v'.WF ∧ v'.views.normal.guards = [⟨firstPage, 6, true⟩] ∧
      (v'.walkedPages.walk firstPage).readAccess = false := by
  have hexecute : (violationOf (accessAt .fetch 0x1000) false).executeAccess = true := rfl
  rcases next_execute 1 v hexecute with ⟨v', hnext⟩
  rcases next_viewStep hwf hnext with ⟨hwf', hstep⟩
  have hguards : (v.views.current v.inNormalExecution).guards = [⟨firstPage, 6, true⟩] := by
    rw [guards_current hwf, hviews]
    rfl
  refine ⟨v', hnext, hwf', ?_⟩
  cases hstep with
  | @swappedIn _ g _ mem _ _ views inNormal =>
    rw [hguards, List.mem_singleton] at mem
    subst mem
    constructor
    · rw [views]
      refine (HookGuard.guards_onCurrent v.views v.inNormalExecution
        (f := fun w => w.swapIn firstPage 6) fun _ => rfl).trans ?_
      rw [hviews]
      rfl
    · have hmap := mapping_walkedPages hwf' firstPage
      rw [views, inNormal, HookGuard.current_onCurrent, View.map_swapIn, if_pos rfl] at hmap
      exact congrArg Mapping.read hmap
  | swappedOut execute _ _ _ _ _ => cases execute
  | flipped _ first _ _ _ _ _ =>
    have hmem : (⟨firstPage, 6, true⟩ : Guard GuestPage Nat) ∈
        (v.views.current v.inNormalExecution).guards := by
      rw [hguards]
      exact List.mem_singleton.mpr rfl
    -- The only hook is active, so there is no suspended one in front.
    rcases first _ hmem (by decide) with ⟨g, hg, -, hsuspended⟩
    rw [hguards, List.mem_singleton] at hg
    rw [hg] at hsuspended
    cases hsuspended

/-- The hooked page holds page tables, too. After a fetch from it the
processor's own walk reads an entry there, and the handler gives up: it
looks for a hook on the linear address. -/
theorem walk_unhandled : ∃ v,
    (eptMachine 1).run plainVcpu [.eptHook (hypercallContext 1 6),
      .eptViolation (violationOf (accessAt .fetch 0x1000) false)] = some v ∧
    Reported v (accessAt .read 0x1008) true ∧
    v.currentEptPages.ActiveHook (accessAt .read 0x1008).page ∧
    (eptMachine 1).next v (.eptViolation (violationOf (accessAt .read 0x1008) true)) = none := by
  rcases HookGuard.plainVcpu_hook with ⟨v₁, hhook, hwf₁, hviews, -, -⟩
  rcases fetched hwf₁ hviews with ⟨v, hfetch, hwf, hguards, hread⟩
  have hpage : (accessAt .read 0x1008).page = firstPage := by decide
  have hguards' : (v.views.current v.inNormalExecution).guards = [⟨firstPage, 6, true⟩] :=
    (guards_current hwf).trans hguards
  refine ⟨v, ?_, ⟨by decide, ?_, nofun⟩, ?_, ?_⟩
  · rw [Machine.run, hhook]
    show (eptMachine 1).run v₁ _ = some v
    rw [Machine.run, hfetch]
    rfl
  · rintro ⟨-, hpermits⟩
    rw [hpage, show permits (v.walkedPages.walk firstPage) (accessAt .read 0x1008).kind =
      (v.walkedPages.walk firstPage).readAccess from rfl, hread] at hpermits
    cases hpermits
  · rw [hpage, activeHook_iff (wf_currentEptPages hwf), view_currentEptPages]
    refine ⟨⟨firstPage, 6, true⟩, ?_, rfl, rfl⟩
    rw [hguards']
    exact List.mem_singleton.mpr rfl
  · cases hnext : (eptMachine 1).next v
        (.eptViolation (violationOf (accessAt .read 0x1008) true)) with
    | none => rfl
    | some v' =>
      -- The only hook is on another page than the linear address.
      have hother : ∀ g ∈ (v.views.current v.inNormalExecution).guards, g.page.frame ≠
          toPfn (violationOf (accessAt .read 0x1008) true).physicalAddress := by
        intro g hg
        rw [hguards', List.mem_singleton] at hg
        rw [hg]
        decide
      rcases next_viewStep hwf hnext with ⟨-, hstep⟩
      cases hstep with
      | swappedIn execute _ _ _ _ _ => cases execute
      | swappedOut _ mem _ page _ _ => exact absurd page (hother _ mem)
      | flipped execute _ _ _ _ _ _ => cases execute

end Revhv.FaultingPage
