import Revhv.Lib.GuardedView
import Revhv.Proofs.EptShape

/-!
# `Revhv.Proofs.EptRefinement`: an EPT view as a guarded view

`EptPages.view` forgets the tables: it gives each guest page its rights
and its frame, and each hook as a guard. Under the shape invariant every
operation of `ept.cpp` is the operation of `Lib.GuardedView` with the
same meaning.

* `view_setAllPermissions`, `addHook_eq`, `view_deactivateHooks`,
  `view_reactivateHooks`: one operation each.
* `addHook_iff`: a hook is refused for want of room only.
* Each operation keeps `EptPages.WF`, and two views in lockstep stay
  in lockstep.
-/

set_option autoImplicit false

namespace Revhv.Ept

open Revhv.Lib Revhv.Memory

/-! ### The view of a view -/

/-- An entry without its memory type. -/
def EptPte.mapping (e : EptPte) : Mapping Nat :=
  ⟨e.readAccess, e.writeAccess, e.executeAccess, e.pageFrameNumber⟩

/-- The page a hook is on. -/
def EptHook.page (hook : EptHook) : GuestPage := pageOf (hook.origPfn * 2 ^ 12)

/-- A hook as a guard, active while it has a pointer. -/
def EptHook.guard (hook : EptHook) : Guard GuestPage Nat :=
  ⟨hook.page, hook.hookPfn, hook.pte.isSome⟩

/-- Rights and frame of every page, and the hooks. -/
def EptPages.view (pages : EptPages) : View GuestPage Nat where
  map q := (pages.walk q).mapping
  guards := pages.hooks.map EptHook.guard

/-- A hook is on the page whose frame it stores. -/
theorem page_of_origPfn {hook : EptHook} {q : GuestPage} (h : hook.origPfn = q.frame) :
    hook.page = q := by
  unfold EptHook.page
  rw [h, pageOf_frame_zero]

section
variable {pages : EptPages}

/-! ### Views that differ in their PTEs only -/

/-- The view with other tables' contents. -/
def EptPages.withPtes (pages : EptPages)
    (splitPte : Fin eptSplitPteCount → Fin 512 → EptPte) : EptPages :=
  { pages with splitPte }

/-- The entries of the tables take no part in the shape. -/
theorem wf_withPtes (h : pages.WF) (s : Fin eptSplitPteCount → Fin 512 → EptPte) :
    (pages.withPtes s).WF := ⟨h.large, h.split, h.unique, h.used_le, h.hook⟩

/-- New hooks on the old pages. -/
theorem wf_withHooks (h : pages.WF) {hooks : List EptHook}
    (hhooks : ∀ hook ∈ hooks, ∃ q : GuestPage, hook.origPfn = q.frame ∧ (pages.ptr q).isSome ∧
      (hook.pte = none ∨ hook.pte = pages.ptr q)) : { pages with hooks }.WF :=
  ⟨h.large, h.split, h.unique, h.used_le, hhooks⟩

/-- A write that sets the execute right. -/
theorem mapping_writeExecute (h : pages.WF) {q : GuestPage} {p : PtePtr}
    (hq : pages.ptr q = some p) (execute : Bool) (q' : GuestPage) :
    ((pages.writePte p fun e => { e with executeAccess := execute }).walk q').mapping =
      if q' = q then { (pages.walk q').mapping with execute := execute }
      else (pages.walk q').mapping := by
  rw [walk_writePte h hq]
  split
  · rename_i heq
    rw [heq]
    rfl
  · rfl

/-! ### `set_all_permissions` -/

/-- Rights for all pages are written to the entries, not to the PDEs'
pointers. -/
theorem tableOf_setAllPermissions (read write execute : Bool) :
    (setAllPermissions pages read write execute).tableOf = pages.tableOf := by
  funext i j
  simp only [EptPages.tableOf, setAllPermissions]
  cases pages.pde i j with
  | large e => rfl
  | split e => rfl

/-- So every page keeps its entry. -/
theorem ptr_setAllPermissions (read write execute : Bool) :
    (setAllPermissions pages read write execute).ptr = pages.ptr := by
  funext q
  unfold EptPages.ptr
  rw [tableOf_setAllPermissions]

/-- The shape of the view stays. -/
theorem wf_setAllPermissions (h : pages.WF) (read write execute : Bool) :
    (setAllPermissions pages read write execute).WF where
  large i j e he := by
    simp only [setAllPermissions] at he
    -- Large PDEs change their access, split ones their entries.
    cases hpde : pages.pde i j with
    | large e' =>
      rw [hpde] at he
      cases he
      exact h.large i j e' hpde
    | split e' =>
      rw [hpde] at he
      cases he
  split i j e he := by
    simp only [setAllPermissions] at he
    cases hpde : pages.pde i j with
    | large e' =>
      rw [hpde] at he
      cases he
    | split e' =>
      rw [hpde] at he
      cases he
      exact h.split i j _ hpde
  unique := by
    rw [tableOf_setAllPermissions]
    exact h.unique
  used_le := h.used_le
  hook := by
    rw [ptr_setAllPermissions]
    exact h.hook

/-- Two views may get different rights and stay in lockstep. -/
theorem lockstep_setAllPermissions {pages' : EptPages} (h : Lockstep pages pages')
    (r w x r' w' x' : Bool) :
    Lockstep (setAllPermissions pages r w x) (setAllPermissions pages' r' w' x') where
  used := h.used
  table := by
    rw [tableOf_setAllPermissions, tableOf_setAllPermissions]
    exact h.table
  hooks := h.hooks

/-- `set_all_permissions` gives every page the same rights. -/
theorem view_setAllPermissions (h : pages.WF) (read write execute : Bool) :
    (setAllPermissions pages read write execute).view =
      pages.view.setAccess read write execute := by
  have hwf := wf_setAllPermissions h read write execute
  have hmap : ∀ q, ((setAllPermissions pages read write execute).walk q) =
      (pages.walk q).withAccess read write execute := by
    intro q
    have hptr : (setAllPermissions pages read write execute).ptr q = pages.ptr q := by
      rw [ptr_setAllPermissions]
    -- A page is mapped by an entry of a table or by its large PDE, and both get
    -- the new access.
    cases hq : pages.ptr q with
    | some p =>
      rw [walk_of_ptr h hq, walk_of_ptr hwf (hptr.trans hq)]
      rfl
    | none =>
      obtain ⟨e, hpde, hwalk⟩ := walk_of_ptr_none h hq
      rw [hwalk]
      simp only [EptPages.walk, setAllPermissions, hpde]
      rfl
  show View.mk _ _ = View.mk _ _
  congr 1
  funext q
  rw [hmap]
  rfl

/-! ### `add_hook` -/

/-- Where the lower level is reached, the stored frame number is that of
the page. -/
theorem origPfn_eq_frame {origPfn : Nat} (h : pml4Idx (origPfn * 2 ^ 12 % 2 ^ 64) = 0) :
    castUInt32 origPfn = (pageOf (origPfn * 2 ^ 12 % 2 ^ 64)).frame := by
  unfold castUInt32
  simp only [pml4Idx, Fin.ext_iff, Fin.val_ofNat, Fin.val_zero] at h
  simp only [GuestPage.frame, pageOf, pdptIdx, pdIdx, ptIdx, Fin.val_ofNat]
  omega

/-- The lower level is reached whenever a lookup finds an entry. -/
theorem pml4Idx_of_getEptPte {gpa : Nat} {forceSplit : Bool} {p : PtePtr}
    (h : (getEptPte pages gpa forceSplit).2 = some p) : pml4Idx gpa = 0 := by
  by_contra hne
  unfold getEptPte at h
  rw [if_pos hne] at h
  cases h

/-- The page `add_hook` is asked for. -/
def hookedPage (origPfn : Nat) : GuestPage := pageOf (origPfn * 2 ^ 12 % 2 ^ 64)

/-- `add_hook` has room for a hook on the page: one more hook, and a
table if the PDE of the page is not split yet. -/
structure Hookable (pages : EptPages) (origPfn : Nat) : Prop where
  room : pages.hooks.length < eptMaxHookCount
  below : pml4Idx (origPfn * 2 ^ 12 % 2 ^ 64) = 0
  table : (pages.tableOf (hookedPage origPfn).pdpt (hookedPage origPfn).pd).isSome ∨
    pages.splitPteUsed < eptSplitPteCount

/-- `add_hook` stores a hook exactly when it has room for it. -/
theorem addHook_iff (h : pages.WF) (origPfn hookPfn : Nat) :
    (addHook pages origPfn hookPfn).2 = true ↔ Hookable pages origPfn := by
  have hget := getEptPte_isSome_iff h (origPfn * 2 ^ 12 % 2 ^ 64)
  unfold addHook
  -- The room for hooks is checked before the entry is looked up.
  by_cases hroom : eptMaxHookCount ≤ pages.hooks.length
  · rw [if_pos hroom]
    exact ⟨fun hfalse => absurd hfalse Bool.false_ne_true,
      fun hable => absurd hable.room (Nat.not_lt.mpr hroom)⟩
  · rw [if_neg hroom]
    cases hcase : getEptPte pages (origPfn * 2 ^ 12 % 2 ^ 64) true with
    | mk new found =>
      rw [hcase] at hget
      cases found with
      | none =>
        refine ⟨fun hfalse => absurd hfalse Bool.false_ne_true, fun hable => ?_⟩
        exact absurd (hget.mpr ⟨hable.below, hable.table⟩) Bool.false_ne_true
      | some p =>
        obtain ⟨hbelow, htable⟩ := hget.mp rfl
        exact ⟨fun _ => ⟨Nat.lt_of_not_le hroom, hbelow, htable⟩, fun _ => rfl⟩

/-- A hook takes one table at most, for the PDE of its page. -/
theorem addHook_used (h : pages.WF) (origPfn hookPfn : Nat) :
    (addHook pages origPfn hookPfn).1.splitPteUsed ≤ pages.splitPteUsed + 1 := by
  unfold addHook
  split
  · exact Nat.le_succ _
  · cases hget : getEptPte pages (origPfn * 2 ^ 12 % 2 ^ 64) true with
    | mk new found =>
      -- A hook that is refused takes no table.
      cases found with
      | none =>
        show new.splitPteUsed ≤ _
        rw [getEptPte_none hget]
        exact Nat.le_succ _
      | some p =>
        show new.splitPteUsed ≤ _
        rw [(getEptPte_some h hget).used]
        split
        · exact Nat.le_succ _
        · exact le_refl _

/-- A refused hook leaves the view as it was. A stored one guards its
page. -/
theorem addHook_cases (h : pages.WF) (origPfn hookPfn : Nat) :
    addHook pages origPfn hookPfn = (pages, false) ∨
      ∃ pages', addHook pages origPfn hookPfn = (pages', true) ∧ pages'.WF ∧
        pages'.view = pages.view.guard (hookedPage origPfn) (castUInt32 hookPfn) ∧
        (hookedPage origPfn).frame = castUInt32 origPfn := by
  unfold addHook
  split
  · exact Or.inl rfl
  · cases hget : getEptPte pages (origPfn * 2 ^ 12 % 2 ^ 64) true with
    | mk new found =>
      cases found with
      | none => exact Or.inl (by rw [getEptPte_none hget])
      | some p =>
        have hf := getEptPte_some h hget
        have hframe := origPfn_eq_frame (pml4Idx_of_getEptPte (congrArg Prod.snd hget))
        -- The entry loses execute access and the hook is appended, with its
        -- page frame cut to 32 bits.
        refine Or.inr ⟨_, rfl, ?_, ?_, hframe.symm⟩
        · apply wf_writePte
          apply wf_withHooks hf.wf
          intro hook hmem
          cases List.mem_append.mp hmem with
          | inl hold =>
            exact hf.wf.hook hook hold
          | inr hnew =>
            rw [List.mem_singleton] at hnew
            rw [hnew]
            exact ⟨_, hframe, Option.isSome_iff_exists.mpr ⟨p, hf.found⟩,
              Or.inr hf.found.symm⟩
        · show View.mk _ _ = View.mk _ _
          congr 1
          · funext q
            have hmap := mapping_writeExecute hf.wf hf.found false q
            rw [hf.walk] at hmap
            exact hmap
          · rw [hooks_writePte]
            show (new.hooks ++ [_]).map EptHook.guard = pages.hooks.map EptHook.guard ++ [_]
            have hpage : (⟨castUInt32 origPfn, castUInt32 hookPfn, some p⟩ : EptHook).page =
                hookedPage origPfn := page_of_origPfn hframe
            rw [List.map_append, hf.hooks, List.map_singleton]
            simp only [EptHook.guard, hpage, Option.isSome_some]

/-- A stored hook comes last, with both frame numbers cut to 32 bits. -/
theorem hooks_addHook {pages' : EptPages} (h : pages.WF) {origPfn hookPfn : Nat}
    (hadd : addHook pages origPfn hookPfn = (pages', true)) :
    ∃ pte, pages'.hooks =
      pages.hooks ++ [⟨castUInt32 origPfn, castUInt32 hookPfn, some pte⟩] := by
  unfold addHook at hadd
  split at hadd
  · cases hadd
  · cases hget : getEptPte pages (origPfn * 2 ^ 12 % 2 ^ 64) true with
    | mk new found =>
      rw [hget] at hadd
      cases found with
      | none => cases hadd
      | some p =>
        have hhooks := (getEptPte_some h hget).hooks
        cases hadd
        exact ⟨p, by rw [hooks_writePte]; exact congrArg (fun hooks => hooks ++ [_]) hhooks⟩

/-- Both views take a hook, or both refuse it. -/
theorem lockstep_addHook {pages' : EptPages} (hwf : pages.WF) (hwf' : pages'.WF)
    (h : Lockstep pages pages') (origPfn hookPfn : Nat) :
    (addHook pages origPfn hookPfn).2 = (addHook pages' origPfn hookPfn).2 ∧
      Lockstep (addHook pages origPfn hookPfn).1 (addHook pages' origPfn hookPfn).1 := by
  obtain ⟨hptr, hlock⟩ :=
    lockstep_getEptPte hwf hwf' h (origPfn * 2 ^ 12 % 2 ^ 64) true
  unfold addHook
  -- Both views hold the same hooks, so the check of the room goes alike.
  rw [← h.hooks]
  split
  · exact ⟨rfl, h⟩
  · cases hget : getEptPte pages (origPfn * 2 ^ 12 % 2 ^ 64) true with
    | mk new found =>
      cases hget' : getEptPte pages' (origPfn * 2 ^ 12 % 2 ^ 64) true with
      | mk new' found' =>
        rw [hget, hget'] at hptr hlock
        cases hptr
        have hnew : Lockstep new new' := hlock
        cases found with
        | none => exact ⟨rfl, hnew⟩
        | some p =>
          exact ⟨rfl, hnew.used, hnew.table, congrArg (fun hooks => hooks ++ [_]) hnew.hooks⟩

/-! ### `deactivate_hooks` and `reactivate_hooks` -/

/-- The clause of `EptPages.WF` about one hook. -/
def EptPages.HookOk (pages : EptPages) (hook : EptHook) : Prop :=
  ∃ q : GuestPage, hook.origPfn = q.frame ∧ (pages.ptr q).isSome ∧
    (hook.pte = none ∨ hook.pte = pages.ptr q)

/-- The hook after `deactivate_hooks`. -/
def EptHook.suspended (hook : EptHook) : EptHook := { hook with pte := none }

/-- The hook after `reactivate_hooks`. -/
def EptPages.rearmed (pages : EptPages) (hook : EptHook) : EptHook :=
  { hook with pte := pages.ptr hook.page }

/-- What the loop of `deactivate_hooks` over some of the hooks does. -/
theorem sweep_deactivate (hooks : List EptHook) (pages : EptPages) (h : pages.WF)
    (hok : ∀ hook ∈ hooks, pages.HookOk hook) :
    ∃ s, sweepHooks deactivateHook pages hooks =
        (pages.withPtes s, hooks.map EptHook.suspended) ∧
      ∀ q, ((pages.withPtes s).walk q).mapping =
        if ∃ hook ∈ hooks, hook.page = q ∧ hook.pte.isSome = true then
          ⟨true, true, true, q.frame⟩
        else (pages.walk q).mapping := by
  induction hooks generalizing pages with
  | nil => exact ⟨pages.splitPte, rfl, fun q => by simp [EptPages.withPtes]⟩
  | cons hook hooks ih =>
    obtain ⟨q₀, horig, hsome, hpte⟩ := hok hook List.mem_cons_self
    have hpage := page_of_origPfn horig
    have hrest : ∀ hook' ∈ hooks, pages.HookOk hook' :=
      fun hook' hmem => hok hook' (List.mem_cons_of_mem _ hmem)
    -- A hook without an entry is skipped.
    cases hcase : hook.pte with
    | none =>
      obtain ⟨s, hsweep, hmap⟩ := ih pages h hrest
      refine ⟨s, ?_, fun q => ?_⟩
      · simp only [sweepHooks, deactivateHook, hcase, hsweep, List.map_cons]
        rw [show hook.suspended = hook from by simp [EptHook.suspended, ← hcase]]
      · rw [hmap]
        simp [hcase]
    | some p =>
      have hp : pages.ptr q₀ = some p := by
        cases hpte with
        | inl hnone =>
          rw [hcase] at hnone
          cases hnone
        | inr heq => exact heq.symm.trans hcase
      let f : EptPte → EptPte := fun e =>
        { e.withAccess true true true with pageFrameNumber := hook.origPfn }
      obtain ⟨s, hsweep, hmap⟩ := ih (pages.writePte p f) (wf_writePte h p f) hrest
      have hbody : deactivateHook pages hook = (pages.writePte p f, hook.suspended) := by
        simp only [deactivateHook, hcase]
        rfl
      refine ⟨s, ?_, fun q => ?_⟩
      · simp only [sweepHooks, hbody, hsweep, List.map_cons]
        rfl
      · have hmap := hmap q
        rw [walk_writePte h hp] at hmap
        refine Eq.trans hmap ?_
        -- A page with several hooks is written by each of them, always with its
        -- own frame.
        by_cases hq : q = q₀
        · subst hq
          simp only [List.mem_cons, exists_eq_or_imp, hpage, hcase, Option.isSome_some, and_self,
            true_or, if_true]
          split
          · rfl
          · simp only [EptPte.mapping, f, EptPte.withAccess, horig]
        · have hne : ¬ hook.page = q := fun heq => hq (heq.symm.trans hpage)
          simp only [List.mem_cons, exists_eq_or_imp, hne, false_and, false_or, if_neg hq]

/-- What the loop of `reactivate_hooks` over some of the hooks does. -/
theorem sweep_reactivate (hooks : List EptHook) (pages : EptPages) (h : pages.WF)
    (hok : ∀ hook ∈ hooks, pages.HookOk hook) :
    ∃ s, sweepHooks reactivateHook pages hooks =
        (pages.withPtes s, hooks.map pages.rearmed) ∧
      ∀ q, ((pages.withPtes s).walk q).mapping =
        if ∃ hook ∈ hooks, hook.page = q ∧ hook.pte.isSome = false then
          { (pages.walk q).mapping with execute := false, frame := q.frame }
        else (pages.walk q).mapping := by
  induction hooks generalizing pages with
  | nil => exact ⟨pages.splitPte, rfl, fun q => by simp [EptPages.withPtes]⟩
  | cons hook hooks ih =>
    obtain ⟨q₀, horig, hsome, hpte⟩ := hok hook List.mem_cons_self
    have hpage := page_of_origPfn horig
    have hrest : ∀ hook' ∈ hooks, pages.HookOk hook' :=
      fun hook' hmem => hok hook' (List.mem_cons_of_mem _ hmem)
    obtain ⟨p, hp⟩ := Option.isSome_iff_exists.mp hsome
    -- A hook that has its entry is skipped, even where the page is open.
    cases hcase : hook.pte with
    | some p' =>
      obtain ⟨s, hsweep, hmap⟩ := ih pages h hrest
      refine ⟨s, ?_, fun q => ?_⟩
      · simp only [sweepHooks, reactivateHook, hcase, hsweep, List.map_cons]
        have heq : pages.rearmed hook = hook := by
          cases hpte with
          | inl hnone =>
            rw [hcase] at hnone
            cases hnone
          | inr heq => simp only [EptPages.rearmed, hpage, ← heq]
        rw [heq]
      · rw [hmap]
        simp [hcase]
    | none =>
      let f : EptPte → EptPte := fun e =>
        { e with pageFrameNumber := hook.origPfn, executeAccess := false }
      have hget : getEptPte pages (hook.origPfn * 2 ^ 12) false = (pages, some p) :=
        horig ▸ getEptPte_of_ptr h hp false
      obtain ⟨s, hsweep, hmap⟩ := ih (pages.writePte p f) (wf_writePte h p f) hrest
      have hbody : reactivateHook pages hook = (pages.writePte p f, pages.rearmed hook) := by
        simp only [reactivateHook, hcase, hget, EptPages.rearmed, hpage, hp]
        rfl
      refine ⟨s, ?_, fun q => ?_⟩
      · simp only [sweepHooks, hbody, hsweep, List.map_cons]
        rfl
      · have hmap := hmap q
        rw [walk_writePte h hp] at hmap
        refine Eq.trans hmap ?_
        -- The entry was found again, for the page was split when the hook was
        -- made.
        by_cases hq : q = q₀
        · subst hq
          simp only [List.mem_cons, exists_eq_or_imp, hpage, hcase, Option.isSome_none, and_self,
            true_or, if_true]
          split
          · rfl
          · simp only [EptPte.mapping, f, horig]
        · have hne : ¬ hook.page = q := fun heq => hq (heq.symm.trans hpage)
          simp only [List.mem_cons, exists_eq_or_imp, hne, false_and, false_or, if_neg hq]

/-- `deactivate_hooks` suspends every guard. -/
theorem view_deactivateHooks (h : pages.WF) :
    (deactivateHooks pages).view = pages.view.suspend GuestPage.frame := by
  obtain ⟨s, hsweep, hmap⟩ := sweep_deactivate pages.hooks pages h h.hook
  have hpages : deactivateHooks pages =
      { pages.withPtes s with hooks := pages.hooks.map EptHook.suspended } := by
    unfold deactivateHooks
    rw [hsweep]
  rw [hpages]
  show View.mk _ _ = View.mk _ _
  congr 1
  · funext q
    refine (hmap q).trans (if_congr ?_ rfl rfl)
    simp [View.Guarded, EptPages.view, EptHook.guard]
  · show (pages.hooks.map EptHook.suspended).map EptHook.guard = (pages.hooks.map EptHook.guard).map _
    rw [List.map_map, List.map_map]
    rfl

/-- Suspending the hooks writes entries only. -/
theorem wf_deactivateHooks (h : pages.WF) : (deactivateHooks pages).WF := by
  obtain ⟨s, hsweep, _⟩ := sweep_deactivate pages.hooks pages h h.hook
  unfold deactivateHooks
  rw [hsweep]
  apply wf_withHooks (wf_withPtes h s)
  intro hook hmem
  obtain ⟨hook', hmem', rfl⟩ := List.mem_map.mp hmem
  obtain ⟨q, horig, hsome, _⟩ := h.hook hook' hmem'
  exact ⟨q, horig, hsome, Or.inl rfl⟩

/-- `deactivate_hooks` splits nothing. -/
theorem tableOf_deactivateHooks (h : pages.WF) :
    (deactivateHooks pages).tableOf = pages.tableOf ∧
      (deactivateHooks pages).splitPteUsed = pages.splitPteUsed := by
  obtain ⟨s, hsweep, _⟩ := sweep_deactivate pages.hooks pages h h.hook
  unfold deactivateHooks
  rw [hsweep]
  exact ⟨rfl, rfl⟩

/-- `reactivate_hooks` splits nothing. -/
theorem tableOf_reactivateHooks (h : pages.WF) :
    (reactivateHooks pages).tableOf = pages.tableOf ∧
      (reactivateHooks pages).splitPteUsed = pages.splitPteUsed := by
  obtain ⟨s, hsweep, _⟩ := sweep_reactivate pages.hooks pages h h.hook
  unfold reactivateHooks
  rw [hsweep]
  exact ⟨rfl, rfl⟩

/-- `reactivate_hooks` finds the entry of every suspended hook and arms
it. -/
theorem view_reactivateHooks (h : pages.WF) :
    (reactivateHooks pages).view = pages.view.resume GuestPage.frame := by
  obtain ⟨s, hsweep, hmap⟩ := sweep_reactivate pages.hooks pages h h.hook
  have hpages : reactivateHooks pages =
      { pages.withPtes s with hooks := pages.hooks.map pages.rearmed } := by
    unfold reactivateHooks
    rw [hsweep]
  rw [hpages]
  show View.mk _ _ = View.mk _ _
  congr 1
  · funext q
    refine (hmap q).trans (if_congr ?_ rfl rfl)
    simp [View.Suspended, EptPages.view, EptHook.guard]
  · show (pages.hooks.map pages.rearmed).map EptHook.guard = (pages.hooks.map EptHook.guard).map _
    -- After the sweep every hook has its entry.
    rw [List.map_map, List.map_map, List.map_inj_left]
    intro hook hmem
    obtain ⟨q, horig, hsome, _⟩ := h.hook hook hmem
    have hpage := page_of_origPfn horig
    show Guard.mk _ _ _ = Guard.mk _ _ _
    congr 1
    show (pages.ptr hook.page).isSome = true
    rw [hpage]
    exact hsome

/-- Arming the hooks again writes entries only, and finds every one of
them. -/
theorem wf_reactivateHooks (h : pages.WF) : (reactivateHooks pages).WF := by
  obtain ⟨s, hsweep, _⟩ := sweep_reactivate pages.hooks pages h h.hook
  unfold reactivateHooks
  rw [hsweep]
  apply wf_withHooks (wf_withPtes h s)
  intro hook hmem
  obtain ⟨hook', hmem', rfl⟩ := List.mem_map.mp hmem
  obtain ⟨q, horig, hsome, _⟩ := h.hook hook' hmem'
  exact ⟨q, horig, hsome, Or.inr (congrArg pages.ptr (page_of_origPfn horig))⟩

/-- Both views lose the same hooks. -/
theorem lockstep_deactivateHooks {pages' : EptPages} (hwf : pages.WF) (hwf' : pages'.WF)
    (h : Lockstep pages pages') : Lockstep (deactivateHooks pages) (deactivateHooks pages') := by
  obtain ⟨s, hsweep, _⟩ := sweep_deactivate pages.hooks pages hwf hwf.hook
  obtain ⟨s', hsweep', _⟩ := sweep_deactivate pages'.hooks pages' hwf' hwf'.hook
  unfold deactivateHooks
  rw [hsweep, hsweep']
  exact ⟨h.used, h.table, congrArg (List.map EptHook.suspended) h.hooks⟩

/-- Both views get the same hooks back. -/
theorem lockstep_reactivateHooks {pages' : EptPages} (hwf : pages.WF) (hwf' : pages'.WF)
    (h : Lockstep pages pages') : Lockstep (reactivateHooks pages) (reactivateHooks pages') := by
  obtain ⟨s, hsweep, _⟩ := sweep_reactivate pages.hooks pages hwf hwf.hook
  obtain ⟨s', hsweep', _⟩ := sweep_reactivate pages'.hooks pages' hwf' hwf'.hook
  unfold reactivateHooks
  rw [hsweep, hsweep']
  refine ⟨h.used, h.table, ?_⟩
  show pages.hooks.map pages.rearmed = pages'.hooks.map pages'.rearmed
  rw [h.hooks]
  refine List.map_congr_left fun hook _ => ?_
  simp only [EptPages.rearmed, h.ptr]

end

end Revhv.Ept
