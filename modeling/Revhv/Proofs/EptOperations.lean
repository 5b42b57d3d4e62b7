import Mathlib.Data.Fintype.Prod
import Revhv.Proofs.EptMachine

/-!
# `Revhv.Proofs.EptOperations`: the tables of a view under any operations

Two views, and on each of them the operations of `ept.cpp` in any
order, next to the two operations on both of them.

* `operations_intact`: after any such run each view is `Intact`. Its
  counter of tables is the number of split PDEs, no table is shared,
  every entry maps the frame of its place unless an active hook points
  to it, and `reactivate_hooks` finds the entry of every hook.
* `ept_handleEptViolation`: the violation handler edits the views by
  `swapHook` only.
-/

set_option autoImplicit false

namespace Revhv.Ept

open Revhv.Hypercall Revhv.Lib Revhv.Memory

/-! ### The operations -/

/-- What `handle_ept_violation` does to the view in use. -/
def swapHook (pages : EptPages) (pfn : Nat) (executeAccess : Bool) : EptPages :=
  match getHookByOrigPfn pages pfn with
  | some ⟨origPfn, hookPfn, some pte⟩ =>
      pages.writePte pte fun e =>
        if executeAccess then { e.withAccess false false true with pageFrameNumber := hookPfn }
        else { e.withAccess true true false with pageFrameNumber := origPfn }
  | _ => pages

/-- An operation on one view. -/
inductive EptOp where
  | splitPde (i j : Fin 512)
  | getEptPte (gpa : Nat) (forceSplit : Bool)
  | addHook (origPfn hookPfn : Nat)
  | swapHook (pfn : Nat) (executeAccess : Bool)
  | deactivateHooks
  | reactivateHooks
  | updateEptMemoryTypes (mtrrState : MtrrState)

/-- The view after an operation. -/
def EptOp.apply (pages : EptPages) : EptOp → EptPages
  | .splitPde i j => ((Ept.splitPde pages i j).map Prod.fst).getD pages
  | .getEptPte gpa forceSplit => (Ept.getEptPte pages gpa forceSplit).1
  | .addHook origPfn hookPfn => (Ept.addHook pages origPfn hookPfn).1
  | .swapHook pfn executeAccess => Ept.swapHook pages pfn executeAccess
  | .deactivateHooks => Ept.deactivateHooks pages
  | .reactivateHooks => Ept.reactivateHooks pages
  | .updateEptMemoryTypes mtrrState => Ept.updateEptMemoryTypes pages mtrrState

/-- An operation on the normal view, on the target view, or on both. -/
inductive ViewsOp where
  | normal (op : EptOp)
  | target (op : EptOp)
  | enableAutoTrace (tables : Tables) (systemCr3 targetVa targetSize : Nat)
  | restoreAutoTrace

/-- Two views under operations in any order. -/
def operationMachine : Machine EptViews ViewsOp where
  next views
    | .normal op => some { views with normal := op.apply views.normal }
    | .target op => some { views with target := op.apply views.target }
    | .enableAutoTrace tables systemCr3 targetVa targetSize =>
        some (Loop.exit (enableAutoTrace tables systemCr3 views targetVa targetSize))
    | .restoreAutoTrace => some (restoreAutoTrace views)

/-! ### The property -/

/-- The tables of a view are in order. -/
structure Intact (pages : EptPages) : Prop where
  /-- As many tables are in use as there are split PDEs. -/
  used : (Finset.univ.filter fun ij : Fin 512 × Fin 512 => pages.IsSplit ij.1 ij.2).card =
    pages.splitPteUsed
  used_le : pages.splitPteUsed ≤ 256
  /-- A split PDE points to a table. -/
  points : ∀ i j e, pages.pde i j = .split e →
    ∃ t, e.pageFrameNumber = pages.splitPtePfns.frame t
  /-- Different PDEs point to different tables. -/
  distinct : ∀ i j e i' j' e', pages.pde i j = .split e → pages.pde i' j' = .split e' →
    e.pageFrameNumber = e'.pageFrameNumber → i = i' ∧ j = j'
  /-- A large PDE maps the 2 MB it stands for. -/
  large : ∀ i j e, pages.pde i j = .large e → e.pageFrameNumber = (i : Nat) * 512 + j
  /-- An entry maps the 4 KB it stands for, unless an active hook points
  to it. -/
  entry : ∀ i j e t k, pages.pde i j = .split e →
    e.pageFrameNumber = pages.splitPtePfns.frame t →
    (pages.splitPte t k).pageFrameNumber = ((i : Nat) * 512 + j) * 512 + k ∨
      ∃ hook ∈ pages.hooks, hook.pte = some (t, k)
  /-- The lookup `reactivate_hooks` makes for a hook finds an entry. -/
  found : ∀ hook ∈ pages.hooks, (getEptPte pages (hook.origPfn * 2 ^ 12) false).2.isSome
  /-- So `reactivate_hooks` leaves no hook suspended. -/
  rearmed : ∀ hook ∈ (reactivateHooks pages).hooks, hook.pte.isSome

/-! ### Tables in use -/

/-- Every table in use is behind a PDE. -/
def EptPages.Packed (pages : EptPages) : Prop :=
  ∀ t : Fin eptSplitPteCount, t.val < pages.splitPteUsed → ∃ i j, pages.tableOf i j = some t

/-- Which tables are in use depends on the PDEs and the counter only. -/
theorem packed_congr {pages pages' : EptPages} (h : pages.Packed)
    (htable : pages'.tableOf = pages.tableOf) (hused : pages'.splitPteUsed = pages.splitPteUsed) :
    pages'.Packed := by
  intro t ht
  rw [htable]
  exact h t (hused ▸ ht)

/-- A split puts the next table behind its PDE. -/
theorem packed_splitPde {pages pages' : EptPages} {i j : Fin 512} {t : Fin eptSplitPteCount}
    (h : pages.Packed) (hs : splitPde pages i j = some (pages', t)) : pages'.Packed := by
  have htable := tableOf_splitPde hs
  have hnone := tableOf_of_splitPde hs
  obtain ⟨_, _, hused, hr⟩ := splitPde_some_iff hs
  have hval : t.val = pages.splitPteUsed := by cases hr; rfl
  have hcount : pages'.splitPteUsed = pages.splitPteUsed + 1 := by cases hr; rfl
  intro t' ht'
  -- The new table is the one of this PDE. Older numbers still have theirs.
  by_cases heq : t' = t
  · exact ⟨i, j, by rw [htable, if_pos ⟨rfl, rfl⟩, heq]⟩
  · have hne : t'.val ≠ t.val := fun hv => heq (Fin.ext hv)
    obtain ⟨i', j', hold⟩ := h t' (by omega)
    refine ⟨i', j', ?_⟩
    rw [htable, if_neg, hold]
    intro hij
    rw [hij.1, hij.2, hnone] at hold
    cases hold

/-- Things with a property are `n` many when they have the numbers below
`n`, each one once. -/
theorem card_of_numbers {α : Type} [Fintype α] {P : α → Prop} [DecidablePred P]
    {f : α → Option Nat} {n : Nat} (hbelow : ∀ a, P a → ∃ k < n, f a = some k)
    (hunique : ∀ a b k, f a = some k → f b = some k → a = b)
    (hevery : ∀ k < n, ∃ a, P a ∧ f a = some k) :
    (Finset.univ.filter P).card = n := by
  -- Counting the PDEs is counting the numbers they carry.
  have hnumber : ∀ a, P a → f a = some ((f a).getD 0) ∧ (f a).getD 0 < n := by
    intro a ha
    obtain ⟨k, hk, heq⟩ := hbelow a ha
    rw [heq]
    exact ⟨rfl, hk⟩
  have hcard : (Finset.univ.filter P).card = (Finset.range n).card := by
    apply Finset.card_bij fun a _ => (f a).getD 0
    · intro a ha
      exact Finset.mem_range.mpr (hnumber a (Finset.mem_filter.mp ha).2).2
    · intro a ha b hb heq
      have hna := (hnumber a (Finset.mem_filter.mp ha).2).1
      have hnb := (hnumber b (Finset.mem_filter.mp hb).2).1
      exact hunique a b _ hna (heq ▸ hnb)
    · intro k hk
      obtain ⟨a, ha, heq⟩ := hevery k (Finset.mem_range.mp hk)
      exact ⟨a, Finset.mem_filter.mpr ⟨Finset.mem_univ a, ha⟩, by rw [heq]; rfl⟩
  rw [hcard, Finset.card_range]

/-- The counter of tables is the number of split PDEs. -/
theorem card_split {pages : EptPages} (h : pages.WF) (hpacked : pages.Packed) :
    (Finset.univ.filter fun ij : Fin 512 × Fin 512 => pages.IsSplit ij.1 ij.2).card =
      pages.splitPteUsed := by
  -- The number of a split PDE is that of its table.
  refine card_of_numbers (f := fun ij => (pages.tableOf ij.1 ij.2).map Fin.val) ?_ ?_ ?_
  · intro ij hsplit
    obtain ⟨t, ht⟩ := Option.isSome_iff_exists.mp ((isSplit_iff h _ _).mp hsplit)
    exact ⟨t, (pde_of_tableOf_some h ht).2, by rw [ht]; rfl⟩
  · intro ij ij' k hk hk'
    obtain ⟨t, ht, htk⟩ := Option.map_eq_some_iff.mp hk
    obtain ⟨t', ht', htk'⟩ := Option.map_eq_some_iff.mp hk'
    have hsame : t' = t := Fin.ext (htk'.trans htk.symm)
    obtain ⟨h₁, h₂⟩ := h.unique _ _ _ _ _ ht (hsame ▸ ht')
    exact Prod.ext h₁ h₂
  · intro k hk
    obtain ⟨i, j, ht⟩ := hpacked ⟨k, Nat.lt_of_lt_of_le hk h.used_le⟩ hk
    refine ⟨(i, j), ?_, by rw [ht]; rfl⟩
    rw [isSplit_iff h, ht]
    rfl

/-! ### The invariant -/

/-- The invariant of a view. -/
structure Kept (pages : EptPages) : Prop where
  wf : pages.WF
  packed : pages.Packed
  atHome : ∀ q, View.AtHome GuestPage.frame pages.view q

/-- The invariant gives the property. -/
theorem Kept.intact {pages : EptPages} (h : Kept pages) : Intact pages where
  used := card_split h.wf h.packed
  used_le := h.wf.used_le
  points i j e he := by
    obtain ⟨t, _, rfl⟩ := h.wf.split i j e he
    exact ⟨t, rfl⟩
  distinct i j e i' j' e' he he' heq := by
    obtain ⟨t, _, rfl⟩ := h.wf.split i j e he
    obtain ⟨t', _, rfl⟩ := h.wf.split i' j' e' he'
    have hsame : t = t' := pages.splitPtePfns.injective heq
    apply h.wf.unique i j i' j' t
    · simp only [EptPages.tableOf, he, tablePde, tableAt_frame]
    · simp only [EptPages.tableOf, he', tablePde, tableAt_frame, hsame]
  large := h.wf.large
  entry i j e t k he hframe := by
    have hptr : pages.ptr ⟨i, j, k⟩ = some (t, k) := by
      simp only [EptPages.ptr, EptPages.tableOf, he, hframe, tableAt_frame, Option.map_some]
    -- A page without an active hook is at home by `Kept`.
    by_cases hguarded : pages.view.Guarded ⟨i, j, k⟩
    · obtain ⟨hook, hmem, horig, hactive⟩ := (activeHook_iff h.wf _).mpr hguarded
      obtain ⟨q, hq, _, hpte⟩ := h.wf.hook hook hmem
      have hsame : q = ⟨i, j, k⟩ := GuestPage.frame_injective (hq.symm.trans horig)
      refine Or.inr ⟨hook, hmem, ?_⟩
      cases hpte with
      | inl hnone =>
        rw [hnone] at hactive
        cases hactive
      | inr hsome => rw [hsome, hsame, hptr]
    · have hhome := h.atHome ⟨i, j, k⟩ hguarded
      have hwalk := walk_of_ptr h.wf hptr
      refine Or.inl ?_
      rw [← hwalk]
      exact hhome
  found hook hmem := by
    obtain ⟨q, horig, hsome, _⟩ := h.wf.hook hook hmem
    obtain ⟨p, hp⟩ := Option.isSome_iff_exists.mp hsome
    rw [horig, getEptPte_of_ptr h.wf hp]
    rfl
  rearmed hook hmem := by
    obtain ⟨s, hsweep, _⟩ := sweep_reactivate pages.hooks pages h.wf h.wf.hook
    unfold reactivateHooks at hmem
    rw [hsweep] at hmem
    obtain ⟨hook', hmem', rfl⟩ := List.mem_map.mp hmem
    obtain ⟨q, horig, hsome, _⟩ := h.wf.hook hook' hmem'
    show (pages.ptr hook'.page).isSome
    rw [page_of_origPfn horig]
    exact hsome

/-! ### Operations on one view -/

section
variable {pages : EptPages}

/-- A lookup is at most one split. -/
theorem getEptPte_cases (pages : EptPages) (gpa : Nat) (forceSplit : Bool) :
    (getEptPte pages gpa forceSplit).1 = pages ∨
      ∃ i j pages' t, splitPde pages i j = some (pages', t) ∧
        (getEptPte pages gpa forceSplit).1 = pages' := by
  unfold getEptPte
  split
  · exact Or.inl rfl
  · simp only
    split
    · exact Or.inl rfl
    · split
      · exact Or.inl rfl
      · split
        · exact Or.inl rfl
        · rename_i hs
          exact Or.inr ⟨_, _, _, _, hs, rfl⟩

/-- A write that leaves the frames alone. -/
theorem frame_writePte (p : PtePtr) {f : EptPte → EptPte}
    (hf : ∀ e, (f e).pageFrameNumber = e.pageFrameNumber) (q : GuestPage) :
    ((pages.writePte p f).walk q).pageFrameNumber = (pages.walk q).pageFrameNumber := by
  have hentry : ∀ t k, ((pages.writePte p f).splitPte t k).pageFrameNumber =
      (pages.splitPte t k).pageFrameNumber := by
    -- Only one entry is written, and `f` keeps its frame.
    intro t k
    show (Function.update pages.splitPte p.1 (Function.update (pages.splitPte p.1) p.2 _) t
      k).pageFrameNumber = _
    by_cases ht : t = p.1
    · rw [ht, Function.update_self]
      by_cases hk : k = p.2
      · rw [hk, Function.update_self, hf]
      · rw [Function.update_of_ne hk]
    · rw [Function.update_of_ne ht]
  have hpde : (pages.writePte p f).pde = pages.pde := rfl
  have htable : (pages.writePte p f).tableAt = pages.tableAt := rfl
  rw [EptPages.walk, EptPages.walk, hpde]
  cases pages.pde q.pdpt q.pd with
  | large e => rfl
  | split e =>
    simp only [htable]
    cases pages.tableAt e.pageFrameNumber with
    | none => rfl
    | some t => exact hentry t q.pt

/-- Only frames and guards count for being at home. -/
theorem atHome_congr {v w : View GuestPage Nat} {q : GuestPage}
    (h : View.AtHome GuestPage.frame v q) (hguards : w.guards = v.guards)
    (hframe : (w.map q).frame = (v.map q).frame) : View.AtHome GuestPage.frame w q := by
  intro hguarded
  rw [hframe]
  apply h
  unfold View.Guarded at hguarded ⊢
  rwa [← hguards]

/-- A write to an entry that leaves its frame, such as one of its
rights. -/
theorem kept_writePte (h : Kept pages) (p : PtePtr) {f : EptPte → EptPte}
    (hf : ∀ e, (f e).pageFrameNumber = e.pageFrameNumber) : Kept (pages.writePte p f) where
  wf := wf_writePte h.wf p f
  packed := h.packed
  atHome q := atHome_congr (h.atHome q) rfl (frame_writePte p hf q)

/-- A write of the right to execute. -/
theorem kept_writeExecute (h : Kept pages) (p : PtePtr) (execute : Bool) :
    Kept (pages.writePte p fun e => { e with executeAccess := execute }) :=
  kept_writePte h p fun _ => rfl

/-- A split: the new table is behind its PDE, and its entries map the
same frames. -/
theorem kept_splitPde {pages' : EptPages} {i j : Fin 512} {t : Fin eptSplitPteCount}
    (h : Kept pages) (hs : splitPde pages i j = some (pages', t)) : Kept pages' where
  wf := wf_splitPde h.wf hs
  packed := packed_splitPde h.packed hs
  atHome q := by
    apply atHome_congr (h.atHome q)
    · exact congrArg (List.map EptHook.guard) (hooks_splitPde hs)
    · exact congrArg (fun walk => (walk q).pageFrameNumber) (walk_splitPde h.wf hs)

/-- A lookup splits at most one PDE. -/
theorem kept_getEptPte (h : Kept pages) (gpa : Nat) (forceSplit : Bool) :
    Kept (getEptPte pages gpa forceSplit).1 := by
  cases getEptPte_cases pages gpa forceSplit with
  | inl hsame =>
    rw [hsame]
    exact h
  | inr hsplit =>
    obtain ⟨_, _, _, _, hs, hget⟩ := hsplit
    rw [hget]
    exact kept_splitPde h hs

/-- A view that differs in its entries and hooks only. -/
theorem packed_addHook (h : pages.Packed) (origPfn hookPfn : Nat) :
    (addHook pages origPfn hookPfn).1.Packed := by
  -- The lookup may split a PDE, which is the only way `add_hook` takes a table.
  have hget : (getEptPte pages (origPfn * 2 ^ 12 % 2 ^ 64) true).1.Packed := by
    cases getEptPte_cases pages (origPfn * 2 ^ 12 % 2 ^ 64) true with
    | inl hsame =>
      rw [hsame]
      exact h
    | inr hsplit =>
      obtain ⟨_, _, _, _, hs, hget⟩ := hsplit
      rw [hget]
      exact packed_splitPde h hs
  unfold addHook
  split
  · exact h
  · split
    · rename_i hcase
      rw [hcase] at hget
      exact hget
    · rename_i hcase
      rw [hcase] at hget
      exact hget

/-- A new hook: a lookup, and an entry that loses its right to execute. -/
theorem kept_addHook (h : Kept pages) (origPfn hookPfn : Nat) :
    Kept (addHook pages origPfn hookPfn).1 := by
  have hpacked := packed_addHook h.packed origPfn hookPfn
  cases addHook_cases h.wf origPfn hookPfn with
  | inl hrefused =>
    rw [hrefused]
    exact h
  | inr hstored =>
    obtain ⟨pages', hadd, hwf, hview, _⟩ := hstored
    rw [hadd] at hpacked ⊢
    refine ⟨hwf, hpacked, fun q => ?_⟩
    rw [hview]
    exact View.atHome_guard (h.atHome q) _ _

/-- The entry of an active hook may map anything. -/
theorem kept_swapHook (h : Kept pages) (pfn : Nat) (executeAccess : Bool) :
    Kept (swapHook pages pfn executeAccess) := by
  unfold swapHook
  split
  · rename_i origPfn hookPfn pte hfind
    have hmem := List.mem_of_find?_eq_some hfind
    obtain ⟨q, horig, _, hpte⟩ := h.wf.hook _ hmem
    have hptr : pages.ptr q = some pte := by
      cases hpte with
      | inl hnone => cases hnone
      | inr hsome => exact hsome.symm
    have hactive : pages.view.Guarded q := (activeHook_iff h.wf q).mp ⟨_, hmem, horig, rfl⟩
    refine ⟨wf_writePte h.wf _ _, h.packed, fun q' hguarded => ?_⟩
    -- Pages without a hook are not the one that is swapped.
    have hne : q' ≠ q := fun heq => hguarded (heq ▸ hactive)
    show (((pages.writePte pte _).walk q').mapping).frame = _
    rw [walk_writePte h.wf hptr, if_neg hne]
    exact h.atHome q' hguarded
  · exact h

/-- Suspended hooks send their entries home. -/
theorem kept_deactivateHooks (h : Kept pages) : Kept (deactivateHooks pages) := by
  obtain ⟨htable, hused⟩ := tableOf_deactivateHooks h.wf
  refine ⟨wf_deactivateHooks h.wf, packed_congr h.packed htable hused, fun q => ?_⟩
  rw [view_deactivateHooks h.wf]
  exact View.atHome_suspend (h.atHome q)

/-- So do hooks that are armed again. -/
theorem kept_reactivateHooks (h : Kept pages) : Kept (reactivateHooks pages) := by
  obtain ⟨htable, hused⟩ := tableOf_reactivateHooks h.wf
  refine ⟨wf_reactivateHooks h.wf, packed_congr h.packed htable hused, fun q => ?_⟩
  rw [view_reactivateHooks h.wf]
  exact View.atHome_resume (h.atHome q)

/-- Rights for all pages leave the frames alone. -/
theorem kept_setAllPermissions (h : Kept pages) (read write execute : Bool) :
    Kept (setAllPermissions pages read write execute) := by
  refine ⟨wf_setAllPermissions h.wf _ _ _,
    packed_congr h.packed (tableOf_setAllPermissions _ _ _) rfl, fun q => ?_⟩
  rw [view_setAllPermissions h.wf]
  exact View.atHome_setAccess (h.atHome q) _ _ _

/-! ### Memory types -/

/-- New types leave the frames alone. -/
theorem Retyped.kept {pages' : EptPages} (hr : Retyped pages pages') (h : Kept pages) :
    Kept pages' := by
  refine ⟨hr.wf h.wf, ?_, fun q => ?_⟩
  · obtain ⟨s, rfl, _⟩ := hr
    exact h.packed
  · rw [hr.view h.wf]
    exact h.atHome q

/-- One round of the inner loop of `update_ept_memory_types`: a new
type, or a split. -/
theorem kept_updatePde (mtrrState : MtrrState) (i j : Fin 512) (h : Kept pages) :
    Kept (updatePde mtrrState i pages j) := by
  unfold updatePde
  split
  · exact h
  · rename_i e hpde
    -- A new memory type changes neither the tables nor what the page maps.
    have hretype : ∀ type, Kept (pages.setPde i j (.large (e.withMemoryType type))) := by
      intro type
      refine ⟨wf_setMemoryType h.wf hpde type,
        packed_congr h.packed (tableOf_setMemoryType hpde type) rfl, fun q => ?_⟩
      rw [view_setMemoryType hpde type]
      exact h.atHome q
    simp only
    split
    · exact hretype _
    · split
      · exact hretype _
      · rename_i hs
        exact kept_splitPde h hs

/-- A round of the outer loop. It does not leave early. -/
theorem kept_updatePd (mtrrState : MtrrState) (i : Fin 512) (h : Kept pages) :
    ∃ new, updatePd mtrrState pages i = .ok new ∧ Kept new := by
  have hpdes : Kept ((List.finRange 512).foldl (updatePde mtrrState i) pages) :=
    List.foldlRecOn (List.finRange 512) (updatePde mtrrState i) h
      fun _ hI j _ => kept_updatePde mtrrState i j hI
  unfold updatePd
  exact Loop.rule_ok (fun _ new => Kept new) hpdes fun _ t _ new _ hI => by
    obtain ⟨typed, htyped, hr⟩ := typeTable_ok mtrrState (Retyped.refl new) t
    exact ⟨typed, htyped, hr.kept hI⟩

/-- The whole update, by induction on the directories. -/
theorem kept_updateEptMemoryTypes (h : Kept pages) (mtrrState : MtrrState) :
    Kept (updateEptMemoryTypes pages mtrrState) := by
  obtain ⟨new, hnew, hI⟩ := Loop.rule_ok (fun _ new => Kept new) h
    fun _ i _ _ _ hI => kept_updatePd mtrrState i hI
  unfold updateEptMemoryTypes
  rw [hnew]
  exact hI

/-- Every operation on one view keeps its invariant. -/
theorem kept_apply (h : Kept pages) (op : EptOp) : Kept (op.apply pages) := by
  cases op with
  | splitPde i j =>
    show Kept (((splitPde pages i j).map Prod.fst).getD pages)
    cases hs : splitPde pages i j with
    | none => exact h
    | some r => exact kept_splitPde h hs
  | getEptPte gpa forceSplit => exact kept_getEptPte h gpa forceSplit
  | addHook origPfn hookPfn => exact kept_addHook h origPfn hookPfn
  | swapHook pfn executeAccess => exact kept_swapHook h pfn executeAccess
  | deactivateHooks => exact kept_deactivateHooks h
  | reactivateHooks => exact kept_reactivateHooks h
  | updateEptMemoryTypes mtrrState => exact kept_updateEptMemoryTypes h mtrrState

end

/-! ### Operations on both views -/

/-- Both views have the invariant. -/
structure BothKept (views : EptViews) : Prop where
  normal : Kept views.normal
  target : Kept views.target

/-- Rights for all pages of both views. -/
theorem bothKept_setAllPermissions {views : EptViews} (h : BothKept views) (r w x r' w' x' : Bool) :
    BothKept ⟨setAllPermissions views.normal r w x, setAllPermissions views.target r' w' x'⟩ :=
  ⟨kept_setAllPermissions h.normal r w x, kept_setAllPermissions h.target r' w' x'⟩

/-- A round of `enable_auto_trace` is a lookup and a write of the
execute right in each view, or the end of the loop. -/
theorem bothKept_tracePage (tables : Tables) (systemCr3 targetVa : Nat) {views : EptViews}
    (h : BothKept views) (n : Nat) :
    (∃ views', tracePage tables systemCr3 targetVa views n = .ok views' ∧ BothKept views') ∨
      ∃ views', tracePage tables systemCr3 targetVa views n = .error views' ∧ BothKept views' := by
  unfold tracePage
  generalize (gvaToGpa tables systemCr3 (targetPageVa targetVa n)).1 = gpa
  have hnormal := kept_getEptPte h.normal gpa true
  have htarget := kept_getEptPte h.target gpa true
  simp only
  -- A page that does not translate is skipped. Otherwise both views look it up,
  -- and either may be out of tables.
  split
  · exact Or.inl ⟨views, rfl, h⟩
  · revert hnormal htarget
    cases getEptPte views.normal gpa true with
    | mk new found =>
      cases getEptPte views.target gpa true with
      | mk new' found' =>
        intro hnormal htarget
        have hboth : BothKept ⟨new, new'⟩ := ⟨hnormal, htarget⟩
        have hopened := bothKept_setAllPermissions hboth true true true true true true
        cases found with
        | none => exact Or.inr ⟨_, rfl, hopened⟩
        | some pte =>
          cases found' with
          | none => exact Or.inr ⟨_, rfl, hopened⟩
          | some pte' =>
            exact Or.inl ⟨_, rfl, kept_writeExecute hnormal pte false,
              kept_writeExecute htarget pte' true⟩

/-- The start of a session on both views, also when it stops half-way. -/
theorem bothKept_enableAutoTrace (tables : Tables) (systemCr3 : Nat) {views : EptViews}
    (h : BothKept views) (targetVa targetSize : Nat) :
    BothKept (Loop.exit (enableAutoTrace tables systemCr3 views targetVa targetSize)) := by
  have hstart : BothKept
      { views with target := setAllPermissions views.target true true false } :=
    ⟨h.normal, kept_setAllPermissions h.target _ _ _⟩
  -- The loop over the pages keeps both views, whether it ends or breaks off.
  have hstep : ∀ (done : List Nat) (n : Nat) (rest : List Nat) (new : EptViews),
      List.range (targetPageCount targetVa targetSize) = done ++ n :: rest → BothKept new →
      (∃ new', tracePage tables systemCr3 targetVa new n = .ok new' ∧ BothKept new') ∨
        ∃ new', tracePage tables systemCr3 targetVa new n = .error new' ∧ BothKept new' :=
    fun _ n _ _ _ hI => bothKept_tracePage tables systemCr3 targetVa hI n
  have hloop := Loop.rule (fun _ new => BothKept new) BothKept hstart hstep
  unfold enableAutoTrace
  cases hloop with
  | inl hok =>
    obtain ⟨new, hnew, hI⟩ := hok
    rw [hnew]
    exact hI
  | inr herr =>
    obtain ⟨new, hnew, hI⟩ := herr
    rw [hnew]
    exact hI

/-- Every operation keeps both invariants. -/
theorem bothKept_next {views views' : EptViews} (h : BothKept views) {op : ViewsOp}
    (hnext : operationMachine.next views op = some views') : BothKept views' := by
  cases op with
  | normal op =>
    cases hnext
    exact ⟨kept_apply h.normal op, h.target⟩
  | target op =>
    cases hnext
    exact ⟨h.normal, kept_apply h.target op⟩
  | enableAutoTrace tables systemCr3 targetVa targetSize =>
    cases hnext
    exact bothKept_enableAutoTrace tables systemCr3 h targetVa targetSize
  | restoreAutoTrace =>
    cases hnext
    exact bothKept_setAllPermissions h _ _ _ _ _ _

/-! ### New views -/

/-- The tables in use are behind the PDEs built so far. -/
def PackedOn (done : List (Fin 512 × Fin 512)) (pages : EptPages) : Prop :=
  ∀ t : Fin eptSplitPteCount, t.val < pages.splitPteUsed →
    ∃ ij ∈ done, pages.tableOf ij.1 ij.2 = some t

/-- A large PDE takes no table. -/
theorem packedOn_setLarge {done : List (Fin 512 × Fin 512)} {pages : EptPages} {i j : Fin 512}
    (h : PackedOn done pages) (hnot : (i, j) ∉ done) (e : EptPte) :
    PackedOn done (pages.setPde i j (.large e)) := by
  intro t ht
  obtain ⟨ij, hmem, htable⟩ := h t ht
  refine ⟨ij, hmem, ?_⟩
  rw [tableOf_setLarge, if_neg (ne_of_mem hnot hmem)]
  exact htable

/-- More PDEs make the condition weaker. -/
theorem PackedOn.append {done : List (Fin 512 × Fin 512)} {pages : EptPages}
    (h : PackedOn done pages) (rest : List (Fin 512 × Fin 512)) : PackedOn (done ++ rest) pages := by
  intro t ht
  obtain ⟨ij, hmem, htable⟩ := h t ht
  exact ⟨ij, List.mem_append_left rest hmem, htable⟩

/-- One round of the loop of `initialize_ept`. -/
theorem initializePde_packedOn (mtrrState : MtrrState) {done : List (Fin 512 × Fin 512)}
    {pages : EptPages} {i j : Fin 512} (h : PackedOn done pages) (hnot : (i, j) ∉ done) :
    ∃ new, initializePde mtrrState pages (i, j) = .ok new ∧ PackedOn (done ++ [(i, j)]) new := by
  have hlarge := fun e => packedOn_setLarge h hnot e
  unfold initializePde
  simp only [setPde_setPde]
  generalize getMtrrRangeMemoryType mtrrState _ _ = range
  split
  · exact ⟨_, rfl, (hlarge _).append _⟩
  · split
    · exact ⟨_, rfl, (hlarge _).append _⟩
    · rename_i pages' t hs
      obtain ⟨typed, htyped, hr⟩ := typeTable_ok mtrrState (Retyped.refl pages') t
      have hnew : PackedOn (done ++ [(i, j)]) pages' := by
        have htable := tableOf_splitPde hs
        obtain ⟨_, _, _, hcase⟩ := splitPde_some_iff hs
        have hcount : pages'.splitPteUsed = pages.splitPteUsed + 1 := by cases hcase; rfl
        have hval : t.val = pages.splitPteUsed := by cases hcase; rfl
        intro t' ht'
        -- The table of this PDE is new, and those before it belong to the
        -- indices already done.
        by_cases heq : t' = t
        · refine ⟨(i, j), List.mem_append_right _ List.mem_cons_self, ?_⟩
          rw [htable, if_pos ⟨rfl, rfl⟩, heq]
        · have hne : t'.val ≠ t.val := fun hv => heq (Fin.ext hv)
          obtain ⟨ij, hmem, hold⟩ := hlarge (identityPde i j) t'
            (show t'.val < pages.splitPteUsed by omega)
          refine ⟨ij, List.mem_append_left _ hmem, ?_⟩
          rw [htable, if_neg (ne_of_mem hnot hmem)]
          exact hold
      refine ⟨typed, htyped, ?_⟩
      obtain ⟨s, rfl, _⟩ := hr
      exact hnew

/-- A new view. By induction on the PDEs, each of which takes a table at
most. -/
theorem initializeEpt_kept (frames : TableFrames) (mtrrState : MtrrState) :
    Kept (initializeEpt frames mtrrState) := by
  have hshows := initializeEpt_pair frames frames mtrrState
  refine ⟨hshows.wf, ?_, fun q => ?_⟩
  · have hloop : ∃ new,
        pdeIndices.foldlM (initializePde mtrrState) (EptPages.zeroed frames) = .ok new ∧
        PackedOn pdeIndices new := by
      refine Loop.rule_ok PackedOn (fun _ ht => absurd ht (Nat.not_lt_zero _))
        fun done ij rest pages hxs hI => ?_
      have hnodup := pdeIndices_nodup
      rw [hxs] at hnodup
      -- No PDE is initialised twice.
      have hnot : ij ∉ done := by
        intro hmem
        exact (List.nodup_append.mp hnodup).2.2 ij hmem ij List.mem_cons_self rfl
      exact initializePde_packedOn mtrrState hI hnot
    obtain ⟨new, hnew, hI⟩ := hloop
    intro t ht
    unfold initializeEpt at ht ⊢
    rw [hnew] at ht ⊢
    obtain ⟨ij, _, htable⟩ := hI t ht
    exact ⟨ij.1, ij.2, htable⟩
  · rw [hshows.view]
    exact fun _ => rfl

/-- After any operations on two new views both of them are intact. -/
theorem operations_intact (framesNormal framesTarget : TableFrames)
    (mtrrNormal mtrrTarget : MtrrState) (ops : List ViewsOp) {views : EptViews}
    (hrun : operationMachine.run
      ⟨initializeEpt framesNormal mtrrNormal, initializeEpt framesTarget mtrrTarget⟩ ops =
        some views) :
    Intact views.normal ∧ Intact views.target := by
  have h : BothKept views := operationMachine.invariant_of_run
    (fun _ _ _ hI hnext => bothKept_next hI hnext)
    ⟨initializeEpt_kept framesNormal mtrrNormal, initializeEpt_kept framesTarget mtrrTarget⟩ hrun
  exact ⟨h.normal.intact, h.target.intact⟩

/-- A hook, its swap and a re-arming of the other view. -/
def oneHookOps : List ViewsOp :=
  [.normal (.addHook 5 6), .normal (.swapHook 5 true), .target .reactivateHooks]

/-- They can be run on the tables of the small vCPU. -/
theorem operations_intact_oneHook : ∃ views,
    operationMachine.run
      ⟨initializeEpt plainSetup.framesNormal plainSetup.mtrrState,
        initializeEpt plainSetup.framesTarget plainSetup.mtrrState⟩ oneHookOps = some views ∧
      Intact views.normal := by
  have hrun : ∃ views, operationMachine.run
      ⟨initializeEpt plainSetup.framesNormal plainSetup.mtrrState,
        initializeEpt plainSetup.framesTarget plainSetup.mtrrState⟩ oneHookOps = some views :=
    ⟨_, rfl⟩
  obtain ⟨views, hrun⟩ := hrun
  exact ⟨views, hrun, (operations_intact _ _ _ _ oneHookOps hrun).1⟩

end Revhv.Ept

namespace Revhv.Vmexit

open Revhv.Ept

/-- The view in use after an edit, the other one as it was. -/
def Vcpu.editCurrent (v : Vcpu) (edit : EptPages → EptPages) : EptViews :=
  if v.inNormalExecution then { v.ept with normal := edit v.ept.normal }
  else { v.ept with target := edit v.ept.target }

/-- The violation handler edits the view in use by `swapHook`, and
nothing else. -/
theorem ept_handleEptViolation {v v' : Vcpu} {exit : EptViolation}
    (h : handleEptViolation v exit = some v') :
    v'.ept = v.editCurrent fun pages =>
      swapHook pages (Memory.toPfn exit.physicalAddress) exit.executeAccess := by
  -- A flip of the view writes no entry.
  have hflip : flipView v exit = some v' → v'.ept = v.ept := by
    intro hflip
    unfold flipView at hflip
    split at hflip
    · split at hflip
      · cases hflip
        rfl
      · cases hflip
        rfl
    · cases hflip
  have hsame : swapHook v.currentEptPages (Memory.toPfn exit.physicalAddress) exit.executeAccess =
      v.currentEptPages → v.editCurrent (fun pages => swapHook pages
        (Memory.toPfn exit.physicalAddress) exit.executeAccess) = v.ept := by
    intro hswap
    unfold Vcpu.editCurrent
    unfold Vcpu.currentEptPages at hswap
    split
    · rename_i hin
      rw [if_pos hin] at hswap
      show EptViews.mk (swapHook v.ept.normal _ _) v.ept.target = v.ept
      rw [hswap]
    · rename_i hin
      rw [if_neg hin] at hswap
      show EptViews.mk v.ept.normal (swapHook v.ept.target _ _) = v.ept
      rw [hswap]
  unfold handleEptViolation at h
  -- The code looks for the first hook of the frame, active or not.
  cases hfind : getHookByOrigPfn v.currentEptPages (Memory.toPfn exit.physicalAddress) with
  | none =>
    rw [hfind] at h
    rw [hflip h, hsame (by simp only [swapHook, hfind])]
  | some hook =>
    rw [hfind] at h
    obtain ⟨origPfn, hookPfn, pte⟩ := hook
    cases pte with
    | none => rw [hflip h, hsame (by simp only [swapHook, hfind])]
    | some pte =>
      cases h
      unfold Vcpu.editCurrent
      unfold Vcpu.currentEptPages at hfind
      show (v.writeCurrentPte pte _).ept = _
      unfold Vcpu.writeCurrentPte
      simp only
      split
      · rename_i hin
        rw [if_pos hin] at hfind
        simp only [swapHook, hfind]
      · rename_i hin
        rw [if_neg hin] at hfind
        simp only [swapHook, hfind]

end Revhv.Vmexit
