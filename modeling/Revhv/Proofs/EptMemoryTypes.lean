import Revhv.Proofs.EptRefinement

/-!
# `Revhv.Proofs.EptMemoryTypes`: building the views and typing them

`initialize_ept` and `update_ept_memory_types` split PDEs and set memory
types. Seen as guarded views they build the identity map and change
nothing.

* `initializeEpt_pair`: two views built for one MTRR state map every
  page to itself with full access, and are in lockstep.
* `updateEptMemoryTypes_pair`: an update keeps both views and their
  lockstep.
* `initializeEpt_used`: with the MTRRs off no table is used up.

The early returns for a 4 KB page of mixed type are never taken
(`typeTable_ok`).
-/

set_option autoImplicit false

namespace Revhv.Ept

open Revhv.Lib Revhv.Memory

/-! ### Typing the entries of a table -/

/-- A mapping does not show the memory type. -/
@[simp] theorem mapping_withMemoryType (e : EptPte) (type : Nat) :
    (e.withMemoryType type).mapping = e.mapping := rfl

/-- The second view has other memory types in its tables, and nothing
else. -/
def Retyped (pages pages' : EptPages) : Prop :=
  ∃ s, pages' = pages.withPtes s ∧ ∀ t k, (s t k).mapping = (pages.splitPte t k).mapping

/-- One entry. A single page is always uniform, so the loop goes on. -/
theorem typePte_ok (mtrrState : MtrrState) (t : Fin eptSplitPteCount) {pages pages' : EptPages}
    (h : Retyped pages pages') (k : Fin 512) :
    ∃ new, typePte mtrrState t pages' k = .ok new ∧ Retyped pages new := by
  obtain ⟨s, rfl, hmap⟩ := h
  unfold typePte
  simp only [rangeMemoryType_page, Bool.not_true, Bool.false_eq_true, if_false]
  refine ⟨_, rfl, _, rfl, fun t' k' => ?_⟩
  show (Function.update s t (Function.update (s t) k _) t' k').mapping = _
  -- One entry gets a new type, and what it maps stays.
  by_cases ht : t' = t
  · subst ht
    rw [Function.update_self]
    by_cases hk : k' = k
    · subst hk
      rw [Function.update_self]
      exact hmap t' k'
    · rw [Function.update_of_ne hk]
      exact hmap t' k'
  · rw [Function.update_of_ne ht]
    exact hmap t' k'

/-- A whole table. -/
theorem typeTable_ok (mtrrState : MtrrState) {pages pages' : EptPages}
    (h : Retyped pages pages') (t : Fin eptSplitPteCount) :
    ∃ new, typeTable mtrrState pages' t = .ok new ∧ Retyped pages new :=
  Loop.rule_ok (fun _ new => Retyped pages new) h
    fun _ k _ _ _ hI => typePte_ok mtrrState t hI k

/-- Nothing has to change. -/
theorem Retyped.refl (pages : EptPages) : Retyped pages pages :=
  ⟨pages.splitPte, rfl, fun _ _ => rfl⟩

section
variable {pages pages' : EptPages}

/-- New types keep a view in order. -/
theorem Retyped.wf (hr : Retyped pages pages') (h : pages.WF) : pages'.WF := by
  obtain ⟨s, rfl, _⟩ := hr
  exact wf_withPtes h s

/-- The view does not show types. -/
theorem Retyped.view (hr : Retyped pages pages') (h : pages.WF) : pages'.view = pages.view := by
  obtain ⟨s, rfl, hmap⟩ := hr
  show View.mk _ _ = View.mk _ _
  congr 1
  funext q
  have hptr : (pages.withPtes s).ptr q = pages.ptr q := rfl
  cases hq : pages.ptr q with
  | some p =>
    rw [walk_of_ptr (wf_withPtes h s) (hptr.trans hq), walk_of_ptr h hq]
    exact hmap p.1 p.2
  | none =>
    obtain ⟨e, hpde, hwalk⟩ := walk_of_ptr_none h hq
    obtain ⟨e', hpde', hwalk'⟩ := walk_of_ptr_none (wf_withPtes h s) (hptr.trans hq)
    have hsame : EptPdeSlot.large e = .large e' := hpde.symm.trans hpde'
    cases hsame
    rw [hwalk, hwalk']

/-- New types keep two views in lockstep. -/
theorem Retyped.lockstep {other other' : EptPages} (hr : Retyped pages pages')
    (hr' : Retyped other other') (h : Lockstep pages other) : Lockstep pages' other' := by
  obtain ⟨s, rfl, _⟩ := hr
  obtain ⟨s', rfl, _⟩ := hr'
  exact ⟨h.used, h.table, h.hooks⟩

end

/-! ### One PDE -/

/-- A PDE is stored at its own index. -/
theorem pde_setPde (pages : EptPages) (i j i' j' : Fin 512) (e : EptPdeSlot) :
    (pages.setPde i j e).pde i' j' = if i' = i ∧ j' = j then e else pages.pde i' j' := by
  show Function.update pages.pde i (Function.update (pages.pde i) j e) i' j' = _
  by_cases hi : i' = i
  · subst hi
    rw [Function.update_self]
    by_cases hj : j' = j
    · rw [hj, Function.update_self, if_pos ⟨rfl, rfl⟩]
    · rw [Function.update_of_ne hj, if_neg fun h => hj h.2]
  · rw [Function.update_of_ne hi, if_neg fun h => hi h.1]

section
variable {pages : EptPages} {i j : Fin 512} {e : EptPte}

/-- A large PDE with another memory type is no other shape. -/
theorem tableOf_setMemoryType (hpde : pages.pde i j = .large e) (type : Nat) :
    (pages.setPde i j (.large (e.withMemoryType type))).tableOf = pages.tableOf := by
  funext i' j'
  simp only [EptPages.tableOf, pde_setPde]
  split
  · rename_i h
    split at h
    · rename_i hij
      rw [hij.1, hij.2, hpde]
    · rw [h]
  · rename_i h
    split at h
    · cases h
    · rw [h]
      rfl

/-- A large PDE with another type keeps the view in order: its frame is
the same. -/
theorem wf_setMemoryType (h : pages.WF) (hpde : pages.pde i j = .large e) (type : Nat) :
    (pages.setPde i j (.large (e.withMemoryType type))).WF := by
  have htable := tableOf_setMemoryType hpde type
  -- No PDE changes between large and split here.
  have hptr : (pages.setPde i j (.large (e.withMemoryType type))).ptr = pages.ptr := by
    funext q
    unfold EptPages.ptr
    rw [htable]
  refine ⟨fun i' j' e' he' => ?_, fun i' j' e' he' => ?_, ?_, h.used_le, ?_⟩
  · rw [pde_setPde] at he'
    split at he'
    · rename_i hij
      cases he'
      rw [hij.1, hij.2]
      exact h.large i j e hpde
    · exact h.large i' j' e' he'
  · rw [pde_setPde] at he'
    split at he'
    · cases he'
    · exact h.split i' j' e' he'
  · rw [htable]
    exact h.unique
  · rw [hptr]
    exact h.hook

/-- The view does not show the type of a large PDE. -/
theorem view_setMemoryType (hpde : pages.pde i j = .large e) (type : Nat) :
    (pages.setPde i j (.large (e.withMemoryType type))).view = pages.view := by
  show View.mk _ _ = View.mk _ _
  congr 1
  funext q
  simp only [EptPages.walk, pde_setPde]
  by_cases hij : q.pdpt = i ∧ q.pd = j
  · simp only [hij, and_self, if_true, hpde]
    rfl
  · simp only [hij, if_false]
    rfl

end

/-! ### `update_ept_memory_types` -/

/-- The two views are well formed, of one shape, and show `normal` and
`target`. -/
structure Shows (normal target : View GuestPage Nat) (pages pages' : EptPages) : Prop where
  wf : pages.WF
  wf' : pages'.WF
  lockstep : Lockstep pages pages'
  view : pages.view = normal
  view' : pages'.view = target

section
variable {normal target : View GuestPage Nat} {pages pages' : EptPages}

/-- One PDE in both views: the same type, and the same split. -/
theorem updatePde_shows (mtrrState : MtrrState) (i j : Fin 512)
    (h : Shows normal target pages pages') :
    Shows normal target (updatePde mtrrState i pages j) (updatePde mtrrState i pages' j) := by
  have htable := h.lockstep.table i j
  -- A PDE that is split already keeps the types its table was filled with.
  cases ht : pages.tableOf i j with
  | some t =>
    have hpde := (pde_of_tableOf_some h.wf ht).1
    have hpde' := (pde_of_tableOf_some h.wf' (htable ▸ ht)).1
    simp only [updatePde, hpde, hpde']
    exact h
  | none =>
    obtain ⟨e, hpde⟩ := pde_of_tableOf_none h.wf ht
    obtain ⟨e', hpde'⟩ := pde_of_tableOf_none h.wf' (htable ▸ ht)
    simp only [updatePde, hpde, hpde', h.wf.large i j e hpde, h.wf'.large i j e' hpde']
    have hretype : ∀ type, Shows normal target
        (pages.setPde i j (.large (e.withMemoryType type)))
        (pages'.setPde i j (.large (e'.withMemoryType type))) := by
      intro type
      refine ⟨wf_setMemoryType h.wf hpde type, wf_setMemoryType h.wf' hpde' type,
        ⟨h.lockstep.used, fun i' j' => ?_, h.lockstep.hooks⟩,
        (view_setMemoryType hpde type).trans h.view, (view_setMemoryType hpde' type).trans h.view'⟩
      rw [tableOf_setMemoryType hpde, tableOf_setMemoryType hpde']
      exact h.lockstep.table i' j'
    split
    · exact hretype _
    · cases lockstep_splitPde h.wf h.wf' h.lockstep i j with
      | inl hnone =>
        simp only [hnone.1, hnone.2]
        exact hretype _
      | inr hsome =>
        obtain ⟨new, new', t, hs, hs', hlock⟩ := hsome
        simp only [hs, hs']
        -- Splitting maps nothing anew.
        have hview : ∀ {old fresh : EptPages}, old.WF → splitPde old i j = some (fresh, t) →
            fresh.view = old.view := by
          intro old fresh hwf hsplit
          show View.mk _ _ = View.mk _ _
          rw [walk_splitPde hwf hsplit, hooks_splitPde hsplit]
        exact ⟨wf_splitPde h.wf hs, wf_splitPde h.wf' hs', hlock, (hview h.wf hs).trans h.view,
          (hview h.wf' hs').trans h.view'⟩

/-- One directory and all tables, in both views. -/
theorem updatePd_shows (mtrrState : MtrrState) (i : Fin 512)
    (h : Shows normal target pages pages') :
    ∃ new new', updatePd mtrrState pages i = .ok new ∧ updatePd mtrrState pages' i = .ok new' ∧
      Shows normal target new new' := by
  have hpdes := Loop.rel_foldl (fun j _ _ hR => updatePde_shows mtrrState i j hR)
    (List.finRange 512) h
  unfold updatePd
  simp only [hpdes.lockstep.used]
  refine Loop.rel_ok (fun _ new new' => Shows normal target new new') hpdes
    fun _ t _ new new' _ hR => ?_
  obtain ⟨typed, htyped, hr⟩ := typeTable_ok mtrrState (Retyped.refl new) t
  obtain ⟨typed', htyped', hr'⟩ := typeTable_ok mtrrState (Retyped.refl new') t
  exact ⟨typed, typed', htyped, htyped', hr.wf hR.wf, hr'.wf hR.wf',
    hr.lockstep hr' hR.lockstep, (hr.view hR.wf).trans hR.view, (hr'.view hR.wf').trans hR.view'⟩

/-- An update of both views changes neither of them. -/
theorem updateEptMemoryTypes_pair (mtrrState : MtrrState)
    (h : Shows normal target pages pages') :
    Shows normal target (updateEptMemoryTypes pages mtrrState)
      (updateEptMemoryTypes pages' mtrrState) := by
  obtain ⟨new, new', hnew, hnew', hR⟩ :=
    Loop.rel_ok (fun _ new new' => Shows normal target new new') h
      fun _ i _ _ _ _ hR => updatePd_shows mtrrState i hR
  unfold updateEptMemoryTypes
  rw [hnew, hnew']
  exact hR

end

/-! ### `initialize_ept` -/

/-- The view that maps every page to itself with full access. -/
def identityView : View GuestPage Nat := ⟨fun q => ⟨true, true, true, q.frame⟩, []⟩

/-- The PDEs in `done` are built, the others may hold anything. -/
structure Initialized (done : List (Fin 512 × Fin 512)) (pages : EptPages) : Prop where
  entry : ∀ ij ∈ done,
    (∃ e, pages.pde ij.1 ij.2 = .large e ∧ e.mapping = (identityPde ij.1 ij.2).mapping) ∨
    ∃ t : Fin eptSplitPteCount, t.val < pages.splitPteUsed ∧
      pages.pde ij.1 ij.2 = .split (tablePde (pages.splitPtePfns.frame t)) ∧
      ∀ k, (pages.splitPte t k).mapping = ((identityPde ij.1 ij.2).piece k).mapping
  unique : ∀ ij ∈ done, ∀ ij' ∈ done, ∀ t, pages.tableOf ij.1 ij.2 = some t →
    pages.tableOf ij'.1 ij'.2 = some t → ij = ij'
  used_le : pages.splitPteUsed ≤ eptSplitPteCount
  hooks : pages.hooks = []

section
variable {done : List (Fin 512 × Fin 512)} {pages : EptPages} {i j : Fin 512}

/-- A large PDE has no table, and the other PDEs keep theirs. -/
theorem tableOf_setLarge (e : EptPte) (i' j' : Fin 512) :
    (pages.setPde i j (.large e)).tableOf i' j' =
      if i' = i ∧ j' = j then none else pages.tableOf i' j' := by
  simp only [EptPages.tableOf, pde_setPde]
  by_cases h : i' = i ∧ j' = j
  · simp only [h, and_self, if_true]
  · simp only [h, if_false]
    rfl

/-- A fresh index is none of the old ones. -/
theorem ne_of_mem {ij : Fin 512 × Fin 512} (hnot : (i, j) ∉ done) (h : ij ∈ done) :
    ¬ (ij.1 = i ∧ ij.2 = j) :=
  fun heq => hnot ((Prod.ext heq.1 heq.2 : ij = (i, j)) ▸ h)

/-- An index that is not the last one is an old one. -/
theorem mem_of_ne {ij : Fin 512 × Fin 512} (h : ij ∈ done ++ [(i, j)])
    (hne : ¬ (ij.1 = i ∧ ij.2 = j)) : ij ∈ done := by
  cases List.mem_append.mp h with
  | inl hold => exact hold
  | inr hnew =>
    rw [List.mem_singleton] at hnew
    exact (hne ⟨congrArg Prod.fst hnew, congrArg Prod.snd hnew⟩).elim

/-- Anything may be stored at a fresh index. -/
theorem initialized_setPde (h : Initialized done pages) (hnot : (i, j) ∉ done) (e : EptPdeSlot) :
    Initialized done (pages.setPde i j e) := by
  have hold : ∀ ij ∈ done, (pages.setPde i j e).pde ij.1 ij.2 = pages.pde ij.1 ij.2 := by
    intro ij hmem
    rw [pde_setPde, if_neg (ne_of_mem hnot hmem)]
  have htable : ∀ ij ∈ done,
      (pages.setPde i j e).tableOf ij.1 ij.2 = pages.tableOf ij.1 ij.2 := by
    intro ij hmem
    simp only [EptPages.tableOf, hold ij hmem]
    rfl
  refine ⟨fun ij hmem => ?_, fun ij hmem ij' hmem' t ht ht' => ?_, h.used_le, h.hooks⟩
  · rw [hold ij hmem]
    exact h.entry ij hmem
  · rw [htable ij hmem] at ht
    rw [htable ij' hmem'] at ht'
    exact h.unique ij hmem ij' hmem' t ht ht'

/-- A large PDE at a fresh index. -/
theorem initialized_large (h : Initialized done pages) (hnot : (i, j) ∉ done) {e : EptPte}
    (he : e.mapping = (identityPde i j).mapping) :
    Initialized (done ++ [(i, j)]) (pages.setPde i j (.large e)) := by
  have hdone := initialized_setPde h hnot (.large e)
  refine ⟨fun ij hmem => ?_, fun ij hmem ij' hmem' t ht ht' => ?_, h.used_le, h.hooks⟩
  · cases List.mem_append.mp hmem with
    | inl hold => exact hdone.entry ij hold
    | inr hnew =>
      rw [List.mem_singleton] at hnew
      subst hnew
      exact Or.inl ⟨e, by rw [pde_setPde, if_pos ⟨rfl, rfl⟩], he⟩
  · -- Both have a table, so neither of them is the new PDE.
    rw [tableOf_setLarge] at ht ht'
    split at ht
    · cases ht
    · split at ht'
      · cases ht'
      · rename_i hne hne'
        exact h.unique ij (mem_of_ne hmem hne) ij' (mem_of_ne hmem' hne') t ht ht'

/-- A table at the index whose large PDE was built last. -/
theorem initialized_split (h : Initialized done pages) (hnot : (i, j) ∉ done) {e : EptPte}
    (he : e.mapping = (identityPde i j).mapping) (hpde : pages.pde i j = .large e)
    {pages' : EptPages} {t : Fin eptSplitPteCount} (hs : splitPde pages i j = some (pages', t)) :
    Initialized (done ++ [(i, j)]) pages' := by
  have htable := tableOf_splitPde hs
  have hhooks := hooks_splitPde hs
  obtain ⟨e', hpde', hused, hr⟩ := splitPde_some_iff hs
  have hee : e' = e := by
    rw [hpde'] at hpde
    cases hpde
    rfl
  subst hee
  -- Tables are handed out in order, so those done so far have smaller numbers.
  have hfresh : ∀ ij ∈ done, pages.tableOf ij.1 ij.2 ≠ some t := by
    intro ij hmem ht
    cases hr
    cases h.entry ij hmem with
    | inl hlarge =>
      obtain ⟨e₁, hp, _⟩ := hlarge
      simp only [EptPages.tableOf, hp] at ht
      cases ht
    | inr hsplit =>
      obtain ⟨t', hlt, hp, _⟩ := hsplit
      simp only [EptPages.tableOf, hp, tablePde, tableAt_frame] at ht
      cases ht
      exact lt_irrefl _ hlt
  have hpdeNew : ∀ i' j', pages'.pde i' j' =
      if i' = i ∧ j' = j then .split (tablePde (pages.splitPtePfns.frame t))
      else pages.pde i' j' := by
    intro i' j'
    cases hr
    exact pde_setPde pages i j i' j' _
  have hpte : ∀ t', pages'.splitPte t' = if t' = t then e'.piece else pages.splitPte t' := by
    intro t'
    cases hr
    exact Function.update_apply _ _ _ _
  have hpfns : pages'.splitPtePfns = pages.splitPtePfns := by cases hr; rfl
  have hcount : pages'.splitPteUsed = pages.splitPteUsed + 1 := by cases hr; rfl
  have hval : t.val = pages.splitPteUsed := by cases hr; rfl
  -- The new PDE has the new table. The rest of the list is as it was.
  refine ⟨fun ij hmem => ?_, fun ij hmem ij' hmem' t' ht ht' => ?_, by omega, ?_⟩
  · cases List.mem_append.mp hmem with
    | inl hmem =>
      rw [hpdeNew, if_neg (ne_of_mem hnot hmem)]
      cases h.entry ij hmem with
      | inl hlarge => exact Or.inl hlarge
      | inr hsplit =>
        obtain ⟨t', hlt, hp, hmap⟩ := hsplit
        have hne : t' ≠ t := by
          intro heq
          rw [heq, hval] at hlt
          exact lt_irrefl _ hlt
        refine Or.inr ⟨t', by omega, by rw [hpfns]; exact hp, fun k => ?_⟩
        rw [hpte, if_neg hne]
        exact hmap k
    | inr hnew =>
      rw [List.mem_singleton] at hnew
      subst hnew
      refine Or.inr ⟨t, by omega, ?_, fun k => ?_⟩
      · rw [hpdeNew, if_pos ⟨rfl, rfl⟩, hpfns]
      · rw [hpte, if_pos rfl]
        simp only [EptPte.mapping, Mapping.mk.injEq] at he
        simp only [EptPte.mapping, EptPte.piece, he]
  · rw [htable] at ht ht'
    split at ht
    · rename_i hij
      split at ht'
      · rename_i hij'
        exact Prod.ext (hij.1.trans hij'.1.symm) (hij.2.trans hij'.2.symm)
      · rename_i hne'
        cases ht
        exact (hfresh ij' (mem_of_ne hmem' hne') ht').elim
    · rename_i hne
      split at ht'
      · cases ht'
        exact (hfresh ij (mem_of_ne hmem hne) ht).elim
      · rename_i hne'
        exact h.unique ij (mem_of_ne hmem hne) ij' (mem_of_ne hmem' hne') t' ht ht'
  · rw [hhooks]
    exact h.hooks

/-- Typing a table keeps what the loop has built. -/
theorem Retyped.initialized {pages' : EptPages} (hr : Retyped pages pages')
    (h : Initialized done pages) : Initialized done pages' := by
  obtain ⟨s, rfl, hmap⟩ := hr
  refine ⟨fun ij hmem => ?_, h.unique, h.used_le, h.hooks⟩
  cases h.entry ij hmem with
  | inl hlarge => exact Or.inl hlarge
  | inr hsplit =>
    obtain ⟨t, hlt, hp, hentry⟩ := hsplit
    exact Or.inr ⟨t, hlt, hp, fun k => (hmap t k).trans (hentry k)⟩

end

/-- Two views that are built so far, of one shape. -/
structure Building (done : List (Fin 512 × Fin 512)) (pages pages' : EptPages) : Prop where
  built : Initialized done pages
  built' : Initialized done pages'
  used : pages.splitPteUsed = pages'.splitPteUsed
  table : ∀ ij ∈ done, pages.tableOf ij.1 ij.2 = pages'.tableOf ij.1 ij.2

/-- Of two stores at one index the second one counts. -/
theorem setPde_setPde (pages : EptPages) (i j : Fin 512) (e e' : EptPdeSlot) :
    (pages.setPde i j e).setPde i j e' = pages.setPde i j e' := by
  simp only [EptPages.setPde, Function.update_self, Function.update_idem]

section
variable {done : List (Fin 512 × Fin 512)} {pages pages' : EptPages} {i j : Fin 512}

/-- Large PDEs at a fresh index, in both views. -/
theorem building_large (h : Building done pages pages') (hnot : (i, j) ∉ done) {e : EptPte}
    (he : e.mapping = (identityPde i j).mapping) :
    Building (done ++ [(i, j)]) (pages.setPde i j (.large e))
      (pages'.setPde i j (.large e)) where
  built := initialized_large h.built hnot he
  built' := initialized_large h.built' hnot he
  used := h.used
  table ij hmem := by
    rw [tableOf_setLarge, tableOf_setLarge]
    split
    · rfl
    · exact h.table ij (mem_of_ne hmem ‹_›)

/-- One PDE in both views. -/
theorem initializePde_building (mtrrState : MtrrState) (h : Building done pages pages')
    (hnot : (i, j) ∉ done) :
    ∃ new new', initializePde mtrrState pages (i, j) = .ok new ∧
      initializePde mtrrState pages' (i, j) = .ok new' ∧
      Building (done ++ [(i, j)]) new new' := by
  unfold initializePde
  simp only [setPde_setPde]
  -- Both views ask for the type of the same 2 MB.
  generalize getMtrrRangeMemoryType mtrrState _ _ = range
  split
  · exact ⟨_, _, rfl, rfl, building_large h hnot (mapping_withMemoryType _ _)⟩
  · have hbase := initialized_setPde h.built hnot (.large (identityPde i j))
    have hbase' := initialized_setPde h.built' hnot (.large (identityPde i j))
    have hpde : (pages.setPde i j (.large (identityPde i j))).pde i j =
        .large (identityPde i j) := by rw [pde_setPde, if_pos ⟨rfl, rfl⟩]
    have hpde' : (pages'.setPde i j (.large (identityPde i j))).pde i j =
        .large (identityPde i j) := by rw [pde_setPde, if_pos ⟨rfl, rfl⟩]
    by_cases hused : pages.splitPteUsed < eptSplitPteCount
    · have hused' : pages'.splitPteUsed < eptSplitPteCount := h.used ▸ hused
      have hs := splitPde_eq_some hpde hused
      have hs' := splitPde_eq_some hpde' hused'
      have hbuilt := initialized_split hbase hnot rfl hpde hs
      have hbuilt' := initialized_split hbase' hnot rfl hpde' hs'
      simp only [hs, hs']
      obtain ⟨typed, htyped, hr⟩ := typeTable_ok mtrrState (Retyped.refl _) ⟨_, hused⟩
      obtain ⟨typed', htyped', hr'⟩ := typeTable_ok mtrrState (Retyped.refl _) ⟨_, hused'⟩
      refine ⟨typed, typed', htyped, htyped', hr.initialized hbuilt, hr'.initialized hbuilt', ?_,
        fun ij hmem => ?_⟩
      · obtain ⟨_, rfl, _⟩ := hr
        obtain ⟨_, rfl, _⟩ := hr'
        exact congrArg Nat.succ h.used
      · obtain ⟨_, rfl, _⟩ := hr
        obtain ⟨_, rfl, _⟩ := hr'
        refine (tableOf_splitPde hs ij.1 ij.2).trans
          (Eq.trans ?_ (tableOf_splitPde hs' ij.1 ij.2).symm)
        split
        · exact congrArg some (Fin.ext h.used)
        · rw [tableOf_setLarge, tableOf_setLarge]
          split
          · rfl
          · exact h.table ij (mem_of_ne hmem ‹_›)
    · have hused' : ¬ pages'.splitPteUsed < eptSplitPteCount := h.used ▸ hused
      have hnone : splitPde (pages.setPde i j (.large (identityPde i j))) i j = none := by
        simp only [splitPde, hpde]
        exact dif_neg hused
      have hnone' : splitPde (pages'.setPde i j (.large (identityPde i j))) i j = none := by
        simp only [splitPde, hpde']
        exact dif_neg hused'
      simp only [hnone, hnone']
      exact ⟨_, _, rfl, rfl, building_large h hnot (mapping_withMemoryType _ _)⟩

end

/-- The loop goes over every PDE. -/
theorem mem_pdeIndices (i j : Fin 512) : (i, j) ∈ pdeIndices :=
  List.mem_product.mpr ⟨List.mem_finRange i, List.mem_finRange j⟩

/-- It goes over each of them once. -/
theorem pdeIndices_nodup : pdeIndices.Nodup :=
  List.Nodup.product (List.nodup_finRange 512) (List.nodup_finRange 512)

/-- A view whose PDEs are all built is well formed. -/
theorem wf_of_initialized {pages : EptPages} (h : Initialized pdeIndices pages) : pages.WF where
  large i j e he := by
    -- Every PDE has been initialised, as large or with a table.
    cases h.entry (i, j) (mem_pdeIndices i j) with
    | inl hlarge =>
      obtain ⟨e', hpde, hmap⟩ := hlarge
      rw [he] at hpde
      cases hpde
      exact congrArg Mapping.frame hmap
    | inr hsplit =>
      obtain ⟨_, _, hpde, _⟩ := hsplit
      rw [he] at hpde
      cases hpde
  split i j e he := by
    cases h.entry (i, j) (mem_pdeIndices i j) with
    | inl hlarge =>
      obtain ⟨_, hpde, _⟩ := hlarge
      rw [he] at hpde
      cases hpde
    | inr hsplit =>
      obtain ⟨t, hlt, hpde, _⟩ := hsplit
      rw [he] at hpde
      cases hpde
      exact ⟨t, hlt, rfl⟩
  unique i j i' j' t ht ht' := by
    have heq := h.unique (i, j) (mem_pdeIndices i j) (i', j') (mem_pdeIndices i' j') t ht ht'
    exact Prod.mk.inj heq
  used_le := h.used_le
  hook := by
    rw [h.hooks]
    exact fun _ hmem => absurd hmem List.not_mem_nil

/-- A view whose PDEs are all built is the identity map. -/
theorem view_of_initialized {pages : EptPages} (h : Initialized pdeIndices pages) :
    pages.view = identityView := by
  show View.mk _ _ = View.mk _ _
  rw [h.hooks]
  congr 1
  funext q
  -- Large or split, a PDE maps its own 2 MB.
  cases h.entry (q.pdpt, q.pd) (mem_pdeIndices _ _) with
  | inl hlarge =>
    obtain ⟨e, hpde, hmap⟩ := hlarge
    simp only [EptPte.mapping, identityPde, Mapping.mk.injEq] at hmap
    simp only [EptPages.walk, hpde, EptPte.mapping, EptPte.piece, hmap]
    rfl
  | inr hsplit =>
    obtain ⟨t, _, hpde, hmap⟩ := hsplit
    have hpte := hmap q.pt
    simp only [EptPte.mapping, identityPde, EptPte.piece, Mapping.mk.injEq] at hpte
    simp only [EptPages.walk, hpde, tablePde, tableAt_frame, EptPte.mapping, EptPte.withAccess,
      hpte]
    rfl

/-- Two views built for one MTRR state: the identity map twice, in
lockstep. -/
theorem initializeEpt_pair (frames frames' : TableFrames) (mtrrState : MtrrState) :
    Shows identityView identityView (initializeEpt frames mtrrState)
      (initializeEpt frames' mtrrState) := by
  have hstart : Building [] (EptPages.zeroed frames) (EptPages.zeroed frames') :=
    { built := ⟨by simp, by simp, Nat.zero_le _, rfl⟩
      built' := ⟨by simp, by simp, Nat.zero_le _, rfl⟩
      used := rfl
      table := by simp }
  have hloop : ∃ new new',
      pdeIndices.foldlM (initializePde mtrrState) (EptPages.zeroed frames) = .ok new ∧
      pdeIndices.foldlM (initializePde mtrrState) (EptPages.zeroed frames') = .ok new' ∧
      Building pdeIndices new new' := by
    refine Loop.rel_ok Building hstart fun done ij rest pages pages' hxs hR => ?_
    have hnodup := pdeIndices_nodup
    rw [hxs] at hnodup
    -- Each PDE is initialised once.
    have hnot : ij ∉ done := by
      intro hmem
      exact (List.nodup_append.mp hnodup).2.2 ij hmem ij List.mem_cons_self rfl
    exact initializePde_building mtrrState hR hnot
  obtain ⟨new, new', hnew, hnew', hR⟩ := hloop
  unfold initializeEpt
  rw [hnew, hnew']
  exact ⟨wf_of_initialized hR.built, wf_of_initialized hR.built',
    ⟨hR.used, fun i j => hR.table (i, j) (mem_pdeIndices i j),
      hR.built.hooks.trans hR.built'.hooks.symm⟩,
    view_of_initialized hR.built, view_of_initialized hR.built'⟩

/-- With the MTRRs off every PDE is uniform, so no table is used up. -/
theorem initializeEpt_used (frames : TableFrames) {mtrrState : MtrrState}
    (h : mtrrState.mtrrEnable = false) : (initializeEpt frames mtrrState).splitPteUsed = 0 := by
  have hloop : ∃ new,
      pdeIndices.foldlM (initializePde mtrrState) (EptPages.zeroed frames) = .ok new ∧
      new.splitPteUsed = 0 := by
    refine Loop.rule_ok (fun _ (pages : EptPages) => pages.splitPteUsed = 0) rfl
      fun done ij rest pages _ hI => ?_
    have hbody : initializePde mtrrState pages ij = .ok ((pages.setPde ij.1 ij.2
        (.large (identityPde ij.1 ij.2))).setPde ij.1 ij.2
          (.large ((identityPde ij.1 ij.2).withMemoryType memoryTypeUncacheable))) := by
      unfold initializePde
      simp only [rangeMemoryType_of_const (memoryTypeSingle_of_disabled h), if_true]
    exact ⟨_, hbody, hI⟩
  obtain ⟨new, hnew, hused⟩ := hloop
  unfold initializeEpt
  rw [hnew]
  exact hused

end Revhv.Ept
