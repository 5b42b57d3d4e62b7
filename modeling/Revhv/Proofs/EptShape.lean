import Revhv.Km.Ept

/-!
# `Revhv.Proofs.EptShape`: which PDEs are split, and into which tables

The shape of a view is what its permissions sit on: the table behind
each split PDE, the number of tables in use, and the hooks with their
pointers. `EptPages.WF` is its invariant.

* `splitPde_eq_some` / `getEptPte_some`: a split takes the next free
  table, keeps the invariant and changes no mapping.
* `walk_writePte`: a write through the pointer of a page changes the
  mapping of that page and of no other.
* `Lockstep`: two views of one shape. `lockstep_getEptPte` says that a
  lookup has the same result in both.
-/

set_option autoImplicit false

namespace Revhv.Ept

open Revhv.Lib Revhv.Memory

/-! ### Guest pages -/

/-- A page below 512 GB has one of `2 ^ 27` frames. -/
theorem GuestPage.frame_lt (q : GuestPage) : q.frame < 2 ^ 27 := by
  have h1 := q.pdpt.isLt
  have h2 := q.pd.isLt
  have h3 := q.pt.isLt
  unfold GuestPage.frame
  omega

/-- The page of an address in the frame of `q` is `q`. -/
theorem pageOf_frame (q : GuestPage) {off : Nat} (hoff : off < 2 ^ 12) :
    pageOf (q.frame * 2 ^ 12 + off) = q := by
  have h1 := q.pdpt.isLt
  have h2 := q.pd.isLt
  have h3 := q.pt.isLt
  obtain ⟨i, j, k⟩ := q
  simp only [pageOf, GuestPage.frame, pdptIdx, pdIdx, ptIdx, GuestPage.mk.injEq, Fin.ext_iff,
    Fin.val_ofNat] at *
  omega

/-- The page at the start of a frame is that of the frame. -/
theorem pageOf_frame_zero (q : GuestPage) : pageOf (q.frame * 2 ^ 12) = q := by
  have h := pageOf_frame q (show 0 < 2 ^ 12 by decide)
  rwa [Nat.add_zero] at h

/-- Different pages have different frames. -/
theorem GuestPage.frame_injective : Function.Injective GuestPage.frame := by
  intro q q' h
  rw [← pageOf_frame_zero q, h, pageOf_frame_zero q']

/-- All of them are below 512 GB. -/
theorem pml4Idx_frame (q : GuestPage) : pml4Idx (q.frame * 2 ^ 12) = 0 := by
  have h := q.frame_lt
  simp only [pml4Idx, Fin.ext_iff, Fin.val_ofNat, Fin.val_zero]
  omega

/-- The frame number of an address below 512 GB. -/
theorem frame_pageOf {gpa : Nat} (h : gpa < 2 ^ 39) : (pageOf gpa).frame = toPfn gpa := by
  simp only [toPfn, pageOf, GuestPage.frame, pdptIdx, pdIdx, ptIdx, Fin.val_ofNat]
  omega

/-! ### Tables and pointers -/

/-- The window leads back to the table whose frame it is. -/
@[simp] theorem tableAt_frame (pages : EptPages) (t : Fin eptSplitPteCount) :
    pages.tableAt (pages.splitPtePfns.frame t) = some t := by
  unfold EptPages.tableAt
  have hsome : ((List.finRange eptSplitPteCount).find? fun t' =>
      pages.splitPtePfns.frame t' = pages.splitPtePfns.frame t).isSome := by
    rw [List.find?_isSome]
    exact ⟨t, List.mem_finRange t, by simp⟩
  obtain ⟨t', ht'⟩ := Option.isSome_iff_exists.mp hsome
  have hframe : pages.splitPtePfns.frame t' = pages.splitPtePfns.frame t := by
    simpa using List.find?_some ht'
  rw [ht', pages.splitPtePfns.injective hframe]

/-- The table behind the PDE at `i`, `j`, if it is split. -/
def EptPages.tableOf (pages : EptPages) (i j : Fin 512) : Option (Fin eptSplitPteCount) :=
  match pages.pde i j with
  | .large _ => none
  | .split e => pages.tableAt e.pageFrameNumber

/-- The pointer to the PTE of a page whose PDE is split. -/
def EptPages.ptr (pages : EptPages) (q : GuestPage) : Option PtePtr :=
  (pages.tableOf q.pdpt q.pd).map fun t => (t, q.pt)

/-- The entry is no longer a large one. -/
def EptPdeSlot.isSplit : EptPdeSlot → Bool
  | .large _ => false
  | .split _ => true

/-- The PDE at `i`, `j` is no longer a large one. -/
def EptPages.IsSplit (pages : EptPages) (i j : Fin 512) : Prop :=
  (pages.pde i j).isSplit = true

/-- Whether a PDE is split shows in the PDE. -/
instance (pages : EptPages) (i j : Fin 512) : Decidable (pages.IsSplit i j) :=
  inferInstanceAs (Decidable (_ = true))

/-- A PDE that `split_pde` has pointed to a table. -/
def tablePde (frame : Nat) : EptPde := ⟨true, true, true, true, frame⟩

/-- The shape invariant. -/
structure EptPages.WF (pages : EptPages) : Prop where
  /-- A large PDE maps the 2 MB it stands for. -/
  large : ∀ i j e, pages.pde i j = .large e → e.pageFrameNumber = (i : Nat) * 512 + j
  /-- A split PDE gives full access and points to a table in use. -/
  split : ∀ i j e, pages.pde i j = .split e →
    ∃ t : Fin eptSplitPteCount, t.val < pages.splitPteUsed ∧
      e = tablePde (pages.splitPtePfns.frame t)
  /-- Two split PDEs have two tables. -/
  unique : ∀ i j i' j' t, pages.tableOf i j = some t → pages.tableOf i' j' = some t →
    i = i' ∧ j = j'
  used_le : pages.splitPteUsed ≤ eptSplitPteCount
  /-- A hook is on a page whose PDE is split, and an active one points
  to its PTE. -/
  hook : ∀ h ∈ pages.hooks, ∃ q : GuestPage, h.origPfn = q.frame ∧ (pages.ptr q).isSome ∧
    (h.pte = none ∨ h.pte = pages.ptr q)

section
variable {pages : EptPages}

/-- A PDE without a table is a large one. -/
theorem pde_of_tableOf_none (h : pages.WF) {i j : Fin 512} (ht : pages.tableOf i j = none) :
    ∃ e, pages.pde i j = .large e := by
  cases hpde : pages.pde i j with
  | large e => exact ⟨e, rfl⟩
  | split e =>
    obtain ⟨t, _, rfl⟩ := h.split i j e hpde
    have : pages.tableOf i j = some t := by
      simp only [EptPages.tableOf, hpde, tablePde, tableAt_frame]
    rw [this] at ht
    cases ht

/-- A PDE with a table is split, and the table is in use. -/
theorem pde_of_tableOf_some (h : pages.WF) {i j : Fin 512} {t : Fin eptSplitPteCount}
    (ht : pages.tableOf i j = some t) :
    pages.pde i j = .split (tablePde (pages.splitPtePfns.frame t)) ∧
      t.val < pages.splitPteUsed := by
  cases hpde : pages.pde i j with
  | large e =>
    simp only [EptPages.tableOf, hpde] at ht
    cases ht
  | split e =>
    obtain ⟨t', hused, rfl⟩ := h.split i j e hpde
    simp only [EptPages.tableOf, hpde, tablePde, tableAt_frame] at ht
    cases ht
    exact ⟨rfl, hused⟩

/-- A PDE is split exactly when there is a table behind it. -/
theorem isSplit_iff (h : pages.WF) (i j : Fin 512) :
    pages.IsSplit i j ↔ (pages.tableOf i j).isSome := by
  unfold EptPages.IsSplit
  cases ht : pages.tableOf i j with
  | none =>
    obtain ⟨e, hpde⟩ := pde_of_tableOf_none h ht
    rw [hpde]
    exact Iff.rfl
  | some t =>
    rw [(pde_of_tableOf_some h ht).1]
    exact Iff.rfl

/-- A pointer belongs to one page. -/
theorem ptr_injective (h : pages.WF) {q q' : GuestPage} {p : PtePtr}
    (hq : pages.ptr q = some p) (hq' : pages.ptr q' = some p) : q = q' := by
  unfold EptPages.ptr at hq hq'
  obtain ⟨t, ht, hp⟩ := Option.map_eq_some_iff.mp hq
  obtain ⟨t', ht', hp'⟩ := Option.map_eq_some_iff.mp hq'
  rw [← hp', Prod.mk.injEq] at hp
  obtain ⟨htt, hpt⟩ := hp
  rw [htt] at ht
  obtain ⟨hi, hj⟩ := h.unique _ _ _ _ _ ht ht'
  cases q
  cases q'
  simp_all

/-- A page whose PDE is split reads its PTE. -/
theorem walk_of_ptr (h : pages.WF) {q : GuestPage} {p : PtePtr} (hq : pages.ptr q = some p) :
    pages.walk q = pages.splitPte p.1 p.2 := by
  unfold EptPages.ptr at hq
  obtain ⟨t, ht, rfl⟩ := Option.map_eq_some_iff.mp hq
  obtain ⟨hpde, _⟩ := pde_of_tableOf_some h ht
  simp only [EptPages.walk, hpde, tablePde, tableAt_frame, EptPte.withAccess, Bool.true_and]

/-- Any other page reads a piece of its large PDE. -/
theorem walk_of_ptr_none (h : pages.WF) {q : GuestPage} (hq : pages.ptr q = none) :
    ∃ e, pages.pde q.pdpt q.pd = .large e ∧ pages.walk q = e.piece q.pt := by
  have ht : pages.tableOf q.pdpt q.pd = none := Option.map_eq_none_iff.mp hq
  obtain ⟨e, hpde⟩ := pde_of_tableOf_none h ht
  exact ⟨e, hpde, by simp only [EptPages.walk, hpde]⟩

/-! ### Writes that keep the shape -/

/-- A write to an entry moves no entry. -/
@[simp] theorem ptr_writePte (p : PtePtr) (f : EptPte → EptPte) :
    (pages.writePte p f).ptr = pages.ptr := rfl

/-- A write to an entry adds no hook. -/
@[simp] theorem hooks_writePte (p : PtePtr) (f : EptPte → EptPte) :
    (pages.writePte p f).hooks = pages.hooks := rfl

/-- A write to an entry leaves the shape. -/
theorem wf_writePte (h : pages.WF) (p : PtePtr) (f : EptPte → EptPte) :
    (pages.writePte p f).WF := ⟨h.large, h.split, h.unique, h.used_le, h.hook⟩

/-- A write through the pointer of a page changes what that page reads,
and nothing else. -/
theorem walk_writePte (h : pages.WF) {q : GuestPage} {p : PtePtr} (hq : pages.ptr q = some p)
    (f : EptPte → EptPte) (q' : GuestPage) :
    (pages.writePte p f).walk q' = if q' = q then f (pages.walk q) else pages.walk q' := by
  have hwf := wf_writePte h p f
  -- A page of a large PDE has no entry to write. Two pages with entries have
  -- different ones.
  cases hq' : pages.ptr q' with
  | none =>
    have hne : q' ≠ q := by
      intro heq
      rw [heq, hq] at hq'
      cases hq'
    obtain ⟨e, hpde, hwalk⟩ := walk_of_ptr_none h hq'
    obtain ⟨e', hpde', hwalk'⟩ := walk_of_ptr_none hwf hq'
    have hsame : EptPdeSlot.large e = .large e' := hpde.symm.trans hpde'
    cases hsame
    rw [hwalk', if_neg hne, hwalk]
  | some p' =>
    rw [walk_of_ptr hwf hq', walk_of_ptr h hq', walk_of_ptr h hq]
    show Function.update pages.splitPte p.1 (Function.update (pages.splitPte p.1) p.2
      (f (pages.splitPte p.1 p.2))) p'.1 p'.2 = _
    by_cases heq : q' = q
    · rw [heq, hq] at hq'
      cases hq'
      rw [if_pos heq, Function.update_self, Function.update_self]
    · have hne : p' ≠ p := fun hp => heq (ptr_injective h hq' (hp ▸ hq))
      rw [if_neg heq]
      by_cases ht : p'.1 = p.1
      · have hk : p'.2 ≠ p.2 := fun hk => hne (Prod.ext ht hk)
        rw [ht, Function.update_self, Function.update_of_ne hk]
      · rw [Function.update_of_ne ht]

/-! ### `split_pde` -/

/-- A split PDE, and a view out of tables, are left alone. -/
theorem splitPde_eq_none {i j : Fin 512}
    (hno : (pages.tableOf i j).isSome ∨ pages.splitPteUsed = eptSplitPteCount) :
    splitPde pages i j = none := by
  cases hpde : pages.pde i j with
  | split e => simp only [splitPde, hpde]
  | large e =>
    cases hno with
    | inl hsome =>
      simp only [EptPages.tableOf, hpde] at hsome
      cases hsome
    | inr hfull =>
      have hno : ¬ pages.splitPteUsed < eptSplitPteCount := hfull ▸ lt_irrefl _
      simp only [splitPde, hpde, dif_neg hno]

/-- Otherwise the next free table is used. -/
theorem splitPde_eq_some {i j : Fin 512} {e : EptPte} (hpde : pages.pde i j = .large e)
    (hused : pages.splitPteUsed < eptSplitPteCount) :
    splitPde pages i j =
      some ({ pages with
        splitPteUsed := pages.splitPteUsed + 1
        splitPte := Function.update pages.splitPte ⟨_, hused⟩ e.piece
        pde := Function.update pages.pde i (Function.update (pages.pde i) j
          (.split (tablePde (pages.splitPtePfns.frame ⟨_, hused⟩)))) }, ⟨_, hused⟩) := by
  simp only [splitPde, hpde, dif_pos hused]
  rfl

/-- What a successful split says about the view before it. -/
theorem splitPde_some_iff {i j : Fin 512} {r : EptPages × Fin eptSplitPteCount}
    (hr : splitPde pages i j = some r) :
    ∃ e, pages.pde i j = .large e ∧ ∃ hused : pages.splitPteUsed < eptSplitPteCount,
      r = ({ pages with
        splitPteUsed := pages.splitPteUsed + 1
        splitPte := Function.update pages.splitPte ⟨_, hused⟩ e.piece
        pde := Function.update pages.pde i (Function.update (pages.pde i) j
          (.split (tablePde (pages.splitPtePfns.frame ⟨_, hused⟩)))) }, ⟨_, hused⟩) := by
  cases hpde : pages.pde i j with
  | split e =>
    simp only [splitPde, hpde] at hr
    cases hr
  | large e =>
    -- A PDE that is split already and a full set of tables are the two ways to
    -- fail.
    by_cases hused : pages.splitPteUsed < eptSplitPteCount
    · rw [splitPde_eq_some hpde hused] at hr
      cases hr
      exact ⟨e, rfl, hused, rfl⟩
    · simp only [splitPde, hpde, dif_neg hused] at hr
      cases hr

section
variable {i j : Fin 512} {pages' : EptPages} {t : Fin eptSplitPteCount}

/-- Only the PDE that was split has got a table. -/
theorem tableOf_splitPde (hs : splitPde pages i j = some (pages', t)) (i' j' : Fin 512) :
    pages'.tableOf i' j' = if i' = i ∧ j' = j then some t else pages.tableOf i' j' := by
  obtain ⟨e, hpde, hused, hr⟩ := splitPde_some_iff hs
  cases hr
  simp only [EptPages.tableOf, Function.update_apply]
  by_cases hi : i' = i
  · by_cases hj : j' = j
    · simp only [hi, hj, if_true, and_self, Function.update_self, tablePde]
      exact tableAt_frame pages _
    · simp only [hi, if_true, Function.update_of_ne hj, hj, and_false, if_false]
      rfl
  · simp only [hi, if_false, false_and]
    rfl

/-- The table a split takes was not behind any PDE. -/
theorem splitPde_fresh (h : pages.WF) (hs : splitPde pages i j = some (pages', t))
    (i' j' : Fin 512) : pages.tableOf i' j' ≠ some t := by
  obtain ⟨e, hpde, hused, hr⟩ := splitPde_some_iff hs
  cases hr
  intro ht
  exact absurd (pde_of_tableOf_some h ht).2 (lt_irrefl _)

/-- The PDE that is split had no table before. -/
theorem tableOf_of_splitPde (hs : splitPde pages i j = some (pages', t)) :
    pages.tableOf i j = none := by
  obtain ⟨e, hpde, _⟩ := splitPde_some_iff hs
  simp only [EptPages.tableOf, hpde]

/-- Pointers that exist stay what they are. -/
theorem ptr_splitPde_of_isSome (hs : splitPde pages i j = some (pages', t)) {q : GuestPage}
    (hq : (pages.ptr q).isSome) : pages'.ptr q = pages.ptr q := by
  unfold EptPages.ptr at hq ⊢
  rw [tableOf_splitPde hs]
  split
  · rename_i heq
    rw [heq.1, heq.2, tableOf_of_splitPde hs] at hq
    cases hq
  · rfl

/-- A split adds no hook. -/
theorem hooks_splitPde (hs : splitPde pages i j = some (pages', t)) :
    pages'.hooks = pages.hooks := by
  obtain ⟨e, hpde, hused, hr⟩ := splitPde_some_iff hs
  cases hr
  rfl

/-- A split keeps the invariant. -/
theorem wf_splitPde (h : pages.WF) (hs : splitPde pages i j = some (pages', t)) : pages'.WF := by
  have hfresh := splitPde_fresh h hs
  have htable := tableOf_splitPde hs
  have hptr := fun q hq => ptr_splitPde_of_isSome hs (q := q) hq
  have hhooks := hooks_splitPde hs
  obtain ⟨e, hpde, hused, hr⟩ := splitPde_some_iff hs
  refine ⟨fun i' j' e' he' => ?_, fun i' j' e' he' => ?_, fun i₁ j₁ i₂ j₂ t' h₁ h₂ => ?_, ?_,
    fun hook hmem => ?_⟩
  · cases hr
    simp only [Function.update_apply] at he'
    split at he'
    · subst i'
      simp only [Function.update_apply] at he'
      split at he'
      · cases he'
      · exact h.large i j' e' he'
    · exact h.large i' j' e' he'
  · cases hr
    simp only [Function.update_apply] at he'
    split at he'
    · subst i'
      simp only [Function.update_apply] at he'
      split at he'
      · cases he'
        exact ⟨⟨_, hused⟩, Nat.lt_succ_self _, rfl⟩
      · obtain ⟨t', hlt, he⟩ := h.split i j' e' he'
        exact ⟨t', Nat.lt_succ_of_lt hlt, he⟩
    · obtain ⟨t', hlt, he⟩ := h.split i' j' e' he'
      exact ⟨t', Nat.lt_succ_of_lt hlt, he⟩
  · rw [htable] at h₁ h₂
    -- The new table was free, so no older PDE points to it.
    split at h₁
    · split at h₂
      · rename_i ha hb
        exact ⟨ha.1.trans hb.1.symm, ha.2.trans hb.2.symm⟩
      · cases h₁
        exact (hfresh _ _ h₂).elim
    · split at h₂
      · cases h₂
        exact (hfresh _ _ h₁).elim
      · exact h.unique _ _ _ _ _ h₁ h₂
  · cases hr
    exact hused
  · rw [hhooks] at hmem
    obtain ⟨q, horig, hsome, hpte⟩ := h.hook hook hmem
    have heq := hptr q hsome
    rw [← heq] at hsome hpte
    exact ⟨q, horig, hsome, hpte⟩

/-- A split changes no mapping: the PTEs inherit everything from the
PDE. -/
theorem walk_splitPde (h : pages.WF) (hs : splitPde pages i j = some (pages', t)) :
    pages'.walk = pages.walk := by
  have hwf := wf_splitPde h hs
  have htable := tableOf_splitPde hs
  have hfresh := splitPde_fresh h hs
  obtain ⟨e, hpde, hused, hr⟩ := splitPde_some_iff hs
  funext q
  -- The pages of the split PDE move into the table, where `piece` maps them as
  -- before.
  by_cases heq : q.pdpt = i ∧ q.pd = j
  · have hq : pages'.ptr q = some (t, q.pt) := by
      unfold EptPages.ptr
      rw [htable, if_pos heq]
      rfl
    rw [walk_of_ptr hwf hq]
    cases hr
    simp only [EptPages.walk, heq.1, heq.2, hpde, Function.update_self]
  · have hsame : pages'.tableOf q.pdpt q.pd = pages.tableOf q.pdpt q.pd := by
      rw [htable, if_neg heq]
    have hptr : pages'.ptr q = pages.ptr q := by
      unfold EptPages.ptr
      rw [hsame]
    cases hq : pages.ptr q with
    | none =>
      obtain ⟨e₁, hpde₁, hwalk₁⟩ := walk_of_ptr_none h hq
      obtain ⟨e₂, hpde₂, hwalk₂⟩ := walk_of_ptr_none hwf (hptr.trans hq)
      have hsamePde : pages'.pde q.pdpt q.pd = pages.pde q.pdpt q.pd := by
        cases hr
        by_cases hi : q.pdpt = i
        · have hj : q.pd ≠ j := fun hj => heq ⟨hi, hj⟩
          simp only [hi, Function.update_self, Function.update_of_ne hj]
        · simp only [Function.update_of_ne hi]
      rw [hsamePde, hpde₁] at hpde₂
      cases hpde₂
      rw [hwalk₁, hwalk₂]
    | some p =>
      rw [walk_of_ptr h hq, walk_of_ptr hwf (hptr.trans hq)]
      -- No other page has its entry in the new table.
      have hne : p.1 ≠ t := by
        unfold EptPages.ptr at hq
        obtain ⟨t', ht', rfl⟩ := Option.map_eq_some_iff.mp hq
        intro htt
        exact hfresh _ _ (ht'.trans (congrArg some htt))
      cases hr
      simp only [Function.update_of_ne hne]

end

/-! ### `get_ept_pte` -/

/-- A lookup that finds nothing changes nothing. -/
theorem getEptPte_none {gpa : Nat} {forceSplit : Bool} {pages' : EptPages}
    (hget : getEptPte pages gpa forceSplit = (pages', none)) : pages' = pages := by
  unfold getEptPte at hget
  split at hget
  · cases hget
    rfl
  · simp only at hget
    split at hget
    · exact (Prod.mk.inj hget).1.symm
    · split at hget
      · cases hget
        rfl
      · split at hget
        · cases hget
          rfl
        · cases hget

/-- What a lookup that finds an entry has done to the view: at most one
split, of the PDE of the page. -/
structure Found (pages pages' : EptPages) (q : GuestPage) (p : PtePtr) : Prop where
  wf : pages'.WF
  walk : pages'.walk = pages.walk
  hooks : pages'.hooks = pages.hooks
  found : pages'.ptr q = some p
  table : ∀ i j, pages'.tableOf i j =
    if i = q.pdpt ∧ j = q.pd then some p.1 else pages.tableOf i j
  used : pages'.splitPteUsed =
    if (pages.tableOf q.pdpt q.pd).isSome then pages.splitPteUsed else pages.splitPteUsed + 1

/-- A lookup that succeeds has found the entry of its page, and has
split a PDE where that was needed. -/
theorem getEptPte_some (h : pages.WF) {gpa : Nat} {forceSplit : Bool} {pages' : EptPages}
    {p : PtePtr} (hget : getEptPte pages gpa forceSplit = (pages', some p)) :
    Found pages pages' (pageOf gpa) p := by
  unfold getEptPte at hget
  split at hget
  · cases hget
  · simp only at hget
    -- A split PDE has its table. A large one is split on demand only.
    split at hget
    · rename_i e hpde
      obtain ⟨rfl, hp⟩ := Prod.mk.inj hget
      have hptr : pages.ptr (pageOf gpa) = some p := by
        simp only [EptPages.ptr, EptPages.tableOf, hpde]
        exact hp
      obtain ⟨t, ht, rfl⟩ := Option.map_eq_some_iff.mp hptr
      refine ⟨h, rfl, rfl, hptr, fun i j => ?_, ?_⟩
      · split
        · rename_i hij
          rw [hij.1, hij.2, ht]
        · rfl
      · rw [ht]
        rfl
    · split at hget
      · cases hget
      · split at hget
        · cases hget
        · rename_i pages'' t hs
          cases hget
          have hptr : pages'.ptr (pageOf gpa) = some (t, (pageOf gpa).pt) := by
            simp only [EptPages.ptr]
            rw [tableOf_splitPde hs, if_pos ⟨rfl, rfl⟩]
            rfl
          refine ⟨wf_splitPde h hs, walk_splitPde h hs, hooks_splitPde hs, hptr,
            tableOf_splitPde hs, ?_⟩
          rw [tableOf_of_splitPde hs]
          obtain ⟨e', _, _, hr⟩ := splitPde_some_iff hs
          cases hr
          rfl

/-- A lookup that may split fails for want of tables only. -/
theorem getEptPte_isSome_iff (h : pages.WF) (gpa : Nat) :
    (getEptPte pages gpa true).2.isSome ↔ pml4Idx gpa = 0 ∧
      ((pages.tableOf (pageOf gpa).pdpt (pageOf gpa).pd).isSome ∨
        pages.splitPteUsed < eptSplitPteCount) := by
  unfold getEptPte
  by_cases hpml4 : pml4Idx gpa = 0
  · rw [if_neg (not_not.mpr hpml4)]
    simp only [hpml4, true_and]
    -- The lookup succeeds with a table there already, or with one left to split
    -- into.
    cases ht : pages.tableOf (pageOf gpa).pdpt (pageOf gpa).pd with
    | some t =>
      obtain ⟨hpde, _⟩ := pde_of_tableOf_some h ht
      simp only [hpde, tablePde, tableAt_frame, Option.map_some, Option.isSome_some, true_or]
    | none =>
      obtain ⟨e, hpde⟩ := pde_of_tableOf_none h ht
      simp only [hpde, Bool.not_true, Bool.false_eq_true, if_false, Option.isSome_none, false_or]
      by_cases hused : pages.splitPteUsed < eptSplitPteCount
      · rw [splitPde_eq_some hpde hused]
        simp only [Option.isSome_some, hused]
      · have hfull : pages.splitPteUsed = eptSplitPteCount :=
          Nat.le_antisymm h.used_le (Nat.le_of_not_lt hused)
        rw [splitPde_eq_none (Or.inr hfull)]
        simp only [Option.isSome_none, Bool.false_eq_true, hused]
  · rw [if_pos hpml4]
    simp only [Option.isSome_none, Bool.false_eq_true, hpml4, false_and]

/-- A page whose PDE is split is found without a split. -/
theorem getEptPte_of_ptr (h : pages.WF) {q : GuestPage} {p : PtePtr}
    (hq : pages.ptr q = some p) (forceSplit : Bool) :
    getEptPte pages (q.frame * 2 ^ 12) forceSplit = (pages, some p) := by
  unfold EptPages.ptr at hq
  obtain ⟨t, ht, rfl⟩ := Option.map_eq_some_iff.mp hq
  obtain ⟨hpde, _⟩ := pde_of_tableOf_some h ht
  unfold getEptPte
  rw [if_neg (not_not.mpr (pml4Idx_frame q)), pageOf_frame_zero]
  simp only [hpde, tablePde, tableAt_frame, Option.map_some]

end

/-! ### Two views of one shape -/

/-- The same PDEs are split, with the same tables, and the hooks agree. -/
structure Lockstep (pages pages' : EptPages) : Prop where
  used : pages.splitPteUsed = pages'.splitPteUsed
  table : ∀ i j, pages.tableOf i j = pages'.tableOf i j
  hooks : pages.hooks = pages'.hooks

section
variable {pages pages' : EptPages}

/-- A page has its entry at the same place in both views. -/
theorem Lockstep.ptr (h : Lockstep pages pages') (q : GuestPage) :
    pages.ptr q = pages'.ptr q := by
  unfold EptPages.ptr
  rw [h.table]

/-- The same PDEs are split. -/
theorem Lockstep.isSplit (h : Lockstep pages pages') (hwf : pages.WF) (hwf' : pages'.WF)
    (i j : Fin 512) : pages.IsSplit i j ↔ pages'.IsSplit i j := by
  rw [isSplit_iff hwf, isSplit_iff hwf', h.table]

/-- A split takes the same table in both views, or fails in both. -/
theorem lockstep_splitPde (hwf : pages.WF) (hwf' : pages'.WF) (h : Lockstep pages pages')
    (i j : Fin 512) :
    (splitPde pages i j = none ∧ splitPde pages' i j = none) ∨
      ∃ new new' t, splitPde pages i j = some (new, t) ∧ splitPde pages' i j = some (new', t) ∧
        Lockstep new new' := by
  -- The two views have equal counts and split PDEs, so both fail or both take
  -- the same table.
  by_cases hno : (pages.tableOf i j).isSome ∨ pages.splitPteUsed = eptSplitPteCount
  · have hno' : (pages'.tableOf i j).isSome ∨ pages'.splitPteUsed = eptSplitPteCount := by
      rw [← h.table, ← h.used]
      exact hno
    exact Or.inl ⟨splitPde_eq_none hno, splitPde_eq_none hno'⟩
  · rw [not_or, Option.not_isSome_iff_eq_none] at hno
    obtain ⟨hnone, hfull⟩ := hno
    have hle := hwf.used_le
    have hused : pages.splitPteUsed < eptSplitPteCount := by omega
    have hused' : pages'.splitPteUsed < eptSplitPteCount := h.used ▸ hused
    obtain ⟨e, hpde⟩ := pde_of_tableOf_none hwf hnone
    obtain ⟨e', hpde'⟩ := pde_of_tableOf_none hwf' (h.table i j ▸ hnone)
    have hs := splitPde_eq_some hpde hused
    have hs' := splitPde_eq_some hpde' hused'
    have ht : (⟨pages'.splitPteUsed, hused'⟩ : Fin eptSplitPteCount) = ⟨pages.splitPteUsed, hused⟩ :=
      Fin.ext h.used.symm
    refine Or.inr ⟨_, _, _, hs, hs'.trans (congrArg (fun t => some (_, t)) ht),
      ⟨?_, fun i' j' => ?_, ?_⟩⟩
    · show pages.splitPteUsed + 1 = pages'.splitPteUsed + 1
      rw [h.used]
    · rw [tableOf_splitPde hs, tableOf_splitPde hs', h.table i' j', ht]
    · show pages.hooks = pages'.hooks
      exact h.hooks

/-- A lookup finds the same entry in both views, or nothing in both. -/
theorem lockstep_getEptPte (hwf : pages.WF) (hwf' : pages'.WF) (h : Lockstep pages pages')
    (gpa : Nat) (forceSplit : Bool) :
    (getEptPte pages gpa forceSplit).2 = (getEptPte pages' gpa forceSplit).2 ∧
      Lockstep (getEptPte pages gpa forceSplit).1 (getEptPte pages' gpa forceSplit).1 := by
  unfold getEptPte
  split
  · exact ⟨rfl, h⟩
  · have htable := h.table (pageOf gpa).pdpt (pageOf gpa).pd
    -- A PDE is split in both views or in none.
    cases ht : pages.tableOf (pageOf gpa).pdpt (pageOf gpa).pd with
    | some t =>
      obtain ⟨hpde, _⟩ := pde_of_tableOf_some hwf ht
      obtain ⟨hpde', _⟩ := pde_of_tableOf_some hwf' (htable ▸ ht)
      simp only [hpde, hpde', tablePde, tableAt_frame, true_and]
      exact h
    | none =>
      obtain ⟨e, hpde⟩ := pde_of_tableOf_none hwf ht
      obtain ⟨e', hpde'⟩ := pde_of_tableOf_none hwf' (htable ▸ ht)
      simp only [hpde, hpde']
      cases forceSplit with
      | false => exact ⟨rfl, h⟩
      | true =>
        cases lockstep_splitPde hwf hwf' h (pageOf gpa).pdpt (pageOf gpa).pd with
        | inl hnone =>
          rw [hnone.1, hnone.2]
          exact ⟨rfl, h⟩
        | inr hsome =>
          obtain ⟨new, new', t, hs, hs', hlock⟩ := hsome
          rw [hs, hs']
          exact ⟨rfl, hlock⟩

end

end Revhv.Ept
