import Revhv.Proofs.EptTyping
import Revhv.Proofs.MtrrTypes

/-!
# `Revhv.Proofs.EptTypes`: the memory type of every page of a view

`EptTyping` types the PDEs and the tables. Here the result is read off for
each 4 KB page, and for the PDEs that had to stay large.

* `InOrder`: the loops split PDEs in their order until no table is left.
* `LeftLarge`: a PDE that stayed large over pages of different types.
* `memoryTypes_placed`: building a view and updating one give every page
  its type, except under the PDEs that stayed large, and change neither
  frames nor access rights.
* `memoryType_truncated`: an entry keeps three bits of a type.
-/

set_option autoImplicit false

namespace Revhv.Ept

open Revhv.Lib Revhv.Memory

/-! ### The property -/

/-- The position of a PDE in the loops. -/
def pdeNumber (i j : Fin 512) : Nat := (i : Nat) * 512 + j

/-- The PDE is a large one over 4 KB pages of different types. -/
def Mixed (mtrrState : MtrrState) (pages : EptPages) (i j : Fin 512) : Prop :=
  (∃ e, pages.pde i j = .large e) ∧ (pdeType mtrrState i j).isUniform = false

/-- The types of the 512 pages of a PDE. -/
def pdePageTypes (mtrrState : MtrrState) (i j : Fin 512) : List Nat :=
  pageTypes mtrrState (pdeNumber i j * 512) 512

/-- A PDE that stayed large over pages of different types. `was` are the
PDEs that were split before. -/
structure LeftLarge (mtrrState : MtrrState) (was : Fin 512 → Fin 512 → Prop) (pages : EptPages)
    (i j : Fin 512) : Prop where
  mixed : ¬ ∃ type, ∀ t ∈ pdePageTypes mtrrState i j, t = type
  /-- All tables are in use, and the loops had taken the last of them
  before they came to this PDE. -/
  full : pages.splitPteUsed = eptSplitPteCount
  before : ∀ i' j', pages.IsSplit i' j' → ¬ was i' j' → pdeNumber i' j' < pdeNumber i j
  /-- Its pages have the greatest lower bound of their types. -/
  bound : ∃ type, IsGLB {x | ∃ t ∈ pdePageTypes mtrrState i j, x = (⟨t⟩ : MemType)} ⟨type⟩ ∧
    ∀ k, (pages.walk ⟨i, j, k⟩).memoryType = type % 8

/-- What the page ends up with. -/
def Placed (mtrrState : MtrrState) (was : Fin 512 → Fin 512 → Prop) (pages : EptPages)
    (q : GuestPage) : Prop :=
  (pages.walk q).memoryType = getMtrrMemoryTypeSingle mtrrState (q.frame * 0x1000) % 8 ∨
    LeftLarge mtrrState was pages q.pdpt q.pd

/-- Every page is mapped to itself. -/
def EptPages.OwnFrames (pages : EptPages) : Prop :=
  ∀ q, (pages.walk q).pageFrameNumber = q.frame

/-! ### Splits in order -/

/-- The PDEs in `P` are typed, and those of them that were split come
before those that stayed large. -/
structure InOrder (mtrrState : MtrrState) (was P : Fin 512 → Fin 512 → Prop)
    (pages : EptPages) : Prop where
  typed : TypedOn mtrrState P pages
  order : ∀ i j i' j', P i j → P i' j' → Mixed mtrrState pages i j → pages.IsSplit i' j' →
    ¬ was i' j' → pdeNumber i' j' < pdeNumber i j

section
variable {mtrrState : MtrrState} {was P : Fin 512 → Fin 512 → Prop} {pages pages' : EptPages}
  {i j : Fin 512}

/-- A large PDE is not split. -/
theorem not_isSplit_of_large {e : EptPte} (h : pages.pde i j = .large e) :
    ¬ pages.IsSplit i j := by
  unfold EptPages.IsSplit
  rw [h]
  exact Bool.false_ne_true

/-- A round of the loops at `i`, `j`, which come after all PDEs in `P`. -/
theorem inOrder_step (h : InOrder mtrrState was P pages)
    (hlt : ∀ i' j', P i' j' → pdeNumber i' j' < pdeNumber i j)
    (hrest : ∀ i' j', ¬ (i' = i ∧ j' = j) → pages'.pde i' j' = pages.pde i' j')
    (hnew : pages'.IsSplit i j → was i j ∨ pages.splitPteUsed < eptSplitPteCount)
    (htyped : TypedOn mtrrState (fun i' j' => P i' j' ∨ (i' = i ∧ j' = j)) pages') :
    InOrder mtrrState was (fun i' j' => P i' j' ∨ (i' = i ∧ j' = j)) pages' := by
  refine ⟨htyped, ?_⟩
  intro i₁ j₁ i₂ j₂ hP₁ hP₂ hmixed hsplit hwas
  rcases hmixed with ⟨⟨e, he⟩, hpages⟩
  by_cases h₁ : i₁ = i ∧ j₁ = j
  · -- The PDE of this round stayed large, and all others are behind it.
    rcases hP₂ with hold | ⟨rfl, rfl⟩
    · rw [h₁.1, h₁.2]
      exact hlt i₂ j₂ hold
    · rw [h₁.1, h₁.2] at he
      exact absurd hsplit (not_isSplit_of_large he)
  · have he' : pages.pde i₁ j₁ = .large e := (hrest i₁ j₁ h₁).symm.trans he
    have hold := hP₁.resolve_right h₁
    by_cases h₂ : i₂ = i ∧ j₂ = j
    · -- A table was left for this round, so no PDE behind it stayed large over mixed pages.
      rw [h₂.1, h₂.2] at hsplit hwas
      have hroom := (hnew hsplit).resolve_left hwas
      rcases (h.typed.pde i₁ j₁ hold e he').2 with huniform | hfull
      · rw [hpages] at huniform
        cases huniform
      · omega
    · have hsplit' : pages.IsSplit i₂ j₂ := by
        unfold EptPages.IsSplit at hsplit ⊢
        rw [← hrest i₂ j₂ h₂]
        exact hsplit
      exact h.order i₁ j₁ i₂ j₂ hold (hP₂.resolve_right h₂) ⟨⟨e, he'⟩, hpages⟩ hsplit' hwas

/-- The order for fewer PDEs. -/
theorem inOrder_mono {P' : Fin 512 → Fin 512 → Prop} (h : InOrder mtrrState was P pages)
    (hsub : ∀ i j, P' i j → P i j) : InOrder mtrrState was P' pages :=
  ⟨typedOn_mono h.typed hsub, fun i j i' j' hP hP' => h.order i j i' j' (hsub i j hP)
    (hsub i' j' hP')⟩

/-- Typing tables is no split. -/
theorem inOrder_retyped (h : InOrder mtrrState was P pages) (Q : Fin eptSplitPteCount → Prop)
    [DecidablePred Q] : InOrder mtrrState was P (retyped mtrrState pages Q) :=
  ⟨typedOn_retyped h.typed Q, h.order⟩

end

section
variable {pages pages' : EptPages} {i j : Fin 512}

/-- A large PDE is stored at its own index. -/
theorem pde_setLarge (pages : EptPages) (i j : Fin 512) (e : EptPte) :
    (∀ i' j', ¬ (i' = i ∧ j' = j) →
      (pages.setPde i j (.large e)).pde i' j' = pages.pde i' j') ∧
    ¬ (pages.setPde i j (.large e)).IsSplit i j := by
  constructor
  · intro i' j' hne
    rw [pde_setPde, if_neg hne]
  · apply not_isSplit_of_large
    rw [pde_setPde, if_pos ⟨rfl, rfl⟩]

/-- A split takes a table and changes no other PDE. -/
theorem pde_splitPde {t : Fin eptSplitPteCount} (hs : splitPde pages i j = some (pages', t)) :
    (∀ i' j', ¬ (i' = i ∧ j' = j) → pages'.pde i' j' = pages.pde i' j') ∧
      pages.splitPteUsed < eptSplitPteCount := by
  rcases splitPde_some_iff hs with ⟨e, _, hused, hr⟩
  cases hr
  refine ⟨?_, hused⟩
  intro i' j' hne
  exact (pde_setPde _ i j i' j' _).trans (if_neg hne)

end

/-! ### `update_ept_memory_types` -/

/-- The PDEs in `P` are done, the others are as they were. -/
structure Updating (mtrrState : MtrrState) (was P : Fin 512 → Fin 512 → Prop)
    (pages : EptPages) : Prop where
  wf : pages.WF
  inOrder : InOrder mtrrState was P pages
  ahead : ∀ i j, ¬ P i j → pages.IsSplit i j → was i j

/-- A view shows what it shows. -/
theorem shows_self {pages : EptPages} (h : pages.WF) :
    Shows pages.view pages.view pages pages :=
  ⟨h, h, ⟨rfl, fun _ _ => rfl, rfl⟩, rfl, rfl⟩

section
variable {mtrrState : MtrrState} {was P : Fin 512 → Fin 512 → Prop} {pages : EptPages}

/-- A large PDE gets a type or a table. -/
theorem updatePde_large (mtrrState : MtrrState) {i j : Fin 512} {e : EptPte}
    (hpde : pages.pde i j = .large e) :
    (∃ type, updatePde mtrrState i pages j =
      pages.setPde i j (.large (e.withMemoryType type))) ∨
    ∃ new t, splitPde pages i j = some (new, t) ∧ updatePde mtrrState i pages j = new := by
  -- A uniform range keeps the large PDE. A mixed one is split as long as a
  -- table is left.
  cases hrange : (getMtrrRangeMemoryType mtrrState (e.pageFrameNumber * 0x200000)
    0x200000).isUniform with
  | true =>
    refine Or.inl ⟨(getMtrrRangeMemoryType mtrrState (e.pageFrameNumber * 0x200000)
      0x200000).type, ?_⟩
    simp only [updatePde, hpde, hrange, if_true]
  | false =>
    cases hs : splitPde pages i j with
    | none =>
      refine Or.inl ⟨(getMtrrRangeMemoryType mtrrState (e.pageFrameNumber * 0x200000)
        0x200000).type, ?_⟩
      simp only [updatePde, hpde, hrange, hs, Bool.false_eq_true, if_false]
    | some r =>
      refine Or.inr ⟨r.1, r.2, rfl, ?_⟩
      simp only [updatePde, hpde, hrange, hs, Bool.false_eq_true, if_false]

/-- What a round of the inner loop does to the PDEs. -/
theorem pde_updatePde (mtrrState : MtrrState) (pages : EptPages) (i j : Fin 512) :
    (∀ i' j', ¬ (i' = i ∧ j' = j) →
      (updatePde mtrrState i pages j).pde i' j' = pages.pde i' j') ∧
    ((updatePde mtrrState i pages j).IsSplit i j →
      pages.IsSplit i j ∨ pages.splitPteUsed < eptSplitPteCount) := by
  cases hpde : pages.pde i j with
  | split e =>
    have hsame : updatePde mtrrState i pages j = pages := by simp only [updatePde, hpde]
    rw [hsame]
    refine ⟨fun _ _ _ => rfl, ?_⟩
    intro hsplit
    exact Or.inl hsplit
  | large e =>
    rcases updatePde_large mtrrState hpde with ⟨type, hkeep⟩ | ⟨new, t, hs, hnew⟩
    · rw [hkeep]
      exact (pde_setLarge pages i j _).imp_right fun hnot hsplit => absurd hsplit hnot
    · rw [hnew]
      exact (pde_splitPde hs).imp_right fun hused _ => Or.inr hused

/-- A round of the inner loop. -/
theorem updating_updatePde (h : Updating mtrrState was P pages) {i j : Fin 512}
    (hlt : ∀ i' j', P i' j' → pdeNumber i' j' < pdeNumber i j) :
    Updating mtrrState was (fun i' j' => P i' j' ∨ (i' = i ∧ j' = j))
      (updatePde mtrrState i pages j) := by
  rcases pde_updatePde mtrrState pages i j with ⟨hrest, hnew⟩
  have hnot : ¬ P i j := fun hP => absurd (hlt i j hP) (Nat.lt_irrefl _)
  refine ⟨(updatePde_shows mtrrState i j (shows_self h.wf)).wf, ?_, ?_⟩
  · refine inOrder_step h.inOrder hlt hrest ?_ (typedOn_updatePde h.wf h.inOrder.typed i j)
    intro hsplit
    exact (hnew hsplit).imp_left (h.ahead i j hnot)
  · intro i' j' hP hsplit
    rw [not_or] at hP
    unfold EptPages.IsSplit at hsplit
    rw [hrest i' j' hP.2] at hsplit
    exact h.ahead i' j' hP.1 hsplit

/-- The PDEs of one directory. -/
theorem updating_updatePdes (i : Fin 512) (js : List (Fin 512)) (hsorted : js.Pairwise (· < ·))
    (h : Updating mtrrState was P pages)
    (hlt : ∀ j ∈ js, ∀ i' j', P i' j' → pdeNumber i' j' < pdeNumber i j) :
    Updating mtrrState was (fun i' j' => P i' j' ∨ (i' = i ∧ j' ∈ js))
      (js.foldl (updatePde mtrrState i) pages) := by
  -- By induction over the PDEs of one directory, in the order of the loop.
  induction js generalizing pages P with
  | nil =>
    simp only [List.not_mem_nil, and_false, or_false]
    exact h
  | cons j js ih =>
    rw [List.pairwise_cons] at hsorted
    have hfirst := updating_updatePde h (hlt j List.mem_cons_self)
    have hrest := ih hsorted.2 hfirst ?_
    · simp only [List.mem_cons, and_or_left, ← or_assoc]
      exact hrest
    · intro j₁ hj₁ i' j' hP
      rcases hP with hold | ⟨rfl, rfl⟩
      · exact hlt j₁ (List.mem_cons_of_mem j hj₁) i' j' hold
      · -- Within the directory a later PDE has a greater number.
        have hj : j' < j₁ := hsorted.1 j₁ hj₁
        unfold pdeNumber
        omega

/-- A round of the outer loop. -/
theorem updating_updatePd (i : Fin 512) (h : Updating mtrrState was P pages)
    (hlt : ∀ j i' j', P i' j' → pdeNumber i' j' < pdeNumber i j) :
    ∃ new, updatePd mtrrState pages i = .ok new ∧
      Updating mtrrState was (fun i' j' => P i' j' ∨ i' = i) new ∧
      ∀ t : Fin eptSplitPteCount, t.val < new.splitPteUsed → TableTyped mtrrState new t := by
  have hpdes := updating_updatePdes i (List.finRange 512) (List.pairwise_lt_finRange 512) h
    fun j _ => hlt j
  simp only [List.mem_finRange, and_true] at hpdes
  generalize hfold : (List.finRange 512).foldl (updatePde mtrrState i) pages = pages' at hpdes
  refine ⟨_, updatePd_eq mtrrState pages pages' i hfold, ?_, ?_⟩
  · exact ⟨wf_withPtes hpdes.wf _, inOrder_retyped hpdes.inOrder _, hpdes.ahead⟩
  · intro t ht
    apply tableTyped_retyped
    exact Or.inl (List.mem_filter.mpr ⟨List.mem_finRange t, decide_eq_true ht⟩)

/-- The whole update. -/
theorem updating_updateEptMemoryTypes (h : pages.WF) (mtrrState : MtrrState) :
    ∃ new, (List.finRange 512).foldlM (updatePd mtrrState) pages = .ok new ∧
      InOrder mtrrState pages.IsSplit (fun _ _ => True) new ∧
      ∀ t : Fin eptSplitPteCount, t.val < new.splitPteUsed → TableTyped mtrrState new t := by
  have hstart : Updating mtrrState pages.IsSplit (fun i _ => i ∈ ([] : List (Fin 512))) pages ∧
      (([] : List (Fin 512)) ≠ [] → ∀ t : Fin eptSplitPteCount, t.val < pages.splitPteUsed →
        TableTyped mtrrState pages t) := by
    refine ⟨⟨h, ⟨⟨?_, h.used_le⟩, ?_⟩, fun _ _ _ hsplit => hsplit⟩, fun hne => absurd rfl hne⟩
    · intro _ _ hmem
      exact absurd hmem List.not_mem_nil
    · intro _ _ _ _ hmem
      exact absurd hmem List.not_mem_nil
  have hloop : ∃ new, (List.finRange 512).foldlM (updatePd mtrrState) pages = .ok new ∧
      Updating mtrrState pages.IsSplit (fun i _ => i ∈ List.finRange 512) new ∧
      (List.finRange 512 ≠ [] → ∀ t : Fin eptSplitPteCount, t.val < new.splitPteUsed →
        TableTyped mtrrState new t) := by
    refine Loop.rule_ok (fun done (new : EptPages) =>
      Updating mtrrState pages.IsSplit (fun i _ => i ∈ done) new ∧
      (done ≠ [] → ∀ t : Fin eptSplitPteCount, t.val < new.splitPteUsed →
        TableTyped mtrrState new t)) hstart ?_
    intro done i rest now hxs hI
    -- The directories behind this one have smaller indices.
    have hsorted := List.pairwise_lt_finRange 512
    rw [hxs] at hsorted
    have hbehind : ∀ i' ∈ done, i' < i := by
      intro i' hi'
      exact (List.pairwise_append.mp hsorted).2.2 i' hi' i List.mem_cons_self
    have hlt : ∀ j i' j', i' ∈ done → pdeNumber i' j' < pdeNumber i j := by
      intro j i' j' hi'
      have hi := hbehind i' hi'
      unfold pdeNumber
      omega
    rcases updating_updatePd i hI.1 hlt with ⟨new, hnew, hup, htables⟩
    refine ⟨new, hnew, ?_, fun _ => htables⟩
    simp only [List.mem_append, List.mem_singleton]
    exact hup
  rcases hloop with ⟨new, hnew, hup, htables⟩
  refine ⟨new, hnew, inOrder_mono hup.inOrder ?_, htables (List.ne_nil_of_mem (List.mem_finRange 0))⟩
  intro i _ _
  exact List.mem_finRange i

end

/-! ### `initialize_ept` -/

section
variable {mtrrState : MtrrState} {done : List (Fin 512 × Fin 512)} {pages : EptPages}
  {i j : Fin 512}

/-- What a round of the loop does to the PDEs. -/
theorem pde_initializePde (mtrrState : MtrrState) (pages new : EptPages) (i j : Fin 512)
    (h : initializePde mtrrState pages (i, j) = .ok new) :
    (∀ i' j', ¬ (i' = i ∧ j' = j) → new.pde i' j' = pages.pde i' j') ∧
    (new.IsSplit i j → pages.splitPteUsed < eptSplitPteCount) := by
  unfold initializePde at h
  simp only [setPde_setPde] at h
  generalize getMtrrRangeMemoryType mtrrState _ _ = range at h
  -- A PDE stays large when its range is uniform or no table is left.
  split at h
  · cases h
    exact (pde_setLarge pages i j _).imp_right fun hnot hsplit => absurd hsplit hnot
  · split at h
    · cases h
      exact (pde_setLarge pages i j _).imp_right fun hnot hsplit => absurd hsplit hnot
    · rename_i split t hs
      rw [typeTable_eq] at h
      cases h
      rcases pde_splitPde hs with ⟨hrest, hused⟩
      refine ⟨?_, fun _ => hused⟩
      intro i' j' hne
      exact (hrest i' j' hne).trans ((pde_setLarge pages i j _).1 i' j' hne)

/-- The PDEs come in the order of their numbers. -/
theorem pdeIndices_sorted : pdeIndices.Pairwise fun a b =>
    pdeNumber a.1 a.2 < pdeNumber b.1 b.2 := by
  -- The two loops of the source count upwards, the inner one within each
  -- directory.
  unfold pdeIndices List.product
  rw [List.pairwise_flatMap]
  refine ⟨?_, ?_⟩
  · intro i _
    rw [List.pairwise_map]
    refine (List.pairwise_lt_finRange 512).imp ?_
    intro j j' hlt
    have hval : (j : Nat) < j' := hlt
    show pdeNumber i j < pdeNumber i j'
    unfold pdeNumber
    omega
  · refine (List.pairwise_lt_finRange 512).imp ?_
    intro i i' hlt a ha b hb
    rcases List.mem_map.mp ha with ⟨j, -, rfl⟩
    rcases List.mem_map.mp hb with ⟨j', -, rfl⟩
    have hval : (i : Nat) < i' := hlt
    show pdeNumber i j < pdeNumber i' j'
    unfold pdeNumber
    omega

/-- The whole loop. No PDE is split before it. -/
theorem inOrder_initializeEpt (frames : TableFrames) (mtrrState : MtrrState) :
    ∃ new, pdeIndices.foldlM (initializePde mtrrState) (EptPages.zeroed frames) = .ok new ∧
      InOrder mtrrState (fun _ _ => False) (fun _ _ => True) new ∧
      ∀ t : Fin eptSplitPteCount, t.val < new.splitPteUsed → TableTyped mtrrState new t := by
  have hstart : TypedTo mtrrState [] (EptPages.zeroed frames) ∧
      InOrder mtrrState (fun _ _ => False) (fun i j => (i, j) ∈ ([] : List (Fin 512 × Fin 512)))
        (EptPages.zeroed frames) := by
    have htyped : TypedOn mtrrState (fun i j => (i, j) ∈ ([] : List (Fin 512 × Fin 512)))
        (EptPages.zeroed frames) :=
      ⟨fun _ _ hmem => absurd hmem List.not_mem_nil, Nat.zero_le _⟩
    refine ⟨⟨htyped, fun _ ht => absurd ht (Nat.not_lt_zero _)⟩, htyped, ?_⟩
    intro _ _ _ _ hmem
    exact absurd hmem List.not_mem_nil
  have hloop : ∃ new,
      pdeIndices.foldlM (initializePde mtrrState) (EptPages.zeroed frames) = .ok new ∧
      TypedTo mtrrState pdeIndices new ∧
      InOrder mtrrState (fun _ _ => False) (fun i j => (i, j) ∈ pdeIndices) new := by
    refine Loop.rule_ok (fun done (new : EptPages) => TypedTo mtrrState done new ∧
      InOrder mtrrState (fun _ _ => False) (fun i j => (i, j) ∈ done) new) hstart ?_
    rintro done ⟨i, j⟩ rest now hxs ⟨htyped, horder⟩
    have hsorted := pdeIndices_sorted
    rw [hxs] at hsorted
    -- The PDEs already done are in front of this one, so a table that is left
    -- now was left for them.
    have hlt : ∀ i' j', (i', j') ∈ done → pdeNumber i' j' < pdeNumber i j := by
      intro i' j' hmem
      exact (List.pairwise_append.mp hsorted).2.2 (i', j') hmem (i, j) List.mem_cons_self
    have hnot : (i, j) ∉ done := fun hmem => absurd (hlt i j hmem) (Nat.lt_irrefl _)
    rcases typedTo_initializePde htyped hnot with ⟨new, hnew, htyped'⟩
    rcases pde_initializePde mtrrState now new i j hnew with ⟨hrest, hroom⟩
    have hall : ∀ i' j', (i', j') ∈ done ++ [(i, j)] ↔ (i', j') ∈ done ∨ (i' = i ∧ j' = j) := by
      intro i' j'
      rw [List.mem_append, List.mem_singleton, Prod.mk.injEq]
    refine ⟨new, hnew, htyped', inOrder_mono (inOrder_step horder hlt hrest ?_ ?_) ?_⟩
    · intro hsplit
      exact Or.inr (hroom hsplit)
    · exact typedOn_mono htyped'.pdes fun i' j' hP => (hall i' j').mpr hP
    · intro i' j' hmem
      exact (hall i' j').mp hmem
  rcases hloop with ⟨new, hnew, htyped, horder⟩
  exact ⟨new, hnew, inOrder_mono horder fun i j _ => mem_pdeIndices i j, htyped.tables⟩

end

/-! ### Every page -/

section
variable {mtrrState : MtrrState} {was : Fin 512 → Fin 512 → Prop} {pages : EptPages}

/-- The entries of a split PDE are typed by what they map. -/
theorem memoryType_of_split (h : pages.WF) (hown : pages.OwnFrames)
    (htables : ∀ t : Fin eptSplitPteCount, t.val < pages.splitPteUsed →
      TableTyped mtrrState pages t) {q : GuestPage} (hsplit : pages.IsSplit q.pdpt q.pd) :
    (pages.walk q).memoryType = frameType mtrrState q.frame := by
  rcases Option.isSome_iff_exists.mp ((isSplit_iff h q.pdpt q.pd).mp hsplit) with ⟨t, ht⟩
  have hptr : pages.ptr q = some (t, q.pt) := by
    unfold EptPages.ptr
    rw [ht]
    rfl
  rw [← hown q, walk_of_ptr h hptr]
  exact htables t (pde_of_tableOf_some h ht).2 q.pt

/-- A large PDE gives its pages its own type. -/
theorem memoryType_of_large {q : GuestPage} {e : EptPte}
    (hpde : pages.pde q.pdpt q.pd = .large e) : (pages.walk q).memoryType = e.memoryType := by
  unfold EptPages.walk
  rw [hpde]
  rfl

/-- The range that a PDE stands for is that of its 512 pages. -/
theorem pdeType_spec (mtrrState : MtrrState) (i j : Fin 512) :
    IsGLB {x | ∃ t ∈ pdePageTypes mtrrState i j, x = (⟨t⟩ : MemType)}
        ⟨(pdeType mtrrState i j).type⟩ ∧
      ((pdeType mtrrState i j).isUniform = true ↔
        ∃ type, ∀ t ∈ pdePageTypes mtrrState i j, t = type) := by
  have hspec := rangeMemoryType_spec mtrrState (pdeNumber i j * 512) 511
  have hstart : pdeNumber i j * 512 * 0x1000 = pdeNumber i j * 0x200000 := Nat.mul_assoc _ 512 _
  rw [hstart] at hspec
  exact hspec

/-- The type of page `k` is among the types of the range. -/
theorem mem_pageTypes (mtrrState : MtrrState) (p : Nat) {k n : Nat} (hk : k < n) :
    getMtrrMemoryTypeSingle mtrrState ((p + k) * 0x1000) ∈ pageTypes mtrrState p n :=
  List.mem_map.mpr ⟨k, List.mem_range.mpr hk, rfl⟩

/-- The type of a page is among those of its PDE. -/
theorem mem_pdePageTypes (mtrrState : MtrrState) (q : GuestPage) :
    getMtrrMemoryTypeSingle mtrrState (q.frame * 0x1000) ∈ pdePageTypes mtrrState q.pdpt q.pd := by
  have hframe : q.frame = pdeNumber q.pdpt q.pd * 512 + q.pt := rfl
  have hmem := @mem_pageTypes mtrrState (pdeNumber q.pdpt q.pd * 512) q.pt 512 q.pt.isLt
  unfold pdePageTypes
  rw [hframe]
  exact hmem

/-- The type of uniform pages is that of their range. -/
theorem pdeType_of_uniform {i j : Fin 512} (h : (pdeType mtrrState i j).isUniform = true)
    {type : Nat} (hmem : type ∈ pdePageTypes mtrrState i j) :
    (pdeType mtrrState i j).type = type := by
  rcases pdeType_spec mtrrState i j with ⟨hbound, huniform⟩
  rcases huniform.mp h with ⟨one, hall⟩
  exact MemType.mk.inj (MemType.eq_of_const hbound hall hmem)

/-- A large PDE over mixed pages is one that had to stay large. -/
theorem leftLarge_of_mixed (horder : InOrder mtrrState was (fun _ _ => True) pages)
    {i j : Fin 512} {e : EptPte} (hpde : pages.pde i j = .large e)
    (hmixed : (pdeType mtrrState i j).isUniform = false) : LeftLarge mtrrState was pages i j := by
  rcases horder.typed.pde i j trivial e hpde with ⟨htype, hroom⟩
  rcases pdeType_spec mtrrState i j with ⟨hbound, huniform⟩
  refine ⟨?_, ?_, ?_, (pdeType mtrrState i j).type, hbound, ?_⟩
  · intro hone
    rw [huniform.mpr hone] at hmixed
    cases hmixed
  · rw [hmixed] at hroom
    exact hroom.resolve_left Bool.false_ne_true
  · intro i' j' hsplit hwas
    exact horder.order i j i' j' trivial trivial ⟨⟨e, hpde⟩, hmixed⟩ hsplit hwas
  · intro k
    have hlarge : (pages.walk ⟨i, j, k⟩).memoryType = e.memoryType :=
      memoryType_of_large (q := ⟨i, j, k⟩) hpde
    rw [hlarge, htype]

/-- The loops leave every page with its type, or under a PDE that had to
stay large. -/
theorem placed_of_inOrder (h : pages.WF) (hown : pages.OwnFrames)
    (horder : InOrder mtrrState was (fun _ _ => True) pages)
    (htables : ∀ t : Fin eptSplitPteCount, t.val < pages.splitPteUsed →
      TableTyped mtrrState pages t) (q : GuestPage) : Placed mtrrState was pages q := by
  -- A page of a split PDE has its own type. That of a large one has the type of
  -- the range, its own if that is uniform.
  cases hpde : pages.pde q.pdpt q.pd with
  | split e =>
    have hsplit : pages.IsSplit q.pdpt q.pd := by
      unfold EptPages.IsSplit
      rw [hpde]
      rfl
    exact Or.inl (memoryType_of_split h hown htables hsplit)
  | large e =>
    cases hmixed : (pdeType mtrrState q.pdpt q.pd).isUniform with
    | true =>
      have hone := pdeType_of_uniform hmixed (mem_pdePageTypes mtrrState q)
      have htype := (horder.typed.pde q.pdpt q.pd trivial e hpde).1
      refine Or.inl ?_
      rw [memoryType_of_large hpde, htype, hone]
    | false => exact Or.inr (leftLarge_of_mixed horder hpde hmixed)

end

/-- The walks of two views that show the same map agree on frames and
access. -/
theorem mapping_of_view {pages pages' : EptPages} (h : pages.view = pages'.view)
    (q : GuestPage) : (pages.walk q).mapping = (pages'.walk q).mapping :=
  congrFun (congrArg View.map h) q

/-- A new view is in order and maps every page to itself with full
access. -/
theorem ownFrames_initializeEpt (frames : TableFrames) (mtrrState : MtrrState) :
    (initializeEpt frames mtrrState).WF ∧ (initializeEpt frames mtrrState).OwnFrames ∧
      ∀ q, ((initializeEpt frames mtrrState).walk q).mapping = ⟨true, true, true, q.frame⟩ := by
  have hpair := initializeEpt_pair frames frames mtrrState
  have hmapping : ∀ q, ((initializeEpt frames mtrrState).walk q).mapping =
      ⟨true, true, true, q.frame⟩ := fun q => congrFun (congrArg View.map hpair.view) q
  exact ⟨hpair.wf, fun q => congrArg Mapping.frame (hmapping q), hmapping⟩

/-- The types in a new view. No PDE was split before. -/
theorem placed_initializeEpt (frames : TableFrames) (mtrrState : MtrrState) (q : GuestPage) :
    Placed mtrrState (fun _ _ => False) (initializeEpt frames mtrrState) q := by
  rcases ownFrames_initializeEpt frames mtrrState with ⟨hwf, hown, -⟩
  rcases inOrder_initializeEpt frames mtrrState with ⟨new, hnew, horder, htables⟩
  have hresult : initializeEpt frames mtrrState = new := by
    unfold initializeEpt
    rw [hnew]
    rfl
  rw [hresult] at hwf hown ⊢
  exact placed_of_inOrder hwf hown horder htables q

/-- An update changes neither the frame nor the rights of a page. -/
theorem mapping_updateEptMemoryTypes {pages : EptPages} (h : pages.WF) (mtrrState : MtrrState)
    (q : GuestPage) :
    ((updateEptMemoryTypes pages mtrrState).walk q).mapping = (pages.walk q).mapping :=
  mapping_of_view (updateEptMemoryTypes_pair mtrrState (shows_self h)).view q

/-- The types after an update. PDEs that were split before stay split. -/
theorem placed_updateEptMemoryTypes {pages : EptPages} (h : pages.WF) (hown : pages.OwnFrames)
    (mtrrState : MtrrState) (q : GuestPage) :
    Placed mtrrState pages.IsSplit (updateEptMemoryTypes pages mtrrState) q := by
  have hwf := (updateEptMemoryTypes_pair mtrrState (shows_self h)).wf
  have hmapping := mapping_updateEptMemoryTypes h mtrrState
  rcases updating_updateEptMemoryTypes h mtrrState with ⟨new, hnew, horder, htables⟩
  have hresult : updateEptMemoryTypes pages mtrrState = new := by
    unfold updateEptMemoryTypes
    rw [hnew]
    rfl
  rw [hresult] at hwf hmapping ⊢
  -- An update of the types leaves the frames alone.
  have hown' : new.OwnFrames := by
    intro q
    have hframe : (new.walk q).pageFrameNumber = (pages.walk q).pageFrameNumber :=
      congrArg Mapping.frame (hmapping q)
    rw [hframe, hown q]
  exact placed_of_inOrder hwf hown' horder htables q

/-- For every MTRR state, a new view and an updated one have the types
of the pages, except under PDEs that had to stay large. Neither loop
leaves early, and a page keeps its frame and access rights. A new view
maps every page to itself with full access. -/
theorem memoryTypes_placed (mtrrState : MtrrState) :
    (∀ frames : TableFrames,
      (∃ new, pdeIndices.foldlM (initializePde mtrrState) (EptPages.zeroed frames) = .ok new) ∧
      (∀ q, Placed mtrrState (fun _ _ => False) (initializeEpt frames mtrrState) q) ∧
      ∀ q, ((initializeEpt frames mtrrState).walk q).mapping = ⟨true, true, true, q.frame⟩) ∧
    ∀ pages : EptPages, pages.WF → pages.OwnFrames →
      (∃ new, (List.finRange 512).foldlM (updatePd mtrrState) pages = .ok new) ∧
      (∀ q, Placed mtrrState pages.IsSplit (updateEptMemoryTypes pages mtrrState) q) ∧
      ∀ q, ((updateEptMemoryTypes pages mtrrState).walk q).mapping = (pages.walk q).mapping := by
  constructor
  · intro frames
    rcases inOrder_initializeEpt frames mtrrState with ⟨new, hnew, -⟩
    exact ⟨⟨new, hnew⟩, placed_initializeEpt frames mtrrState,
      (ownFrames_initializeEpt frames mtrrState).2.2⟩
  · intro pages hwf hown
    rcases updating_updateEptMemoryTypes hwf mtrrState with ⟨new, hnew, -⟩
    exact ⟨⟨new, hnew⟩, placed_updateEptMemoryTypes hwf hown mtrrState,
      mapping_updateEptMemoryTypes hwf mtrrState⟩

/-- Tables in the first frames. -/
def lowFrames : TableFrames := ⟨Fin.val, Fin.val_injective⟩

/-- The MTRRs before they are enabled. -/
def mtrrsOff : MtrrState := ⟨false, false, 0, false, fun _ => 0, []⟩

/-- The page at 0x5000 is uncacheable, all others are write-back. -/
def uncachedPage : MtrrState where
  mtrrEnable := true
  fixedRangeMtrrEnable := false
  defaultMemoryType := 6
  fixedSupported := false
  fixed _ := 0
  variableRanges := [⟨0, 5, true, 0xFFFFFFFFF⟩]

/-- The mask of the one range has all bits of an address, so only the
page at 0x5000 is in it. -/
theorem memoryTypeSingle_uncachedPage {frame : Nat} (h : frame < 2 ^ 36) :
    getMtrrMemoryTypeSingle uncachedPage (frame * 0x1000) = if frame = 5 then 0 else 6 := by
  -- Masking with all ones below bit 48 changes no address that is used here.
  have hshift : ∀ n : Nat, n * 0x1000 = n <<< 12 := fun n => (Nat.shiftLeft_eq n 12).symm
  have hmask : frame * 0x1000 &&& 0xFFFFFFFFF <<< 12 = frame * 0x1000 := by
    have hones : frame &&& 0xFFFFFFFFF = frame := by
      rw [show 0xFFFFFFFFF = 2 ^ 36 - 1 by decide, Nat.and_two_pow_sub_one_eq_mod,
        Nat.mod_eq_of_lt h]
    rw [hshift, ← Nat.shiftLeft_and_distrib, hones]
  have hbase : 5 <<< 12 &&& 0xFFFFFFFFF <<< 12 = 5 * 0x1000 := by decide
  have hround : variableRangeType (frame * 0x1000) memoryTypeInvalid
      ⟨0, 5, true, 0xFFFFFFFFF⟩ = if frame = 5 then 0 else memoryTypeInvalid := by
    simp only [variableRangeType, hmask, hbase, Bool.not_true, Bool.false_eq_true, if_false,
      if_true]
    -- The range matches exactly the page at frame 5.
    by_cases hframe : frame = 5
    · rw [if_neg (not_not.mpr (congrArg (· * 0x1000) hframe)), if_pos hframe]
    · have hne : frame * 0x1000 ≠ 5 * 0x1000 := by omega
      rw [if_pos hne, if_neg hframe]
  have hloop : getMtrrMemoryTypeSingle uncachedPage (frame * 0x1000) =
      if variableRangeType (frame * 0x1000) memoryTypeInvalid ⟨0, 5, true, 0xFFFFFFFFF⟩ ≠
          memoryTypeInvalid then
        variableRangeType (frame * 0x1000) memoryTypeInvalid ⟨0, 5, true, 0xFFFFFFFFF⟩
      else 6 := by
    unfold getMtrrMemoryTypeSingle
    rw [if_neg (by decide), if_neg fun hfixed => Bool.false_ne_true hfixed.2.1]
    rfl
  rw [hloop, hround]
  by_cases hframe : frame = 5
  · rw [if_pos hframe, if_pos hframe]
    decide
  · rw [if_neg hframe, if_neg hframe]
    decide

/-- When no PDE was split before, one that stayed large has a new split
PDE in front of it. -/
theorem exists_split_before {mtrrState : MtrrState} {pages : EptPages} {i j : Fin 512}
    (hkept : Kept pages) (h : LeftLarge mtrrState (fun _ _ => False) pages i j) :
    ∃ i' j', pdeNumber i' j' < pdeNumber i j := by
  have hpos : 0 < eptSplitPteCount := by decide
  obtain ⟨i', j', htable⟩ := hkept.packed ⟨0, hpos⟩ (by rw [h.full]; exact hpos)
  have hsplit : pages.IsSplit i' j' := by
    rw [isSplit_iff hkept.wf, htable]
    rfl
  exact ⟨i', j', h.before i' j' hsplit not_false⟩

/-- A view from before the MTRRs are enabled. The update splits the
first PDE, and every page gets its own type. -/
theorem memoryTypes_placed_update : ∀ q,
    ((updateEptMemoryTypes (initializeEpt lowFrames mtrrsOff) uncachedPage).walk q).memoryType =
      if q = ⟨0, 0, 5⟩ then 0 else 6 := by
  intro q
  obtain ⟨hwf, hown, _⟩ := ownFrames_initializeEpt lowFrames mtrrsOff
  have hkept := kept_updateEptMemoryTypes (initializeEpt_kept lowFrames mtrrsOff) uncachedPage
  -- A view built with the MTRRs off is uniform everywhere and has split
  -- nothing.
  have hsplit : (initializeEpt lowFrames mtrrsOff).IsSplit = fun _ _ => False := by
    funext i j
    rw [eq_iff_iff, iff_false, isSplit_iff hwf, Option.not_isSome_iff_eq_none]
    by_contra hsome
    obtain ⟨t, ht⟩ := Option.ne_none_iff_exists'.mp hsome
    have hused := (pde_of_tableOf_some hwf ht).2
    rw [initializeEpt_used lowFrames rfl] at hused
    exact Nat.not_lt_zero _ hused
  have hplaced := ((memoryTypes_placed uncachedPage).2 _ hwf hown).2.1 q
  rw [hsplit] at hplaced
  have hframe : q.frame = 5 ↔ q = ⟨0, 0, 5⟩ :=
    GuestPage.frame_injective.eq_iff (b := (⟨0, 0, 5⟩ : GuestPage))
  have hlt : ∀ i j : Fin 512, ∀ k < 512, pdeNumber i j * 512 + k < 2 ^ 36 := by
    intro i j k hk
    unfold pdeNumber
    omega
  cases hplaced with
  | inl htype =>
    rw [htype, memoryTypeSingle_uncachedPage
      (show q.frame < 2 ^ 36 from hlt q.pdpt q.pd q.pt q.pt.isLt)]
    simp only [hframe]
    split <;> rfl
  | inr hlarge =>
    exfalso
    by_cases hfirst : pdeNumber q.pdpt q.pd = 0
    · -- Nothing can be split in front of the first PDE.
      obtain ⟨i', j', hbefore⟩ := exists_split_before hkept hlarge
      omega
    · -- The pages of any other PDE are write-back.
      refine hlarge.mixed ⟨6, fun t ht => ?_⟩
      obtain ⟨k, hk, rfl⟩ := List.mem_map.mp ht
      rw [memoryTypeSingle_uncachedPage (hlt q.pdpt q.pd k (List.mem_range.mp hk)),
        if_neg (by omega)]

/-- One valid variable range over all addresses, with a type that no
processor has. -/
def reservedType : MtrrState where
  mtrrEnable := true
  fixedRangeMtrrEnable := false
  defaultMemoryType := 6
  fixedSupported := false
  fixed _ := 0
  variableRanges := [⟨9, 0, true, 0⟩]

/-- The one range covers every address. -/
theorem memoryTypeSingle_reservedType (a : Nat) :
    getMtrrMemoryTypeSingle reservedType a = 9 := by
  simp [getMtrrMemoryTypeSingle, reservedType, variableRangeType, memoryTypeInvalid]

/-- Pages that have one type get its low three bits. -/
theorem memoryType_of_const {mtrrState : MtrrState} {type : Nat}
    (h : ∀ a, getMtrrMemoryTypeSingle mtrrState a = type) (frames : TableFrames)
    (q : GuestPage) : ((initializeEpt frames mtrrState).walk q).memoryType = type % 8 := by
  rcases placed_initializeEpt frames mtrrState q with htype | hleft
  · rw [htype, h]
  · refine absurd ⟨type, ?_⟩ hleft.mixed
    intro t ht
    rcases List.mem_map.mp ht with ⟨k, -, rfl⟩
    exact h _

/-- An entry has three bits for a type, and drops the rest of it. -/
theorem memoryType_truncated :
    getMtrrMemoryTypeSingle reservedType 0 = 9 ∧
      ((initializeEpt lowFrames reservedType).walk ⟨0, 0, 0⟩).memoryType = 1 :=
  ⟨memoryTypeSingle_reservedType 0,
    memoryType_of_const memoryTypeSingle_reservedType lowFrames ⟨0, 0, 0⟩⟩

end Revhv.Ept
