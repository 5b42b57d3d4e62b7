import Revhv.Proofs.EptOperations

/-!
# `Revhv.Proofs.EptTyping`: the memory types a view ends up with

`EptMemoryTypes` shows that building and updating a view changes nothing
but memory types. Here is what those types are.

* `Typed`: every entry has the type the MTRRs give to what it maps. A
  large PDE over mixed 4 KB pages has the combined type, and there is
  one only when no table is left.
* `typed_initializeEpt` / `typed_updateEptMemoryTypes`: building a view
  and updating it end in `Typed`, when no hook is active.
-/

set_option autoImplicit false

namespace Revhv.Ept

open Revhv.Lib Revhv.Memory

/-! ### The property -/

/-- The type of the 2 MB a PDE stands for. -/
def pdeType (mtrrState : MtrrState) (i j : Fin 512) : RangeType :=
  getMtrrRangeMemoryType mtrrState (((i : Nat) * 512 + j) * 0x200000) 0x200000

/-- A large PDE has the type of its 2 MB. Mixed pages are left under one
only for want of tables. -/
def PdeTyped (mtrrState : MtrrState) (pages : EptPages) (i j : Fin 512) : Prop :=
  ∀ e, pages.pde i j = .large e → e.memoryType = (pdeType mtrrState i j).type % 8 ∧
    ((pdeType mtrrState i j).isUniform = true ∨ pages.splitPteUsed = eptSplitPteCount)

/-- The type an entry for `frame` gets. -/
def frameType (mtrrState : MtrrState) (frame : Nat) : Nat :=
  getMtrrMemoryTypeSingle mtrrState (frame * 0x1000) % 8

/-- The entries of a table have the types of the frames they map. -/
def TableTyped (mtrrState : MtrrState) (pages : EptPages) (t : Fin eptSplitPteCount) : Prop :=
  ∀ k, (pages.splitPte t k).memoryType = frameType mtrrState (pages.splitPte t k).pageFrameNumber

/-- A view has the memory types of the MTRRs. -/
structure Typed (mtrrState : MtrrState) (pages : EptPages) : Prop where
  large : ∀ i j, PdeTyped mtrrState pages i j
  /-- A page of a split PDE has its own type. -/
  split : ∀ i j, pages.IsSplit i j → ∀ k, (pages.walk ⟨i, j, k⟩).memoryType =
    frameType mtrrState (GuestPage.frame ⟨i, j, k⟩)

/-! ### Tables -/

/-- The entry as the typing loop leaves it. -/
def retype (mtrrState : MtrrState) (e : EptPte) : EptPte :=
  e.withMemoryType (getMtrrMemoryTypeSingle mtrrState (e.pageFrameNumber * 0x1000))

/-- The view with the tables in `P` typed. -/
def retyped (mtrrState : MtrrState) (pages : EptPages) (P : Fin eptSplitPteCount → Prop)
    [DecidablePred P] : EptPages :=
  pages.withPtes fun t k =>
    if P t then retype mtrrState (pages.splitPte t k) else pages.splitPte t k

section
variable {mtrrState : MtrrState} {pages : EptPages}

/-- The typing loop over the entries `ks` of a table. -/
theorem typePtes_eq (mtrrState : MtrrState) (pages : EptPages) (t : Fin eptSplitPteCount)
    {ks : List (Fin 512)} (hnodup : ks.Nodup) :
    ks.foldlM (typePte mtrrState t) pages = .ok (pages.withPtes fun t' k =>
      if t' = t ∧ k ∈ ks then retype mtrrState (pages.splitPte t' k)
      else pages.splitPte t' k) := by
  have hloop : ∃ new, ks.foldlM (typePte mtrrState t) pages = .ok new ∧
      new = pages.withPtes fun t' k => if t' = t ∧ k ∈ ks then
        retype mtrrState (pages.splitPte t' k) else pages.splitPte t' k := by
    refine Loop.rule_ok (fun done new => new = pages.withPtes fun t' k =>
      if t' = t ∧ k ∈ done then retype mtrrState (pages.splitPte t' k)
      else pages.splitPte t' k) ?_ ?_
    · simp only [List.not_mem_nil, and_false, if_false]
      rfl
    · intro done k rest new hxs hI
      -- The entry of this round has not been typed yet.
      have hnot : k ∉ done := by
        intro hmem
        rw [hxs] at hnodup
        exact (List.nodup_append.mp hnodup).2.2 k hmem k List.mem_cons_self rfl
      subst hI
      unfold typePte
      simp only [rangeMemoryType_page, Bool.not_true, Bool.false_eq_true, if_false]
      refine ⟨_, rfl, ?_⟩
      unfold EptPages.writePte EptPages.withPtes
      congr 1
      funext t' k'
      by_cases ht : t' = t
      · subst ht
        rw [Function.update_self]
        by_cases hk : k' = k
        · subst hk
          rw [Function.update_self]
          simp only [hnot, and_false, if_false, List.mem_append, List.mem_singleton, or_true,
            and_self, if_true]
          rfl
        · rw [Function.update_of_ne hk]
          simp only [List.mem_append, List.mem_singleton, hk, or_false]
      · rw [Function.update_of_ne ht]
        simp only [ht, false_and, if_false]
  obtain ⟨new, hnew, heq⟩ := hloop
  rw [hnew, heq]

/-- The typing loop types the whole table and leaves the others alone. -/
theorem typeTable_eq (mtrrState : MtrrState) (pages : EptPages) (t : Fin eptSplitPteCount) :
    typeTable mtrrState pages t = .ok (retyped mtrrState pages fun t' => t' = t) := by
  unfold typeTable
  rw [typePtes_eq mtrrState pages t (List.nodup_finRange 512)]
  unfold retyped
  simp only [List.mem_finRange, and_true]

/-- Typing an entry twice is typing it once. -/
theorem retype_retype (mtrrState : MtrrState) (e : EptPte) :
    retype mtrrState (retype mtrrState e) = retype mtrrState e := rfl

/-- The loop over the tables in use. -/
theorem typeTables_eq (mtrrState : MtrrState) (ts : List (Fin eptSplitPteCount))
    (pages : EptPages) :
    ts.foldlM (typeTable mtrrState) pages = .ok (retyped mtrrState pages fun t => t ∈ ts) := by
  -- By induction over the tables. Typing a table twice is the same as once.
  induction ts generalizing pages with
  | nil =>
    simp only [List.foldlM_nil, retyped, List.not_mem_nil, if_false]
    rfl
  | cons t ts ih =>
    rw [Loop.foldlM_cons_ok (typeTable_eq mtrrState pages t), ih]
    unfold retyped EptPages.withPtes
    congr 2
    funext t' k
    by_cases ht : t' = t
    · by_cases hmem : t' ∈ ts
      · simp only [ht ▸ hmem, ht, if_true, List.mem_cons, or_true, retype_retype]
      · simp only [ht ▸ hmem, ht, if_true, if_false, List.mem_cons, true_or]
    · simp only [ht, if_false, List.mem_cons, false_or]

/-- A table is typed after its own round, and stays so. -/
theorem tableTyped_retyped (mtrrState : MtrrState) (pages : EptPages)
    (P : Fin eptSplitPteCount → Prop) [DecidablePred P] {t : Fin eptSplitPteCount}
    (h : P t ∨ TableTyped mtrrState pages t) :
    TableTyped mtrrState (retyped mtrrState pages P) t := by
  intro k
  show (if P t then _ else _ : EptPte).memoryType = frameType mtrrState (if P t then _ else _ :
    EptPte).pageFrameNumber
  by_cases ht : P t
  · simp only [ht, if_true]
    rfl
  · simp only [ht, if_false]
    exact (h.resolve_left ht) k

end

/-! ### PDEs -/

/-- The PDEs in `P` are typed. -/
structure TypedOn (mtrrState : MtrrState) (P : Fin 512 → Fin 512 → Prop) (pages : EptPages) :
    Prop where
  pde : ∀ i j, P i j → PdeTyped mtrrState pages i j
  used_le : pages.splitPteUsed ≤ eptSplitPteCount

section
variable {mtrrState : MtrrState} {P : Fin 512 → Fin 512 → Prop} {pages : EptPages}
  {i j : Fin 512}

/-- A large PDE with its type. -/
theorem typedOn_setPde (h : TypedOn mtrrState P pages) {e : EptPte}
    (hroom : (pdeType mtrrState i j).isUniform = true ∨ pages.splitPteUsed = eptSplitPteCount) :
    TypedOn mtrrState (fun i' j' => P i' j' ∨ (i' = i ∧ j' = j))
      (pages.setPde i j (.large (e.withMemoryType (pdeType mtrrState i j).type))) where
  pde i' j' hP e' he' := by
    rw [pde_setPde] at he'
    split at he'
    · rename_i hij
      cases he'
      rw [hij.1, hij.2]
      exact ⟨rfl, hroom⟩
    · rename_i hne
      exact h.pde i' j' (hP.resolve_right hne) e' he'
  used_le := h.used_le

/-- A split leaves the other PDEs typed, and nothing to type at its own
index. -/
theorem typedOn_splitPde (h : TypedOn mtrrState P pages) {pages' : EptPages}
    {t : Fin eptSplitPteCount} (hs : splitPde pages i j = some (pages', t)) :
    TypedOn mtrrState (fun i' j' => P i' j' ∨ (i' = i ∧ j' = j)) pages' := by
  obtain ⟨e, hpde, hused, hr⟩ := splitPde_some_iff hs
  cases hr
  refine ⟨fun i' j' hP e' he' => ?_, hused⟩
  have hold : (pages.setPde i j (.split (tablePde (pages.splitPtePfns.frame ⟨_, hused⟩)))).pde i' j'
      = .large e' := he'
  rw [pde_setPde] at hold
  split at hold
  · cases hold
  · rename_i hne
    obtain ⟨htype, hroom⟩ := h.pde i' j' (hP.resolve_right hne) e' hold
    -- A table was left for this split, so there is a uniform range behind the large PDE.
    exact ⟨htype, Or.inl (hroom.resolve_right (Nat.ne_of_lt hused))⟩

/-- Typing tables leaves the PDEs. -/
theorem typedOn_retyped (h : TypedOn mtrrState P pages) (Q : Fin eptSplitPteCount → Prop)
    [DecidablePred Q] : TypedOn mtrrState P (retyped mtrrState pages Q) :=
  ⟨h.pde, h.used_le⟩

/-- The types of fewer PDEs. -/
theorem typedOn_mono {P' : Fin 512 → Fin 512 → Prop} (h : TypedOn mtrrState P pages)
    (hsub : ∀ i j, P' i j → P i j) : TypedOn mtrrState P' pages :=
  ⟨fun i j hP => h.pde i j (hsub i j hP), h.used_le⟩

/-- A split that fails on a large PDE fails for want of tables. -/
theorem full_of_splitPde_none (h : TypedOn mtrrState P pages) {e : EptPte}
    (hpde : pages.pde i j = .large e) (hs : splitPde pages i j = none) :
    pages.splitPteUsed = eptSplitPteCount := by
  by_contra hne
  rw [splitPde_eq_some hpde (Nat.lt_of_le_of_ne h.used_le hne)] at hs
  cases hs

end

/-! ### The whole view -/

/-- What the loops have established when no PDE and no table is left
out. -/
theorem typed_of_loops {mtrrState : MtrrState} {pages : EptPages} (h : Kept pages)
    (hopen : ∀ q, ¬ pages.view.Guarded q) (hpdes : TypedOn mtrrState (fun _ _ => True) pages)
    (htables : ∀ t : Fin eptSplitPteCount, t.val < pages.splitPteUsed →
      TableTyped mtrrState pages t) : Typed mtrrState pages where
  large i j := hpdes.pde i j trivial
  split i j hsplit k := by
    obtain ⟨t, ht⟩ := Option.isSome_iff_exists.mp ((isSplit_iff h.wf i j).mp hsplit)
    have hptr : pages.ptr ⟨i, j, k⟩ = some (t, k) := by
      unfold EptPages.ptr
      rw [ht]
      rfl
    have hwalk := walk_of_ptr h.wf hptr
    -- No hook is active, so the entry maps the page it stands for.
    have hframe : (pages.walk ⟨i, j, k⟩).pageFrameNumber = GuestPage.frame ⟨i, j, k⟩ :=
      h.atHome _ (hopen _)
    rw [← hframe, hwalk]
    exact htables t (pde_of_tableOf_some h.wf ht).2 k

section
variable {mtrrState : MtrrState} {P : Fin 512 → Fin 512 → Prop} {pages : EptPages}

/-- A round of the inner loop types its PDE. -/
theorem typedOn_updatePde (hwf : pages.WF) (h : TypedOn mtrrState P pages) (i j : Fin 512) :
    TypedOn mtrrState (fun i' j' => P i' j' ∨ (i' = i ∧ j' = j))
      (updatePde mtrrState i pages j) := by
  unfold updatePde
  -- A PDE that is split is not typed here. Its entries are, later.
  cases hpde : pages.pde i j with
  | split e =>
    simp only
    refine ⟨fun i' j' hP e' he' => ?_, h.used_le⟩
    have hne : ¬ (i' = i ∧ j' = j) := by
      intro hij
      rw [hij.1, hij.2, hpde] at he'
      cases he'
    exact h.pde i' j' (hP.resolve_right hne) e' he'
  | large e =>
    simp only [hwf.large i j e hpde]
    change TypedOn mtrrState _ (if (pdeType mtrrState i j).isUniform = true then
      pages.setPde i j (.large (e.withMemoryType (pdeType mtrrState i j).type)) else _)
    split
    · rename_i huniform
      exact typedOn_setPde h (Or.inl huniform)
    · split
      · rename_i hs
        exact typedOn_setPde h (Or.inr (full_of_splitPde_none h hpde hs))
      · rename_i hs
        exact typedOn_splitPde h hs

/-- The PDEs of one directory. -/
theorem typedOn_updatePdes (i : Fin 512) (js : List (Fin 512)) (hkept : Kept pages)
    (h : TypedOn mtrrState P pages) :
    Kept (js.foldl (updatePde mtrrState i) pages) ∧
      TypedOn mtrrState (fun i' j' => P i' j' ∨ (i' = i ∧ j' ∈ js))
        (js.foldl (updatePde mtrrState i) pages) := by
  induction js generalizing pages P with
  | nil =>
    refine ⟨hkept, typedOn_mono h fun i' j' hP => ?_⟩
    exact hP.resolve_right fun hnil => absurd hnil.2 List.not_mem_nil
  | cons j js ih =>
    obtain ⟨hkept', htyped⟩ := ih (kept_updatePde mtrrState i j hkept)
      (typedOn_updatePde hkept.wf h i j)
    refine ⟨hkept', typedOn_mono htyped fun i' j' hP => ?_⟩
    rw [List.mem_cons, and_or_left, ← or_assoc] at hP
    exact hP

/-- A round of the outer loop: a directory, then every table in use. -/
theorem updatePd_eq (mtrrState : MtrrState) (pages pages' : EptPages) (i : Fin 512)
    (h : (List.finRange 512).foldl (updatePde mtrrState i) pages = pages') :
    updatePd mtrrState pages i = .ok (retyped mtrrState pages' fun t =>
      t ∈ (List.finRange eptSplitPteCount).filter fun t => t.val < pages'.splitPteUsed) := by
  unfold updatePd
  rw [h]
  exact typeTables_eq mtrrState _ pages'

/-- A round of the outer loop types the PDEs of its directory and all
tables in use. -/
theorem typedOn_updatePd (i : Fin 512) (hkept : Kept pages) (h : TypedOn mtrrState P pages) :
    ∃ new, updatePd mtrrState pages i = .ok new ∧ Kept new ∧
      TypedOn mtrrState (fun i' j' => P i' j' ∨ i' = i) new ∧
      ∀ t : Fin eptSplitPteCount, t.val < new.splitPteUsed → TableTyped mtrrState new t := by
  have hpdes := typedOn_updatePdes i (List.finRange 512) hkept h
  obtain ⟨new, hnew, hknew⟩ := kept_updatePd mtrrState i hkept
  generalize hfold : (List.finRange 512).foldl (updatePde mtrrState i) pages = pages' at hpdes
  have heq := Except.ok.inj (hnew.symm.trans (updatePd_eq mtrrState pages pages' i hfold))
  refine ⟨new, hnew, hknew, ?_⟩
  rw [heq]
  refine ⟨typedOn_retyped (typedOn_mono hpdes.2 fun i' j' hP => ?_) _, fun t ht => ?_⟩
  · exact hP.imp_right fun hi => ⟨hi, List.mem_finRange j'⟩
  · apply tableTyped_retyped
    exact Or.inl (List.mem_filter.mpr ⟨List.mem_finRange t, decide_eq_true ht⟩)

end

/-- An update shows what the view showed before. -/
theorem view_updateEptMemoryTypes {pages : EptPages} (h : pages.WF) (mtrrState : MtrrState) :
    (updateEptMemoryTypes pages mtrrState).view = pages.view :=
  (updateEptMemoryTypes_pair mtrrState
    (Shows.mk h h ⟨rfl, fun _ _ => rfl, rfl⟩ rfl rfl)).view

/-- The directories in `done` are typed, and after the first of them so
are all tables. -/
structure DirectoriesTyped (mtrrState : MtrrState) (done : List (Fin 512)) (pages : EptPages) :
    Prop where
  kept : Kept pages
  pdes : TypedOn mtrrState (fun i _ => i ∈ done) pages
  tables : done ≠ [] → ∀ t : Fin eptSplitPteCount, t.val < pages.splitPteUsed →
    TableTyped mtrrState pages t

/-- The whole update: by induction on the directories, all PDEs and all
tables are typed. -/
theorem updateEptMemoryTypes_directories {pages : EptPages} (hkept : Kept pages)
    (mtrrState : MtrrState) :
    DirectoriesTyped mtrrState (List.finRange 512) (updateEptMemoryTypes pages mtrrState) := by
  have hstart : DirectoriesTyped mtrrState [] pages :=
    ⟨hkept, ⟨fun _ _ hmem => absurd hmem List.not_mem_nil, hkept.wf.used_le⟩,
      fun hne => absurd rfl hne⟩
  have hloop : ∃ new, (List.finRange 512).foldlM (updatePd mtrrState) pages = .ok new ∧
      DirectoriesTyped mtrrState (List.finRange 512) new := by
    -- One directory at a time, whose tables are typed when its PDEs are done.
    refine Loop.rule_ok (DirectoriesTyped mtrrState) hstart fun done i _ pages _ hI => ?_
    obtain ⟨new, hnew, hkept', hpdes, htables⟩ := typedOn_updatePd i hI.kept hI.pdes
    refine ⟨new, hnew, hkept', typedOn_mono hpdes fun i' _ hmem => ?_, fun _ => htables⟩
    rw [List.mem_append, List.mem_singleton] at hmem
    exact hmem
  obtain ⟨new, hnew, hI⟩ := hloop
  unfold updateEptMemoryTypes
  rw [hnew]
  exact hI

/-- An update without an active hook types the view. -/
theorem typed_updateEptMemoryTypes {pages : EptPages} (hkept : Kept pages)
    (hopen : ∀ q, ¬ pages.view.Guarded q) (mtrrState : MtrrState) :
    Typed mtrrState (updateEptMemoryTypes pages mtrrState) := by
  have hview := view_updateEptMemoryTypes hkept.wf mtrrState
  have hdone := updateEptMemoryTypes_directories hkept mtrrState
  apply typed_of_loops hdone.kept
  · intro q
    rw [hview]
    exact hopen q
  · exact typedOn_mono hdone.pdes fun i _ _ => List.mem_finRange i
  · exact hdone.tables (List.ne_nil_of_mem (List.mem_finRange 0))

/-! ### A new view -/

/-- The PDEs in `done` and all tables in use are typed. -/
structure TypedTo (mtrrState : MtrrState) (done : List (Fin 512 × Fin 512)) (pages : EptPages) :
    Prop where
  pdes : TypedOn mtrrState (fun i j => (i, j) ∈ done) pages
  tables : ∀ t : Fin eptSplitPteCount, t.val < pages.splitPteUsed → TableTyped mtrrState pages t

section
variable {mtrrState : MtrrState} {done : List (Fin 512 × Fin 512)} {pages : EptPages}
  {i j : Fin 512}

/-- The PDEs of a list, and one more. -/
theorem typedOn_append (h : TypedOn mtrrState (fun i' j' => (i', j') ∈ done ∨ (i' = i ∧ j' = j))
    pages) : TypedOn mtrrState (fun i' j' => (i', j') ∈ done ++ [(i, j)]) pages :=
  typedOn_mono h fun i' j' hmem => by
    rw [List.mem_append, List.mem_singleton, Prod.mk.injEq] at hmem
    exact hmem

/-- Anything may be stored at a fresh index. -/
theorem typedTo_setPde (h : TypedTo mtrrState done pages) (hnot : (i, j) ∉ done)
    (e : EptPdeSlot) : TypedTo mtrrState done (pages.setPde i j e) := by
  refine ⟨⟨fun i' j' hmem e' he' => ?_, h.pdes.used_le⟩, h.tables⟩
  rw [pde_setPde, if_neg (ne_of_mem hnot hmem)] at he'
  exact h.pdes.pde i' j' hmem e' he'

/-- A split fills the table it takes and no other. -/
theorem tableTyped_splitPde {pages' : EptPages} {t t' : Fin eptSplitPteCount}
    (hs : splitPde pages i j = some (pages', t))
    (h : ∀ t : Fin eptSplitPteCount, t.val < pages.splitPteUsed → TableTyped mtrrState pages t)
    (hne : t' ≠ t) (ht' : t'.val < pages'.splitPteUsed) : TableTyped mtrrState pages' t' := by
  obtain ⟨e, _, hused, hr⟩ := splitPde_some_iff hs
  have hval : t.val = pages.splitPteUsed := by cases hr; rfl
  have hcount : pages'.splitPteUsed = pages.splitPteUsed + 1 := by cases hr; rfl
  have hpte : pages'.splitPte t' = pages.splitPte t' := by
    cases hr
    exact Function.update_of_ne hne _ _
  have hvals : t'.val ≠ t.val := fun heq => hne (Fin.ext heq)
  have hold := h t' (by omega)
  intro k
  rw [hpte]
  exact hold k

/-- One round of `initialize_ept`. -/
theorem typedTo_initializePde (h : TypedTo mtrrState done pages) (hnot : (i, j) ∉ done) :
    ∃ new, initializePde mtrrState pages (i, j) = .ok new ∧
      TypedTo mtrrState (done ++ [(i, j)]) new := by
  have hbase := typedTo_setPde h hnot (.large (identityPde i j))
  have hpde : (pages.setPde i j (.large (identityPde i j))).pde i j =
      .large (identityPde i j) := by rw [pde_setPde, if_pos ⟨rfl, rfl⟩]
  have htype : getMtrrRangeMemoryType mtrrState
      ((identityPde i j).pageFrameNumber * 0x200000) 0x200000 = pdeType mtrrState i j := rfl
  unfold initializePde
  simp only [htype, setPde_setPde]
  -- A PDE stays large over a uniform range, and over a mixed one when no table
  -- is left.
  have hlarge : ((pdeType mtrrState i j).isUniform = true ∨
      pages.splitPteUsed = eptSplitPteCount) → TypedTo mtrrState (done ++ [(i, j)])
        (pages.setPde i j (.large ((identityPde i j).withMemoryType
          (pdeType mtrrState i j).type))) := fun hroom =>
    ⟨typedOn_append (typedOn_setPde h.pdes hroom), h.tables⟩
  split
  · rename_i huniform
    exact ⟨_, rfl, hlarge (Or.inl huniform)⟩
  · cases hs : splitPde (pages.setPde i j (.large (identityPde i j))) i j with
    | none =>
      have hfull : (pages.setPde i j (.large (identityPde i j))).splitPteUsed =
          eptSplitPteCount := full_of_splitPde_none hbase.pdes hpde hs
      exact ⟨_, rfl, hlarge (Or.inr hfull)⟩
    | some r =>
      obtain ⟨split, t⟩ := r
      have hpdes := typedOn_append (typedOn_splitPde hbase.pdes hs)
      refine ⟨_, typeTable_eq mtrrState split t, typedOn_retyped hpdes _, fun t' ht' => ?_⟩
      apply tableTyped_retyped
      -- The new table has just been filled, older ones keep their types.
      by_cases heq : t' = t
      · exact Or.inl heq
      · exact Or.inr (tableTyped_splitPde hs hbase.tables heq ht')

end

/-- A new view is typed. -/
theorem typed_initializeEpt (frames : TableFrames) (mtrrState : MtrrState) :
    Typed mtrrState (initializeEpt frames mtrrState) := by
  have hview := (initializeEpt_pair frames frames mtrrState).view
  have hdone : TypedTo mtrrState pdeIndices (initializeEpt frames mtrrState) := by
    have hstart : TypedTo mtrrState [] (EptPages.zeroed frames) :=
      ⟨⟨fun _ _ hmem => absurd hmem List.not_mem_nil, Nat.zero_le _⟩,
        fun _ ht => absurd ht (Nat.not_lt_zero _)⟩
    obtain ⟨new, hnew, hI⟩ : ∃ new,
        pdeIndices.foldlM (initializePde mtrrState) (EptPages.zeroed frames) = .ok new ∧
        TypedTo mtrrState pdeIndices new := by
      refine Loop.rule_ok (TypedTo mtrrState) hstart fun done ij rest pages hxs hI => ?_
      have hnodup := pdeIndices_nodup
      rw [hxs] at hnodup
      -- Each PDE is initialised once.
      have hnot : ij ∉ done := by
        intro hmem
        exact (List.nodup_append.mp hnodup).2.2 ij hmem ij List.mem_cons_self rfl
      exact typedTo_initializePde hI hnot
    unfold initializeEpt
    rw [hnew]
    exact hI
  refine typed_of_loops (initializeEpt_kept frames mtrrState) (fun q => ?_)
    (typedOn_mono hdone.pdes fun i j _ => mem_pdeIndices i j) hdone.tables
  rw [hview]
  intro hguarded
  obtain ⟨g, hmem, _⟩ := hguarded
  exact absurd hmem List.not_mem_nil

end Revhv.Ept
