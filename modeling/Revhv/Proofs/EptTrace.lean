import Mathlib.Data.Finset.Card
import Revhv.Proofs.EptRefinement

/-!
# `Revhv.Proofs.EptTrace`: the loop of `enable_auto_trace`

The loop goes over the pages of the target range and splits PDEs as it
goes.

* `enableAutoTrace_cases`: it traps the pages of the range in the normal
  view and makes them the only executable ones of the target view, or
  it leaves full access behind in both.
* `Traceable` is the condition on its inputs for the first: every page
  of the range lies below 512 GB, and there is a table for every PDE
  of the range that is not split yet.
-/

set_option autoImplicit false

namespace Revhv.Ept

open Revhv.Lib Revhv.Memory

/-! ### The pages of a range -/

/-- The page round `n` of `enable_auto_trace` works on, if its address
translates. -/
def tracedPage (tables : Tables) (systemCr3 targetVa n : Nat) : Option GuestPage :=
  let gpa := (gvaToGpa tables systemCr3 (targetPageVa targetVa n)).1
  if gpa = 0 then none else some (pageOf gpa)

/-- The pages that back a target range. -/
def tracedPages (tables : Tables) (systemCr3 targetVa targetSize : Nat) : List GuestPage :=
  (List.range (targetPageCount targetVa targetSize)).filterMap
    (tracedPage tables systemCr3 targetVa)

/-- The position of the PDE a page lies under. -/
def GuestPage.pde (q : GuestPage) : Fin 512 × Fin 512 := (q.pdpt, q.pd)

/-- The PDEs of some pages that a view has not split. -/
def newPdes (pages : EptPages) (qs : List GuestPage) : Finset (Fin 512 × Fin 512) :=
  (qs.map GuestPage.pde).toFinset.filter fun ij => pages.tableOf ij.1 ij.2 = none

/-- A range `enable_auto_trace` can serve: it lies below 512 GB, and the
tables suffice. -/
structure Traceable (pages : EptPages) (tables : Tables) (systemCr3 targetVa targetSize : Nat) :
    Prop where
  below : ∀ n < targetPageCount targetVa targetSize,
    (gvaToGpa tables systemCr3 (targetPageVa targetVa n)).1 ≠ 0 →
      pml4Idx (gvaToGpa tables systemCr3 (targetPageVa targetVa n)).1 = 0
  tables : pages.splitPteUsed +
    (newPdes pages (tracedPages tables systemCr3 targetVa targetSize)).card ≤ eptSplitPteCount

/-- The condition is one on the shape of the view. -/
theorem traceable_congr {pages pages' : EptPages} (htable : pages.tableOf = pages'.tableOf)
    (hused : pages.splitPteUsed = pages'.splitPteUsed) {tables : Tables}
    {systemCr3 targetVa targetSize : Nat} :
    Traceable pages tables systemCr3 targetVa targetSize ↔
      Traceable pages' tables systemCr3 targetVa targetSize := by
  have hnew : newPdes pages = newPdes pages' := by
    unfold newPdes
    rw [htable]
  constructor
  · intro h
    exact ⟨h.below, by rw [← hused, ← hnew]; exact h.tables⟩
  · intro h
    exact ⟨h.below, by rw [hused, hnew]; exact h.tables⟩

/-! ### Tables used up by lookups -/

/-- `pages` is what `start` has become after lookups for the pages `qs`. -/
structure LookedUp (start : EptPages) (qs : List GuestPage) (pages : EptPages) : Prop where
  split : ∀ i j, (pages.tableOf i j).isSome ↔
    (start.tableOf i j).isSome ∨ (i, j) ∈ qs.map GuestPage.pde
  used : pages.splitPteUsed = start.splitPteUsed + (newPdes start qs).card

/-- No page looked up, nothing split. -/
theorem lookedUp_nil (pages : EptPages) : LookedUp pages [] pages :=
  ⟨fun _ _ => by simp, by simp [newPdes]⟩

/-- The PDEs of one page more. -/
theorem newPdes_append (start : EptPages) (qs : List GuestPage) (q : GuestPage) :
    newPdes start (qs ++ [q]) =
      if start.tableOf q.pdpt q.pd = none then insert q.pde (newPdes start qs)
      else newPdes start qs := by
  have hlist : ((qs ++ [q]).map GuestPage.pde).toFinset =
      insert q.pde (qs.map GuestPage.pde).toFinset := by
    ext ij
    simp
  unfold newPdes
  rw [hlist, Finset.filter_insert]
  rfl

/-- More pages need more tables. -/
theorem newPdes_mono (start : EptPages) {qs qs' : List GuestPage} (h : qs ⊆ qs') :
    newPdes start qs ⊆ newPdes start qs' := by
  intro ij hij
  simp only [newPdes, Finset.mem_filter, List.mem_toFinset] at hij ⊢
  exact ⟨List.map_subset _ h hij.1, hij.2⟩

/-- A PDE that is still whole is new. -/
theorem pde_notMem_newPdes {start pages : EptPages} {qs : List GuestPage}
    (h : LookedUp start qs pages) {q : GuestPage} (hq : pages.tableOf q.pdpt q.pd = none) :
    start.tableOf q.pdpt q.pd = none ∧ q.pde ∉ newPdes start qs := by
  have hnone : ¬ (pages.tableOf q.pdpt q.pd).isSome := by
    rw [hq]
    exact Bool.false_ne_true
  rw [h.split, not_or] at hnone
  obtain ⟨hstart, hmem⟩ := hnone
  refine ⟨Option.not_isSome_iff_eq_none.mp hstart, fun hin => hmem ?_⟩
  simp only [newPdes, Finset.mem_filter, List.mem_toFinset] at hin
  exact hin.1

/-- One lookup more. -/
theorem lookedUp_append {start pages new : EptPages} {qs : List GuestPage} {q : GuestPage}
    {p : PtePtr} (h : LookedUp start qs pages) (hf : Found pages new q p) :
    LookedUp start (qs ++ [q]) new := by
  refine ⟨fun i j => ?_, ?_⟩
  · rw [hf.table, List.map_append, List.mem_append, List.map_singleton, List.mem_singleton]
    by_cases hij : i = q.pdpt ∧ j = q.pd
    · -- The PDE that this page lies under is the only one that may have been
      -- split.
      have hpde : (i, j) = q.pde := Prod.ext hij.1 hij.2
      simp only [hij, and_self, if_true, Option.isSome_some, true_iff]
      exact Or.inr (Or.inr rfl)
    · have hpde : ¬ (i, j) = q.pde := fun heq => hij (Prod.mk.inj heq)
      simp only [hij, if_false, hpde, or_false]
      exact h.split i j
  · rw [hf.used, newPdes_append]
    cases ht : pages.tableOf q.pdpt q.pd with
    | none =>
      obtain ⟨hstart, hmem⟩ := pde_notMem_newPdes h ht
      rw [if_pos hstart, Finset.card_insert_of_notMem hmem, h.used]
      rfl
    -- A table that is there was either split before the loop or by an earlier
    -- page.
    | some t =>
      have hsome : (pages.tableOf q.pdpt q.pd).isSome := by rw [ht]; rfl
      rw [if_pos (by rfl), h.used]
      by_cases hstart : start.tableOf q.pdpt q.pd = none
      · have hmem : q.pde ∈ newPdes start qs := by
          cases (h.split q.pdpt q.pd).mp hsome with
          | inl hold =>
            rw [hstart] at hold
            cases hold
          | inr hin =>
            simp only [newPdes, Finset.mem_filter, List.mem_toFinset]
            exact ⟨hin, hstart⟩
        rw [if_pos hstart, Finset.insert_eq_of_mem hmem]
      · rw [if_neg hstart]

/-- A range of few pages needs few tables. -/
theorem card_newPdes_le (pages : EptPages) (qs : List GuestPage) :
    (newPdes pages qs).card ≤ qs.length := by
  calc (newPdes pages qs).card
      ≤ (qs.map GuestPage.pde).toFinset.card := Finset.card_filter_le _ _
    _ ≤ (qs.map GuestPage.pde).length := List.toFinset_card_le _
    _ = qs.length := List.length_map _

/-- The start of the lookups counts by its shape only. -/
theorem lookedUp_congr {start start' pages : EptPages} {qs : List GuestPage}
    (htable : start.tableOf = start'.tableOf) (hused : start.splitPteUsed = start'.splitPteUsed)
    (h : LookedUp start qs pages) : LookedUp start' qs pages := by
  refine ⟨fun i j => ?_, ?_⟩
  · rw [← htable]
    exact h.split i j
  · have hnew : newPdes start qs = newPdes start' qs := by
      unfold newPdes
      rw [htable]
    rw [← hused, ← hnew]
    exact h.used

/-! ### The loop -/

/-- Both views are well formed and of one shape. -/
structure EptViews.WF (views : EptViews) : Prop where
  normal : views.normal.WF
  target : views.target.WF
  lockstep : Lockstep views.normal views.target

/-- No page, no change. -/
theorem setExecute_nil (v : View GuestPage Nat) (execute : Bool) :
    v.setExecute [] execute = v := by
  simp [View.setExecute]

/-- One page more. -/
theorem setExecute_append (v : View GuestPage Nat) (pages : List GuestPage) (p q : GuestPage)
    (execute : Bool) :
    (v.setExecute (pages ++ [p]) execute).map q =
      if q = p then { (v.setExecute pages execute).map q with execute := execute }
      else (v.setExecute pages execute).map q := by
  rw [View.map_setExecute, View.map_setExecute]
  by_cases hp : q = p
  · simp only [hp, List.mem_append, List.mem_singleton, or_true, if_true]
    split
    · rfl
    · rfl
  · simp only [List.mem_append, List.mem_singleton, hp, or_false, if_false]

/-- The views after the rounds for `pages`, from `normal` and `target`
on, the shape having been that of `start`. -/
structure Traced (start : EptPages) (normal target : View GuestPage Nat)
    (pages : List GuestPage) (views : EptViews) : Prop where
  wf : views.WF
  normal : views.normal.view = normal.setExecute pages false
  target : views.target.view = target.setExecute pages true
  lookedUp : LookedUp start pages views.normal

/-- The views after the exit of `enable_auto_trace` that gives up. -/
structure Opened (normal target : View GuestPage Nat) (views : EptViews) : Prop where
  wf : views.WF
  normal : views.normal.view = normal.setAccess true true true
  target : views.target.view = target.setAccess true true true

/-- Rights for all pages override those of single ones. -/
theorem setAccess_setExecute (v : View GuestPage Nat) (pages : List GuestPage)
    (r w x execute : Bool) : (v.setExecute pages execute).setAccess r w x = v.setAccess r w x := by
  show View.mk _ _ = View.mk _ _
  congr 1
  funext q
  rw [View.map_setExecute]
  split
  · rfl
  · rfl

/-- The view with the execute right of one page more. -/
theorem view_writeExecute {pages new : EptPages} {p : GuestPage} {ptr : PtePtr}
    (hf : Found pages new p ptr) {v : View GuestPage Nat} {done : List GuestPage}
    {execute : Bool} (hview : pages.view = v.setExecute done execute) :
    (new.writePte ptr fun e => { e with executeAccess := execute }).view =
      v.setExecute (done ++ [p]) execute := by
  show View.mk _ _ = View.mk _ _
  congr 1
  · funext q
    have hmap := mapping_writeExecute hf.wf hf.found execute q
    have hold : (pages.walk q).mapping = (v.setExecute done execute).map q := by
      rw [← hview]
      rfl
    rw [hf.walk, hold] at hmap
    exact hmap.trans (setExecute_append v done p q execute).symm
  · have hguards : pages.hooks.map EptHook.guard = v.guards := by
      have := congrArg View.guards hview
      exact this
    rw [hooks_writePte, hf.hooks, hguards]

/-- One round: the page of the round is trapped in one view and admitted
in the other, an address that does not translate is passed over, or the
loop is left with full access. The last happens for an address from 512
GB on, or when a new PDE meets no free table. -/
theorem tracePage_cases (tables : Tables) (systemCr3 targetVa : Nat) {start : EptPages}
    {normal target : View GuestPage Nat} {done : List GuestPage} {views : EptViews}
    (h : Traced start normal target done views) (n : Nat) :
    (∃ views', tracePage tables systemCr3 targetVa views n = .ok views' ∧
      Traced start normal target
        (done ++ (tracedPage tables systemCr3 targetVa n).toList) views' ∧
      ((gvaToGpa tables systemCr3 (targetPageVa targetVa n)).1 ≠ 0 →
        pml4Idx (gvaToGpa tables systemCr3 (targetPageVa targetVa n)).1 = 0)) ∨
    ∃ views', tracePage tables systemCr3 targetVa views n = .error views' ∧
      Opened normal target views' ∧
      ∃ q, tracedPage tables systemCr3 targetVa n = some q ∧
        (pml4Idx (gvaToGpa tables systemCr3 (targetPageVa targetVa n)).1 = 0 →
          views.normal.tableOf q.pdpt q.pd = none ∧
            eptSplitPteCount ≤ views.normal.splitPteUsed) := by
  -- The walk's answer is only compared with 0 and cut into indices.
  unfold tracePage tracedPage
  generalize (gvaToGpa tables systemCr3 (targetPageVa targetVa n)).1 = gpa
  simp only
  split
  · -- A page without a translation is skipped.
    rename_i hgpa
    refine Or.inl ⟨views, rfl, ?_, fun hne => absurd hgpa hne⟩
    rwa [Option.toList_none, List.append_nil]
  · -- Both views are split at the same places, so their lookups succeed
    -- together.
    have hlock := lockstep_getEptPte h.wf.normal h.wf.target h.wf.lockstep gpa true
    have hfind := getEptPte_isSome_iff h.wf.normal gpa
    cases hn : getEptPte views.normal gpa true with
    | mk new found =>
      cases ht : getEptPte views.target gpa true with
      | mk new' found' =>
        rw [hn, ht] at hlock
        rw [hn] at hfind
        obtain ⟨hfound, hlock⟩ := hlock
        cases hfound
        have hnew : Lockstep new new' := hlock
        cases found with
        | none =>
          have hsame := getEptPte_none hn
          have hsame' := getEptPte_none ht
          subst hsame hsame'
          -- No split page is left, or the address is above 512 GB: both views
          -- are opened.
          refine Or.inr ⟨_, rfl, ⟨?_, ?_, ?_⟩, _, rfl, fun hpml4 => ?_⟩
          · exact ⟨wf_setAllPermissions h.wf.normal _ _ _, wf_setAllPermissions h.wf.target _ _ _,
              lockstep_setAllPermissions hnew _ _ _ _ _ _⟩
          · show (setAllPermissions views.normal true true true).view = _
            rw [view_setAllPermissions h.wf.normal, h.normal, setAccess_setExecute]
          · show (setAllPermissions views.target true true true).view = _
            rw [view_setAllPermissions h.wf.target, h.target, setAccess_setExecute]
          · have hno := mt hfind.mpr Bool.false_ne_true
            rw [not_and, not_or, Option.not_isSome_iff_eq_none, Nat.not_lt] at hno
            exact hno hpml4
        -- The page is found: not executable in the normal view, executable in
        -- the target's.
        | some ptr =>
          have hf := getEptPte_some h.wf.normal hn
          have hf' := getEptPte_some h.wf.target ht
          have hwf := wf_writePte hf.wf ptr fun e => { e with executeAccess := false }
          have hwf' := wf_writePte hf'.wf ptr fun e => { e with executeAccess := true }
          have hlooked := lookedUp_append h.lookedUp hf
          refine Or.inl ⟨_, rfl, ⟨?_, ?_, ?_, ?_⟩, fun _ => (hfind.mp rfl).1⟩
          · exact ⟨hwf, hwf', ⟨hnew.used, hnew.table, hnew.hooks⟩⟩
          · exact view_writeExecute hf h.normal
          · exact view_writeExecute hf' h.target
          · exact ⟨hlooked.split, hlooked.used⟩

/-- A round leaves the loop only on a range that is not `Traceable`. -/
theorem not_traceable {tables : Tables} {systemCr3 targetVa targetSize : Nat}
    {start pages : EptPages} {done rest : List Nat} {n : Nat} {q : GuestPage}
    (hrange : List.range (targetPageCount targetVa targetSize) = done ++ n :: rest)
    (hlooked : LookedUp start (done.filterMap (tracedPage tables systemCr3 targetVa)) pages)
    (hq : tracedPage tables systemCr3 targetVa n = some q)
    (hleft : pml4Idx (gvaToGpa tables systemCr3 (targetPageVa targetVa n)).1 = 0 →
      pages.tableOf q.pdpt q.pd = none ∧ eptSplitPteCount ≤ pages.splitPteUsed) :
    ¬ Traceable start tables systemCr3 targetVa targetSize := by
  intro htraceable
  have hn : n < targetPageCount targetVa targetSize := by
    rw [← List.mem_range, hrange]
    exact List.mem_append_right _ List.mem_cons_self
  have hgpa : (gvaToGpa tables systemCr3 (targetPageVa targetVa n)).1 ≠ 0 := by
    intro hzero
    simp only [tracedPage, hzero, if_true] at hq
    cases hq
  obtain ⟨hnone, hfull⟩ := hleft (htraceable.below n hn hgpa)
  obtain ⟨hstart, hmem⟩ := pde_notMem_newPdes hlooked hnone
  -- The PDE of this page is one of the new ones of the whole range.
  have hsub : newPdes start (done.filterMap (tracedPage tables systemCr3 targetVa) ++ [q]) ⊆
      newPdes start (tracedPages tables systemCr3 targetVa targetSize) := by
    apply newPdes_mono
    unfold tracedPages
    rw [hrange, List.filterMap_append, List.filterMap_cons_some hq]
    intro x hx
    cases List.mem_append.mp hx with
    | inl hold => exact List.mem_append_left _ hold
    | inr hlast =>
      rw [List.mem_singleton] at hlast
      rw [hlast]
      exact List.mem_append_right _ List.mem_cons_self
  have hcard := Finset.card_le_card hsub
  rw [newPdes_append, if_pos hstart, Finset.card_insert_of_notMem hmem] at hcard
  have hused := hlooked.used
  have htables := htraceable.tables
  omega

/-- `enable_auto_trace` traps the pages of a range it can serve in the
normal view, and makes them the only executable ones of the target view.
On any other range it gives up, with full access in both. -/
theorem enableAutoTrace_cases (tables : Tables) (systemCr3 : Nat) {views : EptViews}
    (h : views.WF) (targetVa targetSize : Nat) :
    (∃ views', enableAutoTrace tables systemCr3 views targetVa targetSize = .ok views' ∧
      Traced views.normal views.normal.view (views.target.view.setAccess true true false)
        (tracedPages tables systemCr3 targetVa targetSize) views' ∧
      Traceable views.normal tables systemCr3 targetVa targetSize) ∨
    ∃ views', enableAutoTrace tables systemCr3 views targetVa targetSize = .error views' ∧
      Opened views.normal.view (views.target.view.setAccess true true false) views' ∧
      ¬ Traceable views.normal tables systemCr3 targetVa targetSize := by
  have hstart : Traced views.normal views.normal.view
      (views.target.view.setAccess true true false) []
      { views with target := setAllPermissions views.target true true false } := by
    refine ⟨⟨h.normal, wf_setAllPermissions h.target _ _ _, ?_⟩, ?_, ?_, lookedUp_nil _⟩
    · exact ⟨h.lockstep.used,
        fun i j => by rw [tableOf_setAllPermissions]; exact h.lockstep.table i j,
        h.lockstep.hooks⟩
    · rw [setExecute_nil]
    · rw [setExecute_nil]
      exact view_setAllPermissions h.target _ _ _
  -- The invariant carries which pages were skipped as well, for the bound at
  -- the end.
  have hloop := Loop.rule
    (fun done views' => Traced views.normal views.normal.view
      (views.target.view.setAccess true true false)
      (done.filterMap (tracedPage tables systemCr3 targetVa)) views' ∧
      ∀ n ∈ done, (gvaToGpa tables systemCr3 (targetPageVa targetVa n)).1 ≠ 0 →
        pml4Idx (gvaToGpa tables systemCr3 (targetPageVa targetVa n)).1 = 0)
    (fun views' => Opened views.normal.view (views.target.view.setAccess true true false) views' ∧
      ¬ Traceable views.normal tables systemCr3 targetVa targetSize)
    ⟨hstart, fun _ hmem => absurd hmem List.not_mem_nil⟩
    fun done n rest views' hrange hI => by
      have hone : [n].filterMap (tracedPage tables systemCr3 targetVa) =
          (tracedPage tables systemCr3 targetVa n).toList := by
        cases htp : tracedPage tables systemCr3 targetVa n with
        | none => simp [htp]
        | some q => simp [htp]
      cases tracePage_cases tables systemCr3 targetVa hI.1 n with
      | inl hok =>
        obtain ⟨new, hnew, htraced, hbelow⟩ := hok
        refine Or.inl ⟨new, hnew, ?_, fun m hm => ?_⟩
        · rw [List.filterMap_append, hone]
          exact htraced
        · cases List.mem_append.mp hm with
          | inl hold => exact hI.2 m hold
          | inr hlast =>
            rw [List.mem_singleton] at hlast
            rw [hlast]
            exact hbelow
      | inr herr =>
        obtain ⟨new, hnew, hopened, q, hq, hleft⟩ := herr
        exact Or.inr ⟨new, hnew, hopened, not_traceable hrange hI.1.lookedUp hq hleft⟩
  unfold enableAutoTrace
  cases hloop with
  | inl hok =>
    obtain ⟨new, hnew, htraced, hbelow⟩ := hok
    refine Or.inl ⟨new, hnew, htraced, fun n hn => hbelow n (List.mem_range.mpr hn), ?_⟩
    have hused := htraced.lookedUp.used
    have hle := htraced.wf.normal.used_le
    unfold tracedPages
    omega
  | inr herr => exact Or.inr herr

/-- `restore_auto_trace` gives full access. -/
theorem restoreAutoTrace_opened {views : EptViews} (h : views.WF) :
    Opened views.normal.view views.target.view (restoreAutoTrace views) where
  wf := ⟨wf_setAllPermissions h.normal _ _ _, wf_setAllPermissions h.target _ _ _,
    lockstep_setAllPermissions h.lockstep _ _ _ _ _ _⟩
  normal := view_setAllPermissions h.normal _ _ _
  target := view_setAllPermissions h.target _ _ _

end Revhv.Ept
