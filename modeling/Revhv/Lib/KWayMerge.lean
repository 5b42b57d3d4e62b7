import Mathlib.Algebra.GroupWithZero.Nat
import Mathlib.Data.List.Basic
import Mathlib.Logic.Function.Basic
import Mathlib.Order.Lattice

/-!
# `Revhv.Lib.KWayMerge`: merging any number of lists

A merge takes, again and again, the head of one of the lists, one with a
least key among all heads, until every list is used up. Which one it takes
among equal keys is open. `Merges` are all the results.

* `stream_of_merges`: every list comes out whole and in its own order.
* `sorted_of_merges`: sorted lists give a sorted result.

Nothing here names a program.
-/

set_option autoImplicit false

namespace Revhv.Lib.KWayMerge

variable {ι α κ : Type} [DecidableEq ι] [LinearOrder κ]

/-- The results of merging `rest`, each element with the list it comes
from. -/
inductive Merges (key : α → κ) : (ι → List α) → List (ι × α) → Prop
  | done {rest : ι → List α} (h : ∀ i, rest i = []) : Merges key rest []
  | take {rest : ι → List α} {i : ι} {a : α} {l : List α} {out : List (ι × α)}
      (head : rest i = a :: l)
      (least : ∀ j b m, rest j = b :: m → key a ≤ key b)
      (tail : Merges key (Function.update rest i l) out) : Merges key rest ((i, a) :: out)

section
variable {key : α → κ} {rest : ι → List α} {out : List (ι × α)}

/-- The elements of one list, as they come out. -/
def stream (out : List (ι × α)) (i : ι) : List α :=
  (out.filter fun p => p.1 = i).map Prod.snd

/-- Every list comes out whole and in its order. -/
theorem stream_of_merges (h : Merges key rest out) (i : ι) : stream out i = rest i := by
  induction h with
  | done hempty => exact (hempty i).symm
  | @take rest j a l out head least tail ih =>
    unfold stream at ih ⊢
    by_cases hj : j = i
    · subst hj
      rw [Function.update_self] at ih
      simp [ih, head]
    · rw [Function.update_of_ne (Ne.symm hj)] at ih
      simp [ih, hj]

/-- What comes out is in one of the lists. -/
theorem mem_of_merges (h : Merges key rest out) {p : ι × α} (hp : p ∈ out) : p.2 ∈ rest p.1 := by
  rw [← stream_of_merges h p.1]
  exact List.mem_map.mpr ⟨p, List.mem_filter.mpr ⟨hp, decide_eq_true rfl⟩, rfl⟩

/-- Sorted lists give a sorted result. -/
theorem sorted_of_merges (h : Merges key rest out)
    (hsorted : ∀ i, (rest i).Pairwise fun a b => key a ≤ key b) :
    out.Pairwise fun p q => key p.2 ≤ key q.2 := by
  induction h with
  | done => exact List.Pairwise.nil
  | @take rest i a l out head least tail ih =>
    have hnext : ∀ j, (Function.update rest i l j).Pairwise fun a b => key a ≤ key b := by
      intro j
      by_cases hj : j = i
      · rw [hj, Function.update_self]
        have hi := hsorted i
        rw [head] at hi
        exact (List.pairwise_cons.mp hi).2
      · rw [Function.update_of_ne hj]
        exact hsorted j
    refine List.pairwise_cons.mpr ⟨?_, ih hnext⟩
    intro q hq
    -- What comes out later is behind the head of its list, which is not less than `a`.
    have hmem := mem_of_merges tail hq
    by_cases hj : q.1 = i
    · rw [hj, Function.update_self] at hmem
      have hi := hsorted i
      rw [head] at hi
      exact (List.pairwise_cons.mp hi).1 q.2 hmem
    · rw [Function.update_of_ne hj] at hmem
      cases hlist : rest q.1 with
      | nil =>
        rw [hlist] at hmem
        exact absurd hmem List.not_mem_nil
      | cons b m =>
        have hb := least q.1 b m hlist
        have hq1 := hsorted q.1
        rw [hlist] at hmem hq1
        rcases List.mem_cons.mp hmem with heq | hm
        · rw [heq]
          exact hb
        · exact le_trans hb ((List.pairwise_cons.mp hq1).1 q.2 hm)

end

end Revhv.Lib.KWayMerge
