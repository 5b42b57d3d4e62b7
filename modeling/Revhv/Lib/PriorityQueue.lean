import Mathlib.Data.List.Sort
import Mathlib.Data.Multiset.AddSub

/-!
# `Revhv.Lib.PriorityQueue`: what a priority queue promises

A priority queue holds a multiset. Its top is an element that no other
comes before. Which one it is among equals, and how the elements lie in
memory, is not promised.

* `PriorityQueue`: the operations with their laws.
* `PriorityQueue.ofKey`: a queue for elements with a key, a sorted list.

Nothing here names a program.
-/

set_option autoImplicit false

namespace Revhv.Lib

/-- A priority queue for elements of which `after a b` says that `a`
comes after `b`. -/
structure PriorityQueue (α : Type) [DecidableEq α] (after : α → α → Bool) where
  State : Type
  empty : State
  push : State → α → State
  pop : State → State
  top? : State → Option α
  elems : State → Multiset α
  elems_empty : elems empty = 0
  elems_push : ∀ s a, elems (push s a) = a ::ₘ elems s
  elems_pop : ∀ s a, top? s = some a → elems (pop s) = (elems s).erase a
  elems_none : ∀ s, top? s = none → elems s = 0
  top_mem : ∀ s a, top? s = some a → a ∈ elems s
  top_first : ∀ s a b, top? s = some a → b ∈ elems s → after a b = false

namespace PriorityQueue

variable {α : Type} [DecidableEq α]

/-- A list sorted by a key, as a queue. -/
def ofKey (key : α → Nat) (after : α → α → Bool) (hafter : ∀ a b, after a b = true → key b < key a) :
    PriorityQueue α after where
  State := { l : List α // l.Pairwise fun a b => key a ≤ key b }
  empty := ⟨[], List.Pairwise.nil⟩
  push s a := ⟨s.val.orderedInsert (fun a b => key a ≤ key b) a, by
    have : Std.Total fun a b : α => key a ≤ key b := ⟨fun a b => Nat.le_total (key a) (key b)⟩
    have : IsTrans α fun a b => key a ≤ key b := ⟨fun _ _ _ => Nat.le_trans⟩
    exact s.property.orderedInsert a s.val⟩
  pop s := ⟨s.val.tail, s.property.tail⟩
  top? s := s.val.head?
  elems s := s.val
  elems_empty := rfl
  elems_push s a := Multiset.coe_eq_coe.mpr (List.perm_orderedInsert _ a s.val)
  elems_pop s a h := by
    rcases s with ⟨l, hl⟩
    cases l with
    | nil => cases h
    | cons b l =>
      cases h
      simp
  elems_none s h := by
    rcases s with ⟨l, hl⟩
    cases l with
    | nil => rfl
    | cons b l => cases h
  top_mem s a h := by
    rcases s with ⟨l, hl⟩
    cases l with
    | nil => cases h
    | cons b l =>
      cases h
      simp
  top_first s a b h hb := by
    rcases s with ⟨l, hl⟩
    cases l with
    | nil => cases h
    | cons c l =>
      cases h
      rw [Bool.eq_false_iff]
      intro hab
      have hlt := hafter a b hab
      rcases List.mem_cons.mp hb with heq | hmem
      · rw [heq] at hlt
        exact Nat.lt_irrefl _ hlt
      · exact Nat.not_lt.mpr ((List.pairwise_cons.mp hl).1 b hmem) hlt

end PriorityQueue

end Revhv.Lib
