import Mathlib.Logic.Function.Basic

/-!
# `Revhv.Lib.RadixTable`: tables of tables in memory

Pages of entries, where an entry of one page may point to another page,
as in multi-level page tables. A path of indices from the root ends at a
page or at a leaf.

`Represents` says that pages hold a tree: which paths lead to pages, and
to which leaves. The two ways in which such a tree grows keep it:

* `Represents.link`: a fresh page behind an empty entry.
* `Represents.setLeaf`: a leaf at an entry that points to no page.

Nothing here names a program.
-/

set_option autoImplicit false

namespace Revhv.Lib

variable {ι ε : Type}

/-- How entries are read: which ones are empty, and which ones point to
a page. -/
structure EntryKinds (ε : Type) where
  Empty : ε → Prop
  Points : ε → Nat → Prop

namespace EntryKinds

/-- An entry behind which the tree has the page or the leaf, or nothing. -/
def Slot (k : EntryKinds ε) : Option Nat → Option ε → ε → Prop
  | some page, none, e => k.Points e page
  | none, some leaf, e => e = leaf
  | none, none, e => k.Empty e
  | some _, some _, _ => False

end EntryKinds

/-- The pages hold a tree. `node` are its pages and `leaf` its leaves,
by their paths. -/
structure Represents (k : EntryKinds ε) (pages : Nat → ι → ε) (root : Nat)
    (node : List ι → Option Nat) (leaf : List ι → Option ε) : Prop where
  root : node [] = some root
  injective : ∀ p q f, node p = some f → node q = some f → p = q
  slot : ∀ p f i, node p = some f → k.Slot (node (p ++ [i])) (leaf (p ++ [i])) (pages f i)
  parent : ∀ p i, node p = none → node (p ++ [i]) = none ∧ leaf (p ++ [i]) = none

namespace Represents

variable {k : EntryKinds ε} {pages : Nat → ι → ε} {root : Nat} {node : List ι → Option Nat}
  {leaf : List ι → Option ε}

/-- The entry that leads to a page points to it. -/
theorem points (h : Represents k pages root node leaf) {p : List ι} {i : ι} {f g : Nat}
    (hp : node p = some f) (hg : node (p ++ [i]) = some g) : k.Points (pages f i) g := by
  have hslot := h.slot p f i hp
  rw [hg] at hslot
  cases hleaf : leaf (p ++ [i]) with
  | none =>
      rw [hleaf] at hslot
      exact hslot
  | some e =>
      rw [hleaf] at hslot
      cases hslot

/-- The entry that leads to a leaf is the leaf. -/
theorem eq_leaf (h : Represents k pages root node leaf) {p : List ι} {i : ι} {f : Nat} {e : ε}
    (hp : node p = some f) (he : leaf (p ++ [i]) = some e) : pages f i = e := by
  have hslot := h.slot p f i hp
  rw [he] at hslot
  cases hnode : node (p ++ [i]) with
  | none =>
      rw [hnode] at hslot
      exact hslot
  | some g =>
      rw [hnode] at hslot
      cases hslot

/-- The entry that leads nowhere is empty. -/
theorem empty (h : Represents k pages root node leaf) {p : List ι} {i : ι} {f : Nat}
    (hp : node p = some f) (hnode : node (p ++ [i]) = none) (hleaf : leaf (p ++ [i]) = none) :
    k.Empty (pages f i) := by
  have hslot := h.slot p f i hp
  rw [hnode, hleaf] at hslot
  exact hslot

/-- Before a page there is a page that points to it. -/
theorem parent_of_node (h : Represents k pages root node leaf) {p : List ι} {i : ι} {g : Nat}
    (hg : node (p ++ [i]) = some g) : ∃ f, node p = some f ∧ k.Points (pages f i) g := by
  cases hp : node p with
  | none =>
      rw [(h.parent p i hp).1] at hg
      cases hg
  | some f => exact ⟨f, rfl, h.points hp hg⟩

/-- Before a leaf there is a page that holds it. -/
theorem parent_of_leaf (h : Represents k pages root node leaf) {p : List ι} {i : ι} {e : ε}
    (he : leaf (p ++ [i]) = some e) : ∃ f, node p = some f ∧ pages f i = e := by
  cases hp : node p with
  | none =>
      rw [(h.parent p i hp).2] at he
      cases he
  | some f => exact ⟨f, rfl, h.eq_leaf hp he⟩

/-- Paths that differ in their last index or before it. -/
theorem append_ne {p q : List ι} {i j : ι} (h : q ≠ p ∨ j ≠ i) : q ++ [j] ≠ p ++ [i] := by
  intro heq
  have hlast := List.append_inj' heq rfl
  rcases h with hq | hj
  · exact hq hlast.1
  · exact hj (List.singleton_inj.mp hlast.2)

variable [DecidableEq ι]

/-- A page that is in no use is cleared, and an empty entry is made to
point to it. -/
theorem link (h : Represents k pages root node leaf) {p : List ι} {i : ι} {f g : Nat} {e blank : ε}
    (hp : node p = some f) (hnode : node (p ++ [i]) = none) (hleaf : leaf (p ++ [i]) = none)
    (hfresh : ∀ q, node q ≠ some g) (hblank : k.Empty blank) (hpoints : k.Points e g) :
    Represents k
      (Function.update (Function.update pages g fun _ => blank) f
        (Function.update (Function.update pages g (fun _ => blank) f) i e))
      root (Function.update node (p ++ [i]) (some g)) leaf := by
  have hfg : f ≠ g := by
    rintro rfl
    exact hfresh p hp
  -- Every path but the new one had its page before.
  have hold : ∀ {q f'}, q ≠ p ++ [i] → Function.update node (p ++ [i]) (some g) q = some f' →
      node q = some f' := by
    intro q f' hq hnode'
    rwa [Function.update_of_ne hq] at hnode'
  refine ⟨?_, ?_, ?_, ?_⟩
  · rw [Function.update_of_ne (by simp)]
    exact h.root
  · intro q q' f' hq hq'
    by_cases hqp : q = p ++ [i]
    · by_cases hqp' : q' = p ++ [i]
      · rw [hqp, hqp']
      · subst hqp
        rw [Function.update_self] at hq
        obtain rfl := Option.some.inj hq
        exact absurd (hold hqp' hq') (hfresh q')
    · by_cases hqp' : q' = p ++ [i]
      · subst hqp'
        rw [Function.update_self] at hq'
        obtain rfl := Option.some.inj hq'
        exact absurd (hold hqp hq) (hfresh q)
      · exact h.injective q q' f' (hold hqp hq) (hold hqp' hq')
  · intro q f' j hq
    by_cases hqp : q = p ++ [i]
    · -- The new page is empty.
      subst hqp
      rw [Function.update_self] at hq
      obtain rfl := Option.some.inj hq
      have hnone := h.parent (p ++ [i]) j hnode
      have hjne : p ++ [i] ++ [j] ≠ p ++ [i] := by simp
      rw [Function.update_of_ne hjne, hnone.1, hnone.2, Function.update_of_ne hfg.symm,
        Function.update_self]
      exact hblank
    · have hq' := hold hqp hq
      have hf'g : f' ≠ g := by
        rintro rfl
        exact hfresh q hq'
      -- Only the page at `p` has a new entry, and in it only the one at `i`.
      by_cases hf'f : f' = f
      · subst hf'f
        obtain rfl := h.injective q p f' hq' hp
        by_cases hj : j = i
        · subst hj
          rw [Function.update_self, hleaf, Function.update_self, Function.update_self]
          exact hpoints
        · rw [Function.update_of_ne (append_ne (Or.inr hj)), Function.update_self,
            Function.update_of_ne hj, Function.update_of_ne hf'g]
          exact h.slot q f' j hq'
      · have hqne : q ≠ p := by
          rintro rfl
          exact hf'f (Option.some.inj (hq'.symm.trans hp))
        rw [Function.update_of_ne (append_ne (Or.inl hqne)), Function.update_of_ne hf'f,
          Function.update_of_ne hf'g]
        exact h.slot q f' j hq'
  · intro q j hq
    have hqp : q ≠ p ++ [i] := by
      rintro rfl
      rw [Function.update_self] at hq
      cases hq
    rw [Function.update_of_ne hqp] at hq
    have hqne : q ≠ p := by
      rintro rfl
      cases hq.symm.trans hp
    rw [Function.update_of_ne (append_ne (Or.inl hqne))]
    exact h.parent q j hq

/-- A leaf takes the place of an entry that points to no page. -/
theorem setLeaf (h : Represents k pages root node leaf) {p : List ι} {i : ι} {f : Nat} (e : ε)
    (hp : node p = some f) (hnode : node (p ++ [i]) = none) :
    Represents k (Function.update pages f (Function.update (pages f) i e)) root node
      (Function.update leaf (p ++ [i]) (some e)) := by
  refine ⟨h.root, h.injective, ?_, ?_⟩
  · intro q f' j hq
    -- Only the page at `p` changes, and in it only the entry at `i`.
    by_cases hf' : f' = f
    · subst hf'
      obtain rfl := h.injective q p f' hq hp
      by_cases hj : j = i
      · subst hj
        rw [hnode, Function.update_self, Function.update_self, Function.update_self]
        rfl
      · rw [Function.update_of_ne (append_ne (Or.inr hj)), Function.update_self, Function.update_of_ne hj]
        exact h.slot q f' j hq
    · have hqne : q ≠ p := by
        rintro rfl
        exact hf' (Option.some.inj (hq.symm.trans hp))
      rw [Function.update_of_ne (append_ne (Or.inl hqne)), Function.update_of_ne hf']
      exact h.slot q f' j hq
  · intro q j hq
    have hqne : q ≠ p := by
      rintro rfl
      cases hq.symm.trans hp
    rw [Function.update_of_ne (append_ne (Or.inl hqne))]
    exact h.parent q j hq

end Represents

end Revhv.Lib
