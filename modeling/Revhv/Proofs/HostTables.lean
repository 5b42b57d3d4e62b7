import Revhv.Km.HostTables
import Revhv.Proofs.PageWalk
import Revhv.Lib.RadixTable

/-!
# `Revhv.Proofs.HostTables`: the host page tables against those of the system

* `HasLeaf.eq_of_leafPath`: no leaf of the system lies behind another, so
  that what is stored for one address does not cut off another one.
* `Holds.mapLeaf`, `Mirrors.mapLeaf`: a stored leaf keeps the host tables
  a tree whose leaves are those of the system.
* `mapLoop_wrapped`: a loop that has come around to address 0 never
  returns true.
* `mapCalls_translates`: the ranges of all calls are translated as in the
  system, if no call steps over a part of its range. The step after a
  1 GB page is 4 GB long.
-/

set_option autoImplicit false

namespace Revhv.HostTables

open Revhv.Lib Revhv.Memory Revhv.GuestMemory

/-! ### Leaves of the system -/

/-- The entries on the way to a leaf of a level, and the leaf. -/
def HasLeaf (tables : Tables) (dtb va : Nat) (e : PageEntry) (level : PageTableLevel) : Prop :=
  let pml4e := tables dtb (pml4Idx va)
  let pdpte := tables pml4e.pageFrameNumber (pdptIdx va)
  let pde := tables pdpte.pageFrameNumber (pdIdx va)
  let pte := tables pde.pageFrameNumber (ptIdx va)
  pml4e.present = true ∧ pdpte.present = true ∧
    match level with
    | .pdpte => pdpte.largePage = true ∧ pdpte = e
    | .pde => pdpte.largePage = false ∧ pde.present = true ∧ pde.largePage = true ∧ pde = e
    | .pte => pdpte.largePage = false ∧ pde.present = true ∧ pde.largePage = false ∧
        pte.present = true ∧ pte = e

/-- Where a leaf maps an address. -/
def leafAddress (e : PageEntry) (va : Nat) : PageTableLevel → Nat
  | .pdpte => e.pageFrameNumber1gb * 2 ^ 30 + va % 2 ^ 30
  | .pde => e.pageFrameNumber2mb * 2 ^ 21 + va % 2 ^ 21
  | .pte => e.pageFrameNumber * 2 ^ 12 + va % 2 ^ 12

/-- The bits of an address in a page of a level. -/
def pageBits : PageTableLevel → Nat
  | .pte => 12
  | .pde => 21
  | .pdpte => 30

section System

variable {system : Tables} {dtb : Nat}

/-- The walk of the system tables finds the leaf of an address. One case
for each level it can end at. -/
theorem getSystemPteForVa_eq_some {va : Nat} {e : PageEntry} {level : PageTableLevel} :
    getSystemPteForVa system dtb va = some (e, level) ↔ HasLeaf system dtb va e level := by
  simp only [getSystemPteForVa, HasLeaf]
  generalize system dtb (pml4Idx va) = pml4e
  generalize system pml4e.pageFrameNumber (pdptIdx va) = pdpte
  generalize system pdpte.pageFrameNumber (pdIdx va) = pde
  generalize system pde.pageFrameNumber (ptIdx va) = pte
  -- The walk reads the entries from the top and ends at the first that is
  -- absent or large.
  cases hpml4e : pml4e.present with
  | false => simp
  | true =>
  cases hpdpte : pdpte.present with
  | false => simp
  | true =>
  cases hlarge : pdpte.largePage with
  | true => cases level <;> simp
  | false =>
  cases hpde : pde.present with
  | false => cases level <;> simp
  | true =>
  cases hlarge' : pde.largePage with
  | true => cases level <;> simp
  | false =>
  cases hpte : pte.present with
  | false => cases level <;> simp
  | true => cases level <;> simp

/-- The processor finds the leaf. -/
theorem HasLeaf.translate_eq {va : Nat} {e : PageEntry} {level : PageTableLevel}
    (h : HasLeaf system dtb va e level) :
    GuestMemory.translate system dtb va = some (leafAddress e va level) := by
  rcases h with ⟨hpml4e, hpdpte, h⟩
  cases level with
  | pdpte =>
    rcases h with ⟨hlarge, rfl⟩
    simp [GuestMemory.translate, leafAddress, hpml4e, hpdpte, hlarge]
  | pde =>
    rcases h with ⟨hsmall, hpde, hlarge, rfl⟩
    simp [GuestMemory.translate, leafAddress, hpml4e, hpdpte, hsmall, hpde, hlarge]
  | pte =>
    rcases h with ⟨hsmall, hpde, hsmall', hpte, rfl⟩
    simp [GuestMemory.translate, leafAddress, hpml4e, hpdpte, hsmall, hpde, hsmall', hpte]

/-- A leaf depends on the indices that lead to it only. -/
theorem HasLeaf.congr {va va' : Nat} {e : PageEntry} {level : PageTableLevel}
    (h : HasLeaf system dtb va e level) (hpath : leafPath va' level = leafPath va level) :
    HasLeaf system dtb va' e level := by
  unfold HasLeaf at h ⊢
  -- A leaf of this level depends on the indices above it only.
  cases level with
  | pdpte =>
    simp only [leafPath, List.cons.injEq, and_true] at hpath
    rcases hpath with ⟨h4, h3⟩
    rwa [h4, h3]
  | pde =>
    simp only [leafPath, List.cons.injEq, and_true] at hpath
    rcases hpath with ⟨h4, h3, h2⟩
    rwa [h4, h3, h2]
  | pte =>
    simp only [leafPath, List.cons.injEq, and_true] at hpath
    rcases hpath with ⟨h4, h3, h2, h1⟩
    rwa [h4, h3, h2, h1]

/-- Addresses in one page of a level have the same indices up to it. -/
theorem leafPath_congr {va va' : Nat} {level : PageTableLevel}
    (h : va / 2 ^ pageBits level = va' / 2 ^ pageBits level) :
    leafPath va level = leafPath va' level := by
  cases level with
  | pdpte =>
    have hidx := idx_of_div30 h
    rw [leafPath, leafPath, hidx.1, hidx.2]
  | pde =>
    have hidx := idx_of_div21 h
    rw [leafPath, leafPath, hidx.1, hidx.2.1, hidx.2.2]
  | pte =>
    have hidx := idx_of_div12 h
    rw [leafPath, leafPath, hidx.1, hidx.2.1, hidx.2.2.1, hidx.2.2.2]

/-- A shorter path is a part of a longer one to the same address. -/
theorem leafPath_isPrefix_pte (va : Nat) (level : PageTableLevel) :
    leafPath va level <+: leafPath va .pte := by
  cases level with
  | pdpte => exact ⟨[pdIdx va, ptIdx va], rfl⟩
  | pde => exact ⟨[ptIdx va], rfl⟩
  | pte => exact ⟨[], rfl⟩

/-- The length of a path depends on the level only. -/
theorem leafPath_length (va va' : Nat) (level : PageTableLevel) :
    (leafPath va level).length = (leafPath va' level).length := by
  cases level with
  | pdpte => rfl
  | pde => rfl
  | pte => rfl

/-- No leaf lies behind another. -/
theorem HasLeaf.eq_of_leafPath {va va' : Nat} {e e' : PageEntry} {level level' : PageTableLevel}
    (h : HasLeaf system dtb va e level) (h' : HasLeaf system dtb va' e' level')
    (hway : leafPath va level <+: leafPath va' level') : level = level' ∧ e = e' := by
  have hpath : leafPath va' level = leafPath va level := by
    have hlong := hway.trans (leafPath_isPrefix_pte va' level')
    have hlen := leafPath_length va' va level
    have hpart := List.prefix_of_prefix_length_le (leafPath_isPrefix_pte va' level) hlong hlen.le
    exact hpart.eq_of_length hlen
  have hsame := getSystemPteForVa_eq_some.mpr (h.congr hpath)
  rw [getSystemPteForVa_eq_some.mpr h'] at hsame
  have hpair := Prod.mk.inj (Option.some.inj hsame)
  exact ⟨hpair.2.symm, hpair.1.symm⟩

end System

/-! ### The tree of the host tables -/

/-- How the walk reads an entry above the leaves. -/
def kinds : EntryKinds PageEntry where
  Empty e := e = PageEntry.zero
  Points e frame := e.present = true ∧ e.largePage = false ∧ e.pageFrameNumber = frame

/-- The host tables hold a tree. Its pages are the two of
`host_page_tables` and some that have been allocated. -/
structure Holds (m : HostMemory) (t : HostPageTables) (node : List (Fin 512) → Option Nat)
    (leaf : List (Fin 512) → Option PageEntry) : Prop where
  tree : Represents kinds t.pages m.pml4e node leaf
  owned : ∀ p f, node p = some f →
    f = m.pml4e ∨ f = m.pdpte ∨ ∃ n < t.allocated, m.page n = some f

section Tree

variable {m : HostMemory} {t t' : HostPageTables} {node : List (Fin 512) → Option Nat}
  {leaf : List (Fin 512) → Option PageEntry}

/-- Behind an entry that is no leaf there is a table afterwards, and
nothing else has changed. -/
theorem Holds.ensureTable (h : Holds m t node leaf) {p : List (Fin 512)} {i : Fin 512}
    {frame page : Nat} (hp : node p = some frame) (hleaf : leaf (p ++ [i]) = none)
    (hrun : ensureTable m t frame i = (some page, t')) :
    ∃ node', Holds m t' node' leaf ∧ node' (p ++ [i]) = some page ∧
      ∀ q, q ≠ p ++ [i] → node' q = node q := by
  unfold HostTables.ensureTable at hrun
  cases hnode : node (p ++ [i]) with
  | some g =>
      rcases h.tree.points hp hnode with ⟨hpresent, -, hpfn⟩
      rw [if_pos hpresent, hpfn] at hrun
      obtain ⟨hg, rfl⟩ := Prod.mk.inj hrun
      exact ⟨node, h, hnode.trans hg, fun _ _ => rfl⟩
  | none =>
      have hempty : t.pages frame i = PageEntry.zero := h.tree.empty hp hnode hleaf
      have habsent : ¬ (t.pages frame i).present = true := by
        rw [hempty]
        decide
      rw [if_neg habsent, allocHostPt] at hrun
      cases hpage : m.page t.allocated with
      | none =>
          rw [hpage] at hrun
          cases hrun
      | some g =>
          rw [hpage] at hrun
          obtain ⟨hg, rfl⟩ := Prod.mk.inj hrun
          -- The new page is none of the old ones.
          have hfresh : ∀ q, node q ≠ some g := by
            intro q hq
            rcases h.owned q g hq with rfl | rfl | ⟨n, hn, hnpage⟩
            · exact (m.page_ne _ _ hpage).1 rfl
            · exact (m.page_ne _ _ hpage).2 rfl
            · exact Nat.ne_of_lt hn (m.page_injective n t.allocated g hnpage hpage)
          have hne : frame ≠ g := by
            rintro rfl
            exact hfresh p hp
          have hmod : g % 2 ^ 36 = g := Nat.mod_eq_of_lt (m.page_lt _ _ hpage)
          obtain rfl : g = page := by
            rw [← Option.some.inj hg]
            exact hmod.symm
          refine ⟨Function.update node (p ++ [i]) (some g),
            ⟨h.tree.link hp hnode hleaf hfresh rfl ⟨rfl, ?_, hmod⟩, ?_⟩, Function.update_self .., ?_⟩
          · show (Function.update t.pages g (fun _ => PageEntry.zero) frame i).largePage = false
            rw [Function.update_of_ne hne, hempty]
            rfl
          · intro q f hq
            by_cases hqi : q = p ++ [i]
            · subst hqi
              rw [Function.update_self] at hq
              obtain rfl := Option.some.inj hq
              exact Or.inr (Or.inr ⟨t.allocated, Nat.lt_succ_self _, hpage⟩)
            · rw [Function.update_of_ne hqi] at hq
              rcases h.owned q f hq with hf | hf | ⟨n, hn, hf⟩
              · exact Or.inl hf
              · exact Or.inr (Or.inl hf)
              · exact Or.inr (Or.inr ⟨n, Nat.lt_succ_of_lt hn, hf⟩)
          · intro q hq
            exact Function.update_of_ne hq ..

/-- A leaf is stored where no table is and where no leaf is on the way.
The tables that have been added are on the way too. -/
theorem Holds.mapLeaf {rest : List (Fin 512)} {e : PageEntry} (h : Holds m t node leaf)
    {p : List (Fin 512)} {frame : Nat} (hp : node p = some frame) (hrest : rest ≠ [])
    (hleaf : ∀ q, q ≠ [] → q ≠ rest → q <+: rest → leaf (p ++ q) = none)
    (hnode : node (p ++ rest) = none) (hrun : mapLeaf m t frame rest e = (true, t')) :
    ∃ node', Holds m t' node' (Function.update leaf (p ++ rest) (some e)) ∧
      ∀ q f, node' q = some f → node q = some f ∨ ∃ r, r ≠ rest ∧ r <+: rest ∧ q = p ++ r := by
  -- By induction over the indices below the table, from the top as the code
  -- builds them.
  induction rest generalizing p frame t node with
  | nil => exact absurd rfl hrest
  | cons i rest ih =>
    cases rest with
    | nil =>
        obtain rfl : t.set frame i e = t' := (Prod.mk.inj hrun).2
        exact ⟨node, ⟨h.tree.setLeaf e hp hnode, h.owned⟩, fun q f hq => Or.inl hq⟩
    | cons j rest =>
        rw [HostTables.mapLeaf] at hrun
        cases hensure : HostTables.ensureTable m t frame i with
        | mk result t₁ =>
        rw [hensure] at hrun
        cases result with
        | none => cases hrun
        | some page =>
            have hi : leaf (p ++ [i]) = none :=
              hleaf [i] (by simp) (by simp) ⟨j :: rest, rfl⟩
            obtain ⟨node₁, h₁, hpage, hsame⟩ := h.ensureTable hp hi hensure
            have hsplit : p ++ [i] ++ (j :: rest) = p ++ (i :: j :: rest) := by simp
            have hnode₁ : node₁ (p ++ [i] ++ (j :: rest)) = none := by
              rw [hsame _ (by simp), hsplit]
              exact hnode
            have hleaf₁ : ∀ q, q ≠ [] → q ≠ j :: rest → q <+: j :: rest →
                leaf (p ++ [i] ++ q) = none := by
              intro q hq hne hway
              rw [List.append_assoc]
              refine hleaf ([i] ++ q) (by simp) (fun heq => hne ?_) ?_
              · exact (List.cons.inj heq).2
              · exact List.prefix_cons_inj i |>.mpr hway
            obtain ⟨node₂, h₂, hgrown⟩ := ih h₁ hpage (by simp) hleaf₁ hnode₁ hrun
            rw [hsplit] at h₂
            refine ⟨node₂, h₂, fun q f hq => ?_⟩
            -- A table that is new lies on the way to the leaf, here or further
            -- down.
            rcases hgrown q f hq with hq | ⟨r, hr, hway, rfl⟩
            · by_cases hqi : q = p ++ [i]
              · exact Or.inr ⟨[i], by simp, ⟨j :: rest, rfl⟩, hqi⟩
              · exact Or.inl ((hsame q hqi).symm.trans hq)
            · refine Or.inr ⟨i :: r, fun heq => hr (List.cons.inj heq).2, ?_, by simp⟩
              exact List.prefix_cons_inj i |>.mpr hway

/-- A leaf of the tree is what the processor finds. -/
theorem Holds.hasLeaf (h : Holds m t node leaf) {system : Tables} {dtb va : Nat} {e : PageEntry}
    {level : PageTableLevel} (hsystem : HasLeaf system dtb va e level)
    (he : leaf (leafPath va level) = some e) : HasLeaf t.pages m.pml4e va e level := by
  have hroot : ∀ {f}, node [] = some f → f = m.pml4e :=
    fun hf => Option.some.inj (hf.symm.trans h.tree.root)
  rcases hsystem with ⟨-, hpresent, hlevel⟩
  unfold HasLeaf
  -- The mirror's tables above the leaf are its own, and each is linked as
  -- present and not large.
  cases level with
  | pdpte =>
    obtain ⟨f3, h3, he3⟩ := h.tree.parent_of_leaf (p := [pml4Idx va]) he
    obtain ⟨f4, h4, hpresent4, -, hpfn4⟩ := h.tree.parent_of_node (p := []) h3
    obtain rfl := hroot h4
    rcases hlevel with ⟨hlarge, hpdpte⟩
    rw [hpdpte] at hpresent hlarge
    dsimp only
    rw [hpfn4, he3]
    exact ⟨hpresent4, hpresent, hlarge, rfl⟩
  | pde =>
    obtain ⟨f2, h2, he2⟩ := h.tree.parent_of_leaf (p := [pml4Idx va, pdptIdx va]) he
    obtain ⟨f3, h3, hpresent3, hsmall3, hpfn3⟩ := h.tree.parent_of_node (p := [pml4Idx va]) h2
    obtain ⟨f4, h4, hpresent4, -, hpfn4⟩ := h.tree.parent_of_node (p := []) h3
    obtain rfl := hroot h4
    rcases hlevel with ⟨-, hpresent2, hlarge2, hpde⟩
    rw [hpde] at hpresent2 hlarge2
    dsimp only
    rw [hpfn4, hpfn3, he2]
    exact ⟨hpresent4, hpresent3, hsmall3, hpresent2, hlarge2, rfl⟩
  | pte =>
    obtain ⟨f1, h1, he1⟩ := h.tree.parent_of_leaf (p := [pml4Idx va, pdptIdx va, pdIdx va]) he
    obtain ⟨f2, h2, hpresent2, hsmall2, hpfn2⟩ :=
      h.tree.parent_of_node (p := [pml4Idx va, pdptIdx va]) h1
    obtain ⟨f3, h3, hpresent3, hsmall3, hpfn3⟩ := h.tree.parent_of_node (p := [pml4Idx va]) h2
    obtain ⟨f4, h4, hpresent4, -, hpfn4⟩ := h.tree.parent_of_node (p := []) h3
    obtain rfl := hroot h4
    rcases hlevel with ⟨-, -, -, hpresent1, hpte⟩
    rw [hpte] at hpresent1
    dsimp only
    rw [hpfn4, hpfn3, hpfn2, he1]
    exact ⟨hpresent4, hpresent3, hsmall3, hpresent2, hsmall2, hpresent1, rfl⟩

end Tree

/-! ### Leaves that are those of the system -/

/-- The host tables as they come about: up to the window, every leaf is
one of the system, every table is on the way to one, and the covered
addresses have their leaves. -/
structure Mirrors (m : HostMemory) (system : Tables) (dtb : Nat) (t : HostPageTables)
    (node : List (Fin 512) → Option Nat) (leaf : List (Fin 512) → Option PageEntry)
    (covered : Nat → Prop) : Prop where
  holds : Holds m t node leaf
  leaves : ∀ p e, leaf p = some e → (∃ i, p = [hostPml4Index, i]) ∨
    ∃ va level, HasLeaf system dtb va e level ∧ p = leafPath va level
  tables : ∀ p f, node p = some f → p = [] ∨ p = [hostPml4Index] ∨
    ∃ va e level, HasLeaf system dtb va e level ∧ p <+: leafPath va level ∧ p ≠ leafPath va level
  covers : ∀ va, covered va →
    ∃ e level, HasLeaf system dtb va e level ∧ leaf (leafPath va level) = some e

section Mirror

variable {m : HostMemory} {system : Tables} {dtb : Nat} {t t' : HostPageTables}
  {node : List (Fin 512) → Option Nat} {leaf : List (Fin 512) → Option PageEntry}
  {covered : Nat → Prop}

/-- A path has at least two indices. -/
theorem leafPath_eq_cons (va : Nat) (level : PageTableLevel) :
    ∃ i rest, leafPath va level = pml4Idx va :: i :: rest := by
  cases level with
  | pdpte => exact ⟨_, _, rfl⟩
  | pde => exact ⟨_, _, rfl⟩
  | pte => exact ⟨_, _, rfl⟩

/-- A covered address translates as in the system. -/
theorem Mirrors.translates (h : Mirrors m system dtb t node leaf covered) {va : Nat}
    (hva : covered va) :
    ∃ pa, GuestMemory.translate system dtb va = some pa ∧
      GuestMemory.translate t.pages m.pml4e va = some pa := by
  obtain ⟨e, level, hsystem, hleaf⟩ := h.covers va hva
  exact ⟨leafAddress e va level, hsystem.translate_eq, (h.holds.hasLeaf hsystem hleaf).translate_eq⟩

/-- One more leaf of the system. A 1 GB page takes the place of one in
the window, a smaller page has to be outside. All addresses of its page
are covered. -/
theorem Mirrors.mapLeaf (h : Mirrors m system dtb t node leaf covered) {va : Nat} {e : PageEntry}
    {level : PageTableLevel} (hsystem : HasLeaf system dtb va e level)
    (hwindow : level ≠ .pdpte → pml4Idx va ≠ hostPml4Index)
    (hrun : mapLeaf m t m.pml4e (leafPath va level) e = (true, t')) :
    ∃ node' leaf', Mirrors m system dtb t' node' leaf'
      fun a => covered a ∨ leafPath a level = leafPath va level := by
  obtain ⟨i, rest, hpath⟩ := leafPath_eq_cons va level
  -- No other leaf is on the way, since no leaf of the system lies behind another.
  have hclear : ∀ q, q ≠ [] → q ≠ leafPath va level → q <+: leafPath va level →
      leaf ([] ++ q) = none := by
    intro q _ hne hway
    rw [List.nil_append]
    by_contra hsome
    obtain ⟨e', he'⟩ := Option.ne_none_iff_exists'.mp hsome
    rcases h.leaves q e' he' with ⟨j, rfl⟩ | ⟨va', level', hsystem', rfl⟩
    · by_cases hlevel : level = .pdpte
      · subst hlevel
        exact hne (hway.eq_of_length rfl)
      · rw [hpath] at hway
        exact hwindow hlevel (List.cons_prefix_cons.mp hway).1.symm
    · obtain ⟨rfl, -⟩ := hsystem'.eq_of_leafPath hsystem hway
      exact hne (hway.eq_of_length (leafPath_length va' va level'))
  have hfree : node ([] ++ leafPath va level) = none := by
    rw [List.nil_append]
    by_contra hsome
    obtain ⟨f, hf⟩ := Option.ne_none_iff_exists'.mp hsome
    rcases h.tables _ f hf with hnil | hone | ⟨va', e', level', hsystem', hway, hne⟩
    · rw [hpath] at hnil
      cases hnil
    · rw [hpath] at hone
      exact List.cons_ne_nil _ _ (List.cons.inj hone).2
    · obtain ⟨rfl, -⟩ := hsystem.eq_of_leafPath hsystem' hway
      exact hne (hway.eq_of_length (leafPath_length va va' level))
  obtain ⟨node', hholds, hgrown⟩ := h.holds.mapLeaf h.holds.tree.root (by rw [hpath]; simp) hclear
    hfree hrun
  rw [List.nil_append] at hholds
  refine ⟨node', _, hholds, ?_, ?_, ?_⟩
  · intro p e' hp
    by_cases hpva : p = leafPath va level
    · subst hpva
      rw [Function.update_self] at hp
      obtain rfl := Option.some.inj hp
      exact Or.inr ⟨va, level, hsystem, rfl⟩
    · rw [Function.update_of_ne hpva] at hp
      exact h.leaves p e' hp
  · intro p f hp
    rcases hgrown p f hp with hp | ⟨r, hne, hway, rfl⟩
    · exact h.tables p f hp
    · exact Or.inr (Or.inr ⟨va, e, level, hsystem, hway, hne⟩)
  · intro a ha
    rcases ha with ha | ha
    · obtain ⟨e', level', hsystem', hleaf'⟩ := h.covers a ha
      refine ⟨e', level', hsystem', ?_⟩
      by_cases hpath' : leafPath a level' = leafPath va level
      · obtain ⟨-, rfl⟩ := hsystem'.eq_of_leafPath hsystem ⟨[], by rw [List.append_nil, hpath']⟩
        rw [hpath', Function.update_self]
      · rw [Function.update_of_ne hpath']
        exact hleaf'
    · exact ⟨e, level, hsystem.congr ha, by rw [ha, Function.update_self]⟩

/-- The pages before the first call, by their paths. -/
def startNode (m : HostMemory) : List (Fin 512) → Option Nat
  | [] => some m.pml4e
  | [i] => if i = hostPml4Index then some m.pdpte else none
  | _ => none

/-- The leaves before the first call are those of the window. -/
def startLeaf : List (Fin 512) → Option PageEntry
  | [i, j] => if i = hostPml4Index then some (windowEntry j) else none
  | _ => none

/-- The tables start with the PML4 and the PDPT of the window. -/
theorem startNode_eq_some {m : HostMemory} {p : List (Fin 512)} {f : Nat}
    (h : startNode m p = some f) :
    p = [] ∧ f = m.pml4e ∨ p = [hostPml4Index] ∧ f = m.pdpte := by
  match p, h with
  | [], h => exact Or.inl ⟨rfl, (Option.some.inj h).symm⟩
  | [i], h =>
    simp only [startNode] at h
    split at h
    · rename_i hi
      exact Or.inr ⟨by rw [hi], (Option.some.inj h).symm⟩
    · cases h

/-- The leaves at the start are those of the window. -/
theorem startLeaf_eq_some {p : List (Fin 512)} {e : PageEntry} (h : startLeaf p = some e) :
    ∃ i, p = [hostPml4Index, i] := by
  match p, h with
  | [i, j], h =>
    simp only [startLeaf] at h
    split at h
    · rename_i hi
      exact ⟨j, by rw [hi]⟩
    · cases h

/-- The tables before the first call hold the window only. -/
theorem represents_start (m : HostMemory) (rest : Tables) :
    Represents kinds (startTables m rest).pages m.pml4e (startNode m) startLeaf where
  root := rfl
  injective := by
    -- There are two tables at the start, the root and the one of the window.
    intro p q f hp hq
    rcases startNode_eq_some hp with ⟨rfl, hf⟩ | ⟨rfl, hf⟩
    · rcases startNode_eq_some hq with ⟨rfl, -⟩ | ⟨-, hf'⟩
      · rfl
      · exact absurd (hf'.symm.trans hf) m.pdpte_ne
    · rcases startNode_eq_some hq with ⟨-, hf'⟩ | ⟨rfl, -⟩
      · exact absurd (hf.symm.trans hf') m.pdpte_ne
      · rfl
  slot := by
    intro p f i hp
    rcases startNode_eq_some hp with ⟨rfl, rfl⟩ | ⟨rfl, rfl⟩
    · have hpages : (startTables m rest).pages m.pml4e i =
          if i = hostPml4Index then linkEntry .zero m.pdpte else .zero := by
        simp only [startTables, Function.update_of_ne m.pdpte_ne.symm, Function.update_self,
          Function.update_apply]
      rw [hpages, List.nil_append]
      -- The root holds the link to the window and nothing else.
      by_cases hi : i = hostPml4Index
      · rw [if_pos hi, hi]
        exact ⟨rfl, rfl, Nat.mod_eq_of_lt m.pdpte_lt⟩
      · show kinds.Slot (if i = hostPml4Index then _ else _) none _
        rw [if_neg hi, if_neg hi]
        rfl
    · have hpages : (startTables m rest).pages m.pdpte i = windowEntry i := by
        simp only [startTables, Function.update_self]
      rw [hpages]
      rfl
  parent := by
    intro p i hp
    constructor
    · cases hnode : startNode m (p ++ [i]) with
      | none => rfl
      | some f =>
          rcases startNode_eq_some hnode with ⟨hnil, -⟩ | ⟨hone, -⟩
          · exact absurd hnil (by simp)
          · obtain rfl : p = [] :=
              (List.append_inj' (show p ++ [i] = [] ++ [hostPml4Index] from hone) rfl).1
            cases hp
    · cases hleaf : startLeaf (p ++ [i]) with
      | none => rfl
      | some e =>
          obtain ⟨j, hpath⟩ := startLeaf_eq_some hleaf
          obtain rfl : p = [hostPml4Index] :=
            (List.append_inj' (show p ++ [i] = [hostPml4Index] ++ [j] from hpath) rfl).1
          cases hp

/-- The tables before the first call cover nothing. -/
theorem mirrors_start (m : HostMemory) (system : Tables) (dtb : Nat) (rest : Tables) :
    Mirrors m system dtb (startTables m rest) (startNode m) startLeaf fun _ => False where
  holds.tree := represents_start m rest
  holds.owned p f hp := by
    rcases startNode_eq_some hp with ⟨-, hf⟩ | ⟨-, hf⟩
    · exact Or.inl hf
    · exact Or.inr (Or.inl hf)
  leaves p e hp := Or.inl (startLeaf_eq_some hp)
  tables p f hp := by
    rcases startNode_eq_some hp with ⟨hnil, -⟩ | ⟨hone, -⟩
    · exact Or.inl hnil
    · exact Or.inr (Or.inl hone)
  covers va hva := hva.elim

/-! ### The loop -/

/-- Addresses in one page of a leaf. -/
theorem HasLeaf.of_page {va va' : Nat} {e : PageEntry} {level : PageTableLevel}
    (h : HasLeaf system dtb va e level)
    (hpage : va' / 2 ^ pageBits level = va / 2 ^ pageBits level) :
    HasLeaf system dtb va' e level := h.congr (leafPath_congr hpage)

/-- The range of a call ends before the last address, the 2 MB and 4 KB
pages it meets stay clear of the window, and each 1 GB page it meets
reaches to its end or to a multiple of 4 GB. -/
structure Steps (system : Tables) (dtb va size : Nat) : Prop where
  fits : va + size < 2 ^ 64
  window : ∀ a e level, va ≤ a → a < va + size →
    getSystemPteForVa system dtb a = some (e, level) → level ≠ .pdpte → pml4Idx a ≠ hostPml4Index
  stride : ∀ a e, va ≤ a → a < va + size → getSystemPteForVa system dtb a = some (e, .pdpte) →
    va + size ≤ (a / 2 ^ 30 + 1) * 2 ^ 30 ∨ (a / 2 ^ 30 + 1) * 2 ^ 30 % 2 ^ 32 = 0

/-- A leaf is found once. -/
theorem HasLeaf.unique {va : Nat} {e e' : PageEntry} {level level' : PageTableLevel}
    (h : HasLeaf system dtb va e level) (h' : HasLeaf system dtb va e' level') :
    level = level' ∧ e = e' := by
  have hsame := getSystemPteForVa_eq_some.mpr h
  rw [getSystemPteForVa_eq_some.mpr h'] at hsame
  have hpair := Prod.mk.inj (Option.some.inj hsame)
  exact ⟨hpair.2.symm, hpair.1.symm⟩

/-- The end of the block of `2 ^ k` bytes with an address in it is the
next multiple. -/
theorem blockEnd_le {k x y : Nat} (hy : 2 ^ k ∣ y) (hxy : x < y) :
    x / 2 ^ k * 2 ^ k + 2 ^ k ≤ y := by
  obtain ⟨n, rfl⟩ := hy
  have hn : x / 2 ^ k < n := Nat.div_lt_of_lt_mul hxy
  calc
    x / 2 ^ k * 2 ^ k + 2 ^ k = (x / 2 ^ k + 1) * 2 ^ k := (Nat.succ_mul _ _).symm
    _ ≤ n * 2 ^ k := Nat.mul_le_mul_right _ hn
    _ = 2 ^ k * n := Nat.mul_comm _ _

/-- An address before that end lies in the block. -/
theorem div_eq_of_lt_blockEnd {k x y : Nat} (hxy : x ≤ y) (hlt : y < x / 2 ^ k * 2 ^ k + 2 ^ k) :
    y / 2 ^ k = x / 2 ^ k := by
  have hlow : x / 2 ^ k * 2 ^ k ≤ y := (Nat.div_mul_le_self x (2 ^ k)).trans hxy
  refine Nat.div_eq_of_lt_le hlow ?_
  rwa [Nat.succ_mul]

/-- A step is at least as long as the page. -/
theorem pageBits_le (level : PageTableLevel) : pageBits level ≤ strideBits level := by
  cases level <;> decide

/-- If the step from an address comes around to 0, then no step from an
address up to the begin of its page leads past that begin. -/
theorem nextAddress_le {current : Nat} {e : PageEntry} {level : PageTableLevel}
    (hcurrent : HasLeaf system dtb current e level)
    (hwrap : 2 ^ 64 ≤ current / 2 ^ strideBits level * 2 ^ strideBits level + 2 ^ strideBits level)
    {c : Nat} {e' : PageEntry} {level' : PageTableLevel} (hleaf : HasLeaf system dtb c e' level')
    (hlt : current < 2 ^ 64) (hc : c ≤ current / 2 ^ pageBits level * 2 ^ pageBits level) :
    nextAddress level' c ≤ current / 2 ^ pageBits level * 2 ^ pageBits level := by
  have hbegin : current / 2 ^ pageBits level * 2 ^ pageBits level ≤ current :=
    Nat.div_mul_le_self _ _
  have hpage : current / 2 ^ pageBits level * 2 ^ pageBits level / 2 ^ pageBits level =
      current / 2 ^ pageBits level := Nat.mul_div_cancel _ (Nat.two_pow_pos _)
  generalize current / 2 ^ pageBits level * 2 ^ pageBits level = p at hc hbegin hpage ⊢
  have hp := hcurrent.of_page hpage
  -- The next address is in a later block of this step unless the page ends
  -- before it.
  by_cases hle : c / 2 ^ strideBits level' * 2 ^ strideBits level' + 2 ^ strideBits level' ≤ p
  · exact (Nat.mod_le _ _).trans hle
  · -- Both lie in one block of this step, and so does the address that came around.
    have hblock : p / 2 ^ strideBits level' = c / 2 ^ strideBits level' :=
      div_eq_of_lt_blockEnd hc (Nat.lt_of_not_le hle)
    have hsame : strideBits level ≤ strideBits level' := by
      cases level' with
      | pdpte => cases level <;> decide
      | pde => rw [(hp.unique (hleaf.of_page hblock)).1]
      | pte => rw [(hp.unique (hleaf.of_page hblock)).1]
    have hcurrentBlock : c / 2 ^ strideBits level' = current / 2 ^ strideBits level' := by
      have hle := (pageBits_le level).trans hsame
      rw [← hblock, ← Nat.add_sub_cancel' hle, Nat.pow_add, ← Nat.div_div_eq_div_mul, hpage,
        Nat.div_div_eq_div_mul]
    have hend : current / 2 ^ strideBits level' * 2 ^ strideBits level' + 2 ^ strideBits level' =
        2 ^ 64 := by
      have hstride : strideBits level' ≤ 64 := by cases level' <;> decide
      refine Nat.le_antisymm (blockEnd_le (Nat.pow_dvd_pow 2 hstride) hlt) (hwrap.trans ?_)
      refine blockEnd_le ?_ (Nat.lt_div_mul_add (Nat.two_pow_pos _))
      exact Nat.dvd_trans (Nat.pow_dvd_pow 2 hsame)
        (Nat.dvd_add (Nat.dvd_mul_left _ _) (Nat.dvd_refl _))
    rw [nextAddress, hcurrentBlock, hend, Nat.mod_self]
    exact Nat.zero_le p

/-- A loop that has come around to 0 does not come to its end any more. -/
theorem mapLoop_wrapped {endAddress current : Nat} {e : PageEntry} {level : PageTableLevel}
    (hcurrent : HasLeaf system dtb current e level) (hlt : current < endAddress)
    (hend : endAddress < 2 ^ 64)
    (hwrap : 2 ^ 64 ≤ current / 2 ^ strideBits level * 2 ^ strideBits level + 2 ^ strideBits level)
    (fuel : Nat) {c : Nat} (hc : c ≤ current / 2 ^ pageBits level * 2 ^ pageBits level) :
    mapLoop m system dtb endAddress fuel c t ≠ some (true, t') := by
  -- By induction over the fuel. The address stays below the page it came around
  -- to, and so never reaches the end.
  induction fuel generalizing c t with
  | zero =>
      intro h
      cases h
  | succ fuel ih =>
      have hbegin : current / 2 ^ pageBits level * 2 ^ pageBits level ≤ current :=
        Nat.div_mul_le_self _ _
      intro h
      rw [mapLoop, if_pos (by omega)] at h
      cases hget : getSystemPteForVa system dtb c with
      | none =>
          rw [hget] at h
          cases h
      | some found =>
          rw [hget] at h
          cases hmap : mapLeaf m t m.pml4e (leafPath c found.2) found.1 with
          | mk ok t₁ =>
          dsimp only at h
          rw [hmap] at h
          cases ok with
          | false => cases h
          | true =>
              have hleaf := getSystemPteForVa_eq_some.mp hget
              exact ih (nextAddress_le hcurrent hwrap hleaf (by omega) hc) h

/-- What the loop steps over within the range is the rest of the page. -/
theorem Steps.samePage {va size current a : Nat} {e : PageEntry} {level : PageTableLevel}
    (h : Steps system dtb va size) (hleaf : HasLeaf system dtb current e level)
    (hva : va ≤ current) (hlt : current < va + size) (ha : current ≤ a)
    (hnext : a < current / 2 ^ strideBits level * 2 ^ strideBits level + 2 ^ strideBits level)
    (hend : a < va + size) : a / 2 ^ pageBits level = current / 2 ^ pageBits level := by
  -- A 4 KB or 2 MB page is stepped over whole. At 1 GB the code steps 4 GB on.
  cases level with
  | pte => exact div_eq_of_lt_blockEnd ha hnext
  | pde => exact div_eq_of_lt_blockEnd ha hnext
  | pdpte =>
    refine div_eq_of_lt_blockEnd ha ?_
    show a < current / 2 ^ 30 * 2 ^ 30 + 2 ^ 30
    rw [← Nat.succ_mul]
    rcases h.stride current e hva hlt (getSystemPteForVa_eq_some.mpr hleaf) with hlong | hmultiple
    · exact Nat.lt_of_lt_of_le hend hlong
    · refine Nat.lt_of_lt_of_le hnext ?_
      refine blockEnd_le (k := 32) (Nat.dvd_of_mod_eq_zero hmultiple) ?_
      rw [Nat.succ_mul]
      exact Nat.lt_div_mul_add (Nat.two_pow_pos _)

/-- The loop covers the range, and what has been covered before stays
covered. -/
theorem mapLoop_covers {va size : Nat} (hsteps : Steps system dtb va size) (fuel : Nat)
    {current : Nat} (h : Mirrors m system dtb t node leaf covered) (hva : va ≤ current)
    (hbefore : ∀ a, va ≤ a → a < current → a < va + size → covered a)
    (hrun : mapLoop m system dtb (va + size) fuel current t = some (true, t')) :
    ∃ node' leaf' covered', Mirrors m system dtb t' node' leaf' covered' ∧
      (∀ a, covered a → covered' a) ∧ ∀ a, va ≤ a → a < va + size → covered' a := by
  -- By induction over the fuel. What lies below `current` is covered.
  induction fuel generalizing current t node leaf covered with
  | zero => cases hrun
  | succ fuel ih =>
      rw [mapLoop] at hrun
      by_cases hlt : current < va + size
      · rw [if_pos hlt] at hrun
        cases hget : getSystemPteForVa system dtb current with
        | none =>
            rw [hget] at hrun
            cases hrun
        | some found =>
            rcases found with ⟨e, level⟩
            rw [hget] at hrun
            cases hmap : mapLeaf m t m.pml4e (leafPath current level) e with
            | mk ok t₁ =>
            dsimp only at hrun
            rw [hmap] at hrun
            cases ok with
            | false => cases hrun
            | true =>
                have hfits := hsteps.fits
                have hleaf := getSystemPteForVa_eq_some.mp hget
                obtain ⟨node₁, leaf₁, h₁⟩ :=
                  h.mapLeaf hleaf (hsteps.window current e level hva hlt hget) hmap
                have hstride : strideBits level ≤ 64 := by cases level <;> decide
                have htop : current / 2 ^ strideBits level * 2 ^ strideBits level +
                    2 ^ strideBits level ≤ 2 ^ 64 :=
                  blockEnd_le (Nat.pow_dvd_pow 2 hstride) (by omega)
                have hnext : current < current / 2 ^ strideBits level * 2 ^ strideBits level +
                    2 ^ strideBits level := Nat.lt_div_mul_add (Nat.two_pow_pos _)
                -- The next address is in the range of 64 bits or has wrapped to
                -- 0.
                rcases Nat.lt_or_eq_of_le htop with hlow | hwrap
                · have hmod : nextAddress level current = current / 2 ^ strideBits level *
                      2 ^ strideBits level + 2 ^ strideBits level := Nat.mod_eq_of_lt hlow
                  obtain ⟨node₂, leaf₂, covered₂, h₂, hkeeps, hcovers⟩ := ih h₁
                    (by omega) (fun a hva' ha hend => by
                      by_cases hold : a < current
                      · exact Or.inl (hbefore a hva' hold hend)
                      · rw [hmod] at ha
                        exact Or.inr (leafPath_congr
                          (hsteps.samePage hleaf hva hlt (Nat.le_of_not_lt hold) ha hend))) hrun
                  exact ⟨node₂, leaf₂, covered₂, h₂, fun a ha => hkeeps a (Or.inl ha), hcovers⟩
                · have hzero : nextAddress level current = 0 := by
                    rw [nextAddress, hwrap, Nat.mod_self]
                  exact absurd hrun (mapLoop_wrapped hleaf hlt hfits hwrap.ge fuel
                    (by rw [hzero]; exact Nat.zero_le _))
      · rw [if_neg hlt] at hrun
        obtain rfl := (Prod.mk.inj (Option.some.inj hrun)).2
        exact ⟨node, leaf, covered, h, fun _ ha => ha, fun a hva' ha =>
          hbefore a hva' (by omega) ha⟩

/-- Calls that return true cover their ranges, and so does every later
call. -/
theorem mapCalls_covers {calls : List MapCall} (h : Mirrors m system dtb t node leaf covered)
    (hsteps : ∀ call ∈ calls, Steps system dtb call.va call.size)
    (hrun : mapCalls m system dtb t calls = some t') :
    ∃ node' leaf' covered', Mirrors m system dtb t' node' leaf' covered' ∧
      (∀ a, covered a → covered' a) ∧
      ∀ call ∈ calls, ∀ a, call.va ≤ a → a < call.va + call.size → covered' a := by
  -- By induction over the calls, each of which keeps what the earlier ones
  -- cover.
  induction calls generalizing t node leaf covered with
  | nil =>
      obtain rfl := Option.some.inj hrun
      exact ⟨node, leaf, covered, h, fun _ ha => ha, fun _ hcall => nomatch hcall⟩
  | cons call calls ih =>
      have hcall := hsteps call List.mem_cons_self
      rw [mapCalls, mapVaRangeToHost, Nat.mod_eq_of_lt hcall.fits] at hrun
      split at hrun
      · rename_i t₁ hone
        obtain ⟨node₁, leaf₁, covered₁, h₁, hkeeps₁, hcovers₁⟩ :=
          mapLoop_covers hcall call.fuel h (Nat.le_refl _) (fun a hva hlt _ => by omega) hone
        obtain ⟨node₂, leaf₂, covered₂, h₂, hkeeps₂, hcovers₂⟩ :=
          ih h₁ (fun c hc => hsteps c (List.mem_cons_of_mem _ hc)) hrun
        refine ⟨node₂, leaf₂, covered₂, h₂, fun a ha => hkeeps₂ a (hkeeps₁ a ha), ?_⟩
        intro c hc a hva hlt
        rcases List.mem_cons.mp hc with rfl | hc
        · exact hkeeps₂ a (hcovers₁ a hva hlt)
        · exact hcovers₂ c hc a hva hlt
      · cases hrun

end Mirror

/-- For all tables of the system and every sequence of calls that return
true and meet `Steps`, each address of each range translates through the
host tables as through those of the system. -/
theorem mapCalls_translates (m : HostMemory) (system : Tables) (dtb : Nat) (rest : Tables)
    (calls : List MapCall) (t : HostPageTables)
    (hsteps : ∀ call ∈ calls, Steps system dtb call.va call.size)
    (hrun : mapCalls m system dtb (startTables m rest) calls = some t) :
    ∀ call ∈ calls, ∀ a, call.va ≤ a → a < call.va + call.size →
      ∃ pa, GuestMemory.translate system dtb a = some pa ∧
        GuestMemory.translate t.pages m.pml4e a = some pa := by
  intro call hcall a hva hlt
  obtain ⟨node, leaf, covered, h, -, hcovers⟩ :=
    mapCalls_covers (mirrors_start m system dtb rest) hsteps hrun
  exact h.translates (hcovers call hcall a hva hlt)

/-- A thousand pages, and the two tables before them. -/
def thousandPages : HostMemory where
  pml4e := 10
  pdpte := 11
  page n := if n < 1000 then some (100 + n) else none
  pdpte_ne := by decide
  page_ne n f h := by
    split at h
    · obtain rfl := Option.some.inj h
      omega
    · cases h
  page_injective n n' f h h' := by
    split at h
    · split at h'
      · have := Option.some.inj h
        have := Option.some.inj h'
        omega
      · cases h'
    · cases h
  pdpte_lt := by decide
  page_lt n f h := by
    split at h
    · obtain rfl := Option.some.inj h
      omega
    · cases h

/-- A system that maps the first two GB of kernel space by two 1 GB
pages. -/
def twoGiantPages : Tables := fun frame i =>
  if frame = 1 ∧ i = 256 then ⟨true, true, false, 2, 0⟩
  else if frame = 2 ∧ i.val < 2 then ⟨true, true, true, i * 2 ^ 18, 0⟩ else .zero

/-- Two pages within the first of them are mapped. -/
theorem mapCalls_translates_twoPages :
    ∃ t, mapCalls thousandPages twoGiantPages 1 (startTables thousandPages fun _ _ => .zero)
        [⟨0xFFFF800000001000, 0x2000, 2⟩] = some t ∧
      ∃ pa, GuestMemory.translate twoGiantPages 1 0xFFFF800000002345 = some pa ∧
        GuestMemory.translate t.pages 10 0xFFFF800000002345 = some pa := by
  have hsome : (mapCalls thousandPages twoGiantPages 1
      (startTables thousandPages fun _ _ => .zero) [⟨0xFFFF800000001000, 0x2000, 2⟩]).isSome := by
    decide +kernel
  obtain ⟨t, ht⟩ := Option.isSome_iff_exists.mp hsome
  refine ⟨t, ht, ?_⟩
  have hsteps : Steps twoGiantPages 1 0xFFFF800000001000 0x2000 :=
    { fits := by decide
      -- Index 256 of the PML4 is not the one of the window.
      window := by
        intro a _ _ hlow hhigh _ _
        have hidx : a / 2 ^ 39 = 0x1FFFF00 := by omega
        rw [pml4Idx, hidx]
        decide
      stride := by
        intro a e hlow hhigh _
        exact Or.inl (by omega) }
  refine mapCalls_translates thousandPages twoGiantPages 1 (fun _ _ => .zero) _ t ?_ ht
    ⟨0xFFFF800000001000, 0x2000, 2⟩ (List.mem_singleton_self _) _ (by decide) (by decide)
  intro call hcall
  obtain rfl := List.mem_singleton.mp hcall
  exact hsteps

/-- A call for both returns true. It has gone from the first page to the
next 4 GB. -/
theorem mapCalls_gap :
    ∃ t, mapCalls thousandPages twoGiantPages 1 (startTables thousandPages fun _ _ => .zero)
        [⟨0xFFFF800000000000, 0x80000000, 2⟩] = some t ∧
      GuestMemory.translate twoGiantPages 1 0xFFFF800040000000 = some 0x40000000 ∧
      GuestMemory.translate t.pages 10 0xFFFF800040000000 = none := by
  have hrun : (mapCalls thousandPages twoGiantPages 1
      (startTables thousandPages fun _ _ => .zero) [⟨0xFFFF800000000000, 0x80000000, 2⟩]).map
        (fun t => GuestMemory.translate t.pages 10 0xFFFF800040000000) = some none := by
    decide +kernel
  obtain ⟨t, ht, hnone⟩ := Option.map_eq_some_iff.mp hrun
  exact ⟨t, ht, by decide +kernel, hnone⟩

end Revhv.HostTables
