import Revhv.Km.GuestMemory

/-!
# `Revhv.Proofs.PageWalk`: what one page walk says about a whole page

* `gvaToGpa_spec`: `gva_to_gpa` against `translate`. What it stores
  through `offset_to_next_page` is the rest of a page that translates
  without a break, with one walk.
* `walkEntries_congr`, `translate_congr`: a walk depends on the entries
  it dereferences only.
* `AgreeOff`: two memories that differ at some addresses only. A walk
  that stays clear of them is the same in both.
-/

set_option autoImplicit false

namespace Revhv.GuestMemory

open Revhv.Lib Revhv.Memory

/-! ### Within a page -/

/-- The upper index fields in one block of 1 GB. -/
theorem idx_of_div30 {va va' : Nat} (h : va / 2 ^ 30 = va' / 2 ^ 30) :
    pml4Idx va = pml4Idx va' ∧ pdptIdx va = pdptIdx va' := by
  have h39 : va / 2 ^ 39 = va' / 2 ^ 39 := by omega
  rw [pml4Idx, pml4Idx, pdptIdx, pdptIdx, h, h39]
  exact ⟨rfl, rfl⟩

/-- The upper index fields in one block of 2 MB. -/
theorem idx_of_div21 {va va' : Nat} (h : va / 2 ^ 21 = va' / 2 ^ 21) :
    pml4Idx va = pml4Idx va' ∧ pdptIdx va = pdptIdx va' ∧ pdIdx va = pdIdx va' := by
  have h30 := idx_of_div30 (show va / 2 ^ 30 = va' / 2 ^ 30 by omega)
  rw [pdIdx, pdIdx, h]
  exact ⟨h30.1, h30.2, rfl⟩

/-- All index fields in one block of 4 KB. -/
theorem idx_of_div12 {va va' : Nat} (h : va / 2 ^ 12 = va' / 2 ^ 12) :
    pml4Idx va = pml4Idx va' ∧ pdptIdx va = pdptIdx va' ∧ pdIdx va = pdIdx va' ∧
      ptIdx va = ptIdx va' := by
  have h21 := idx_of_div21 (show va / 2 ^ 21 = va' / 2 ^ 21 by omega)
  rw [ptIdx, ptIdx, h]
  exact ⟨h21.1, h21.2.1, h21.2.2, rfl⟩

/-- The `len` bytes from `va` on lie in one page, and `pa` is where `va`
is. -/
structure PageRest (tables : Tables) (dtb va pa len : Nat) : Prop where
  pos : 0 < len
  translates : ∀ k < len, translate tables dtb (va + k) = some (pa + k)
  walk : ∀ k < len, walkEntries tables dtb (va + k) = walkEntries tables dtb va
  window : pa < hostPhysicalSize → pa + len ≤ hostPhysicalSize

section
variable {tables : Tables} {dtb va : Nat}

/-- The rest of a 1 GB page. -/
theorem pageRest_1gb
    (hpml4e : (tables dtb (pml4Idx va)).present = true)
    (hpdpte : (tables (tables dtb (pml4Idx va)).pageFrameNumber (pdptIdx va)).present = true)
    (hlarge : (tables (tables dtb (pml4Idx va)).pageFrameNumber (pdptIdx va)).largePage = true) :
    PageRest tables dtb va
      ((tables (tables dtb (pml4Idx va)).pageFrameNumber (pdptIdx va)).pageFrameNumber1gb * 2 ^ 30 +
        va % 2 ^ 30) (2 ^ 30 - va % 2 ^ 30) where
  pos := by omega
  translates k hk := by
    obtain ⟨h4, h3⟩ := idx_of_div30 (show (va + k) / 2 ^ 30 = va / 2 ^ 30 by omega)
    simp [translate, h4, h3, hpml4e, hpdpte, hlarge, Nat.add_assoc]
    omega
  walk k hk := by
    obtain ⟨h4, h3⟩ := idx_of_div30 (show (va + k) / 2 ^ 30 = va / 2 ^ 30 by omega)
    simp [walkEntries, h4, h3, hpml4e, hpdpte, hlarge]
  window h := by
    simp only [hostPhysicalSize] at *
    omega

/-- The rest of a 2 MB page. -/
theorem pageRest_2mb
    (hpml4e : (tables dtb (pml4Idx va)).present = true) {pdpte pde : PageEntry}
    (hpdpte : tables (tables dtb (pml4Idx va)).pageFrameNumber (pdptIdx va) = pdpte)
    (hpresent : pdpte.present = true) (hsmall : pdpte.largePage = false)
    (hpde : tables pdpte.pageFrameNumber (pdIdx va) = pde)
    (hpresent' : pde.present = true) (hlarge : pde.largePage = true) :
    PageRest tables dtb va (pde.pageFrameNumber2mb * 2 ^ 21 + va % 2 ^ 21)
      (2 ^ 21 - va % 2 ^ 21) where
  pos := by omega
  translates k hk := by
    obtain ⟨h4, h3, h2⟩ := idx_of_div21 (show (va + k) / 2 ^ 21 = va / 2 ^ 21 by omega)
    simp [translate, h4, h3, h2, hpml4e, hpdpte, hpresent, hsmall, hpde, hpresent', hlarge,
      Nat.add_assoc]
    omega
  walk k hk := by
    obtain ⟨h4, h3, h2⟩ := idx_of_div21 (show (va + k) / 2 ^ 21 = va / 2 ^ 21 by omega)
    simp [walkEntries, h4, h3, h2, hpml4e, hpdpte, hpresent, hsmall, hpde, hpresent', hlarge]
  window h := by
    simp only [hostPhysicalSize] at *
    omega

/-- The rest of a 4 KB page. -/
theorem pageRest_4kb
    (hpml4e : (tables dtb (pml4Idx va)).present = true) {pdpte pde pte : PageEntry}
    (hpdpte : tables (tables dtb (pml4Idx va)).pageFrameNumber (pdptIdx va) = pdpte)
    (hpresent : pdpte.present = true) (hsmall : pdpte.largePage = false)
    (hpde : tables pdpte.pageFrameNumber (pdIdx va) = pde)
    (hpresent' : pde.present = true) (hsmall' : pde.largePage = false)
    (hpte : tables pde.pageFrameNumber (ptIdx va) = pte) (hpresent'' : pte.present = true) :
    PageRest tables dtb va (pte.pageFrameNumber * 2 ^ 12 + va % 2 ^ 12)
      (2 ^ 12 - va % 2 ^ 12) where
  pos := by omega
  translates k hk := by
    obtain ⟨h4, h3, h2, h1⟩ := idx_of_div12 (show (va + k) / 2 ^ 12 = va / 2 ^ 12 by omega)
    simp [translate, h4, h3, h2, h1, hpml4e, hpdpte, hpresent, hsmall, hpde, hpresent',
      hsmall', hpte, hpresent'', Nat.add_assoc]
    omega
  walk k hk := by
    obtain ⟨h4, h3, h2, h1⟩ := idx_of_div12 (show (va + k) / 2 ^ 12 = va / 2 ^ 12 by omega)
    simp [walkEntries, h4, h3, h2, h1, hpml4e, hpdpte, hpresent, hsmall, hpde, hpresent',
      hsmall']
  window h := by
    simp only [hostPhysicalSize] at *
    omega

end

/-- The offset in a 2 MB page, from the fields. -/
theorem offset_2mb (va : Nat) : (ptIdx va : Nat) * 2 ^ 12 + offset va = va % 2 ^ 21 := by
  have hsplit : va % 2 ^ 21 = va % 2 ^ 12 + 2 ^ 12 * (va / 2 ^ 12 % 512) := by omega
  have hidx : (ptIdx va : Nat) = va / 2 ^ 12 % 512 := rfl
  rw [hidx, offset, Nat.mul_comm, Nat.add_comm, ← hsplit]

/-- The offset in a 1 GB page, from the fields. -/
theorem offset_1gb (va : Nat) :
    (pdIdx va : Nat) * 2 ^ 21 + (ptIdx va : Nat) * 2 ^ 12 + offset va = va % 2 ^ 30 := by
  have hsplit : va % 2 ^ 30 = va % 2 ^ 21 + 2 ^ 21 * (va / 2 ^ 21 % 512) := by omega
  have hidx : (pdIdx va : Nat) = va / 2 ^ 21 % 512 := rfl
  rw [hidx, Nat.add_assoc, offset_2mb, Nat.mul_comm, Nat.add_comm, ← hsplit]

/-- `gva_to_gpa` returns 0 and stores nothing where the tables do not
map the address. Otherwise it returns the physical address and stores
what is left of the page. -/
theorem gvaToGpa_spec (tables : Tables) (dtb va : Nat) :
    (translate tables dtb va = none ∧ gvaToGpa tables dtb va = (0, none)) ∨
      ∃ pa len, gvaToGpa tables dtb va = (pa, some len) ∧ PageRest tables dtb va pa len := by
  have hoff21 := offset_2mb va
  have hoff30 := offset_1gb va
  -- Level by level: each entry is absent, a large page, or the next table.
  cases hpml4e : (tables dtb (pml4Idx va)).present with
  | false => exact Or.inl ⟨by simp [translate, hpml4e], by simp [gvaToGpa, hpml4e]⟩
  | true =>
  generalize hpdpte : tables (tables dtb (pml4Idx va)).pageFrameNumber (pdptIdx va) = pdpte
  cases hpresent : pdpte.present with
  | false =>
    exact Or.inl ⟨by simp [translate, hpml4e, hpdpte, hpresent],
      by simp [gvaToGpa, hpml4e, hpdpte, hpresent]⟩
  | true =>
  cases hlarge : pdpte.largePage with
  | true =>
    have hrest := pageRest_1gb hpml4e (hpdpte ▸ hpresent) (hpdpte ▸ hlarge)
    rw [hpdpte] at hrest
    refine Or.inr ⟨_, _, ?_, hrest⟩
    simp only [gvaToGpa, hpml4e, hpdpte, hpresent, hlarge, hoff30]
    rfl
  | false =>
  generalize hpde : tables pdpte.pageFrameNumber (pdIdx va) = pde
  cases hpresent' : pde.present with
  | false =>
    exact Or.inl ⟨by simp [translate, hpml4e, hpdpte, hpresent, hlarge, hpde, hpresent'],
      by simp [gvaToGpa, hpml4e, hpdpte, hpresent, hlarge, hpde, hpresent']⟩
  | true =>
  cases hlarge' : pde.largePage with
  | true =>
    refine Or.inr ⟨_, _, ?_, pageRest_2mb hpml4e hpdpte hpresent hlarge hpde hpresent' hlarge'⟩
    simp only [gvaToGpa, hpml4e, hpdpte, hpresent, hlarge, hpde, hpresent', hlarge', hoff21]
    rfl
  | false =>
  generalize hpte : tables pde.pageFrameNumber (ptIdx va) = pte
  cases hpresent'' : pte.present with
  | false =>
    exact Or.inl
      ⟨by simp [translate, hpml4e, hpdpte, hpresent, hlarge, hpde, hpresent', hlarge', hpte,
        hpresent''],
        by simp [gvaToGpa, hpml4e, hpdpte, hpresent, hlarge, hpde, hpresent', hlarge', hpte,
          hpresent'']⟩
  | true =>
    refine Or.inr ⟨_, _, ?_, pageRest_4kb hpml4e hpdpte hpresent hlarge hpde hpresent' hlarge'
      hpte hpresent''⟩
    simp only [gvaToGpa, hpml4e, hpdpte, hpresent, hlarge, hpde, hpresent', hlarge', hpte,
      hpresent'', offset]
    rfl

/-- A translation keeps the offset in the 4 KB page. -/
theorem translate_mod {tables : Tables} {dtb va pa : Nat} (h : translate tables dtb va = some pa) :
    pa % 2 ^ 12 = va % 2 ^ 12 := by
  simp only [translate] at h
  -- A page of any size keeps the low 12 bits of the address.
  split at h
  · cases h
  · split at h
    · cases Option.some.inj h
      omega
    · split at h
      · cases h
      · split at h
        · cases Option.some.inj h
          omega
        · split at h
          · cases h
          · cases Option.some.inj h
            omega

/-! ### What a walk depends on -/

/-- Two tables with the same entries along a walk have the same walk. -/
theorem walk_congr {tables tables' : Tables} {dtb va : Nat}
    (h : ∀ e ∈ walkEntries tables dtb va, tables' e.1 e.2 = tables e.1 e.2) :
    walkEntries tables' dtb va = walkEntries tables dtb va ∧
      translate tables' dtb va = translate tables dtb va ∧
      gvaToGpa tables' dtb va = gvaToGpa tables dtb va := by
  have hpml4e : tables' dtb (pml4Idx va) = tables dtb (pml4Idx va) :=
    h (dtb, pml4Idx va) List.mem_cons_self
  -- Each level that agrees names the next entry, which the walk then reads.
  cases hp4 : (tables dtb (pml4Idx va)).present with
  | false => simp [walkEntries, translate, gvaToGpa, hpml4e, hp4]
  | true =>
  have hpdpte := h ((tables dtb (pml4Idx va)).pageFrameNumber, pdptIdx va)
    (by simp [walkEntries, hp4])
  cases hp3 : (tables (tables dtb (pml4Idx va)).pageFrameNumber (pdptIdx va)).present with
  | false => simp [walkEntries, translate, gvaToGpa, hpml4e, hp4, hpdpte, hp3]
  | true =>
  cases hl3 : (tables (tables dtb (pml4Idx va)).pageFrameNumber (pdptIdx va)).largePage with
  | true => simp [walkEntries, translate, gvaToGpa, hpml4e, hp4, hpdpte, hp3, hl3]
  | false =>
  generalize hpdpte' : tables (tables dtb (pml4Idx va)).pageFrameNumber (pdptIdx va) = pdpte at *
  have hpde := h (pdpte.pageFrameNumber, pdIdx va)
    (by simp [walkEntries, hp4, hpdpte', hp3, hl3])
  generalize hpde' : tables pdpte.pageFrameNumber (pdIdx va) = pde at *
  cases hp2 : pde.present with
  | false =>
    simp [walkEntries, translate, gvaToGpa, hpml4e, hp4, hpdpte, hpdpte', hp3, hl3, hpde, hpde', hp2]
  | true =>
  cases hl2 : pde.largePage with
  | true =>
    simp [walkEntries, translate, gvaToGpa, hpml4e, hp4, hpdpte, hpdpte', hp3, hl3, hpde, hpde',
      hp2, hl2]
  | false =>
  have hpte := h (pde.pageFrameNumber, ptIdx va)
    (by simp [walkEntries, hp4, hpdpte', hp3, hl3, hpde', hp2, hl2])
  simp [walkEntries, translate, gvaToGpa, hpml4e, hp4, hpdpte, hpdpte', hp3, hl3, hpde, hpde',
    hp2, hl2, hpte]

/-- `mem'` differs from `mem` at addresses of `W` only. -/
def AgreeOff (W : Nat → Prop) (mem mem' : Bytes) : Prop := ∀ a, ¬ W a → mem' a = mem a

/-- The entries of the walk of `va` are clear of `W`. -/
def ClearOf (W : Nat → Prop) (mem : Bytes) (dtb va : Nat) : Prop :=
  ∀ e ∈ walkEntries (tablesOf mem) dtb va, ∀ k < 8, ¬ W (entryAddress e + k)

/-- A walk that is clear of a range is clear of its parts. -/
theorem ClearOf.mono {W W' : Nat → Prop} {mem : Bytes} {dtb va : Nat} (h : ClearOf W mem dtb va)
    (hsub : ∀ a, W' a → W a) : ClearOf W' mem dtb va :=
  fun e he k hk hw => h e he k hk (hsub _ hw)

/-- A memory agrees with itself. -/
theorem AgreeOff.refl (W : Nat → Prop) (mem : Bytes) : AgreeOff W mem mem := fun _ _ => rfl

/-- Agreement goes on from memory to memory. -/
theorem AgreeOff.trans {W : Nat → Prop} {mem mem' mem'' : Bytes} (h : AgreeOff W mem mem')
    (h' : AgreeOff W mem' mem'') : AgreeOff W mem mem'' :=
  fun a ha => (h' a ha).trans (h a ha)

/-- A number depends on its 8 bytes. -/
theorem uint64At_congr {mem mem' : Bytes} {a : Nat} (h : ∀ k < 8, mem' (a + k) = mem (a + k)) :
    uint64At mem' a = uint64At mem a := by
  have hfold : ∀ l : List Nat, (∀ k ∈ l, k < 8) →
      l.foldr (fun i n => (mem' (a + i)).toNat + 256 * n) 0 =
        l.foldr (fun i n => (mem (a + i)).toNat + 256 * n) 0 := by
    intro l hl
    induction l with
    | nil => rfl
    | cons k l ih =>
      rw [List.foldr_cons, List.foldr_cons, h k (hl k List.mem_cons_self),
        ih fun j hj => hl j (List.mem_cons_of_mem _ hj)]
  exact hfold (List.range 8) fun k hk => List.mem_range.mp hk

/-- A walk that is clear of `W` is the same in both memories. -/
theorem AgreeOff.walk {W : Nat → Prop} {mem mem' : Bytes} {dtb va : Nat}
    (h : AgreeOff W mem mem') (hclear : ClearOf W mem dtb va) :
    walkEntries (tablesOf mem') dtb va = walkEntries (tablesOf mem) dtb va ∧
      translate (tablesOf mem') dtb va = translate (tablesOf mem) dtb va ∧
      gvaToGpa (tablesOf mem') dtb va = gvaToGpa (tablesOf mem) dtb va :=
  walk_congr fun e he => congrArg pageEntryOf
    (uint64At_congr fun k hk => h _ (hclear e he k hk))

/-- Then it is clear of `W` in both. -/
theorem AgreeOff.clearOf {W : Nat → Prop} {mem mem' : Bytes} {dtb va : Nat}
    (h : AgreeOff W mem mem') (hclear : ClearOf W mem dtb va) : ClearOf W mem' dtb va := by
  intro e he
  rw [(h.walk hclear).1] at he
  exact hclear e he

end Revhv.GuestMemory
