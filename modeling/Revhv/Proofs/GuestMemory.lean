import Revhv.Proofs.PageWalk

/-!
# `Revhv.Proofs.GuestMemory`: the page-wise copies are byte-wise

As long as the walks and the pages they end at lie in the host's window:

* `readGuestVirtual_spec`: a read returns the longest prefix that the
  tables map, and its bytes.
* `writeGuestVirtual_spec`: a write stores the bytes of that prefix, as
  if one by one, when none of them goes to a paging entry it uses.
* `guestCopies_bytewise`: both against the translation of the processor.
-/

set_option autoImplicit false

namespace Revhv.GuestMemory

open Revhv.Lib Revhv.Memory

/-- All that the walk of `va` meets lies in the window, and `va` is not
at physical address 0, which stands for a failed walk. -/
structure InWindow (mem : Bytes) (cr3 va : Nat) : Prop where
  walk : WalkMapped (tablesOf mem) (pageDirectory cr3) va
  leaf : ∀ pa, translateIn mem cr3 va = some pa → pa ≠ 0 ∧ pa < hostPhysicalSize

/-- The buffer holds the first `n` bytes at `va`. -/
def HoldsBytes (mem : Bytes) (cr3 va n : Nat) (buffer : Bytes) : Prop :=
  ∀ i < n, ∃ pa, translateIn mem cr3 (va + i) = some pa ∧ buffer i = mem pa

/-- How much of the range from `va` on is mapped. -/
def mappedLength (mem : Bytes) (cr3 va size : Nat) : Nat :=
  prefixLength (fun i => (translateIn mem cr3 (va + i)).isSome) size

/-- `gva_to_hva` inside the window. -/
theorem gvaToHva_spec {mem : Bytes} {cr3 va : Nat} (h : InWindow mem cr3 va) :
    (translateIn mem cr3 va = none ∧ gvaToHva mem cr3 va = some (0, none)) ∨
      ∃ pa len, gvaToHva mem cr3 va = some (pa, some len) ∧ pa ≠ 0 ∧
        PageRest (tablesOf mem) (pageDirectory cr3) va pa len ∧ pa + len ≤ hostPhysicalSize := by
  have hmapped : gvaToHva mem cr3 va = some (gvaToGpa (tablesOf mem) (pageDirectory cr3) va) :=
    if_pos h.walk
  rw [hmapped]
  rcases gvaToGpa_spec (tablesOf mem) (pageDirectory cr3) va with ⟨hnone, hzero⟩ | hsome
  · rw [hzero]
    exact Or.inl ⟨hnone, rfl⟩
  · rcases hsome with ⟨pa, len, hpa, hrest⟩
    have htranslate : translateIn mem cr3 va = some pa := hrest.translates 0 hrest.pos
    have hleaf := h.leaf pa htranslate
    rw [hpa]
    exact Or.inr ⟨pa, len, rfl, hleaf.1, hrest, hrest.window hleaf.2⟩

/-- A walk that is clear of the differences. -/
theorem AgreeOff.gvaToHva {W : Nat → Prop} {mem mem' : Bytes} {cr3 va : Nat}
    (h : AgreeOff W mem mem') (hclear : ClearOf W mem (pageDirectory cr3) va) :
    gvaToHva mem' cr3 va = gvaToHva mem cr3 va := by
  rcases h.walk hclear with ⟨hwalk, -, hgpa⟩
  have hiff : WalkMapped (tablesOf mem') (pageDirectory cr3) va ↔
      WalkMapped (tablesOf mem) (pageDirectory cr3) va := by
    rw [WalkMapped, WalkMapped, hwalk]
  by_cases hmapped : WalkMapped (tablesOf mem) (pageDirectory cr3) va
  · rw [GuestMemory.gvaToHva, GuestMemory.gvaToHva, if_pos hmapped, if_pos (hiff.mpr hmapped), hgpa]
  · rw [GuestMemory.gvaToHva, GuestMemory.gvaToHva, if_neg hmapped,
      if_neg fun hmapped' => hmapped (hiff.mp hmapped')]

/-- The same address in the window of a memory that agrees. -/
theorem AgreeOff.inWindow {W : Nat → Prop} {mem mem' : Bytes} {cr3 va : Nat}
    (h : AgreeOff W mem mem') (hclear : ClearOf W mem (pageDirectory cr3) va)
    (hwindow : InWindow mem cr3 va) : InWindow mem' cr3 va := by
  rcases h.walk hclear with ⟨hwalk, htranslate, -⟩
  refine ⟨?_, ?_⟩
  · rw [WalkMapped, hwalk]
    exact hwindow.walk
  · rw [translateIn, htranslate]
    exact hwindow.leaf

/-- How far a range is mapped, in a memory that agrees. -/
theorem AgreeOff.mappedLength {W : Nat → Prop} {mem mem' : Bytes} {cr3 va size : Nat}
    (h : AgreeOff W mem mem') (hclear : ∀ i < size, ClearOf W mem (pageDirectory cr3) (va + i)) :
    mappedLength mem' cr3 va size = mappedLength mem cr3 va size := by
  have hsame : ∀ i < size, translateIn mem' cr3 (va + i) = translateIn mem cr3 (va + i) :=
    fun i hi => (h.walk (hclear i hi)).2.1
  have hle : GuestMemory.mappedLength mem cr3 va size ≤ size := prefixLength_le _ _
  refine prefixLength_eq hle (fun i hi => ?_) fun hlt => ?_
  · rw [hsame i (by omega)]
    exact prefixLength_below hi
  · rw [hsame _ hlt]
    exact prefixLength_end hlt

/-! ### Reads -/

/-- One page of a read. -/
theorem holdsBytes_memcpy {mem buffer : Bytes} {cr3 va total pa len n : Nat}
    (h : HoldsBytes mem cr3 va total buffer)
    (hrest : PageRest (tablesOf mem) (pageDirectory cr3) (va + total) pa len) (hn : n ≤ len) :
    HoldsBytes mem cr3 va (total + n) (memcpy buffer total mem pa n) := by
  intro i hi
  -- A byte was copied by an earlier round or lies in this page.
  by_cases hold : i < total
  · rcases h i hold with ⟨a, ha, hbyte⟩
    refine ⟨a, ha, ?_⟩
    rw [memcpy_of_not_mem _ _ _ _ _ (Or.inl hold), hbyte]
  · have htranslate := hrest.translates (i - total) (by omega)
    have hva : va + total + (i - total) = va + i := by omega
    have hbyte := memcpy_of_mem buffer total mem pa (show i - total < n by omega)
    have hi' : total + (i - total) = i := by omega
    rw [hva] at htranslate
    rw [hi'] at hbyte
    exact ⟨_, htranslate, hbyte⟩

/-- The loop from `total` bytes on. -/
theorem readLoop_spec {mem : Bytes} {cr3 va size : Nat} (hfits : va + size ≤ 2 ^ 64)
    (hwindow : ∀ i < size, InWindow mem cr3 (va + i)) (fuel : Nat) {total : Nat} {buffer : Bytes}
    (hle : total ≤ size) (hfuel : size ≤ total + fuel)
    (hdone : HoldsBytes mem cr3 va total buffer) :
    ∃ buffer', readLoop mem cr3 va size fuel total buffer =
        some (mappedLength mem cr3 va size, buffer') ∧
      HoldsBytes mem cr3 va (mappedLength mem cr3 va size) buffer' := by
  have hbelow : ∀ {n : Nat} {b : Bytes}, HoldsBytes mem cr3 va n b →
      ∀ i < n, (translateIn mem cr3 (va + i)).isSome = true := by
    intro n b hb i hi
    rcases hb i hi with ⟨pa, hpa, -⟩
    rw [hpa]
    rfl
  induction fuel generalizing total buffer with
  | zero =>
    -- No round is left, so everything has been read.
    have hall : mappedLength mem cr3 va size = total :=
      prefixLength_eq hle (hbelow hdone) (by omega)
    rw [hall]
    exact ⟨buffer, rfl, hdone⟩
  | succ fuel ih =>
    by_cases hlt : total < size
    · have hmod : (va + total) % 2 ^ 64 = va + total := Nat.mod_eq_of_lt (by omega)
      rcases gvaToHva_spec (hwindow total hlt) with ⟨hnone, hzero⟩ | hpage
      · -- The address is not mapped: the prefix ends here.
        have hend : mappedLength mem cr3 va size = total :=
          prefixLength_eq hle (hbelow hdone) fun _ => by rw [hnone]; rfl
        refine ⟨buffer, ?_, hend ▸ hdone⟩
        rw [readLoop, if_pos hlt, hmod, hzero, hend]
        rfl
      · rcases hpage with ⟨pa, len, hpa, hne, hrest, hin⟩
        have hpos := hrest.pos
        have hround := holdsBytes_memcpy hdone hrest (Nat.min_le_right (size - total) len)
        rcases ih (by omega) (by omega) hround with ⟨buffer', hloop, hholds⟩
        refine ⟨buffer', ?_, hholds⟩
        have hcopy : pa + min (size - total) len ≤ hostPhysicalSize := by omega
        rw [readLoop, if_pos hlt, hmod, hpa]
        simp only [if_neg hne, Option.getD_some, if_pos hcopy]
        exact hloop
    · have htotal : total = size := by omega
      have hall : mappedLength mem cr3 va size = total :=
        prefixLength_eq hle (hbelow hdone) (by omega)
      refine ⟨buffer, ?_, hall ▸ hdone⟩
      rw [readLoop, if_neg hlt, hall]

/-- The loop needs one round for a byte at most. -/
theorem readLoop_fuel {mem : Bytes} {cr3 va size : Nat} (hfits : va + size ≤ 2 ^ 64)
    (hwindow : ∀ i < size, InWindow mem cr3 (va + i)) (fuel fuel' : Nat) {total : Nat}
    {buffer : Bytes} (hfuel : size ≤ total + fuel) (hfuel' : size ≤ total + fuel') :
    readLoop mem cr3 va size fuel total buffer = readLoop mem cr3 va size fuel' total buffer := by
  -- Once the size is reached the fuel does not matter.
  have hdone : ∀ f total buffer, ¬ total < size →
      readLoop mem cr3 va size f total buffer = some (total, buffer) := by
    intro f total buffer hlt
    cases f with
    | zero => rfl
    | succ f => rw [readLoop, if_neg hlt]
  -- By induction over the first fuel, one page a round for either.
  induction fuel generalizing fuel' total buffer with
  | zero => rw [hdone _ _ _ (by omega), hdone _ _ _ (by omega)]
  | succ fuel ih =>
    by_cases hlt : total < size
    · cases fuel' with
      | zero => omega
      | succ fuel' =>
        have hmod : (va + total) % 2 ^ 64 = va + total := Nat.mod_eq_of_lt (by omega)
        rw [readLoop, readLoop, if_pos hlt, if_pos hlt, hmod]
        rcases gvaToHva_spec (hwindow total hlt) with ⟨-, hzero⟩ | hpage
        · rw [hzero]
          rfl
        · rcases hpage with ⟨pa, len, hpa, hne, hrest, hin⟩
          have hpos := hrest.pos
          have hcopy : pa + min (size - total) len ≤ hostPhysicalSize := by omega
          rw [hpa]
          simp only [if_neg hne, Option.getD_some, if_pos hcopy]
          exact ih fuel' (by omega) (by omega)
    · rw [hdone _ _ _ hlt, hdone _ _ _ hlt]

/-- A read returns the longest prefix that the tables map, and its
bytes. -/
theorem readGuestVirtual_spec {mem : Bytes} {cr3 va size : Nat} (buffer : Bytes) (hva : va ≠ 0)
    (hfits : va + size ≤ 2 ^ 64) (hwindow : ∀ i < size, InWindow mem cr3 (va + i)) :
    ∃ buffer', readGuestVirtual mem cr3 va buffer size =
        some (mappedLength mem cr3 va size, buffer') ∧
      HoldsBytes mem cr3 va (mappedLength mem cr3 va size) buffer' := by
  by_cases hzero : size = 0
  · subst hzero
    exact ⟨buffer, if_pos (Or.inr rfl), fun i hi => absurd hi (Nat.not_lt_zero i)⟩
  · have hboth : ¬ (va = 0 ∨ size = 0) := by omega
    rw [readGuestVirtual, if_neg hboth]
    exact readLoop_spec hfits hwindow size (Nat.zero_le _) (by omega)
      fun i hi => absurd hi (Nat.not_lt_zero i)

/-! ### Writes -/

/-- The physical addresses of `n` bytes at `va`. -/
def Footprint (mem : Bytes) (cr3 va n : Nat) (a : Nat) : Prop :=
  ∃ i < n, translateIn mem cr3 (va + i) = some a

/-- A store changes its footprint only. -/
theorem agreeOff_storeBytes (mem : Bytes) (cr3 va : Nat) (src : Bytes) {n size : Nat}
    (hn : n ≤ size) :
    AgreeOff (Footprint mem cr3 va size) mem (storeBytes (translateIn mem cr3) va src mem n) := by
  intro a ha
  refine storeBytes_of_not_mem fun i hi htranslate => ha ?_
  exact ⟨i, by omega, htranslate⟩

/-- The loop from `total` bytes on. Every walk of it is clear of the
bytes it stores. -/
theorem writeLoop_spec {mem : Bytes} {cr3 va size : Nat} (buffer : Bytes)
    (hfits : va + size ≤ 2 ^ 64) (hwindow : ∀ i < size, InWindow mem cr3 (va + i))
    (hclear : ∀ i < size, i ≤ mappedLength mem cr3 va size →
      ClearOf (Footprint mem cr3 va (mappedLength mem cr3 va size)) mem (pageDirectory cr3) (va + i))
    (fuel : Nat) {total : Nat} (hle : total ≤ mappedLength mem cr3 va size)
    (hfuel : size ≤ total + fuel) :
    writeLoop cr3 va buffer size fuel total
        (storeBytes (translateIn mem cr3) va buffer mem total) =
      some (mappedLength mem cr3 va size,
        storeBytes (translateIn mem cr3) va buffer mem (mappedLength mem cr3 va size)) := by
  have hmapped : mappedLength mem cr3 va size ≤ size := prefixLength_le _ _
  induction fuel generalizing total with
  | zero =>
    have htotal : total = mappedLength mem cr3 va size := by omega
    rw [← htotal]
    rfl
  | succ fuel ih =>
    by_cases hlt : total < size
    · have hmod : (va + total) % 2 ^ 64 = va + total := Nat.mod_eq_of_lt (by omega)
      -- The bytes stored so far are clear of the walk.
      have hsame := (agreeOff_storeBytes mem cr3 va buffer hle).gvaToHva (hclear total hlt hle)
      rcases gvaToHva_spec (hwindow total hlt) with ⟨hnone, hzero⟩ | hpage
      · -- The address is not mapped: the prefix ends here.
        have hend : mappedLength mem cr3 va size = total := by
          by_contra hne
          have hsome := prefixLength_below (show total < mappedLength mem cr3 va size by omega)
          rw [hnone] at hsome
          cases hsome
        rw [writeLoop, if_pos hlt, hmod, hsame, hzero, hend]
        rfl
      · rcases hpage with ⟨pa, len, hpa, hne, hrest, hin⟩
        have hpos := hrest.pos
        have hcopy : pa + min (size - total) len ≤ hostPhysicalSize := by omega
        -- The rest of the page belongs to the prefix.
        have hround : total + min (size - total) len ≤ mappedLength mem cr3 va size := by
          refine le_prefixLength (by omega) fun i hi => ?_
          by_cases hold : i < total
          · exact prefixLength_below (show i < mappedLength mem cr3 va size by omega)
          · have htranslate := hrest.translates (i - total) (by omega)
            have hva : va + total + (i - total) = va + i := by omega
            rw [hva] at htranslate
            show (translate _ _ _).isSome = true
            rw [htranslate]
            rfl
        have hbytes : memcpy (storeBytes (translateIn mem cr3) va buffer mem total) pa buffer total
            (min (size - total) len) =
              storeBytes (translateIn mem cr3) va buffer mem (total + min (size - total) len) := by
          rw [storeBytes_add]
          exact memcpy_eq_storeBytes fun i hi => hrest.translates i (by omega)
        rw [writeLoop, if_pos hlt, hmod, hsame, hpa]
        simp only [if_neg hne, Option.getD_some, if_pos hcopy]
        rw [hbytes]
        exact ih hround (by omega)
    · have htotal : total = mappedLength mem cr3 va size := by omega
      rw [writeLoop, if_neg hlt, ← htotal]

/-- A write stores the bytes of the longest prefix that the tables map,
as if one by one. -/
theorem writeGuestVirtual_spec {mem : Bytes} {cr3 va size : Nat} (buffer : Bytes) (hva : va ≠ 0)
    (hfits : va + size ≤ 2 ^ 64) (hwindow : ∀ i < size, InWindow mem cr3 (va + i))
    (hclear : ∀ i < size, i ≤ mappedLength mem cr3 va size →
      ClearOf (Footprint mem cr3 va (mappedLength mem cr3 va size)) mem (pageDirectory cr3)
        (va + i)) :
    writeGuestVirtual mem cr3 va buffer size =
      some (mappedLength mem cr3 va size,
        storeBytes (translateIn mem cr3) va buffer mem (mappedLength mem cr3 va size)) := by
  by_cases hzero : size = 0
  · subst hzero
    exact if_pos (Or.inr rfl)
  · have hboth : ¬ (va = 0 ∨ size = 0) := by omega
    rw [writeGuestVirtual, if_neg hboth]
    exact writeLoop_spec buffer hfits hwindow hclear size (Nat.zero_le _) (by omega)

/-! ### Both copies -/

/-- Inside the window and without address 0, a read and a write agree
with the translation of the processor byte by byte, from any number of
rounds on that is not less than the size. Both return the length of the
longest prefix that translates. The read fills that many bytes of the
buffer. The write stores that many, one by one in the end, and no other
byte of memory changes, provided that no walk it makes uses an entry
among the bytes it stores. -/
theorem guestCopies_bytewise (mem : Bytes) (cr3 va size fuel : Nat) (buffer : Bytes)
    (hva : va ≠ 0) (hfits : va + size ≤ 2 ^ 64) (hcanonical : ∀ i < size, Canonical (va + i))
    (hwindow : ∀ i < size, InWindow mem cr3 (va + i)) (hfuel : size ≤ fuel) :
    let at' := fun i => processorTranslate (tablesOf mem) (pageDirectory cr3) (va + i)
    let n := prefixLength (fun i => (at' i).isSome) size
    (∃ buffer', readGuestVirtual mem cr3 va buffer size = some (n, buffer') ∧
      readLoop mem cr3 va size fuel 0 buffer = some (n, buffer') ∧
      ∀ i < n, ∃ pa, at' i = some pa ∧ buffer' i = mem pa) ∧
    ((∀ i < size, i ≤ n → ClearOf (fun a => ∃ j < n, at' j = some a) mem (pageDirectory cr3)
        (va + i)) →
      ∃ mem', writeGuestVirtual mem cr3 va buffer size = some (n, mem') ∧
        writeLoop cr3 va buffer size fuel 0 mem = some (n, mem') ∧
        (∀ i < n, ∃ pa, at' i = some pa ∧
          ((∀ j, i < j → j < n → at' j ≠ some pa) → mem' pa = buffer i)) ∧
        ∀ a, (∀ i < n, at' i ≠ some a) → mem' a = mem a) := by
  intro at' n
  have hat : ∀ i < size, at' i = translateIn mem cr3 (va + i) :=
    fun i hi => if_pos (hcanonical i hi)
  have hnle : n ≤ size := prefixLength_le _ _
  -- The mapped length is the longest prefix that translates, page by page.
  have hmapped : mappedLength mem cr3 va size = n := by
    refine prefixLength_eq hnle (fun i hi => ?_) fun hlt => ?_
    · rw [← hat i (by omega)]
      exact prefixLength_below hi
    · rw [← hat n hlt]
      exact prefixLength_end hlt
  have hnone : HoldsBytes mem cr3 va 0 buffer := fun i hi => absurd hi (Nat.not_lt_zero i)
  constructor
  · rcases readGuestVirtual_spec buffer hva hfits hwindow with ⟨buffer', hread, hholds⟩
    rw [hmapped] at hread hholds
    refine ⟨buffer', hread, ?_, fun i hi => ?_⟩
    · -- With size 0 the function returns before its loop.
      rcases Nat.eq_zero_or_pos size with hzero | hpos
      · subst hzero
        have hempty : readLoop mem cr3 va 0 fuel 0 buffer = readLoop mem cr3 va 0 0 0 buffer :=
          readLoop_fuel hfits hwindow fuel 0 (by omega) (by omega)
        rw [hempty, ← hread]
        exact (if_pos (Or.inr rfl)).symm
      · have hboth : ¬ (va = 0 ∨ size = 0) := by omega
        rw [readGuestVirtual, if_neg hboth] at hread
        rw [← hread]
        exact readLoop_fuel hfits hwindow fuel size (by omega) (by omega)
    · rcases hholds i hi with ⟨pa, hpa, hbyte⟩
      exact ⟨pa, (hat i (by omega)).trans hpa, hbyte⟩
  · intro hclear
    -- No page table lies under the bytes that are written, so the walk sees the
    -- same tables throughout.
    have hfoot : ∀ a, Footprint mem cr3 va n a → ∃ j < n, at' j = some a := by
      intro a ha
      rcases ha with ⟨j, hj, htranslate⟩
      exact ⟨j, hj, (hat j (by omega)).trans htranslate⟩
    have hclear' : ∀ i < size, i ≤ mappedLength mem cr3 va size →
        ClearOf (Footprint mem cr3 va (mappedLength mem cr3 va size)) mem (pageDirectory cr3)
          (va + i) := by
      rw [hmapped]
      exact fun i hi hin => (hclear i hi hin).mono hfoot
    have hloop := writeLoop_spec buffer hfits hwindow hclear' fuel (Nat.zero_le _) (by omega)
    have hwrite := writeGuestVirtual_spec buffer hva hfits hwindow hclear'
    rw [hmapped] at hloop hwrite
    refine ⟨_, hwrite, hloop, fun i hi => ?_, fun a ha => ?_⟩
    · have hsome : (at' i).isSome = true := prefixLength_below hi
      rcases Option.isSome_iff_exists.mp hsome with ⟨pa, hpa⟩
      refine ⟨pa, hpa, fun hlast => ?_⟩
      refine storeBytes_of_last hi ((hat i (by omega)).symm.trans hpa) fun j hij hj => ?_
      rw [← hat j (by omega)]
      exact hlast j hij hj
    · refine storeBytes_of_not_mem fun i hi => ?_
      rw [← hat i (by omega)]
      exact ha i hi

/-! ### A memory with one page -/

/-- A PML4 at frame 1 and a PDPT at frame 2. Its entry 0 maps the first
GB to the second one, where every byte is the lowest of its address. -/
def directMemory : Bytes := fun a =>
  if a = 0x1000 then 0x03 else if a = 0x1001 then 0x20
  else if a = 0x2000 then 0x83 else if a = 0x2003 then 0x40
  else if a < 2 ^ 30 then 0 else UInt8.ofNat a

/-- The walk of an address in the first GB. -/
theorem directMemory_walk {va : Nat} (h : va < 2 ^ 30) :
    walkEntries (tablesOf directMemory) 1 va = [(1, 0), (2, 0)] ∧
      translate (tablesOf directMemory) 1 va = some (2 ^ 30 + va) := by
  have hpml4e : tablesOf directMemory 1 0 = ⟨true, true, false, 2, 0⟩ := by decide +kernel
  have hpdpte : tablesOf directMemory 2 0 = ⟨true, true, true, 2 ^ 18, 0⟩ := by decide +kernel
  have hdiv39 : va / 2 ^ 39 = 0 := by omega
  have hdiv30 : va / 2 ^ 30 = 0 := by omega
  have hpml4 : pml4Idx va = 0 := by rw [pml4Idx, hdiv39]; rfl
  have hpdpt : pdptIdx va = 0 := by rw [pdptIdx, hdiv30]; rfl
  constructor
  · simp [walkEntries, hpml4, hpdpt, hpml4e, hpdpte]
  · simp [translate, hpml4, hpdpt, hpml4e, hpdpte, PageEntry.pageFrameNumber1gb]
    omega

/-- All of it lies in the window. -/
theorem directMemory_inWindow {va : Nat} (h : va < 2 ^ 30) : InWindow directMemory 0x1000 va := by
  rcases directMemory_walk h with ⟨hwalk, htranslate⟩
  constructor
  · show ∀ e ∈ walkEntries (tablesOf directMemory) 1 va, entryAddress e < hostPhysicalSize
    rw [hwalk]
    decide +kernel
  · intro pa hpa
    obtain rfl : 2 ^ 30 + va = pa := Option.some.inj (htranslate.symm.trans hpa)
    rw [hostPhysicalSize]
    omega

/-- No walk of the first GB uses an entry behind it. -/
theorem directMemory_clearOf {va : Nat} (h : va < 2 ^ 30) {W : Nat → Prop}
    (hW : ∀ a, W a → 2 ^ 30 ≤ a) : ClearOf W directMemory 1 va := by
  intro e he k hk hw
  rw [(directMemory_walk h).1] at he
  have hfar := hW _ hw
  have hnear : entryAddress e ≤ 0x2000 := by
    rcases List.mem_cons.mp he with rfl | he
    · decide
    · rcases List.mem_cons.mp he with rfl | he
      · decide
      · cases he
  omega

/-- The processor translates the first GB, and it is mapped without a
gap. -/
theorem directMemory_processor {va : Nat} (h : va < 2 ^ 30) :
    processorTranslate (tablesOf directMemory) (pageDirectory 0x1000) va = some (2 ^ 30 + va) := by
  have hcanonical : Canonical va := Or.inl (by omega)
  rw [processorTranslate, if_pos hcanonical]
  exact (directMemory_walk h).2

/-- A buffer with the bytes 1, 2 and so on. -/
def sampleBuffer : Bytes := fun i => UInt8.ofNat (i + 1)

/-- Two bytes at 0x5000 are copied either way. -/
theorem guestCopies_direct :
    (∃ buffer', readGuestVirtual directMemory 0x1000 0x5000 sampleBuffer 2 = some (2, buffer') ∧
      buffer' 1 = directMemory (2 ^ 30 + 0x5001)) ∧
    ∃ mem', writeGuestVirtual directMemory 0x1000 0x5000 sampleBuffer 2 = some (2, mem') ∧
      mem' (2 ^ 30 + 0x5001) = sampleBuffer 1 := by
  have hat : ∀ i < 2, processorTranslate (tablesOf directMemory) (pageDirectory 0x1000)
      (0x5000 + i) = some (2 ^ 30 + (0x5000 + i)) :=
    fun i hi => directMemory_processor (by omega)
  have hn : prefixLength (fun i => (processorTranslate (tablesOf directMemory)
      (pageDirectory 0x1000) (0x5000 + i)).isSome) 2 = 2 :=
    prefixLength_eq (Nat.le_refl 2) (fun i hi => by rw [hat i hi]; rfl) (by omega)
  rcases guestCopies_bytewise directMemory 0x1000 0x5000 2 2 sampleBuffer (by decide) (by decide)
    (fun i hi => Or.inl (by omega)) (fun i hi => directMemory_inWindow (by omega))
    (Nat.le_refl 2) with ⟨⟨buffer', hread, -, hbytes⟩, hwrite⟩
  simp only [hn] at hread hbytes hwrite
  rcases hwrite fun i hi _ => directMemory_clearOf (by omega) fun a ha => by
      rcases ha with ⟨j, hj, hja⟩
      rw [hat j hj] at hja
      have := Option.some.inj hja
      omega with ⟨mem', hwrote, -, hstored, -⟩
  refine ⟨⟨buffer', hread, ?_⟩, mem', hwrote, ?_⟩
  · rcases hbytes 1 (by decide) with ⟨pa, hpa, hbyte⟩
    rw [hat 1 (by decide)] at hpa
    rw [hbyte, ← Option.some.inj hpa]
  · rcases hstored 1 (by decide) with ⟨pa, hpa, hbyte⟩
    rw [hat 1 (by decide)] at hpa
    rw [← hbyte fun j hj hj2 => by omega, ← Option.some.inj hpa]

/-- At address 0 nothing is copied, though the tables map it. -/
theorem guestCopies_null :
    Canonical 0 ∧ InWindow directMemory 0x1000 0 ∧
      processorTranslate (tablesOf directMemory) (pageDirectory 0x1000) 0 = some (2 ^ 30) ∧
      readGuestVirtual directMemory 0x1000 0 sampleBuffer 1 = some (0, sampleBuffer) ∧
      writeGuestVirtual directMemory 0x1000 0 sampleBuffer 1 = some (0, directMemory) :=
  ⟨Or.inl (by decide), directMemory_inWindow (by decide), directMemory_processor (by decide),
    if_pos (Or.inl rfl), if_pos (Or.inl rfl)⟩

end Revhv.GuestMemory
