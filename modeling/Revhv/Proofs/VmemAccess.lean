import Revhv.Km.Hypercall.VmemAccess
import Revhv.Proofs.GuestMemory

/-!
# `Revhv.Proofs.VmemAccess`: the memory hypercalls and the mapped window

* `result_tracedVmemRead`, `result_tracedVmemWrite`: the handlers that
  record their accesses are the handlers.
* `framesBelow_iff`: all that one walk and its copy touch lies in the
  window exactly if the frame in CR3 and the frames in the entries do.
* `vmemAccesses_iff`: so it is with whole hypercalls. Nothing else in the
  request matters, and nothing in the code looks at these frames.
-/

set_option autoImplicit false

namespace Revhv.Hypercall

open Revhv.Lib Revhv.GuestMemory Revhv.Memory

/-! ### The recording changes nothing -/

/-- What follows a dereference takes place if the entry lies in the
window. -/
theorem result_dereference_bind {α : Type} (e : Nat × Fin 512) (f : Unit → Traced HostAccess α) :
    (dereference e >>= f).result =
      if entryAddress e < hostPhysicalSize then (f ()).result else none := by
  rw [Traced.result_bind, dereference, Traced.result_bind]
  by_cases h : entryAddress e < hostPhysicalSize
  · simp [h]
  · simp [h]

/-- The accesses of a dereference and of what follows. -/
theorem each_dereference_bind {α : Type} (e : Nat × Fin 512)
    (f : Unit → Traced HostAccess α) :
    (dereference e >>= f).Each HostAccess.InWindow ↔
      entryAddress e < hostPhysicalSize ∧ (f ()).Each HostAccess.InWindow := by
  rw [Traced.each_bind, dereference, Traced.each_bind, Traced.each_emit, Traced.result_bind]
  have hentry : HostAccess.InWindow (.entry (entryAddress e)) ↔
      entryAddress e < hostPhysicalSize := Iff.rfl
  by_cases h : entryAddress e < hostPhysicalSize
  · simp [hentry, h]
    exact ⟨fun hf => hf (), fun hf _ => hf⟩
  · simp [hentry, h]

/-- The walk is `gva_to_hva`. It stays in the window if all its entries
do. -/
theorem walkTables_spec (mem : Bytes) (cr3 gva : Nat) :
    (walkTables mem cr3 gva).result = gvaToHva mem cr3 gva ∧
      ((walkTables mem cr3 gva).Each HostAccess.InWindow ↔
        WalkMapped (tablesOf mem) (pageDirectory cr3) gva) := by
  generalize htables : tablesOf mem = tables
  simp only [walkTables, gvaToHva, WalkMapped, walkEntries, htables]
  generalize hpml4e : tables (pageDirectory cr3) (pml4Idx gva) = pml4e
  generalize hpdpte : tables pml4e.pageFrameNumber (pdptIdx gva) = pdpte
  generalize hpde : tables pdpte.pageFrameNumber (pdIdx gva) = pde
  -- The walk stops at the first entry that is absent or large.
  cases hpresent : pml4e.present with
  | false => simp [result_dereference_bind, each_dereference_bind]
  | true =>
  cases hpresent' : pdpte.present with
  | false => simp [result_dereference_bind, each_dereference_bind, ite_and]
  | true =>
  cases hlarge : pdpte.largePage with
  | true => simp [result_dereference_bind, each_dereference_bind, ite_and]
  | false =>
  cases hpresent'' : pde.present with
  | false => simp [result_dereference_bind, each_dereference_bind, ite_and]
  | true =>
  cases hlarge' : pde.largePage with
  | true => simp [result_dereference_bind, each_dereference_bind, ite_and]
  | false => simp [result_dereference_bind, each_dereference_bind, ite_and]

/-- The accesses of the second half of a round. -/
theorem each_copyGuest (P : HostAccess → Prop) (left : Nat) (p : Nat × Option Nat) :
    (copyGuest left p).Each P ↔ (p.1 ≠ 0 → P (.copy p.1 (min left (p.2.getD 0)))) := by
  rw [copyGuest]
  by_cases hzero : p.1 = 0
  · simp [hzero]
  · rw [if_neg hzero, Traced.each_bind, Traced.each_emit]
    have hlast : ∀ a, (Traced.emit (HostAccess.copy p.1 (min left (p.2.getD 0)))).result = some a →
        (if p.1 + min left (p.2.getD 0) ≤ hostPhysicalSize then
          pure (some (p.1, min left (p.2.getD 0))) else pure none :
          Traced HostAccess (Option (Nat × Nat))).Each P := by
      intro _ _
      split
      · exact (Traced.each_pure _).mpr trivial
      · exact (Traced.each_pure _).mpr trivial
    exact ⟨fun h _ => h.1, fun h => ⟨h hzero, hlast⟩⟩

/-- What a round results in. -/
theorem result_copyRound (mem : Bytes) (cr3 gva left : Nat) :
    (copyRound mem cr3 gva left).result = (gvaToHva mem cr3 gva).map fun p =>
      if p.1 = 0 then none
      else if p.1 + min left (p.2.getD 0) ≤ hostPhysicalSize then
        some (p.1, min left (p.2.getD 0))
      else none := by
  rw [copyRound, Traced.result_bind, Traced.result_emit, Option.bind_some, Traced.result_bind,
    (walkTables_spec mem cr3 gva).1]
  -- The walk has answered, and the copy is made when the page lies in the
  -- window.
  cases gvaToHva mem cr3 gva with
  | none => rfl
  | some p =>
      show (copyGuest left p).result = _
      rw [copyGuest]
      by_cases hzero : p.1 = 0
      · simp [hzero]
      · by_cases hin : p.1 + min left (p.2.getD 0) ≤ hostPhysicalSize
        · simp [hzero, hin, Traced.result_bind]
        · simp [hzero, hin, Traced.result_bind]

/-- Without its accesses the loop is `readLoop`. By induction on the
rounds. -/
theorem result_tracedReadLoop (mem : Bytes) (cr3 va size fuel total : Nat) (buffer : Bytes) :
    (tracedReadLoop mem cr3 va size fuel total buffer).result =
      readLoop mem cr3 va size fuel total buffer := by
  -- By induction over the fuel. A round is the traced copy of one page.
  induction fuel generalizing total buffer with
  | zero => rfl
  | succ fuel ih =>
      rw [tracedReadLoop, readLoop]
      split
      · rw [Traced.result_bind, result_copyRound]
        cases gvaToHva mem cr3 ((va + total) % 2 ^ 64) with
        | none => rfl
        | some p =>
            by_cases hzero : p.1 = 0
            · simp [hzero]
            · by_cases hin : p.1 + min (size - total) (p.2.getD 0) ≤ hostPhysicalSize
              · simp [hzero, hin, ih]
              · simp [hzero, hin]
      · rfl

/-- Without its accesses the loop is `writeLoop`. By induction on the
rounds. -/
theorem result_tracedWriteLoop (cr3 va : Nat) (buffer : Bytes) (size fuel total : Nat)
    (mem : Bytes) :
    (tracedWriteLoop cr3 va buffer size fuel total mem).result =
      writeLoop cr3 va buffer size fuel total mem := by
  induction fuel generalizing total mem with
  | zero => rfl
  | succ fuel ih =>
      rw [tracedWriteLoop, writeLoop]
      split
      · rw [Traced.result_bind, result_copyRound]
        cases gvaToHva mem cr3 ((va + total) % 2 ^ 64) with
        | none => rfl
        | some p =>
            by_cases hzero : p.1 = 0
            · simp [hzero]
            · by_cases hin : p.1 + min (size - total) (p.2.getD 0) ≤ hostPhysicalSize
              · simp [hzero, hin, ih]
              · simp [hzero, hin]
      · rfl

/-- Without its accesses this is `read_guest_virtual`. -/
theorem result_tracedRead (mem : Bytes) (cr3 va : Nat) (buffer : Bytes) (size : Nat) :
    (tracedRead mem cr3 va buffer size).result = readGuestVirtual mem cr3 va buffer size := by
  rw [tracedRead, readGuestVirtual]
  split
  · rfl
  · exact result_tracedReadLoop mem cr3 va size size 0 buffer

/-- Without its accesses this is `write_guest_virtual`. -/
theorem result_tracedWrite (mem : Bytes) (cr3 va : Nat) (buffer : Bytes) (size : Nat) :
    (tracedWrite mem cr3 va buffer size).result = writeGuestVirtual mem cr3 va buffer size := by
  rw [tracedWrite, writeGuestVirtual]
  split
  · rfl
  · exact result_tracedWriteLoop cr3 va buffer size size 0 mem

/-- `handle_vmem_read` with its accesses comes to what it comes to
without them. -/
theorem result_tracedVmemRead (systemCr3 guestCr3 : Nat) (mem : Bytes) (rdx : Nat) :
    (tracedVmemRead systemCr3 guestCr3 mem rdx).result =
      handleVmemRead systemCr3 guestCr3 mem rdx := by
  simp only [tracedVmemRead, Traced.result_bind, apply_ite Traced.result, Traced.result_pure,
    result_tracedRead, result_tracedWrite]
  rfl

/-- So does `handle_vmem_write`. -/
theorem result_tracedVmemWrite (systemCr3 guestCr3 : Nat) (mem : Bytes) (rdx : Nat) :
    (tracedVmemWrite systemCr3 guestCr3 mem rdx).result =
      handleVmemWrite systemCr3 guestCr3 mem rdx := by
  simp only [tracedVmemWrite, Traced.result_bind, apply_ite Traced.result, Traced.result_pure,
    result_tracedRead, result_tracedWrite]
  rfl

/-! ### Frames behind the window -/

/-- CR3 and every present entry that the walk of the address meets name
a frame among the first `2 ^ 27`, those of the first 512 GB. -/
def FramesBelow (mem : Bytes) (cr3 gva : Nat) : Prop :=
  pageDirectory cr3 < 2 ^ 27 ∧
    ∀ e ∈ walkEntries (tablesOf mem) (pageDirectory cr3) gva,
      (tablesOf mem e.1 e.2).present = true → (tablesOf mem e.1 e.2).pageFrameNumber < 2 ^ 27

/-- A round that begins with such frames. -/
def HostAccess.FramesBelow : HostAccess → Prop
  | .round mem cr3 gva => Hypercall.FramesBelow mem cr3 gva
  | _ => True

/-- An entry lies in the window with its table. -/
theorem entryAddress_lt (frame : Nat) (i : Fin 512) :
    entryAddress (frame, i) < hostPhysicalSize ↔ frame < 2 ^ 27 := by
  have hi := i.isLt
  show frame * 2 ^ 12 + i * 8 < 2 ^ 39 ↔ frame < 2 ^ 27
  omega

/-- A byte of a page of any size lies in the window if its frame of 4 KB
does. -/
theorem leaf_lt {k : Nat} (hk : k ≤ 18) (frame gva : Nat) :
    frame / 2 ^ k * 2 ^ (12 + k) + gva % 2 ^ (12 + k) < hostPhysicalSize ↔ frame < 2 ^ 27 := by
  have hoff : gva % 2 ^ (12 + k) < 2 ^ (12 + k) := Nat.mod_lt _ (Nat.two_pow_pos _)
  have hsize : hostPhysicalSize = 2 ^ (27 - k) * 2 ^ (12 + k) := by
    rw [← Nat.pow_add, show 27 - k + (12 + k) = 39 by omega]
    rfl
  have hframes : 2 ^ 27 = 2 ^ (27 - k) * 2 ^ k := by
    rw [← Nat.pow_add, show 27 - k + k = 27 by omega]
  -- The page frame is aligned to the size of the page, so the offset stays
  -- inside.
  rw [hsize, hframes, ← Nat.div_lt_iff_lt_mul (Nat.two_pow_pos k)]
  constructor
  · intro h
    by_contra hge
    have := Nat.mul_le_mul_right (2 ^ (12 + k)) (Nat.le_of_not_lt hge)
    omega
  · intro h
    calc
      frame / 2 ^ k * 2 ^ (12 + k) + gva % 2 ^ (12 + k)
          < frame / 2 ^ k * 2 ^ (12 + k) + 2 ^ (12 + k) := Nat.add_lt_add_left hoff _
      _ = (frame / 2 ^ k + 1) * 2 ^ (12 + k) := (Nat.succ_mul _ _).symm
      _ ≤ 2 ^ (27 - k) * 2 ^ (12 + k) := Nat.mul_le_mul_right _ h

/-- The walk and its leaf lie in the window exactly with these frames. -/
theorem framesBelow_iff (mem : Bytes) (cr3 gva : Nat) :
    FramesBelow mem cr3 gva ↔ WalkMapped (tablesOf mem) (pageDirectory cr3) gva ∧
      ∀ pa, translateIn mem cr3 gva = some pa → pa < hostPhysicalSize := by
  have hleaf : ∀ k ≤ 18, ∀ frame,
      frame / 2 ^ k * 2 ^ (12 + k) + gva % 2 ^ (12 + k) < hostPhysicalSize ↔ frame < 2 ^ 27 :=
    fun k hk frame => leaf_lt hk frame gva
  generalize htables : tablesOf mem = tables
  simp only [FramesBelow, WalkMapped, walkEntries, translateIn, GuestMemory.translate, htables]
  generalize hpml4e : tables (pageDirectory cr3) (pml4Idx gva) = pml4e
  generalize hpdpte : tables pml4e.pageFrameNumber (pdptIdx gva) = pdpte
  generalize hpde : tables pdpte.pageFrameNumber (pdIdx gva) = pde
  generalize hpte : tables pde.pageFrameNumber (ptIdx gva) = pte
  -- As in the walk, level by level, with the leaf of the size that is found.
  cases hpresent : pml4e.present with
  | false => simp [entryAddress_lt, hpml4e, hpresent]
  | true =>
  cases hpresent' : pdpte.present with
  | false => simp [entryAddress_lt, hpml4e, hpdpte, hpresent, hpresent']
  | true =>
  cases hlarge : pdpte.largePage with
  | true =>
    have h := hleaf 18 (by decide) pdpte.pageFrameNumber
    simp [entryAddress_lt, hpml4e, hpdpte, hpresent, hpresent',
      PageEntry.pageFrameNumber1gb] at h ⊢
    rw [h, and_assoc]
  | false =>
  cases hpresent'' : pde.present with
  | false =>
    simp [entryAddress_lt, hpml4e, hpdpte, hpde, hpresent, hpresent', hpresent'']
  | true =>
  cases hlarge' : pde.largePage with
  | true =>
    have h := hleaf 9 (by decide) pde.pageFrameNumber
    simp [entryAddress_lt, hpml4e, hpdpte, hpde, hpresent, hpresent', hpresent'',
      PageEntry.pageFrameNumber2mb] at h ⊢
    rw [h, and_assoc, and_assoc]
  | false =>
    have h := hleaf 0 (by decide) pte.pageFrameNumber
    simp [entryAddress_lt, hpml4e, hpdpte, hpde, hpte, hpresent, hpresent', hpresent''] at h ⊢
    rw [h, and_assoc, and_assoc, and_assoc]

/-! ### Rounds -/

/-- A walk begins no round. -/
theorem walkTables_framesBelow (mem : Bytes) (cr3 gva : Nat) :
    (walkTables mem cr3 gva).Each HostAccess.FramesBelow := by
  -- Reading an entry of a table is no copy of guest data.
  have hentry : ∀ e, (dereference e).Each HostAccess.FramesBelow := by
    intro e
    rw [dereference, Traced.each_bind]
    refine ⟨(Traced.each_emit _).mpr trivial, fun _ _ => ?_⟩
    split
    · exact (Traced.each_pure ()).mpr trivial
    · exact Traced.each_stop.mpr trivial
  have hresult : ∀ r, (pure r : Traced HostAccess (Nat × Option Nat)).Each
      HostAccess.FramesBelow := fun r => (Traced.each_pure r).mpr trivial
  rw [walkTables, Traced.each_bind]
  refine ⟨hentry _, fun _ _ => ?_⟩
  dsimp only
  split
  · exact hresult _
  rw [Traced.each_bind]
  refine ⟨hentry _, fun _ _ => ?_⟩
  split
  · exact hresult _
  split
  · exact hresult _
  rw [Traced.each_bind]
  refine ⟨hentry _, fun _ _ => ?_⟩
  split
  · exact hresult _
  split
  · exact hresult _
  rw [Traced.each_bind]
  exact ⟨hentry _, fun _ _ => hresult _⟩

/-- What the copy of a round touches lies in the window exactly if the
leaf of the walk does. -/
theorem copy_inWindow_iff {mem : Bytes} {cr3 gva left : Nat} {p : Nat × Option Nat}
    (hleft : 0 < left) (hp : gvaToGpa (tablesOf mem) (pageDirectory cr3) gva = p) :
    (p.1 ≠ 0 → HostAccess.InWindow (.copy p.1 (min left (p.2.getD 0)))) ↔
      ∀ pa, translateIn mem cr3 gva = some pa → pa < hostPhysicalSize := by
  -- Address 0 stands for a failed translation and is not copied from.
  rcases gvaToGpa_spec (tablesOf mem) (pageDirectory cr3) gva with ⟨hnone, hzero⟩ | hsome
  · obtain rfl : (0, none) = p := hzero.symm.trans hp
    have htranslate : translateIn mem cr3 gva = none := hnone
    rw [htranslate]
    constructor
    · intro _ pa hpa
      cases hpa
    · intro _ hne
      exact absurd rfl hne
  · rcases hsome with ⟨pa, len, hpa, hrest⟩
    obtain rfl : (pa, some len) = p := hpa.symm.trans hp
    have hpos : 0 < min left len := by
      have := hrest.pos
      omega
    have htranslate : translateIn mem cr3 gva = some pa := hrest.translates 0 hrest.pos
    constructor
    · intro h pa' hpa'
      obtain rfl := Option.some.inj (htranslate.symm.trans hpa')
      by_cases hzero : pa = 0
      · rw [hzero]
        decide
      · exact h hzero 0 hpos
    · intro h _ i hi
      have hend := hrest.window (h pa htranslate)
      have hi' : i < min left len := hi
      show pa + i < hostPhysicalSize
      omega

/-- A round with something left to copy is safe exactly if the frames at
its begin are. -/
theorem copyRound_safeIff (mem : Bytes) (cr3 gva : Nat) {left : Nat} (hleft : 0 < left) :
    (copyRound mem cr3 gva left).SafeIff HostAccess.InWindow HostAccess.FramesBelow := by
  -- The walk emits no copies, so only the first step speaks of frames.
  have hframes : (copyRound mem cr3 gva left).Each HostAccess.FramesBelow ↔
      FramesBelow mem cr3 gva := by
    rw [copyRound, Traced.each_bind, Traced.each_emit]
    refine and_iff_left fun _ _ => ?_
    rw [Traced.each_bind]
    exact ⟨walkTables_framesBelow mem cr3 gva, fun p _ => (each_copyGuest _ left p).mpr
      fun _ => trivial⟩
  -- The round has an answer unless the walk touches a table outside the window.
  have hresult : (copyRound mem cr3 gva left).result.isSome ↔
      WalkMapped (tablesOf mem) (pageDirectory cr3) gva := by
    rw [result_copyRound, Option.isSome_map, gvaToHva]
    split
    · exact iff_of_true rfl ‹_›
    · exact iff_of_false Bool.false_ne_true ‹_›
  have hwindow : WalkMapped (tablesOf mem) (pageDirectory cr3) gva →
      ((copyRound mem cr3 gva left).Each HostAccess.InWindow ↔
        ∀ pa, translateIn mem cr3 gva = some pa → pa < hostPhysicalSize) := by
    intro hmapped
    have hwalk := walkTables_spec mem cr3 gva
    rw [gvaToHva, if_pos hmapped] at hwalk
    rw [← copy_inWindow_iff hleft rfl, ← each_copyGuest, copyRound, Traced.each_bind,
      Traced.each_emit]
    constructor
    · rintro ⟨-, h⟩
      exact ((Traced.each_bind _ _).mp (h () rfl)).2 _ hwalk.1
    · intro h
      refine ⟨trivial, fun _ _ => (Traced.each_bind _ _).mpr ⟨hwalk.2.mpr hmapped, fun p hp => ?_⟩⟩
      obtain rfl := Option.some.inj (hwalk.1.symm.trans hp)
      exact h
  rw [Traced.SafeIff, hframes, hresult, framesBelow_iff]
  constructor
  · rintro ⟨h, hmapped⟩
    exact ⟨hmapped, (hwindow hmapped).mp h⟩
  · rintro ⟨hmapped, h⟩
    exact ⟨(hwindow hmapped).mpr h, hmapped⟩

/-! ### Loops -/

/-- The loop of a read is safe exactly if all frames it meets are below
the limit. By induction on the rounds. -/
theorem tracedReadLoop_safeIff (mem : Bytes) (cr3 va size fuel total : Nat) (buffer : Bytes) :
    (tracedReadLoop mem cr3 va size fuel total buffer).SafeIff
      HostAccess.InWindow HostAccess.FramesBelow := by
  induction fuel generalizing total buffer with
  | zero => exact Traced.safeIff_pure _
  | succ fuel ih =>
      rw [tracedReadLoop]
      split
      · rename_i hlt
        refine Traced.safeIff_bind (copyRound_safeIff _ _ _ (by omega)) fun r _ => ?_
        cases r with
        | none => exact Traced.safeIff_pure _
        | some p => exact ih _ _
      · exact Traced.safeIff_pure _

/-- The same for the loop of a write, whose rounds see what the earlier
ones wrote. -/
theorem tracedWriteLoop_safeIff (cr3 va : Nat) (buffer : Bytes) (size fuel total : Nat)
    (mem : Bytes) :
    (tracedWriteLoop cr3 va buffer size fuel total mem).SafeIff
      HostAccess.InWindow HostAccess.FramesBelow := by
  induction fuel generalizing total mem with
  | zero => exact Traced.safeIff_pure _
  | succ fuel ih =>
      rw [tracedWriteLoop]
      split
      · rename_i hlt
        refine Traced.safeIff_bind (copyRound_safeIff _ _ _ (by omega)) fun r _ => ?_
        cases r with
        | none => exact Traced.safeIff_pure _
        | some p => exact ih _ _
      · exact Traced.safeIff_pure _

/-- The same for the whole read. -/
theorem tracedRead_safeIff (mem : Bytes) (cr3 va : Nat) (buffer : Bytes) (size : Nat) :
    (tracedRead mem cr3 va buffer size).SafeIff
      HostAccess.InWindow HostAccess.FramesBelow := by
  rw [tracedRead]
  split
  · exact Traced.safeIff_pure _
  · exact tracedReadLoop_safeIff mem cr3 va size size 0 buffer

/-- The same for the whole write. -/
theorem tracedWrite_safeIff (mem : Bytes) (cr3 va : Nat) (buffer : Bytes) (size : Nat) :
    (tracedWrite mem cr3 va buffer size).SafeIff
      HostAccess.InWindow HostAccess.FramesBelow := by
  rw [tracedWrite]
  split
  · exact Traced.safeIff_pure _
  · exact tracedWriteLoop_safeIff cr3 va buffer size size 0 mem

/-! ### The handlers -/

/-- The hypercall that reads: its request, the range, and the copy to
the caller. -/
theorem tracedVmemRead_safeIff (systemCr3 guestCr3 : Nat) (mem : Bytes) (rdx : Nat) :
    (tracedVmemRead systemCr3 guestCr3 mem rdx).SafeIff
      HostAccess.InWindow HostAccess.FramesBelow := by
  -- The request, the data and the caller's buffer, one copy after the other.
  refine Traced.safeIff_bind (tracedRead_safeIff _ _ _ _ _) fun p _ => ?_
  dsimp only
  split
  · exact Traced.safeIff_pure _
  split
  · exact Traced.safeIff_pure _
  refine Traced.safeIff_bind (tracedRead_safeIff _ _ _ _ _) fun q _ => ?_
  split
  · exact Traced.safeIff_pure _
  refine Traced.safeIff_bind (tracedWrite_safeIff _ _ _ _ _) fun w _ => ?_
  split
  · exact Traced.safeIff_pure _
  · exact Traced.safeIff_pure _

/-- The hypercall that writes: its request, the copy from the caller,
and the range. -/
theorem tracedVmemWrite_safeIff (systemCr3 guestCr3 : Nat) (mem : Bytes) (rdx : Nat) :
    (tracedVmemWrite systemCr3 guestCr3 mem rdx).SafeIff
      HostAccess.InWindow HostAccess.FramesBelow := by
  -- As for the read, with the two last copies the other way round.
  refine Traced.safeIff_bind (tracedRead_safeIff _ _ _ _ _) fun p _ => ?_
  dsimp only
  split
  · exact Traced.safeIff_pure _
  split
  · exact Traced.safeIff_pure _
  refine Traced.safeIff_bind (tracedRead_safeIff _ _ _ _ _) fun q _ => ?_
  split
  · exact Traced.safeIff_pure _
  refine Traced.safeIff_bind (tracedWrite_safeIff _ _ _ _ _) fun w _ => ?_
  split
  · exact Traced.safeIff_pure _
  · exact Traced.safeIff_pure _

/-- For every request and every content of guest memory, all table
entries and bytes that `handle_vmem_read` and `handle_vmem_write` touch
lie in the first 512 GB, and no exception is fatal, if and only if each
round of their loops begins with CR3 and present table entries that name
frames below `2 ^ 27`. -/
theorem vmemAccesses_iff (systemCr3 guestCr3 : Nat) (mem : Bytes) (rdx : Nat) :
    ((tracedVmemRead systemCr3 guestCr3 mem rdx).Each HostAccess.InWindow ∧
        (handleVmemRead systemCr3 guestCr3 mem rdx).isSome ↔
      (tracedVmemRead systemCr3 guestCr3 mem rdx).Each HostAccess.FramesBelow) ∧
    ((tracedVmemWrite systemCr3 guestCr3 mem rdx).Each HostAccess.InWindow ∧
        (handleVmemWrite systemCr3 guestCr3 mem rdx).isSome ↔
      (tracedVmemWrite systemCr3 guestCr3 mem rdx).Each HostAccess.FramesBelow) := by
  have hread := tracedVmemRead_safeIff systemCr3 guestCr3 mem rdx
  have hwrite := tracedVmemWrite_safeIff systemCr3 guestCr3 mem rdx
  rw [Traced.SafeIff, result_tracedVmemRead] at hread
  rw [Traced.SafeIff, result_tracedVmemWrite] at hwrite
  exact ⟨hread, hwrite⟩

/-- A request for one byte, with the first CR3 behind the window. -/
def farRequest : VmemRequest := ⟨0x9000, 0x1000, 1, 0x8000000000⟩

/-- The guest has stored it at address 0x5000. -/
def farMemory : Bytes := memcpy directMemory (2 ^ 30 + 0x5000) farRequest.bytes 0 32

/-- Either hypercall dereferences an entry of a table at 512 GB, which
is fatal. -/
theorem farRequest_fatal :
    (¬ (tracedVmemRead 0 0x1000 farMemory 0x5000).Each HostAccess.InWindow ∧
      handleVmemRead 0 0x1000 farMemory 0x5000 = none) ∧
    ¬ (tracedVmemWrite 0 0x1000 farMemory 0x5000).Each HostAccess.InWindow ∧
      handleVmemWrite 0 0x1000 farMemory 0x5000 = none := by
  refine ⟨⟨by decide +kernel, ?_⟩, by decide +kernel, ?_⟩
  · exact Option.isNone_iff_eq_none.mp (by decide +kernel)
  · exact Option.isNone_iff_eq_none.mp (by decide +kernel)

end Revhv.Hypercall
