import Revhv.Km.ControlRegister

/-!
# `Revhv.Proofs.ControlRegister`: the guest reads what it wrote

Writes that do not exit change the guest field and leave the shadow
stale outside the mask. A handler rewrites both and clamps the guest
field to the fixed bits. Either way the register put together from the
two is the value written.

* `CrInv`: the invariant. Of the shadow it only asks that it has no
  reserved bit of CR0.
* `crInv_next`: every write keeps it, whether it exits or not.
* `writes_effective`: after every run of writes the effective registers
  are the values accepted last, the guest fields respect the fixed
  bits, and a write answered with #GP changes no field.
-/

set_option autoImplicit false

namespace Revhv.ControlRegister

open Revhv.Lib Revhv.Lib.BitMask

/-! ### Masks -/

/-- The bits that are not fixed are the ones outside this mask. -/
theorem covers_fixed (fixed0 fixed1 : BitVec 64) :
    Covers (fixed0 ||| ~~~fixed1) fixed0 fixed1 := by
  intro i hi hmask
  rw [BitVec.getLsbD_or, BitVec.getLsbD_not, decide_eq_true hi, Bool.true_and,
    Bool.or_eq_false_iff, Bool.not_eq_false'] at hmask
  exact hmask

/-- The mask covers every bit of CR0 that VMX operation fixes. -/
theorem covers_cr0Mask (p : CrProcessor) : Covers p.cr0Mask p.cr0Fixed0 p.cr0Fixed1 :=
  covers_fixed p.cr0Fixed0 p.cr0Fixed1

/-- The mask of CR4 has VMXE besides. -/
theorem covers_cr4Mask (p : CrProcessor) : Covers p.cr4Mask p.cr4Fixed0 p.cr4Fixed1 := by
  intro i hi hmask
  unfold CrProcessor.cr4Mask at hmask
  rw [BitVec.getLsbD_or, Bool.or_eq_false_iff] at hmask
  exact covers_fixed p.cr4Fixed0 p.cr4Fixed1 i hi hmask.1

/-- CR0.PE belongs to the host. -/
theorem protectionEnable_cr0Mask (p : CrProcessor) : p.cr0Mask.getLsbD 0 = true := by
  unfold CrProcessor.cr0Mask
  rw [BitVec.getLsbD_or, p.protectionEnable, Bool.true_or]

/-- LMSW loads the four lowest bits. -/
theorem getLsbD_lmswMask (i : Nat) : lmswMask.getLsbD i = decide (i < 4) := by
  show (BitVec.ofNat 64 (2 ^ 4 - 1)).getLsbD i = _
  rw [BitVec.getLsbD_ofNat, Nat.testBit_two_pow_sub_one]
  by_cases h : i < 4
  · have hlt : i < 64 := by omega
    simp [h, hlt]
  · simp [h]

/-- `PE` is the lowest bit. -/
theorem getLsbD_protectionEnable (i : Nat) :
    cr0ProtectionEnableFlag.getLsbD i = decide (i = 0) := by
  show (1#64).getLsbD i = _
  rw [BitVec.getLsbD_one]
  simp

/-- LMSW has no bit above the low four. -/
theorem getLsbD_lmswBits {i : Nat} (h : ¬ i < 4) (source : BitVec 16) :
    (lmswBits source).getLsbD i = false := by
  unfold lmswBits
  rw [BitVec.getLsbD_and, getLsbD_lmswMask, decide_eq_false h, Bool.and_false]

/-! ### Normal values of CR0 -/

/-- Reserved bits read as 0, and `ET` reads as 1. -/
theorem getLsbD_normalizeCr0 (value : BitVec 64) {i : Nat} (hi : i < 64) :
    (normalizeCr0 value).getLsbD i =
      ((value.getLsbD i && !cr0Reserved.getLsbD i) || cr0ExtensionType.getLsbD i) := by
  unfold normalizeCr0
  rw [BitVec.getLsbD_or, BitVec.getLsbD_and, BitVec.getLsbD_not, decide_eq_true hi, Bool.true_and]

/-- Normalising twice is normalising once. -/
theorem normalizeCr0_normalizeCr0 (value : BitVec 64) :
    normalizeCr0 (normalizeCr0 value) = normalizeCr0 value := by
  apply BitVec.eq_of_getLsbD_eq
  intro i hi
  rw [getLsbD_normalizeCr0 _ hi, getLsbD_normalizeCr0 _ hi]
  cases value.getLsbD i <;> cases cr0Reserved.getLsbD i <;> cases h : cr0ExtensionType.getLsbD i <;>
    simp

/-- A normal value has no bit of its own below bit 4. -/
theorem getLsbD_normalizeCr0_low (value : BitVec 64) {i : Nat} (hi : i < 4) :
    (normalizeCr0 value).getLsbD i = value.getLsbD i := by
  have hlow : ∀ i < 4, cr0Reserved.getLsbD i = false ∧ cr0ExtensionType.getLsbD i = false := by
    decide
  obtain ⟨hreserved, het⟩ := hlow i hi
  rw [getLsbD_normalizeCr0 value (by omega), hreserved, het]
  simp

/-! ### The invariant -/

/-- The invariant of a guest that writes its control registers. -/
structure CrInv (p : CrProcessor) (s : CrState) : Prop where
  cr0 : s.fields.cr0.effective p.cr0Mask = s.acceptedCr0
  cr4 : s.fields.cr4.effective p.cr4Mask = s.acceptedCr4
  cr0Guest : Between p.cr0Fixed0 p.cr0Fixed1 s.fields.cr0.guest
  cr4Guest : Between p.cr4Fixed0 p.cr4Fixed1 s.fields.cr4.guest
  /-- The shadow of CR0 is one of a CR0 without reserved bits. -/
  shadowNormal : normalizeCr0 s.fields.cr0.readShadow = s.fields.cr0.readShadow

/-- The invariant holds at launch: the fields come from the registers as
they are then. -/
theorem crInv_initial {p : CrProcessor} (launch : CrLaunch p) :
    CrInv p (CrState.initial launch) where
  cr0 := by
    apply select_of_agree
    · exact fun _ _ => rfl
    · exact fun _ _ _ => rfl
  cr4 := by
    apply select_of_agree
    · exact fun _ _ => rfl
    · intro i hi hmask
      -- VMXE is in the mask, so the register and its shadow agree off the mask.
      unfold CrProcessor.cr4Mask at hmask
      rw [BitVec.getLsbD_or, Bool.or_eq_false_iff] at hmask
      show launch.cr4.getLsbD i = (launch.cr4 &&& ~~~cr4VmxEnableFlag).getLsbD i
      rw [BitVec.getLsbD_and, BitVec.getLsbD_not, hmask.2, decide_eq_true hi]
      simp
  cr0Guest := launch.cr0Between
  cr4Guest := launch.cr4Between
  shadowNormal := launch.cr0Normal

/-! ### MOV to a control register -/

section
variable {mask fixed0 fixed1 value : BitVec 64} {field : CrField}

/-- What a handler leaves behind. -/
theorem effective_written (h : Covers mask fixed0 fixed1) (value : BitVec 64) :
    CrField.effective mask ⟨value, (value ||| fixed0) &&& fixed1⟩ = value :=
  select_clamp h value

/-- What a write leaves behind that does not exit: its bits in the mask
are those of the shadow. -/
theorem effective_notExiting (hin : ∀ i, mask.getLsbD i = true →
    field.readShadow.getLsbD i = value.getLsbD i) :
    CrField.effective mask { field with guest := select mask field.guest value } = value := by
  unfold CrField.effective
  rw [select_select]
  exact select_of_agree hin fun _ _ _ => rfl

/-- A MOV that does not exit has the bits of the shadow in the mask. -/
theorem agrees_of_not_movExits (h : movExits mask field value = false) :
    ∀ i, mask.getLsbD i = true → value.getLsbD i = field.readShadow.getLsbD i := by
  unfold movExits at h
  rw [decide_eq_false_iff_not, not_not] at h
  exact agree_iff.mp h

end

section
variable {p : CrProcessor} {s : CrState}

/-- The handler of MOV to CR0 refuses, or leaves the normal value
behind. -/
theorem handleMovToCr0_cases (p : CrProcessor) (fields : CrFields) (value : BitVec 64) :
    handleMovToCr0 p fields value = (fields, .generalProtection) ∨
      handleMovToCr0 p fields value = ({ fields with cr0 := ⟨normalizeCr0 value,
        (normalizeCr0 value ||| p.cr0Fixed0) &&& p.cr0Fixed1⟩ }, .completed) := by
  unfold handleMovToCr0
  simp only
  -- The five checks of the source, each of which injects #GP.
  split
  · exact Or.inl rfl
  · split
    · exact Or.inl rfl
    · split
      · exact Or.inl rfl
      · split
        · exact Or.inl rfl
        · split
          · exact Or.inl rfl
          · exact Or.inr rfl

/-- The handler of MOV to CR4 refuses, or leaves the value behind. -/
theorem handleMovToCr4_cases (p : CrProcessor) (fields : CrFields) (value guestCr3 : BitVec 64) :
    handleMovToCr4 p fields value guestCr3 = (fields, .generalProtection) ∨
      handleMovToCr4 p fields value guestCr3 = ({ fields with cr4 := ⟨value,
        (value ||| p.cr4Fixed0) &&& p.cr4Fixed1⟩ }, .completed) := by
  unfold handleMovToCr4
  simp only
  -- The checks of CR4, the one on CR3 for PCIDs among them.
  split
  · exact Or.inl rfl
  · split
    · exact Or.inl rfl
    · split
      · exact Or.inl rfl
      · split
        · exact Or.inl rfl
        · split
          · exact Or.inl rfl
          · exact Or.inr rfl

/-- The invariant after a write to CR0. -/
theorem CrInv.withCr0 (h : CrInv p s) {cr0 : CrField} {accepted : BitVec 64}
    (heffective : cr0.effective p.cr0Mask = accepted)
    (hguest : Between p.cr0Fixed0 p.cr0Fixed1 cr0.guest)
    (hshadow : normalizeCr0 cr0.readShadow = cr0.readShadow) (answer : CrAnswer) :
    CrInv p ⟨{ s.fields with cr0 }, answer, accepted, s.acceptedCr4⟩ :=
  ⟨heffective, h.cr4, hguest, h.cr4Guest, hshadow⟩

/-- The invariant after a write to CR4. -/
theorem CrInv.withCr4 (h : CrInv p s) {cr4 : CrField} {accepted : BitVec 64}
    (heffective : cr4.effective p.cr4Mask = accepted)
    (hguest : Between p.cr4Fixed0 p.cr4Fixed1 cr4.guest) (answer : CrAnswer) :
    CrInv p ⟨{ s.fields with cr4 }, answer, s.acceptedCr0, accepted⟩ :=
  ⟨h.cr0, heffective, h.cr0Guest, hguest, h.shadowNormal⟩

/-- A write that is refused. -/
theorem CrInv.refused (h : CrInv p s) : CrInv p { s with answer := .generalProtection } :=
  ⟨h.cr0, h.cr4, h.cr0Guest, h.cr4Guest, h.shadowNormal⟩

end

/-! ### LMSW -/

/-- What LMSW makes of CR0, bit by bit. `PE` is not cleared. -/
theorem getLsbD_lmswResult (cr0 : BitVec 64) (source : BitVec 16) {i : Nat} (hi : i < 64) :
    (lmswResult cr0 source).getLsbD i =
      if i < 4 then (lmswBits source).getLsbD i || (decide (i = 0) && cr0.getLsbD i)
      else cr0.getLsbD i := by
  unfold lmswResult
  rw [BitVec.getLsbD_or, BitVec.getLsbD_or, BitVec.getLsbD_and, BitVec.getLsbD_and,
    BitVec.getLsbD_not, getLsbD_lmswMask, getLsbD_protectionEnable, decide_eq_true hi,
    Bool.true_and]
  by_cases h : i < 4
  · rw [if_pos h, decide_eq_true h, Bool.not_true, Bool.and_false, Bool.false_or, Bool.and_comm]
  · have hne : i ≠ 0 := by omega
    rw [if_neg h, decide_eq_false h, decide_eq_false hne, getLsbD_lmswBits h]
    simp

/-- `new_bits` of `handle_lmsw` in the end. -/
def lmswNewBits (shadow : BitVec 64) (source : BitVec 16) : BitVec 64 :=
  if shadow &&& cr0ProtectionEnableFlag ≠ 0 then lmswBits source ||| cr0ProtectionEnableFlag
  else lmswBits source

/-- PE of the shadow is kept. -/
theorem getLsbD_lmswNewBits (shadow : BitVec 64) (source : BitVec 16) (i : Nat) :
    (lmswNewBits shadow source).getLsbD i =
      ((lmswBits source).getLsbD i || (decide (i = 0) && shadow.getLsbD i)) := by
  -- LMSW can set PE and cannot clear it.
  have hflag : ∀ i, (shadow &&& cr0ProtectionEnableFlag).getLsbD i =
      (decide (i = 0) && shadow.getLsbD i) := by
    intro i
    rw [BitVec.getLsbD_and, getLsbD_protectionEnable, Bool.and_comm]
  unfold lmswNewBits
  split
  · rename_i hset
    have hzero : shadow.getLsbD 0 = true := by
      by_contra hclear
      apply hset
      apply BitVec.eq_of_getLsbD_eq
      intro i _
      rw [hflag]
      by_cases hi : i = 0
      · rw [hi, Bool.eq_false_iff.mpr hclear]
        rfl
      · rw [decide_eq_false hi, Bool.false_and]
        exact BitVec.getLsbD_zero.symm
    rw [BitVec.getLsbD_or, getLsbD_protectionEnable]
    by_cases hi : i = 0
    · rw [hi, hzero]
      rfl
    · rw [decide_eq_false hi, Bool.false_and]
  · rename_i hclear
    have hzero := hflag i
    rw [not_not.mp hclear] at hzero
    rw [← hzero, show (0 : BitVec 64).getLsbD i = false from BitVec.getLsbD_zero, Bool.or_false]

/-- A word whose low four bits LMSW has replaced. -/
theorem getLsbD_replaceLow (x shadow : BitVec 64) (source : BitVec 16) {i : Nat} (hi : i < 64) :
    ((x &&& ~~~lmswMask) ||| lmswNewBits shadow source).getLsbD i =
      if i < 4 then (lmswBits source).getLsbD i || (decide (i = 0) && shadow.getLsbD i)
      else x.getLsbD i := by
  rw [BitVec.getLsbD_or, BitVec.getLsbD_and, BitVec.getLsbD_not, getLsbD_lmswMask,
    getLsbD_lmswNewBits, decide_eq_true hi, Bool.true_and]
  by_cases h : i < 4
  · rw [if_pos h, decide_eq_true h, Bool.not_true, Bool.and_false, Bool.false_or]
  · have hne : i ≠ 0 := by omega
    rw [if_neg h, decide_eq_false h, decide_eq_false hne, getLsbD_lmswBits h]
    simp

section
variable {p : CrProcessor} {s : CrState}

/-- The handler of LMSW. -/
theorem crInv_handleLmsw (h : CrInv p s) (source : BitVec 16) :
    ∃ cr0 : CrField, handleLmsw p s.fields source = ({ s.fields with cr0 }, .completed) ∧
      CrInv p ⟨{ s.fields with cr0 }, .completed, lmswResult s.acceptedCr0 source,
        s.acceptedCr4⟩ := by
  refine ⟨_, rfl, h.withCr0 ?_ (between_clamp p.cr0Subset _) ?_ _⟩
  · rw [← h.cr0]
    apply select_of_agree
    · intro i hmask
      have hi : i < 64 := BitVec.lt_of_getLsbD hmask
      show ((s.fields.cr0.readShadow &&& ~~~lmswMask) |||
        lmswNewBits s.fields.cr0.readShadow source).getLsbD i = _
      have hbit : (s.fields.cr0.effective p.cr0Mask).getLsbD i =
          s.fields.cr0.readShadow.getLsbD i := by
        unfold CrField.effective
        rw [getLsbD_select _ _ _ hi, if_pos hmask]
      rw [getLsbD_replaceLow _ _ _ hi, getLsbD_lmswResult _ _ hi, hbit]
    · intro i hi hmask
      show (clamp p.cr0Fixed0 p.cr0Fixed1 ((s.fields.cr0.guest &&& ~~~lmswMask) |||
        lmswNewBits s.fields.cr0.readShadow source)).getLsbD i = _
      obtain ⟨hfixed0, hfixed1⟩ := covers_cr0Mask p i hi hmask
      have hbit : (s.fields.cr0.effective p.cr0Mask).getLsbD i =
          s.fields.cr0.guest.getLsbD i := by
        unfold CrField.effective
        rw [getLsbD_select _ _ _ hi, if_neg (Bool.eq_false_iff.mp hmask)]
      -- PE is in the mask, so only the other three bits are at stake here.
      have hne : i ≠ 0 := by
        intro hzero
        rw [hzero, protectionEnable_cr0Mask] at hmask
        cases hmask
      rw [getLsbD_clamp, hfixed0, hfixed1, Bool.or_false, Bool.and_true,
        getLsbD_replaceLow _ _ _ hi, getLsbD_lmswResult _ _ hi, hbit, decide_eq_false hne]
      simp
  · show normalizeCr0 ((s.fields.cr0.readShadow &&& ~~~lmswMask) |||
      lmswNewBits s.fields.cr0.readShadow source) = _
    apply BitVec.eq_of_getLsbD_eq
    intro i hi
    by_cases hlow : i < 4
    · exact getLsbD_normalizeCr0_low _ hlow
    · show _ = ((s.fields.cr0.readShadow &&& ~~~lmswMask) |||
        lmswNewBits s.fields.cr0.readShadow source).getLsbD i
      have hshadow := congrArg (fun x => x.getLsbD i) h.shadowNormal
      simp only [getLsbD_normalizeCr0 _ hi] at hshadow
      rw [getLsbD_normalizeCr0 _ hi, getLsbD_replaceLow _ _ _ hi, if_neg hlow]
      exact hshadow

/-- LMSW without an exit. -/
theorem crInv_lmsw_notExiting (h : CrInv p s) {source : BitVec 16}
    (hno : lmswExits p.cr0Mask s.fields.cr0 source = false) (answer : CrAnswer) :
    CrInv p ⟨{ s.fields with cr0 := { s.fields.cr0 with
      guest := select (p.cr0Mask ||| ~~~lmswMask) s.fields.cr0.guest
        (lmswBits source ||| (s.fields.cr0.guest &&& cr0ProtectionEnableFlag)) } }, answer,
      lmswResult s.acceptedCr0 source, s.acceptedCr4⟩ := by
  -- No exit means that each owned bit agrees with its shadow, or is PE that the
  -- source leaves clear.
  have hagree : ∀ i < 4, p.cr0Mask.getLsbD i = true →
      (lmswBits source).getLsbD i = s.fields.cr0.readShadow.getLsbD i ∨
        (i = 0 ∧ (lmswBits source).getLsbD i = false) := by
    intro i hi hmask
    unfold lmswExits at hno
    have hi' := List.any_eq_false.mp hno i (List.mem_range.mpr hi)
    rw [hmask] at hi'
    by_cases heq : (lmswBits source).getLsbD i = s.fields.cr0.readShadow.getLsbD i
    · exact Or.inl heq
    · right
      simpa [heq] using hi'
  have hcovers : Covers (p.cr0Mask ||| ~~~lmswMask) p.cr0Fixed0 p.cr0Fixed1 := by
    intro i hi hmask
    rw [BitVec.getLsbD_or, Bool.or_eq_false_iff] at hmask
    exact covers_cr0Mask p i hi hmask.1
  have hguest : Between p.cr0Fixed0 p.cr0Fixed1 (select (p.cr0Mask ||| ~~~lmswMask)
      s.fields.cr0.guest (lmswBits source ||| (s.fields.cr0.guest &&& cr0ProtectionEnableFlag))) :=
    between_select hcovers h.cr0Guest _
  refine h.withCr0 ?_ ?_ ?_ answer
  · rw [← h.cr0]
    apply select_of_agree
    · intro i hmask
      have hi : i < 64 := BitVec.lt_of_getLsbD hmask
      have hbit : (s.fields.cr0.effective p.cr0Mask).getLsbD i =
          s.fields.cr0.readShadow.getLsbD i := by
        unfold CrField.effective
        rw [getLsbD_select _ _ _ hi, if_pos hmask]
      rw [getLsbD_lmswResult _ _ hi, hbit]
      split
      · rename_i hlow
        show s.fields.cr0.readShadow.getLsbD i = _
        cases hagree i hlow hmask with
        | inl heq =>
          rw [heq]
          cases s.fields.cr0.readShadow.getLsbD i with
          | true => rfl
          | false => simp
        | inr hclear =>
          rw [hclear.2, decide_eq_true hclear.1]
          simp
      · rfl
    · intro i hi hmask
      have hbit : (s.fields.cr0.effective p.cr0Mask).getLsbD i = s.fields.cr0.guest.getLsbD i := by
        unfold CrField.effective
        rw [getLsbD_select _ _ _ hi, if_neg (Bool.eq_false_iff.mp hmask)]
      rw [getLsbD_lmswResult _ _ hi, hbit]
      show (select (p.cr0Mask ||| ~~~lmswMask) s.fields.cr0.guest (lmswBits source |||
        (s.fields.cr0.guest &&& cr0ProtectionEnableFlag))).getLsbD i = _
      rw [getLsbD_select _ _ _ hi, BitVec.getLsbD_or, hmask, Bool.false_or, BitVec.getLsbD_not,
        getLsbD_lmswMask, decide_eq_true hi, Bool.true_and]
      -- The low four bits come from the source, all others stay.
      by_cases hlow : i < 4
      · rw [if_pos hlow, decide_eq_true hlow, Bool.not_true, if_neg Bool.false_ne_true,
          BitVec.getLsbD_or, BitVec.getLsbD_and, getLsbD_protectionEnable, Bool.and_comm]
      · rw [if_neg hlow, decide_eq_false hlow, Bool.not_false, if_pos rfl]
  · exact hguest
  · exact h.shadowNormal

/-! ### Every write -/

/-- A write that completes has been accepted, one answered with #GP
leaves all fields alone. -/
theorem crInv_execute (h : CrInv p s) (write : CrWrite) :
    (∃ fields, write.execute p s.fields = (fields, .completed) ∧
      CrInv p (CrState.accept { s with fields, answer := .completed } write)) ∨
    write.execute p s.fields = (s.fields, .generalProtection) := by
  cases write with
  | movToCr0 value =>
    simp only [CrWrite.execute]
    -- A write exits when an owned bit would differ from its shadow. Otherwise
    -- the processor does it.
    cases hexits : movExits p.cr0Mask s.fields.cr0 value with
    | true =>
      simp only [if_true]
      cases handleMovToCr0_cases p s.fields value with
      | inl hrefused => exact Or.inr hrefused
      | inr hwritten =>
        refine Or.inl ⟨_, hwritten, h.withCr0 (effective_written (covers_cr0Mask p) _)
          (between_clamp p.cr0Subset _) (normalizeCr0_normalizeCr0 value) _⟩
    | false =>
      simp only [Bool.false_eq_true, if_false]
      split
      · exact Or.inr rfl
      · refine Or.inl ⟨_, rfl, h.withCr0 (effective_notExiting fun i hmask => ?_)
          (between_select (covers_cr0Mask p) h.cr0Guest _) h.shadowNormal _⟩
        have hi : i < 64 := BitVec.lt_of_getLsbD hmask
        rw [getLsbD_normalizeCr0 value hi, agrees_of_not_movExits hexits i hmask,
          ← getLsbD_normalizeCr0 _ hi, h.shadowNormal]
  | movToCr4 value guestCr3 =>
    simp only [CrWrite.execute]
    cases hexits : movExits p.cr4Mask s.fields.cr4 value with
    | true =>
      simp only [if_true]
      cases handleMovToCr4_cases p s.fields value guestCr3 with
      | inl hrefused => exact Or.inr hrefused
      | inr hwritten =>
        exact Or.inl ⟨_, hwritten, h.withCr4 (effective_written (covers_cr4Mask p) _)
          (between_clamp p.cr4Subset _) _⟩
    | false =>
      simp only [Bool.false_eq_true, if_false]
      split
      · exact Or.inr rfl
      · exact Or.inl ⟨_, rfl, h.withCr4 (effective_notExiting fun i hmask =>
          (agrees_of_not_movExits hexits i hmask).symm)
          (between_select (covers_cr4Mask p) h.cr4Guest _) _⟩
  | lmsw source =>
    simp only [CrWrite.execute]
    cases hexits : lmswExits p.cr0Mask s.fields.cr0 source with
    | true =>
      simp only [if_true]
      obtain ⟨cr0, hhandled, hinv⟩ := crInv_handleLmsw h source
      exact Or.inl ⟨_, hhandled, hinv⟩
    | false =>
      simp only [Bool.false_eq_true, if_false]
      exact Or.inl ⟨_, rfl, crInv_lmsw_notExiting h hexits _⟩

/-- Every write keeps the invariant. -/
theorem crInv_next (h : CrInv p s) {write : CrWrite} {s' : CrState}
    (hnext : (crMachine p).next s write = some s') :
    CrInv p s' ∧ (s'.answer = .generalProtection → s'.fields = s.fields) := by
  unfold crMachine at hnext
  simp only [Option.some.injEq] at hnext
  -- A completed write changes the accepted value, a refused one changes
  -- nothing.
  cases crInv_execute h write with
  | inl hcompleted =>
    obtain ⟨fields, heq, hinv⟩ := hcompleted
    rw [heq] at hnext
    simp only [if_true] at hnext
    subst hnext
    refine ⟨hinv, fun hanswer => ?_⟩
    cases write with
    | movToCr0 value => cases hanswer
    | movToCr4 value guestCr3 => cases hanswer
    | lmsw source => cases hanswer
  | inr hrefused =>
    rw [hrefused] at hnext
    simp only [reduceCtorEq, if_false] at hnext
    subst hnext
    exact ⟨h.refused, fun _ => rfl⟩

end

/-! ### Runs -/

/-- After every run of writes the guest reads the values accepted last,
the guest fields respect the fixed bits, and the next write changes no
field if it is answered with #GP. -/
theorem writes_effective {p : CrProcessor} (launch : CrLaunch p) {writes : List CrWrite}
    {s : CrState} (hrun : (crMachine p).run (CrState.initial launch) writes = some s) :
    s.fields.cr0.effective p.cr0Mask = s.acceptedCr0 ∧
      s.fields.cr4.effective p.cr4Mask = s.acceptedCr4 ∧
      Between p.cr0Fixed0 p.cr0Fixed1 s.fields.cr0.guest ∧
      Between p.cr4Fixed0 p.cr4Fixed1 s.fields.cr4.guest ∧
      ∀ write s', (crMachine p).next s write = some s' → s'.answer = .generalProtection →
        s'.fields = s.fields := by
  have hinv : CrInv p s := (crMachine p).invariant_of_run
    (fun _ _ _ hI hnext => (crInv_next hI hnext).1) (crInv_initial launch) hrun
  refine ⟨hinv.cr0, hinv.cr4, hinv.cr0Guest, hinv.cr4Guest, ?_⟩
  intro write s' hnext
  exact (crInv_next hinv hnext).2

/-! ### A small processor -/

/-- A processor that fixes PE, NE and PG of CR0 and VMXE of CR4 to one. -/
def plainCrProcessor : CrProcessor where
  cr0Fixed0 := 0x80000021
  cr0Fixed1 := 0xFFFFFFFF
  cr4Fixed0 := 0x2000
  cr4Fixed1 := 0x3767FF
  cr4Reserved := 0xFFFFFFFFFE008000
  saferModeExtensions := false
  refusesCr0 _ _ := false
  refusesCr4 _ _ := false
  cr0Subset := by decide
  cr4Subset := by decide
  protectionEnable := by decide

/-- A guest in 64-bit mode on it. -/
def plainCrLaunch : CrLaunch plainCrProcessor where
  cr0 := 0x80050031
  cr4 := 0x2020
  cr0Between := by decide
  cr4Between := by decide
  cr0Normal := by decide

/-- TS set without an exit, CR4.VMXE set with one, and TS cleared by
LMSW. -/
def plainCrWrites : List CrWrite := [.movToCr0 0x80050039, .movToCr4 0x2020 0, .lmsw 1]

/-- What the guest has in CR0 and CR4 after `plainCrWrites`. -/
theorem writes_effective_plain : ∃ s,
    (crMachine plainCrProcessor).run (CrState.initial plainCrLaunch) plainCrWrites = some s ∧
    s.fields.cr0.effective plainCrProcessor.cr0Mask = 0x80050031 ∧
    s.fields.cr4.effective plainCrProcessor.cr4Mask = 0x2020 := by
  have hrun : (crMachine plainCrProcessor).run (CrState.initial plainCrLaunch) plainCrWrites =
      some ⟨⟨⟨0x80050031, 0x80050031⟩, ⟨0x2020, 0x2020⟩⟩, .completed, 0x80050031, 0x2020⟩ := by
    rfl
  obtain ⟨hcr0, hcr4, _⟩ := writes_effective plainCrLaunch hrun
  exact ⟨_, hrun, hcr0, hcr4⟩

end Revhv.ControlRegister
