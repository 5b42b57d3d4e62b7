import Revhv.Km.VmexitStub
import Revhv.Proofs.Assembly

/-!
# `Revhv.Proofs.VmexitStub`: the registers across an exit

* `loadContext_saved`: what the stub has stored is a `guest_context` with
  the guest's registers, wherever the handler looks.
* `run_saveContext`, `run_restoreContext`: the two halves of the stub around
  the call, a lemma for each of their blocks.
-/

set_option autoImplicit false

namespace Revhv.VmexitStub

open Revhv.Asm
open Revhv.Lib (bytesAt length_bytesAt)
open Revhv.Lib.RecordLayout Revhv.Lib.StackFrame Revhv.Lib.StraightLine

variable (host : Host Label) {s : Cpu}

/-! ### Saving -/

/-- The slot of a general register. -/
def gprSlot (s : Cpu) (r : Gpr) : Slot := ⟨gprOffset r, leBytes 8 (s.gpr r).toNat⟩

/-- The slot of a control or debug register. -/
def sysSlot (s : Cpu) (c : SysReg) : Slot := ⟨sysOffset c, leBytes 8 (s.sys c).toNat⟩

/-- The slot of an XMM register. -/
def xmmSlot (s : Cpu) (x : Fin 16) : Slot := ⟨xmmOffset x, leBytes 16 (s.xmm x).toNat⟩

/-- The slot of MXCSR. -/
def mxcsrSlot (s : Cpu) : Slot := ⟨mxcsrOffset, leBytes 4 s.mxcsr.toNat⟩

/-- The slots that the stub fills. -/
def contextSlots (s : Cpu) : List Slot :=
  contextGprs.map (gprSlot s) ++ contextSys.map (sysSlot s) ++
    (List.finRange 16).map (xmmSlot s) ++ [mxcsrSlot s]

/-- A block that saves general registers writes their slots. By
induction on the registers. -/
theorem run_saveGprs (rs : List Gpr) (s : Cpu) :
    run (exec host) (rs.map fun r => .store .rsp (UInt64.ofNat (gprOffset r)) r) s =
      some (s.withMemory (writeSlots s.memory (s.gpr .rsp) (rs.map (gprSlot s))), none) := by
  induction rs generalizing s with
  | nil => rfl
  | cons r rs ih =>
    rw [List.map_cons, run_cons_next rfl, ih]
    rfl

/-- The control registers go through RAX. -/
theorem run_saveSys (cs : List SysReg) (s : Cpu) :
    ∃ v, run (exec host)
        (cs.flatMap fun c => [.readSys .rax c, .store .rsp (UInt64.ofNat (sysOffset c)) .rax]) s =
      some ((s.set .rax v).withMemory
        (writeSlots s.memory (s.gpr .rsp) (cs.map (sysSlot s))), none) := by
  -- By induction over the registers left to save. RAX carries each of them, so
  -- its value at the end depends on the list.
  induction cs generalizing s with
  | nil =>
    refine ⟨s.gpr .rax, ?_⟩
    rw [List.flatMap_nil, run_nil, Cpu.set, Function.update_eq_self]
    rfl
  | cons c cs ih =>
    -- The read of the register goes to RAX and leaves RSP alone.
    have hrsp : (s.set .rax (s.sys c)).gpr .rsp = s.gpr .rsp := set_gpr_of_ne s _ (by decide)
    obtain ⟨v, hv⟩ := ih ((s.set .rax (s.sys c)).withMemory
      (storeWord s.memory (s.gpr .rsp + UInt64.ofNat (sysOffset c)) (s.sys c)))
    refine ⟨v, ?_⟩
    have hstore : exec host (.store .rsp (UInt64.ofNat (sysOffset c)) .rax) (s.set .rax (s.sys c)) =
        some ((s.set .rax (s.sys c)).withMemory
          (storeWord s.memory (s.gpr .rsp + UInt64.ofNat (sysOffset c)) (s.sys c)), none) := by
      simp only [exec, hrsp, set_gpr, Function.update_self]
      rfl
    rw [List.flatMap_cons, List.cons_append, run_cons_next rfl, List.cons_append,
      run_cons_next hstore, List.nil_append, hv]
    simp only [Cpu.set, Cpu.withMemory, Function.update_idem]
    rw [Function.update_of_ne (show Gpr.rsp ≠ .rax by decide)]
    rfl

/-- The same for the vector registers, which want an aligned address. -/
theorem run_saveXmms (xs : List (Fin 16)) (s : Cpu) (haligned : aligned (s.gpr .rsp) = true) :
    run (exec host) (xs.map fun x => .storeXmm .rsp (UInt64.ofNat (xmmOffset x)) x) s =
      some (s.withMemory (writeSlots s.memory (s.gpr .rsp) (xs.map (xmmSlot s))), none) := by
  induction xs generalizing s with
  | nil => rfl
  | cons x xs ih =>
    -- MOVAPS faults on a slot that is not a multiple of 16.
    have hoffset : xmmOffset x = 16 * (11 + x) := by
      unfold xmmOffset
      omega
    have hstore : exec host (.storeXmm .rsp (UInt64.ofNat (xmmOffset x)) x) s =
        some (s.withMemory (store s.memory (s.gpr .rsp + UInt64.ofNat (xmmOffset x))
          (leBytes 16 (s.xmm x).toNat)), none) := by
      simp only [exec]
      rw [hoffset, if_pos (aligned_add haligned)]
    have hrest := ih (s.withMemory (store s.memory (s.gpr .rsp + UInt64.ofNat (xmmOffset x))
      (leBytes 16 (s.xmm x).toNat))) haligned
    rw [List.map_cons, run_cons_next hstore, hrest]
    rfl

/-- The three groups of registers, on an allocated frame. -/
theorem run_saveRegisters (haligned : aligned (s.gpr .rsp) = true) :
    ∃ v, run (exec host) (saveGprs ++ saveSys ++ saveXmms) s =
      some ((s.set .rax v).withMemory (writeSlots s.memory (s.gpr .rsp)
        (contextGprs.map (gprSlot s) ++ contextSys.map (sysSlot s) ++
          (List.finRange 16).map (xmmSlot s))), none) := by
  -- The three groups write into one frame, each with RAX changed by the one
  -- before, so the slots are collected one group at a time.
  have hgprs := run_saveGprs host contextGprs s
  generalize hs₁ : s.withMemory (writeSlots s.memory (s.gpr .rsp)
    (contextGprs.map (gprSlot s))) = s₁ at hgprs
  obtain ⟨v, hsys⟩ := run_saveSys host contextSys s₁
  generalize hs₂ : (s₁.set .rax v).withMemory (writeSlots s₁.memory (s₁.gpr .rsp)
    (contextSys.map (sysSlot s₁))) = s₂ at hsys
  have hrsp : s₂.gpr .rsp = s.gpr .rsp := by
    subst hs₂ hs₁
    exact set_gpr_of_ne s v (show Gpr.rsp ≠ .rax by decide)
  have hxmms := run_saveXmms host (List.finRange 16) s₂ (hrsp ▸ haligned)
  refine ⟨v, ?_⟩
  rw [List.append_assoc, saveGprs, run_append _ hgprs, saveSys, run_append _ hsys, saveXmms, hxmms,
    writeSlots_append, writeSlots_append, hrsp]
  subst hs₂ hs₁
  rfl

/-- The core at the call of the handler, but for its flags. -/
theorem run_saveContext (haligned : aligned (s.gpr .rsp) = true) :
    ∃ c, run (exec host) saveContext s = some (c, none) ∧
      c.gpr .rcx = s.gpr .rsp - UInt64.ofNat contextSize ∧ c.gpr .rdx = s.fsBase ∧
      c.gpr .rsp = s.gpr .rsp - UInt64.ofNat contextSize - 0x20 ∧
      c.memory = writeSlots s.memory (s.gpr .rsp - UInt64.ofNat contextSize) (contextSlots s) ∧
      c.vmcs = s.vmcs ∧ c.tsc = s.tsc := by
  -- The frame is allocated.
  have hsub : run (exec host) [.alu .sub .rsp (.imm (UInt64.ofNat contextSize))] s =
      some ((s.set .rsp (s.gpr .rsp - UInt64.ofNat contextSize)).withZf
        (s.gpr .rsp - UInt64.ofNat contextSize == 0), none) := rfl
  generalize hs₁ : (s.set .rsp (s.gpr .rsp - UInt64.ofNat contextSize)).withZf
    (s.gpr .rsp - UInt64.ofNat contextSize == 0) = s₁ at hsub
  have hrsp : s₁.gpr .rsp = s.gpr .rsp - UInt64.ofNat contextSize := by
    rw [← hs₁, withZf_gpr, set_gpr, Function.update_self]
  have haligned₁ : aligned (s₁.gpr .rsp) = true := by
    rw [hrsp]
    unfold aligned at haligned ⊢
    rw [beq_iff_eq] at haligned ⊢
    rw [UInt64.toNat_sub, UInt64.toNat_ofNat', contextSize]
    have hlt := (s.gpr .rsp).toNat_lt
    omega
  obtain ⟨v, hregs⟩ := run_saveRegisters host haligned₁
  generalize hs₂ : (s₁.set .rax v).withMemory _ = s₂ at hregs
  -- MXCSR and the arguments.
  have htail : run (exec host) [.stmxcsr .rsp (UInt64.ofNat mxcsrOffset), .mov .rcx .rsp,
      .rdfsbase .rdx, .alu .sub .rsp (.imm 0x20)] s₂ =
      some (((((s₂.withMemory (store s₂.memory (s₂.gpr .rsp + UInt64.ofNat mxcsrOffset)
        (leBytes 4 s₂.mxcsr.toNat))).set .rcx (s₂.gpr .rsp)).set .rdx s₂.fsBase).set .rsp
          (s₂.gpr .rsp - 0x20)).withZf (s₂.gpr .rsp - 0x20 == 0), none) := rfl
  have hrsp₂ : s₂.gpr .rsp = s.gpr .rsp - UInt64.ofNat contextSize := by
    subst hs₂
    rw [← hrsp]
    exact set_gpr_of_ne s₁ v (show Gpr.rsp ≠ .rax by decide)
  generalize hc : Cpu.withZf _ _ = c at htail
  have hmemory : c.memory = store s₂.memory (s₂.gpr .rsp + UInt64.ofNat mxcsrOffset)
      (leBytes 4 s₂.mxcsr.toNat) := by
    subst hc
    rfl
  refine ⟨c, ?_, ?_, ?_, ?_, ?_, ?_, ?_⟩
  · rw [saveContext, List.append_assoc, List.append_assoc, List.append_assoc, run_append _ hsub,
      ← List.append_assoc, ← List.append_assoc, run_append _ hregs]
    exact htail
  · subst hc
    exact hrsp₂
  · subst hc hs₂ hs₁
    rfl
  · rw [← hrsp₂]
    subst hc
    rfl
  · rw [hmemory, hrsp₂, contextSlots, writeSlots_append, ← hrsp]
    subst hs₂ hs₁
    rfl
  · subst hc hs₂ hs₁
    rfl
  · subst hc hs₂ hs₁
    rfl

/-! ### What the handler reads -/

/-- The offset and the size of each slot. -/
def contextLayout : List (Nat × Nat) :=
  contextGprs.map (fun r => (gprOffset r, 8)) ++ contextSys.map (fun c => (sysOffset c, 8)) ++
    (List.finRange 16).map (fun x => (xmmOffset x, 16)) ++ [(mxcsrOffset, 4)]

/-- The slots of the context are at the offsets of the layout, with its
lengths. -/
theorem layout_contextSlots (s : Cpu) :
    (contextSlots s).map (fun t => (t.offset, t.bytes.length)) = contextLayout := by
  simp only [contextSlots, contextLayout, List.map_append, List.map_map, List.map_cons,
    List.map_nil, Function.comp_def, gprSlot, sysSlot, xmmSlot, mxcsrSlot, length_leBytes]

/-- What holds of the layout holds of the slots. -/
theorem contextSlots_within (s : Cpu) :
    ∀ t ∈ contextSlots s, t.offset + t.bytes.length ≤ contextSize := by
  have hlayout : ∀ p ∈ contextLayout, p.1 + p.2 ≤ contextSize := by decide
  intro t ht
  exact hlayout _ (layout_contextSlots s ▸ List.mem_map_of_mem ht)

/-- Every slot fits into the address space. -/
theorem contextSlots_fits (s : Cpu) : ∀ t ∈ contextSlots s, t.Fits := by
  intro t ht
  exact Nat.le_trans (contextSlots_within s t ht) (by decide)

/-- No two slots overlap. -/
theorem contextSlots_apart (s : Cpu) : (contextSlots s).Pairwise Slot.Apart := by
  have hlayout : contextLayout.Pairwise fun p q => p.1 + p.2 ≤ q.1 := by decide +kernel
  rw [← layout_contextSlots s, List.pairwise_map] at hlayout
  exact hlayout.imp Or.inl

/-- The assembly file and `vcpu.h` agree on where the general registers
are, -/
theorem offsetOf_gpr {r : Gpr} (hr : r ≠ .rsp) : offsetOf (.gpr r) = gprOffset r := by
  cases r <;> first | rfl | exact absurd rfl hr

/-- on where the control and debug registers are, -/
theorem offsetOf_sys (c : SysReg) : offsetOf (.sys c) = sysOffset c := by
  cases c <;> rfl

/-- on where the XMM registers are, -/
theorem offsetOf_xmm : ∀ x : Fin 16, offsetOf (.xmm x) = xmmOffset x := by decide +kernel

/-- and on where MXCSR is. -/
theorem offsetOf_mxcsr : offsetOf .mxcsr = mxcsrOffset := by decide +kernel

/-- The slot of a register holds it. -/
theorem bytesAt_contextSlots (memory : UInt64 → UInt8) (base : UInt64) {t : Slot}
    (ht : t ∈ contextSlots s) :
    bytesAt (writeSlots memory base (contextSlots s)) (base + UInt64.ofNat t.offset)
      t.bytes.length = t.bytes :=
  bytesAt_writeSlots (contextSlots_fits s) (contextSlots_apart s) ht

/-- A general register has a slot, RSP apart. -/
theorem gprSlot_mem {r : Gpr} (hr : r ≠ .rsp) : gprSlot s r ∈ contextSlots s := by
  have hmem : r ∈ contextGprs := by
    cases r <;> first | decide | exact absurd rfl hr
  simp only [contextSlots, List.mem_append]
  exact Or.inl (Or.inl (Or.inl (List.mem_map_of_mem hmem)))

/-- A system register has a slot. -/
theorem sysSlot_mem (c : SysReg) : sysSlot s c ∈ contextSlots s := by
  have hmem : c ∈ contextSys := by
    cases c <;> decide
  simp only [contextSlots, List.mem_append]
  exact Or.inl (Or.inl (Or.inr (List.mem_map_of_mem hmem)))

/-- A vector register has a slot. -/
theorem xmmSlot_mem (x : Fin 16) : xmmSlot s x ∈ contextSlots s := by
  simp only [contextSlots, List.mem_append]
  exact Or.inl (Or.inr (List.mem_map_of_mem (List.mem_finRange x)))

/-- MXCSR has a slot. -/
theorem mxcsrSlot_mem : mxcsrSlot s ∈ contextSlots s := by
  simp only [contextSlots, List.mem_append, List.mem_singleton, or_true]

/-- A slot that was filled with a number reads as that number. -/
theorem leValue_contextSlots {memory : UInt64 → UInt8} {base : UInt64} {offset n value : Nat}
    (ht : ⟨offset, leBytes n value⟩ ∈ contextSlots s) (hvalue : value < 256 ^ n) :
    leValue n (bytesAt (writeSlots memory base (contextSlots s))
      (base + UInt64.ofNat offset) n) = value := by
  have hbytes := bytesAt_contextSlots memory base ht
  simp only [length_leBytes] at hbytes
  have hread := leValue_leBytes n value [] hvalue
  rw [hbytes, ← List.append_nil (leBytes n value), hread]

/-- The stored registers are a `guest_context`, as C++ code reads it. -/
theorem loadContext_saved (memory : UInt64 → UInt8) (base : UInt64) (s : Cpu) :
    loadContext (writeSlots memory base (contextSlots s)) base = contextOf s := by
  rw [loadContext, contextOf, Context.mk.injEq]
  refine ⟨?_, ?_, ?_, ?_⟩
  · funext r
    -- RSP has no slot: the guest's is in the VMCS.
    by_cases hr : r = .rsp
    · rw [if_pos hr, if_pos hr]
    · have hslot : ⟨gprOffset r, leBytes 8 (s.gpr r).toNat⟩ ∈ contextSlots s := gprSlot_mem hr
      rw [if_neg hr, if_neg hr, offsetOf_gpr hr, loadWord,
        leValue_contextSlots hslot (s.gpr r).toNat_lt, UInt64.ofNat_toNat]
  · funext c
    have hslot : ⟨sysOffset c, leBytes 8 (s.sys c).toNat⟩ ∈ contextSlots s := sysSlot_mem c
    rw [offsetOf_sys, loadWord, leValue_contextSlots hslot (s.sys c).toNat_lt, UInt64.ofNat_toNat]
  · funext x
    have hslot : ⟨xmmOffset x, leBytes 16 (s.xmm x).toNat⟩ ∈ contextSlots s := xmmSlot_mem x
    rw [offsetOf_xmm, leValue_contextSlots hslot (s.xmm x).isLt, BitVec.ofNat_toNat,
      BitVec.setWidth_eq]
  · have hslot : ⟨mxcsrOffset, leBytes 4 s.mxcsr.toNat⟩ ∈ contextSlots s := mxcsrSlot_mem
    rw [offsetOf_mxcsr, leValue_contextSlots hslot s.mxcsr.toNat_lt, UInt32.ofNat_toNat]

/-! ### Restoring -/

/-- The core with general registers loaded from the context on top of
the stack. -/
def loadGprs (rs : List Gpr) (s : Cpu) : Cpu :=
  { s with
    gpr := fun r => if r ∈ rs then (loadContext s.memory (s.gpr .rsp)).gpr r else s.gpr r }

/-- The core with control and debug registers loaded from there. -/
def loadSys (cs : List SysReg) (s : Cpu) : Cpu :=
  { s with
    sys := fun c => if c ∈ cs then (loadContext s.memory (s.gpr .rsp)).sys c else s.sys c }

/-- The core with XMM registers loaded from there. -/
def loadXmms (xs : List (Fin 16)) (s : Cpu) : Cpu :=
  { s with
    xmm := fun x => if x ∈ xs then (loadContext s.memory (s.gpr .rsp)).xmm x else s.xmm x }

/-- A block that restores general registers loads their slots. -/
theorem run_restoreGprs (rs : List Gpr) (hrs : .rsp ∉ rs) (s : Cpu) :
    run (exec host) (rs.map restoreGpr) s = some (loadGprs rs s, none) := by
  induction rs generalizing s with
  | nil => rfl
  | cons r rs ih =>
    -- RSP is the base of every load, so it must not be among the loaded
    -- registers.
    have hr : r ≠ .rsp := fun h => hrs (h ▸ List.mem_cons_self)
    have hload : exec host (restoreGpr r) s =
        some (s.set r ((loadContext s.memory (s.gpr .rsp)).gpr r), none) := by
      rw [loadContext]
      simp only [if_neg hr, offsetOf_gpr hr]
      rfl
    rw [List.map_cons, run_cons_next hload, ih fun h => hrs (List.mem_cons_of_mem _ h)]
    have hrsp : (s.set r ((loadContext s.memory (s.gpr .rsp)).gpr r)).gpr .rsp = s.gpr .rsp :=
      set_gpr_of_ne s _ (Ne.symm hr)
    rw [loadGprs, loadGprs, hrsp]
    simp only [Cpu.set, List.mem_cons]
    congr 3
    -- A register that occurs again is loaded with the same word.
    funext r'
    by_cases h : r' = r
    · subst h
      simp
    · simp [h]

/-- The same for the vector registers. -/
theorem run_restoreXmms (xs : List (Fin 16)) (s : Cpu) (haligned : aligned (s.gpr .rsp) = true) :
    run (exec host) (xs.map fun x => .loadXmm x .rsp (UInt64.ofNat (xmmOffset x))) s =
      some (loadXmms xs s, none) := by
  induction xs generalizing s with
  | nil => rfl
  | cons x xs ih =>
    have hoffset : xmmOffset x = 16 * (11 + x) := by
      unfold xmmOffset
      omega
    -- The frame does not move while it is read, so the word can be named once.
    generalize hw : (loadContext s.memory (s.gpr .rsp)).xmm x = w
    have hload : exec host (.loadXmm x .rsp (UInt64.ofNat (xmmOffset x))) s =
        some ({ s with xmm := Function.update s.xmm x w }, none) := by
      rw [← hw, loadContext]
      simp only [exec, offsetOf_xmm]
      rw [if_pos (hoffset ▸ aligned_add haligned)]
    rw [List.map_cons, run_cons_next hload, ih { s with xmm := Function.update s.xmm x w } haligned]
    simp only [loadXmms, List.mem_cons]
    congr 3
    funext x'
    by_cases h : x' = x
    · subst h
      simp [hw]
    · simp [h]

/-- The control registers go through RAX. -/
theorem run_restoreSys (cs : List SysReg) (s : Cpu) :
    ∃ v, run (exec host)
        (cs.flatMap fun c => [.load .rax .rsp (UInt64.ofNat (sysOffset c)), .writeSys c .rax]) s =
      some ((loadSys cs s).set .rax v, none) := by
  induction cs generalizing s with
  | nil =>
    refine ⟨s.gpr .rax, ?_⟩
    rw [List.flatMap_nil, run_nil, Cpu.set]
    simp only [loadSys, List.not_mem_nil, if_false, Function.update_eq_self]
  | cons c cs ih =>
    -- As for the XMM registers, but by way of RAX.
    generalize hw : (loadContext s.memory (s.gpr .rsp)).sys c = w
    have hload : exec host (.load .rax .rsp (UInt64.ofNat (sysOffset c))) s =
        some (s.set .rax w, none) := by
      rw [← hw, loadContext]
      simp only [offsetOf_sys]
      rfl
    have hwrite : exec host (.writeSys c .rax) (s.set .rax w) =
        some ({ s.set .rax w with sys := Function.update s.sys c w }, none) := by
      simp only [exec, set_gpr, Function.update_self]
      rfl
    obtain ⟨v, hv⟩ := ih { s.set .rax w with sys := Function.update s.sys c w }
    refine ⟨v, ?_⟩
    rw [List.flatMap_cons, List.cons_append, run_cons_next hload, List.cons_append,
      run_cons_next hwrite, List.nil_append, hv]
    simp only [loadSys, Cpu.set, Function.update_idem, List.mem_cons]
    congr 3
    funext c'
    by_cases h : c' = c
    · subst h
      simp [hw]
    · simp [h]

/-- The general registers that are restored before the branch. -/
def restoredGprs : List Gpr := [.rbp, .rsi, .rdi, .r8, .r9, .r10, .r11, .r12, .r13, .r14, .r15]

/-- The core at the branch. What is not restored yet are four registers
and RSP. -/
structure Restored (d e : Cpu) (base : UInt64) : Prop where
  rsp : e.gpr .rsp = base
  rcx : e.gpr .rcx = d.gpr .rax
  zf : e.zf = (d.gpr .rax == 0)
  gpr : ∀ r ∈ restoredGprs, e.gpr r = (loadContext d.memory base).gpr r
  sys : e.sys = (loadContext d.memory base).sys
  xmm : e.xmm = (loadContext d.memory base).xmm
  mxcsr : e.mxcsr = (loadContext d.memory base).mxcsr
  memory : e.memory = d.memory
  vmcs : e.vmcs = d.vmcs
  tsc : e.tsc = d.tsc

/-- The stub behind the handler, up to the branch for the TSC offset. -/
theorem run_restoreContext {d : Cpu} {base : UInt64} (hrsp : d.gpr .rsp = base - 0x20)
    (haligned : aligned base = true) :
    ∃ e, run (exec host) restoreContext d = some (e, none) ∧ Restored d e base := by
  -- MXCSR, and the handler's answer.
  have hbase : d.gpr .rsp + 0x20 = base := by
    rw [hrsp, UInt64.sub_add_cancel]
  have hhead : ∃ e, run (exec host) [.alu .add .rsp (.imm 0x20), .mov .rcx .rax,
      .ldmxcsr .rsp (UInt64.ofNat mxcsrOffset)] d = some (e, none) ∧ e.gpr .rsp = base ∧
        e.gpr .rcx = d.gpr .rax ∧ e.mxcsr = (loadContext d.memory base).mxcsr ∧
        e.memory = d.memory ∧ e.vmcs = d.vmcs ∧ e.tsc = d.tsc := by
    refine ⟨_, rfl, hbase, rfl, ?_, rfl, rfl, rfl⟩
    rw [loadContext, offsetOf_mxcsr, ← hbase]
    rfl
  obtain ⟨e₁, hhead, hrsp₁, hrcx₁, hmxcsr₁, hmemory₁, hvmcs₁, htsc₁⟩ := hhead
  -- The three groups of registers.
  have hxmms := run_restoreXmms host (List.finRange 16) e₁ (hrsp₁ ▸ haligned)
  obtain ⟨v, hsys⟩ := run_restoreSys host [.dr0, .dr1, .dr2, .dr3, .dr6, .cr2, .cr8]
    (loadXmms (List.finRange 16) e₁)
  generalize hs₂ : loadXmms (List.finRange 16) e₁ = s₂ at hxmms hsys
  generalize hs₃ : (loadSys [.dr0, .dr1, .dr2, .dr3, .dr6, .cr2, .cr8] s₂).set .rax v = s₃ at hsys
  have hgprs := run_restoreGprs host restoredGprs (by decide) s₃
  have htest : run (exec host) [.test .rcx .rcx] (loadGprs restoredGprs s₃) =
      some ((loadGprs restoredGprs s₃).withZf (d.gpr .rax == 0), none) := by
    have hrcx : (loadGprs restoredGprs s₃).gpr .rcx = d.gpr .rax := by
      subst hs₃ hs₂
      exact hrcx₁
    rw [← UInt64.and_self (a := d.gpr .rax), ← hrcx]
    rfl
  have hrsp₃ : s₃.gpr .rsp = base := by
    subst hs₃ hs₂
    exact hrsp₁
  have hmemory₃ : s₃.memory = d.memory := by
    subst hs₃ hs₂
    exact hmemory₁
  refine ⟨(loadGprs restoredGprs s₃).withZf (d.gpr .rax == 0), ?_, ?_⟩
  · rw [restoreContext, List.append_assoc, List.append_assoc, List.append_assoc,
      run_append _ hhead, restoreXmms, run_append _ hxmms, restoreSys, run_append _ hsys,
      restoreGprs]
    exact (run_append _ hgprs).trans htest
  · constructor
    case rsp => exact hrsp₃
    case rcx =>
      subst hs₃ hs₂
      exact hrcx₁
    case zf => exact zf_withZf ..
    case gpr =>
      intro r hr
      rw [withZf_gpr, loadGprs]
      simp only [if_pos hr, hrsp₃, hmemory₃]
    case sys =>
      subst hs₃
      funext c
      have hc : c ∈ [SysReg.dr0, .dr1, .dr2, .dr3, .dr6, .cr2, .cr8] := by
        cases c <;> decide
      show (if c ∈ _ then (loadContext s₂.memory (s₂.gpr .rsp)).sys c else s₂.sys c) = _
      subst hs₂
      rw [if_pos hc]
      show (loadContext e₁.memory (e₁.gpr .rsp)).sys c = _
      rw [hmemory₁, hrsp₁]
    case xmm =>
      subst hs₃ hs₂
      funext x
      show (if x ∈ List.finRange 16 then (loadContext e₁.memory (e₁.gpr .rsp)).xmm x
        else e₁.xmm x) = _
      rw [if_pos (List.mem_finRange x), hmemory₁, hrsp₁]
    case mxcsr =>
      subst hs₃ hs₂
      exact hmxcsr₁
    case memory => exact hmemory₃
    case vmcs =>
      subst hs₃ hs₂
      exact hvmcs₁
    case tsc =>
      subst hs₃ hs₂
      exact htsc₁

/-! ### The entry -/

/-- The core at `normal_path_no_restore`: as it was, but for its flags
and the words that a probe for the benchmark has left below RSP. -/
structure Reached (s u : Cpu) : Prop where
  gpr : u.gpr = s.gpr
  context : contextOf u = contextOf s
  fsBase : u.fsBase = s.fsBase
  vmcs : u.vmcs = s.vmcs
  tsc : u.tsc = s.tsc
  memory : ∀ x, 16 ≤ (x - (s.gpr .rsp - 16)).toNat → u.memory x = s.memory x

/-- The state behind the two pushes of the probe. -/
def probed (s : Cpu) : Cpu := (s.pushWord (s.gpr .r10)).pushWord (s.gpr .r11)

/-- The probe of the fast path has two words on the stack. -/
theorem rsp_probed (s : Cpu) : (probed s).gpr .rsp = s.gpr .rsp - 16 := by
  show s.gpr .rsp - 8 - 8 = s.gpr .rsp - 16
  simp only [UInt64.sub_eq_add_neg, UInt64.add_assoc]
  rfl

/-- The probe's two words are on the stack. -/
theorem words_probed (s : Cpu) :
    words (probed s).memory (s.gpr .rsp - 8 - 8) 2 = [s.gpr .r11, s.gpr .r10] := by
  show words (storeWord (storeWord s.memory (s.gpr .rsp - 8) (s.gpr .r10))
    (s.gpr .rsp - 8 - 8) (s.gpr .r11)) (s.gpr .rsp - 8 - 8) 2 = _
  rw [words_storeWord _ (by omega), words_storeWord _ (by omega), words]

/-- It writes nothing else. -/
theorem probed_outside (s : Cpu) (x : UInt64) (hx : 16 ≤ (x - (s.gpr .rsp - 16)).toNat) :
    (probed s).memory x = s.memory x := by
  have hsub : s.gpr .rsp - 8 - 8 = s.gpr .rsp - 16 := rsp_probed s
  have hupper : (x - (s.gpr .rsp - 8)).toNat = (x - (s.gpr .rsp - 16)).toNat - 8 := by
    have hsplit : s.gpr .rsp - 8 = s.gpr .rsp - 16 + UInt64.ofNat 8 := by
      simp only [UInt64.sub_eq_add_neg, UInt64.add_assoc]
      rfl
    rw [hsplit, toNat_sub_add _ (by omega)]
  show storeWord (storeWord s.memory (s.gpr .rsp - 8) (s.gpr .r10)) (s.gpr .rsp - 8 - 8)
    (s.gpr .r11) x = s.memory x
  rw [hsub, storeWord, store_outside (by rw [length_leBytes]; omega), storeWord,
    store_outside (by rw [length_leBytes]; omega)]

/-- The pops take back what the probe has pushed. -/
theorem reached_unprobed {t : Cpu}
    (hgpr : ∀ r, r ≠ .r10 → r ≠ .r11 → t.gpr r = (probed s).gpr r) (ht : SameBesides (probed s) t) :
    ∃ u, run (exec host) [.pop .r11, .pop .r10] t = some (u, none) ∧ Reached s u := by
  -- The two pushes moved RSP down by 16, and the pops have to find the words
  -- there.
  have hrsp : t.gpr .rsp = s.gpr .rsp - 8 - 8 := hgpr .rsp (by decide) (by decide)
  have hwords := words_probed s
  rw [← ht.memory, ← hrsp] at hwords
  simp only [words, List.cons.injEq, and_true] at hwords
  have hback : t.gpr .rsp + 8 + 8 = s.gpr .rsp := by
    rw [hrsp, UInt64.sub_add_cancel, UInt64.sub_add_cancel]
  have hpops : ∃ u, run (exec host) [.pop .r11, .pop .r10] t = some (u, none) ∧
      (∀ r, u.gpr r = s.gpr r) ∧ SameBesides t u := by
    refine ⟨_, rfl, ?_, by constructor <;> rfl⟩
    -- R10 and R11 come off the stack and RSP moves back. The rest were never
    -- touched.
    intro r
    cases r
    case rsp => exact hback
    case r10 => exact hwords.2
    case r11 => exact hwords.1
    all_goals exact hgpr _ (by decide) (by decide)
  obtain ⟨u, hu, hgpr, hsame⟩ := hpops
  refine ⟨u, hu, funext hgpr, ?_, hsame.fsBase.trans ht.fsBase, hsame.vmcs.trans ht.vmcs,
    hsame.tsc.trans ht.tsc, ?_⟩
  · rw [contextOf, contextOf, funext hgpr, hsame.sys, hsame.xmm, hsame.mxcsr, ht.sys, ht.xmm,
      ht.mxcsr]
    rfl
  · rw [hsame.memory, ht.memory]
    exact probed_outside s

/-- A comparison and the branch behind it. -/
theorem runCode_branch {i : Instr Label} {is : List (Instr Label)} {z : Bool} {label : Label}
    {js : List (Instr Label)} {fuel : Nat} {t : Cpu}
    (hcmp : exec host i t = some (t.withZf z, none)) (hjump : target (.jump label) = some js) :
    runCode (exec host) target (fuel + 2) (i :: .jne label :: is) t =
      if z then runCode (exec host) target fuel is (t.withZf z)
      else runCode (exec host) target fuel js (t.withZf z) := by
  rw [runCode_next hcmp]
  -- CMP sets ZF and JNE falls through on it.
  cases z with
  | true =>
    have hjne : exec host (.jne label) (t.withZf true) = some (t.withZf true, none) := by
      rw [exec, zf_withZf]
      rfl
    exact runCode_next hjne
  | false =>
    have hjne : exec host (.jne label) (t.withZf false) =
        some (t.withZf false, some (.jump label)) := by
      rw [exec, zf_withZf]
      rfl
    exact runCode_jump hjne hjump

/-- The key's lower half in RCX makes the stub look at the exit reason
and at all of RCX. -/
theorem runCode_probe (hlow : (s.gpr .rcx).toNat % 2 ^ 32 = (0x424E4348 : UInt32).toNat) :
    ∃ t fuel, runCode (exec host) target 200 entry s =
        runCode (exec host) target (fuel + 180) (if FastPath s then fastPath else normalPath) t ∧
      (∀ r, r ≠ .r10 → t.gpr r = (probed s).gpr r) ∧ SameBesides (probed s) t := by
  have hcmp : exec host (.cmp32 .rcx 0x424E4348) s = some (s.withZf true, none) := by
    rw [exec, hlow, beq_self_eq_true]
  -- R10 and R11 are scratch from here on, so they go onto the guest's stack.
  have hpushes : ∃ t, run (exec host) [.push .r10, .push .r11, .movImm .r10 vmcsExitReason,
      .vmread .r10 .r10] (s.withZf true) = some (t, none) ∧
      t.gpr .r10 = s.vmcs vmcsExitReason ∧ (∀ r, r ≠ .r10 → t.gpr r = (probed s).gpr r) ∧
        SameBesides (probed s) t := by
    refine ⟨_, rfl, rfl, ?_, by constructor <;> rfl⟩
    intro r hr
    rw [withZf_gpr, set_gpr_of_ne _ _ hr, set_gpr_of_ne _ _ hr]
    rfl
  obtain ⟨t, ht, hr10, hgpr, hsame⟩ := hpushes
  have hreason : exec host (.cmp .r10 (.imm exitReasonCpuid)) t =
      some (t.withZf (s.vmcs vmcsExitReason == exitReasonCpuid), none) := by
    rw [← hr10]
    rfl
  have hstep := runCode_append target 194
    (.cmp .r10 (.imm exitReasonCpuid) :: .jne .normalPath :: .movImm .r10 benchKey ::
      .cmp .rcx (.reg .r10) :: .jne .normalPath :: fastPath) ht
  rw [runCode_branch host hreason rfl] at hstep
  rw [entry, List.cons_append, List.cons_append, runCode_branch host hcmp rfl, if_pos rfl]
  -- The second test is on the exit reason, the third on the whole key.
  cases hcpuid : s.vmcs vmcsExitReason == exitReasonCpuid with
  | false =>
    have hslow : ¬FastPath s := fun h => beq_eq_false_iff_ne.mp hcpuid h.1
    rw [hcpuid] at hstep
    rw [if_neg hslow]
    exact ⟨t.withZf false, 12, hstep, hgpr, { hsame with }⟩
  | true =>
    have hmov : exec host (.movImm .r10 benchKey) (t.withZf true) =
        some ((t.withZf true).set .r10 benchKey, none) := rfl
    have hkey : exec host (.cmp .rcx (.reg .r10)) ((t.withZf true).set .r10 benchKey) =
        some (((t.withZf true).set .r10 benchKey).withZf (s.gpr .rcx == benchKey), none) := by
      have hrcx : t.gpr .rcx = s.gpr .rcx := hgpr .rcx (by decide)
      rw [← hrcx]
      rfl
    rw [hcpuid, if_pos rfl, runCode_next hmov, runCode_branch host hkey rfl] at hstep
    refine ⟨((t.withZf true).set .r10 benchKey).withZf (s.gpr .rcx == benchKey), 9, ?_, ?_,
      { hsame with }⟩
    · refine hstep.trans ?_
      -- R10 holds the key by now, which is why it is left out of what is kept.
      by_cases hrcx : s.gpr .rcx = benchKey
      · have hfast : FastPath s := ⟨beq_iff_eq.mp hcpuid, hrcx⟩
        rw [if_pos (beq_iff_eq.mpr hrcx), if_pos hfast]
      · have hslow : ¬FastPath s := fun h => hrcx h.2
        rw [if_neg (fun h => hrcx (beq_iff_eq.mp h)), if_neg hslow]
    · intro r hr
      rw [withZf_gpr, set_gpr_of_ne _ _ hr]
      exact hgpr r hr

/-- An exit that is not one of the benchmark gets to
`normal_path_no_restore`. -/
theorem runCode_entry (hslow : ¬FastPath s) :
    ∃ u fuel, runCode (exec host) target 200 entry s =
      runCode (exec host) target (fuel + 150) normalPathNoRestore u ∧ Reached s u := by
  -- The quick test is on ECX alone. When it fails nothing has been pushed.
  by_cases hlow : (s.gpr .rcx).toNat % 2 ^ 32 = (0x424E4348 : UInt32).toNat
  · obtain ⟨t, fuel, hprobe, hgpr, hsame⟩ := runCode_probe host hlow
    obtain ⟨u, hu, hreached⟩ := reached_unprobed host (fun r hr _ => hgpr r hr) hsame
    have hpops : runCode (exec host) target (fuel + 180) normalPath t =
        runCode (exec host) target (fuel + 178) normalPathNoRestore u := by
      have hlength : fuel + 180 = 2 + (fuel + 178) := by omega
      rw [hlength]
      exact runCode_append _ _ _ hu
    rw [if_neg hslow] at hprobe
    exact ⟨u, fuel + 28, hprobe.trans hpops, hreached⟩
  · -- The lower half of RCX is not that of the key.
    have hcmp : exec host (.cmp32 .rcx 0x424E4348) s = some (s.withZf false, none) := by
      rw [exec, beq_eq_false_iff_ne.mpr hlow]
    refine ⟨s.withZf false, 48, ?_, rfl, rfl, rfl, rfl, rfl, fun _ _ => rfl⟩
    rw [entry, List.cons_append, List.cons_append, runCode_branch host hcmp rfl]
    rfl

/-! ### The way out -/

/-- The registers that are restored last. -/
def lastGprs : List Gpr := [.rax, .rcx, .rdx, .rbx]

/-- The guest goes on with what is on top of the stack in the last four
registers. -/
theorem runCode_resumeVm (fuel : Nat) (e : Cpu) :
    ∃ t, runCode (exec host) target (fuel + 6) resumeVm e = some (t, .vmresume) ∧
      t.gpr .rsp = e.gpr .rsp + UInt64.ofNat contextSize ∧
      (∀ r, r ≠ .rsp → t.gpr r = (loadGprs lastGprs e).gpr r) ∧ SameBesides e t := by
  -- The four registers that were needed until now are loaded last.
  have hloads := run_restoreGprs host lastGprs (by decide) e
  generalize hu : loadGprs lastGprs e = u at hloads
  have hrsp : u.gpr .rsp = e.gpr .rsp := by
    subst hu
    rfl
  have htail : runCode (exec host) target (fuel + 2)
      [.alu .add .rsp (.imm (UInt64.ofNat contextSize)), .vmresume, .int3] u =
      some ((u.set .rsp (u.gpr .rsp + UInt64.ofNat contextSize)).withZf
        (u.gpr .rsp + UInt64.ofNat contextSize == 0), .vmresume) := rfl
  -- Four loads before the ADD and the VMRESUME.
  have hlength : fuel + 6 = (lastGprs.map restoreGpr).length + (fuel + 2) := by
    show fuel + 6 = 4 + (fuel + 2)
    omega
  have hrun : runCode (exec host) target (fuel + 6) resumeVm e =
      runCode (exec host) target (fuel + 2)
        [.alu .add .rsp (.imm (UInt64.ofNat contextSize)), .vmresume, .int3] u := by
    rw [hlength]
    exact runCode_append _ _ _ hloads
  refine ⟨_, hrun.trans htail, ?_, ?_, ?_⟩
  · rw [withZf_gpr, set_gpr, Function.update_self, hrsp]
  · intro r hr
    rw [withZf_gpr, set_gpr_of_ne u _ hr]
  · subst hu
    constructor <;> rfl

/-- The offset that `update_tsc_offset` computes from a `tsc_data` and
the TSC. -/
def nextTscOffset (memory : UInt64 → UInt8) (address now : UInt64) : UInt64 :=
  loadWord memory (address + 0) - (now - (loadWord memory (address + 8) +
    loadWord memory (address + 24) - loadWord memory (address + 32) -
    loadWord memory (address + 16)))

/-- The block that writes the TSC offset. Only the last four registers
change besides the counter and the field. -/
theorem run_writeTscOffset (e : Cpu) :
    ∃ t, run (exec host) writeTscOffset e = some (t, none) ∧
      (∀ r, r ∉ lastGprs → t.gpr r = e.gpr r) ∧
      SameBesides { e with
        tsc := fun k => e.tsc (k + 1)
        memory := storeWord e.memory (e.gpr .rcx + 0)
          (nextTscOffset e.memory (e.gpr .rcx) (e.tsc 0))
        vmcs := Function.update e.vmcs vmcsCtrlTscOffset
          (nextTscOffset e.memory (e.gpr .rcx) (e.tsc 0)) } t := by
  -- `desired_tsc`
  have hdesired : ∃ u, run (exec host) [.load .rbx .rcx 8, .alu .add .rbx (.mem .rcx 24),
      .alu .sub .rbx (.mem .rcx 32), .alu .sub .rbx (.mem .rcx 16)] e = some (u, none) ∧
      u.gpr .rbx = loadWord e.memory (e.gpr .rcx + 8) + loadWord e.memory (e.gpr .rcx + 24) -
        loadWord e.memory (e.gpr .rcx + 32) - loadWord e.memory (e.gpr .rcx + 16) ∧
      (∀ r, r ≠ .rbx → u.gpr r = e.gpr r) ∧ SameBesides e u := by
    refine ⟨_, rfl, rfl, ?_, by constructor <;> rfl⟩
    intro r hr
    cases r <;> first | exact absurd rfl hr | rfl
  obtain ⟨u, hu, hrbx, hgpr, hsame⟩ := hdesired
  -- The final TSC
  obtain ⟨v, hv, hrax, hgpr', hsame'⟩ := run_readTsc host u
  -- The new offset
  have hwrite : ∃ t, run (exec host) [.alu .sub .rax (.reg .rbx), .load .rbx .rcx 0,
      .alu .sub .rbx (.reg .rax), .store .rcx 0 .rbx, .movImm .rax vmcsCtrlTscOffset,
      .vmwrite .rax .rbx] v = some (t, none) ∧ (∀ r, r ∉ lastGprs → t.gpr r = v.gpr r) ∧
      SameBesides { v with
        memory := storeWord v.memory (v.gpr .rcx + 0)
          (loadWord v.memory (v.gpr .rcx + 0) - (v.gpr .rax - v.gpr .rbx))
        vmcs := Function.update v.vmcs vmcsCtrlTscOffset
          (loadWord v.memory (v.gpr .rcx + 0) - (v.gpr .rax - v.gpr .rbx)) } t := by
    refine ⟨_, rfl, ?_, by constructor <;> rfl⟩
    intro r hr
    cases r <;> first | exact absurd (by decide) hr | rfl
  obtain ⟨t, ht, hgpr'', hsame''⟩ := hwrite
  refine ⟨t, (run_append _ hu).trans ((run_append _ hv).trans ht), ?_, ?_⟩
  · intro r hr
    simp only [lastGprs, List.mem_cons, not_or] at hr
    rw [hgpr'' r (by simp [lastGprs, hr]), hgpr' r hr.1 hr.2.2.1, hgpr r hr.2.2.2.1]
  · have hmemory : v.memory = e.memory := hsame'.memory.trans hsame.memory
    have hrcx : v.gpr .rcx = e.gpr .rcx := by
      rw [hgpr' .rcx (by decide) (by decide), hgpr .rcx (by decide)]
    have hnext : loadWord v.memory (v.gpr .rcx + 0) - (v.gpr .rax - v.gpr .rbx) =
        nextTscOffset e.memory (e.gpr .rcx) (e.tsc 0) := by
      rw [hmemory, hrcx, hrax, hsame.tsc, hgpr' .rbx (by decide) (by decide), hrbx]
      rfl
    rw [hnext, hmemory, hrcx] at hsame''
    exact
      { sys := hsame''.sys.trans (hsame'.sys.trans hsame.sys)
        xmm := hsame''.xmm.trans (hsame'.xmm.trans hsame.xmm)
        mxcsr := hsame''.mxcsr.trans (hsame'.mxcsr.trans hsame.mxcsr)
        cs := hsame''.cs.trans (hsame'.cs.trans hsame.cs)
        ss := hsame''.ss.trans (hsame'.ss.trans hsame.ss)
        fsBase := hsame''.fsBase.trans (hsame'.fsBase.trans hsame.fsBase)
        memory := hsame''.memory
        vmcs := hsame''.vmcs.trans (by
          show Function.update v.vmcs _ _ = Function.update e.vmcs _ _
          rw [hsame'.vmcs, hsame.vmcs])
        tsc := hsame''.tsc.trans (hsame'.tsc.trans (by
          show (fun k => u.tsc (k + 1)) = fun k => e.tsc (k + 1)
          rw [hsame.tsc])) }

/-! ### An exit -/

/-- The core at the call of the handler. -/
structure Called (s c : Cpu) : Prop where
  /-- The first argument is a `guest_context` with the guest's
  registers, -/
  context : loadContext c.memory (c.gpr .rcx) = contextOf s
  /-- and the second the vCPU. -/
  vcpu : c.gpr .rdx = s.fsBase
  rcx : c.gpr .rcx = s.gpr .rsp - UInt64.ofNat contextSize
  /-- Below the context are the handler's 32 bytes, and then an aligned
  stack. -/
  rsp : c.gpr .rsp = c.gpr .rcx - 0x20
  aligned : aligned (c.gpr .rsp) = true
  /-- Nothing but the context is written. -/
  memory : ∀ x, contextSize ≤ (x - c.gpr .rcx).toNat → c.memory x = s.memory x
  vmcs : c.vmcs = s.vmcs
  tsc : c.tsc = s.tsc

/-- The `tsc_offset` that a handler's answer points to is not in the
context. -/
def OffsetApart (d : Cpu) (base : UInt64) : Prop :=
  ∀ k < contextSize, 8 ≤ (base + UInt64.ofNat k - d.gpr .rax).toNat

/-- A context is what its bytes are. -/
theorem loadContext_congr {memory memory' : UInt64 → UInt8} {base : UInt64}
    (h : ∀ k < contextSize, memory' (base + UInt64.ofNat k) = memory (base + UInt64.ofNat k)) :
    loadContext memory' base = loadContext memory base := by
  -- Every part of the context is read from bytes below `contextSize`.
  have hbytes : ∀ offset n, offset + n ≤ contextSize →
      bytesAt memory' (base + UInt64.ofNat offset) n =
        bytesAt memory (base + UInt64.ofNat offset) n := by
    intro offset n hn
    refine List.map_congr_left fun k hk => ?_
    have hk := h (offset + k) (by have := List.mem_range.mp hk; omega)
    rwa [UInt64.ofNat_add, ← UInt64.add_assoc] at hk
  rw [loadContext, loadContext, Context.mk.injEq]
  refine ⟨funext fun r => ?_, funext fun c => ?_, funext fun x => ?_, ?_⟩
  · by_cases hr : r = .rsp
    · rw [if_pos hr, if_pos hr]
    · have hoffset : gprOffset r + 8 ≤ contextSize := by cases r <;> decide
      rw [if_neg hr, if_neg hr, offsetOf_gpr hr, loadWord, loadWord, hbytes _ _ hoffset]
  · have hoffset : sysOffset c + 8 ≤ contextSize := by cases c <;> decide
    rw [offsetOf_sys, loadWord, loadWord, hbytes _ _ hoffset]
  · have hoffset : xmmOffset x + 16 ≤ contextSize := by
      unfold xmmOffset contextSize
      omega
    rw [offsetOf_xmm, hbytes _ _ hoffset]
  · rw [offsetOf_mxcsr, hbytes _ _ (by decide)]

/-- The probe's words are in the frame. -/
theorem outside_frame {x rsp : UInt64}
    (hx : contextSize ≤ (x - (rsp - UInt64.ofNat contextSize)).toNat) :
    16 ≤ (x - (rsp - 16)).toNat := by
  have hprobe : rsp - 16 = rsp - UInt64.ofNat contextSize + UInt64.ofNat 432 := by
    simp only [UInt64.sub_eq_add_neg, UInt64.add_assoc]
    rfl
  rw [contextSize] at hx
  rw [hprobe, contextSize, toNat_sub_add _ (by omega)]
  omega

/-- The core that the handler is called in. -/
theorem called_of_reached {u : Cpu} (haligned : aligned (s.gpr .rsp) = true)
    (hreached : Reached s u) :
    ∃ c, run (exec host) saveContext u = some (c, none) ∧ Called s c := by
  have hrsp : u.gpr .rsp = s.gpr .rsp := by rw [hreached.gpr]
  obtain ⟨c, hrun, hrcx, hrdx, hrspc, hmemory, hvmcs, htsc⟩ :=
    run_saveContext host (s := u) (hrsp ▸ haligned)
  rw [hrsp] at hrcx hrspc hmemory
  refine ⟨c, hrun, ?_⟩
  -- RCX points to the frame, RDX to the `vcpu`, and below the frame lies the
  -- shadow space of the call.
  constructor
  case context => rw [hmemory, hrcx, loadContext_saved, hreached.context]
  case vcpu => rw [hrdx, hreached.fsBase]
  case rcx => exact hrcx
  case rsp => rw [hrspc, hrcx]
  -- The frame is a multiple of 16 long and so is the shadow space.
  case aligned =>
    rw [hrspc]
    unfold aligned at haligned ⊢
    rw [beq_iff_eq] at haligned ⊢
    have hlt := (s.gpr .rsp).toNat_lt
    have hshadow : (0x20 : UInt64).toNat = 32 := rfl
    rw [UInt64.toNat_sub, UInt64.toNat_sub, UInt64.toNat_ofNat', contextSize, hshadow]
    omega
  case memory =>
    intro x hx
    rw [hrcx] at hx
    rw [hmemory, writeSlots_outside (contextSlots_within u) hx]
    exact hreached.memory x (outside_frame hx)
  case vmcs => rw [hvmcs, hreached.vmcs]
  case tsc => rw [htsc, hreached.tsc]

/-- What is left at VMRESUME when the handler has returned with the core
in state `d`. -/
structure Resumed (d t : Cpu) (base : UInt64) : Prop where
  context : contextOf t = loadContext d.memory base
  rsp : t.gpr .rsp = base + UInt64.ofNat contextSize
  /-- Without an answer from the handler the TSC offset stays. -/
  plain : d.gpr .rax = 0 → t.memory = d.memory ∧ t.vmcs = d.vmcs
  /-- With one it is updated, in the structure and in the VMCS. -/
  hidden : d.gpr .rax ≠ 0 →
    t.memory = storeWord d.memory (d.gpr .rax + 0)
      (nextTscOffset d.memory (d.gpr .rax) (d.tsc 0)) ∧
    t.vmcs = Function.update d.vmcs vmcsCtrlTscOffset
      (nextTscOffset d.memory (d.gpr .rax) (d.tsc 0))

/-- The registers at VMRESUME are the context's, when those that are
restored before the branch have been kept and the last four are loaded
from the same context. -/
theorem contextOf_resumed {d e f t : Cpu} {base : UInt64} (hrestored : Restored d e base)
    (hgpr : ∀ r, r ∉ lastGprs → f.gpr r = e.gpr r)
    (hframe : loadContext f.memory base = loadContext d.memory base)
    (hsame : f.sys = e.sys ∧ f.xmm = e.xmm ∧ f.mxcsr = e.mxcsr)
    (hlast : ∀ r, r ≠ .rsp → t.gpr r = (loadGprs lastGprs f).gpr r) (hf : SameBesides f t) :
    contextOf t = loadContext d.memory base := by
  have hrsp : f.gpr .rsp = base := (hgpr .rsp (by decide)).trans hrestored.rsp
  obtain ⟨hsys, hxmm, hmxcsr⟩ := hsame
  -- A register is loaded either before the branch or with the last four.
  have hall : ∀ r, (if r = .rsp then 0 else t.gpr r) = (loadContext d.memory base).gpr r := by
    intro r
    by_cases hr : r = .rsp
    · rw [if_pos hr, hr]
      rfl
    · rw [if_neg hr, hlast r hr, loadGprs, hrsp, hframe]
      by_cases hmem : r ∈ lastGprs
      · exact if_pos hmem
      · have hearly : r ∈ restoredGprs := by
          cases r <;> first | exact absurd rfl hr | exact absurd (by decide) hmem | decide
        simp only [if_neg hmem]
        rw [hgpr r hmem, hrestored.gpr r hearly]
  rw [contextOf, funext hall, hf.sys, hf.xmm, hf.mxcsr, hsys, hxmm, hmxcsr, hrestored.sys,
    hrestored.xmm, hrestored.mxcsr]

/-- From the handler's return to VMRESUME. -/
theorem runCode_return {d : Cpu} {base : UInt64} (fuel : Nat) (hrsp : d.gpr .rsp = base - 0x20)
    (haligned : aligned base = true) (hapart : d.gpr .rax ≠ 0 → OffsetApart d base) :
    ∃ t, runCode (exec host) target (fuel + 80)
        (restoreContext ++ [.jne .updateTscOffset] ++ resumeVm) d = some (t, .vmresume) ∧
      Resumed d t base := by
  obtain ⟨e, hrun, hrestored⟩ := run_restoreContext host hrsp haligned
  have hlength : fuel + 80 = restoreContext.length + (fuel + 35) := by
    show fuel + 80 = 45 + (fuel + 35)
    omega
  have hbranch : runCode (exec host) target (fuel + 80)
      (restoreContext ++ [.jne .updateTscOffset] ++ resumeVm) d =
      runCode (exec host) target (fuel + 35) (.jne .updateTscOffset :: resumeVm) e := by
    rw [hlength, List.append_assoc]
    exact runCode_append _ _ _ hrun
  rw [hbranch]
  by_cases hanswer : d.gpr .rax = 0
  · -- There is no `tsc_data`.
    have hjne : exec host (.jne .updateTscOffset) e = some (e, none) := by
      rw [exec, hrestored.zf, hanswer]
      rfl
    obtain ⟨t, ht, hrspt, hlast, hsame⟩ := runCode_resumeVm host (fuel + 28) e
    refine ⟨t, (runCode_next hjne).trans ht, ?_, ?_, ?_, fun h => absurd hanswer h⟩
    · exact contextOf_resumed hrestored (fun _ _ => rfl) (by rw [hrestored.memory])
        ⟨rfl, rfl, rfl⟩ hlast hsame
    · rw [hrspt, hrestored.rsp]
    · exact fun _ => ⟨hsame.memory.trans hrestored.memory, hsame.vmcs.trans hrestored.vmcs⟩
  · have hjne : exec host (.jne .updateTscOffset) e =
        some (e, some (.jump .updateTscOffset)) := by
      rw [exec, hrestored.zf, beq_eq_false_iff_ne.mpr hanswer]
      rfl
    obtain ⟨f, hf, hgpr, hwritten⟩ := run_writeTscOffset host e
    obtain ⟨t, ht, hrspt, hlast, hsame⟩ := runCode_resumeVm host (fuel + 13) f
    have hupdate : runCode (exec host) target (fuel + 34) updateTscOffset e =
        runCode (exec host) target (fuel + 19) resumeVm f := by
      have hlength : fuel + 34 = writeTscOffset.length + (fuel + 19) := by
        show fuel + 34 = 15 + (fuel + 19)
        omega
      rw [hlength]
      exact runCode_append _ _ _ hf
    have hmemory : f.memory = storeWord d.memory (d.gpr .rax + 0)
        (nextTscOffset d.memory (d.gpr .rax) (d.tsc 0)) := by
      rw [hwritten.memory, hrestored.memory, hrestored.rcx, hrestored.tsc]
    -- The offset is stored outside the frame, so the last four are still there.
    have hframe : loadContext f.memory base = loadContext d.memory base := by
      refine loadContext_congr fun k hk => ?_
      rw [hmemory, storeWord, store_outside]
      rw [length_leBytes, UInt64.add_zero]
      exact hapart hanswer k hk
    refine ⟨t, (runCode_jump hjne rfl).trans (hupdate.trans ht), ?_, ?_,
      fun h => absurd h hanswer, fun _ => ⟨hsame.memory.trans hmemory, ?_⟩⟩
    · exact contextOf_resumed hrestored hgpr hframe
        ⟨hwritten.sys, hwritten.xmm, hwritten.mxcsr⟩ hlast hsame
    · rw [hrspt, hgpr .rsp (by decide), hrestored.rsp]
    · rw [hsame.vmcs, hwritten.vmcs, hrestored.memory, hrestored.rcx, hrestored.tsc,
        hrestored.vmcs]

/-- An exit that is not one of the benchmark, from end to end. -/
theorem vmexitStub_slowPath (host : Host Label) (haligned : aligned (s.gpr .rsp) = true)
    (hslow : ¬FastPath s) :
    ∃ c, Called s c ∧ ∀ d, host.callee c = some d → d.gpr .rsp = c.gpr .rsp →
      (d.gpr .rax ≠ 0 → OffsetApart d (c.gpr .rcx)) →
        ∃ t, vmexitStub host s = some (t, .vmresume) ∧ Resumed d t (c.gpr .rcx) ∧
          t.gpr .rsp = s.gpr .rsp := by
  obtain ⟨u, fuel, hentry, hreached⟩ := runCode_entry host hslow
  obtain ⟨c, hrun, hcalled⟩ := called_of_reached host haligned hreached
  refine ⟨c, hcalled, fun d hd hrsp hapart => ?_⟩
  -- The call was made with RSP aligned, and the frame begins 0x20 above it.
  have hbase : aligned (c.gpr .rcx) = true := by
    have hcall := hcalled.aligned
    rw [hcalled.rsp] at hcall
    unfold aligned at hcall ⊢
    rw [beq_iff_eq] at hcall ⊢
    have hshadow : (0x20 : UInt64).toNat = 32 := rfl
    have hlt := (c.gpr .rcx).toNat_lt
    rw [UInt64.toNat_sub, hshadow] at hcall
    omega
  obtain ⟨t, ht, hresumed⟩ := runCode_return host (fuel + 19)
    (hrsp.trans hcalled.rsp) hbase hapart
  refine ⟨t, ?_, hresumed, ?_⟩
  · -- Fifty instructions save the context.
    have hlength : fuel + 150 = saveContext.length + (fuel + 100) := by
      show fuel + 150 = 50 + (fuel + 100)
      omega
    have hsave : runCode (exec host) target (fuel + 150) normalPathNoRestore u =
        runCode (exec host) target (fuel + 100)
          (.call :: (restoreContext ++ [.jne .updateTscOffset] ++ resumeVm)) c := by
      rw [hlength, normalPathNoRestore, List.append_assoc, List.append_assoc, List.append_assoc]
      exact runCode_append _ _ _ hrun
    have hcall : exec host .call c = some (d, none) := by
      rw [exec, hd]
      rfl
    rw [vmexitStub, hentry, hsave, runCode_next hcall]
    exact ht
  · rw [hresumed.rsp, hcalled.rcx, UInt64.sub_add_cancel]

/-! ### An exit of the benchmark -/

/-- What is left at VMRESUME on the fast path. -/
structure Replied (s t : Cpu) : Prop where
  /-- R9 is the TSC, RAX is lost, and the guest has its other registers. -/
  r9 : t.gpr .r9 = s.tsc 0
  rax : t.gpr .rax = vmcsCtrlTscOffset
  gpr : ∀ r, r ≠ .rax → r ≠ .r9 → t.gpr r = s.gpr r
  sys : t.sys = s.sys
  xmm : t.xmm = s.xmm
  mxcsr : t.mxcsr = s.mxcsr
  /-- The guest goes on at R8, and the TSC offset is no longer zero. -/
  vmcs : t.vmcs = Function.update (Function.update s.vmcs vmcsGuestRip (s.gpr .r8))
    vmcsCtrlTscOffset (0 - 1)
  tsc : t.tsc = fun k => s.tsc (k + 1)
  memory : ∀ x, 16 ≤ (x - (s.gpr .rsp - 16)).toNat → t.memory x = s.memory x

/-- The second word below RSP is one of the two that the probe has used. -/
theorem outside_push {x rsp : UInt64} (hx : 16 ≤ (x - (rsp - 16)).toNat) :
    8 ≤ (x - (rsp - 8)).toNat := by
  have hsplit : rsp - 8 = rsp - 16 + UInt64.ofNat 8 := by
    simp only [UInt64.sub_eq_add_neg, UInt64.add_assoc]
    rfl
  rw [hsplit, toNat_sub_add _ (by omega)]
  omega

/-- The fast path answers the benchmark without the handler. -/
theorem vmexitStub_fastPath (host : Host Label) (hfast : FastPath s) :
    ∃ t, vmexitStub host s = some (t, .vmresume) ∧ Replied s t := by
  have hlow : (s.gpr .rcx).toNat % 2 ^ 32 = (0x424E4348 : UInt32).toNat := by
    rw [hfast.2]
    rfl
  obtain ⟨a, fuel, hprobe, hgpra, hsamea⟩ := runCode_probe host hlow
  rw [if_pos hfast] at hprobe
  -- RIP, and the probe's words are popped.
  generalize hs' : { s with vmcs := Function.update s.vmcs vmcsGuestRip (s.gpr .r8) } = s'
  have hrip : ∃ b, run (exec host) [.movImm .r11 vmcsGuestRip, .vmwrite .r11 .r8] a =
      some (b, none) ∧ (∀ r, r ≠ .r10 → r ≠ .r11 → b.gpr r = (probed s').gpr r) ∧
        SameBesides (probed s') b := by
    refine ⟨_, rfl, ?_, ?_⟩
    · intro r hr10 hr11
      rw [withZf_gpr]
      show (a.set .r11 vmcsGuestRip).gpr r = _
      rw [set_gpr_of_ne _ _ hr11, hgpra r hr10]
      subst hs'
      rfl
    · have hr8 : a.gpr .r8 = s.gpr .r8 := hgpra .r8 (by decide)
      have hvmcs : Function.update a.vmcs vmcsGuestRip (a.gpr .r8) = (probed s').vmcs := by
        rw [hsamea.vmcs, hr8]
        subst hs'
        rfl
      subst hs'
      exact { hsamea with vmcs := hvmcs }
  obtain ⟨b, hrunb, hgprb, hsameb⟩ := hrip
  obtain ⟨c, hrunc, hc⟩ := reached_unprobed host hgprb hsameb
  -- RDX is kept on the stack while the TSC is read.
  have hpush : run (exec host) [.push .rdx] c = some (c.pushWord (c.gpr .rdx), none) := rfl
  obtain ⟨d, hrund, hrax, hgprd, hsamed⟩ := run_readTsc host (c.pushWord (c.gpr .rdx))
  have htail : ∃ e, run (exec host) [.mov .r9 .rax, .movImm .rax vmcsCtrlTscOffset,
      .alu .xor .rdx (.reg .rdx), .alu .sub .rdx (.imm 1), .vmwrite .rax .rdx, .pop .rdx] d =
        some (e, none) ∧ e.gpr .r9 = d.gpr .rax ∧ e.gpr .rax = vmcsCtrlTscOffset ∧
      e.gpr .rdx = loadWord d.memory (d.gpr .rsp) ∧ e.gpr .rsp = d.gpr .rsp + 8 ∧
      (∀ r, r ∉ [Gpr.r9, .rax, .rdx, .rsp] → e.gpr r = d.gpr r) ∧
      SameBesides { d with
        vmcs := Function.update d.vmcs vmcsCtrlTscOffset ((d.gpr .rdx ^^^ d.gpr .rdx) - 1) } e := by
    refine ⟨_, rfl, rfl, rfl, rfl, rfl, ?_, by constructor <;> rfl⟩
    intro r hr
    cases r <;> first | exact absurd (by decide) hr | rfl
  obtain ⟨e, hrune, hr9e, hraxe, hrdxe, hrspe, hgpre, hsamee⟩ := htail
  have hrun : run (exec host) (fastPath.dropLast.dropLast) a = some (e, none) :=
    (run_append _ hrunb).trans ((run_append _ hrunc).trans ((run_append _ hpush).trans
      ((run_append _ hrund).trans hrune)))
  have hresume : runCode (exec host) target (fuel + 180) fastPath a = some (e, .vmresume) := by
    have hlength : fuel + 180 = fastPath.dropLast.dropLast.length + (fuel + 164) := by
      show fuel + 180 = 16 + (fuel + 164)
      omega
    rw [hlength]
    exact (runCode_append _ _ [.vmresume, .int3] hrun).trans rfl
  refine ⟨e, hprobe.trans hresume, ?_⟩
  have hgprc : c.gpr = s.gpr := by
    rw [hc.gpr, ← hs']
  have hrspd : d.gpr .rsp = s.gpr .rsp - 8 := by
    rw [hgprd .rsp (by decide) (by decide), ← hgprc]
    rfl
  have hmemoryd : d.memory = storeWord c.memory (s.gpr .rsp - 8) (s.gpr .rdx) := by
    rw [hsamed.memory, ← hgprc]
    rfl
  have hcontext := hc.context
  rw [contextOf, contextOf, Context.mk.injEq] at hcontext
  obtain ⟨-, hsysc, hxmmc, hmxcsrc⟩ := hcontext
  constructor
  case r9 =>
    rw [hr9e, hrax]
    show c.tsc 0 = s.tsc 0
    rw [hc.tsc, ← hs']
  case rax => exact hraxe
  case gpr =>
    intro r hrax hr9
    by_cases hrdx : r = .rdx
    · rw [hrdx, hrdxe, hmemoryd, hrspd, loadWord_storeWord]
    · by_cases hrsp : r = .rsp
      · rw [hrsp, hrspe, hrspd, UInt64.sub_add_cancel]
      · rw [hgpre r (by simp [hrax, hr9, hrdx, hrsp]), hgprd r hrax hrdx, ← hgprc]
        exact set_gpr_of_ne c _ hrsp
  case sys =>
    rw [hsamee.sys]
    exact hsamed.sys.trans (hsysc.trans (by rw [← hs']))
  case xmm =>
    rw [hsamee.xmm]
    exact hsamed.xmm.trans (hxmmc.trans (by rw [← hs']))
  case mxcsr =>
    rw [hsamee.mxcsr]
    exact hsamed.mxcsr.trans (hmxcsrc.trans (by rw [← hs']))
  case vmcs =>
    rw [hsamee.vmcs, UInt64.xor_self, hsamed.vmcs]
    show Function.update c.vmcs _ _ = _
    rw [hc.vmcs, ← hs']
  case tsc =>
    rw [hsamee.tsc]
    refine hsamed.tsc.trans ?_
    show (fun k => c.tsc (k + 1)) = _
    rw [hc.tsc, ← hs']
  case memory =>
    intro x hx
    have hpushed := outside_push hx
    rw [hsamee.memory, hmemoryd, storeWord, store_outside (by rwa [length_leBytes])]
    rw [← hs'] at hc
    exact hc.memory x hx

/-- An exit of the benchmark never gets to the handler, and its guest
goes on at R8. On every other exit the handler is given the guest's
registers and a stack, and the guest goes on with the registers of the
context as the handler has left it. It is assumed that the handler keeps
RSP, and that the `tsc_data` it answers with is not on the stack. -/
theorem vmexitStub_context (host : Host Label) (s : Cpu)
    (haligned : aligned (s.gpr .rsp) = true) :
    (FastPath s → ∃ t, vmexitStub host s = some (t, .vmresume) ∧ Replied s t) ∧
      (¬FastPath s → ∃ c, Called s c ∧ ∀ d, host.callee c = some d → d.gpr .rsp = c.gpr .rsp →
        (d.gpr .rax ≠ 0 → OffsetApart d (c.gpr .rcx)) →
          ∃ t, vmexitStub host s = some (t, .vmresume) ∧ Resumed d t (c.gpr .rcx) ∧
            t.gpr .rsp = s.gpr .rsp) :=
  ⟨vmexitStub_fastPath host, vmexitStub_slowPath host haligned⟩

/-- A core that has stopped at a CPUID, with the lower half of the key
in RCX. -/
def stoppedCpu : Cpu :=
  { sampleCpu.set .rcx 0x424E4348 with
    vmcs := fun field => if field = vmcsExitReason then exitReasonCpuid else 0 }

/-- A handler that answers with a pointer, or with none, and does
nothing else. -/
def sampleHost (answer : UInt64) : Host Label where
  addressOf _ := 0
  callee c := some (c.set .rax answer)
  attempt _ s := (s, none)

/-- The sample comes back with the context it had. -/
theorem vmexitStub_context_kept :
    ∃ t, vmexitStub (sampleHost 0) stoppedCpu = some (t, .vmresume) ∧
      contextOf t = contextOf stoppedCpu := by
  obtain ⟨c, hcalled, hreturn⟩ := (vmexitStub_context (sampleHost 0) stoppedCpu (by decide)).2
    (by decide)
  obtain ⟨t, ht, hresumed, -⟩ := hreturn (c.set .rax 0) rfl rfl fun h => absurd rfl h
  exact ⟨t, ht, hresumed.context.trans hcalled.context⟩

/-! ### The TSC offset -/

/-- The TSC fields of a vCPU are those of the core and of the `tsc_data`
at `address`. -/
structure Tracks (address : UInt64) (v : Stealth.TscVcpu) (s : Cpu) : Prop where
  tscData : loadTscData s.memory address = v.tscData
  vmcsTscOffset : (s.vmcs vmcsCtrlTscOffset).toBitVec = v.vmcsTscOffset

/-- A core that has stopped for an exit. -/
structure Stopped (exit : Stealth.VmExit) (s : Cpu) : Prop where
  reason : s.vmcs vmcsExitReason = exitReasonCpuid ↔ exit.reason = .cpuid
  rcx : (s.gpr .rcx).toBitVec = exit.rcx

/-- The handler has returned what `Stealth.handler` does. -/
structure Answered (address : UInt64) (v : Stealth.TscVcpu) (exit : Stealth.VmExit) (d : Cpu) :
    Prop where
  rax : d.gpr .rax = if (Stealth.handler v exit).2 then address else 0
  tracks : Tracks address (Stealth.handler v exit).1 d
  finalTsc : (d.tsc 0).toBitVec = BitVec.ofNat 64 exit.finalTsc

/-- The stub takes the fast path for the exits that the model says. -/
theorem fastPath_iff {exit : Stealth.VmExit} (hstopped : Stopped exit s) :
    FastPath s ↔ exit.fastPath = true := by
  have hkey : s.gpr .rcx = benchKey ↔ exit.rcx = Stealth.benchKey := by
    rw [← hstopped.rcx, ← UInt64.toBitVec_inj]
    rfl
  rw [FastPath, hstopped.reason, hkey, Stealth.VmExit.fastPath, Bool.and_eq_true, beq_iff_eq,
    beq_iff_eq]

/-- The TSC data depends on its 40 bytes only. -/
theorem loadTscData_congr {memory memory' : UInt64 → UInt8} {address : UInt64}
    (h : ∀ k < 40, memory' (address + UInt64.ofNat k) = memory (address + UInt64.ofNat k)) :
    loadTscData memory' address = loadTscData memory address := by
  -- `tsc_data` is five words, each of them inside the 40 bytes.
  have hword : ∀ offset, offset + 8 ≤ 40 →
      loadWord memory' (address + UInt64.ofNat offset) =
        loadWord memory (address + UInt64.ofNat offset) := by
    intro offset hoffset
    have hwords : words memory' (address + UInt64.ofNat offset) 1 =
        words memory (address + UInt64.ofNat offset) 1 := words_congr fun k hk => by
      rw [UInt64.add_assoc, ← UInt64.ofNat_add]
      exact h (offset + k) (by omega)
    simpa only [words, List.cons.injEq, and_true] using hwords
  have hfirst : loadWord memory' address = loadWord memory address := by
    have hzero : address + UInt64.ofNat 0 = address := UInt64.add_zero address
    have hfirst := hword 0 (by decide)
    rwa [hzero] at hfirst
  rw [loadTscData, loadTscData, hfirst]
  simp only [Stealth.TscData.mk.injEq, UInt64.toBitVec_inj, true_and]
  exact ⟨hword 8 (by decide), hword 16 (by decide), hword 24 (by decide), hword 32 (by decide)⟩

/-- The update of the offset in the structure is that of
`Stealth.updateTscOffset`. -/
theorem tracks_updated {address : UInt64} {v : Stealth.TscVcpu} {finalTsc : BitVec 64} {d t : Cpu}
    (htracks : Tracks address v d) (hfinal : (d.tsc 0).toBitVec = finalTsc)
    (hmemory : t.memory = storeWord d.memory (address + 0)
      (nextTscOffset d.memory address (d.tsc 0)))
    (hvmcs : t.vmcs = Function.update d.vmcs vmcsCtrlTscOffset
      (nextTscOffset d.memory address (d.tsc 0))) :
    Tracks address (Stealth.updateTscOffset v finalTsc) t := by
  have hnext : (nextTscOffset d.memory address (d.tsc 0)).toBitVec =
      (Stealth.updateTscOffset v finalTsc).tscData.tscOffset := by
    simp only [nextTscOffset, Stealth.updateTscOffset, ← htracks.tscData, loadTscData,
      UInt64.toBitVec_sub, UInt64.toBitVec_add, UInt64.add_zero, hfinal]
  -- Only the first word is stored, and the others are 8 bytes or more above it.
  have hother : ∀ offset, 8 ≤ offset → offset + 8 ≤ 40 →
      loadWord t.memory (address + UInt64.ofNat offset) =
        loadWord d.memory (address + UInt64.ofNat offset) := by
    intro offset hlow hhigh
    rw [hmemory]
    exact loadWord_storeWord_apart d.memory address _ (p := 0) (by omega) (by decide)
      (Or.inr (by omega))
  constructor
  · have hdata := htracks.tscData
    have hoffset : loadWord t.memory address = nextTscOffset d.memory address (d.tsc 0) := by
      rw [hmemory, UInt64.add_zero, loadWord_storeWord]
    have hstored : loadWord t.memory (address + 8) = loadWord d.memory (address + 8) :=
      hother 8 (by decide) (by decide)
    have hexit : loadWord t.memory (address + 16) = loadWord d.memory (address + 16) :=
      hother 16 (by decide) (by decide)
    have hoverhead : loadWord t.memory (address + 24) = loadWord d.memory (address + 24) :=
      hother 24 (by decide) (by decide)
    have hentry : loadWord t.memory (address + 32) = loadWord d.memory (address + 32) :=
      hother 32 (by decide) (by decide)
    rw [loadTscData, hoffset, hstored, hexit, hoverhead, hentry, hnext]
    show _ = { v.tscData with
      tscOffset := (Stealth.updateTscOffset v finalTsc).tscData.tscOffset }
    rw [← hdata]
    rfl
  · rw [hvmcs, Function.update_self, hnext]
    rfl

/-- The stub and the handler keep the TSC offset as `Stealth.vmexitStub`
has it, from exit to exit: if the core tracks a vCPU before an exit and
the handler does to the vCPU what `Stealth.handler` does, the core
tracks the vCPU that `Stealth.vmexitStub` makes of it. It is assumed
that the `tsc_data` is not where the stub puts its context. -/
theorem vmexitStub_refines (host : Host Label) {address : UInt64} {v : Stealth.TscVcpu}
    {exit : Stealth.VmExit} (haligned : aligned (s.gpr .rsp) = true) (haddress : address ≠ 0)
    (hapart : ∀ k < 40, contextSize ≤
      (address + UInt64.ofNat k - (s.gpr .rsp - UInt64.ofNat contextSize)).toNat)
    (htracks : Tracks address v s) (hstopped : Stopped exit s)
    (hcallee : ∀ c, Called s c → Tracks address v c →
      ∃ d, host.callee c = some d ∧ d.gpr .rsp = c.gpr .rsp ∧ Answered address v exit d) :
    ∃ t, vmexitStub host s = some (t, .vmresume) ∧
      Tracks address (Stealth.vmexitStub v exit) t := by
  by_cases hfast : FastPath s
  · obtain ⟨t, ht, hreplied⟩ := vmexitStub_fastPath host hfast
    refine ⟨t, ht, ?_⟩
    rw [Stealth.vmexitStub, if_pos ((fastPath_iff hstopped).mp hfast)]
    constructor
    · rw [loadTscData_congr fun k hk => hreplied.memory _ (outside_frame (hapart k hk))]
      exact htracks.tscData
    · rw [hreplied.vmcs, Function.update_self]
      rfl
  · obtain ⟨c, hcalled, hreturn⟩ := vmexitStub_slowPath host haligned hfast
    -- The `tsc_data` is outside the context, so the handler finds it as it was.
    have hsaved : Tracks address v c := by
      constructor
      · rw [loadTscData_congr fun k hk => hcalled.memory _ (hcalled.rcx ▸ hapart k hk)]
        exact htracks.tscData
      · rw [hcalled.vmcs, htracks.vmcsTscOffset]
    obtain ⟨d, hd, hrsp, hanswered⟩ := hcallee c hcalled hsaved
    have hoffset : d.gpr .rax ≠ 0 → OffsetApart d (c.gpr .rcx) := by
      intro hne k hk
      have hrax : d.gpr .rax = address := by
        rw [hanswered.rax] at hne ⊢
        split at hne
        · next hhide => rw [if_pos hhide]
        · exact absurd rfl hne
      by_contra hin
      generalize hj : c.gpr .rcx + UInt64.ofNat k - d.gpr .rax = j at hin
      -- A byte of both would be one of the context.
      have hbyte : address + UInt64.ofNat j.toNat = c.gpr .rcx + UInt64.ofNat k := by
        rw [← hj, hrax, UInt64.ofNat_toNat, UInt64.add_comm, UInt64.sub_add_cancel]
      have houtside := hapart j.toNat (by omega)
      rw [hbyte, ← hcalled.rcx, UInt64.add_comm, UInt64.add_sub_cancel,
        UInt64.toNat_ofNat_of_lt' (Nat.lt_trans hk (by decide))] at houtside
      omega
    obtain ⟨t, ht, hresumed, -⟩ := hreturn d hd hrsp hoffset
    refine ⟨t, ht, ?_⟩
    have hslow : exit.fastPath = false := by
      rw [← Bool.not_eq_true, ← fastPath_iff hstopped]
      exact hfast
    rw [Stealth.vmexitStub, hslow]
    have hrax := hanswered.rax
    have htracks := hanswered.tracks
    rcases hhandler : Stealth.handler v exit with ⟨v', hide⟩
    rw [hhandler] at hrax htracks
    cases hide with
    | false =>
      obtain ⟨hmemory, hvmcs⟩ := hresumed.plain hrax
      show Tracks address v' t
      exact ⟨by rw [hmemory, htracks.tscData], by rw [hvmcs, htracks.vmcsTscOffset]⟩
    | true =>
      have hrax : d.gpr .rax = address := hrax
      obtain ⟨hmemory, hvmcs⟩ := hresumed.hidden (hrax ▸ haddress)
      rw [hrax] at hmemory hvmcs
      exact tracks_updated htracks hanswered.finalTsc hmemory hvmcs

/-- A vCPU whose benchmark is done, and nothing measured. -/
def sampleVcpu : Stealth.TscVcpu := ⟨⟨0, 0, 0, 0, 0⟩, true, false, 0⟩

/-- An exit by CPUID, 500 cycles long. -/
def sampleExit : Stealth.VmExit := ⟨.cpuid, 0x424E4348, 0, 0, 0, 500, 500⟩

/-- An ordinary CPUID on the sample. -/
theorem vmexitStub_refines_cpuid :
    ∃ t, vmexitStub (sampleHost 0x20000) stoppedCpu = some (t, .vmresume) ∧
      Tracks 0x20000 (Stealth.vmexitStub sampleVcpu sampleExit) t := by
  have hbench : Stealth.handler sampleVcpu sampleExit = (⟨⟨0, 0, 0, 0, 0⟩, true, true, 0⟩, true) :=
    by decide
  refine vmexitStub_refines (v := sampleVcpu) (sampleHost 0x20000) (by decide) (by decide) ?_ ?_
    ⟨by decide, by decide⟩ ?_
  · decide +kernel
  · exact ⟨by decide, by decide⟩
  · intro c hcalled htracks
    refine ⟨c.set .rax 0x20000, rfl, rfl, ?_, ?_, ?_⟩
    · rw [hbench]
      rfl
    · rw [hbench]
      exact ⟨htracks.tscData, htracks.vmcsTscOffset⟩
    · show (c.tsc 0).toBitVec = _
      rw [hcalled.tsc]
      rfl

end Revhv.VmexitStub
