import Mathlib.Data.BitVec
import Mathlib.Tactic.LinearCombination
import Revhv.Km.Stealth

/-!
# `Revhv.Proofs.TscOffset`: the two TSC offsets

Every path through the exit stub writes both copies of the offset or
neither, but for the fast path of the benchmark. Its dummy VMWRITE
stores minus one in the VMCS and leaves `tsc_offset` alone.

* `TscInv`: the two copies agree, and they hide a time that has passed.
* `offsets_agree`: the copies agree at every VM entry of a run without
  such an exit, and the TSC the guest reads never decreases in it,
  wherever between a VM entry and the next exit it is read.
* `fastPath_diverges`: a run in which the fast path sets the copies
  apart and the guest's TSC goes back at the next exit.
-/

set_option autoImplicit false

namespace Revhv.Stealth

open Revhv.Lib

/-! ### The invariant -/

/-- The time `hidden` is hidden from the guest, in both copies of the
offset. -/
structure TscInv (hidden : Nat) (s : TscState) : Prop where
  agree : s.vcpu.vmcsTscOffset = s.vcpu.tscData.tscOffset
  offset : s.vcpu.tscData.tscOffset = -BitVec.ofNat 64 hidden
  hidden_le : hidden ≤ s.now
  now_lt : s.now < 2 ^ 64

/-- The guest reads the hardware TSC less the hidden time, as long as it
runs. -/
theorem TscInv.guestTscAt {hidden : Nat} {s : TscState} (h : TscInv hidden s) {tsc : Nat}
    (hnow : s.now ≤ tsc) (hlt : tsc < 2 ^ 64) : s.guestTscAt tsc = tsc - hidden := by
  have hle := h.hidden_le
  unfold TscState.guestTscAt
  rw [h.agree, h.offset, BitVec.toNat_add, BitVec.toNat_neg, BitVec.toNat_ofNat,
    BitVec.toNat_ofNat]
  omega

/-- At the launch, and after a re-sync, both copies of the offset are 0. -/
theorem tscInv_initial (tscData : TscData) (benchCompleted preemptionTimerEnabled : Bool)
    (tsc : BitVec 64) :
    TscInv 0 (TscState.initial tscData benchCompleted preemptionTimerEnabled tsc) :=
  ⟨rfl, rfl, Nat.zero_le _, tsc.isLt⟩

/-! ### One exit -/

/-- The exit does not set the offsets apart: it takes the fast path only
if minus one is the offset anyway. -/
def KeepsOffset (s : TscState) (exit : VmExit) : Prop :=
  exit.fastPath = true → s.vcpu.tscData.tscOffset = BitVec.allOnes 64

/-- Whether an exit keeps the offset is decided by its path and the
offset. -/
instance (s : TscState) (exit : VmExit) : Decidable (KeepsOffset s exit) :=
  inferInstanceAs (Decidable (_ → _))

/-- What the handler does to the offsets: nothing, or a re-sync. The
measured overheads stay what they are. -/
theorem handler_cases (v : TscVcpu) (exit : VmExit) :
    (handler v exit).1.tscData.vmexitToStoreOverhead = v.tscData.vmexitToStoreOverhead ∧
    (handler v exit).1.tscData.vmentryOverhead = v.tscData.vmentryOverhead ∧
    (handler v exit).1.tscData.storedTsc = BitVec.ofNat 64 exit.storedTsc ∧
    (((handler v exit).1.tscData.tscOffset = v.tscData.tscOffset ∧
      (handler v exit).1.vmcsTscOffset = v.vmcsTscOffset) ∨
    ((handler v exit).2 = false ∧ (handler v exit).1.tscData.tscOffset = 0 ∧
      (handler v exit).1.vmcsTscOffset = 0)) := by
  have hreason : (handleReason (onVmexit v exit) exit).1.tscData.vmexitToStoreOverhead =
        v.tscData.vmexitToStoreOverhead ∧
      (handleReason (onVmexit v exit) exit).1.tscData.vmentryOverhead =
        v.tscData.vmentryOverhead ∧
      (handleReason (onVmexit v exit) exit).1.tscData.storedTsc =
        BitVec.ofNat 64 exit.storedTsc ∧
      (((handleReason (onVmexit v exit) exit).1.tscData.tscOffset = v.tscData.tscOffset ∧
        (handleReason (onVmexit v exit) exit).1.vmcsTscOffset = v.vmcsTscOffset) ∨
      ((handleReason (onVmexit v exit) exit).2 = false ∧
        (handleReason (onVmexit v exit) exit).1.tscData.tscOffset = 0 ∧
        (handleReason (onVmexit v exit) exit).1.vmcsTscOffset = 0)) := by
    unfold handleReason
    cases exit.reason with
    | preemptionTimerExpired => exact ⟨rfl, rfl, rfl, Or.inr ⟨rfl, rfl, rfl⟩⟩
    | cpuid => exact ⟨rfl, rfl, rfl, Or.inl ⟨rfl, rfl⟩⟩
    | rdmsr => exact ⟨rfl, rfl, rfl, Or.inl ⟨rfl, rfl⟩⟩
    | wrmsr => exact ⟨rfl, rfl, rfl, Or.inl ⟨rfl, rfl⟩⟩
    | xsetbv => exact ⟨rfl, rfl, rfl, Or.inl ⟨rfl, rfl⟩⟩
    | movCr => exact ⟨rfl, rfl, rfl, Or.inl ⟨rfl, rfl⟩⟩
    | other => exact ⟨rfl, rfl, rfl, Or.inl ⟨rfl, rfl⟩⟩
  unfold handler
  generalize handleReason (onVmexit v exit) exit = handled at hreason
  obtain ⟨v', hide⟩ := handled
  simp only
  split
  · rename_i hboth
    rw [Bool.and_eq_true] at hboth
    obtain ⟨h₁, h₂, h₃, h₄⟩ := hreason
    refine ⟨h₁, h₂, h₃, Or.inl (h₄.resolve_right fun hsync => ?_)⟩
    rw [hboth.1] at hsync
    cases hsync.1
  · obtain ⟨h₁, h₂, h₃, h₄⟩ := hreason
    exact ⟨h₁, h₂, h₃, h₄.imp_right fun hsync => ⟨rfl, hsync.2⟩⟩

/-- `update_tsc_offset` adds the real time since the exit, less what the
instruction takes, to the time that is hidden. All of its arithmetic is
modulo `2 ^ 64`. -/
theorem updateTscOffset_offset {v : TscVcpu} {hidden storedTsc finalTsc : Nat}
    (hoffset : v.tscData.tscOffset = -BitVec.ofNat 64 hidden)
    (hstored : v.tscData.storedTsc = BitVec.ofNat 64 storedTsc)
    (hdesired : storedTsc + v.tscData.instructionOverhead.toNat ≤
      finalTsc + v.tscData.vmentryOverhead.toNat + v.tscData.vmexitToStoreOverhead.toNat) :
    (updateTscOffset v (BitVec.ofNat 64 finalTsc)).tscData.tscOffset =
      -BitVec.ofNat 64 (hidden + (finalTsc + v.tscData.vmentryOverhead.toNat +
        v.tscData.vmexitToStoreOverhead.toNat -
          (storedTsc + v.tscData.instructionOverhead.toNat))) := by
  obtain ⟨⟨offset, stored, toStore, instruction, vmentry⟩, _, _, _⟩ := v
  simp only at hoffset hstored hdesired
  show offset - (BitVec.ofNat 64 finalTsc - (stored + instruction - vmentry - toStore)) =
    -BitVec.ofNat 64 (hidden + (finalTsc + vmentry.toNat + toStore.toNat -
      (storedTsc + instruction.toNat)))
  subst hoffset hstored
  obtain ⟨late, hlate⟩ := Nat.exists_eq_add_of_le hdesired
  have hsum : BitVec.ofNat 64 finalTsc + vmentry + toStore =
      BitVec.ofNat 64 storedTsc + instruction + BitVec.ofNat 64 late := by
    have hcast := congrArg (BitVec.ofNat 64) hlate
    simp only [BitVec.ofNat_add, BitVec.ofNat_toNat, BitVec.setWidth_eq] at hcast
    exact hcast
  rw [hlate, Nat.add_sub_cancel_left, BitVec.ofNat_add]
  linear_combination -hsum

/-- One exit. The guest never reads less after it than when it has
stopped for it: the time that is hidden grows by what has passed in
between at most. -/
theorem tscInv_next {hidden : Nat} {s s' : TscState} {exit : VmExit} (h : TscInv hidden s)
    (hok : KeepsOffset s exit) (hnext : tscMachine.next s exit = some s') :
    ∃ hidden', TscInv hidden' s' ∧ s.now ≤ exit.exitTsc ∧
      hidden' + exit.exitTsc ≤ hidden + s'.now := by
  obtain ⟨hpossible, heq⟩ := Option.ite_none_right_eq_some.mp hnext
  have hvcpu : s'.vcpu = vmexitStub s.vcpu exit := by cases heq; rfl
  have htime : s'.now = exit.entryTsc := by cases heq; rfl
  have hle := h.hidden_le
  have hexited := hpossible.exited
  have hstored := hpossible.stored
  have hfinal := hpossible.final
  have hentered := hpossible.entered
  have hentry := hpossible.entry_lt
  -- What is left to show is how much time is hidden after the exit.
  have hread : ∀ hidden', s'.vcpu.vmcsTscOffset = s'.vcpu.tscData.tscOffset →
      s'.vcpu.tscData.tscOffset = -BitVec.ofNat 64 hidden' →
      hidden' + exit.exitTsc ≤ hidden + exit.entryTsc →
      ∃ hidden', TscInv hidden' s' ∧ s.now ≤ exit.exitTsc ∧
        hidden' + exit.exitTsc ≤ hidden + s'.now := fun hidden' hagree hoffset hmono =>
    ⟨hidden', ⟨hagree, hoffset, by omega, by omega⟩, hexited, by omega⟩
  rw [hvcpu] at hread
  unfold vmexitStub at hread
  by_cases hfast : exit.fastPath = true
  · simp only [hfast, if_true] at hread
    exact hread hidden (hok hfast).symm h.offset (by omega)
  · obtain ⟨hstore, hvmentry, htsc, hoffsets⟩ := handler_cases s.vcpu exit
    have hdesired := hpossible.desired
    have hrealStore := hpossible.vmexitToStore
    have hrealEntry := hpossible.vmentry
    simp only [hfast, Bool.false_eq_true, if_false] at hread
    generalize handler s.vcpu exit = handled at *
    obtain ⟨v, hide⟩ := handled
    simp only at hstore hvmentry htsc hoffsets hdesired
    cases hide with
    | true =>
      have hsame := hoffsets.resolve_right fun hsync => by cases hsync.1
      rw [← hstore, ← hvmentry] at hdesired
      have hnew := updateTscOffset_offset (hsame.1.trans h.offset) htsc (hdesired rfl)
      refine hread _ rfl hnew ?_
      have hreal := hrealStore rfl
      have hreal' := hrealEntry rfl
      rw [hstore, hvmentry]
      omega
    | false =>
      cases hoffsets with
      | inl hsame =>
        exact hread hidden (by rw [hsame.1, hsame.2]; exact h.agree) (hsame.1.trans h.offset)
          (by omega)
      | inr hsync => exact hread 0 (by rw [hsync.2.1, hsync.2.2]) hsync.2.1 (by omega)

/-! ### Runs -/

/-- A run from a state with the invariant. -/
theorem tscInv_run {hidden : Nat} {s s' : TscState} {exits : List VmExit} (h : TscInv hidden s)
    (hok : tscMachine.Along KeepsOffset s exits) (hrun : tscMachine.run s exits = some s') :
    ∃ hidden', TscInv hidden' s' ∧ hidden' + s.now ≤ hidden + s'.now := by
  induction exits generalizing s hidden with
  | nil =>
    cases hrun
    exact ⟨hidden, h, Nat.le_refl _⟩
  | cons exit exits ih =>
    obtain ⟨t, hnext, hrest⟩ := tscMachine.run_cons_eq_some hrun
    obtain ⟨_, hmid, hexited, hmono⟩ := tscInv_next h hok.1 hnext
    obtain ⟨hidden', hinv, hmono'⟩ := ih hmid (hok.2 t hnext) hrest
    exact ⟨hidden', hinv, by omega⟩

/-- The guest of `s` runs while the hardware TSC is `tsc`: from its VM
entry to the next exit. -/
def TscState.RunsAt (s : TscState) (later : List VmExit) (tsc : Nat) : Prop :=
  s.now ≤ tsc ∧ tsc < 2 ^ 64 ∧ ∀ exit ∈ later.head?, tsc ≤ exit.exitTsc

/-- In a run that does not set the offsets apart they agree at every VM
entry, and the guest's TSC does not decrease: what it reads at one time
is not above what it reads later, be it before the next exit or behind
any number of them. -/
theorem offsets_agree (tscData : TscData) (benchCompleted preemptionTimerEnabled : Bool)
    (tsc : BitVec 64) {exits later : List VmExit} {s s' : TscState}
    (hok : tscMachine.Along KeepsOffset
      (TscState.initial tscData benchCompleted preemptionTimerEnabled tsc) (exits ++ later))
    (hrun : tscMachine.run
      (TscState.initial tscData benchCompleted preemptionTimerEnabled tsc) exits = some s)
    (hlater : tscMachine.run s later = some s') :
    s.vcpu.vmcsTscOffset = s.vcpu.tscData.tscOffset ∧
      ∀ a b, s.RunsAt later a → s'.RunsAt [] b → a ≤ b → s.guestTscAt a ≤ s'.guestTscAt b := by
  obtain ⟨hok₁, hok₂⟩ := tscMachine.along_append hok hrun
  obtain ⟨hidden, hinv, -⟩ := tscInv_run (tscInv_initial tscData benchCompleted _ tsc) hok₁ hrun
  refine ⟨hinv.agree, fun a b ⟨hnow, hlt, hexit⟩ ⟨hnow', hlt', _⟩ hab => ?_⟩
  rw [hinv.guestTscAt hnow hlt]
  cases later with
  | nil =>
    cases hlater
    rw [hinv.guestTscAt hnow' hlt']
    omega
  | cons exit later =>
    -- The guest stops for the first exit, and goes on behind the last one.
    obtain ⟨t, hnext, hrest⟩ := tscMachine.run_cons_eq_some hlater
    obtain ⟨_, hmid, _, hmono⟩ := tscInv_next hinv hok₂.1 hnext
    obtain ⟨_, hinv', hmono'⟩ := tscInv_run hmid (hok₂.2 t hnext) hrest
    have hstops := hexit exit rfl
    rw [hinv'.guestTscAt hnow' hlt']
    omega

/-! ### A short run -/

/-- An exit for CPUID that takes 500 ticks. -/
def cpuidExit (rcx : BitVec 64) (tsc : Nat) : VmExit :=
  ⟨.cpuid, rcx, tsc, tsc, 0, tsc + 500, tsc + 500⟩

/-- A core after the benchmark, which has measured no overhead. -/
def plainTscState : TscState := TscState.initial ⟨0, 0, 0, 0, 0⟩ true false 1000

/-- Two exits for CPUID, with the time both take hidden, and the guest
that runs for 100 ticks in between. -/
theorem offsets_agree_cpuid : ∃ s s',
    tscMachine.run plainTscState [cpuidExit 0 1000] = some s ∧
    tscMachine.run s [cpuidExit 0 1600] = some s' ∧
    s.vcpu.vmcsTscOffset = s.vcpu.tscData.tscOffset ∧ s.guestTscAt 1600 = 1100 ∧
      s.guestTscAt 1600 ≤ s'.guestTsc := by
  have hok : tscMachine.Along KeepsOffset plainTscState
      ([cpuidExit 0 1000] ++ [cpuidExit 0 1600]) := by decide
  have hrun : tscMachine.run plainTscState [cpuidExit 0 1000] =
      some ⟨⟨⟨-500, 1000, 0, 0, 0⟩, true, true, -500⟩, 1500⟩ := by decide
  have hlater : tscMachine.run ⟨⟨⟨-500, 1000, 0, 0, 0⟩, true, true, -500⟩, 1500⟩
      [cpuidExit 0 1600] = some ⟨⟨⟨-1000, 1600, 0, 0, 0⟩, true, true, -1000⟩, 2100⟩ := by decide
  obtain ⟨hagree, hmono⟩ := offsets_agree ⟨0, 0, 0, 0, 0⟩ true false 1000 hok hrun hlater
  have hexit : ∀ exit ∈ [cpuidExit 0 1600].head?, 1600 ≤ exit.exitTsc := by
    intro exit hexit
    cases hexit
    exact Nat.le_refl _
  exact ⟨_, _, hrun, hlater, hagree, by decide, hmono 1600 2100 ⟨by decide, by decide, hexit⟩
    ⟨Nat.le_refl _, by decide, nofun⟩ (by decide)⟩

/-- The same with the benchmark key in between: the copies differ after
the fast path, and the guest's TSC goes back at the next exit. -/
theorem fastPath_diverges : ∃ s s',
    tscMachine.run plainTscState [cpuidExit 0 1000, cpuidExit benchKey 1600] = some s ∧
    s.vcpu.vmcsTscOffset ≠ s.vcpu.tscData.tscOffset ∧
    tscMachine.run s [cpuidExit 0 2200] = some s' ∧ s'.guestTsc < s.guestTsc := by
  refine ⟨⟨⟨⟨-500, 1000, 0, 0, 0⟩, true, true, BitVec.allOnes 64⟩, 2100⟩,
    ⟨⟨⟨-1000, 2200, 0, 0, 0⟩, true, true, -1000⟩, 2700⟩, ?_, ?_, ?_, ?_⟩
  · decide
  · decide
  · decide
  · decide

end Revhv.Stealth
