import Revhv.Km.Nmi

/-!
# `Revhv.Proofs.NmiQueue`: no NMI is lost, unless one falls into an update

`handle_nmi_window` checks the queue again after it has turned
NMI-window exiting off. That covers a host NMI at any place but one:
between the read and the write of `--queued_nmi_count`. There the write
takes the increment of the host NMI back.

* `NmiInv`: the invariant, place by place.
* `nmis_accounted`: in a run without such an NMI every NMI received is
  injected or queued whenever the guest runs, the window is open while
  one is queued, and the count never goes below zero.
* `hostNmi_lost`: a run that loses one.
-/

set_option autoImplicit false

namespace Revhv.Nmi

open Revhv.Lib

/-! ### The invariant -/

/-- NMIs that are received and neither queued nor injected at this
place. -/
def HandlerPc.owed : HandlerPc → Nat
  | .nmiRead => 1
  | .nmiWrite _ => 1
  | .inject => 1
  | _ => 0

/-- What holds of the queue and of the controls at a place. -/
def HandlerPc.Holds (queued : Nat) (window : Bool) : HandlerPc → Prop
  | .guest => window = true ↔ 0 < queued
  | .nmiRead => window = true ↔ 0 < queued
  | .nmiWrite count => count = queued ∧ (window = true ↔ 0 < queued)
  | .windowRead => window = true ∧ 0 < queued
  | .windowWrite count => count = queued ∧ window = true ∧ 0 < queued
  | .inject => window = true
  | .compare => window = true
  | .disableRead => True
  | .disableWrite _ => True
  | .compareAgain => window = true → 0 < queued
  | .enableRead => 0 < queued
  | .enableWrite _ => 0 < queued
  | .vmentry => window = true ↔ 0 < queued

/-- The invariant of a core. -/
structure NmiInv (s : NmiState) : Prop where
  accounted : s.received = s.injected + s.queuedNmiCount + s.pc.owed
  holds : s.pc.Holds s.queuedNmiCount s.procBased.nmiWindowExiting
  queued_lt : s.queuedNmiCount < 2 ^ 64

/-- At the start nothing is queued. -/
theorem nmiInv_initial (others : Nat) : NmiInv (NmiState.initial others) := by
  refine ⟨rfl, ?_, Nat.two_pow_pos 64⟩
  show false = true ↔ 0 < 0
  simp

/-! ### One step -/

/-- An update of `queued_nmi_count` has been read and not written. -/
def HandlerPc.updating : HandlerPc → Bool
  | .nmiWrite _ => true
  | .windowWrite _ => true
  | _ => false

/-- The event adds one to `queued_nmi_count`. -/
def NmiState.increments (s : NmiState) : NmiEvent → Bool
  | .hostNmi => true
  | .step =>
      match s.pc with
      | .nmiWrite _ => true
      | _ => false
  | _ => false

/-- No host NMI falls into an update of the count, and the count does
not overflow. -/
structure Undisturbed (s : NmiState) (e : NmiEvent) : Prop where
  outside : e = .hostNmi → s.pc.updating = false
  room : s.increments e = true → s.queuedNmiCount < 2 ^ 64 - 1

/-- Whether a step is disturbed shows in the state in front of it. -/
instance (s : NmiState) (e : NmiEvent) : Decidable (Undisturbed s e) :=
  decidable_of_iff ((e = .hostNmi → s.pc.updating = false) ∧
    (s.increments e = true → s.queuedNmiCount < 2 ^ 64 - 1))
    ⟨fun h => ⟨h.1, h.2⟩, fun h => ⟨h.outside, h.room⟩⟩

/-- The counter goes up as long as it does not wrap around. -/
theorem increment_of_lt {count : Nat} (h : count < 2 ^ 64 - 1) : increment count = count + 1 := by
  unfold increment
  omega

/-- The counter goes down from a positive value. -/
theorem decrement_of_pos {count : Nat} (hpos : 0 < count) (h : count < 2 ^ 64) :
    decrement count + 1 = count := by
  unfold decrement
  omega

section
variable {s s' : NmiState}

/-- A step of the exit handler. -/
theorem nmiInv_handlerStep (h : NmiInv s) (hok : Undisturbed s .step)
    (hnext : s.handlerStep = some s') : NmiInv s' := by
  obtain ⟨pc, queued, procBased, received, injected⟩ := s
  obtain ⟨haccounted, hholds, hlt⟩ := h
  unfold NmiState.handlerStep at hnext
  cases pc with
  | guest => cases hnext
  | nmiRead =>
    cases hnext
    exact ⟨haccounted, ⟨rfl, hholds⟩, hlt⟩
  | nmiWrite count =>
    cases hnext
    have hroom : queued < 2 ^ 64 - 1 := hok.room rfl
    obtain ⟨rfl, _⟩ := hholds
    have hqueued := increment_of_lt hroom
    constructor
    · show received = injected + increment count + 0
      rw [hqueued]
      exact haccounted
    · show 0 < increment count
      omega
    · show increment count < 2 ^ 64
      omega
  | windowRead =>
    cases hnext
    exact ⟨haccounted, ⟨rfl, hholds⟩, hlt⟩
  | windowWrite count =>
    cases hnext
    obtain ⟨rfl, hwindow, hpos⟩ := hholds
    have hqueued : decrement count + 1 = count := decrement_of_pos hpos hlt
    have hbound : count < 2 ^ 64 := hlt
    constructor
    · show received = injected + decrement count + 1
      have hbefore : received = injected + count + 0 := haccounted
      omega
    · exact hwindow
    · show decrement count < 2 ^ 64
      omega
  | inject =>
    cases hnext
    constructor
    · show received = injected + 1 + queued + 0
      have hbefore : received = injected + queued + 1 := haccounted
      omega
    · exact hholds
    · exact hlt
  | compare =>
    cases hnext
    have hwindow : procBased.nmiWindowExiting = true := hholds
    by_cases hzero : queued = 0
    · simp only [hzero, if_true]
      exact ⟨hzero ▸ haccounted, trivial, Nat.two_pow_pos 64⟩
    · simp only [hzero, if_false]
      exact ⟨haccounted, iff_of_true hwindow (Nat.pos_of_ne_zero hzero), hlt⟩
  | disableRead =>
    cases hnext
    exact ⟨haccounted, trivial, hlt⟩
  | disableWrite read =>
    cases hnext
    exact ⟨haccounted, fun hwindow => absurd hwindow Bool.false_ne_true, hlt⟩
  | compareAgain =>
    cases hnext
    have hopen : procBased.nmiWindowExiting = true → 0 < queued := hholds
    -- A host NMI since the write has opened the window itself.
    by_cases hzero : queued = 0
    · subst hzero
      exact ⟨haccounted, ⟨hopen, fun hpos => absurd hpos (Nat.lt_irrefl 0)⟩, hlt⟩
    · have hpc : (if queued ≠ 0 then HandlerPc.enableRead else .vmentry) = .enableRead :=
        if_pos hzero
      simp only [hpc]
      exact ⟨haccounted, Nat.pos_of_ne_zero hzero, hlt⟩
  | enableRead =>
    cases hnext
    exact ⟨haccounted, hholds, hlt⟩
  | enableWrite read =>
    cases hnext
    exact ⟨haccounted, iff_of_true rfl hholds, hlt⟩
  | vmentry =>
    cases hnext
    exact ⟨haccounted, hholds, hlt⟩

/-- A host NMI outside an update of the count. -/
theorem nmiInv_hostNmi (h : NmiInv s) (hok : Undisturbed s .hostNmi) : NmiInv s.hostNmi := by
  have hroom := hok.room rfl
  have houtside := hok.outside rfl
  have hqueued := increment_of_lt hroom
  obtain ⟨haccounted, hholds, _⟩ := h
  constructor
  · show s.received + 1 = s.injected + increment s.queuedNmiCount + s.pc.owed
    omega
  · show s.pc.Holds (increment s.queuedNmiCount) true
    rw [hqueued]
    -- Between a read of the count and its write the NMI would be lost.
    cases hpc : s.pc with
    | nmiWrite count =>
      rw [hpc] at houtside
      cases houtside
    | windowWrite count =>
      rw [hpc] at houtside
      cases houtside
    | guest => exact iff_of_true rfl (Nat.succ_pos _)
    | nmiRead => exact iff_of_true rfl (Nat.succ_pos _)
    | windowRead => exact ⟨rfl, Nat.succ_pos _⟩
    | inject => exact rfl
    | compare => exact rfl
    | disableRead => trivial
    | disableWrite read => trivial
    | compareAgain => exact fun _ => Nat.succ_pos _
    | enableRead => exact Nat.succ_pos _
    | enableWrite read => exact Nat.succ_pos _
    | vmentry => exact iff_of_true rfl (Nat.succ_pos _)
  · show increment s.queuedNmiCount < 2 ^ 64
    omega

/-- Every undisturbed step keeps the invariant. -/
theorem nmiInv_next {e : NmiEvent} (h : NmiInv s) (hok : Undisturbed s e)
    (hnext : nmiMachine.next s e = some s') : NmiInv s' := by
  -- The three exits only start a handler, and the NMI exit owes one NMI from
  -- then on.
  cases e with
  | nmiExit =>
    obtain ⟨hpc, heq⟩ := Option.ite_none_right_eq_some.mp hnext
    cases heq
    obtain ⟨haccounted, hholds, hlt⟩ := h
    rw [hpc] at haccounted hholds
    exact ⟨congrArg Nat.succ haccounted, hholds, hlt⟩
  | windowExit =>
    obtain ⟨⟨hpc, hwindow⟩, heq⟩ := Option.ite_none_right_eq_some.mp hnext
    cases heq
    obtain ⟨haccounted, hholds, hlt⟩ := h
    rw [hpc] at haccounted hholds
    exact ⟨haccounted, ⟨hwindow, Iff.mp hholds hwindow⟩, hlt⟩
  | otherExit =>
    obtain ⟨hpc, heq⟩ := Option.ite_none_right_eq_some.mp hnext
    cases heq
    obtain ⟨haccounted, hholds, hlt⟩ := h
    rw [hpc] at haccounted hholds
    exact ⟨haccounted, hholds, hlt⟩
  | step => exact nmiInv_handlerStep h hok hnext
  | hostNmi =>
    obtain ⟨_, heq⟩ := Option.ite_none_left_eq_some.mp hnext
    cases heq
    exact nmiInv_hostNmi h hok

end

/-! ### Runs -/

/-- In an undisturbed run no NMI is lost, no queued NMI is forgotten,
and the count never goes below zero. -/
theorem nmis_accounted (others : Nat) {es : List NmiEvent} {s : NmiState}
    (hok : nmiMachine.Along Undisturbed (NmiState.initial others) es)
    (hrun : nmiMachine.run (NmiState.initial others) es = some s) :
    (s.pc = .guest → s.received = s.injected + s.queuedNmiCount ∧
      (0 < s.queuedNmiCount → s.procBased.nmiWindowExiting = true)) ∧
    ∀ count, s.pc = .windowWrite count → 0 < count := by
  have hinv := nmiMachine.invariant_of_along
    (fun _ _ _ hI hok hnext => nmiInv_next hI hok hnext) (nmiInv_initial others) hok hrun
  obtain ⟨haccounted, hholds, _⟩ := hinv
  constructor
  · intro hpc
    rw [hpc] at haccounted hholds
    exact ⟨haccounted, Iff.mpr hholds⟩
  · intro count hpc
    rw [hpc] at hholds
    rw [hholds.1]
    exact hholds.2.2

/-- An NMI exit up to the VM entry after it. -/
def nmiExitRun : List NmiEvent := [.nmiExit, .step, .step, .step, .step, .step]

/-- A host NMI after the first comparison of the window handler, the
case its second one is for. -/
def coveredRun : List NmiEvent :=
  nmiExitRun ++ [.windowExit, .step, .step, .step, .step, .hostNmi, .step, .step, .step, .step,
    .step, .step]

/-- That run keeps the host NMI queued. -/
theorem nmis_accounted_covered : ∃ s, nmiMachine.run (NmiState.initial 0) coveredRun = some s ∧
    s.pc = .guest ∧ s.received = s.injected + s.queuedNmiCount ∧ s.queuedNmiCount = 1 := by
  have hrun : nmiMachine.run (NmiState.initial 0) coveredRun =
      some ⟨.guest, 1, ⟨true, 0⟩, 2, 1⟩ := by decide
  have hok : nmiMachine.Along Undisturbed (NmiState.initial 0) coveredRun := by decide
  obtain ⟨haccounted, _⟩ := (nmis_accounted 0 hok hrun).1 rfl
  exact ⟨_, hrun, rfl, haccounted, rfl⟩

/-- A host NMI between the read and the write of the decrement. -/
def hostNmiInUpdate : List NmiEvent :=
  nmiExitRun ++ [.windowExit, .step, .hostNmi, .step, .step, .step, .step, .step, .step, .step]

/-- Two NMIs are received, one is injected and none is queued. -/
theorem hostNmi_lost : ∃ s, nmiMachine.run (NmiState.initial 0) hostNmiInUpdate = some s ∧
    s.pc = .guest ∧ s.received = 2 ∧ s.injected = 1 ∧ s.queuedNmiCount = 0 := by
  refine ⟨⟨.guest, 0, ⟨false, 0⟩, 2, 1⟩, ?_, rfl, rfl, rfl, rfl⟩
  decide

end Revhv.Nmi
