import Revhv.Km.Sync

/-!
# `Revhv.Proofs.SpinLock`: mutual exclusion, and the windows that break it

`m_owner` and `m_depth` are two words, so a nested acquisition can see
one updated and not the other. The lock is right in every run in which
no NMI handler begins an acquisition inside one of the two windows of
`outsideWindows`, and `lock_windows_break` shows a run through the first
window that puts two cores into the critical section.

The proof follows one thread. `Thread.weight` is what the thread adds to
`m_depth`, and `Thread.Ok base` is its invariant on top of a thread of
weight `base` that stands still. `stepThread_spec` says what one memory
step can do to the two words. `CoreOk` puts a core's two threads
together, and `lockMachine_inv` the cores: a step of one core changes
the owner only from or to that core's token, so the others' parts stand.
-/

set_option autoImplicit false

namespace Revhv.Sync

open Revhv.Lib

/-- The thread is in one of the two windows: it owns the lock with
`m_depth` at 0. -/
def Thread.inWindow (t : Thread) : Prop := t.pc = .setDepth ∨ t.pc = .release

/-- The invariant of a thread on top of a thread of weight `base`. -/
def Thread.Ok (base : Nat) (t : Thread) : Prop :=
  match t.pc with
  | .idle | .readOwner _ | .compareExchange _ | .decLoad => True
  | .incLoad => 0 < base + t.held
  | .incStore d => 0 < base + t.held ∧ d = toLong (base + t.held : Nat)
  | .decStore d => d = toLong (base + t.held + 1 : Nat)
  | .setDepth | .release => base = 0 ∧ t.held = 0

/-- With the weight at `base` below it, the thread makes its core the
owner. -/
def Thread.Owns (base : Nat) (t : Thread) : Prop := 0 < base + t.weight ∨ t.inWindow

/-- The two words as a core with token `id` sees them. -/
structure WordsOk (id base : Nat) (lk : ReentrantSpinLock) (t : Thread) : Prop where
  ok : t.Ok base
  owner : lk.owner = id ↔ t.Owns base
  depth : t.Owns base → lk.depth = toLong (base + t.weight : Nat)
  free : lk.owner = unlocked → lk.depth = 0

/-- What a step of a core with token `id` does to the two words: the
owner moves only between `UNLOCKED` and the token, and the depth changes
only under the token. -/
structure WordsStep (id : Nat) (lk lk' : ReentrantSpinLock) : Prop where
  owner : lk'.owner = lk.owner ∨ (lk.owner = unlocked ∧ lk'.owner = id) ∨
    (lk.owner = id ∧ lk'.owner = unlocked)
  depth : lk.owner ≠ id → lk'.depth = lk.depth
  free : lk'.owner = unlocked → lk'.depth = 0

/-- A `long` holds 0 as it is. -/
theorem toLong_zero : toLong 0 = 0 := rfl

/-- A `long` holds 1 as it is. -/
theorem toLong_one : toLong 1 = 1 := by decide

/-- Sums may wrap around early or late. -/
theorem toLong_toLong_add (d e : Int) : toLong (toLong d + e) = toLong (d + e) :=
  Int.bmod_add_bmod

/-- A `long` that counts `n` acquisitions is 0 exactly at the multiples
of 2^32. -/
theorem toLong_natCast_eq_zero {n : Nat} : toLong (n : Int) = 0 ↔ 2 ^ 32 ∣ n := by
  rw [toLong, ← Int.dvd_iff_bmod_eq_zero]
  exact Int.natCast_dvd_natCast

section
variable (base held : Nat)

/-- An idle thread counts with what it holds. -/
@[simp] theorem weight_idle : Thread.weight ⟨.idle, held⟩ = held := rfl

/-- So does one that looks at the owner. -/
@[simp] theorem weight_readOwner (b : Bool) : Thread.weight ⟨.readOwner b, held⟩ = held := rfl

/-- An increment counts when its store is done. -/
@[simp] theorem weight_incLoad : Thread.weight ⟨.incLoad, held⟩ = held := rfl

/-- It does not count before. -/
@[simp] theorem weight_incStore (d : Int) : Thread.weight ⟨.incStore d, held⟩ = held := rfl

/-- A thread that waits counts with what it holds. -/
@[simp] theorem weight_compareExchange (b : Bool) :
    Thread.weight ⟨.compareExchange b, held⟩ = held := rfl

/-- The first acquisition counts when `m_depth = 1` is stored. -/
@[simp] theorem weight_setDepth : Thread.weight ⟨.setDepth, held⟩ = held := rfl

/-- A release counts until its store is done. -/
@[simp] theorem weight_decLoad : Thread.weight ⟨.decLoad, held⟩ = held + 1 := rfl

/-- It counts after its load, too. -/
@[simp] theorem weight_decStore (d : Int) : Thread.weight ⟨.decStore d, held⟩ = held + 1 := rfl

/-- With the depth at 0 nothing is left to count. -/
@[simp] theorem weight_release : Thread.weight ⟨.release, held⟩ = held := rfl

/-- Outside the windows and an `unlock` under way, the thread owns by
its acquisitions. -/
theorem owns_of_plain {pc : LockPc} (hw : Thread.weight ⟨pc, held⟩ = held)
    (h : pc ≠ .setDepth ∧ pc ≠ .release) : Thread.Owns base ⟨pc, held⟩ ↔ 0 < base + held := by
  simp [Thread.Owns, Thread.inWindow, hw, h.1, h.2]

/-- An idle thread owns by its acquisitions. -/
@[simp] theorem owns_idle : Thread.Owns base ⟨.idle, held⟩ ↔ 0 < base + held :=
  owns_of_plain base held rfl (by simp)

/-- So does one that looks at the owner. -/
@[simp] theorem owns_readOwner (b : Bool) :
    Thread.Owns base ⟨.readOwner b, held⟩ ↔ 0 < base + held :=
  owns_of_plain base held rfl (by simp)

/-- So does one in front of its increment. -/
@[simp] theorem owns_incLoad : Thread.Owns base ⟨.incLoad, held⟩ ↔ 0 < base + held :=
  owns_of_plain base held rfl (by simp)

/-- So does one in its increment. -/
@[simp] theorem owns_incStore (d : Int) :
    Thread.Owns base ⟨.incStore d, held⟩ ↔ 0 < base + held :=
  owns_of_plain base held rfl (by simp)

/-- So does one that waits. -/
@[simp] theorem owns_compareExchange (b : Bool) :
    Thread.Owns base ⟨.compareExchange b, held⟩ ↔ 0 < base + held :=
  owns_of_plain base held rfl (by simp)

/-- Behind its compare-exchange a thread owns. -/
@[simp] theorem owns_setDepth : Thread.Owns base ⟨.setDepth, held⟩ :=
  Or.inr (Or.inl rfl)

/-- Up to the exchange that frees the lock it owns. -/
@[simp] theorem owns_release : Thread.Owns base ⟨.release, held⟩ :=
  Or.inr (Or.inr rfl)

/-- A thread that releases owns. -/
@[simp] theorem owns_decLoad : Thread.Owns base ⟨.decLoad, held⟩ :=
  Or.inl (by show 0 < base + (held + 1); omega)

/-- It owns up to its store. -/
@[simp] theorem owns_decStore (d : Int) : Thread.Owns base ⟨.decStore d, held⟩ :=
  Or.inl (by show 0 < base + (held + 1); omega)

end

/-- One memory step of a thread keeps its core's view of the two words. -/
theorem stepThread_spec {id base : Nat} {lk lk' : ReentrantSpinLock} {t t' : Thread}
    (hid : id ≠ unlocked) (h : WordsOk id base lk t)
    (hwrap : ∀ d, t.pc = .decStore d → base + t.held ≠ 0 → ¬ 2 ^ 32 ∣ base + t.held)
    (hstep : stepThread id lk t = some (lk', t')) :
    WordsOk id base lk' t' ∧ WordsStep id lk lk' ∧ (t.pc = .release → lk.owner = id) := by
  obtain ⟨pc, held⟩ := t
  obtain ⟨hok, howner, hdepth, hfree⟩ := h
  have hsame : WordsStep id lk lk := ⟨Or.inl rfl, fun _ => rfl, hfree⟩
  cases pc with
  | idle => cases hstep
  | readOwner tryOnly =>
      simp only [stepThread, Option.some.injEq, Prod.mk.injEq] at hstep
      obtain ⟨rfl, rfl⟩ := hstep
      refine ⟨?_, hsame, by simp⟩
      by_cases hmine : lk.owner = id
      · rw [if_pos hmine]
        have hpos : 0 < base + held := by simpa using howner.mp hmine
        exact ⟨hpos, by simpa using howner, by simpa using hdepth, hfree⟩
      · rw [if_neg hmine]
        exact ⟨trivial, by simpa using howner, by simpa using hdepth, hfree⟩
  | incLoad =>
      simp only [stepThread, Option.some.injEq, Prod.mk.injEq] at hstep
      obtain ⟨rfl, rfl⟩ := hstep
      have hpos : 0 < base + held := hok
      have hd : lk.depth = toLong (base + held : Nat) := by simpa [hpos] using hdepth
      exact ⟨⟨⟨hpos, hd⟩, by simpa using howner, by simpa using hdepth, hfree⟩, hsame, by simp⟩
  | incStore d =>
      simp only [stepThread, Option.some.injEq, Prod.mk.injEq] at hstep
      obtain ⟨rfl, rfl⟩ := hstep
      obtain ⟨hpos, hd⟩ : 0 < base + held ∧ d = toLong (base + held : Nat) := hok
      have hmine : lk.owner = id := howner.mpr (by simpa using hpos)
      have hbusy : lk.owner ≠ unlocked := fun hun => hid (hmine.symm.trans hun)
      refine ⟨⟨trivial, ?_, ?_, fun hun => absurd hun hbusy⟩,
        ⟨Or.inl rfl, fun hne => absurd hmine hne, fun hun => absurd hun hbusy⟩, by simp⟩
      · simp only [owns_idle]
        exact ⟨fun _ => by omega, fun _ => hmine⟩
      · intro _
        show toLong (d + 1) = toLong ((base + (held + 1) : Nat) : Int)
        rw [hd, toLong_toLong_add]
        congr 1
  | compareExchange tryOnly =>
      simp only [stepThread] at hstep
      split at hstep
      · rename_i hun
        simp only [Option.some.injEq, Prod.mk.injEq] at hstep
        obtain ⟨rfl, rfl⟩ := hstep
        -- The core did not own the lock, so it stood at weight 0.
        have hzero : ¬ 0 < base + held := fun hpos =>
          hid ((howner.mpr (by simpa using hpos)).symm.trans hun)
        have hbase : base = 0 ∧ held = 0 := by omega
        refine ⟨⟨hbase, by simp, ?_, fun hcontra => absurd hcontra hid⟩,
          ⟨Or.inr (Or.inl ⟨hun, rfl⟩), fun _ => rfl, fun hcontra => absurd hcontra hid⟩, by simp⟩
        intro _
        show lk.depth = toLong ((base + held : Nat) : Int)
        rw [hfree hun, hbase.1, hbase.2]
        rfl
      · split at hstep
        · simp only [Option.some.injEq, Prod.mk.injEq] at hstep
          obtain ⟨rfl, rfl⟩ := hstep
          exact ⟨⟨trivial, by simpa using howner, by simpa using hdepth, hfree⟩, hsame, by simp⟩
        · simp only [Option.some.injEq, Prod.mk.injEq] at hstep
          obtain ⟨rfl, rfl⟩ := hstep
          exact ⟨⟨trivial, howner, hdepth, hfree⟩, hsame, by simp⟩
  | setDepth =>
      simp only [stepThread, Option.some.injEq, Prod.mk.injEq] at hstep
      obtain ⟨rfl, rfl⟩ := hstep
      obtain ⟨rfl, rfl⟩ : base = 0 ∧ held = 0 := hok
      have hmine : lk.owner = id := howner.mpr (by simp)
      have hbusy : lk.owner ≠ unlocked := fun hun => hid (hmine.symm.trans hun)
      refine ⟨⟨trivial, by simp [hmine], fun _ => toLong_one.symm, fun hun => absurd hun hbusy⟩,
        ⟨Or.inl rfl, fun hne => absurd hmine hne, fun hun => absurd hun hbusy⟩, by simp⟩
  | decLoad =>
      simp only [stepThread, Option.some.injEq, Prod.mk.injEq] at hstep
      obtain ⟨rfl, rfl⟩ := hstep
      exact ⟨⟨hdepth (by simp), by simpa using howner, fun _ => hdepth (by simp), hfree⟩,
        hsame, by simp⟩
  | decStore d =>
      simp only [stepThread, Option.some.injEq, Prod.mk.injEq] at hstep
      obtain ⟨rfl, rfl⟩ := hstep
      have hd : d = toLong (base + held + 1 : Nat) := hok
      have hmine : lk.owner = id := howner.mpr (by simp)
      have hbusy : lk.owner ≠ unlocked := fun hun => hid (hmine.symm.trans hun)
      have hval : toLong (d - 1) = toLong (base + held : Nat) := by
        rw [hd, Int.sub_eq_add_neg, toLong_toLong_add]
        congr 1
        omega
      refine ⟨?_, ⟨Or.inl rfl, fun hne => absurd hmine hne, fun hun => absurd hun hbusy⟩, by simp⟩
      rw [hval]
      by_cases hzero : toLong (base + held : Nat) = 0
      · -- No acquisition is left, by the condition on the wrap: the release window opens.
        have hnone : base + held = 0 := by
          by_contra hne
          exact hwrap d rfl hne (toLong_natCast_eq_zero.mp hzero)
        rw [if_pos hzero]
        have hbase : base = 0 ∧ held = 0 := by omega
        exact ⟨hbase, iff_of_true hmine (owns_release ..), fun _ => by simp only [weight_release],
          fun hun => absurd hun hbusy⟩
      · rw [if_neg hzero]
        have hpos : 0 < base + held := by
          rcases Nat.eq_zero_or_pos (base + held) with h0 | hpos
          · rw [h0] at hzero
            exact absurd toLong_zero hzero
          · exact hpos
        refine ⟨trivial, ?_, fun _ => by simp only [weight_idle], fun hun => absurd hun hbusy⟩
        simp only [owns_idle]
        exact ⟨fun _ => hpos, fun _ => hmine⟩
  | release =>
      simp only [stepThread, Option.some.injEq, Prod.mk.injEq] at hstep
      obtain ⟨rfl, rfl⟩ := hstep
      obtain ⟨rfl, rfl⟩ : base = 0 ∧ held = 0 := hok
      have hmine : lk.owner = id := howner.mpr (by simp)
      have hlk : lk.depth = 0 := hdepth (by simp)
      refine ⟨⟨trivial, ?_, fun hpos => ?_, fun _ => hlk⟩,
        ⟨Or.inr (Or.inr ⟨hmine, rfl⟩), fun _ => rfl, fun _ => hlk⟩, fun _ => hmine⟩
      · simp only [owns_idle, Nat.add_zero, Nat.lt_irrefl, iff_false]
        exact fun hun => hid hun.symm
      · simp at hpos

/-- An operation that begins leaves the words alone, and counts as it
did before. -/
theorem WordsOk.begin {id base held : Nat} {lk : ReentrantSpinLock} (tryOnly : Bool)
    (h : WordsOk id base lk ⟨.idle, held⟩) : WordsOk id base lk ⟨.readOwner tryOnly, held⟩ :=
  ⟨trivial, by simpa using h.owner, by simpa using h.depth, h.free⟩

/-- An `unlock` that begins still counts until its store. -/
theorem WordsOk.begin_unlock {id base held : Nat} {lk : ReentrantSpinLock} (hheld : 0 < held)
    (h : WordsOk id base lk ⟨.idle, held⟩) : WordsOk id base lk ⟨.decLoad, held - 1⟩ := by
  have hweight : held - 1 + 1 = held := by omega
  have howns : Thread.Owns base ⟨.idle, held⟩ := Or.inl (by simp only [weight_idle]; omega)
  refine ⟨trivial, iff_of_true (h.owner.mpr howns) (by simp), fun _ => ?_, h.free⟩
  rw [weight_decLoad, hweight]
  exact h.depth howns

/-! ### A core -/

/-- The weight below the running thread. -/
def Core.base (k : Core) : Nat := if k.nmi.isSome then k.main.weight else 0

/-- A core's weight is that of the thread that runs, on top of the one
that stands still. -/
theorem Core.weight_eq (k : Core) : k.weight = k.base + k.running.weight := by
  obtain ⟨main, _ | t⟩ := k
  · simp [Core.weight, Core.base, Core.running]
  · simp [Core.weight, Core.base, Core.running]

/-- The thread that was put there runs. -/
@[simp] theorem Core.setRunning_running (k : Core) (t : Thread) :
    (k.setRunning t).running = t := by
  obtain ⟨main, _ | u⟩ := k <;> rfl

/-- The thread that stands still is not touched. -/
@[simp] theorem Core.setRunning_base (k : Core) (t : Thread) :
    (k.setRunning t).base = k.base := by
  obtain ⟨main, _ | u⟩ := k <;> rfl

/-- The invariant of a core. The handler that interrupts a window has
begun nothing. -/
inductive CoreOk (id : Nat) (lk : ReentrantSpinLock) (k : Core) : Prop
  | interrupted (hnmi : k.nmi = some ⟨.idle, 0⟩) (hwindow : k.main.inWindow)
      (hmain : WordsOk id 0 lk k.main)
  | runs (hmain : k.nmi.isSome → ¬ k.main.inWindow ∧ k.main.Ok 0)
      (hrun : WordsOk id k.base lk k.running)

/-- The running thread of a core is replaced. -/
theorem CoreOk.setRunning {id : Nat} {lk : ReentrantSpinLock} {k : Core} {t : Thread}
    (hmain : k.nmi.isSome → ¬ k.main.inWindow ∧ k.main.Ok 0)
    (hrun : WordsOk id k.base lk t) : CoreOk id lk (k.setRunning t) := by
  refine .runs ?_ (by simpa using hrun)
  obtain ⟨main, _ | u⟩ := k
  · intro h
    cases h
  · exact hmain

/-- The condition of `outsideWindows` on one core. -/
def Core.outsideWindows (k : Core) (e : CoreEvent) : Prop :=
  ((e = .lock ∨ e = .tryLock) → k.nmi.isSome → ¬ k.main.inWindow) ∧
  (e = .step → ∀ d, k.running.pc = .decStore d → k.weight - 1 ≠ 0 → ¬ 2 ^ 32 ∣ k.weight - 1)

/-- A core whose handler has interrupted a window can only leave the
handler. -/
theorem coreEvent_interrupted {id : Nat} {lk : ReentrantSpinLock} {k : Core} {e : CoreEvent}
    {r : ReentrantSpinLock × Core} (hnmi : k.nmi = some ⟨.idle, 0⟩) (hwindow : k.main.inWindow)
    (hcond : k.outsideWindows e) (hev : coreEvent id lk k e = some r) : e = .nmiExit := by
  have hrunning : k.running = ⟨.idle, 0⟩ := by rw [Core.running, hnmi]; rfl
  cases e with
  | lock => exact absurd hwindow (hcond.1 (Or.inl rfl) (by simp [hnmi]))
  | tryLock => exact absurd hwindow (hcond.1 (Or.inr rfl) (by simp [hnmi]))
  | unlock => simp [coreEvent, hrunning] at hev
  | step => simp [coreEvent, hrunning, stepThread] at hev
  | nmiEnter => simp [coreEvent, hnmi] at hev
  | nmiExit => rfl

/-- Outside a window, an idle handler on top of the main thread owns as
the main thread does. -/
theorem owns_below {main : Thread} (hwindow : ¬ main.inWindow) :
    main.Owns 0 ↔ Thread.Owns main.weight ⟨.idle, 0⟩ := by
  rw [owns_idle, Thread.Owns, or_iff_left hwindow, Nat.zero_add, Nat.add_zero]

/-- One event of a core keeps the core's invariant. -/
theorem coreEvent_spec {id : Nat} {lk lk' : ReentrantSpinLock} {k k' : Core} {e : CoreEvent}
    (hid : id ≠ unlocked) (h : CoreOk id lk k) (hcond : k.outsideWindows e)
    (hev : coreEvent id lk k e = some (lk', k')) :
    CoreOk id lk' k' ∧ WordsStep id lk lk' ∧
      (e = .step → k.running.pc = .release → lk.owner = id) := by
  cases h with
  | interrupted hnmi hwindow hmain =>
      obtain rfl := coreEvent_interrupted hnmi hwindow hcond hev
      simp only [coreEvent, hnmi, if_true, Option.some.injEq, Prod.mk.injEq] at hev
      obtain ⟨rfl, rfl⟩ := hev
      exact ⟨.runs (by simp) hmain, ⟨Or.inl rfl, fun _ => rfl, hmain.free⟩, by simp⟩
  | runs hmain hrun =>
      have hsame : WordsStep id lk lk := ⟨Or.inl rfl, fun _ => rfl, hrun.free⟩
      -- A thread that begins an operation stands at `idle`.
      have hat : ∀ {held : Nat}, k.running.pc = .idle → k.running.held = held →
          WordsOk id k.base lk ⟨.idle, held⟩ := by
        intro held hpc hheld
        have : k.running = ⟨.idle, held⟩ := by rw [← hpc, ← hheld]
        exact this ▸ hrun
      cases e with
      | lock =>
          simp only [coreEvent, Option.ite_none_right_eq_some, Option.some.injEq,
            Prod.mk.injEq] at hev
          obtain ⟨hpc, rfl, rfl⟩ := hev
          exact ⟨.setRunning hmain ((hat hpc rfl).begin false), hsame, by simp⟩
      | tryLock =>
          simp only [coreEvent, Option.ite_none_right_eq_some, Option.some.injEq,
            Prod.mk.injEq] at hev
          obtain ⟨hpc, rfl, rfl⟩ := hev
          exact ⟨.setRunning hmain ((hat hpc rfl).begin true), hsame, by simp⟩
      | unlock =>
          simp only [coreEvent, Option.ite_none_right_eq_some, Option.some.injEq,
            Prod.mk.injEq] at hev
          obtain ⟨⟨hpc, hheld⟩, rfl, rfl⟩ := hev
          exact ⟨.setRunning hmain ((hat hpc rfl).begin_unlock hheld), hsame, by simp⟩
      | step =>
          simp only [coreEvent, Option.map_eq_some_iff, Prod.mk.injEq] at hev
          obtain ⟨⟨lk1, t⟩, hstep, rfl, rfl⟩ := hev
          have hwrap : ∀ d, k.running.pc = .decStore d → k.base + k.running.held ≠ 0 →
              ¬ 2 ^ 32 ∣ k.base + k.running.held := by
            intro d hpc
            have hweight : k.weight - 1 = k.base + k.running.held := by
              rw [Core.weight_eq, Thread.weight, hpc]
              simp
            exact hweight ▸ hcond.2 rfl d hpc
          obtain ⟨hrun', hwords, hrelease⟩ := stepThread_spec hid hrun hwrap hstep
          exact ⟨.setRunning hmain hrun', hwords, fun _ => hrelease⟩
      | nmiEnter =>
          obtain ⟨main, _ | t⟩ := k
          · simp only [coreEvent, Option.some.injEq, Prod.mk.injEq] at hev
            obtain ⟨rfl, rfl⟩ := hev
            refine ⟨?_, hsame, by simp⟩
            by_cases hwindow : main.inWindow
            · exact .interrupted rfl hwindow hrun
            · have howns := owns_below hwindow
              refine .runs (fun _ => ⟨hwindow, hrun.ok⟩)
                ⟨trivial, hrun.owner.trans howns, fun h => ?_, hrun.free⟩
              simpa [Core.base, Core.running] using hrun.depth (howns.mpr h)
          · cases hev
      | nmiExit =>
          simp only [coreEvent, Option.ite_none_right_eq_some, Option.some.injEq,
            Prod.mk.injEq] at hev
          obtain ⟨hnmi, rfl, rfl⟩ := hev
          refine ⟨.runs (by simp) ?_, hsame, by simp⟩
          obtain ⟨main, nmi⟩ := k
          obtain rfl : nmi = some ⟨.idle, 0⟩ := hnmi
          obtain ⟨hwindow, hok⟩ := hmain rfl
          have howns := owns_below hwindow
          refine ⟨hok, hrun.owner.trans howns.symm, fun h => ?_, hrun.free⟩
          simpa [Core.base, Core.running] using hrun.depth (howns.mp h)

/-- A step of a core with another token leaves a thread's view of the
words. -/
theorem WordsOk.frame {id id' base : Nat} {lk lk' : ReentrantSpinLock} {t : Thread}
    (hne : id' ≠ id) (hid : id' ≠ unlocked) (h : WordsOk id' base lk t)
    (hstep : WordsStep id lk lk') : WordsOk id' base lk' t := by
  have howner : lk'.owner = id' ↔ lk.owner = id' := by
    rcases hstep.owner with hsame | ⟨hun, hmine⟩ | ⟨hmine, hun⟩
    · rw [hsame]
    · rw [hun, hmine]
      exact iff_of_false (Ne.symm hne) (Ne.symm hid)
    · rw [hun, hmine]
      exact iff_of_false (Ne.symm hid) (Ne.symm hne)
  refine ⟨h.ok, howner.trans h.owner, fun howns => ?_, hstep.free⟩
  rw [hstep.depth ?_, h.depth howns]
  rw [h.owner.mpr howns]
  exact hne

/-- A step of another core leaves this one's view of the two words. -/
theorem CoreOk.frame {id id' : Nat} {lk lk' : ReentrantSpinLock} {k : Core}
    (hne : id' ≠ id) (hid : id' ≠ unlocked) (h : CoreOk id' lk k)
    (hstep : WordsStep id lk lk') : CoreOk id' lk' k := by
  cases h with
  | interrupted hnmi hwindow hmain => exact .interrupted hnmi hwindow (hmain.frame hne hid hstep)
  | runs hmain hrun => exact .runs hmain (hrun.frame hne hid hstep)

/-- A core with an acquisition is the owner. -/
theorem CoreOk.owner_of_inCriticalSection {id : Nat} {lk : ReentrantSpinLock} {k : Core}
    (h : CoreOk id lk k) (hcs : k.inCriticalSection = true) : lk.owner = id := by
  -- While the NMI handler waits in the window of the interrupted code, that
  -- code is the one in the section.
  cases h with
  | interrupted hnmi hwindow hmain => exact hmain.owner.mpr (Or.inr hwindow)
  | runs hmain hrun =>
      refine hrun.owner.mpr (Or.inl ?_)
      have hweight : ∀ t : Thread, t.held ≤ t.weight := by
        intro t
        unfold Thread.weight
        split <;> omega
      -- The weight is shared between the interrupted code and the NMI handler,
      -- if there is one.
      obtain ⟨main, _ | t⟩ := k
      · have hpos : 0 < main.held := by simpa [Core.inCriticalSection] using hcs
        have := hweight main
        show 0 < 0 + main.weight
        omega
      · have hpos : 0 < main.held ∨ 0 < t.held := by simpa [Core.inCriticalSection] using hcs
        have := hweight main
        have := hweight t
        show 0 < main.weight + t.weight
        omega

/-- A core all of whose threads have released the lock is not the owner. -/
theorem CoreOk.not_owner_of_released {id : Nat} {lk : ReentrantSpinLock} {k : Core}
    (h : CoreOk id lk k) (hmain : k.main.released = true)
    (hnmi : ∀ t ∈ k.nmi, t.released = true) : lk.owner ≠ id := by
  -- A thread that has released all it took adds no weight and is in no window.
  have hzero : ∀ t : Thread, t.released = true → t.weight = 0 ∧ ¬ t.inWindow := by
    rintro ⟨pc, held⟩ hrel
    cases pc <;> simp_all [Thread.released, Thread.weight, Thread.inWindow]
  cases h with
  | interrupted _ hwindow _ => exact absurd hwindow (hzero _ hmain).2
  | runs _ hrun =>
      intro howner
      have howns := hrun.owner.mp howner
      obtain ⟨main, _ | t⟩ := k
      · obtain ⟨hw, hwin⟩ := hzero main hmain
        rcases howns with hpos | hwindow
        · have hpos : 0 < 0 + main.weight := hpos
          omega
        · exact hwin hwindow
      · obtain ⟨hw, hwin⟩ := hzero main hmain
        obtain ⟨hwt, hwint⟩ := hzero t (hnmi t rfl)
        rcases howns with hpos | hwindow
        · have hpos : 0 < main.weight + t.weight := hpos
          omega
        · exact hwint hwindow

/-! ### All cores -/

/-- The invariant of the lock and its cores. -/
structure LockInv {n : Nat} (ids : ApicIds n) (s : LockState n) : Prop where
  cores : ∀ c, CoreOk (ids.ownerId c) s.lock (s.cores c)
  owned : s.lock.owner = unlocked ∨ ∃ c, s.lock.owner = ids.ownerId c
  releases : ∀ r ∈ s.releases, r.2 = r.1

section
variable {n : Nat} (ids : ApicIds n)

/-- No token is `UNLOCKED`. -/
theorem ownerId_ne_unlocked (c : Fin n) : ids.ownerId c ≠ unlocked := Nat.succ_ne_zero _

/-- Different cores have different tokens. -/
theorem ownerId_inj {c c' : Fin n} (h : ids.ownerId c = ids.ownerId c') : c = c' :=
  ids.inj (Nat.succ_injective h)

/-- At the start the lock is free and no thread is in an operation. -/
theorem lockInv_initial : LockInv ids (LockState.initial n) where
  cores c := .runs (by simp [LockState.initial]) ⟨trivial,
    iff_of_false (Ne.symm (ownerId_ne_unlocked ids c)) (by
      simp [LockState.initial, Core.running, Core.base]),
    fun h => by simp [LockState.initial, Core.running, Core.base] at h, fun _ => rfl⟩
  owned := Or.inl rfl
  releases r hr := by cases hr

/-- One event of one core keeps the invariant, outside the windows. -/
theorem lockMachine_inv {s s' : LockState n} {ev : Fin n × CoreEvent} (h : LockInv ids s)
    (hcond : outsideWindows s ev) (hnext : (lockMachine ids).next s ev = some s') :
    LockInv ids s' := by
  obtain ⟨c, e⟩ := ev
  simp only [lockMachine, Option.map_eq_some_iff] at hnext
  obtain ⟨⟨lk', k'⟩, hev, rfl⟩ := hnext
  have hcore : (s.cores c).outsideWindows e :=
    ⟨fun he hnmi hwin => hwin.elim (hcond.1 he hnmi).1 (hcond.1 he hnmi).2, hcond.2⟩
  obtain ⟨hok, hwords, hrelease⟩ :=
    coreEvent_spec (ownerId_ne_unlocked ids c) (h.cores c) hcore hev
  refine ⟨fun c' => ?_, ?_, fun r hr => ?_⟩
  · -- The other cores keep what they own, because owner ids differ from core to
    -- core.
    by_cases hc : c' = c
    · subst hc
      simpa using hok
    · simp only [Function.update_of_ne hc]
      exact (h.cores c').frame (fun heq => hc (ownerId_inj ids heq))
        (ownerId_ne_unlocked ids c') hwords
  · rcases hwords.owner with hsame | ⟨_, hmine⟩ | ⟨_, hun⟩
    · simpa only [hsame] using h.owned
    · exact Or.inr ⟨c, hmine⟩
    · exact Or.inl hun
  · -- A release is noted with the step that ends an outermost unlock.
    split at hr
    · rename_i hstep
      rcases List.mem_append.mp hr with hr | hr
      · exact h.releases r hr
      · obtain rfl := List.mem_singleton.mp hr
        exact hrelease hstep.1 hstep.2
    · exact h.releases r hr

/-- The invariant gives what the lock is for. -/
theorem LockInv.excludes {s : LockState n} (h : LockInv ids s) : Excludes s where
  exclusive c c' hc hc' := ownerId_inj ids
    (((h.cores c).owner_of_inCriticalSection hc).symm.trans
      ((h.cores c').owner_of_inCriticalSection hc'))
  own_release := h.releases
  free hreleased := by
    rcases h.owned with hun | ⟨c, hc⟩
    · exact hun
    · exact absurd hc ((h.cores c).not_owner_of_released (hreleased c).1 (hreleased c).2)

/-- **Mutual exclusion.** In every run whose steps keep outside the
windows, at most one core is inside the critical section, every release
is the owner's own, and the lock is free once every thread has released
it. -/
theorem lockMachine_excludes (es : List (Fin n × CoreEvent)) {s : LockState n}
    (hrun : (lockMachine ids).run (LockState.initial n) es = some s)
    (hwindows : (lockMachine ids).Along outsideWindows (LockState.initial n) es) :
    Excludes s :=
  ((lockMachine ids).invariant_of_along
    (fun _ _ _ hinv hcond hnext => lockMachine_inv ids hinv hcond hnext)
    (lockInv_initial ids) hwindows hrun).excludes

end

/-! ### Two cores -/

/-- Two cores with the APIC ids 0 and 1. -/
def twoCores : ApicIds 2 where
  id c := c.val
  lt c := by omega
  inj c c' h := Fin.ext h

/-- Core 0 acquires the lock and is hit by an NMI in its critical
section. The handler takes the lock once more and gives it back, while
core 1 spins. Core 0 then frees the lock, and core 1 gets it. -/
def acquireRun : List (Fin 2 × CoreEvent) :=
  [(0, .lock), (0, .step), (0, .step), (0, .step),
   (0, .nmiEnter), (0, .lock), (1, .lock), (0, .step), (1, .step), (0, .step), (0, .step),
   (1, .step), (0, .unlock), (0, .step), (0, .step), (0, .nmiExit), (1, .step),
   (0, .unlock), (0, .step), (0, .step), (0, .step), (1, .step), (1, .step)]

/-- `acquireRun` keeps outside the windows. After it core 1 is alone in
the section, and the one release was the owner's. -/
theorem lockMachine_excludes_acquireRun : ∃ s,
    (lockMachine twoCores).run (LockState.initial 2) acquireRun = some s ∧ Excludes s ∧
      (s.cores 0).inCriticalSection = false ∧ (s.cores 1).inCriticalSection = true ∧
      s.releases = [(1, 1)] :=
  ⟨_, rfl, lockMachine_excludes twoCores acquireRun rfl (by decide +kernel), rfl, rfl, rfl⟩

/-- An NMI hits core 0 between its compare-exchange and `m_depth = 1`.
The handler's nested pair brings `m_depth` to 1 and back to 0 and frees
the lock under the main thread. -/
def windowRun : List (Fin 2 × CoreEvent) :=
  [(0, .lock), (0, .step), (0, .step),
   (0, .nmiEnter), (0, .lock), (0, .step), (0, .step), (0, .step),
   (0, .unlock), (0, .step), (0, .step), (0, .step), (0, .nmiExit),
   (0, .step),
   (1, .lock), (1, .step), (1, .step), (1, .step)]

/-- After `windowRun` both cores are inside the critical section. -/
theorem lock_windows_break : ∃ s,
    (lockMachine twoCores).run (LockState.initial 2) windowRun = some s ∧ ¬ Excludes s := by
  refine ⟨_, rfl, fun h => ?_⟩
  exact absurd (h.exclusive 0 1 rfl rfl) (by decide)

end Revhv.Sync
