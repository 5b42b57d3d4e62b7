import Revhv.Km.Sync

/-!
# `Revhv.Km.Preemption`: locks shared by guest code and the exit handler

`onload_target.lock` is a plain `sync::spin_lock`, `logger.spinlock` a
`sync::reentrant_spin_lock` (`revhv-km/sync.hpp`). Kernel code of the
guest takes them as an ordinary thread, which the scheduler may suspend
and move between any two steps (`revhv-km/hooks.cpp`,
`revhv-km/logging.cpp`). The exit handler takes the same locks
(`revhv-km/hypercall.cpp`, `revhv-km/vmexit.cpp`), and while it waits
its core runs nothing else.

`hostMachine` interleaves the threads, the scheduler and the exit
handlers of all cores. Ghost fields: `period` counts the successful
compare-exchanges on the logger's lock, and `joined` is the period in
which a thread has found its own token there.
-/

set_option autoImplicit false

namespace Revhv.Preemption

open Revhv.Lib Revhv.Sync

/-! ### `spin_lock` -/

/-- Where a thread is with a plain lock. -/
inductive SpinPc where
  | idle
  /-- In the loop of `lock`. -/
  | spin
  | inside
  deriving DecidableEq

/-- The steps of a thread with a lock. -/
inductive LockOp where
  | lock
  | step
  | unlock
  deriving DecidableEq

/-- One operation on a plain lock. The flag is set while it is taken. -/
def spinStep (flag : Bool) : SpinPc → LockOp → Option (Bool × SpinPc)
  | .idle, .lock => some (flag, .spin)
  | .spin, .step => some (if flag then (flag, .spin) else (true, .inside))
  | .inside, .unlock => some (false, .idle)
  | _, _ => none

/-! ### Threads and exit handlers -/

/-- A thread of the guest: the core it is assigned to, the token `lock`
has read for it, and where it is with the two locks. -/
structure GuestThread (n : Nat) where
  core : Fin n
  token : Nat
  logger : Thread
  joined : Nat
  onload : SpinPc

/-- What a VM exit does with the locks. -/
inductive ExitKind where
  /-- Nothing is logged before the next VM entry. -/
  | quiet
  /-- The handler logs, or an NMI does during it. -/
  | logs
  /-- The hypercalls `set_onload_target` and `clear_onload_target`,
  which log too. -/
  | target
  deriving DecidableEq

/-- The exit handler of a core, with the NMI handler that may interrupt
it. -/
structure RootContext where
  kind : ExitKind
  logger : Core
  onload : SpinPc

/-- The locks, the threads, the thread each core runs, and the exit
handlers. -/
structure HostState (n : Nat) where
  logger : ReentrantSpinLock
  period : Nat
  onloadFlag : Bool
  threads : Nat → GuestThread n
  running : Fin n → Option Nat
  root : Fin n → Option RootContext

/-- What happens next. -/
inductive HostEvent (n : Nat) where
  | guestLogger (t : Nat) (op : LockOp)
  | guestOnload (t : Nat) (op : LockOp)
  /-- The scheduler takes a thread off its core. -/
  | preempt (c : Fin n)
  | dispatch (c : Fin n) (t : Nat)
  /-- The scheduler moves a thread that is not running. -/
  | move (t : Nat) (c : Fin n)
  | exit (c : Fin n) (kind : ExitKind)
  | rootLogger (c : Fin n) (op : CoreEvent)
  | rootOnload (c : Fin n) (op : LockOp)
  | entry (c : Fin n)

/-- The period after a step that has found `lock` and left `lock'`. -/
def periodAfter (lock lock' : ReentrantSpinLock) (period : Nat) : Nat :=
  if lock.owner = unlocked ∧ lock'.owner ≠ unlocked then period + 1 else period

/-- `joined` after the next step of a thread, `period` being the one
after the step. -/
def GuestThread.joinedAfter {n : Nat} (t : GuestThread n) (lock : ReentrantSpinLock)
    (period : Nat) : Nat :=
  match t.logger.pc with
  | .readOwner _ => if lock.owner = t.token then period else t.joined
  | .compareExchange _ => if lock.owner = unlocked then period else t.joined
  | _ => t.joined

/-- One operation of a thread on the logger's lock: the lock and the
thread after it. -/
def GuestThread.loggerStep {n : Nat} (ids : ApicIds n) (t : GuestThread n)
    (lock : ReentrantSpinLock) (period : Nat) : LockOp → Option (ReentrantSpinLock × GuestThread n)
  | .lock =>
      if t.logger.pc = .idle then
        -- The token is read once. It stays even if the thread is moved.
        some (lock, { t with
          token := ids.ownerId t.core
          logger := { t.logger with pc := .readOwner false } })
      else none
  | .step =>
      (stepThread t.token lock t.logger).map fun r =>
        (r.1, { t with
          logger := r.2
          joined := t.joinedAfter lock (periodAfter lock r.1 period) })
  | .unlock =>
      if t.logger.pc = .idle ∧ 0 < t.logger.held then
        some (lock, { t with logger := ⟨.decLoad, t.logger.held - 1⟩ })
      else none

/-- A thread outside both locks. The hypercalls of the hook and of the
client are made there. -/
def GuestThread.free {n : Nat} (t : GuestThread n) : Prop :=
  t.logger = ⟨.idle, 0⟩ ∧ t.onload = .idle

/-- Whether a thread is free shows in its own fields. -/
instance {n : Nat} (t : GuestThread n) : Decidable t.free := inferInstanceAs (Decidable (_ ∧ _))

namespace HostState

variable {n : Nat}

/-- The thread makes its next step: its core runs it, in the guest. -/
def canRun (s : HostState n) (t : Nat) : Prop :=
  s.running (s.threads t).core = some t ∧ s.root (s.threads t).core = none

/-- Whether a thread can run shows in the state of the cores. -/
instance (s : HostState n) (t : Nat) : Decidable (s.canRun t) :=
  match h : s.root (s.threads t).core with
  | none => decidable_of_iff (s.running (s.threads t).core = some t) (by simp [canRun, h])
  | some _ => isFalse (by simp [canRun, h])

/-- The exit handler that starts on core `c`. The two hypercalls are
instructions of the running thread. -/
def exitTo (s : HostState n) (c : Fin n) (kind : ExitKind) : Option (HostState n) :=
  let entered := { s with
    root := Function.update s.root c (some ⟨kind, ⟨⟨.idle, 0⟩, none⟩, .idle⟩) }
  match s.root c, kind, s.running c with
  | some _, _, _ => none
  | none, .target, some t => if (s.threads t).free then some entered else none
  | none, .target, none => none
  | none, _, _ => some entered

end HostState

/-- The threads, the scheduler and the exit handlers. -/
def hostMachine {n : Nat} (ids : ApicIds n) : Machine (HostState n) (HostEvent n) where
  next s
    | .guestLogger t op =>
        if s.canRun t then
          ((s.threads t).loggerStep ids s.logger s.period op).map fun r =>
            { s with
              logger := r.1
              period := periodAfter s.logger r.1 s.period
              threads := Function.update s.threads t r.2 }
        else none
    | .guestOnload t op =>
        if s.canRun t then
          (spinStep s.onloadFlag (s.threads t).onload op).map fun r =>
            { s with
              onloadFlag := r.1
              threads := Function.update s.threads t { s.threads t with onload := r.2 } }
        else none
    -- Root mode is not preempted, and a core that runs no thread has nothing to
    -- give up.
    | .preempt c =>
        match s.root c, s.running c with
        | none, some _ => some { s with running := Function.update s.running c none }
        | _, _ => none
    | .dispatch c t =>
        match s.root c, s.running c with
        | none, none =>
            if (s.threads t).core = c then
              some { s with running := Function.update s.running c (some t) }
            else none
        | _, _ => none
    -- The scheduler moves a thread only while no core runs it.
    | .move t c =>
        if s.running (s.threads t).core ≠ some t then
          some { s with
            threads := Function.update s.threads t { s.threads t with core := c } }
        else none
    | .exit c kind => s.exitTo c kind
    | .rootLogger c op =>
        match s.root c with
        | none => none
        | some r =>
            -- Only a handler that logs reaches the logger's lock.
            if r.kind = .quiet then none
            else
              (coreEvent (ids.ownerId c) s.logger r.logger op).map fun a =>
                { s with
                  logger := a.1
                  period := periodAfter s.logger a.1 s.period
                  root := Function.update s.root c (some { r with logger := a.2 }) }
    | .rootOnload c op =>
        match s.root c with
        | none => none
        | some r =>
            if r.kind = .target then
              (spinStep s.onloadFlag r.onload op).map fun a =>
                { s with
                  onloadFlag := a.1
                  root := Function.update s.root c (some { r with onload := a.2 }) }
            else none
    | .entry c =>
        match s.root c with
        | none => none
        | some r =>
            -- The handler returns to the guest when it holds no lock any more.
            if r.logger = ⟨⟨.idle, 0⟩, none⟩ ∧ r.onload = .idle then
              some { s with root := Function.update s.root c none }
            else none

/-- Free locks, no exit handler, and threads outside the locks on some
cores. -/
def HostState.initial {n : Nat} (core : Nat → Fin n) : HostState n where
  logger := ⟨unlocked, 0⟩
  period := 0
  onloadFlag := false
  threads t := ⟨core t, 0, ⟨.idle, 0⟩, 0, .idle⟩
  running _ := none
  root _ := none

end Revhv.Preemption
