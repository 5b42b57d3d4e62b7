import Revhv.Lib.Machine
import Mathlib.Logic.Function.Basic
import Mathlib.Algebra.Group.Int.Defs
import Mathlib.Data.Int.Basic

/-!
# `Revhv.Km.Sync`: the reentrant spin lock

`sync::reentrant_spin_lock` (`revhv-km/sync.hpp`) keeps the owner token
and the recursion depth in two words. Its three operations are given as
the memory steps they consist of: the read of `m_owner`, the load and
the store of `++m_depth` and `--m_depth`, the compare-exchange, the
store `m_depth = 1`, and the exchange that frees the lock.

A core runs a main thread and, while a host NMI is handled, a second
one on top of it. The handler logs, so it locks and unlocks; the main
thread stands still until it returns. `lockMachine` interleaves any
number of cores.
-/

set_option autoImplicit false

namespace Revhv.Sync

open Revhv.Lib

/-- The initial APIC ids of the cores: distinct, and below 255. -/
structure ApicIds (n : Nat) where
  id : Fin n → Nat
  lt : ∀ c, id c < 255
  inj : Function.Injective id

/-- `get_owner_id`: the APIC id plus one, so that no token is
`UNLOCKED`. -/
def ApicIds.ownerId {n : Nat} (ids : ApicIds n) (c : Fin n) : Nat := ids.id c + 1

/-- The `UNLOCKED` value of `m_owner`. -/
def unlocked : Nat := 0

/-- The value a `long` holds after a store of `d`. -/
def toLong (d : Int) : Int := d.bmod (2 ^ 32)

/-- The two words of the lock. -/
structure ReentrantSpinLock where
  owner : Nat
  depth : Int
  deriving DecidableEq

/-- Where a thread is inside `lock`, `try_lock` or `unlock`. `tryOnly`
tells `try_lock` from `lock`. -/
inductive LockPc where
  | idle
  | readOwner (tryOnly : Bool)
  /-- `++m_depth` before its load. -/
  | incLoad
  /-- `++m_depth` with `d` loaded, before its store. -/
  | incStore (d : Int)
  | compareExchange (tryOnly : Bool)
  /-- The exchange succeeded, `m_depth = 1` is not stored yet. -/
  | setDepth
  /-- `--m_depth` before its load. -/
  | decLoad
  /-- `--m_depth` with `d` loaded, before its store. -/
  | decStore (d : Int)
  /-- The depth reached 0, `m_owner` is not exchanged yet. -/
  | release
  deriving DecidableEq

/-- A thread: its program point, and the acquisitions whose `lock` has
returned and whose `unlock` has not begun. With `held` positive the
thread is inside its critical section. -/
structure Thread where
  pc : LockPc
  held : Nat
  deriving DecidableEq

/-- One memory step of the operation a thread is in. `id` is the token
of its core. -/
def stepThread (id : Nat) (lk : ReentrantSpinLock) (t : Thread) :
    Option (ReentrantSpinLock × Thread) :=
  match t.pc with
  | .idle => none
  | .readOwner tryOnly =>
      some (lk, { t with pc := if lk.owner = id then .incLoad else .compareExchange tryOnly })
  | .incLoad => some (lk, { t with pc := .incStore lk.depth })
  | .incStore d => some ({ lk with depth := toLong (d + 1) }, ⟨.idle, t.held + 1⟩)
  | .compareExchange tryOnly =>
      if lk.owner = unlocked then some ({ lk with owner := id }, { t with pc := .setDepth })
      -- `lock` pauses and tries again, `try_lock` returns false.
      else if tryOnly then some (lk, { t with pc := .idle })
      else some (lk, t)
  | .setDepth => some ({ lk with depth := 1 }, ⟨.idle, t.held + 1⟩)
  | .decLoad => some (lk, { t with pc := .decStore lk.depth })
  | .decStore d =>
      some ({ lk with depth := toLong (d - 1) },
        { t with pc := if toLong (d - 1) = 0 then .release else .idle })
  | .release => some ({ lk with owner := unlocked }, { t with pc := .idle })

/-- A core: the main thread, and the NMI handler's thread while one
runs. -/
structure Core where
  main : Thread
  nmi : Option Thread
  deriving DecidableEq

/-- The thread that runs: the NMI handler if there is one. -/
def Core.running (k : Core) : Thread := k.nmi.getD k.main

/-- The core with its running thread replaced. -/
def Core.setRunning (k : Core) (t : Thread) : Core :=
  match k.nmi with
  | none => { k with main := t }
  | some _ => { k with nmi := some t }

/-- What a core does next: begin an operation, make one memory step of
it, or enter or leave the NMI handler. -/
inductive CoreEvent where
  | lock
  | tryLock
  | unlock
  | step
  | nmiEnter
  | nmiExit
  deriving DecidableEq

/-- One event of a core with token `id`. An NMI arrives between any two
steps and is blocked while one is handled. The handler leaves with every
acquisition of its own released. -/
def coreEvent (id : Nat) (lk : ReentrantSpinLock) (k : Core) :
    CoreEvent → Option (ReentrantSpinLock × Core)
  | .lock =>
      if k.running.pc = .idle then
        some (lk, k.setRunning { k.running with pc := .readOwner false })
      else none
  | .tryLock =>
      if k.running.pc = .idle then
        some (lk, k.setRunning { k.running with pc := .readOwner true })
      else none
  | .unlock =>
      -- The code unlocks only what it has locked.
      if k.running.pc = .idle ∧ 0 < k.running.held then
        some (lk, k.setRunning ⟨.decLoad, k.running.held - 1⟩)
      else none
  | .step =>
      (stepThread id lk k.running).map fun r => (r.1, k.setRunning r.2)
  | .nmiEnter =>
      match k.nmi with
      | none => some (lk, { k with nmi := some ⟨.idle, 0⟩ })
      | some _ => none
  | .nmiExit =>
      -- The handler leaves when its own locks are released.
      if k.nmi = some ⟨.idle, 0⟩ then some (lk, { k with nmi := none }) else none

/-- The lock, the cores, and the ghost list of releases: for each
exchange of `m_owner` with `UNLOCKED`, the token of the releasing core
and the token it found there. -/
structure LockState (n : Nat) where
  lock : ReentrantSpinLock
  cores : Fin n → Core
  releases : List (Nat × Nat)

/-- The lock used by `n` cores. -/
def lockMachine {n : Nat} (ids : ApicIds n) : Machine (LockState n) (Fin n × CoreEvent) where
  next s ev :=
    let k := s.cores ev.1
    (coreEvent (ids.ownerId ev.1) s.lock k ev.2).map fun r =>
      { lock := r.1
        cores := Function.update s.cores ev.1 r.2
        releases :=
          if ev.2 = .step ∧ k.running.pc = .release then
            s.releases ++ [(ids.ownerId ev.1, s.lock.owner)]
          else s.releases }

/-- A free lock and cores that are not in any operation. -/
def LockState.initial (n : Nat) : LockState n where
  lock := ⟨unlocked, 0⟩
  cores _ := ⟨⟨.idle, 0⟩, none⟩
  releases := []

/-- A core is inside the critical section when one of its threads is. -/
def Core.inCriticalSection (k : Core) : Bool :=
  decide (0 < k.main.held) || (k.nmi.map fun t => decide (0 < t.held)).getD false

/-- A thread has released the lock: it holds nothing, and no operation
of it has got past its compare-exchange. -/
def Thread.released (t : Thread) : Bool :=
  t.held == 0 && match t.pc with
    | .idle | .readOwner _ | .compareExchange _ => true
    | _ => false

/-- What the lock is for. At most one core is inside the critical
section, every release was made by the owner, and once every thread has
released the lock it is free. -/
structure Excludes {n : Nat} (s : LockState n) : Prop where
  exclusive : ∀ c c', (s.cores c).inCriticalSection = true →
    (s.cores c').inCriticalSection = true → c = c'
  own_release : ∀ r ∈ s.releases, r.2 = r.1
  free : (∀ c, (s.cores c).main.released = true ∧ ∀ t ∈ (s.cores c).nmi, t.released = true) →
    s.lock.owner = unlocked

/-- What a thread adds to `m_depth`. An `unlock` that has not stored yet
still counts. -/
def Thread.weight (t : Thread) : Nat :=
  match t.pc with
  | .decLoad | .decStore _ => t.held + 1
  | _ => t.held

/-- The acquisitions of a core that `m_depth` counts. -/
def Core.weight (k : Core) : Nat :=
  k.main.weight + (k.nmi.map Thread.weight).getD 0

/-- A step keeps clear of the two windows, and of the wrap of `m_depth`.
The windows lie between the successful compare-exchange and `m_depth =
1`, and between the store that brings `m_depth` to 0 and the exchange
that frees the lock: an NMI handler that interrupts either must not
begin an acquisition. And no `--m_depth` leaves a positive multiple of
2^32 acquisitions, which the `long` shows as 0. -/
def outsideWindows {n : Nat} (s : LockState n) (ev : Fin n × CoreEvent) : Prop :=
  let k := s.cores ev.1
  ((ev.2 = .lock ∨ ev.2 = .tryLock) → k.nmi.isSome →
    k.main.pc ≠ .setDepth ∧ k.main.pc ≠ .release) ∧
  (ev.2 = .step → ∀ d, k.running.pc = .decStore d →
    k.weight - 1 ≠ 0 → ¬ 2 ^ 32 ∣ k.weight - 1)

/-- A condition on the depth that `--m_depth` has loaded is one on the
program point. -/
instance decidableDecStore (P : Prop) [Decidable P] :
    ∀ pc : LockPc, Decidable (∀ d, pc = .decStore d → P)
  | .decStore d => decidable_of_iff P ⟨fun h _ _ => h, fun h => h d rfl⟩
  | .idle | .readOwner _ | .incLoad | .incStore _ | .compareExchange _ | .setDepth | .decLoad
  | .release => isTrue fun _ h => nomatch h

/-- Whether an event keeps clear of the windows is checked on its core
alone, so a run can be checked step by step. -/
instance decidableOutsideWindows {n : Nat} (s : LockState n) (ev : Fin n × CoreEvent) :
    Decidable (outsideWindows s ev) := inferInstanceAs (Decidable (_ ∧ _))

end Revhv.Sync
