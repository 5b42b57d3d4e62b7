import Revhv.Lib.Machine
import Mathlib.Logic.Function.Basic

/-!
# `Revhv.Um.OnloadSnapshot`: the trigger of the module snapshot

`handle_at_onload` (`revhv-um/commands.cpp`) starts the poller, resets
the flag `m_snapshot_triggered`, starts the thread that waits for it,
and only then installs the callback that sets it. The workers of the
poller (`revhv-um/trace_poller.hpp`) call the callback once, for the
first batch that is not empty.

`snapshotMachine` interleaves the command from its call of
`poller::start` on with the workers and the snapshot thread. The ghost
field `drained` says that some worker has drained a batch since then.
-/

set_option autoImplicit false

namespace Revhv.OnloadSnapshot

open Revhv.Lib

/-- Where the main thread is in `handle_at_onload`. -/
inductive MainPc where
  /-- In `start`, before the exchange of `m_running`. -/
  | start
  /-- In `start`, before the reset of `m_first_data_fired`. -/
  | resetFired
  /-- In `start`, before the thread of worker `k`. -/
  | spawn (k : Nat)
  | exportConfig
  /-- Before the reset of `m_snapshot_triggered`. -/
  | resetTriggered
  | spawnSnapshot
  /-- In `set_on_first_data`, before the assignment of the callback. -/
  | install
  /-- In the assignment, in which the old callback is gone and the new
  one is not stored yet. -/
  | store
  /-- In `set_on_first_data`, before the reset of `m_first_data_fired`. -/
  | rearm
  | returned
  deriving DecidableEq

/-- Where a worker is. -/
inductive WorkerPc where
  | absent
  | opening
  /-- At the test of `m_running`. -/
  | check
  | drain
  /-- With a batch that is not empty, before the exchange of
  `m_first_data_fired`. -/
  | fire
  /-- It has won the exchange and looks at the callback. -/
  | look
  /-- In the callback. -/
  | callback
  /-- In the drain after a stop request, which calls no callback. -/
  | finalDrain
  | exited
  deriving DecidableEq

/-- Where the snapshot thread is. -/
inductive SnapshotPc where
  | absent
  /-- In the loop that waits for `m_snapshot_triggered`. -/
  | waiting
  /-- In the loop over the module list. -/
  | polling
  | finished
  deriving DecidableEq

/-- The flags of the poller and the command, and the threads. -/
structure SnapshotState (n : Nat) where
  running : Bool
  firstDataFired : Bool
  onFirstData : Bool
  snapshotTriggered : Bool
  main : MainPc
  workers : Fin n → WorkerPc
  snapshot : SnapshotPc
  drained : Bool

/-- What happens next. `opened` matters to a worker that opens its file,
`count` to one that drains, `found` to the snapshot thread in the module
list. -/
inductive SnapshotEvent (n : Nat) where
  | main
  | worker (w : Fin n) (opened : Bool) (count : Nat)
  | snapshot (found : Bool)
  /-- A later command clears `m_running`. -/
  | stop
  deriving DecidableEq

namespace SnapshotState

variable {n : Nat}

/-- The next step of the command. -/
def mainStep (s : SnapshotState n) : Option (SnapshotState n) :=
  match s.main with
  | .start =>
      -- With a poller that runs already `start` returns at once.
      if s.running then some { s with main := .exportConfig }
      else some { s with running := true, main := .resetFired }
  | .resetFired => some { s with firstDataFired := false, main := .spawn 0 }
  | .spawn k =>
      if h : k < n then
        some { s with
          workers := Function.update s.workers ⟨k, h⟩ .opening
          main := .spawn (k + 1) }
      else some { s with main := .exportConfig }
  | .exportConfig => some { s with main := .resetTriggered }
  | .resetTriggered => some { s with snapshotTriggered := false, main := .spawnSnapshot }
  | .spawnSnapshot => some { s with snapshot := .waiting, main := .install }
  -- The assignment of a `std::function` is no atomic step. What it had is destroyed first.
  | .install => some { s with onFirstData := false, main := .store }
  | .store => some { s with onFirstData := true, main := .rearm }
  | .rearm => some { s with firstDataFired := false, main := .returned }
  | .returned => none

/-- The state with worker `w` elsewhere. -/
def goto (s : SnapshotState n) (w : Fin n) (pc : WorkerPc) : SnapshotState n :=
  { s with workers := Function.update s.workers w pc }

/-- The next step of a worker. -/
def workerStep (s : SnapshotState n) (w : Fin n) (opened : Bool) (count : Nat) :
    Option (SnapshotState n) :=
  match s.workers w with
  | .absent | .exited => none
  | .opening => some (s.goto w (if opened then .check else .exited))
  | .check => some (s.goto w (if s.running then .drain else .finalDrain))
  | .drain =>
      -- An empty batch fires nothing.
      if count = 0 then some (s.goto w .check)
      else some { s.goto w .fire with drained := true }
  | .fire =>
      -- Only the first worker with data wins the exchange.
      if s.firstDataFired then some (s.goto w .check)
      else some { s.goto w .look with firstDataFired := true }
  | .look => some (s.goto w (if s.onFirstData then .callback else .check))
  | .callback => some { s.goto w .check with snapshotTriggered := true }
  -- After a stop request the callback is not called any more.
  | .finalDrain =>
      if count = 0 then some (s.goto w .exited) else some { s with drained := true }

/-- The next step of the snapshot thread. -/
def snapshotStep (s : SnapshotState n) (found : Bool) : Option (SnapshotState n) :=
  match s.snapshot with
  | .absent | .finished => none
  | .waiting =>
      if !s.snapshotTriggered && s.running then some s
      else some { s with snapshot := if s.running then .polling else .finished }
  | .polling =>
      some { s with snapshot := if s.running && !found then .polling else .finished }

end SnapshotState

/-- The command, the workers and the snapshot thread. -/
def snapshotMachine (n : Nat) : Machine (SnapshotState n) (SnapshotEvent n) where
  next s
    | .main => s.mainStep
    | .worker w opened count => s.workerStep w opened count
    | .snapshot found => s.snapshotStep found
    | .stop =>
        if s.main = .returned then some { s with running := false } else none

/-- The command before its call of `start`. It has stopped an earlier
poller and joined its threads, and the flags and the callback are as the
earlier command has left them. -/
def SnapshotState.initial (n : Nat) (firstDataFired onFirstData snapshotTriggered : Bool) :
    SnapshotState n where
  running := false
  firstDataFired := firstDataFired
  onFirstData := onFirstData
  snapshotTriggered := snapshotTriggered
  main := .start
  workers _ := .absent
  snapshot := .absent
  drained := false

end Revhv.OnloadSnapshot
