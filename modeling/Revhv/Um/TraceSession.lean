import Revhv.Km.Hypercall.Flush
import Revhv.Lib.Machine

/-!
# `Revhv.Um.TraceSession`: a core's trace, from the ring to the file

Three parties work on the ring of one core: the exit handler emits, the
poller's worker for the core drains (`poller::worker`,
`revhv-um/trace_poller.hpp`), and the controller runs `at enable` and
`at disable` (`handle_at`, `revhv-um/commands.cpp`). The worker is
pinned to the core, so emits and hypercalls of the core come one after
the other. `sessionMachine` interleaves everything else.

Two ghost fields: `accepted` lists the entries `emit` accepted since the
ring was last activated from an inactive state, and `opened` says that
the worker has opened the file since then.
-/

set_option autoImplicit false

namespace Revhv.TraceSession

open Revhv.Lib Revhv.Trace Revhv.Introspection Revhv.Hypercall

/-- Where the worker thread is. `final` marks the drain after a stop
request. -/
inductive WorkerPc where
  /-- There is no thread. -/
  | absent
  | opening
  /-- At the test of `m_running`. -/
  | check
  | drain (final : Bool)
  | write (batch : List Entry) (final : Bool)
  /-- The thread function has returned. -/
  | exited

/-- Where the controller is inside a command. -/
inductive ControllerPc where
  | idle
  | enableHypercall
  | startPoller
  | stopPoller
  | join
  | disableHypercall
  deriving DecidableEq

/-- The commands of the session. -/
inductive Command where
  | enable
  | disable

/-- The ring of the core, `m_running`, the two threads, and the entries
in the core's `trace_core_N.bin`. -/
structure SessionState where
  ring : RingBuffer
  running : Bool
  worker : WorkerPc
  controller : ControllerPc
  file : List Entry
  accepted : List Entry
  opened : Bool

/-- What can happen next. -/
inductive SessionEvent where
  | emit (fmt : FormatId) (core : UInt16) (tsc : UInt64) (d : Fin 6 → UInt64)
  | command (c : Command)
  /-- `auto_trace_enable`: the outcome on this core, and on all the
  others. -/
  | enableHypercall (here elsewhere : Bool)
  | startPoller
  | stopPoller
  | join
  | disableHypercall
  /-- The worker opens the file, or fails to. -/
  | openFile (ok : Bool)
  | checkRunning
  /-- `drain_trace_logs` with the guest pages that each batch finds. -/
  | drain (pages : Nat → GuestPages)
  | writeBatch

/-- `drain_trace_logs` on the core: the ring, and the entries it returns
in the batch array at `batchVa`. -/
def drainTraceLogs (batchVa : Nat) (pages : Nat → GuestPages) (buf : RingBuffer) :
    RingBuffer × List Entry :=
  let r := flushTraceLoop pages batchVa maxFlushEntries maxFlushEntries buf 0 fun _ => none
  (r.1, returnedRecords r.2.1 r.2.2)

/-- A step of the exit handler. -/
def emitEvent (s : SessionState) (fmt : FormatId) (core : UInt16) (tsc : UInt64)
    (d : Fin 6 → UInt64) : SessionState :=
  { s with
    ring := emit s.ring fmt core tsc d
    accepted := if emitAccepts s.ring then s.accepted ++ [makeEntry fmt core tsc d]
      else s.accepted }

/-- A step of the controller. -/
def controllerEvent (s : SessionState) : SessionEvent → Option SessionState
  | .command c =>
      if s.controller = .idle then
        some { s with controller := match c with
          | .enable => .enableHypercall
          | .disable => .stopPoller }
      else none
  | .enableHypercall here elsewhere =>
      if s.controller = .enableHypercall then
        let s := { s with
          controller := if here && elsewhere then .startPoller else .idle }
        if here then
          some { s with
            ring := activate s.ring
            accepted := if s.ring.active then s.accepted else []
            opened := s.ring.active && s.opened }
        else some s
      else none
  | .startPoller =>
      if s.controller = .startPoller then
        -- `m_running.exchange(true)` returns early when a poller runs already.
        some { s with
          controller := .idle
          running := true
          worker := if s.running then s.worker else .opening }
      else none
  | .stopPoller =>
      if s.controller = .stopPoller then
        some { s with
          controller := if s.running then .join else .disableHypercall
          running := false }
      else none
  | .join =>
      match s.controller, s.worker with
      | .join, .exited => some { s with controller := .disableHypercall, worker := .absent }
      | _, _ => none
  | .disableHypercall =>
      if s.controller = .disableHypercall then
        some { s with controller := .idle, ring := deactivate s.ring }
      else none
  | _ => none

/-- A step of the worker. -/
def workerEvent (batchVa : Nat) (s : SessionState) : SessionEvent → Option SessionState
  | .openFile ok =>
      match s.worker with
      | .opening =>
          -- The file is truncated.
          if ok then some { s with worker := .check, file := [], opened := true }
          else some { s with worker := .exited }
      | _ => none
  | .checkRunning =>
      match s.worker with
      | .check => some { s with worker := .drain (!s.running) }
      | _ => none
  | .drain pages =>
      match s.worker with
      | .drain final =>
          let r := drainTraceLogs batchVa pages s.ring
          -- An empty batch ends the final drain, and sends the loop back to its test.
          some { s with
            ring := r.1
            worker := if r.2 = [] then (if final then .exited else .check)
              else .write r.2 final }
      | _ => none
  | .writeBatch =>
      match s.worker with
      | .write batch final =>
          some { s with
            file := s.file ++ batch
            worker := if final then .drain true else .check }
      | _ => none
  | _ => none

/-- The session of one core. The worker's batch array is at `batchVa`. -/
def sessionMachine (batchVa : Nat) : Machine SessionState SessionEvent where
  next s ev :=
    match ev with
    | .emit fmt core tsc d => some (emitEvent s fmt core tsc d)
    | .openFile _ | .checkRunning | .drain _ | .writeBatch => workerEvent batchVa s ev
    | _ => controllerEvent s ev

/-- A core before any session: a zeroed ring, and whatever file there
is. -/
def SessionState.initial (entries : Nat → Entry) (file : List Entry) : SessionState where
  ring := ⟨0, 0, false, entries⟩
  running := false
  worker := .absent
  controller := .idle
  file := file
  accepted := []
  opened := false

end Revhv.TraceSession
