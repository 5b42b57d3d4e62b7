import Revhv.Common.TraceLog
import Revhv.Lib.PriorityQueue

/-!
# `Revhv.Um.TraceMerge`: the merge of the core streams

`core_stream`, `heap_elem` and `merge_format_write`
(`revhv-um/trace_parser.hpp`). The output is the list of entries that are
formatted and written, each with the index of its stream. How an entry is
formatted has no influence on which comes next.

`std::priority_queue` is any queue with the laws of `PriorityQueue`. Which
of several elements with the least timestamp is its top is left open.
-/

set_option autoImplicit false

namespace Revhv.TraceParser

open Revhv.Lib Revhv.Trace

/-- `core_stream`. The entries are those of the mapped view. -/
structure CoreStream where
  coreId : UInt16
  entries : List Entry
  cursor : Nat

/-- A stream as `open_trace_streams` leaves it. -/
def CoreStream.opened (coreId : UInt16) (entries : List Entry) : CoreStream := ⟨coreId, entries, 0⟩

/-- `done`. -/
def CoreStream.done (s : CoreStream) : Bool := decide (s.entries.length ≤ s.cursor)

/-- `current`. `none` is a read past the end. -/
def CoreStream.current? (s : CoreStream) : Option Entry := s.entries[s.cursor]?

/-- `heap_elem`. -/
structure HeapElem where
  timestamp : UInt64
  streamIndex : Nat
  deriving DecidableEq

/-- `operator>`. -/
def HeapElem.gt (a b : HeapElem) : Bool := decide (b.timestamp < a.timestamp)

/-- A `std::priority_queue` with `std::greater`. -/
abbrev MinHeap := PriorityQueue HeapElem HeapElem.gt

section
variable (q : MinHeap)

/-- An element for the current entry of a stream that is not done.
`none` is undefined behaviour. -/
def pushCurrent (heap : q.State) (s : CoreStream) (i : Nat) : Option q.State :=
  if s.done then some heap
  else s.current?.map fun entry => q.push heap ⟨entry.timestamp, i⟩

/-- The loop that fills the heap. -/
def initHeap (streams : List CoreStream) : Option q.State :=
  (List.range streams.length).foldlM
    (fun heap i => streams[i]?.bind fun s => pushCurrent q heap s i) q.empty

/-- The main loop with so many rounds. `none`: they did not suffice, or
a read past the end. -/
def mergeLoop : Nat → q.State → List CoreStream → List (Nat × Entry) → Option (List (Nat × Entry))
  | 0, _, _, _ => none
  | rounds + 1, heap, streams, written =>
      match q.top? heap with
      | none => some written
      | some e => do
          let heap := q.pop heap
          let stream ← streams[e.streamIndex]?
          -- The entry that is written is the stream's current one, the heap
          -- holds only its key.
          let entry ← stream.current?
          let stream := { stream with cursor := stream.cursor + 1 }
          let heap ← pushCurrent q heap stream e.streamIndex
          mergeLoop rounds heap (streams.set e.streamIndex stream)
            (written ++ [(e.streamIndex, entry)])

/-- `merge_format_write`, up to the file it writes. -/
def mergeFormatWrite (rounds : Nat) (streams : List CoreStream) : Option (List (Nat × Entry)) := do
  let heap ← initHeap q streams
  mergeLoop q rounds heap streams []

end

end Revhv.TraceParser
