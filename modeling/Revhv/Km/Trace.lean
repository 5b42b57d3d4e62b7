import Revhv.Common.TraceLog
import Revhv.Lib.Machine

/-!
# `Revhv.Km.Trace`: `emit` and `drain`

`revhv-km/trace.h`. `emit` and `drain` are given twice. First as the
functions the exit handler calls, for every model in which the two run
one after the other on a core. Then as the memory steps they consist
of, for the model in which one producer and one consumer interleave.

The step machine `ringMachine` carries four ghost fields. `published`
lists the entries whose `write_head` store was made, `copied` those the
consumer has copied out, `released` counts the slots handed back by
`read_tail` stores, and `drops` records, for each entry `emit` gave up
on, how many published entries were not released then.
-/

set_option autoImplicit false

namespace Revhv.Trace

open Revhv.Lib

/-- The entry `emit` writes for its arguments, `tsc` the value of
`__rdtsc`. -/
def makeEntry (fmt : FormatId) (core : UInt16) (tsc : UInt64) (d : Fin 6 → UInt64) : Entry where
  formatId := fmt
  coreId := core
  pad0 := 0
  timestamp := tsc
  data := d

/-- `emit` stores the entry: the ring is active and one slot stays free
behind it. -/
def emitAccepts (buf : RingBuffer) : Bool :=
  buf.active && nextIndex buf.writeHead != buf.readTail

/-- `trace::emit` on a ring nobody else touches meanwhile. -/
def emit (buf : RingBuffer) (fmt : FormatId) (core : UInt16) (tsc : UInt64)
    (d : Fin 6 → UInt64) : RingBuffer :=
  if !buf.active then buf
  else
    let head := buf.writeHead
    let next := nextIndex head
    -- A full ring drops the entry without a trace.
    if next = buf.readTail then buf
    else { buf with
      entries := Function.update buf.entries head (makeEntry fmt core tsc d)
      writeHead := next }

/-- The loop of `drain`: at most `fuel` further entries from `tail` on,
and the tail it stops at. -/
def drainLoop (buf : RingBuffer) : (fuel tail : Nat) → List Entry × Nat
  | 0, tail => ([], tail)
  | fuel + 1, tail =>
      if tail = buf.writeHead then ([], tail)
      else
        let rest := drainLoop buf fuel (nextIndex tail)
        (buf.entries tail :: rest.1, rest.2)

/-- `trace::drain` on a ring nobody else touches meanwhile: the ring
with its new `read_tail`, and the entries copied out. The count it
returns is their number. -/
def drain (buf : RingBuffer) (maxEntries : Nat) : RingBuffer × List Entry :=
  let out := drainLoop buf maxEntries buf.readTail
  ({ buf with readTail := out.2 }, out.1)

/-- What a successful `handle_enable_auto_trace` does to the core's
ring. -/
def activate (buf : RingBuffer) : RingBuffer :=
  { buf with writeHead := 0, readTail := 0, active := true }

/-- What `handle_disable_auto_trace` does to the core's ring. -/
def deactivate (buf : RingBuffer) : RingBuffer := { buf with active := false }

/-- The rings a core can come to have, between two calls: the zeroed
ring of a new vCPU, then any order of resets by an enable, of disables,
`emit`s and `drain`s. -/
inductive RingBuffer.Reachable : RingBuffer → Prop
  | zeroed (entries : Nat → Entry) : Reachable ⟨0, 0, false, entries⟩
  | enable {buf : RingBuffer} : Reachable buf → Reachable (activate buf)
  | disable {buf : RingBuffer} : Reachable buf → Reachable (deactivate buf)
  | emit {buf : RingBuffer} (fmt : FormatId) (core : UInt16) (tsc : UInt64)
      (d : Fin 6 → UInt64) : Reachable buf → Reachable (Trace.emit buf fmt core tsc d)
  | drain {buf : RingBuffer} (maxEntries : Nat) :
      Reachable buf → Reachable (Trace.drain buf maxEntries).1

/-! ### The memory steps -/

/-- Where the producer is inside `emit`. -/
inductive EmitPc where
  | idle
  | checkActive (e : Entry)
  | readHead (e : Entry)
  | readTail (e : Entry) (head : Nat)
  /-- `k` of the field stores into `entries[head]` are made. -/
  | fill (e : Entry) (head k : Nat)

/-- Where the consumer is inside `drain`. `scratch` is the destination
array before the call, `out` what this call has copied so far. -/
inductive DrainPc where
  | idle
  | readTail (maxEntries : Nat) (scratch : Nat → Entry)
  | test (maxEntries : Nat) (scratch : Nat → Entry) (out : List Entry) (tail : Nat)
  /-- `k` of the field loads from `entries[tail]` are made, into `part`. -/
  | copy (maxEntries : Nat) (scratch : Nat → Entry) (out : List Entry) (tail : Nat)
      (part : Entry) (k : Nat)
  | publish (out : List Entry) (tail : Nat)

/-- The ring, the two program points, and the ghost fields of the module
docstring. -/
structure RingState where
  buf : RingBuffer
  emitPc : EmitPc
  drainPc : DrainPc
  published : List Entry
  copied : List Entry
  released : Nat
  drops : List Nat

/-- What can happen next: a call of `emit` or `drain`, or one memory
step of the call under way. -/
inductive RingEvent where
  | emit (e : Entry)
  | emitStep
  | drain (maxEntries : Nat) (scratch : Nat → Entry)
  | drainStep

/-- One memory step of the producer. -/
def emitStep (s : RingState) : Option RingState :=
  match s.emitPc with
  | .idle => none
  | .checkActive e =>
      some { s with emitPc := if s.buf.active then .readHead e else .idle }
  | .readHead e => some { s with emitPc := .readTail e s.buf.writeHead }
  | .readTail e head =>
      if nextIndex head = s.buf.readTail then
        some { s with
          emitPc := .idle
          drops := s.drops ++ [s.published.length - s.released] }
      else some { s with emitPc := .fill e head 0 }
  | .fill e head k =>
      if k < Entry.fieldCount then
        some { s with
          buf := { s.buf with
            entries := Function.update s.buf.entries head (e.storeField k (s.buf.entries head)) }
          emitPc := .fill e head (k + 1) }
      else
        -- The barrier keeps this store behind the field stores.
        some { s with
          buf := { s.buf with writeHead := nextIndex head }
          emitPc := .idle
          published := s.published ++ [e] }

/-- One memory step of the consumer. -/
def drainStep (s : RingState) : Option RingState :=
  match s.drainPc with
  | .idle => none
  | .readTail maxEntries scratch =>
      some { s with drainPc := .test maxEntries scratch [] s.buf.readTail }
  | .test maxEntries scratch out tail =>
      -- The head is read again in every round, so entries that come in
      -- meanwhile are taken too.
      if out.length < maxEntries ∧ tail ≠ s.buf.writeHead then
        some { s with drainPc := .copy maxEntries scratch out tail (scratch out.length) 0 }
      else some { s with drainPc := .publish out tail }
  | .copy maxEntries scratch out tail part k =>
      -- The copy is no single step: the producer may run between two fields.
      if k < Entry.fieldCount then
        some { s with
          drainPc := .copy maxEntries scratch out tail
            ((s.buf.entries tail).storeField k part) (k + 1) }
      else
        some { s with
          drainPc := .test maxEntries scratch (out ++ [part]) (nextIndex tail)
          copied := s.copied ++ [part] }
  | .publish out tail =>
      -- One store gives all copied places back.
      some { s with
        buf := { s.buf with readTail := tail }
        drainPc := .idle
        released := s.released + out.length }

/-- One producer and one consumer on one ring. -/
def ringMachine : Machine RingState RingEvent where
  next s
    | .emit e =>
        match s.emitPc with
        | .idle => some { s with emitPc := .checkActive e }
        | _ => none
    | .emitStep => emitStep s
    | .drain maxEntries scratch =>
        match s.drainPc with
        | .idle => some { s with drainPc := .readTail maxEntries scratch }
        | _ => none
    | .drainStep => drainStep s

/-- A ring that is empty and active, with nobody inside `emit` or
`drain`. The slots hold whatever they held before. -/
def RingState.initial (entries : Nat → Entry) : RingState where
  buf := { writeHead := 0, readTail := 0, active := true, entries }
  emitPc := .idle
  drainPc := .idle
  published := []
  copied := []
  released := 0
  drops := []

end Revhv.Trace
