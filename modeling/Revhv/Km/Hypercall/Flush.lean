import Revhv.Km.Logging
import Revhv.Km.Trace
import Revhv.Km.Vcpu

/-!
# `Revhv.Km.Hypercall.Flush`: the flush hypercalls

`handle_flush_trace_logs` and `handle_flush_standard_logs`
(`revhv-km/hypercall.cpp`). The trace flush goes through the vCPU's
local buffer, one page long, in batches of 64 entries.
-/

set_option autoImplicit false

namespace Revhv.Hypercall

open Revhv.Introspection Revhv.Logging Revhv.Trace Revhv.Vcpu

/-- Size of `hypercall_local_buffer`. -/
def maxVmemChunkSize : Nat := 0x1000

/-- Entries that fit the local buffer. -/
def batchCapacity : Nat := maxVmemChunkSize / entrySize

/-- The loop of `handle_flush_trace_logs` from `total` flushed entries
on. `pages k` are the guest pages during the write of the batch that
starts at slot `k`. -/
def flushTraceLoop (pages : Nat → GuestPages) (guestBuffer maxEntries : Nat) :
    (fuel : Nat) → RingBuffer → Nat → CallerArray Entry → RingBuffer × Nat × CallerArray Entry
  | 0, buf, total, out => (buf, total, out)
  | fuel + 1, buf, total, out =>
      if total < maxEntries then
        let toDrain := min (maxEntries - total) batchCapacity
        let (buf', batch) := drain buf toDrain
        let drained := batch.length
        if drained = 0 then (buf', total, out)
        else
          let bytesToWrite := drained * entrySize
          let dest := (guestBuffer + total * entrySize) % 2 ^ 64
          let written := writeGuestVirtual (pages total) dest bytesToWrite
          let out' := out.store total batch (written / entrySize)
          -- The batch has left the ring already.
          if written ≠ bytesToWrite then (buf', total, out')
          else flushTraceLoop pages guestBuffer maxEntries fuel buf' (total + drained) out'
      else (buf, total, out)

/-- The per-core trace rings of `g_hv`. -/
structure TraceBuffers where
  vcpuCount : Nat
  traceBuffer : Nat → RingBuffer

/-- `handle_flush_trace_logs`: the rings, the context with its new RAX,
and what the caller's array received. -/
def handleFlushTraceLogs (pages : Nat → GuestPages) (hv : TraceBuffers) (ctx : GuestContext) :
    TraceBuffers × GuestContext × CallerArray Entry :=
  let targetCore := ctx.rdx.toNat
  let guestBuffer := ctx.r8.toNat
  let maxEntries := ctx.r9.toNat
  -- A core that does not exist flushes nothing.
  if hv.vcpuCount ≤ targetCore then (hv, { ctx with rax := 0 }, fun _ => none)
  else
    -- The rest of a larger request stays for the next call.
    let maxEntries := min maxEntries maxFlushEntries
    let (buf, total, out) :=
      flushTraceLoop pages guestBuffer maxEntries maxEntries (hv.traceBuffer targetCore) 0
        fun _ => none
    ({ hv with traceBuffer := Function.update hv.traceBuffer targetCore buf },
      { ctx with rax := UInt64.ofNat total }, out)

/-- `handle_flush_standard_logs`. -/
def handleFlushStandardLogs (pages : Nat → GuestPages) (logger : StandardLogger)
    (ctx : GuestContext) : StandardLogger × GuestContext × CallerArray StandardLogMessage :=
  let (logger', flushed, out) := flushStandardLogs pages logger ctx.rdx.toNat ctx.r8.toNat
  (logger', { ctx with rax := UInt64.ofNat flushed }, out)

end Revhv.Hypercall
