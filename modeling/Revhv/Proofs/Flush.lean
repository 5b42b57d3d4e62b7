import Revhv.Km.Hypercall.Flush
import Revhv.Proofs.TraceQueue
import Revhv.Proofs.StandardLog

/-!
# `Revhv.Proofs.Flush`: what the flush hypercalls deliver and retain

Both flush hypercalls take records off their source before they know
whether the caller's array took them. So they deliver or retain exactly
when every write they attempt is complete.

* `DeliversOrRetains` is the contract: the first RAX records are gone
  from the source and stand in the caller's array, and all others are
  still pending and come out of later flushes.
* `flushTraceLoop_delivers` / `flushTraceLoop_loses`: the batch loop of
  the trace flush, when every batch can be written, and when one cannot.
* `flushStandardLogs_eq`: the two chunks of the standard flush are the
  oldest pending messages.
* `flush_delivers_iff`: the exact condition, for both hypercalls.
-/

set_option autoImplicit false

namespace Revhv.Hypercall

open Revhv.Introspection Revhv.Logging Revhv.Trace Revhv.Vcpu

/-- A caller's array that takes every record of a flush: resident, and
clear of address 0. -/
structure ResidentArray where
  pages : GuestPages
  va : UInt64
  resident : ∀ a, (pages.offsetToNextPage a).isSome
  pos : 0 < va.toNat
  fits : va.toNat + maxStandardMessageCount * messageSize ≤ 2 ^ 64

/-- The contract of a flush that removed some of `pending` and returned
`rax`. `later a n` are the records that `n` further flushes into the
resident array `a` return. -/
structure DeliversOrRetains {α : Type} (pending pending' : List α) (rax : Nat)
    (out : CallerArray α) (later : ResidentArray → Nat → List α) : Prop where
  count : rax ≤ pending.length
  removed : pending' = pending.drop rax
  written : ∀ i < rax, out i = pending[i]?
  returned : ∀ a, ∃ n, later a n = pending.drop rax

/-- When slot `i` holds record `i`, the first `n` records come back. -/
theorem returnedRecords_eq_take {α : Type} {pending : List α} {n : Nat} {out : CallerArray α}
    (h : ∀ i < n, out i = pending[i]?) (hn : n ≤ pending.length) :
    returnedRecords n out = pending.take n := by
  induction n with
  | zero => rfl
  | succ n ih =>
    have hlt : n < pending.length := by omega
    rw [returnedRecords, List.range_succ, List.filterMap_append, List.take_add_one]
    rw [returnedRecords] at ih
    rw [ih (fun i hi => h i (by omega)) (by omega)]
    simp [h n (by omega), List.getElem?_eq_getElem hlt]

/-! ### The batches of the trace flush -/

/-- Every batch of the `n` entries from slot `total` on can be written
in full. -/
def BatchesWritable (pages : Nat → GuestPages) (guestBuffer total n : Nat) : Prop :=
  ∀ k, batchCapacity * k < n →
    Writable (pages (total + batchCapacity * k))
      ((guestBuffer + (total + batchCapacity * k) * entrySize) % 2 ^ 64)
      (min batchCapacity (n - batchCapacity * k) * entrySize)

/-- The first batch and the others. -/
theorem batchesWritable_iff {pages : Nat → GuestPages} {guestBuffer total n : Nat} (hn : 0 < n) :
    BatchesWritable pages guestBuffer total n ↔
      Writable (pages total) ((guestBuffer + total * entrySize) % 2 ^ 64)
          (min batchCapacity n * entrySize) ∧
        BatchesWritable pages guestBuffer (total + min batchCapacity n)
          (n - min batchCapacity n) := by
  have hcap : batchCapacity = 64 := rfl
  constructor
  · intro h
    refine ⟨by simpa using h 0 (by omega), fun k hk => ?_⟩
    -- A further batch exists only behind a full one.
    have hfull : min batchCapacity n = batchCapacity := by omega
    rw [hfull] at hk ⊢
    have hnext := h (k + 1) (by rw [Nat.mul_succ]; omega)
    rw [Nat.mul_succ] at hnext
    have hslot : total + batchCapacity + batchCapacity * k =
        total + (batchCapacity * k + batchCapacity) := by omega
    have hrest : n - batchCapacity - batchCapacity * k =
        n - (batchCapacity * k + batchCapacity) := by omega
    rwa [hslot, hrest]
  · rintro ⟨hfirst, hrest⟩ k hk
    cases k with
    | zero => simpa using hfirst
    | succ k =>
      rw [Nat.mul_succ] at hk ⊢
      have hfull : min batchCapacity n = batchCapacity := by omega
      rw [hfull] at hrest
      have hnext := hrest k (by omega)
      have hslot : total + batchCapacity + batchCapacity * k =
          total + (batchCapacity * k + batchCapacity) := by omega
      have hleft : n - batchCapacity - batchCapacity * k =
          n - (batchCapacity * k + batchCapacity) := by omega
      rwa [hslot, hleft] at hnext

section
variable (pages : Nat → GuestPages) (guestBuffer : Nat) {maxEntries : Nat} (fuel : Nat)
  {buf : RingBuffer} {total : Nat} (out : CallerArray Entry)

/-- The batch of one round, by the number `n` of entries still to be
flushed. -/
theorem drain_batch (hwf : buf.WF) {n : Nat}
    (hn : n = min (maxEntries - total) buf.pending.length) :
    (drain buf (min (maxEntries - total) batchCapacity)).2 =
        buf.pending.take (min batchCapacity n) ∧
      (buf.pending.take (min batchCapacity n)).length = min batchCapacity n := by
  constructor
  · rw [drain_snd _ hwf, List.take_eq_take_iff, hn]
    omega
  · rw [List.length_take, hn]
    omega

/-- The ring after one round: the batch is gone. -/
theorem drain_batch_pending (hwf : buf.WF) {n : Nat}
    (hn : n = min (maxEntries - total) buf.pending.length) :
    (drain buf (min (maxEntries - total) batchCapacity)).1.pending =
      buf.pending.drop (min batchCapacity n) := by
  rw [drain_fst _ hwf]
  rcases Nat.le_total buf.pending.length (min (maxEntries - total) batchCapacity) with hle | hle
  · rw [List.drop_of_length_le hle, List.drop_of_length_le (by omega)]
  · congr 1
    omega

/-- A round that finds nothing to flush ends the loop. -/
theorem flushTraceLoop_done (hwf : buf.WF) (hlt : total < maxEntries)
    (hn : 0 = min (maxEntries - total) buf.pending.length) :
    flushTraceLoop pages guestBuffer maxEntries (fuel + 1) buf total out =
      ((drain buf (min (maxEntries - total) batchCapacity)).1, total, out) := by
  obtain ⟨htake, -⟩ := drain_batch hwf hn
  rw [Nat.min_zero, List.take_zero] at htake
  simp only [flushTraceLoop, if_pos hlt, htake, List.length_nil, if_true]

/-- A round whose batch is written in full goes on behind it. -/
theorem flushTraceLoop_next (hwf : buf.WF) (hlt : total < maxEntries) {n : Nat}
    (hn : n = min (maxEntries - total) buf.pending.length) (hpos : 0 < n)
    (hw : Writable (pages total) ((guestBuffer + total * entrySize) % 2 ^ 64)
      (min batchCapacity n * entrySize)) :
    flushTraceLoop pages guestBuffer maxEntries (fuel + 1) buf total out =
      flushTraceLoop pages guestBuffer maxEntries fuel
        (drain buf (min (maxEntries - total) batchCapacity)).1 (total + min batchCapacity n)
        (out.store total (buf.pending.take (min batchCapacity n)) (min batchCapacity n)) := by
  obtain ⟨htake, hlen⟩ := drain_batch hwf hn
  have hne : min batchCapacity n ≠ 0 := by
    have hcap : batchCapacity = 64 := rfl
    omega
  have hw' : writeGuestVirtual (pages total) ((guestBuffer + total * entrySize) % 2 ^ 64)
      (min batchCapacity n * entrySize) = min batchCapacity n * entrySize := hw
  simp only [flushTraceLoop, if_pos hlt, htake, hlen, if_neg hne, hw', ne_eq, not_true,
    if_false, Nat.mul_div_cancel _ (show 0 < entrySize by decide)]

/-- A round whose batch is not written in full ends the loop with the
batch drained. -/
theorem flushTraceLoop_fail (hwf : buf.WF) (hlt : total < maxEntries) {n : Nat}
    (hn : n = min (maxEntries - total) buf.pending.length) (hpos : 0 < n)
    (hw : ¬ Writable (pages total) ((guestBuffer + total * entrySize) % 2 ^ 64)
      (min batchCapacity n * entrySize)) : ∃ out',
    flushTraceLoop pages guestBuffer maxEntries (fuel + 1) buf total out =
      ((drain buf (min (maxEntries - total) batchCapacity)).1, total, out') := by
  obtain ⟨htake, hlen⟩ := drain_batch hwf hn
  have hne : min batchCapacity n ≠ 0 := by
    have hcap : batchCapacity = 64 := rfl
    omega
  have hw' : ¬ writeGuestVirtual (pages total) ((guestBuffer + total * entrySize) % 2 ^ 64)
      (min batchCapacity n * entrySize) = min batchCapacity n * entrySize := hw
  simp only [flushTraceLoop, if_pos hlt, htake, hlen, if_neg hne, ne_eq, if_pos hw']
  exact ⟨_, rfl⟩

/-- The loop leaves `active` alone. -/
theorem flushTraceLoop_active (maxEntries : Nat) (buf : RingBuffer) (total : Nat) :
    (flushTraceLoop pages guestBuffer maxEntries fuel buf total out).1.active = buf.active := by
  induction fuel generalizing buf total out with
  | zero => rfl
  | succ fuel ih =>
    unfold flushTraceLoop
    split
    · simp only
      split
      · rfl
      · split
        · rfl
        · exact (ih _ _ _).trans rfl
    · rfl

/-- When every batch can be written, the loop delivers the `n` oldest
entries. -/
theorem flushTraceLoop_delivers (hwf : buf.WF) (hfuel : maxEntries ≤ total + fuel) {n : Nat}
    (hn : n = min (maxEntries - total) buf.pending.length)
    (hw : BatchesWritable pages guestBuffer total n) :
    ∃ buf' out', flushTraceLoop pages guestBuffer maxEntries fuel buf total out =
        (buf', total + n, out') ∧
      buf'.WF ∧ buf'.pending = buf.pending.drop n ∧
      (∀ i < total, out' i = out i) ∧ ∀ i < n, out' (total + i) = buf.pending[i]? := by
  -- By induction over the rounds. Each drains one batch and writes it behind
  -- the last.
  induction fuel generalizing buf total out n with
  | zero =>
    obtain rfl : n = 0 := by omega
    exact ⟨buf, out, rfl, hwf, by simp, fun _ _ => rfl, fun i hi => by omega⟩
  | succ fuel ih =>
    by_cases hlt : total < maxEntries
    · have hpending := drain_batch_pending hwf hn
      -- An empty batch ends the loop.
      rcases Nat.eq_zero_or_pos n with rfl | hpos
      · exact ⟨_, out, flushTraceLoop_done pages guestBuffer fuel out hwf hlt hn, drain_wf _ hwf,
          hpending,
          fun _ _ => rfl, fun i hi => by omega⟩
      · have hcap : batchCapacity = 64 := rfl
        obtain ⟨hfirst, hrest⟩ := (batchesWritable_iff hpos).mp hw
        obtain ⟨buf', out', hloop, hwf', hpending', hbelow, hslots⟩ :=
          ih (out.store total (buf.pending.take (min batchCapacity n)) (min batchCapacity n))
            (drain_wf _ hwf) (by omega) (by rw [hpending, List.length_drop]; omega) hrest
        have hsum : total + min batchCapacity n + (n - min batchCapacity n) = total + n := by
          omega
        rw [hsum] at hloop
        refine ⟨buf', out',
          (flushTraceLoop_next pages guestBuffer fuel out hwf hlt hn hpos hfirst).trans hloop, hwf', ?_,
          fun i hi => ?_, fun i hi => ?_⟩
        · rw [hpending', hpending, List.drop_drop]
          congr 1
          omega
        · rw [hbelow i (by omega), CallerArray.store_of_lt _ _ _ _ hi]
        · by_cases hin : i < min batchCapacity n
          · -- The slot belongs to this batch.
            rw [hbelow (total + i) (by omega), CallerArray.store,
              if_pos ⟨by omega, by omega⟩, Nat.add_sub_cancel_left, List.getElem?_take_of_lt hin]
          · have hslot := hslots (i - min batchCapacity n) (by omega)
            rw [hpending, List.getElem?_drop] at hslot
            have hi' : total + min batchCapacity n + (i - min batchCapacity n) = total + i := by
              omega
            have hi'' : min batchCapacity n + (i - min batchCapacity n) = i := by omega
            rwa [hi', hi''] at hslot
    · obtain rfl : n = 0 := by omega
      refine ⟨buf, out, ?_, hwf, by simp, fun _ _ => rfl, fun i hi => by omega⟩
      rw [flushTraceLoop, if_neg hlt, Nat.add_zero]

/-- When a batch cannot be written, more entries leave the ring than the
loop counts. -/
theorem flushTraceLoop_loses (hwf : buf.WF) (hfuel : maxEntries ≤ total + fuel) {n : Nat}
    (hn : n = min (maxEntries - total) buf.pending.length)
    (hw : ¬ BatchesWritable pages guestBuffer total n) :
    ∃ buf' total' out', flushTraceLoop pages guestBuffer maxEntries fuel buf total out =
        (buf', total', out') ∧ total' ≤ maxEntries ∧
      buf'.pending.length + total' < buf.pending.length + total := by
  have hpos : 0 < n := by
    by_contra hzero
    exact hw fun k hk => by omega
  -- The first batch that cannot be written has been drained all the same, and
  -- is lost.
  induction fuel generalizing buf total out n with
  | zero => omega
  | succ fuel ih =>
    have hcap : batchCapacity = 64 := rfl
    have hlt : total < maxEntries := by omega
    have hpending := drain_batch_pending hwf hn
    by_cases hfirst : Writable (pages total) ((guestBuffer + total * entrySize) % 2 ^ 64)
        (min batchCapacity n * entrySize)
    · have hrest : ¬ BatchesWritable pages guestBuffer (total + min batchCapacity n)
          (n - min batchCapacity n) := fun h => hw ((batchesWritable_iff hpos).mpr ⟨hfirst, h⟩)
      have hmore : 0 < n - min batchCapacity n := by
        by_contra hzero
        exact hrest fun k hk => by omega
      obtain ⟨buf', total', out', hloop, hle, hlost⟩ :=
        ih (out.store total (buf.pending.take (min batchCapacity n)) (min batchCapacity n))
          (drain_wf _ hwf) (by omega) (by rw [hpending, List.length_drop]; omega) hrest hmore
      refine ⟨buf', total', out',
        (flushTraceLoop_next pages guestBuffer fuel out hwf hlt hn hpos hfirst).trans hloop, hle, ?_⟩
      rw [hpending, List.length_drop] at hlost
      omega
    · obtain ⟨out', hloop⟩ := flushTraceLoop_fail pages guestBuffer fuel out hwf hlt hn hpos hfirst
      refine ⟨_, total, out', hloop, Nat.le_of_lt hlt, ?_⟩
      rw [hpending, List.length_drop]
      omega

end

/-! ### The trace flush -/

/-- The entries in a core's ring. A core that does not exist has none. -/
def TraceBuffers.pendingOf (hv : TraceBuffers) (core : Nat) : List Entry :=
  if core < hv.vcpuCount then (hv.traceBuffer core).pending else []

/-- The number of entries a trace flush attempts to deliver. -/
def traceFlushCount (hv : TraceBuffers) (ctx : GuestContext) : Nat :=
  min (min ctx.r9.toNat maxFlushEntries) (hv.pendingOf ctx.rdx.toNat).length

/-- Every batch that a trace flush attempts can be written in full. -/
def TraceFlushWritable (pages : Nat → GuestPages) (hv : TraceBuffers) (ctx : GuestContext) :
    Prop :=
  BatchesWritable pages ctx.r8.toNat 0 (traceFlushCount hv ctx)

/-- The entries that `n` further full-size flushes of the same core
return. -/
def laterTraceFlushes (ctx : GuestContext) (a : ResidentArray) : Nat → TraceBuffers → List Entry
  | 0, _ => []
  | n + 1, hv =>
      let r := handleFlushTraceLogs (fun _ => a.pages) hv { ctx with r8 := a.va, r9 := 512 }
      returnedRecords r.2.1.rax.toNat r.2.2 ++ laterTraceFlushes ctx a n r.1

section
variable {pages : Nat → GuestPages} {hv : TraceBuffers} {ctx : GuestContext}

/-- A core that does not exist has no entries. -/
theorem handleFlushTraceLogs_of_bound (h : hv.vcpuCount ≤ ctx.rdx.toNat) :
    handleFlushTraceLogs pages hv ctx = (hv, { ctx with rax := 0 }, fun _ => none) := by
  rw [handleFlushTraceLogs, if_pos h]

/-- A trace flush whose batches can all be written delivers the oldest
entries. -/
theorem handleFlushTraceLogs_delivers (hwf : ∀ c, (hv.traceBuffer c).WF)
    (hw : TraceFlushWritable pages hv ctx) :
    ∃ hv' ctx' out, handleFlushTraceLogs pages hv ctx = (hv', ctx', out) ∧
      hv'.vcpuCount = hv.vcpuCount ∧ (∀ c, (hv'.traceBuffer c).WF) ∧
      ctx'.rax.toNat = traceFlushCount hv ctx ∧
      hv'.pendingOf ctx.rdx.toNat =
        (hv.pendingOf ctx.rdx.toNat).drop (traceFlushCount hv ctx) ∧
      ∀ i < traceFlushCount hv ctx, out i = (hv.pendingOf ctx.rdx.toNat)[i]? := by
  -- An index out of range flushes nothing and removes nothing.
  by_cases hcore : ctx.rdx.toNat < hv.vcpuCount
  · have hpending : hv.pendingOf ctx.rdx.toNat = (hv.traceBuffer ctx.rdx.toNat).pending :=
      if_pos hcore
    obtain ⟨buf', out', hloop, hwf', hpending', -, hslots⟩ :=
      flushTraceLoop_delivers pages ctx.r8.toNat (min ctx.r9.toNat maxFlushEntries)
        (fun _ => none) (hwf ctx.rdx.toNat)
        (Nat.le_add_left (min ctx.r9.toNat maxFlushEntries) 0)
        (by rw [traceFlushCount, hpending, Nat.sub_zero]) hw
    rw [Nat.zero_add] at hloop
    refine ⟨{ hv with traceBuffer := Function.update hv.traceBuffer ctx.rdx.toNat buf' },
      { ctx with rax := UInt64.ofNat (traceFlushCount hv ctx) }, out', ?_, rfl, fun c => ?_, ?_,
      ?_, ?_⟩
    · rw [handleFlushTraceLogs, if_neg (by omega)]
      simp only [hloop]
    · by_cases hc : c = ctx.rdx.toNat
      · subst hc
        simpa using hwf'
      · simpa [Function.update_of_ne hc] using hwf c
    · refine UInt64.toNat_ofNat_of_lt' ?_
      have hmax : maxFlushEntries = 512 := rfl
      have hle : traceFlushCount hv ctx ≤ maxFlushEntries :=
        (Nat.min_le_left ..).trans (Nat.min_le_right ..)
      show _ < 2 ^ 64
      omega
    · rw [TraceBuffers.pendingOf, if_pos hcore, hpending]
      simpa using hpending'
    · intro i hi
      rw [hpending, ← hslots i hi, Nat.zero_add]
  · have hempty : hv.pendingOf ctx.rdx.toNat = [] := if_neg hcore
    have hzero : traceFlushCount hv ctx = 0 := by
      rw [traceFlushCount, hempty, List.length_nil, Nat.min_zero]
    refine ⟨hv, _, _, handleFlushTraceLogs_of_bound (by omega), rfl, hwf, ?_, ?_, ?_⟩
    · rw [hzero]
      rfl
    · rw [hzero, List.drop_zero]
    · intro i hi
      omega

/-- A trace flush with a batch that cannot be written removes more than
it returns. -/
theorem handleFlushTraceLogs_loses (hwf : ∀ c, (hv.traceBuffer c).WF)
    (hw : ¬ TraceFlushWritable pages hv ctx) :
    ∃ hv' ctx' out, handleFlushTraceLogs pages hv ctx = (hv', ctx', out) ∧
      (hv'.pendingOf ctx.rdx.toNat).length + ctx'.rax.toNat <
        (hv.pendingOf ctx.rdx.toNat).length := by
  -- An index out of range has no batch that could fail.
  have hcore : ctx.rdx.toNat < hv.vcpuCount := by
    by_contra hbound
    refine hw fun k hk => ?_
    rw [traceFlushCount, TraceBuffers.pendingOf, if_neg hbound, List.length_nil,
      Nat.min_zero] at hk
    omega
  have hpending : hv.pendingOf ctx.rdx.toNat = (hv.traceBuffer ctx.rdx.toNat).pending :=
    if_pos hcore
  obtain ⟨buf', total', out', hloop, hle, hlost⟩ :=
    flushTraceLoop_loses pages ctx.r8.toNat (min ctx.r9.toNat maxFlushEntries)
      (fun _ => none) (hwf ctx.rdx.toNat)
      (Nat.le_add_left (min ctx.r9.toNat maxFlushEntries) 0)
      (by rw [traceFlushCount, hpending, Nat.sub_zero]) hw
  refine ⟨{ hv with traceBuffer := Function.update hv.traceBuffer ctx.rdx.toNat buf' },
    { ctx with rax := UInt64.ofNat total' }, out', ?_, ?_⟩
  · rw [handleFlushTraceLogs, if_neg (by omega)]
    simp only [hloop]
  · have hrax : (UInt64.ofNat total').toNat = total' := by
      refine UInt64.toNat_ofNat_of_lt' ?_
      have hmax : maxFlushEntries = 512 := rfl
      show _ < 2 ^ 64
      omega
    rw [TraceBuffers.pendingOf, if_pos hcore, hpending]
    simpa [hrax] using hlost

/-- A resident array takes every batch of a flush. -/
theorem ResidentArray.batchesWritable (a : ResidentArray) {n : Nat} (hn : n ≤ 512) :
    BatchesWritable (fun _ => a.pages) a.va.toNat 0 n := by
  intro k hk
  have hfits : a.va.toNat + 512 * 264 ≤ 2 ^ 64 := a.fits
  have hpos := a.pos
  refine writable_of_resident a.resident ?_ _
  show (a.va.toNat + (0 + batchCapacity * k) * 64) % 2 ^ 64 ≠ 0
  rw [Nat.mod_eq_of_lt (by omega)]
  omega

/-- A resident array takes every batch of entries. -/
theorem ResidentArray.traceFlushWritable (a : ResidentArray) (hv : TraceBuffers)
    (ctx : GuestContext) :
    TraceFlushWritable (fun _ => a.pages) hv { ctx with r8 := a.va, r9 := 512 } :=
  a.batchesWritable ((Nat.min_le_left ..).trans (Nat.min_le_right ..))

/-- Later flushes return the pending entries from the oldest on. -/
theorem laterTraceFlushes_eq (a : ResidentArray) (n : Nat) (hwf : ∀ c, (hv.traceBuffer c).WF) :
    laterTraceFlushes ctx a n hv = (hv.pendingOf ctx.rdx.toNat).take (512 * n) := by
  -- Each later flush takes up to 512 records, and nothing is lost with a
  -- resident array.
  induction n generalizing hv with
  | zero => rfl
  | succ n ih =>
    obtain ⟨hv', ctx', out, hflush, -, hwf', hrax, hpending, hslots⟩ :=
      handleFlushTraceLogs_delivers hwf (a.traceFlushWritable hv ctx)
    have hcount : traceFlushCount hv { ctx with r8 := a.va, r9 := 512 } =
        min 512 (hv.pendingOf ctx.rdx.toNat).length := rfl
    rw [hcount] at hrax hpending hslots
    rw [laterTraceFlushes, hflush]
    simp only [hrax]
    rw [returnedRecords_eq_take hslots (Nat.min_le_right ..), ih hwf', hpending, Nat.mul_succ,
      Nat.add_comm (512 * n), List.take_add]
    rcases Nat.le_total 512 (hv.pendingOf ctx.rdx.toNat).length with hle | hle
    · rw [Nat.min_eq_left hle]
    · rw [Nat.min_eq_right hle, List.drop_length, List.drop_of_length_le hle, List.take_length,
        List.take_of_length_le hle]

/-- The trace flush delivers or retains exactly when it can write every
batch. -/
theorem traceFlush_iff (hwf : ∀ c, (hv.traceBuffer c).WF) :
    DeliversOrRetains (hv.pendingOf ctx.rdx.toNat)
        ((handleFlushTraceLogs pages hv ctx).1.pendingOf ctx.rdx.toNat)
        (handleFlushTraceLogs pages hv ctx).2.1.rax.toNat
        (handleFlushTraceLogs pages hv ctx).2.2
        (fun a n => laterTraceFlushes ctx a n (handleFlushTraceLogs pages hv ctx).1) ↔
      TraceFlushWritable pages hv ctx := by
  constructor
  · intro h
    -- A batch that cannot be written leaves fewer records than were neither
    -- returned nor kept.
    by_contra hw
    obtain ⟨hv', ctx', out, hflush, hlost⟩ := handleFlushTraceLogs_loses hwf hw
    rw [hflush] at h
    have hremoved := congrArg List.length h.removed
    have hcount := h.count
    rw [List.length_drop] at hremoved
    simp only at hremoved hcount
    omega
  · intro hw
    obtain ⟨hv', ctx', out, hflush, -, hwf', hrax, hpending, hslots⟩ :=
      handleFlushTraceLogs_delivers hwf hw
    rw [hflush]
    refine ⟨?_, ?_, ?_, fun a => ?_⟩
    · exact hrax ▸ Nat.min_le_right ..
    · exact hrax ▸ hpending
    · exact hrax ▸ hslots
    · refine ⟨(hv'.pendingOf ctx.rdx.toNat).length, ?_⟩
      simp only [hrax]
      rw [laterTraceFlushes_eq a _ hwf', ← hpending]
      exact List.take_of_length_le (by omega)

end

/-! ### The standard flush -/

/-- The messages that `n` further flushes of all messages return. -/
def laterStandardFlushes (ctx : GuestContext) (a : ResidentArray) :
    Nat → StandardLogger → List StandardLogMessage
  | 0, _ => []
  | n + 1, logger =>
      let r := handleFlushStandardLogs (fun _ => a.pages) logger { ctx with rdx := a.va, r8 := 512 }
      returnedRecords r.2.1.rax.toNat r.2.2 ++ laterStandardFlushes ctx a n r.1

section
variable (pages : Nat → GuestPages) (logger : StandardLogger) (ctx : GuestContext)

/-- RAX holds the count, which is at most 512. -/
theorem handleFlushStandardLogs_rax :
    (handleFlushStandardLogs pages logger ctx).2.1.rax.toNat =
      flushCount logger ctx.rdx.toNat ctx.r8.toNat := by
  have hle := (flushCount_le logger ctx.rdx.toNat ctx.r8.toNat).trans logger.pending_le
  have hmax : maxStandardMessageCount = 512 := rfl
  show (UInt64.ofNat (flushStandardLogs pages logger ctx.rdx.toNat ctx.r8.toNat).2.1).toNat = _
  rw [flushStandardLogs_count]
  exact UInt64.toNat_ofNat_of_lt' (show _ < 2 ^ 64 by omega)

/-- What a flush returns is no longer pending. -/
theorem handleFlushStandardLogs_pending :
    pendingMessages (handleFlushStandardLogs pages logger ctx).1 =
      (pendingMessages logger).drop (flushCount logger ctx.rdx.toNat ctx.r8.toNat) :=
  flushStandardLogs_pending ..

/-- A resident array takes both chunks. -/
theorem ResidentArray.chunksWritable (a : ResidentArray) :
    ChunksWritable (fun _ => a.pages) logger a.va.toNat 512 := by
  obtain ⟨hcount, hsum, -, -⟩ := flushChunks_spec logger 512
  have hfits : a.va.toNat + 512 * 264 ≤ 2 ^ 64 := a.fits
  have hpos := a.pos
  refine Or.inr ⟨writable_of_resident a.resident (by omega) _, ?_⟩
  rcases Nat.eq_zero_or_pos (flushChunks logger 512).2.2 with hzero | hsecond
  · rw [hzero, Nat.zero_mul]
    exact if_pos (Or.inr rfl)
  · refine writable_of_resident a.resident ?_ _
    show (a.va.toNat + (flushChunks logger 512).2.1 * 264) % 2 ^ 64 ≠ 0
    rw [Nat.mod_eq_of_lt (by omega)]
    omega

/-- One later flush returns everything that is pending. -/
theorem laterStandardFlushes_one (a : ResidentArray) :
    laterStandardFlushes ctx a 1 logger = pendingMessages logger := by
  have hle : logger.pendingCount ≤ 512 := logger.pending_le
  have hall : flushCount logger a.va.toNat 512 = (pendingMessages logger).length := by
    have hpos := a.pos
    rw [flushCount, if_neg (by omega), Nat.min_eq_left hle, length_pendingMessages]
  have hrax := handleFlushStandardLogs_rax (fun _ => a.pages) logger
    { ctx with rdx := a.va, r8 := 512 }
  have hslots : ∀ i < (pendingMessages logger).length,
      (handleFlushStandardLogs (fun _ => a.pages) logger
        { ctx with rdx := a.va, r8 := 512 }).2.2 i = (pendingMessages logger)[i]? := fun i hi =>
    flushStandardLogs_written _ _ _ _ (a.chunksWritable logger) (hall ▸ hi)
  rw [laterStandardFlushes, laterStandardFlushes, List.append_nil]
  simp only [hrax]
  show returnedRecords (flushCount logger a.va.toNat 512) _ = _
  rw [hall, returnedRecords_eq_take hslots (Nat.le_refl _), List.take_length]

/-- The standard flush delivers or retains exactly when it can write
both chunks. -/
theorem standardFlush_iff :
    DeliversOrRetains (pendingMessages logger)
        (pendingMessages (handleFlushStandardLogs pages logger ctx).1)
        (handleFlushStandardLogs pages logger ctx).2.1.rax.toNat
        (handleFlushStandardLogs pages logger ctx).2.2
        (fun a n => laterStandardFlushes ctx a n (handleFlushStandardLogs pages logger ctx).1) ↔
      ChunksWritable pages logger ctx.rdx.toNat ctx.r8.toNat := by
  have hle := flushCount_le logger ctx.rdx.toNat ctx.r8.toNat
  rw [handleFlushStandardLogs_rax, handleFlushStandardLogs_pending]
  constructor
  · intro h
    by_contra hw
    obtain ⟨i, hi, hnone⟩ := flushStandardLogs_not_written _ _ _ _ hw
    have hslot := (h.written i hi).symm.trans hnone
    rw [List.getElem?_eq_none_iff, length_pendingMessages] at hslot
    omega
  · intro hw
    refine ⟨by rwa [length_pendingMessages], rfl,
      fun i hi => flushStandardLogs_written _ _ _ _ hw hi, fun a => ⟨1, ?_⟩⟩
    rw [laterStandardFlushes_one, handleFlushStandardLogs_pending]

end

/-- **The flush contract.** On rings and loggers the code can reach, a
flush hypercall delivers its first RAX records and retains all others
exactly when every write it attempts is complete. -/
theorem flush_delivers_iff (pages : Nat → GuestPages) (ctx : GuestContext) :
    (∀ hv : TraceBuffers, (∀ c, (hv.traceBuffer c).Reachable) →
      (DeliversOrRetains (hv.pendingOf ctx.rdx.toNat)
          ((handleFlushTraceLogs pages hv ctx).1.pendingOf ctx.rdx.toNat)
          (handleFlushTraceLogs pages hv ctx).2.1.rax.toNat
          (handleFlushTraceLogs pages hv ctx).2.2
          (fun a n => laterTraceFlushes ctx a n (handleFlushTraceLogs pages hv ctx).1) ↔
        TraceFlushWritable pages hv ctx)) ∧
    ∀ logger : StandardLogger,
      (DeliversOrRetains (pendingMessages logger)
          (pendingMessages (handleFlushStandardLogs pages logger ctx).1)
          (handleFlushStandardLogs pages logger ctx).2.1.rax.toNat
          (handleFlushStandardLogs pages logger ctx).2.2
          (fun a n => laterStandardFlushes ctx a n (handleFlushStandardLogs pages logger ctx).1) ↔
        ChunksWritable pages logger ctx.rdx.toNat ctx.r8.toNat) :=
  ⟨fun _ hreach => traceFlush_iff fun c => (hreach c).wf,
    fun logger => standardFlush_iff pages logger ctx⟩

/-! ### One entry, one message -/

/-- One core whose ring holds one entry. -/
def oneEntry : TraceBuffers where
  vcpuCount := 1
  traceBuffer _ := emit ⟨0, 0, true, fun _ => makeEntry .invalid 0 0 fun _ => 0⟩
    .eptTargetTransition 0 7 fun _ => 5

/-- Its rings come from the empty ones. -/
theorem oneEntry_reachable (c : Nat) : (oneEntry.traceBuffer c).Reachable :=
  .emit _ _ _ _ (.enable (.zeroed fun _ => makeEntry .invalid 0 0 fun _ => 0))

/-- A logger that holds one message. -/
def oneMessage : StandardLogger := writeToStandardLog .zeroed [104, 105]

/-- An array at address 0x1000 in pages that are all resident. -/
def residentArray : ResidentArray where
  pages := { offsetToNextPage := fun va => some (0x1000 - va % 0x1000)
             pos := fun va off h => by cases h; omega }
  va := 0x1000
  resident _ := rfl
  pos := by decide
  fits := by decide

/-- Into resident pages the one entry is delivered. -/
theorem flush_delivers_oneEntry :
    let ctx := { GuestContext.zero with r8 := residentArray.va, r9 := 512 }
    let r := handleFlushTraceLogs (fun _ => residentArray.pages) oneEntry ctx
    DeliversOrRetains (oneEntry.pendingOf 0) (r.1.pendingOf 0) r.2.1.rax.toNat r.2.2
      (fun a n => laterTraceFlushes ctx a n r.1) :=
  ((flush_delivers_iff (fun _ => residentArray.pages)
    { GuestContext.zero with r8 := residentArray.va, r9 := 512 }).1 oneEntry
      oneEntry_reachable).mpr (residentArray.traceFlushWritable oneEntry .zero)

/-- Pages of which none is resident. -/
def absentPages : GuestPages where
  offsetToNextPage _ := none
  pos _ _ h := by cases h

/-- Into pages that are not resident, the trace flush returns 0 with the
entry gone, and the standard flush returns 1 with nothing written. -/
theorem flush_loses_oneEntry :
    (let ctx := { GuestContext.zero with r8 := 0x1000, r9 := 1 }
      let r := handleFlushTraceLogs (fun _ => absentPages) oneEntry ctx
      ¬ DeliversOrRetains (oneEntry.pendingOf 0) (r.1.pendingOf 0) r.2.1.rax.toNat r.2.2
        (fun a n => laterTraceFlushes ctx a n r.1)) ∧
    (let ctx := { GuestContext.zero with rdx := 0x1000, r8 := 1 }
      let r := handleFlushStandardLogs (fun _ => absentPages) oneMessage ctx
      ¬ DeliversOrRetains (pendingMessages oneMessage) (pendingMessages r.1) r.2.1.rax.toNat r.2.2
        (fun a n => laterStandardFlushes ctx a n r.1)) := by
  constructor
  · intro ctx r h
    exact absurd (congrArg List.length h.removed) (by decide)
  · intro ctx r h
    have hslot := congrArg Option.isSome (h.written 0 (by decide))
    exact absurd hslot (by decide)

end Revhv.Hypercall
