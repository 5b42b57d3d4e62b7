import Revhv.Km.Trace
import Revhv.Lib.Ring

/-!
# `Revhv.Proofs.TraceQueue`: the ring as a bounded queue

Seen from outside, the ring is a queue of at most 8191 entries.
`RingBuffer.pending` is that queue, oldest entry first.

* `emit_pending`: an accepted `emit` appends its entry, any other
  `emit` changes nothing.
* `drain_fst` / `drain_snd`: `drain` takes the oldest entries off the
  queue, as many as it is asked for.
* `emit_steps` / `drain_steps`: the memory steps of one call, run
  without an interruption, make the same change as the function. The
  two forms of the ring operations are one.
-/

set_option autoImplicit false

namespace Revhv.Trace

open Revhv.Lib

/-- Both indices are slot positions. -/
structure RingBuffer.WF (buf : RingBuffer) : Prop where
  head : buf.writeHead < ringBufferEntryCount
  tail : buf.readTail < ringBufferEntryCount

/-- The number of entries between tail and head. -/
def RingBuffer.count (buf : RingBuffer) : Nat :=
  (buf.writeHead + ringBufferEntryCount - buf.readTail) % ringBufferEntryCount

/-- The entries between tail and head, oldest first. -/
def RingBuffer.pending (buf : RingBuffer) : List Entry :=
  Ring.segment buf.entries ringBufferEntryCount buf.readTail buf.count

/-- There are as many pending entries as the indices say. -/
@[simp] theorem length_pending (buf : RingBuffer) : buf.pending.length = buf.count :=
  Ring.segment_length ..

/-- One slot always stays free. -/
theorem count_lt (buf : RingBuffer) : buf.count < ringBufferEntryCount :=
  Nat.mod_lt _ (by decide)

/-- The head is `count` slots past the tail. -/
theorem head_eq {buf : RingBuffer} (h : buf.WF) :
    buf.writeHead = (buf.readTail + buf.count) % ringBufferEntryCount := by
  have hhead := h.head
  have htail := h.tail
  simp only [RingBuffer.count, ringBufferEntryCount] at *
  omega

/-- A position of the head gives the count. -/
theorem count_eq {buf : RingBuffer} {k : Nat} (htail : buf.readTail < ringBufferEntryCount)
    (hk : k < ringBufferEntryCount)
    (hhead : buf.writeHead = (buf.readTail + k) % ringBufferEntryCount) : buf.count = k := by
  simp only [RingBuffer.count, ringBufferEntryCount] at *
  omega

/-- The full test of `emit`: a ring of 8191 entries. -/
theorem next_eq_tail_iff {buf : RingBuffer} (h : buf.WF) :
    nextIndex buf.writeHead = buf.readTail ↔ buf.count + 1 = ringBufferEntryCount := by
  have hmod := Ring.succ_mod_eq_iff (t := buf.readTail) (count_lt buf)
  rw [Nat.mod_eq_of_lt h.tail] at hmod
  rw [← hmod, nextIndex_eq_mod, head_eq h, Nat.mod_add_mod]

/-- `emit` accepts in an active ring of fewer than 8191 entries. -/
theorem emitAccepts_iff {buf : RingBuffer} (h : buf.WF) :
    emitAccepts buf = true ↔ buf.active = true ∧ buf.pending.length + 1 < ringBufferEntryCount := by
  have hfull := next_eq_tail_iff h
  have hlt := count_lt buf
  simp only [emitAccepts, Bool.and_eq_true, bne_iff_ne, ne_eq, length_pending]
  constructor
  · rintro ⟨hactive, hne⟩
    exact ⟨hactive, by have := mt hfull.mpr hne; omega⟩
  · rintro ⟨hactive, hcount⟩
    exact ⟨hactive, fun heq => by have := hfull.mp heq; omega⟩

section
variable {buf : RingBuffer} (fmt : FormatId) (core : UInt16) (tsc : UInt64) (d : Fin 6 → UInt64)

/-- What `emit` stores when it accepts. -/
theorem emit_of_accepts (h : emitAccepts buf = true) :
    emit buf fmt core tsc d = { buf with
      entries := Function.update buf.entries buf.writeHead (makeEntry fmt core tsc d)
      writeHead := nextIndex buf.writeHead } := by
  simp only [emitAccepts, Bool.and_eq_true, bne_iff_ne, ne_eq] at h
  simp [emit, h.1, h.2]

/-- A refused entry leaves the ring as it is. -/
theorem emit_of_refuses (h : emitAccepts buf = false) : emit buf fmt core tsc d = buf := by
  unfold emit
  cases hactive : buf.active with
  | false => rfl
  | true =>
    have hfull : nextIndex buf.writeHead = buf.readTail := by
      simpa [emitAccepts, hactive] using h
    simp [hfull]

/-- An emit keeps the indices in the ring. -/
theorem emit_wf (h : buf.WF) : (emit buf fmt core tsc d).WF := by
  cases haccepts : emitAccepts buf with
  | false => rwa [emit_of_refuses fmt core tsc d haccepts]
  | true =>
    rw [emit_of_accepts fmt core tsc d haccepts]
    exact ⟨nextIndex_lt _, h.tail⟩

/-- An emit does not stop the ring. -/
@[simp] theorem emit_active : (emit buf fmt core tsc d).active = buf.active := by
  cases haccepts : emitAccepts buf with
  | false => rw [emit_of_refuses fmt core tsc d haccepts]
  | true => rw [emit_of_accepts fmt core tsc d haccepts]

/-- `emit` on the queue: the entry goes to its end when there is room in
an active ring. -/
theorem emit_pending (h : buf.WF) : (emit buf fmt core tsc d).pending =
    if emitAccepts buf then buf.pending ++ [makeEntry fmt core tsc d] else buf.pending := by
  cases haccepts : emitAccepts buf with
  | false => rw [emit_of_refuses fmt core tsc d haccepts, if_neg Bool.false_ne_true]
  | true =>
    rw [emit_of_accepts fmt core tsc d haccepts, if_pos rfl]
    have hroom := ((emitAccepts_iff h).mp haccepts).2
    rw [length_pending] at hroom
    have hcount : RingBuffer.count { buf with
        entries := Function.update buf.entries buf.writeHead (makeEntry fmt core tsc d)
        writeHead := nextIndex buf.writeHead } = buf.count + 1 := by
      refine count_eq h.tail hroom ?_
      show nextIndex buf.writeHead = (buf.readTail + (buf.count + 1)) % ringBufferEntryCount
      rw [nextIndex_eq_mod, head_eq h, Nat.mod_add_mod, Nat.add_assoc]
    rw [RingBuffer.pending, hcount, Ring.segment_succ]
    show Ring.segment (Function.update buf.entries buf.writeHead _) _ _ _ ++
      [Function.update buf.entries buf.writeHead _ _] = _
    -- The new slot is the one behind the last pending entry.
    rw [head_eq h, Ring.segment_update _ (count_lt buf), Function.update_self]
    rfl

end

/-! ### `drain` -/

/-- The loop from a tail with `k` entries before the head copies the
first of them and stops behind the last one copied. -/
theorem drainLoop_eq (buf : RingBuffer) {fuel tail k : Nat} (hk : k < ringBufferEntryCount)
    (htail : tail < ringBufferEntryCount)
    (hhead : buf.writeHead = (tail + k) % ringBufferEntryCount) :
    drainLoop buf fuel tail =
      (Ring.segment buf.entries ringBufferEntryCount tail (min fuel k),
        (tail + min fuel k) % ringBufferEntryCount) := by
  -- By induction over the iterations that are left; `k` entries are pending at
  -- each.
  induction fuel generalizing tail k with
  | zero => simp [drainLoop, Nat.mod_eq_of_lt htail]
  | succ fuel ih =>
    have hempty := Ring.add_mod_eq_self_iff (t := tail) hk
    rw [← hhead, Nat.mod_eq_of_lt htail] at hempty
    cases k with
    | zero => simp [drainLoop, hempty.mpr rfl, Nat.mod_eq_of_lt htail]
    | succ k =>
      have hne : tail ≠ buf.writeHead := fun heq => absurd (hempty.mp heq.symm) (by omega)
      have hhead' : buf.writeHead = (nextIndex tail + k) % ringBufferEntryCount := by
        rw [hhead, nextIndex_eq_mod, Nat.mod_add_mod]
        congr 1
        omega
      rw [drainLoop, if_neg hne, ih (by omega) (nextIndex_lt _) hhead', Nat.add_min_add_right,
        Ring.segment_cons, nextIndex_eq_mod, Ring.segment_mod, Nat.mod_add_mod,
        Nat.mod_eq_of_lt htail]
      simp only [Prod.mk.injEq, true_and]
      congr 1
      omega

section
variable {buf : RingBuffer} (maxEntries : Nat)

/-- `drain` copies out the oldest entries. -/
theorem drain_snd (h : buf.WF) : (drain buf maxEntries).2 = buf.pending.take maxEntries := by
  rw [drain, drainLoop_eq buf (count_lt buf) h.tail (head_eq h), RingBuffer.pending]
  rcases Nat.le_total maxEntries buf.count with hle | hle
  · rw [Nat.min_eq_left hle, Ring.take_segment _ _ _ hle]
  · rw [Nat.min_eq_right hle, List.take_of_length_le (by simpa using hle)]

/-- A drain keeps the indices in the ring. -/
theorem drain_wf (h : buf.WF) : (drain buf maxEntries).1.WF := by
  refine ⟨h.head, ?_⟩
  rw [drain, drainLoop_eq buf (count_lt buf) h.tail (head_eq h)]
  exact Nat.mod_lt _ (by decide)

/-- `drain` leaves the rest of the queue. -/
theorem drain_fst (h : buf.WF) :
    (drain buf maxEntries).1.pending = buf.pending.drop maxEntries := by
  have hlt := count_lt buf
  have hmin : min maxEntries buf.count ≤ buf.count := Nat.min_le_right ..
  -- What is left pending is what the loop did not reach.
  have hcount : (drain buf maxEntries).1.count = buf.count - min maxEntries buf.count := by
    refine count_eq (drain_wf maxEntries h).tail (by omega) ?_
    rw [drain, drainLoop_eq buf hlt h.tail (head_eq h), Nat.mod_add_mod]
    show buf.writeHead = _
    rw [head_eq h]
    congr 1
    omega
  have htail : (drain buf maxEntries).1.readTail =
      (buf.readTail + min maxEntries buf.count) % ringBufferEntryCount := by
    rw [drain, drainLoop_eq buf hlt h.tail (head_eq h)]
  rw [RingBuffer.pending, hcount, htail, Ring.segment_mod]
  show Ring.segment buf.entries _ _ _ = _
  rw [← Ring.drop_segment _ _ _ hmin, RingBuffer.pending]
  -- Either the request or the pending entries run out first.
  rcases Nat.le_total maxEntries buf.count with hle | hle
  · rw [Nat.min_eq_left hle]
  · rw [Nat.min_eq_right hle, List.drop_of_length_le (by simp),
      List.drop_of_length_le (by simpa using hle)]

/-- A drain does not stop the ring. -/
@[simp] theorem drain_active : (drain buf maxEntries).1.active = buf.active := rfl

end

/-- A ring that is activated starts empty. -/
theorem activate_wf (buf : RingBuffer) : (activate buf).WF :=
  ⟨show 0 < 8192 by decide, show 0 < 8192 by decide⟩

/-- A ring whose indices meet is empty. -/
theorem pending_of_eq {buf : RingBuffer} (htail : buf.readTail < ringBufferEntryCount)
    (heq : buf.writeHead = buf.readTail) : buf.pending = [] := by
  have hcount : buf.count = 0 :=
    count_eq htail (by decide) (by rw [heq, Nat.add_zero, Nat.mod_eq_of_lt htail])
  rw [RingBuffer.pending, hcount, Ring.segment_zero]

/-- A reset empties the ring, whatever it held. -/
@[simp] theorem activate_pending (buf : RingBuffer) : (activate buf).pending = [] :=
  pending_of_eq (activate_wf buf).tail rfl

/-- A ring that is stopped keeps its indices. -/
theorem deactivate_wf {buf : RingBuffer} (h : buf.WF) : (deactivate buf).WF := ⟨h.head, h.tail⟩

/-- It keeps its entries. -/
@[simp] theorem deactivate_pending (buf : RingBuffer) :
    (deactivate buf).pending = buf.pending := by
  unfold RingBuffer.pending RingBuffer.count
  rfl

/-- The rings a core can come to have keep both indices in range. -/
theorem RingBuffer.Reachable.wf {buf : RingBuffer} (h : buf.Reachable) : buf.WF := by
  induction h with
  | zeroed => exact ⟨show 0 < 8192 by decide, show 0 < 8192 by decide⟩
  | enable => exact activate_wf _
  | disable _ ih => exact deactivate_wf ih
  | emit fmt core tsc d _ ih => exact emit_wf fmt core tsc d ih
  | drain maxEntries _ ih => exact drain_wf maxEntries ih

/-! ### One call, step by step -/

/-- The first `k` field stores of `emit`. -/
theorem run_fill {s : RingState} {e : Entry} {head : Nat} (hpc : s.emitPc = .fill e head 0)
    {k : Nat} (hk : k ≤ Entry.fieldCount) :
    ringMachine.run s (List.replicate k .emitStep) = some { s with
      buf := { s.buf with
        entries := Function.update s.buf.entries head (e.storeFields k (s.buf.entries head)) }
      emitPc := .fill e head k } := by
  induction k with
  | zero => simp [← hpc]
  | succ k ih =>
    rw [List.replicate_succ', ringMachine.run_append, ih (by omega)]
    have hlt : k < Entry.fieldCount := by omega
    simp [Machine.run, ringMachine, emitStep, hlt, Entry.storeFields_succ]

/-- The memory steps of one `emit` that nobody interrupts are the
function `emit`. -/
theorem emit_steps {s : RingState} (hpc : s.emitPc = .idle) (fmt : FormatId) (core : UInt16)
    (tsc : UInt64) (d : Fin 6 → UInt64) : ∃ k s',
    ringMachine.run s (.emit (makeEntry fmt core tsc d) :: List.replicate k .emitStep) = some s' ∧
      s'.emitPc = .idle ∧ s'.buf = emit s.buf fmt core tsc d ∧ s'.copied = s.copied ∧
      s'.drainPc = s.drainPc ∧ s'.published = s.published ++
        if emitAccepts s.buf then [makeEntry fmt core tsc d] else [] := by
  cases hactive : s.buf.active with
  -- An inactive buffer is left after the first test.
  | false =>
    refine ⟨1, { s with emitPc := .idle }, ?_, rfl, ?_, rfl, rfl, ?_⟩
    · simp [Machine.run, ringMachine, emitStep, hpc, hactive]
    · simp [emit, hactive]
    · simp [emitAccepts, hactive]
  | true =>
    by_cases hfull : nextIndex s.buf.writeHead = s.buf.readTail
    · -- A full buffer drops the entry before it is filled.
      refine ⟨3, { s with
        emitPc := .idle
        drops := s.drops ++ [s.published.length - s.released] }, ?_, rfl, ?_, rfl, rfl, ?_⟩
      · simp [Machine.run, ringMachine, emitStep, hpc, hactive, hfull]
      · simp [emit, hactive, hfull]
      · simp [emitAccepts, hactive, hfull]
    · have haccepts : emitAccepts s.buf = true := by simp [emitAccepts, hactive, hfull]
      -- Three tests, one step for each field, and the store of the new head.
      refine ⟨3 + (Entry.fieldCount + 1), { s with
        buf := emit s.buf fmt core tsc d
        emitPc := .idle
        published := s.published ++ [makeEntry fmt core tsc d] }, ?_, rfl, rfl, rfl, rfl, ?_⟩
      · rw [List.replicate_add, List.replicate_add, ← List.cons_append, ringMachine.run_append]
        have hstart : ringMachine.run s
            (.emit (makeEntry fmt core tsc d) :: List.replicate 3 .emitStep) =
            some { s with emitPc := .fill (makeEntry fmt core tsc d) s.buf.writeHead 0 } := by
          simp [Machine.run, ringMachine, emitStep, hpc, hactive, hfull]
        rw [hstart, Option.bind_some, ringMachine.run_append, run_fill rfl (Nat.le_refl _),
          Option.bind_some, emit_of_accepts fmt core tsc d haccepts, Entry.storeFields_all]
        simp [Machine.run, ringMachine, emitStep]
      · rw [if_pos haccepts]

/-- The first `k` field loads of one entry. -/
theorem run_copy {s : RingState} {maxEntries : Nat} {scratch : Nat → Entry} {out : List Entry}
    {tail : Nat} {part : Entry} (hpc : s.drainPc = .copy maxEntries scratch out tail part 0)
    {k : Nat} (hk : k ≤ Entry.fieldCount) :
    ringMachine.run s (List.replicate k .drainStep) = some { s with
      drainPc := .copy maxEntries scratch out tail
        ((s.buf.entries tail).storeFields k part) k } := by
  induction k with
  | zero => simp [← hpc]
  | succ k ih =>
    rw [List.replicate_succ', ringMachine.run_append, ih (by omega)]
    have hlt : k < Entry.fieldCount := by omega
    simp [Machine.run, ringMachine, drainStep, hlt, Entry.storeFields_succ]

/-- The loop of `drain` from its test, step by step, up to the
publishing store. -/
theorem run_drainLoop {maxEntries : Nat} (scratch : Nat → Entry) (fuel : Nat) {s : RingState}
    (out : List Entry) {tail : Nat} (hfuel : out.length + fuel = maxEntries)
    (hpc : s.drainPc = .test maxEntries scratch out tail) : ∃ k,
    ringMachine.run s (List.replicate k .drainStep) = some { s with
      drainPc := .publish (out ++ (drainLoop s.buf fuel tail).1) (drainLoop s.buf fuel tail).2
      copied := s.copied ++ (drainLoop s.buf fuel tail).1 } := by
  -- By induction over the iterations that are left, as in `drainLoop`.
  induction fuel generalizing s out tail with
  | zero =>
    have hdone : ¬ out.length < maxEntries := by omega
    exact ⟨1, by simp [Machine.run, ringMachine, drainStep, hpc, hdone, drainLoop]⟩
  | succ fuel ih =>
    by_cases hempty : tail = s.buf.writeHead
    · exact ⟨1, by simp [Machine.run, ringMachine, drainStep, hpc, hempty, drainLoop]⟩
    · have hmore : out.length < maxEntries := by omega
      have htest : ringMachine.run s (List.replicate 1 .drainStep) = some { s with
          drainPc := .copy maxEntries scratch out tail (scratch out.length) 0 } := by
        simp [Machine.run, ringMachine, drainStep, hpc, hempty, hmore]
      obtain ⟨k, hk⟩ := ih (s := { s with
          drainPc := .test maxEntries scratch (out ++ [s.buf.entries tail]) (nextIndex tail)
          copied := s.copied ++ [s.buf.entries tail] })
        (out ++ [s.buf.entries tail])
        (by rw [List.length_append, List.length_singleton]; omega) rfl
      -- One test, one step for each field, then the iterations after it.
      refine ⟨1 + (Entry.fieldCount + (1 + k)), ?_⟩
      rw [List.replicate_add, ringMachine.run_append, htest, Option.bind_some,
        List.replicate_add, ringMachine.run_append, run_copy rfl (Nat.le_refl _),
        Option.bind_some, List.replicate_add, ringMachine.run_append, Entry.storeFields_all]
      simp [Machine.run, ringMachine, drainStep] at hk ⊢
      rw [hk]
      simp [drainLoop, hempty]

/-- The memory steps of one `drain` that nobody interrupts are the
function `drain`. -/
theorem drain_steps {s : RingState} (hpc : s.drainPc = .idle) (maxEntries : Nat)
    (scratch : Nat → Entry) : ∃ k s',
    ringMachine.run s (.drain maxEntries scratch :: List.replicate k .drainStep) = some s' ∧
      s'.drainPc = .idle ∧ s'.buf = (drain s.buf maxEntries).1 ∧
      s'.copied = s.copied ++ (drain s.buf maxEntries).2 := by
  have hstart : ringMachine.run s (.drain maxEntries scratch :: List.replicate 1 .drainStep) =
      some { s with drainPc := .test maxEntries scratch [] s.buf.readTail } := by
    simp [Machine.run, ringMachine, drainStep, hpc]
  obtain ⟨k, hk⟩ := run_drainLoop scratch maxEntries []
    (s := { s with drainPc := .test maxEntries scratch [] s.buf.readTail })
    (by rw [List.length_nil, Nat.zero_add]) rfl
  refine ⟨1 + (k + 1), { s with
    buf := (drain s.buf maxEntries).1
    drainPc := .idle
    copied := s.copied ++ (drain s.buf maxEntries).2
    released := s.released + (drain s.buf maxEntries).2.length }, ?_, rfl, rfl, rfl⟩
  rw [List.replicate_add, ← List.cons_append, ringMachine.run_append, hstart, Option.bind_some,
    List.replicate_add, ringMachine.run_append, hk]
  simp [Machine.run, ringMachine, drainStep, drain]

end Revhv.Trace
