import Revhv.Lib.DropQueue
import Revhv.Proofs.Flush

/-!
# `Revhv.Proofs.LoggerQueue`: the logger refines a bounded queue

The logger against `DropQueue` with 512 places. A write pushes the first
255 characters of the message, a flush pops.

* `pendingMessages_write`: a write appends to the pending messages and
  drops the oldest one of 512.
* `refines_next`, `refines_run`: a call against an operation of the
  queue, and a run against a run.
* `logger_refines_queue`: every run. The message numbers are the numbers
  of the pushes modulo 2^64.
* `numbers_wrap`: a run in which the numbers start again.
-/

set_option autoImplicit false

namespace Revhv.Logging

open Revhv.Hypercall Revhv.Introspection Revhv.Lib

/-! ### The property -/

/-- The text array holds these characters and a NUL. -/
def TextIs (text : Fin maxStandardMessageLength → UInt8) (chars : List UInt8) : Prop :=
  (∀ i : Fin maxStandardMessageLength, ∀ h : (i : Nat) < chars.length, text i = chars[(i : Nat)]) ∧
    ∃ i : Fin maxStandardMessageLength, (i : Nat) = chars.length ∧ text i = 0

/-- A record of the logger carries an element of the queue. -/
def Carries (record : StandardLogMessage) (item : Nat × List UInt8) : Prop :=
  record.messageNumber = item.1 % 2 ^ 64 ∧ TextIs record.text item.2

/-- The operation of the queue that a call stands for. A flush into a
null array takes nothing. -/
def LoggerCall.op : LoggerCall → DropQueueOp (List UInt8)
  | .write message => .push (message.take (maxStandardMessageLength - 1))
  | .flush _ outMessages maxMessages => .pop (if outMessages = 0 then 0 else maxMessages)

/-- The copies of a flush succeed. -/
def CopiesSucceed (s : LoggerRun) : LoggerCall → Prop
  | .write _ => True
  | .flush pages outMessages maxMessages =>
      ChunksWritable pages s.logger outMessages maxMessages

/-- The queue of the logger. -/
abbrev messageQueue : Machine (DropQueue (List UInt8)) (DropQueueOp (List UInt8)) :=
  DropQueue.machine maxStandardMessageCount

/-! ### A write -/

/-- The text array after a write. -/
theorem textIs_writeText (message : List UInt8) (text : Fin maxStandardMessageLength → UInt8) :
    TextIs (writeText message text) (message.take (maxStandardMessageLength - 1)) := by
  have hlength : (message.take (maxStandardMessageLength - 1)).length =
      min message.length (maxStandardMessageLength - 1) := by
    rw [List.length_take, Nat.min_comm]
  constructor
  · -- The text is cut to leave room for the NUL.
    intro i hi
    have hcopied : (i : Nat) < min message.length (maxStandardMessageLength - 1) := hlength ▸ hi
    have hin : (i : Nat) < message.length := by omega
    show (if (i : Nat) < min message.length (maxStandardMessageLength - 1) then _ else _) = _
    rw [if_pos hcopied, List.getElem_take, ← List.getElem_eq_getD]
  · have hlt : min message.length (maxStandardMessageLength - 1) < maxStandardMessageLength := by
      have : 0 < maxStandardMessageLength := by decide
      omega
    refine ⟨⟨_, hlt⟩, hlength.symm, ?_⟩
    show (if min message.length (maxStandardMessageLength - 1) <
      min message.length (maxStandardMessageLength - 1) then _ else _) = _
    rw [if_neg (Nat.lt_irrefl _), if_pos rfl]

/-- The record a write stores. -/
def writtenRecord (logger : StandardLogger) (message : List UInt8) : StandardLogMessage where
  messageNumber := logger.messageCount
  text := writeText message (logger.messages logger.cursor).text

section
variable (logger : StandardLogger) (message : List UInt8)

/-- The slot at the cursor is the one behind the pending messages. -/
theorem cursor_eq : (logger.startIndex + logger.pendingCount) % maxStandardMessageCount =
    logger.cursor := by
  have hcursor := logger.cursor_lt
  have hpending := logger.pending_le
  simp only [StandardLogger.startIndex, maxStandardMessageCount] at *
  omega

/-- With room left the oldest message stays where it is. -/
theorem startIndex_write_of_lt (h : logger.pendingCount < maxStandardMessageCount) :
    (writeToStandardLog logger message).startIndex = logger.startIndex ∧
      (writeToStandardLog logger message).pendingCount = logger.pendingCount + 1 := by
  have hcursor := logger.cursor_lt
  simp only [StandardLogger.startIndex, writeToStandardLog, maxStandardMessageCount] at *
  omega

/-- Of 512 messages the next one is the oldest then. -/
theorem startIndex_write_of_full (h : logger.pendingCount = maxStandardMessageCount) :
    (writeToStandardLog logger message).startIndex % maxStandardMessageCount =
        (logger.startIndex + 1) % maxStandardMessageCount ∧
      (writeToStandardLog logger message).pendingCount = maxStandardMessageCount := by
  have hcursor := logger.cursor_lt
  simp only [StandardLogger.startIndex, writeToStandardLog, maxStandardMessageCount] at *
  omega

/-- A write appends to the pending messages, and of 512 it drops the
oldest. -/
theorem pendingMessages_write :
    pendingMessages (writeToStandardLog logger message) =
      (pendingMessages logger ++ [writtenRecord logger message]).drop
        ((pendingMessages logger).length + 1 - maxStandardMessageCount) := by
  have hslots : (writeToStandardLog logger message).messages =
      Function.update logger.messages
        ((logger.startIndex + logger.pendingCount) % maxStandardMessageCount)
        (writtenRecord logger message) := by
    rw [cursor_eq]
    rfl
  rw [length_pendingMessages]
  unfold pendingMessages
  rcases Nat.lt_or_eq_of_le logger.pending_le with hroom | hfull
  · obtain ⟨hstart, hcount⟩ := startIndex_write_of_lt logger message hroom
    rw [hslots, hstart, hcount, Ring.segment_push _ hroom, Nat.sub_eq_zero_of_le hroom,
      List.drop_zero]
  · obtain ⟨hstart, hcount⟩ := startIndex_write_of_full logger message hfull
    have hpos : 0 < maxStandardMessageCount := by decide
    -- The slot behind the last message is that of the oldest one.
    rw [hslots, hcount, hfull, Nat.add_mod_right, Nat.add_sub_cancel_left, ← Ring.segment_mod,
      hstart, Ring.segment_mod, Ring.segment_overwrite _ hpos, List.drop_append_of_le_length]
    rw [Ring.segment_length]
    exact hpos

end

/-! ### One call -/

/-- The logger and the queue hold the same messages, and have returned
the same. -/
structure Refines (s : LoggerRun) (q : DropQueue (List UInt8)) : Prop where
  pending : List.Forall₂ Carries (pendingMessages s.logger) q.items
  returned : List.Forall₂ Carries s.returned q.out
  count : s.logger.messageCount = q.pushed % 2 ^ 64

/-- The empty logger is the empty queue. -/
theorem refines_initial : Refines .initial .empty where
  pending := List.Forall₂.nil
  returned := List.Forall₂.nil
  count := rfl

/-- The message counter counts the pushes modulo 2^64. -/
theorem messageCount_write {logger : StandardLogger} (message : List UInt8) {n : Nat}
    (h : logger.messageCount = n % 2 ^ 64) :
    (writeToStandardLog logger message).messageCount = (n + 1) % 2 ^ 64 := by
  show (logger.messageCount + 1) % 2 ^ 64 = (n + 1) % 2 ^ 64
  rw [h, Nat.mod_add_mod]

/-- A write is a push. -/
theorem refines_write {s : LoggerRun} {q : DropQueue (List UInt8)} (h : Refines s q)
    (message : List UInt8) :
    Refines ⟨writeToStandardLog s.logger message, s.returned⟩
      (q.push maxStandardMessageCount (message.take (maxStandardMessageLength - 1))) := by
  have hnew : Carries (writtenRecord s.logger message)
      (q.pushed, message.take (maxStandardMessageLength - 1)) := by
    refine ⟨h.count, ?_⟩
    exact textIs_writeText message (s.logger.messages s.logger.cursor).text
  -- The ring drops its oldest record exactly where the queue drops its oldest
  -- message.
  refine Refines.mk ?_ ?_ ?_
  · show List.Forall₂ Carries (pendingMessages (writeToStandardLog s.logger message)) _
    rw [pendingMessages_write, h.pending.length_eq, DropQueue.items_push]
    exact List.forall₂_drop _ (List.rel_append h.pending (List.Forall₂.cons hnew .nil))
  · rw [DropQueue.out_push]
    exact h.returned
  · rw [DropQueue.pushed_push]
    exact messageCount_write message h.count

/-- A flush leaves the message counter alone. -/
theorem messageCount_flush (pages : Nat → GuestPages) (logger : StandardLogger)
    (outMessages maxMessages : Nat) :
    (flushStandardLogs pages logger outMessages maxMessages).1.messageCount =
      logger.messageCount := by
  rcases Nat.eq_zero_or_pos (flushCount logger outMessages maxMessages) with hzero | hpos
  · rw [flushStandardLogs_of_zero _ _ _ _ hzero]
  · rw [flushStandardLogs_of_pos _ _ _ _ hpos]

section
variable (pages : Nat → GuestPages) (logger : StandardLogger) {outMessages maxMessages : Nat}

/-- The size of a flush, for any array. -/
theorem flushCount_eq : flushCount logger outMessages maxMessages =
    min (pendingMessages logger).length (if outMessages = 0 then 0 else maxMessages) := by
  rw [flushCount, length_pendingMessages]
  split <;> omega

/-- A flush whose copies succeed returns the oldest messages. -/
theorem flushStandardLogs_returned (hchunks : ChunksWritable pages logger outMessages maxMessages) :
    returnedRecords (flushStandardLogs pages logger outMessages maxMessages).2.1
      (flushStandardLogs pages logger outMessages maxMessages).2.2 =
        (pendingMessages logger).take (if outMessages = 0 then 0 else maxMessages) := by
  have hcount := @flushCount_eq logger outMessages maxMessages
  rw [flushStandardLogs_count, returnedRecords_eq_take
    (fun i hi => flushStandardLogs_written _ _ _ _ hchunks hi) (by omega), hcount,
    List.take_eq_take_iff]
  omega

/-- A flush keeps the others. -/
theorem flushStandardLogs_kept :
    pendingMessages (flushStandardLogs pages logger outMessages maxMessages).1 =
      (pendingMessages logger).drop (if outMessages = 0 then 0 else maxMessages) := by
  rw [flushStandardLogs_pending, flushCount_eq]
  generalize (if outMessages = 0 then 0 else maxMessages) = n
  rcases Nat.le_total (pendingMessages logger).length n with hall | hsome
  · rw [Nat.min_eq_left hall, List.drop_of_length_le (Nat.le_refl _), List.drop_of_length_le hall]
  · rw [Nat.min_eq_right hsome]

end

/-- A flush whose copies succeed is a pop. -/
theorem refines_flush {s : LoggerRun} {q : DropQueue (List UInt8)} (h : Refines s q)
    (pages : Nat → GuestPages) (outMessages maxMessages : Nat)
    (hcopies : CopiesSucceed s (.flush pages outMessages maxMessages)) :
    Refines ⟨(flushStandardLogs pages s.logger outMessages maxMessages).1,
        s.returned ++ returnedRecords
          (flushStandardLogs pages s.logger outMessages maxMessages).2.1
          (flushStandardLogs pages s.logger outMessages maxMessages).2.2⟩
      (q.pop (if outMessages = 0 then 0 else maxMessages)) := by
  -- What a flush returns leaves the ring, and the same number leaves the queue.
  refine Refines.mk ?_ ?_ ?_
  · show List.Forall₂ Carries (pendingMessages _) (q.items.drop _)
    rw [flushStandardLogs_kept]
    exact List.forall₂_drop _ h.pending
  · show List.Forall₂ Carries (s.returned ++ _) (q.out ++ q.items.take _)
    rw [flushStandardLogs_returned pages s.logger hcopies]
    exact List.rel_append h.returned (List.forall₂_take _ h.pending)
  · exact (messageCount_flush pages s.logger outMessages maxMessages).trans h.count

/-! ### Runs -/

/-- One call against one operation of the queue. -/
theorem refines_next {s s' : LoggerRun} {q : DropQueue (List UInt8)} {call : LoggerCall}
    (h : Refines s q) (hcopies : CopiesSucceed s call)
    (hnext : loggerMachine.next s call = some s') :
    ∃ q', messageQueue.next q call.op = some q' ∧ Refines s' q' := by
  cases call with
  | write message =>
    cases Option.some.inj hnext
    exact ⟨_, rfl, refines_write h message⟩
  | flush pages outMessages maxMessages =>
    cases Option.some.inj hnext
    exact ⟨_, rfl, refines_flush h pages outMessages maxMessages hcopies⟩

/-- A run of the logger against the run of the queue. -/
theorem refines_run {s s' : LoggerRun} {q : DropQueue (List UInt8)} {calls : List LoggerCall}
    (h : Refines s q) (hcopies : loggerMachine.Along CopiesSucceed s calls)
    (hrun : loggerMachine.run s calls = some s') :
    ∃ q', messageQueue.run q (calls.map LoggerCall.op) = some q' ∧ Refines s' q' := by
  induction calls generalizing s q with
  | nil =>
    cases Option.some.inj hrun
    exact ⟨q, rfl, h⟩
  | cons call calls ih =>
    obtain ⟨s₁, hnext, hrest⟩ := loggerMachine.run_cons_eq_some hrun
    obtain ⟨q₁, hqueue, h₁⟩ := refines_next h hcopies.1 hnext
    obtain ⟨q', hrun', h'⟩ := ih h₁ (hcopies.2 s₁ hnext) hrest
    refine ⟨q', ?_, h'⟩
    rw [List.map_cons, Machine.run_cons, hqueue, Option.bind_some, hrun']

/-- The numbers of records that carry elements are those of the elements
modulo 2^64. -/
theorem messageNumbers_of_carries {records : List StandardLogMessage}
    {items : List (Nat × List UInt8)} (h : List.Forall₂ Carries records items) :
    records.map StandardLogMessage.messageNumber =
      (DropQueue.numbers items).map fun k => k % 2 ^ 64 := by
  induction h with
  | nil => rfl
  | cons hcarries _ ih =>
    rw [List.map_cons, ih, hcarries.1]
    rfl

/-- Up to 2^64 messages the remainders are as increasing as the numbers. -/
theorem pairwise_mod {l : List Nat} (h : l.Pairwise (· < ·)) (hlt : ∀ k ∈ l, k < 2 ^ 64) :
    (l.map fun k => k % 2 ^ 64).Pairwise (· < ·) := by
  rw [List.pairwise_map]
  refine h.imp_of_mem fun ha hb hab => ?_
  rw [Nat.mod_eq_of_lt (hlt _ ha), Nat.mod_eq_of_lt (hlt _ hb)]
  exact hab

/-- Every run of calls that do not overlap and whose copies succeed is a
run of the queue. The logger holds and has returned what the queue has,
and a flush returns the oldest messages it asks for. What has been
returned is in the order of the writes without repetition, and a write
whose message is neither returned nor pending was overwritten when 512
newer ones were there. The message numbers increase as long as there are
at most 2^64 writes. -/
theorem logger_refines_queue (calls : List LoggerCall) (s : LoggerRun)
    (hrun : loggerMachine.run .initial calls = some s)
    (hcopies : loggerMachine.Along CopiesSucceed .initial calls) :
    ∃ q, messageQueue.run .empty (calls.map LoggerCall.op) = some q ∧
      List.Forall₂ Carries (pendingMessages s.logger) q.items ∧
      List.Forall₂ Carries s.returned q.out ∧
      (∀ pages outMessages maxMessages, outMessages ≠ 0 →
        ChunksWritable pages s.logger outMessages maxMessages →
        (flushStandardLogs pages s.logger outMessages maxMessages).2.1 =
            min q.items.length maxMessages ∧
          List.Forall₂ Carries
            (returnedRecords (flushStandardLogs pages s.logger outMessages maxMessages).2.1
              (flushStandardLogs pages s.logger outMessages maxMessages).2.2)
            (q.items.take maxMessages)) ∧
      (DropQueue.numbers q.out).Pairwise (· < ·) ∧
      (∀ k < q.pushed, k ∉ DropQueue.numbers q.out → k ∉ DropQueue.numbers q.items →
        DropQueue.Overwritten maxStandardMessageCount .empty (calls.map LoggerCall.op) k) ∧
      (q.pushed ≤ 2 ^ 64 →
        (s.returned.map StandardLogMessage.messageNumber).Pairwise (· < ·)) := by
  have hcap : 0 < maxStandardMessageCount := by decide
  obtain ⟨q, hqueue, h⟩ := refines_run refines_initial hcopies hrun
  have hordered := DropQueue.ordered_run hcap hqueue
  refine ⟨q, hqueue, h.pending, h.returned, ?_, hordered.increasing, ?_, ?_⟩
  · intro pages outMessages maxMessages hnull hchunks
    have hlength := h.pending.length_eq
    rw [length_pendingMessages] at hlength
    rw [flushStandardLogs_returned pages s.logger hchunks, flushStandardLogs_count, flushCount,
      if_neg hnull, if_neg hnull, hlength]
    exact ⟨rfl, List.forall₂_take _ h.pending⟩
  · intro k hk hout hitems
    exact DropQueue.overwritten_of_missing hcap (DropQueue.ordered_empty _) hqueue
      (Nat.zero_le k) hk hout hitems
  · -- Numbers grow until the counter wraps at 2^64.
    intro hpushed
    rw [messageNumbers_of_carries h.returned]
    refine pairwise_mod hordered.increasing fun k hk => ?_
    have := hordered.before k hk
    omega

/-- A flush of everything into resident pages. -/
def flushAll : LoggerCall := .flush (fun _ => residentArray.pages) residentArray.va.toNat 512

/-- Two messages more than the logger has places for, and a flush. -/
def overflowCalls : List LoggerCall := List.replicate 514 (.write [104, 105]) ++ [flushAll]

/-- The queue keeps the last 512 of the messages, and the pop takes all
of them. -/
theorem overflowCalls_queue : ∃ q, messageQueue.run .empty (overflowCalls.map LoggerCall.op) =
    some q ∧ q.pushed = 514 ∧ DropQueue.numbers q.out = List.range' 2 512 ∧ q.items = [] := by
  obtain ⟨q, hrun, hordered, hpushed, hout, hlength⟩ := DropQueue.run_pushes
    (show 0 < maxStandardMessageCount by decide) (DropQueue.ordered_empty _)
    (List.replicate 514 ([104, 105] : List UInt8))
  rw [List.length_replicate] at hpushed hlength
  have hfull : q.items.length = 512 := hlength.trans (by decide)
  have hcalls : overflowCalls.map LoggerCall.op =
      (List.replicate 514 [104, 105]).map .push ++ [.pop 512] := by
    unfold overflowCalls
    rw [List.map_append, List.map_replicate, List.map_replicate]
    rfl
  refine ⟨q.pop 512, ?_, hpushed, ?_, ?_⟩
  · rw [hcalls, Machine.run_append, hrun]
    rfl
  · rw [DropQueue.out_pop, hout, ← hfull, List.take_length]
    show DropQueue.numbers q.items = _
    rw [hordered.consecutive, hpushed, hfull]
    rfl
  · rw [DropQueue.items_pop, ← hfull, List.drop_length]

/-- The logger takes every call. -/
theorem loggerMachine_total (s : LoggerRun) (call : LoggerCall) :
    ∃ s', loggerMachine.next s call = some s' := by
  cases call with
  | write message => exact ⟨_, rfl⟩
  | flush pages outMessages maxMessages => exact ⟨_, rfl⟩

/-- The flush returns the last 512 of the messages, and the first two
have been overwritten. -/
theorem logger_refines_queue_hi : ∃ s q,
    loggerMachine.run .initial overflowCalls = some s ∧
      messageQueue.run .empty (overflowCalls.map LoggerCall.op) = some q ∧
      List.Forall₂ Carries s.returned q.out ∧ DropQueue.numbers q.out = List.range' 2 512 ∧
      ∀ k < 2, DropQueue.Overwritten maxStandardMessageCount .empty
        (overflowCalls.map LoggerCall.op) k := by
  -- Writes copy nothing to the caller, and the flush has a resident array.
  have hcopies : loggerMachine.Along CopiesSucceed .initial overflowCalls := by
    refine Machine.along_of_mem (fun call hcall s => ?_) _
    cases List.mem_append.mp hcall with
    | inl hwrite =>
      rw [List.eq_of_mem_replicate hwrite]
      trivial
    | inr hflush =>
      rw [List.mem_singleton.mp hflush]
      exact residentArray.chunksWritable s.logger
  obtain ⟨s, hrun⟩ := Machine.exists_run loggerMachine_total .initial overflowCalls
  obtain ⟨q, hqueue, _, hreturned, _, _, hoverwritten, _⟩ :=
    logger_refines_queue overflowCalls s hrun hcopies
  obtain ⟨q', hqueue', hpushed, hout, hitems⟩ := overflowCalls_queue
  cases Option.some.inj (hqueue'.symm.trans hqueue)
  refine ⟨s, q, hrun, hqueue, hreturned, hout, fun k hk => hoverwritten k ?_ ?_ ?_⟩
  · rw [hpushed]
    omega
  · rw [hout, List.mem_range'_1]
    omega
  · rw [hitems]
    exact List.not_mem_nil

/-- `n` times a message and a flush. -/
def writeAndFlush : Nat → List LoggerCall
  | 0 => []
  | n + 1 => .write [] :: flushAll :: writeAndFlush n

/-- The copies succeed, and the numbers of the writes come back one by
one. -/
theorem writeAndFlush_run (n : Nat) {s : LoggerRun} {q : DropQueue (List UInt8)}
    (h : Refines s q) (hempty : q.items = []) :
    ∃ s' q', loggerMachine.run s (writeAndFlush n) = some s' ∧
      loggerMachine.Along CopiesSucceed s (writeAndFlush n) ∧ Refines s' q' ∧
      DropQueue.numbers q'.out = DropQueue.numbers q.out ++ List.range' q.pushed n := by
  induction n generalizing s q with
  | zero => exact ⟨s, q, rfl, trivial, h, (List.append_nil _).symm⟩
  | succ n ih =>
    have hchunks := residentArray.chunksWritable (writeToStandardLog s.logger [])
    have hwrite := refines_write h []
    have hflush := refines_flush hwrite (fun _ => residentArray.pages) residentArray.va.toNat 512
      hchunks
    -- The queue holds the new message only, and the flush takes it.
    have hitems : (q.push maxStandardMessageCount
        (List.take (maxStandardMessageLength - 1) [])).items =
          [(q.pushed, List.take (maxStandardMessageLength - 1) [])] := by
      rw [DropQueue.items_push, hempty]
      rfl
    have hva : residentArray.va.toNat ≠ 0 := by decide
    rw [if_neg hva] at hflush
    have hgone : ((q.push maxStandardMessageCount
        (List.take (maxStandardMessageLength - 1) [])).pop 512).items = [] := by
      rw [DropQueue.items_pop, hitems]
      rfl
    obtain ⟨s', q', hrun, hcopies, h', hnumbers⟩ := ih hflush hgone
    refine ⟨s', q', hrun, ⟨trivial, fun s₁ hs₁ => ?_⟩, h', ?_⟩
    · cases Option.some.inj hs₁
      exact ⟨hchunks, fun s₂ hs₂ => by
        cases Option.some.inj hs₂
        exact hcopies⟩
    · rw [hnumbers, List.range'_succ, DropQueue.out_pop, DropQueue.pushed_pop,
        DropQueue.pushed_push, DropQueue.out_push, hitems, DropQueue.numbers_append,
        List.append_assoc]
      rfl

/-- Remainders of more than `w` consecutive numbers start again at 0. -/
theorem not_pairwise_mod {n w : Nat} (hw : 0 < w) (hn : w < n) :
    ¬ ((List.range' 0 n).map fun k => k % w).Pairwise (· < ·) := by
  intro h
  rw [List.pairwise_map] at h
  cases n with
  | zero => omega
  | succ n =>
    rw [List.range'_succ] at h
    have hwrap : w ∈ List.range' (0 + 1) n := by
      rw [List.mem_range'_1]
      omega
    have hlt := List.rel_of_pairwise_cons h hwrap
    simp only [Nat.zero_mod, Nat.mod_self] at hlt
    omega

/-- After 2^64 messages the numbers start again at 0. -/
theorem numbers_wrap : ∃ calls s, loggerMachine.run .initial calls = some s ∧
    loggerMachine.Along CopiesSucceed .initial calls ∧
    ¬ (s.returned.map StandardLogMessage.messageNumber).Pairwise (· < ·) := by
  obtain ⟨n, hn⟩ : ∃ n, 2 ^ 64 < n := ⟨_, Nat.lt_succ_self _⟩
  obtain ⟨s, q, hrun, hcopies, h, hnumbers⟩ := writeAndFlush_run n refines_initial rfl
  refine ⟨writeAndFlush n, s, hrun, hcopies, ?_⟩
  rw [messageNumbers_of_carries h.returned, hnumbers]
  exact not_pairwise_mod (by decide) hn

end Revhv.Logging
