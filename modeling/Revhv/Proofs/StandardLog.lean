import Revhv.Km.Logging

/-!
# `Revhv.Proofs.StandardLog`: the logger as a queue

`pendingMessages` is the queue of messages that a logger still holds
for a flush, oldest first.

* `flushStandardLogs_count` / `flushStandardLogs_pending`: a flush
  removes as many of the oldest messages as it returns.
* `flushStandardLogs_written`: when both chunks can be written, the
  caller's array holds those messages in order.
* `flushStandardLogs_not_written`: when a chunk cannot be written, the
  slot of its last message is not filled.
-/

set_option autoImplicit false

namespace Revhv.Logging

open Revhv.Introspection Revhv.Lib

/-- The messages a logger still holds for a flush, oldest first. -/
def pendingMessages (logger : StandardLogger) : List StandardLogMessage :=
  Ring.segment logger.messages maxStandardMessageCount logger.startIndex logger.pendingCount

/-- There are as many pending messages as the counter says. -/
@[simp] theorem length_pendingMessages (logger : StandardLogger) :
    (pendingMessages logger).length = logger.pendingCount := Ring.segment_length ..

/-- The oldest message is in a slot. -/
theorem startIndex_lt (logger : StandardLogger) : logger.startIndex < maxStandardMessageCount :=
  Nat.mod_lt _ (by decide)

/-- The number of messages a flush takes. -/
def flushCount (logger : StandardLogger) (outMessages maxMessages : Nat) : Nat :=
  if outMessages = 0 then 0 else min logger.pendingCount maxMessages

/-- Both chunks of a flush can be written in full. -/
def ChunksWritable (pages : Nat → GuestPages) (logger : StandardLogger)
    (outMessages maxMessages : Nat) : Prop :=
  outMessages = 0 ∨
    Writable (pages 0) outMessages ((flushChunks logger maxMessages).2.1 * messageSize) ∧
      Writable (pages (flushChunks logger maxMessages).2.1)
        ((outMessages + (flushChunks logger maxMessages).2.1 * messageSize) % 2 ^ 64)
        ((flushChunks logger maxMessages).2.2 * messageSize)

section
variable (pages : Nat → GuestPages) (logger : StandardLogger) (outMessages maxMessages : Nat)

/-- The first chunk ends at the last slot when there is a second one. -/
theorem flushChunks_spec :
    (flushChunks logger maxMessages).1 = min logger.pendingCount maxMessages ∧
    (flushChunks logger maxMessages).2.1 + (flushChunks logger maxMessages).2.2 =
      (flushChunks logger maxMessages).1 ∧
    logger.startIndex + (flushChunks logger maxMessages).2.1 ≤ maxStandardMessageCount ∧
    (0 < (flushChunks logger maxMessages).2.2 →
      logger.startIndex + (flushChunks logger maxMessages).2.1 = maxStandardMessageCount) := by
  have hlt := startIndex_lt logger
  refine ⟨rfl, ?_, ?_, ?_⟩
  · simp only [flushChunks]
    omega
  · simp only [flushChunks]
    omega
  · simp only [flushChunks]
    omega

/-- A flush that takes nothing. -/
theorem flushStandardLogs_of_zero (h : flushCount logger outMessages maxMessages = 0) :
    flushStandardLogs pages logger outMessages maxMessages = (logger, 0, fun _ => none) := by
  unfold flushStandardLogs
  split
  · rfl
  · rename_i hne
    have hcount : (flushChunks logger maxMessages).1 = 0 := by
      rw [flushCount, if_neg (fun h0 => hne (Or.inl h0))] at h
      exact h
    simp only [if_pos hcount]

/-- The messages of the first chunk. -/
def firstMessages : List StandardLogMessage :=
  (List.range (flushChunks logger maxMessages).2.1).map fun i =>
    logger.messages (logger.startIndex + i)

/-- The messages of the second chunk. -/
def secondMessages : List StandardLogMessage :=
  (List.range (flushChunks logger maxMessages).2.2).map fun i => logger.messages i

/-- A flush that takes something writes its chunks and moves on. -/
theorem flushStandardLogs_of_pos (h : 0 < flushCount logger outMessages maxMessages) :
    flushStandardLogs pages logger outMessages maxMessages =
      ({ logger with
          pendingCount := logger.pendingCount - flushCount logger outMessages maxMessages
          pending_le := (Nat.sub_le ..).trans logger.pending_le },
        flushCount logger outMessages maxMessages,
        let first := (flushChunks logger maxMessages).2.1
        let second := (flushChunks logger maxMessages).2.2
        let out := CallerArray.store (fun _ => none) 0 (firstMessages logger maxMessages)
          (writeGuestVirtual (pages 0) outMessages (first * messageSize) / messageSize)
        if 0 < second then
          out.store first (secondMessages logger maxMessages)
            (writeGuestVirtual (pages first) ((outMessages + first * messageSize) % 2 ^ 64)
              (second * messageSize) / messageSize)
        else out) := by
  have hnull : outMessages ≠ 0 := by
    rintro rfl
    exact absurd h (by simp [flushCount])
  have hcount : flushCount logger outMessages maxMessages = (flushChunks logger maxMessages).1 :=
    if_neg hnull
  have hmax : maxMessages ≠ 0 := by
    rintro rfl
    rw [hcount, (flushChunks_spec logger 0).1, Nat.min_zero] at h
    omega
  have hne : (flushChunks logger maxMessages).1 ≠ 0 := by omega
  simp only [flushStandardLogs, hnull, hmax, or_self, if_false, if_neg hne, hcount,
    firstMessages, secondMessages]

/-- The count a flush returns. -/
theorem flushStandardLogs_count :
    (flushStandardLogs pages logger outMessages maxMessages).2.1 =
      flushCount logger outMessages maxMessages := by
  rcases Nat.eq_zero_or_pos (flushCount logger outMessages maxMessages) with h | h
  · rw [flushStandardLogs_of_zero _ _ _ _ h, h]
  · rw [flushStandardLogs_of_pos _ _ _ _ h]

/-- A flush returns no more than there is. -/
theorem flushCount_le : flushCount logger outMessages maxMessages ≤ logger.pendingCount := by
  unfold flushCount
  split
  · exact Nat.zero_le _
  · exact Nat.min_le_left ..

/-- A logger with fewer pending messages starts that much later. -/
theorem pendingMessages_sub {n : Nat} (hn : n ≤ logger.pendingCount) :
    pendingMessages { logger with
        pendingCount := logger.pendingCount - n
        pending_le := (Nat.sub_le ..).trans logger.pending_le } =
      (pendingMessages logger).drop n := by
  have hlt := logger.cursor_lt
  have hle := logger.pending_le
  have hstart : (logger.cursor + maxStandardMessageCount - (logger.pendingCount - n)) %
      maxStandardMessageCount = (logger.startIndex + n) % maxStandardMessageCount := by
    simp only [StandardLogger.startIndex, maxStandardMessageCount] at *
    omega
  rw [pendingMessages, pendingMessages, Ring.drop_segment _ _ _ hn,
    ← Ring.segment_mod _ _ (logger.startIndex + n), ← hstart]
  rfl

/-- A flush removes the oldest messages, as many as it returns. -/
theorem flushStandardLogs_pending :
    pendingMessages (flushStandardLogs pages logger outMessages maxMessages).1 =
      (pendingMessages logger).drop (flushCount logger outMessages maxMessages) := by
  rcases Nat.eq_zero_or_pos (flushCount logger outMessages maxMessages) with h | h
  · rw [flushStandardLogs_of_zero _ _ _ _ h, h, List.drop_zero]
  · rw [flushStandardLogs_of_pos _ _ _ _ h]
    exact pendingMessages_sub logger (flushCount_le ..)

/-- The two chunks are the oldest pending messages. -/
theorem chunk_getElem? {i : Nat} (hi : i < (flushChunks logger maxMessages).1) :
    (pendingMessages logger)[i]? =
      if i < (flushChunks logger maxMessages).2.1 then (firstMessages logger maxMessages)[i]?
      else (secondMessages logger maxMessages)[i - (flushChunks logger maxMessages).2.1]? := by
  obtain ⟨hcount, hsum, hend, hwrap⟩ := flushChunks_spec logger maxMessages
  have hlt := startIndex_lt logger
  have hle := logger.pending_le
  rw [pendingMessages, Ring.segment_getElem? _ _ _ (by omega)]
  split
  · rename_i hfirst
    rw [Nat.mod_eq_of_lt (by omega)]
    simp [firstMessages, hfirst]
  · rename_i hsecond
    have hslot : (logger.startIndex + i) % maxStandardMessageCount =
        i - (flushChunks logger maxMessages).2.1 := by
      have := hwrap (by omega)
      simp only [maxStandardMessageCount] at *
      omega
    rw [hslot]
    simp [secondMessages, show i - (flushChunks logger maxMessages).2.1 <
      (flushChunks logger maxMessages).2.2 by omega]

/-- When both chunks can be written, every message of the flush arrives. -/
theorem flushStandardLogs_written (hw : ChunksWritable pages logger outMessages maxMessages)
    {i : Nat} (hi : i < flushCount logger outMessages maxMessages) :
    (flushStandardLogs pages logger outMessages maxMessages).2.2 i =
      (pendingMessages logger)[i]? := by
  have hnull : outMessages ≠ 0 := by
    rintro rfl
    exact absurd hi (by simp [flushCount])
  have hcount : flushCount logger outMessages maxMessages = (flushChunks logger maxMessages).1 :=
    if_neg hnull
  obtain ⟨-, hsum, -, -⟩ := flushChunks_spec logger maxMessages
  obtain ⟨hfirst, hsecond⟩ := hw.resolve_left hnull
  rw [flushStandardLogs_of_pos _ _ _ _ (by omega), chunk_getElem? _ _ (hcount ▸ hi)]
  simp only [show writeGuestVirtual _ _ _ = _ from hfirst,
    show writeGuestVirtual _ _ _ = _ from hsecond,
    Nat.mul_div_cancel _ (show 0 < messageSize by decide)]
  split
  · rename_i hpos
    by_cases hin : i < (flushChunks logger maxMessages).2.1
    · rw [CallerArray.store_of_lt _ _ _ _ hin, if_pos hin, CallerArray.store,
        if_pos ⟨by omega, by omega⟩, Nat.sub_zero]
    · rw [if_neg hin, CallerArray.store, if_pos ⟨by omega, by omega⟩]
  · rename_i hzero
    rw [if_pos (by omega), CallerArray.store, if_pos ⟨by omega, by omega⟩, Nat.sub_zero]

/-- When a chunk cannot be written, the slot of its last message stays
empty. -/
theorem flushStandardLogs_not_written
    (hw : ¬ ChunksWritable pages logger outMessages maxMessages) :
    ∃ i < flushCount logger outMessages maxMessages,
      (flushStandardLogs pages logger outMessages maxMessages).2.2 i = none := by
  obtain ⟨hnull, hchunks⟩ := not_or.mp hw
  have hcount : flushCount logger outMessages maxMessages = (flushChunks logger maxMessages).1 :=
    if_neg hnull
  obtain ⟨-, hsum, -, -⟩ := flushChunks_spec logger maxMessages
  have hempty : ∀ p va, Writable p va (0 * messageSize) := fun p va => by
    rw [Nat.zero_mul]
    exact if_pos (Or.inr rfl)
  -- A chunk of `n` messages that cannot be written leaves its last slot out.
  have hlost : ∀ {p : GuestPages} {va n : Nat}, ¬ Writable p va (n * messageSize) →
      0 < n ∧ writeGuestVirtual p va (n * messageSize) / messageSize + 1 ≤ n := by
    intro p va n hn
    have hpos : 0 < n := by
      rcases Nat.eq_zero_or_pos n with rfl | hpos
      · exact absurd (hempty p va) hn
      · exact hpos
    exact ⟨hpos, (Nat.div_lt_iff_lt_mul (by decide)).mpr (writeGuestVirtual_lt hn)⟩
  by_cases hfirst : Writable (pages 0) outMessages
      ((flushChunks logger maxMessages).2.1 * messageSize)
  · obtain ⟨hpos, hlt⟩ := hlost (fun hsecond => hchunks ⟨hfirst, hsecond⟩)
    refine ⟨(flushChunks logger maxMessages).1 - 1, by omega, ?_⟩
    rw [flushStandardLogs_of_pos _ _ _ _ (by omega)]
    simp only [show writeGuestVirtual _ _ _ = _ from hfirst, if_pos hpos,
      Nat.mul_div_cancel _ (show 0 < messageSize by decide)]
    rw [CallerArray.store_of_ge _ _ _ _ (by omega), CallerArray.store_of_ge _ _ _ _ (by omega)]
  · obtain ⟨hpos, hlt⟩ := hlost hfirst
    refine ⟨(flushChunks logger maxMessages).2.1 - 1, by omega, ?_⟩
    rw [flushStandardLogs_of_pos _ _ _ _ (by omega)]
    simp only
    split
    · rw [CallerArray.store_of_lt _ _ _ _ (by omega), CallerArray.store_of_ge _ _ _ _ (by omega)]
    · rw [CallerArray.store_of_ge _ _ _ _ (by omega)]

end

end Revhv.Logging
