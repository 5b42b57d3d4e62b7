import Revhv.Km.NestedLog
import Revhv.Lib.CommitPoint
import Revhv.Proofs.LoggerQueue
import Revhv.Proofs.ReadVmemory

/-!
# `Revhv.Proofs.NestedLog`: messages logged by host NMIs

A write takes effect with its read of `cursor`, a flush with its own.
`Linked` says what every later step stands for, and `NmiAllowed` at
which steps a message of a host NMI leaves that in place.

* `messages_planOf`: the bytes that a flush copies one by one are those
  of the flush as one call.
* `linked_nmi`, `linked_step`, `linked_begin`: what one event does.
* `nestedLog_serial`: every run in which the NMIs are allowed has the
  outcome of its calls in some order.
* `nestedLog_shared_slot`: one NMI after the read of `cursor`, and two
  messages share a slot.
-/

set_option autoImplicit false

namespace Revhv.Logging

open Revhv.Introspection Revhv.Lib

/-! ### Messages as bytes -/

/-- A message is read back from its bytes. -/
theorem ofBytes_byteAt {r : StandardLogMessage} (hfits : r.messageNumber < 2 ^ 64)
    {bytes : Nat → UInt8} (h : ∀ b < messageSize, bytes b = r.byteAt b) :
    StandardLogMessage.ofBytes bytes = r := by
  rcases r with ⟨number, text⟩
  -- The record is eight bytes of number with the text behind it.
  have hnumber : GuestMemory.uint64At bytes 0 = number := by
    have hvalue : GuestMemory.uint64At bytes 0 = (UInt64.ofNat number).toNat :=
      Hypercall.uint64At_of_bytes (UInt64.ofNat number) fun k hk => by
        rw [Nat.zero_add, h k (by simp only [messageSize]; omega), StandardLogMessage.byteAt,
          if_pos hk, UInt64.toNat_ofNat_of_lt' hfits]
    rw [hvalue, UInt64.toNat_ofNat_of_lt' hfits]
  have htext : (fun i : Fin maxStandardMessageLength => bytes (8 + i)) = text := by
    funext i
    have hi := i.isLt
    have hidx : textIndex (8 + i - 8) = i := by
      apply Fin.ext
      show (8 + i.val - 8) % maxStandardMessageLength = i.val
      rw [Nat.add_sub_cancel_left, Nat.mod_eq_of_lt hi]
    rw [h (8 + i) (by simp only [messageSize]; omega), StandardLogMessage.byteAt,
      if_neg (by omega), hidx]
  rw [StandardLogMessage.ofBytes, hnumber, htext]

/-- A message depends on its bytes. -/
theorem ofBytes_congr {bytes bytes' : Nat → UInt8} (h : ∀ b < messageSize, bytes' b = bytes b) :
    StandardLogMessage.ofBytes bytes = StandardLogMessage.ofBytes bytes' := by
  have hnumber : GuestMemory.uint64At bytes' 0 = GuestMemory.uint64At bytes 0 :=
    GuestMemory.uint64At_congr fun k hk => h (0 + k) (by simp only [messageSize]; omega)
  have htext : (fun i : Fin maxStandardMessageLength => bytes' (8 + i)) =
      fun i : Fin maxStandardMessageLength => bytes (8 + i) := by
    funext i
    have hi := i.isLt
    exact h (8 + i) (by simp only [messageSize]; omega)
  rw [StandardLogMessage.ofBytes, StandardLogMessage.ofBytes, hnumber, htext]

/-- A message of the caller's array depends on its bytes. -/
theorem messages_congr {out out' : CallerBytes} {i : Nat}
    (h : ∀ b < messageSize, out (i * messageSize + b) = out' (i * messageSize + b)) :
    out.messages i = out'.messages i := by
  have hall : (∀ b < messageSize, (out (i * messageSize + b)).isSome) ↔
      ∀ b < messageSize, (out' (i * messageSize + b)).isSome :=
    forall_congr' fun b => forall_congr' fun hb => by rw [h b hb]
  unfold CallerBytes.messages
  by_cases hsome : ∀ b < messageSize, (out (i * messageSize + b)).isSome
  · have hbytes : StandardLogMessage.ofBytes (fun b => (out (i * messageSize + b)).getD 0) =
        StandardLogMessage.ofBytes fun b => (out' (i * messageSize + b)).getD 0 :=
      ofBytes_congr fun b hb => by rw [h b hb]
    rw [if_pos hsome, if_pos (hall.mp hsome), hbytes]
  · rw [if_neg hsome, if_neg fun h' => hsome (hall.mpr h')]

/-- A message with a byte missing is not there. -/
theorem messages_of_missing {out : CallerBytes} {i b : Nat} (hb : b < messageSize)
    (hnone : out (i * messageSize + b) = none) : out.messages i = none := by
  refine if_neg fun h => ?_
  have := h b hb
  rw [hnone] at this
  cases this

/-! ### What a copy comes to -/

/-- The caller's bytes after the rest of a chunk, from byte `i` on. -/
def storeChunk (messages : Nat → StandardLogMessage) (chunk : Chunk) (i : Nat)
    (out : CallerBytes) : CallerBytes := fun x =>
  if chunk.first * messageSize + i ≤ x ∧ x < chunk.first * messageSize + chunk.written then
    some ((messages (chunk.slot + (x - chunk.first * messageSize) / messageSize)).byteAt
      ((x - chunk.first * messageSize) % messageSize))
  else out x

/-- The caller's bytes after the rest of the chunks. -/
def copyAll (messages : Nat → StandardLogMessage) : List Chunk → Nat → CallerBytes → CallerBytes
  | [], _, out => out
  | chunk :: chunks, i, out => copyAll messages chunks 0 (storeChunk messages chunk i out)

/-- One more byte of a chunk. -/
theorem storeChunk_step (messages : Nat → StandardLogMessage) (chunk : Chunk) {i : Nat}
    (hi : i < chunk.written) (out : CallerBytes) :
    storeChunk messages chunk (i + 1)
        (Function.update out (chunk.first * messageSize + i)
          (some ((messages (chunk.slot + i / messageSize)).byteAt (i % messageSize)))) =
      storeChunk messages chunk i out := by
  funext x
  unfold storeChunk
  by_cases hx : x = chunk.first * messageSize + i
  · subst hx
    rw [if_neg (by omega), Function.update_self, if_pos (by omega), Nat.add_sub_cancel_left]
  · rw [Function.update_of_ne hx]
    have hiff : (chunk.first * messageSize + (i + 1) ≤ x ∧
        x < chunk.first * messageSize + chunk.written) ↔
        (chunk.first * messageSize + i ≤ x ∧ x < chunk.first * messageSize + chunk.written) := by
      omega
    simp only [hiff]

/-- A chunk that has been copied. -/
theorem storeChunk_done (messages : Nat → StandardLogMessage) (chunk : Chunk) {i : Nat}
    (hi : ¬ i < chunk.written) (out : CallerBytes) : storeChunk messages chunk i out = out := by
  funext x
  unfold storeChunk
  exact if_neg (by omega)

/-- The copy depends on the slots it reads only. -/
theorem copyAll_congr {messages messages' : Nat → StandardLogMessage} {chunks : List Chunk}
    (h : ∀ chunk ∈ chunks, ∀ j < chunk.written, messages' (chunk.slot + j / messageSize) =
      messages (chunk.slot + j / messageSize)) (i : Nat) (out : CallerBytes) :
    copyAll messages' chunks i out = copyAll messages chunks i out := by
  induction chunks generalizing i out with
  | nil => rfl
  | cons chunk chunks ih =>
      have hchunk : storeChunk messages' chunk i out = storeChunk messages chunk i out := by
        funext x
        unfold storeChunk
        split
        · rw [h chunk List.mem_cons_self _ (by omega)]
        · rfl
      rw [copyAll, copyAll, hchunk]
      exact ih (fun c hc => h c (List.mem_cons_of_mem _ hc)) 0 _

/-- A chunk that is copied behind all others fills the slots of its
whole messages. -/
theorem messages_storeChunk {messages : Nat → StandardLogMessage}
    (hfits : ∀ slot, (messages slot).messageNumber < 2 ^ 64) {chunk : Chunk} {count : Nat}
    (hcount : chunk.written ≤ count * messageSize) {out : CallerBytes}
    (hout : ∀ x, chunk.first * messageSize ≤ x → out x = none) :
    (storeChunk messages chunk 0 out).messages =
      CallerArray.store out.messages chunk.first
        ((List.range count).map fun i => messages (chunk.slot + i))
        (chunk.written / messageSize) := by
  have hpos : 0 < messageSize := by decide
  funext i
  unfold CallerArray.store
  split
  · -- All bytes of the message have been copied.
    rename_i hi
    have hend : (i - chunk.first + 1) * messageSize ≤ chunk.written :=
      (Nat.le_div_iff_mul_le hpos).mp (by omega)
    have hbase : i * messageSize = chunk.first * messageSize + (i - chunk.first) * messageSize := by
      rw [← Nat.add_mul, Nat.add_sub_cancel' hi.1]
    have hbyte : ∀ b < messageSize, storeChunk messages chunk 0 out (i * messageSize + b) =
        some ((messages (chunk.slot + (i - chunk.first))).byteAt b) := by
      intro b hb
      have hoff : i * messageSize + b - chunk.first * messageSize =
          b + (i - chunk.first) * messageSize := by omega
      rw [Nat.succ_mul] at hend
      unfold storeChunk
      rw [if_pos (by omega), hoff, Nat.add_mul_div_right _ _ hpos, Nat.div_eq_of_lt hb,
        Nat.zero_add, Nat.add_mul_mod_self_right, Nat.mod_eq_of_lt hb]
    have hlt : i - chunk.first < count := by
      have hwhole := hend.trans hcount
      exact Nat.lt_of_succ_le (Nat.le_of_mul_le_mul_right hwhole hpos)
    unfold CallerBytes.messages
    rw [if_pos fun b hb => by rw [hbyte b hb]; rfl]
    have hmessage : StandardLogMessage.ofBytes
        (fun b => (storeChunk messages chunk 0 out (i * messageSize + b)).getD 0) =
          messages (chunk.slot + (i - chunk.first)) :=
      ofBytes_byteAt (hfits _) fun b hb => by rw [hbyte b hb]; rfl
    rw [hmessage]
    simp [hlt]
  · rename_i hi
    by_cases hbefore : i < chunk.first
    · have hend : (i + 1) * messageSize ≤ chunk.first * messageSize :=
        Nat.mul_le_mul_right _ hbefore
      rw [Nat.succ_mul] at hend
      refine messages_congr fun b hb => ?_
      unfold storeChunk
      exact if_neg (by omega)
    · -- The last byte of the message is missing.
      have hbase : (chunk.first + chunk.written / messageSize) * messageSize ≤ i * messageSize :=
        Nat.mul_le_mul_right _ (by omega)
      have hrest := Nat.div_add_mod chunk.written messageSize
      have hmod := Nat.mod_lt chunk.written hpos
      rw [Nat.add_mul, Nat.mul_comm (chunk.written / messageSize)] at hbase
      have hlast : ¬ (chunk.first * messageSize + 0 ≤ i * messageSize + (messageSize - 1) ∧
          i * messageSize + (messageSize - 1) < chunk.first * messageSize + chunk.written) := by
        omega
      have hnone : out (i * messageSize + (messageSize - 1)) = none := hout _ (by omega)
      rw [messages_of_missing (by omega) hnone, messages_of_missing (b := messageSize - 1) (by omega)]
      unfold storeChunk
      rw [if_neg hlast, hnone]

/-- The messages that can be numbered: the numbers in the ring and the
next one fit 64 bits. -/
def NumbersFit (logger : StandardLogger) : Prop :=
  (∀ slot, (logger.messages slot).messageNumber < 2 ^ 64) ∧ logger.messageCount < 2 ^ 64

section Plan

variable (pages : Nat → GuestPages) (l : StandardLogger) {outMessages maxMessages : Nat}

/-- The chunks of a flush whose two reads have seen one state. -/
def planOf (outMessages maxMessages : Nat) : List Chunk :=
  copyPlan pages outMessages (min l.pendingCount maxMessages) l.pendingCount l.cursor

/-- The first chunk. -/
def firstChunk (outMessages maxMessages : Nat) : Chunk :=
  ⟨0, l.startIndex, writeGuestVirtual (pages 0) outMessages
    ((flushChunks l maxMessages).2.1 * messageSize)⟩

/-- The second chunk, from the first slot of the ring on. -/
def secondChunk (outMessages maxMessages : Nat) : Chunk :=
  ⟨(flushChunks l maxMessages).2.1, 0,
    writeGuestVirtual (pages (flushChunks l maxMessages).2.1)
      ((outMessages + (flushChunks l maxMessages).2.1 * messageSize) % 2 ^ 64)
      ((flushChunks l maxMessages).2.2 * messageSize)⟩

/-- A flush has one chunk or two. -/
theorem planOf_eq : planOf pages l outMessages maxMessages =
    firstChunk pages l outMessages maxMessages ::
      if 0 < (flushChunks l maxMessages).2.2 then [secondChunk pages l outMessages maxMessages]
      else [] := rfl

/-- They come to what the flush stores when nothing comes in between. -/
theorem messages_planOf (hfits : NumbersFit l) (hpos : 0 < flushCount l outMessages maxMessages) :
    (copyAll l.messages (planOf pages l outMessages maxMessages) 0 fun _ => none).messages =
      (flushStandardLogs pages l outMessages maxMessages).2.2 := by
  -- The caller's buffer begins with nothing stored.
  have hnothing : CallerBytes.messages (fun _ => none) = fun _ => none := by
    funext i
    exact messages_of_missing (b := 0) (by decide) rfl
  have hsize : (firstChunk pages l outMessages maxMessages).written ≤
      (flushChunks l maxMessages).2.1 * messageSize := writeGuestVirtual_le ..
  have hfirst := messages_storeChunk hfits.1 hsize
    fun x _ => (rfl : (fun _ => none : CallerBytes) x = none)
  rw [hnothing] at hfirst
  rw [flushStandardLogs_of_pos _ _ _ _ hpos, planOf_eq, copyAll]
  -- There is a second chunk when the pending messages wrap around the ring.
  by_cases hsecond : 0 < (flushChunks l maxMessages).2.2
  · have hsize' : (secondChunk pages l outMessages maxMessages).written ≤
        (flushChunks l maxMessages).2.2 * messageSize := writeGuestVirtual_le ..
    have hbehind : ∀ x, (secondChunk pages l outMessages maxMessages).first * messageSize ≤ x →
        storeChunk l.messages (firstChunk pages l outMessages maxMessages) 0 (fun _ => none) x =
          none := by
      intro x hx
      refine if_neg fun h => ?_
      have hx' : (flushChunks l maxMessages).2.1 * messageSize ≤ x := hx
      have hzero : (firstChunk pages l outMessages maxMessages).first * messageSize = 0 :=
        Nat.zero_mul _
      omega
    have hboth := messages_storeChunk hfits.1 hsize' hbehind
    rw [hfirst] at hboth
    rw [if_pos hsecond, copyAll, copyAll, hboth]
    simp only [if_pos hsecond, firstMessages, secondMessages]
    simp only [secondChunk, firstChunk, Nat.zero_add]
  · rw [if_neg hsecond, copyAll, hfirst]
    simp only [if_neg hsecond, firstMessages]
    rfl

/-- They read the slots of the oldest messages. -/
theorem slots_planOf : ∀ chunk ∈ planOf pages l outMessages maxMessages, ∀ j < chunk.written,
    ∃ i < min l.pendingCount maxMessages, chunk.slot + j / messageSize =
      (l.startIndex + i) % maxStandardMessageCount := by
  obtain ⟨hcount, hsum, hend, hwrap⟩ := flushChunks_spec l maxMessages
  have hpos : 0 < messageSize := by decide
  have hpending := l.pending_le
  intro chunk hchunk j hj
  rw [planOf_eq] at hchunk
  rcases List.mem_cons.mp hchunk with rfl | hchunk
  · have hsize : (firstChunk pages l outMessages maxMessages).written ≤
        (flushChunks l maxMessages).2.1 * messageSize := writeGuestVirtual_le ..
    have hrecord : j / messageSize < (flushChunks l maxMessages).2.1 :=
      (Nat.div_lt_iff_lt_mul hpos).mpr (Nat.lt_of_lt_of_le hj hsize)
    refine ⟨j / messageSize, by omega, ?_⟩
    show l.startIndex + j / messageSize = _
    exact (Nat.mod_eq_of_lt (by omega)).symm
  · split at hchunk
    · rename_i hsecond
      obtain rfl := List.mem_singleton.mp hchunk
      have hsize : (secondChunk pages l outMessages maxMessages).written ≤
          (flushChunks l maxMessages).2.2 * messageSize := writeGuestVirtual_le ..
      have hrecord : j / messageSize < (flushChunks l maxMessages).2.2 :=
        (Nat.div_lt_iff_lt_mul hpos).mpr (Nat.lt_of_lt_of_le hj hsize)
      -- The first chunk ends where the ring does, so the second begins at slot
      -- 0.
      have hseam := hwrap hsecond
      refine ⟨(flushChunks l maxMessages).2.1 + j / messageSize, by omega, ?_⟩
      rw [← Nat.add_assoc, hseam, Nat.add_mod_left, Nat.mod_eq_of_lt (by omega)]
      exact Nat.zero_add _
    · cases hchunk

end Plan

/-! ### Which NMIs do no harm -/

/-- A host NMI may log unless a write has read `cursor` and not stored
it, or a step is between the read and the store of `pending_count`. A
full ring allows it after the read of a write, and between the two reads
of a flush. From the second read of a flush on the ring must not be
full. -/
def NmiAllowed (s : NestedLogState) : LogEvent → Prop
  | .nmi _ =>
      match s.pc with
      | .idle | .writeCursor _ | .writePending | .flushAvailable .. => True
      | .writeCount .. | .writeNumber .. | .incrementRead .. | .incrementStore ..
      | .writeText .. | .storeCursor .. => False
      | .storePending pendingCount => maxStandardMessageCount ≤ pendingCount.1 + 1
      | .flushCursor _ _ _ available => available = maxStandardMessageCount
      | .copy .. | .subtractRead .. => s.logger.pendingCount < maxStandardMessageCount
      | .subtractStore .. => False
  | _ => True

/-! ### The logger in the middle of a call -/

/-- The message has its number. -/
def numbered (l : StandardLogger) : StandardLogger :=
  l.setMessage l.cursor fun r => { r with messageNumber := l.messageCount }

/-- The message has its number, `message_count` is up, and `i` bytes of
the text are there. -/
def partlyWritten (l : StandardLogger) (message : List UInt8) (i : Nat) : StandardLogger :=
  { l with
    messages := Function.update l.messages l.cursor
      { messageNumber := l.messageCount
        text := fun j => if j.val < i then message.getD j.val 0
          else (l.messages l.cursor).text j }
    messageCount := (l.messageCount + 1) % 2 ^ 64 }

/-- All of the message is there. -/
def allWritten (l : StandardLogger) (message : List UInt8) : StandardLogger :=
  { l with
    messages := Function.update l.messages l.cursor (writtenRecord l message)
    messageCount := (l.messageCount + 1) % 2 ^ 64 }

/-- One message more is pending. -/
def onePending (n : Nat) : PendingCount :=
  ⟨min (n + 1) maxStandardMessageCount, Nat.min_le_right ..⟩

/-- So many messages fewer are pending. -/
def fewerPending (l : StandardLogger) (n : Nat) : StandardLogger :=
  l.setPending ⟨l.pendingCount - n, (Nat.sub_le ..).trans l.pending_le⟩

/-- What the steps so far stand for. A write takes effect with its read
of `cursor`, and a flush with its own, or with its read of
`pending_count` if it returns nothing. -/
inductive Linked : NestedLogState → LoggerRun → Prop where
  | idle (l : StandardLogger) (r : List StandardLogMessage) : Linked ⟨l, .idle, r⟩ ⟨l, r⟩
  | writeCursor (l : StandardLogger) (r : List StandardLogMessage) (message : List UInt8) :
      Linked ⟨l, .writeCursor message, r⟩ ⟨l, r⟩
  | writeCount (l : StandardLogger) (r : List StandardLogMessage) (message : List UInt8) :
      Linked ⟨l, .writeCount message l.cursor, r⟩ ⟨writeToStandardLog l message, r⟩
  | writeNumber (l : StandardLogger) (r : List StandardLogMessage) (message : List UInt8) :
      Linked ⟨l, .writeNumber message l.cursor l.messageCount, r⟩
        ⟨writeToStandardLog l message, r⟩
  | incrementRead (l : StandardLogger) (r : List StandardLogMessage) (message : List UInt8) :
      Linked ⟨numbered l, .incrementRead message l.cursor, r⟩ ⟨writeToStandardLog l message, r⟩
  | incrementStore (l : StandardLogger) (r : List StandardLogMessage) (message : List UInt8) :
      Linked ⟨numbered l, .incrementStore message l.cursor l.messageCount, r⟩
        ⟨writeToStandardLog l message, r⟩
  | writeText (l : StandardLogger) (r : List StandardLogMessage) (message : List UInt8) (i : Nat)
      (hi : i ≤ min message.length (maxStandardMessageLength - 1)) :
      Linked ⟨partlyWritten l message i, .writeText message l.cursor i, r⟩
        ⟨writeToStandardLog l message, r⟩
  | storeCursor (l : StandardLogger) (r : List StandardLogMessage) (message : List UInt8) :
      Linked ⟨allWritten l message, .storeCursor l.cursor, r⟩ ⟨writeToStandardLog l message, r⟩
  | writePending (l : StandardLogger) (r : List StandardLogMessage) :
      Linked ⟨l, .writePending, r⟩ ⟨l.setPending (onePending l.pendingCount), r⟩
  | storePending (l : StandardLogger) (r : List StandardLogMessage) (n : PendingCount) :
      Linked ⟨l, .storePending n, r⟩ ⟨l.setPending (onePending n), r⟩
  | flushAvailable (l : StandardLogger) (r : List StandardLogMessage) (pages : Nat → GuestPages)
      (outMessages maxMessages : Nat) (hnull : outMessages ≠ 0) :
      Linked ⟨l, .flushAvailable pages outMessages maxMessages, r⟩ ⟨l, r⟩
  | flushCursor (l : StandardLogger) (r : List StandardLogMessage) (pages : Nat → GuestPages)
      (outMessages maxMessages : Nat) (hpos : 0 < flushCount l outMessages maxMessages) :
      Linked ⟨l, .flushCursor pages outMessages maxMessages l.pendingCount, r⟩ ⟨l, r⟩
  | copy (l : StandardLogger) (r : List StandardLogMessage) (n : Nat) (chunks : List Chunk)
      (i : Nat) (out : CallerBytes) (hn : n ≤ l.pendingCount)
      (hslots : ∀ chunk ∈ chunks, ∀ j < chunk.written, ∃ k < n,
        chunk.slot + j / messageSize = (l.startIndex + k) % maxStandardMessageCount) :
      Linked ⟨l, .copy n chunks i out, r⟩
        ⟨fewerPending l n, r ++ returnedRecords n (copyAll l.messages chunks i out).messages⟩
  | subtractRead (l : StandardLogger) (r : List StandardLogMessage) (n : Nat) (out : CallerBytes)
      (hn : n ≤ l.pendingCount) :
      Linked ⟨l, .subtractRead n out, r⟩ ⟨fewerPending l n, r ++ returnedRecords n out.messages⟩
  | subtractStore (l : StandardLogger) (r : List StandardLogMessage) (n : Nat)
      (out : CallerBytes) :
      Linked ⟨l, .subtractStore n ⟨l.pendingCount, l.pending_le⟩ out, r⟩
        ⟨fewerPending l n, r ++ returnedRecords n out.messages⟩

/-- The call that has begun and not taken effect. -/
def LogPc.pending : LogPc → List LoggerCall
  | .writeCursor message => [.write message]
  | .flushAvailable pages outMessages maxMessages => [.flush pages outMessages maxMessages]
  | .flushCursor pages outMessages maxMessages _ => [.flush pages outMessages maxMessages]
  | _ => []

/-! ### The steps of a call -/

/-- The number of a message is stored before the count goes up. -/
theorem numbered_counted (l : StandardLogger) (message : List UInt8) :
    { numbered l with messageCount := (l.messageCount + 1) % 2 ^ 64 } =
      partlyWritten l message 0 := by
  have htext : (fun j : Fin maxStandardMessageLength => if j.val < 0 then message.getD j.val 0
      else (l.messages l.cursor).text j) = (l.messages l.cursor).text := by
    funext j
    exact if_neg (Nat.not_lt_zero _)
  rw [partlyWritten, htext]
  rfl

/-- One more character of the message is stored. -/
theorem partlyWritten_succ (l : StandardLogger) (message : List UInt8) {i : Nat}
    (hi : i < maxStandardMessageLength) :
    (partlyWritten l message i).setMessage l.cursor (fun r => r.setText i (message.getD i 0)) =
      partlyWritten l message (i + 1) := by
  have htext : Function.update
      (fun j : Fin maxStandardMessageLength => if j.val < i then message.getD j.val 0
        else (l.messages l.cursor).text j) (textIndex i) (message.getD i 0) =
      fun j => if j.val < i + 1 then message.getD j.val 0 else (l.messages l.cursor).text j := by
    -- One byte is stored at a time. Below `i` the text is the new one.
    funext j
    by_cases hj : j = textIndex i
    · have hval : j.val = i := by
        rw [hj]
        exact Nat.mod_eq_of_lt hi
      rw [hj, Function.update_self, ← hj, if_pos (by omega), hval]
    · have hval : j.val ≠ i := by
        rintro rfl
        exact hj (Fin.ext (Nat.mod_eq_of_lt hi).symm)
      have hiff : j.val < i ↔ j.val < i + 1 := by omega
      rw [Function.update_of_ne hj]
      simp only [hiff]
  unfold partlyWritten StandardLogger.setMessage StandardLogMessage.setText
  simp only [Function.update_self, Function.update_idem, htext]

/-- The NUL completes the message. -/
theorem partlyWritten_nul (l : StandardLogger) (message : List UInt8) :
    (partlyWritten l message (min message.length (maxStandardMessageLength - 1))).setMessage
        l.cursor (fun r => r.setText (min message.length (maxStandardMessageLength - 1)) 0) =
      allWritten l message := by
  have hlength : min message.length (maxStandardMessageLength - 1) < maxStandardMessageLength := by
    simp only [maxStandardMessageLength]
    omega
  generalize hsize : min message.length (maxStandardMessageLength - 1) = size at hlength
  have htext : Function.update
      (fun j : Fin maxStandardMessageLength => if j.val < size then message.getD j.val 0
        else (l.messages l.cursor).text j) (textIndex size) 0 =
      writeText message (l.messages l.cursor).text := by
    funext j
    simp only [writeText, hsize]
    -- The NUL goes behind the copied text and the rest keeps the old bytes.
    by_cases hj : j = textIndex size
    · have hval : j.val = size := by
        rw [hj]
        exact Nat.mod_eq_of_lt hlength
      rw [hj, Function.update_self, ← hj, if_neg (by omega), if_pos hval]
    · have hval : j.val ≠ size := by
        rintro rfl
        exact hj (Fin.ext (Nat.mod_eq_of_lt hlength).symm)
      rw [Function.update_of_ne hj, if_neg hval]
  unfold partlyWritten StandardLogger.setMessage StandardLogMessage.setText allWritten
  simp only [Function.update_self, Function.update_idem, htext, writtenRecord]

/-! ### Host NMIs -/

/-- A write and a flush of fewer messages than the ring has room for may
change places. -/
theorem write_fewerPending {l : StandardLogger} {n : Nat} (hn : n ≤ l.pendingCount)
    (hroom : l.pendingCount < maxStandardMessageCount) (message : List UInt8) :
    writeToStandardLog (fewerPending l n) message =
      fewerPending (writeToStandardLog l message) n := by
  have hcount : min (l.pendingCount - n + 1) maxStandardMessageCount =
      min (l.pendingCount + 1) maxStandardMessageCount - n := by omega
  unfold writeToStandardLog fewerPending StandardLogger.setPending
  simp only [hcount]

/-- A write into a ring with room stays clear of the slots of pending
messages. -/
theorem messages_write_of_room {l : StandardLogger} {k : Nat} (hk : k < l.pendingCount)
    (hroom : l.pendingCount < maxStandardMessageCount) (message : List UInt8) :
    (writeToStandardLog l message).messages ((l.startIndex + k) % maxStandardMessageCount) =
      l.messages ((l.startIndex + k) % maxStandardMessageCount) := by
  refine Function.update_of_ne (fun heq => ?_) ..
  rw [← cursor_eq l] at heq
  exact Nat.ne_of_lt hk (Ring.add_mod_inj (hk.trans hroom) hroom heq)

/-- A host NMI that is allowed is a write of its own. -/
theorem linked_nmi {s : NestedLogState} {a : LoggerRun} (h : Linked s a) (message : List UInt8)
    (hok : NmiAllowed s (.nmi message)) :
    Linked { s with logger := writeToStandardLog s.logger message }
      ⟨writeToStandardLog a.logger message, a.returned⟩ := by
  cases h with
  | idle l r => exact .idle _ r
  | writeCursor l r m => exact .writeCursor _ r m
  | writeCount l r m => cases hok
  | writeNumber l r m => cases hok
  | incrementRead l r m => cases hok
  | incrementStore l r m => cases hok
  | writeText l r m i hi => cases hok
  | storeCursor l r m => cases hok
  | writePending l r => exact .writePending _ r
  | storePending l r n =>
    have hfull : maxStandardMessageCount ≤ n.1 + 1 := hok
    have hstays : onePending (onePending n).1 = onePending n := by
      apply Subtype.ext
      simp only [onePending]
      omega
    show Linked _ ⟨(writeToStandardLog l message).setPending (onePending (onePending n).1), r⟩
    rw [hstays]
    exact .storePending _ r n
  | flushAvailable l r pages outMessages maxMessages hnull =>
    exact .flushAvailable _ r pages outMessages maxMessages hnull
  | flushCursor l r pages outMessages maxMessages hpos =>
    have hfull : l.pendingCount = maxStandardMessageCount := hok
    have hcount : (writeToStandardLog l message).pendingCount = l.pendingCount :=
      (startIndex_write_of_full l message hfull).2.trans hfull.symm
    have hpos' : 0 < flushCount (writeToStandardLog l message) outMessages maxMessages := by
      rwa [flushCount, hcount]
    show Linked ⟨_, .flushCursor pages outMessages maxMessages l.pendingCount, r⟩ _
    rw [← hcount]
    exact .flushCursor _ r pages outMessages maxMessages hpos'
  | copy l r n chunks i out hn hslots =>
    have hroom : l.pendingCount < maxStandardMessageCount := hok
    obtain ⟨hstart, hcount⟩ := startIndex_write_of_lt l message hroom
    -- The slots still to be copied are as they were.
    have hcopy : copyAll (writeToStandardLog l message).messages chunks i out =
        copyAll l.messages chunks i out := by
      refine copyAll_congr (fun chunk hchunk j hj => ?_) i out
      obtain ⟨k, hk, hslot⟩ := hslots chunk hchunk j hj
      rw [hslot]
      exact messages_write_of_room (Nat.lt_of_lt_of_le hk hn) hroom message
    have hn' : n ≤ (writeToStandardLog l message).pendingCount := by omega
    show Linked _ ⟨writeToStandardLog (fewerPending l n) message, _⟩
    rw [write_fewerPending hn hroom, ← hcopy]
    refine .copy _ r n chunks i out hn' fun chunk hchunk j hj => ?_
    rw [hstart]
    exact hslots chunk hchunk j hj
  | subtractRead l r n out hn =>
    have hroom : l.pendingCount < maxStandardMessageCount := hok
    have hcount := (startIndex_write_of_lt l message hroom).2
    have hn' : n ≤ (writeToStandardLog l message).pendingCount := by omega
    show Linked _ ⟨writeToStandardLog (fewerPending l n) message, _⟩
    rw [write_fewerPending hn hroom]
    exact .subtractRead _ r n out hn'
  | subtractStore l r n out => cases hok

/-! ### Steps and runs -/

/-- A flush that takes something, as one call. -/
theorem flush_run {l : StandardLogger} (r : List StandardLogMessage) (pages : Nat → GuestPages)
    {outMessages maxMessages : Nat} (hfits : NumbersFit l)
    (hpos : 0 < flushCount l outMessages maxMessages) :
    loggerMachine.run ⟨l, r⟩ [.flush pages outMessages maxMessages] =
      some ⟨fewerPending l (min l.pendingCount maxMessages),
        r ++ returnedRecords (min l.pendingCount maxMessages)
          (copyAll l.messages (planOf pages l outMessages maxMessages) 0
            fun _ => none).messages⟩ := by
  have hcount : flushCount l outMessages maxMessages = min l.pendingCount maxMessages := by
    rw [flushCount] at hpos ⊢
    split
    · rename_i hnull
      rw [if_pos hnull] at hpos
      omega
    · rfl
  have hlogger : (flushStandardLogs pages l outMessages maxMessages).1 =
      fewerPending l (min l.pendingCount maxMessages) := by
    rw [flushStandardLogs_of_pos _ _ _ _ hpos]
    simp only [hcount]
    rfl
  have hrax := flushStandardLogs_count pages l outMessages maxMessages
  rw [hcount] at hrax
  rw [messages_planOf pages l hfits hpos, Machine.run_cons]
  show some (LoggerRun.mk _ _) = _
  rw [hlogger, hrax]

/-- A flush that takes nothing, as one call. -/
theorem flush_run_of_zero {l : StandardLogger} (r : List StandardLogMessage)
    (pages : Nat → GuestPages) {outMessages maxMessages : Nat}
    (hzero : flushCount l outMessages maxMessages = 0) :
    loggerMachine.run ⟨l, r⟩ [.flush pages outMessages maxMessages] = some ⟨l, r⟩ := by
  rw [Machine.run_cons]
  show some (LoggerRun.mk _ _) = _
  rw [flushStandardLogs_of_zero _ _ _ _ hzero]
  simp [returnedRecords]

/-- A step lets the call that has begun take effect, or changes nothing
that can be seen. -/
theorem linked_step {s s' : NestedLogState} {a : LoggerRun} (h : Linked s a)
    (hfits : NumbersFit a.logger) (hstep : s.step = some s') :
    ∃ calls a', loggerMachine.run a calls = some a' ∧ Linked s' a' ∧
      calls ++ s'.pc.pending = s.pc.pending := by
  -- One of the steps of a call is where the serial logger makes that call. The
  -- others leave it alone.
  cases h with
  | idle l r => cases hstep
  | writeCursor l r m =>
    obtain rfl := Option.some.inj hstep
    exact ⟨[.write m], _, rfl, .writeCount l r m, rfl⟩
  | writeCount l r m =>
    obtain rfl := Option.some.inj hstep
    exact ⟨[], _, rfl, .writeNumber l r m, rfl⟩
  | writeNumber l r m =>
    obtain rfl := Option.some.inj hstep
    exact ⟨[], _, rfl, .incrementRead l r m, rfl⟩
  | incrementRead l r m =>
    obtain rfl := Option.some.inj hstep
    exact ⟨[], _, rfl, .incrementStore l r m, rfl⟩
  | incrementStore l r m =>
    obtain rfl := Option.some.inj hstep
    refine ⟨[], _, rfl, ?_, rfl⟩
    -- The increment is a read and a store, and the record counts as numbered
    -- once both are done.
    show Linked ⟨{ numbered l with messageCount := (l.messageCount + 1) % 2 ^ 64 }, _, r⟩ _
    rw [numbered_counted l m]
    exact .writeText l r m 0 (Nat.zero_le _)
  | writeText l r m i hi =>
    simp only [NestedLogState.step] at hstep
    split at hstep
    · rename_i hlt
      obtain rfl := Option.some.inj hstep
      have hin : i < maxStandardMessageLength := by
        simp only [maxStandardMessageLength] at *
        omega
      refine ⟨[], _, rfl, ?_, rfl⟩
      rw [partlyWritten_succ l m hin]
      exact .writeText l r m (i + 1) hlt
    · obtain rfl := Option.some.inj hstep
      obtain rfl : i = min m.length (maxStandardMessageLength - 1) := by omega
      refine ⟨[], _, rfl, ?_, rfl⟩
      rw [partlyWritten_nul l m]
      exact .storeCursor l r m
  | storeCursor l r m =>
    obtain rfl := Option.some.inj hstep
    exact ⟨[], _, rfl, .writePending _ r, rfl⟩
  | writePending l r =>
    obtain rfl := Option.some.inj hstep
    exact ⟨[], _, rfl, .storePending l r _, rfl⟩
  | storePending l r n =>
    obtain rfl := Option.some.inj hstep
    exact ⟨[], _, rfl, .idle _ r, rfl⟩
  | flushAvailable l r pages outMessages maxMessages hnull =>
    -- With nothing pending the flush ends here and so takes effect here.
    have hcount : flushCount l outMessages maxMessages = min l.pendingCount maxMessages :=
      if_neg hnull
    simp only [NestedLogState.step] at hstep
    split at hstep
    · rename_i hzero
      obtain rfl := Option.some.inj hstep
      exact ⟨[.flush pages outMessages maxMessages], _,
        flush_run_of_zero r pages (hcount.trans hzero), .idle l r, rfl⟩
    · rename_i hpos
      obtain rfl := Option.some.inj hstep
      exact ⟨[], _, rfl, .flushCursor l r pages outMessages maxMessages (by omega), rfl⟩
  | flushCursor l r pages outMessages maxMessages hpos =>
    obtain rfl := Option.some.inj hstep
    exact ⟨[.flush pages outMessages maxMessages], _, flush_run r pages hfits hpos,
      .copy l r _ _ 0 _ (Nat.min_le_left ..) (slots_planOf pages l), rfl⟩
  | copy l r n chunks i out hn hslots =>
    cases chunks with
    | nil =>
      obtain rfl := Option.some.inj hstep
      exact ⟨[], _, rfl, .subtractRead l r n out hn, rfl⟩
    | cons chunk chunks =>
      -- The copy goes byte by byte, and the record is complete with the last.
      simp only [NestedLogState.step] at hstep
      split at hstep
      · rename_i hlt
        obtain rfl := Option.some.inj hstep
        refine ⟨[], _, rfl, ?_, rfl⟩
        rw [copyAll, ← storeChunk_step l.messages chunk hlt, ← copyAll]
        exact .copy l r n (chunk :: chunks) (i + 1) _ hn hslots
      · rename_i hdone
        obtain rfl := Option.some.inj hstep
        refine ⟨[], _, rfl, ?_, rfl⟩
        rw [copyAll, storeChunk_done l.messages chunk hdone]
        exact .copy l r n chunks 0 out hn fun c hc => hslots c (List.mem_cons_of_mem _ hc)
  | subtractRead l r n out hn =>
    obtain rfl := Option.some.inj hstep
    exact ⟨[], _, rfl, .subtractStore l r n out, rfl⟩
  | subtractStore l r n out =>
    obtain rfl := Option.some.inj hstep
    exact ⟨[], _, rfl, .idle _ _, rfl⟩

/-- A call begins. A flush without an array is over at once. -/
theorem linked_begin {s s' : NestedLogState} {a : LoggerRun} (h : Linked s a) (c : LoggerCall)
    (hbegin : s.begin c = some s') :
    ∃ calls a', loggerMachine.run a calls = some a' ∧ Linked s' a' ∧
      calls ++ s'.pc.pending = s.pc.pending ++ [c] := by
  -- A call begins only when none is in progress.
  have hidle : s.pc = .idle := by
    cases c with
    | write message =>
      simp only [NestedLogState.begin] at hbegin
      split at hbegin
      · assumption
      · cases hbegin
    | flush pages outMessages maxMessages =>
      simp only [NestedLogState.begin] at hbegin
      split at hbegin
      · assumption
      · cases hbegin
  cases h with
  | idle l r =>
    cases c with
    | write message =>
      obtain rfl := Option.some.inj hbegin
      exact ⟨[], _, rfl, .writeCursor l r message, rfl⟩
    | flush pages outMessages maxMessages =>
      simp only [NestedLogState.begin] at hbegin
      split at hbegin
      · rename_i hnothing
        obtain rfl := Option.some.inj hbegin
        have hzero : flushCount l outMessages maxMessages = 0 := by
          unfold flushCount
          split
          · rfl
          · rcases hnothing with hnull | hmax
            · contradiction
            · rw [hmax, Nat.min_zero]
        exact ⟨[.flush pages outMessages maxMessages], _, flush_run_of_zero r pages hzero,
          .idle l r, rfl⟩
      · rename_i hsome
        obtain rfl := Option.some.inj hbegin
        exact ⟨[], _, rfl, .flushAvailable l r pages outMessages maxMessages
          (fun hnull => hsome (Or.inl hnull)), rfl⟩
  | _ => cases hidle

/-- The calls an event starts. -/
def LogEvent.starts : LogEvent → List LoggerCall
  | .call c => [c]
  | .step => []
  | .nmi message => [.write message]

/-- A call leaves numbers that fit. -/
theorem numbersFit_run {a a' : LoggerRun} {calls : List LoggerCall} (h : NumbersFit a.logger)
    (hrun : loggerMachine.run a calls = some a') : NumbersFit a'.logger := by
  refine loggerMachine.invariant_of_run (I := fun a => NumbersFit a.logger) ?_ h hrun
  intro b c b' hb hnext
  -- A write numbers one record with the count, which is below 2^64.
  cases c with
  | write message =>
    obtain rfl := Option.some.inj hnext
    refine ⟨fun slot => ?_, Nat.mod_lt _ (by decide)⟩
    show (Function.update b.logger.messages b.logger.cursor (writtenRecord b.logger message)
      slot).messageNumber < 2 ^ 64
    by_cases hslot : slot = b.logger.cursor
    · rw [hslot, Function.update_self]
      exact hb.2
    · rw [Function.update_of_ne hslot]
      exact hb.1 slot
  | flush pages outMessages maxMessages =>
    obtain rfl := Option.some.inj hnext
    rcases Nat.eq_zero_or_pos (flushCount b.logger outMessages maxMessages) with hzero | hpos
    · show NumbersFit (flushStandardLogs pages b.logger outMessages maxMessages).1
      rw [flushStandardLogs_of_zero _ _ _ _ hzero]
      exact hb
    · show NumbersFit (flushStandardLogs pages b.logger outMessages maxMessages).1
      rw [flushStandardLogs_of_pos _ _ _ _ hpos]
      exact hb

/-- The points at which the calls take effect. -/
def nestedCommits : CommitPoints nestedLogMachine loggerMachine where
  starts := LogEvent.starts
  pending s := s.pc.pending
  Linked s a := Linked s a ∧ NumbersFit a.logger
  ok := NmiAllowed
  -- A message from an NMI is a call that begins and takes effect in one event.
  commit := by
    rintro s e s' a ⟨h, hfits⟩ hok hnext
    cases e with
    | call c =>
      obtain ⟨calls, a', hrun, hlinked, hpending⟩ := linked_begin h c hnext
      exact ⟨calls, a', hrun, ⟨hlinked, numbersFit_run hfits hrun⟩, .of_eq hpending⟩
    | step =>
      obtain ⟨calls, a', hrun, hlinked, hpending⟩ := linked_step h hfits hnext
      refine ⟨calls, a', hrun, ⟨hlinked, numbersFit_run hfits hrun⟩, .of_eq ?_⟩
      rw [hpending]
      exact (List.append_nil _).symm
    | nmi message =>
      obtain rfl := Option.some.inj hnext
      have hrun : loggerMachine.run a [.write message] =
          some ⟨writeToStandardLog a.logger message, a.returned⟩ := rfl
      exact ⟨[.write message], _, hrun, ⟨linked_nmi h message hok, numbersFit_run hfits hrun⟩,
        List.perm_append_comm⟩

/-- Calls between whose memory steps host NMIs log, where all of them
are allowed: the logger and the returned messages are those of the calls
and the NMIs' messages one after the other in some order. If the copies
succeed there, each message has had a number and a slot of its own: what
is pending and what has been returned are the items of a queue of 512
places with one number for each message, nothing is returned twice, and
what is missing was overwritten by newer messages in a full ring. -/
theorem nestedLog_serial (events : List LogEvent) (s : NestedLogState)
    (hrun : nestedLogMachine.run .initial events = some s)
    (hallowed : nestedLogMachine.Along NmiAllowed .initial events) (hidle : s.pc = .idle) :
    ∃ calls, calls.Perm (events.flatMap LogEvent.starts) ∧
      loggerMachine.run .initial calls = some ⟨s.logger, s.returned⟩ ∧
      (loggerMachine.Along CopiesSucceed .initial calls →
        ∃ q, messageQueue.run .empty (calls.map LoggerCall.op) = some q ∧
          DropQueue.Ordered maxStandardMessageCount q ∧
          List.Forall₂ Carries (pendingMessages s.logger) q.items ∧
          List.Forall₂ Carries s.returned q.out ∧
          ∀ k < q.pushed, k ∉ DropQueue.numbers q.out → k ∉ DropQueue.numbers q.items →
            DropQueue.Overwritten maxStandardMessageCount .empty (calls.map LoggerCall.op) k) := by
  -- The zeroed logger numbers no record.
  have hfits : NumbersFit StandardLogger.zeroed := ⟨fun _ => Nat.two_pow_pos 64, Nat.two_pow_pos 64⟩
  obtain ⟨calls, a, hcalls, ⟨hlinked, -⟩, hperm⟩ :=
    nestedCommits.exists_serial ⟨.idle .zeroed [], hfits⟩ hallowed hrun
  have hdone : calls.Perm (events.flatMap LogEvent.starts) := by
    have hnone : nestedCommits.pending s = [] := by
      show s.pc.pending = []
      rw [hidle]
      rfl
    rw [hnone, List.append_nil] at hperm
    exact hperm
  -- When no call is in progress the two loggers are the same one.
  have hend : loggerMachine.run .initial calls = some ⟨s.logger, s.returned⟩ := by
    cases hlinked with
    | idle l r => exact hcalls
    | _ => cases hidle
  refine ⟨calls, hdone, hend, fun hcopies => ?_⟩
  have hcap : 0 < maxStandardMessageCount := by decide
  obtain ⟨q, hqueue, h⟩ := refines_run refines_initial hcopies hend
  refine ⟨q, hqueue, DropQueue.ordered_run hcap hqueue, h.pending, h.returned, ?_⟩
  intro k hk hout hitems
  exact DropQueue.overwritten_of_missing hcap (DropQueue.ordered_empty _) hqueue (Nat.zero_le k)
    hk hout hitems

/-- A write with NMIs before its first step and before its read of
`pending_count`. -/
def harmlessNmis : List LogEvent :=
  [.call (.write [104]), .nmi [105], .step, .step, .step, .step, .step, .step, .step, .step,
    .nmi [106], .step, .step]

/-- The three messages are logged one after the other. -/
theorem nestedLog_serial_harmless : ∃ s, nestedLogMachine.run .initial harmlessNmis = some s ∧
    ∃ calls, calls.Perm [.write [104], .write [105], .write [106]] ∧
      loggerMachine.run .initial calls = some ⟨s.logger, s.returned⟩ := by
  refine ⟨_, rfl, ?_⟩
  obtain ⟨calls, hperm, hrun, -⟩ := nestedLog_serial harmlessNmis _ rfl
    (Machine.along_cons rfl trivial <| Machine.along_cons rfl trivial <|
      Machine.along_cons rfl trivial <| Machine.along_cons rfl trivial <|
      Machine.along_cons rfl trivial <| Machine.along_cons rfl trivial <|
      Machine.along_cons rfl trivial <| Machine.along_cons rfl trivial <|
      Machine.along_cons rfl trivial <| Machine.along_cons rfl trivial <|
      Machine.along_cons rfl trivial <| Machine.along_cons rfl trivial <|
      Machine.along_cons rfl trivial trivial) rfl
  exact ⟨calls, hperm, hrun⟩

/-- A write with an NMI right after its read of `cursor`. -/
def nmiAfterCursor : List LogEvent :=
  [.call (.write [104]), .step, .nmi [105], .step, .step, .step, .step, .step, .step, .step,
    .step, .step]

/-- Both messages go to slot 0, and two are pending. No order of the two
calls comes to that. -/
theorem nestedLog_shared_slot : ∃ s, nestedLogMachine.run .initial nmiAfterCursor = some s ∧
    s.pc = .idle ∧ s.logger.cursor = 1 ∧ s.logger.pendingCount = 2 ∧
    ¬ ∃ calls, calls.Perm (nmiAfterCursor.flatMap LogEvent.starts) ∧
      loggerMachine.run .initial calls = some ⟨s.logger, s.returned⟩ := by
  refine ⟨_, rfl, rfl, rfl, rfl, ?_⟩
  rintro ⟨calls, hperm, hrun⟩
  have hwrites : ∀ c ∈ calls, c = .write [104] ∨ c = .write [105] := by
    intro c hc
    have hmem := hperm.mem_iff.mp hc
    simpa [nmiAfterCursor, LogEvent.starts] using hmem
  match calls, hperm.length_eq with
  | [c, c'], _ =>
    have hcursor : (loggerMachine.run .initial [c, c']).map (fun a => a.logger.cursor) = some 2 := by
      rcases hwrites c (by simp) with rfl | rfl <;> rcases hwrites c' (by simp) with rfl | rfl <;> rfl
    rw [hrun] at hcursor
    cases Option.some.inj hcursor

end Revhv.Logging
