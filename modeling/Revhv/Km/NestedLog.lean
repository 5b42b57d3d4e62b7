import Revhv.Km.Logging
import Revhv.Km.GuestMemory

/-!
# `Revhv.Km.NestedLog`: the logger under host NMIs

`write_to_standard_log` and `flush_standard_logs`
(`revhv-km/logging.cpp`) as the memory steps they consist of. A host NMI
may come between any two of them, and its handler
(`revhv-km/exception.cpp`) logs a message from beginning to end: the
lock is reentrant, and NMIs stay blocked meanwhile.

One core works on its calls here. The other cores stay outside the lock.
-/

set_option autoImplicit false

namespace Revhv.Logging

open Revhv.Introspection

/-! ### Messages as bytes -/

/-- A position in the text array. -/
def textIndex (i : Nat) : Fin maxStandardMessageLength :=
  ⟨i % maxStandardMessageLength, Nat.mod_lt _ (by decide)⟩

/-- The bytes of a message in memory, by their offset. -/
def StandardLogMessage.byteAt (r : StandardLogMessage) (i : Nat) : UInt8 :=
  if i < 8 then UInt8.ofNat (r.messageNumber / 256 ^ i)
  else r.text (textIndex (i - 8))

/-- The message that bytes hold. -/
def StandardLogMessage.ofBytes (bytes : Nat → UInt8) : StandardLogMessage where
  messageNumber := GuestMemory.uint64At bytes 0
  text i := bytes (8 + i)

/-- The bytes that a flush has stored in the caller's array, by their
offset. -/
abbrev CallerBytes := Nat → Option UInt8

/-- The messages among them that are there in full. -/
def CallerBytes.messages (out : CallerBytes) : CallerArray StandardLogMessage := fun i =>
  if ∀ b < messageSize, (out (i * messageSize + b)).isSome then
    some (.ofBytes fun b => (out (i * messageSize + b)).getD 0)
  else none

/-! ### Where the core is -/

/-- Messages that a flush copies: from which slot of the array and of
the ring on, and how many bytes `write_guest_virtual` stores. -/
structure Chunk where
  first : Nat
  slot : Nat
  written : Nat

/-- A value of `pending_count`. -/
abbrev PendingCount := { n : Nat // n ≤ maxStandardMessageCount }

/-- The next memory step. What has been read before it are the
arguments. -/
inductive LogPc where
  | idle
  /-- The read of `cursor`. -/
  | writeCursor (message : List UInt8)
  /-- The read of `message_count` for the number of the message. -/
  | writeCount (message : List UInt8) (cursor : Nat)
  /-- The store of `dst.message_number`. -/
  | writeNumber (message : List UInt8) (cursor messageCount : Nat)
  /-- The read of `++logger.message_count`. -/
  | incrementRead (message : List UInt8) (cursor : Nat)
  /-- The store of `++logger.message_count`. -/
  | incrementStore (message : List UInt8) (cursor messageCount : Nat)
  /-- The store of byte `i` of the text. -/
  | writeText (message : List UInt8) (cursor i : Nat)
  /-- The store of `cursor`. -/
  | storeCursor (cursor : Nat)
  /-- The read of `pending_count`. -/
  | writePending
  /-- The store of `pending_count`. -/
  | storePending (pendingCount : PendingCount)
  /-- The read of `pending_count` at the begin of a flush. -/
  | flushAvailable (pages : Nat → GuestPages) (outMessages maxMessages : Nat)
  /-- The read of `cursor`. -/
  | flushCursor (pages : Nat → GuestPages) (outMessages maxMessages available : Nat)
  /-- The copy of byte `i` of the first one of the chunks. -/
  | copy (flushCount : Nat) (chunks : List Chunk) (i : Nat) (out : CallerBytes)
  /-- The read of `logger.pending_count -= flush_count`. -/
  | subtractRead (flushCount : Nat) (out : CallerBytes)
  /-- The store of `logger.pending_count -= flush_count`. -/
  | subtractStore (flushCount : Nat) (pendingCount : PendingCount) (out : CallerBytes)

/-- The logger, where the core is, and what its flushes have returned. -/
structure NestedLogState where
  logger : StandardLogger
  pc : LogPc
  returned : List StandardLogMessage

/-- The zeroed logger, before any call. -/
def NestedLogState.initial : NestedLogState := ⟨.zeroed, .idle, []⟩

/-! ### Steps -/

/-- The chunks of a flush, by the values of `pending_count` and `cursor`
it has read. -/
def copyPlan (pages : Nat → GuestPages) (outMessages flushCount available cursor : Nat) :
    List Chunk :=
  let startIndex := (cursor + maxStandardMessageCount - available) % maxStandardMessageCount
  let firstChunk := min flushCount (maxStandardMessageCount - startIndex)
  let secondChunk := flushCount - firstChunk
  ⟨0, startIndex, writeGuestVirtual (pages 0) outMessages (firstChunk * messageSize)⟩ ::
    if 0 < secondChunk then
      [⟨firstChunk, 0, writeGuestVirtual (pages firstChunk)
        ((outMessages + firstChunk * messageSize) % 2 ^ 64) (secondChunk * messageSize)⟩]
    else []

/-- A field of a message in the ring is stored. -/
def StandardLogger.setMessage (logger : StandardLogger) (slot : Nat)
    (f : StandardLogMessage → StandardLogMessage) : StandardLogger :=
  { logger with messages := Function.update logger.messages slot (f (logger.messages slot)) }

/-- `pending_count` is stored. -/
def StandardLogger.setPending (logger : StandardLogger) (n : PendingCount) : StandardLogger :=
  { logger with pendingCount := n, pending_le := n.2 }

/-- A byte of the text is stored. -/
def StandardLogMessage.setText (r : StandardLogMessage) (i : Nat) (b : UInt8) :
    StandardLogMessage :=
  { r with text := Function.update r.text (textIndex i) b }

/-- The next memory step of the core. -/
def NestedLogState.step (s : NestedLogState) : Option NestedLogState :=
  match s.pc with
  | .idle => none
  | .writeCursor message => some { s with pc := .writeCount message s.logger.cursor }
  | .writeCount message cursor =>
      some { s with pc := .writeNumber message cursor s.logger.messageCount }
  | .writeNumber message cursor messageCount =>
      some { s with
        logger := s.logger.setMessage cursor fun r => { r with messageNumber := messageCount }
        pc := .incrementRead message cursor }
  | .incrementRead message cursor =>
      some { s with pc := .incrementStore message cursor s.logger.messageCount }
  | .incrementStore message cursor messageCount =>
      some { s with
        logger := { s.logger with messageCount := (messageCount + 1) % 2 ^ 64 }
        pc := .writeText message cursor 0 }
  | .writeText message cursor i =>
      let copySize := min message.length (maxStandardMessageLength - 1)
      if i < copySize then
        some { s with
          logger := s.logger.setMessage cursor fun r => r.setText i (message.getD i 0)
          pc := .writeText message cursor (i + 1) }
      else
        -- `dst.text[copy_size] = '\0'`
        some { s with
          logger := s.logger.setMessage cursor fun r => r.setText copySize 0
          pc := .storeCursor cursor }
  | .storeCursor cursor =>
      some { s with
        logger := { s.logger with
          cursor := (cursor + 1) % maxStandardMessageCount
          cursor_lt := Nat.mod_lt _ (by decide) }
        pc := .writePending }
  | .writePending =>
      some { s with pc := .storePending ⟨s.logger.pendingCount, s.logger.pending_le⟩ }
  | .storePending pendingCount =>
      some { s with
        logger := s.logger.setPending
          ⟨min (pendingCount + 1) maxStandardMessageCount, Nat.min_le_right ..⟩
        pc := .idle }
  | .flushAvailable pages outMessages maxMessages =>
      if min s.logger.pendingCount maxMessages = 0 then some { s with pc := .idle }
      else
        some { s with pc := .flushCursor pages outMessages maxMessages s.logger.pendingCount }
  | .flushCursor pages outMessages maxMessages available =>
      let flushCount := min available maxMessages
      some { s with
        pc := .copy flushCount
          (copyPlan pages outMessages flushCount available s.logger.cursor) 0 fun _ => none }
  | .copy flushCount [] _ out => some { s with pc := .subtractRead flushCount out }
  | .copy flushCount (chunk :: chunks) i out =>
      if i < chunk.written then
        some { s with
          pc := .copy flushCount (chunk :: chunks) (i + 1)
            (Function.update out (chunk.first * messageSize + i)
              (some ((s.logger.messages (chunk.slot + i / messageSize)).byteAt
                (i % messageSize)))) }
      else some { s with pc := .copy flushCount chunks 0 out }
  | .subtractRead flushCount out =>
      some { s with
        pc := .subtractStore flushCount ⟨s.logger.pendingCount, s.logger.pending_le⟩ out }
  | .subtractStore flushCount pendingCount out =>
      -- `pending_count` has not gone down since the flush has read it.
      some { s with
        logger := s.logger.setPending
          ⟨pendingCount - flushCount, (Nat.sub_le ..).trans pendingCount.2⟩
        pc := .idle
        returned := s.returned ++ returnedRecords flushCount out.messages }

/-- What happens next on the core. -/
inductive LogEvent where
  | call (c : LoggerCall)
  | step
  /-- A host NMI, whose handler logs the message. -/
  | nmi (message : List UInt8)

/-- The core begins a call. -/
def NestedLogState.begin (s : NestedLogState) : LoggerCall → Option NestedLogState
  | .write message =>
      match s.pc with
      | .idle => some { s with pc := .writeCursor message }
      | _ => none
  | .flush pages outMessages maxMessages =>
      match s.pc with
      | .idle =>
          if outMessages = 0 ∨ maxMessages = 0 then some s
          else some { s with pc := .flushAvailable pages outMessages maxMessages }
      | _ => none

/-- The core and the host NMIs. -/
def nestedLogMachine : Lib.Machine NestedLogState LogEvent where
  next s
    | .call c => s.begin c
    | .step => s.step
    | .nmi message => some { s with logger := writeToStandardLog s.logger message }

end Revhv.Logging
