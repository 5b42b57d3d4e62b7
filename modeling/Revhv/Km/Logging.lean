import Revhv.Km.Introspection
import Revhv.Lib.Machine
import Revhv.Lib.Ring
import Mathlib.Data.Fintype.Pi

/-!
# `Revhv.Km.Logging`: the standard logger

`revhv-km/logging.cpp`: the circular store of formatted messages.
`StandardLogger` carries the range of its two counters, so every logger
of the model is one the code can hold. `writeToStandardLog` appends and
`flushStandardLogs` hands the oldest pending messages out, in at most
two contiguous chunks.

What a flush stores in the caller's array is `CallerArray`: slot `i`
holds the record that this call has stored there in full.
-/

set_option autoImplicit false

namespace Revhv

open Revhv.Introspection

/-- The caller's array during a flush: the record that this call has
stored in full in each slot, if any. -/
abbrev CallerArray (α : Type) := Nat → Option α

/-- `n` records of `batch` are stored in full from slot `first` on. -/
def CallerArray.store {α : Type} (out : CallerArray α) (first : Nat) (batch : List α) (n : Nat) :
    CallerArray α :=
  fun i => if first ≤ i ∧ i < first + n then batch[i - first]? else out i

/-- The records a flush returned, in order. -/
def returnedRecords {α : Type} (rax : Nat) (out : CallerArray α) : List α :=
  (List.range rax).filterMap out

/-- A batch leaves the records in front of it alone. -/
@[simp] theorem CallerArray.store_of_lt {α : Type} (out : CallerArray α) (first : Nat)
    (batch : List α) (n : Nat) {i : Nat} (h : i < first) : out.store first batch n i = out i :=
  if_neg (by omega)

/-- A batch leaves the records behind it alone. -/
@[simp] theorem CallerArray.store_of_ge {α : Type} (out : CallerArray α) (first : Nat)
    (batch : List α) (n : Nat) {i : Nat} (h : first + n ≤ i) :
    out.store first batch n i = out i :=
  if_neg (by omega)

namespace Logging

/-- Size of a message's text array. -/
def maxStandardMessageLength : Nat := 256

/-- Number of message slots. -/
def maxStandardMessageCount : Nat := 512

/-- A formatted log message. The text is NUL-terminated in its array. -/
structure StandardLogMessage where
  messageNumber : Nat
  text : Fin maxStandardMessageLength → UInt8
  deriving DecidableEq

/-- Size of a message in bytes: the number and the text array. -/
def messageSize : Nat := 8 + maxStandardMessageLength

/-- The circular logger. `messages` is read at positions below the slot
count. -/
structure StandardLogger where
  messages : Nat → StandardLogMessage
  cursor : Nat
  messageCount : Nat
  pendingCount : Nat
  cursor_lt : cursor < maxStandardMessageCount
  pending_le : pendingCount ≤ maxStandardMessageCount

/-- The logger in its zeroed memory. -/
def StandardLogger.zeroed : StandardLogger where
  messages _ := { messageNumber := 0, text := fun _ => 0 }
  cursor := 0
  messageCount := 0
  pendingCount := 0
  cursor_lt := by decide
  pending_le := by decide

/-- The text array after the copy of `message`, cut to leave room for
the NUL. -/
def writeText (message : List UInt8) (text : Fin maxStandardMessageLength → UInt8) :
    Fin maxStandardMessageLength → UInt8 :=
  let copySize := min message.length (maxStandardMessageLength - 1)
  fun i => if i.val < copySize then message.getD i.val 0
    else if i.val = copySize then 0 else text i

/-- `write_to_standard_log`. -/
def writeToStandardLog (logger : StandardLogger) (message : List UInt8) : StandardLogger where
  messages := Function.update logger.messages logger.cursor
    { messageNumber := logger.messageCount
      text := writeText message (logger.messages logger.cursor).text }
  cursor := (logger.cursor + 1) % maxStandardMessageCount
  messageCount := (logger.messageCount + 1) % 2 ^ 64
  pendingCount := min (logger.pendingCount + 1) maxStandardMessageCount
  cursor_lt := Nat.mod_lt _ (by decide)
  pending_le := Nat.min_le_right ..

/-- The slot of the oldest pending message. -/
def StandardLogger.startIndex (logger : StandardLogger) : Nat :=
  (logger.cursor + maxStandardMessageCount - logger.pendingCount) % maxStandardMessageCount

/-- How many messages a flush takes, and the sizes of the two chunks
they lie in. -/
def flushChunks (logger : StandardLogger) (maxMessages : Nat) : Nat × Nat × Nat :=
  let flushCount := min logger.pendingCount maxMessages
  let firstChunk := min flushCount (maxStandardMessageCount - logger.startIndex)
  (flushCount, firstChunk, flushCount - firstChunk)

/-- `flush_standard_logs` into guest memory at `outMessages`: the
logger, the count returned and what the caller's array received. `pages
k` are the guest pages during the write of the chunk that starts at slot
`k`. -/
def flushStandardLogs (pages : Nat → GuestPages) (logger : StandardLogger)
    (outMessages maxMessages : Nat) :
    StandardLogger × Nat × CallerArray StandardLogMessage :=
  if outMessages = 0 ∨ maxMessages = 0 then (logger, 0, fun _ => none)
  else
    let (flushCount, firstChunk, secondChunk) := flushChunks logger maxMessages
    if flushCount = 0 then (logger, 0, fun _ => none)
    else
      let written := writeGuestVirtual (pages 0) outMessages (firstChunk * messageSize)
      let out := CallerArray.store (fun _ => none) 0
        ((List.range firstChunk).map fun i => logger.messages (logger.startIndex + i))
        (written / messageSize)
      -- Neither result of `write_guest_virtual` is looked at.
      let out :=
        if 0 < secondChunk then
          let written := writeGuestVirtual (pages firstChunk)
            ((outMessages + firstChunk * messageSize) % 2 ^ 64) (secondChunk * messageSize)
          out.store firstChunk ((List.range secondChunk).map fun i => logger.messages i)
            (written / messageSize)
        else out
      ({ logger with
          pendingCount := logger.pendingCount - flushCount
          pending_le := Nat.le_trans (Nat.sub_le ..) logger.pending_le },
        flushCount, out)

/-! ### Calls one after the other -/

/-- A call that does not overlap with another one. -/
inductive LoggerCall where
  | write (message : List UInt8)
  | flush (pages : Nat → GuestPages) (outMessages maxMessages : Nat)

/-- The logger, and the records all flushes so far have returned. -/
structure LoggerRun where
  logger : StandardLogger
  returned : List StandardLogMessage

/-- The logger from call to call. -/
def loggerMachine : Lib.Machine LoggerRun LoggerCall where
  next s
    | .write message => some { s with logger := writeToStandardLog s.logger message }
    | .flush pages outMessages maxMessages =>
        let r := flushStandardLogs pages s.logger outMessages maxMessages
        some ⟨r.1, s.returned ++ returnedRecords r.2.1 r.2.2⟩

/-- The zeroed logger, before any call. -/
def LoggerRun.initial : LoggerRun := ⟨.zeroed, []⟩

end Logging

end Revhv
