import Mathlib.Data.Fin.Basic
import Mathlib.Logic.Function.Basic
import Mathlib.Data.Fintype.Pi
import Mathlib.Tactic.FinCases

/-!
# `Revhv.Common.TraceLog`: trace entries, capture configs and the ring

The shared header `common/trace_log.hpp`: the field selectors of a
capture config, the 64-byte trace entry, and the per-core ring buffer.

An entry has ten scalar fields. `Entry.storeField` is the store of one
of them and `Entry.storeFields k` the first `k` stores in the order
`emit` makes them, so an entry that is half written, or half read, is a
value of the model. `Entry.storeFields_all` is what makes a complete
copy equal to its source.
-/

set_option autoImplicit false

namespace Revhv.Trace

/-- Number of data fields per trace entry. -/
def maxDataFields : Nat := 6

/-- Number of slots in the per-core ring. -/
def ringBufferEntryCount : Nat := 8192

/-- Mask for the index modulo of the ring. -/
def ringBufferIndexMask : Nat := ringBufferEntryCount - 1

/-- The most entries one flush hypercall returns. -/
def maxFlushEntries : Nat := 512

/-- Which guest value a data slot of an entry holds. The wire type is a
byte, so a value past the enumerators is possible: `other` stands for
it. -/
inductive EptTransitionDataField where
  | none
  | guestRip
  | guestRsp
  | guestRax
  | guestRbx
  | guestRcx
  | guestRdx
  | guestRsi
  | guestRdi
  | guestRbp
  | guestR8
  | guestR9
  | guestR10
  | guestR11
  | guestR12
  | guestR13
  | guestR14
  | guestR15
  | guestRetaddr
  | other (code : UInt8) (past : 18 < code)
  deriving DecidableEq

namespace EptTransitionDataField

/-- The enumerators, by their values. -/
def enumerators : List EptTransitionDataField :=
  [.none, .guestRip, .guestRsp, .guestRax, .guestRbx, .guestRcx, .guestRdx, .guestRsi, .guestRdi,
    .guestRbp, .guestR8, .guestR9, .guestR10, .guestR11, .guestR12, .guestR13, .guestR14,
    .guestR15, .guestRetaddr]

/-- The byte of a selector. -/
def code : EptTransitionDataField → UInt8
  | .none => 0
  | .guestRip => 1
  | .guestRsp => 2
  | .guestRax => 3
  | .guestRbx => 4
  | .guestRcx => 5
  | .guestRdx => 6
  | .guestRsi => 7
  | .guestRdi => 8
  | .guestRbp => 9
  | .guestR8 => 10
  | .guestR9 => 11
  | .guestR10 => 12
  | .guestR11 => 13
  | .guestR12 => 14
  | .guestR13 => 15
  | .guestR14 => 16
  | .guestR15 => 17
  | .guestRetaddr => 18
  | .other code _ => code

/-- The selector of a byte. -/
def ofCode (code : UInt8) : EptTransitionDataField :=
  if h : 18 < code then .other code h else enumerators.getD code.toNat .none

/-- A selector is determined by its byte. -/
theorem ofCode_code (field : EptTransitionDataField) : ofCode field.code = field := by
  cases field with
  | other code past => exact dif_pos past
  | _ => rfl

end EptTransitionDataField

/-- The per-slot field map of a capture. -/
structure EptTransitionCfg where
  dataMap : Fin 6 → EptTransitionDataField
  deriving DecidableEq

/-- The config in force when none was set: `rip` in slot 0 and `retaddr`
in slot 1. -/
def defaultGenericCfg : EptTransitionCfg where
  dataMap
    | 0 => .guestRip
    | 1 => .guestRetaddr
    | _ => .none

/-- The format ids of entries. -/
inductive FormatId where
  | invalid
  | eptTargetTransition
  | other (code : UInt16)
  deriving DecidableEq

/-- One binary trace entry, one cache line long. -/
structure Entry where
  formatId : FormatId
  coreId : UInt16
  pad0 : UInt32
  timestamp : UInt64
  data : Fin 6 → UInt64
  deriving DecidableEq

/-- Size of an entry in bytes (`static_assert` in the header). -/
def entrySize : Nat := 64

namespace Entry

/-- Number of scalar stores that fill an entry. -/
def fieldCount : Nat := 10

/-- Store field number `k` of `src` into `dst`, in the order `emit`
writes the fields: format id, core id, padding, timestamp, then the data
slots. -/
def storeField (src : Entry) (k : Nat) (dst : Entry) : Entry :=
  match k with
  | 0 => { dst with formatId := src.formatId }
  | 1 => { dst with coreId := src.coreId }
  | 2 => { dst with pad0 := src.pad0 }
  | 3 => { dst with timestamp := src.timestamp }
  | k + 4 => { dst with data := fun i => if i.val = k then src.data i else dst.data i }

/-- The first `k` stores of `src` into `dst`. -/
def storeFields (src : Entry) : Nat → Entry → Entry
  | 0, dst => dst
  | k + 1, dst => src.storeField k (src.storeFields k dst)

/-- Before the first store the slot is as it was. -/
@[simp] theorem storeFields_zero (src dst : Entry) : src.storeFields 0 dst = dst := rfl

/-- The stores come one after the other, so the last one is on top. -/
theorem storeFields_succ (src dst : Entry) (k : Nat) :
    src.storeFields (k + 1) dst = src.storeField k (src.storeFields k dst) := rfl

/-- All ten stores leave nothing of the old entry. -/
theorem storeFields_all (src dst : Entry) : src.storeFields fieldCount dst = src := by
  have hdata : (src.storeFields fieldCount dst).data = src.data := by
    funext i
    fin_cases i <;> rfl
  obtain ⟨f, c, p, t, d⟩ := src
  exact congrArg (Entry.mk f c p t) hdata

end Entry

/-- The per-core single-producer single-consumer ring. `entries` is read
at positions below `ringBufferEntryCount` as long as both indices stay
below it. -/
structure RingBuffer where
  writeHead : Nat
  readTail : Nat
  active : Bool
  entries : Nat → Entry

/-- The slot after `i`, as both sides of the ring compute it. -/
def nextIndex (i : Nat) : Nat := (i + 1) &&& ringBufferIndexMask

/-- The index mask is the remainder by the slot count. -/
theorem nextIndex_eq_mod (i : Nat) : nextIndex i = (i + 1) % ringBufferEntryCount :=
  Nat.and_two_pow_sub_one_eq_mod (i + 1) 13

/-- An index stays below the slot count. -/
theorem nextIndex_lt (i : Nat) : nextIndex i < ringBufferEntryCount := by
  rw [nextIndex_eq_mod]
  exact Nat.mod_lt _ (by decide)

end Revhv.Trace
