import Revhv.Lib.Machine
import Mathlib.Logic.Function.Basic

/-!
# `Revhv.Km.Onload`: the onload target

The target of the auto-trace on driver load and its users:
`handle_set_onload_target` and `handle_clear_onload_target`
(`revhv-km/hypercall.cpp`), and the hook `hk_mm_load_system_image`
(`revhv-km/hooks.cpp`), as the steps they take on the shared state. The
lock covers the match and the disarming. The calls that enable the
auto-trace come after it, one core at a time.

`onloadMachine` interleaves any number of threads, each with any number
of calls. Ghost fields: `calls` numbers the set and clear calls in the
order in which they write `active`, `last` is the name the latest of
them has set, and `notes` is what has happened so far.
-/

set_option autoImplicit false

namespace Revhv.Onload

open Revhv.Lib

/-! ### Names -/

/-- `max_onload_name_length`. -/
def maxOnloadNameLength : Nat := 64

/-- The characters before the terminator. -/
def cString (bytes : List UInt8) : List UInt8 := bytes.takeWhile fun b => decide (b ≠ 0)

/-- The lower case of an ASCII letter. -/
def lowerAscii (c : UInt8) : UInt8 := if 0x41 ≤ c ∧ c ≤ 0x5a then c + 0x20 else c

/-- `names_match_nocase`, for two strings without their terminators. -/
def namesMatchNocase : List UInt8 → List UInt8 → Bool
  | ca :: as, cb :: bs => if lowerAscii ca ≠ lowerAscii cb then false else namesMatchNocase as bs
  -- At the end of one string the characters are equal if the other ends too.
  | as, bs => as.isEmpty && bs.isEmpty

/-- The part of a path behind the last backslash. -/
def baseName (path : List UInt8) : List UInt8 :=
  (path.reverse.takeWhile fun b => decide (b ≠ 0x5c)).reverse

/-- The name in a set request. The handler writes a terminator into its
last byte. -/
def requestName (driverName : List UInt8) : List UInt8 :=
  cString (driverName.take (maxOnloadNameLength - 1))

/-! ### Calls -/

/-- A call of the hook: whether the load succeeds, the name when it
converts to ANSI, the base address, and the size `get_image_size` reads
from the headers, 0 for a failure. -/
structure ImageLoad where
  loaded : Bool
  ansiName : Option (List UInt8)
  base : UInt64
  imageSize : Nat
  deriving DecidableEq

/-- The name the hook compares. Without one it returns early. -/
def ImageLoad.imageName (image : ImageLoad) : Option (List UInt8) :=
  if image.loaded then
    image.ansiName.bind fun name =>
      if 512 < name.length then none else some (cString (baseName name))
  else none

/-- A matched image that the hook can trace. -/
def ImageLoad.traceable (image : ImageLoad) : Bool :=
  decide (image.base ≠ 0) && decide (image.imageSize ≠ 0)

/-- Where a thread is. `k` is the number of its own call, or of the
target it has matched. -/
inductive OnloadPc where
  | idle
  /-- Before the lock. -/
  | setLock (name : List UInt8)
  | setName (name : List UInt8)
  | setActive (name : List UInt8)
  | setUnlock (k : Nat)
  | setReturn (k : Nat)
  | clearLock
  | clearActive
  | clearName (k : Nat)
  | clearUnlock (k : Nat)
  | clearReturn (k : Nat)
  | loadLock (image : ImageLoad) (name : List UInt8)
  | loadTest (image : ImageLoad) (name : List UInt8)
  | loadDisarm (image : ImageLoad) (k : Nat)
  /-- `trigger` is the matched target, `none` without a match. -/
  | loadUnlock (image : ImageLoad) (trigger : Option Nat)
  /-- Before the call that enables the auto-trace on `core`. -/
  | enable (image : ImageLoad) (k : Nat) (core : Nat)
  deriving DecidableEq

/-- What has happened. -/
inductive Note where
  /-- Set call `k` has armed its target. -/
  | armed (k : Nat) (name : List UInt8)
  | setReturned (k : Nat)
  | clearReturned (k : Nat)
  /-- A load has matched and disarmed the target of call `k`. -/
  | triggered (k : Nat)
  /-- That load has enabled the auto-trace on a core. -/
  | enabled (core : Nat) (k : Nat)
  deriving DecidableEq

/-- `onload_target`, the threads, and the ghost fields. -/
structure OnloadState where
  locked : Bool
  active : Bool
  name : List UInt8
  pc : Nat → OnloadPc
  calls : Nat
  last : Option (List UInt8)
  notes : List Note

/-- What a thread does next: begin a call, or take its next step. A set
call comes with the bytes `read_guest_virtual` has read, if it has.
`accepted` is the answer of `enable_auto_trace` and matters only where
it is called. -/
inductive OnloadEvent where
  | set (driverName : Option (List UInt8))
  | clear
  | load (image : ImageLoad)
  | step (accepted : Bool)
  deriving DecidableEq

namespace OnloadState

/-- The state with thread `t` elsewhere. -/
def goto (s : OnloadState) (t : Nat) (pc : OnloadPc) : OnloadState :=
  { s with pc := Function.update s.pc t pc }

/-- The state with one more thing that has happened. -/
def note (s : OnloadState) (n : Note) : OnloadState := { s with notes := s.notes ++ [n] }

/-- `lock` of thread `t`: it takes the lock, or goes on spinning. -/
def acquire (s : OnloadState) (t : Nat) (pc : OnloadPc) : OnloadState :=
  if s.locked then s else { s.goto t pc with locked := true }

/-- `unlock` of thread `t`. -/
def release (s : OnloadState) (t : Nat) (pc : OnloadPc) : OnloadState :=
  { s.goto t pc with locked := false }

/-- The next step of thread `t`, where `n` is the number of cores. -/
def step (n : Nat) (s : OnloadState) (t : Nat) (accepted : Bool) : Option OnloadState :=
  match s.pc t with
  | .idle => none
  | .setLock name => some (s.acquire t (.setName name))
  | .setName name => some { s.goto t (.setActive name) with name }
  | .setActive name =>
      some ({ s.goto t (.setUnlock (s.calls + 1)) with
        active := true
        calls := s.calls + 1
        last := some name }.note (.armed (s.calls + 1) name))
  | .setUnlock k => some (s.release t (.setReturn k))
  | .setReturn k => some ((s.goto t .idle).note (.setReturned k))
  | .clearLock => some (s.acquire t .clearActive)
  | .clearActive =>
      some { s.goto t (.clearName (s.calls + 1)) with
        active := false
        calls := s.calls + 1
        last := none }
  | .clearName k => some { s.goto t (.clearUnlock k) with name := [] }
  | .clearUnlock k => some (s.release t (.clearReturn k))
  | .clearReturn k => some ((s.goto t .idle).note (.clearReturned k))
  | .loadLock image name => some (s.acquire t (.loadTest image name))
  | .loadTest image name =>
      if s.active && namesMatchNocase name s.name then
        some (s.goto t (.loadDisarm image s.calls))
      else some (s.goto t (.loadUnlock image none))
  | .loadDisarm image k =>
      some ({ s.goto t (.loadUnlock image (some k)) with active := false }.note (.triggered k))
  | .loadUnlock _ none => some (s.release t .idle)
  | .loadUnlock image (some k) =>
      -- Without a base address or a size nothing is enabled.
      some (s.release t (if image.traceable then .enable image k 0 else .idle))
  | .enable image k core =>
      if core < n then
        let s := s.goto t (.enable image k (core + 1))
        some (if accepted then s.note (.enabled core k) else s)
      else some (s.goto t .idle)

end OnloadState

/-- Where a call begins. A set whose request cannot be read returns at
once, and so does a load without a name to compare. -/
def OnloadEvent.entry : OnloadEvent → OnloadPc
  | .set (some driverName) => .setLock (requestName driverName)
  | .set none => .idle
  | .clear => .clearLock
  | .load image =>
      match image.imageName with
      | some name => .loadLock image name
      | none => .idle
  | .step _ => .idle

/-- Any number of threads on `n` cores. -/
def onloadMachine (n : Nat) : Machine OnloadState (Nat × OnloadEvent) where
  next s ev :=
    match ev.2 with
    | .step accepted => s.step n ev.1 accepted
    | call => if s.pc ev.1 = .idle then some (s.goto ev.1 call.entry) else none

/-- No target is armed, and no call has begun. -/
def OnloadState.initial : OnloadState where
  locked := false
  active := false
  name := []
  pc _ := .idle
  calls := 0
  last := none
  notes := []

end Revhv.Onload
