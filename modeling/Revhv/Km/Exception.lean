import Mathlib.Data.Option.Basic

/-!
# `Revhv.Km.Exception`: exceptions of the host

`handle_exception` (`revhv-km/exception.cpp`) behind the service routines
of `revhv-km/isr.asm`, and the wrappers of
`revhv-km/exception_wrappers.asm` that attempt one instruction.

A wrapper leaves the address of the instruction in R14 and that of its
end in R15. A fault there is expected. It is recorded in
`exception_info` and the wrapper returns. Every other fault is
unrecoverable, written `none`. NMIs are not faults and have a module of
their own.
-/

set_option autoImplicit false

namespace Revhv.Exception

/-- The vectors `handle_exception` tells apart, but for the NMI. -/
inductive HostException where
  | divideError
  | debug
  | breakpoint
  | overflow
  | boundRangeExceeded
  | invalidOpcode
  | deviceNotAvailable
  | doubleFault
  | invalidTss
  | segmentNotPresent
  | stackSegmentFault
  | generalProtection
  | pageFault
  | x87FloatingPointError
  | alignmentCheck
  | machineCheck
  | simdFloatingPointError
  | virtualizationException
  | controlProtection
  deriving DecidableEq

/-- The number of a vector. -/
def HostException.vector : HostException → BitVec 64
  | .divideError => 0
  | .debug => 1
  | .breakpoint => 3
  | .overflow => 4
  | .boundRangeExceeded => 5
  | .invalidOpcode => 6
  | .deviceNotAvailable => 7
  | .doubleFault => 8
  | .invalidTss => 10
  | .segmentNotPresent => 11
  | .stackSegmentFault => 12
  | .generalProtection => 13
  | .pageFault => 14
  | .x87FloatingPointError => 16
  | .alignmentCheck => 17
  | .machineCheck => 18
  | .simdFloatingPointError => 19
  | .virtualizationException => 20
  | .controlProtection => 21

/-- `vector_has_error_code`. The service routines agree with it:
`ISR_NOERR` pushes a dummy. -/
def vectorHasErrorCode (vector : BitVec 16) : Bool :=
  vector == 8 || vector == 10 || vector == 11 || vector == 12 || vector == 13 || vector == 14 ||
    vector == 17 || vector == 21

/-- `exception_info`. -/
structure ExceptionInfo where
  exceptionVector : BitVec 64
  errorCode : BitVec 64
  additionalInfo1 : BitVec 64
  exceptionOccurred : Bool
  deriving DecidableEq

/-- `clear_exception_info`. -/
def ExceptionInfo.clear : ExceptionInfo := ⟨0, 0, 0, false⟩

/-- The fields of `trap_frame` that `handle_exception` uses. -/
structure TrapFrame where
  r14 : BitVec 64
  r15 : BitVec 64
  vector : HostException
  errorCode : BitVec 64
  rip : BitVec 64

/-- The common body of `handle_gp` and `handle_ud`. -/
def recordFault (trapFrame : TrapFrame) (info : ExceptionInfo) (expectedException : Bool) :
    Option (TrapFrame × ExceptionInfo) :=
  if expectedException then
    some ({ trapFrame with rip := trapFrame.r15 },
      { info with
        exceptionOccurred := true
        exceptionVector := trapFrame.vector.vector
        errorCode := trapFrame.errorCode })
  else none

/-- `handle_gp`. -/
def handleGp (trapFrame : TrapFrame) (info : ExceptionInfo) (expectedException : Bool) :
    Option (TrapFrame × ExceptionInfo) := recordFault trapFrame info expectedException

/-- `handle_ud`. -/
def handleUd (trapFrame : TrapFrame) (info : ExceptionInfo) (expectedException : Bool) :
    Option (TrapFrame × ExceptionInfo) := recordFault trapFrame info expectedException

/-- `handle_exception`. -/
def handleException (trapFrame : TrapFrame) (info : ExceptionInfo) :
    Option (TrapFrame × ExceptionInfo) :=
  let expectedException := trapFrame.r14 == trapFrame.rip
  match trapFrame.vector with
  | .generalProtection => handleGp trapFrame info expectedException
  | .invalidOpcode => handleUd trapFrame info expectedException
  | _ => none

/-- How the host's own attempt at an instruction ends. -/
inductive HostAttempt where
  | success
  | fault (exception : HostException) (errorCode : BitVec 64)
  deriving DecidableEq

/-- The labels `exception_instruction` and `exception_handler` of a
wrapper. -/
structure Wrapper where
  exceptionInstruction : BitVec 64
  exceptionHandler : BitVec 64

/-- What the service routine pushes when the instruction of a wrapper
faults. -/
def Wrapper.trapFrame (w : Wrapper) (exception : HostException) (errorCode : BitVec 64) :
    TrapFrame where
  r14 := w.exceptionInstruction
  r15 := w.exceptionHandler
  vector := exception
  errorCode := if vectorHasErrorCode (exception.vector.setWidth 16) then errorCode else 0
  rip := w.exceptionInstruction

/-- A wrapper, by what it does to `exception_info`. -/
def Wrapper.run (w : Wrapper) (attempt : HostAttempt) (info : ExceptionInfo) :
    Option ExceptionInfo :=
  match attempt with
  | .success => some info
  | .fault exception errorCode =>
      (handleException (w.trapFrame exception errorCode) info).map Prod.snd

/-- The page-wise loops of `read_guest_virtual` and
`write_guest_virtual` as far as they concern `exception_info`: a fault
of a copy is cleared, and it ends the loop. -/
def copyGuestVirtual (w : Wrapper) (info : ExceptionInfo) : List HostAttempt → Option ExceptionInfo
  | [] => some info
  | attempt :: attempts => do
      let info ← w.run attempt info
      if info.exceptionOccurred then some .clear else copyGuestVirtual w info attempts

end Revhv.Exception
