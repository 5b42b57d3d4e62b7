import Revhv.Km.Detour

/-!
# `Revhv.Proofs.DetourBounds`: the bounds of the copy loop

The offset into the page and the bytes overwritten stay below the last byte of
the page as long as the decoder keeps to the bytes it is offered.

* `decodeLoop_bounds`: one invariant for the loop, its calls and its end.
* `eptHook_bounds`: what follows for the hook that is built.
-/

set_option autoImplicit false

namespace Revhv.Detour

open Revhv.Lib Revhv.Lib.RecordLayout

/-- A decoder that succeeds returns a length between 1 and the smaller
of 15 and the length it is offered. -/
def Bounded (decode : Nat → Nat → Option Nat) : Prop :=
  ∀ overwritten offered length, decode overwritten offered = some length →
    1 ≤ length ∧ length ≤ min 15 offered

/-- A jump has fourteen bytes. -/
theorem length_writeAbsoluteJmp (target : UInt64) :
    (writeAbsoluteJmp target).length = absoluteJumpSize := by
  simp [writeAbsoluteJmp, length_leBytes, absoluteJumpSize]

/-- The subtraction for the length offered, as long as it does not wrap
around. -/
theorem offeredLength_eq {offset overwritten : Nat} (hle : offset + overwritten + 1 ≤ pageSize) :
    offeredLength offset overwritten = pageSize - (offset + overwritten) - 1 := by
  unfold offeredLength
  unfold pageSize at hle ⊢
  rw [Nat.mod_eq_of_lt (show offset + overwritten < 2 ^ 64 by omega)]
  omega

/-- The offset into a page is one. -/
theorem offsetIntoPage_lt (target : UInt64) : offsetIntoPage target + 1 ≤ pageSize := by
  unfold offsetIntoPage pageSize
  omega

/-- From a position in the page, with a round left for every byte that
is missing, the loop ends; none of its subtractions wraps around; and it
leaves with at least a jump's bytes overwritten, at most fourteen more
than that, all of them before the last byte of the page. -/
theorem decodeLoop_bounds {decode : Nat → Nat → Option Nat} (hbounded : Bounded decode)
    (offset : Nat) (rounds : Nat) :
    ∀ overwritten, offset + overwritten + 1 ≤ pageSize → absoluteJumpSize ≤ overwritten + rounds →
      overwritten ≤ 28 →
      (decodeLoop decode offset rounds overwritten).fin ≠ .running
      ∧ (∀ call ∈ (decodeLoop decode offset rounds overwritten).calls,
          offset + call.1 + 1 ≤ pageSize ∧ call.2 = pageSize - (offset + call.1) - 1)
      ∧ ∀ n, (decodeLoop decode offset rounds overwritten).fin = .exit n →
          absoluteJumpSize ≤ n ∧ n ≤ 28 ∧ offset + n + 1 ≤ pageSize := by
  have hexit : ∀ overwritten n, offset + overwritten + 1 ≤ pageSize → overwritten ≤ 28 →
      ¬ overwritten < absoluteJumpSize → LoopEnd.exit overwritten = .exit n →
      absoluteJumpSize ≤ n ∧ n ≤ 28 ∧ offset + n + 1 ≤ pageSize := by
    intro overwritten n hpage hmost henough hn
    cases hn
    exact ⟨by omega, hmost, hpage⟩
  -- By induction on the rounds: a round before the end overwrites at least one byte more, at
  -- most 15 more than 13, and never more than it was offered.
  induction rounds with
  | zero =>
    intro overwritten hpage hrounds hmost
    rw [decodeLoop, if_neg (by omega)]
    exact ⟨by simp, by simp, fun n hn => hexit overwritten n hpage hmost (by omega) hn⟩
  | succ rounds ih =>
    intro overwritten hpage hrounds hmost
    rw [decodeLoop]
    by_cases hmore : overwritten < absoluteJumpSize
    · rw [if_pos hmore]
      have hoffered := offeredLength_eq hpage
      cases hdecode : decode overwritten (offeredLength offset overwritten) with
      | none =>
        simp only [hdecode]
        exact ⟨by simp, by simpa using ⟨hpage, hoffered⟩, by simp⟩
      | some length =>
        rcases hbounded _ _ _ hdecode with ⟨hpos, hle⟩
        rw [hoffered] at hle
        unfold absoluteJumpSize at hmore hrounds
        have hfifteen : length ≤ 15 := Nat.le_trans hle (Nat.min_le_left _ _)
        have hroom : length ≤ pageSize - (offset + overwritten) - 1 :=
          Nat.le_trans hle (Nat.min_le_right _ _)
        rcases ih (overwritten + length) (by omega) (by unfold absoluteJumpSize; omega) (by omega)
          with ⟨hfin, hcalls, hend⟩
        simp only [hdecode]
        refine ⟨hfin, ?_, hend⟩
        intro call hcall
        rcases List.mem_cons.mp hcall with rfl | hcall
        · exact ⟨hpage, hoffered⟩
        · exact hcalls call hcall
    · rw [if_neg hmore]
      exact ⟨by simp, by simp, fun n hn => hexit overwritten n hpage hmost hmore hn⟩

/-- The jump in the page leaves its length as it is. -/
theorem length_overwriteAt {bytes new : List UInt8} {index : Nat}
    (hroom : index + new.length ≤ bytes.length) :
    (overwriteAt bytes index new).length = bytes.length := by
  simp only [overwriteAt, List.length_append, List.length_take, List.length_drop]
  omega

/-- For every target and every decoder that keeps to its bounds: the
loop of `ept_hook` ends, the length it offers never wraps around, and it
leaves with 14 to 28 bytes overwritten, at most up to offset 4095 of the
page. So the boundary check never fires, the trampoline is filled
exactly by the displaced bytes and the jump, and the jump in the shadow
page is inside the page. -/
theorem eptHook_bounds {decode : Nat → Nat → Option Nat} (hbounded : Bounded decode)
    (env : HookEnv) (memory : UInt64 → UInt8) (target hook : UInt64) :
    (decodeLoop decode (offsetIntoPage target) maxRounds 0).fin ≠ .running
    ∧ (∀ call ∈ (decodeLoop decode (offsetIntoPage target) maxRounds 0).calls,
        offsetIntoPage target + call.1 + 1 ≤ pageSize
          ∧ call.2 = pageSize - (offsetIntoPage target + call.1) - 1)
    ∧ (∀ n, (decodeLoop decode (offsetIntoPage target) maxRounds 0).fin = .exit n →
        14 ≤ n ∧ n ≤ 28 ∧ offsetIntoPage target + n ≤ 4095)
    ∧ eptHook env decode memory target hook ≠ .error .pageBoundary
    ∧ ∀ built, eptHook env decode memory target hook = .ok built →
        (decodeLoop decode (offsetIntoPage target) maxRounds 0).fin = .exit built.overwritten
          ∧ built.trampolineBytes.length = built.overwritten + absoluteJumpSize
          ∧ offsetIntoPage target + absoluteJumpSize ≤ pageSize
          ∧ built.execPageBytes.length = pageSize := by
  rcases decodeLoop_bounds hbounded (offsetIntoPage target) maxRounds 0
    (offsetIntoPage_lt target) (Nat.le_of_eq (Nat.zero_add _).symm) (by omega)
    with ⟨hfin, hcalls, hend⟩
  have hexit : ∀ n, (decodeLoop decode (offsetIntoPage target) maxRounds 0).fin = .exit n →
      14 ≤ n ∧ n ≤ 28 ∧ offsetIntoPage target + n ≤ 4095 := by
    intro n hn
    have h := hend n hn
    unfold absoluteJumpSize pageSize at h
    omega
  refine ⟨hfin, hcalls, hexit, ?_⟩
  unfold eptHook
  by_cases hirql : (!env.passiveLevel) = true
  · simp only [if_pos hirql]
    exact ⟨by simp, by simp⟩
  by_cases hinit : (!env.decoderInit) = true
  · simp only [if_neg hirql, if_pos hinit]
    exact ⟨by simp, by simp⟩
  simp only [if_neg hirql, if_neg hinit]
  cases hloop : (decodeLoop decode (offsetIntoPage target) maxRounds 0).fin with
  | decodeFailed => exact ⟨by simp, by simp⟩
  | running => exact absurd hloop hfin
  | exit n =>
    rcases hexit n hloop with ⟨hmin, hmax, hpage⟩
    have hcheck : ¬ offsetIntoPage target + n > pageSize - 1 := by
      unfold pageSize
      omega
    simp only [if_neg hcheck]
    cases htrampoline : env.trampoline with
    | none => exact ⟨by simp, by simp⟩
    | some trampoline =>
      cases hexec : env.execPage with
      | none => exact ⟨by simp, by simp⟩
      | some execPage =>
        refine ⟨by simp, ?_⟩
        intro built hbuilt
        simp only [Except.ok.injEq] at hbuilt
        subst hbuilt
        have hjump : offsetIntoPage target + absoluteJumpSize ≤ pageSize := by
          unfold absoluteJumpSize pageSize
          omega
        refine ⟨rfl, ?_, hjump, ?_⟩
        · rw [List.length_append, length_bytesAt, length_writeAbsoluteJmp]
        · rw [length_overwriteAt, length_bytesAt]
          rw [length_bytesAt, length_writeAbsoluteJmp]
          exact hjump

/-- A decoder that finds instructions of seven bytes. -/
def sevenBytes (_ offered : Nat) : Option Nat := if 7 ≤ offered then some 7 else none

/-- It keeps to its bounds. -/
theorem sevenBytes_bounded : Bounded sevenBytes := by
  intro overwritten offered length hlength
  unfold sevenBytes at hlength
  split_ifs at hlength
  cases hlength
  omega

/-- Two instructions of seven bytes in front of the last two of a page.
The loop exits with 14, and the hook is built. -/
theorem eptHook_bounds_sevenBytes :
    (decodeLoop sevenBytes (offsetIntoPage 0x12FF0) maxRounds 0).fin = .exit 14 ∧
    ∃ built, eptHook ⟨true, true, some 0x7000, some 0x8000⟩ sevenBytes (fun _ => 0x90) 0x12FF0
        0xFFFFF80012345678 = .ok built ∧
      built.overwritten = 14 ∧ built.trampolineBytes.length = 28 ∧
      offsetIntoPage 0x12FF0 + built.overwritten ≤ 4095 ∧ built.execPageBytes.length = 0x1000 := by
  obtain ⟨_, _, hexit, _, hbuilt⟩ := eptHook_bounds sevenBytes_bounded
    ⟨true, true, some 0x7000, some 0x8000⟩ (fun _ => 0x90) 0x12FF0 0xFFFFF80012345678
  have hfin : (decodeLoop sevenBytes (offsetIntoPage 0x12FF0) maxRounds 0).fin = .exit 14 := by
    decide
  obtain ⟨built, hok⟩ : ∃ built, eptHook ⟨true, true, some 0x7000, some 0x8000⟩ sevenBytes
      (fun _ => 0x90) 0x12FF0 0xFFFFF80012345678 = .ok built := ⟨_, rfl⟩
  obtain ⟨hloop, htrampoline, _, hpage⟩ := hbuilt built hok
  have hoverwritten : built.overwritten = 14 := LoopEnd.exit.inj (hloop.symm.trans hfin)
  refine ⟨hfin, built, hok, hoverwritten, ?_, ?_, hpage⟩
  · rw [htrampoline, hoverwritten]
    rfl
  · rw [hoverwritten]
    exact (hexit 14 hfin).2.2

end Revhv.Detour
