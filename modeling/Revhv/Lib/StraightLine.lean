/-!
# `Revhv.Lib.StraightLine`: code in straight lines

An instruction changes the state or leaves the straight line by an exit. Some
exits are jumps inside the code: `target` gives the instructions there. `run`
runs a straight line up to its first exit, and `runCode` follows the jumps.

* `run_append`, `runCode_append`: a straight line and what is behind it.
* `runCode_next`, `runCode_jump`, `runCode_leave`: one instruction.

Nothing here names a program.
-/

set_option autoImplicit false

namespace Revhv.Lib.StraightLine

variable {α σ ε : Type} (exec : α → σ → Option (σ × Option ε)) (target : ε → Option (List α))

/-- Run a straight line up to its first exit, `none` at a fault. -/
def run : List α → σ → Option (σ × Option ε)
  | [], s => some (s, none)
  | i :: is, s =>
    match exec i s with
    | none => none
    | some (s, some exit) => some (s, some exit)
    | some (s, none) => run is s

/-- Run code until it is left, at most `fuel` instructions of it. -/
def runCode : (fuel : Nat) → List α → σ → Option (σ × ε)
  | 0, _, _ => none
  | _ + 1, [], _ => none
  | fuel + 1, i :: is, s =>
    match exec i s with
    | none => none
    | some (s, none) => runCode fuel is s
    | some (s, some exit) =>
      match target exit with
      | none => some (s, exit)
      | some js => runCode fuel js s

variable {exec target} {i : α} {is js : List α} {s s' : σ}

/-! ### Straight lines -/

/-- Code at its end has run. -/
@[simp] theorem run_nil (s : σ) : run exec [] s = some (s, none) := rfl

/-- An instruction that goes on is followed by the rest of the code. -/
theorem run_cons_next (h : exec i s = some (s', none)) :
    run exec (i :: is) s = run exec is s' := by
  rw [run, h]

/-- A straight line behind another that is not left. -/
theorem run_append (js : List α) (h : run exec is s = some (s', none)) :
    run exec (is ++ js) s = run exec js s' := by
  -- By induction over the first list: an exit in it would contradict `h`.
  induction is generalizing s with
  | nil =>
    rw [run_nil, Option.some.injEq, Prod.mk.injEq] at h
    rw [List.nil_append, h.1]
  | cons i is ih =>
    rw [run] at h
    rw [List.cons_append, run]
    cases hi : exec i s with
    | none =>
      rw [hi] at h
      cases h
    | some p =>
      rcases p with ⟨t, e⟩
      rw [hi] at h
      cases e with
      | none => exact ih h
      | some e => cases h

/-! ### Code -/

/-- The same for code with jumps: an instruction that goes on. -/
theorem runCode_next {fuel : Nat} (h : exec i s = some (s', none)) :
    runCode exec target (fuel + 1) (i :: is) s = runCode exec target fuel is s' := by
  rw [runCode, h]

/-- An instruction that jumps is followed by the code at its target. -/
theorem runCode_jump {fuel : Nat} {e : ε} (h : exec i s = some (s', some e))
    (hjump : target e = some js) :
    runCode exec target (fuel + 1) (i :: is) s = runCode exec target fuel js s' := by
  simp only [runCode, h, hjump]

/-- An instruction whose target is no code of the function leaves it. -/
theorem runCode_leave {fuel : Nat} {e : ε} (h : exec i s = some (s', some e))
    (hleave : target e = none) :
    runCode exec target (fuel + 1) (i :: is) s = some (s', e) := by
  simp only [runCode, h, hleave]

/-- A straight line that is not left, and what is behind it. -/
theorem runCode_append (target : ε → Option (List α)) (fuel : Nat) (js : List α)
    (h : run exec is s = some (s', none)) :
    runCode exec target (is.length + fuel) (is ++ js) s = runCode exec target fuel js s' := by
  -- By induction over the first list, each instruction taking one unit of fuel.
  induction is generalizing s with
  | nil =>
    rw [run_nil, Option.some.injEq, Prod.mk.injEq] at h
    rw [List.nil_append, List.length_nil, Nat.zero_add, h.1]
  | cons i is ih =>
    rw [run] at h
    rw [List.cons_append, List.length_cons, Nat.succ_add]
    cases hi : exec i s with
    | none =>
      rw [hi] at h
      cases h
    | some p =>
      rcases p with ⟨t, e⟩
      rw [hi] at h
      cases e with
      | none => exact (runCode_next hi).trans (ih h)
      | some e => cases h

end Revhv.Lib.StraightLine
