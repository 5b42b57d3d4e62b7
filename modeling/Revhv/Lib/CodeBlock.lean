import Mathlib.Algebra.GroupWithZero.Nat
import Mathlib.Data.List.Basic

/-!
# `Revhv.Lib.CodeBlock`: straight-line code and where it stands

An instruction is a length and an effect that may depend on its own address.
A `Decoder` reads it from its own bytes. `exec` runs the code in memory from an
address until a branch is taken or so many bytes are behind it; `runAt` runs a
list of instructions from a base address.

* `exec_eq_runAt`: code that is laid out in memory runs as its list.
* `laidOut_of_bytes`: copied code is laid out as the original.
* `runAt_append`: how lists run one behind the other.
* `runAt_relocated`: a list whose instructions do the same at two bases.

Nothing here names a program.
-/

set_option autoImplicit false

namespace Revhv.Lib

variable {σ : Type}

/-- An instruction: its length, and what it does at its address. A
branch gives the address it goes to, and without one the next
instruction follows. -/
structure Instr (σ : Type) where
  length : Nat
  effect : UInt64 → σ → σ × Option UInt64

/-- The bytes at an address. -/
def bytesAt (code : UInt64 → UInt8) (address : UInt64) (n : Nat) : List UInt8 :=
  (List.range n).map fun k => code (address + UInt64.ofNat k)

/-- A decoder: an instruction has at least one byte and at most fifteen,
all of them given, and is determined by them. -/
structure Decoder (σ : Type) where
  decode : List UInt8 → Option (Instr σ)
  length_pos : ∀ bytes i, decode bytes = some i → 1 ≤ i.length
  length_le : ∀ bytes i, decode bytes = some i → i.length ≤ min 15 bytes.length
  own_bytes : ∀ bytes i, decode bytes = some i →
    ∀ more : List UInt8, more.take i.length = bytes.take i.length → decode more = some i

/-- Run the code at an address until a branch is taken or `left` bytes
are behind it. The result is the address where it goes on and the state,
`none` without an instruction or when the fuel runs out. -/
def exec (dec : Decoder σ) (code : UInt64 → UInt8) : Nat → Nat → UInt64 → σ → Option (UInt64 × σ)
  | 0, _, _, _ => none
  | fuel + 1, left, address, s =>
    if left = 0 then some (address, s)
    else
      match dec.decode (bytesAt code address 15) with
      | none => none
      | some i =>
        match i.effect address s with
        | (s, some target) => some (target, s)
        | (s, none) => exec dec code fuel (left - i.length) (address + UInt64.ofNat i.length) s

/-- Run instructions one behind the other from a base address, up to the
first branch. -/
def runAt : UInt64 → List (Instr σ) → σ → σ × Option UInt64
  | _, [], s => (s, none)
  | address, i :: is, s =>
    match i.effect address s with
    | (s, some target) => (s, some target)
    | (s, none) => runAt (address + UInt64.ofNat i.length) is s

/-- The bytes of instructions. -/
def blockLength (is : List (Instr σ)) : Nat := (is.map Instr.length).sum

/-- The instructions stand in the code at an address, one behind the
other. -/
def LaidOut (dec : Decoder σ) (code : UInt64 → UInt8) : UInt64 → List (Instr σ) → Prop
  | _, [] => True
  | address, i :: is =>
    (∃ n, dec.decode (bytesAt code address n) = some i)
      ∧ LaidOut dec code (address + UInt64.ofNat i.length) is

/-- An empty block has no bytes. -/
@[simp] theorem blockLength_nil : blockLength ([] : List (Instr σ)) = 0 := rfl

/-- The length of a block adds up instruction by instruction. -/
@[simp] theorem blockLength_cons (i : Instr σ) (is : List (Instr σ)) :
    blockLength (i :: is) = i.length + blockLength is := rfl

/-- As many bytes are read as were asked for. -/
@[simp] theorem length_bytesAt (code : UInt64 → UInt8) (address : UInt64) (n : Nat) :
    (bytesAt code address n).length = n := by
  simp [bytesAt]

/-- The first bytes at an address. -/
theorem take_bytesAt (code : UInt64 → UInt8) (address : UInt64) {k n : Nat} (hle : k ≤ n) :
    (bytesAt code address n).take k = bytesAt code address k := by
  unfold bytesAt
  rw [← List.map_take, List.take_range, Nat.min_eq_left hle]

/-- The bytes behind the first ones. -/
theorem drop_bytesAt (code : UInt64 → UInt8) (address : UInt64) (k n : Nat) :
    (bytesAt code address (k + n)).drop k = bytesAt code (address + UInt64.ofNat k) n := by
  refine List.ext_getElem (by simp) ?_
  intro i _ _
  simp only [bytesAt, List.getElem_drop, List.getElem_map, List.getElem_range]
  rw [UInt64.add_assoc, ← UInt64.ofNat_add]

/-- The bytes at an address, in two parts. -/
theorem bytesAt_add (code : UInt64 → UInt8) (address : UInt64) (k n : Nat) :
    bytesAt code address (k + n)
      = bytesAt code address k ++ bytesAt code (address + UInt64.ofNat k) n := by
  rw [← drop_bytesAt, ← take_bytesAt code address (Nat.le_add_right k n), List.take_append_drop]

/-- An instruction is decoded from as many of its bytes as there are, or
more. -/
theorem decode_bytesAt (dec : Decoder σ) {code code' : UInt64 → UInt8} {address address' : UInt64}
    {n m : Nat} {i : Instr σ} (hdecode : dec.decode (bytesAt code address n) = some i)
    (hm : i.length ≤ m) (hsame : bytesAt code' address' i.length = bytesAt code address i.length) :
    dec.decode (bytesAt code' address' m) = some i := by
  refine dec.own_bytes _ i hdecode _ ?_
  have hn := dec.length_le _ i hdecode
  rw [length_bytesAt] at hn
  rw [take_bytesAt _ _ hm, hsame, take_bytesAt _ _ (by omega)]

/-- Code with the same bytes is laid out with the same instructions. -/
theorem laidOut_of_bytes (dec : Decoder σ) {code code' : UInt64 → UInt8} (is : List (Instr σ)) :
    ∀ {address address' : UInt64}, LaidOut dec code address is →
      bytesAt code' address' (blockLength is) = bytesAt code address (blockLength is) →
      LaidOut dec code' address' is := by
  induction is with
  | nil => intro address address' _ _; trivial
  | cons i is ih =>
    intro address address' hlaid hsame
    rcases hlaid with ⟨⟨n, hdecode⟩, hrest⟩
    rw [blockLength_cons, bytesAt_add, bytesAt_add] at hsame
    rcases List.append_inj hsame (by simp) with ⟨hown, hbehind⟩
    exact ⟨⟨_, decode_bytesAt dec hdecode (Nat.le_refl _) hown⟩, ih hrest hbehind⟩

/-- Code that is laid out in memory runs as its list of instructions. -/
theorem exec_eq_runAt (dec : Decoder σ) {code : UInt64 → UInt8} (is : List (Instr σ)) :
    ∀ {fuel : Nat} {address : UInt64} (s : σ), is.length < fuel → LaidOut dec code address is →
      exec dec code fuel (blockLength is) address s
        = some ((runAt address is s).2.getD (address + UInt64.ofNat (blockLength is)),
            (runAt address is s).1) := by
  -- By induction over the instructions: the decoder finds each where the one
  -- before it ends.
  induction is with
  | nil =>
    intro fuel address s hfuel _
    cases fuel with
    | zero => cases hfuel
    | succ fuel => simp [exec, runAt]
  | cons i is ih =>
    intro fuel address s hfuel hlaid
    rcases hlaid with ⟨⟨n, hdecode⟩, hrest⟩
    have hpos := dec.length_pos _ i hdecode
    have hle := dec.length_le _ i hdecode
    cases fuel with
    | zero => cases hfuel
    | succ fuel =>
      have hleft : i.length + blockLength is ≠ 0 := by omega
      have hread : dec.decode (bytesAt code address 15) = some i :=
        decode_bytesAt dec hdecode (by omega) rfl
      rw [exec, blockLength_cons, if_neg hleft, hread, runAt]
      cases heffect : i.effect address s with
      | mk s' target =>
        cases target with
        -- A jump out of the block ends both runs.
        | some target => simp only [heffect, Option.getD_some]
        | none =>
          simp only [heffect]
          rw [Nat.add_sub_cancel_left, ih s' (by simpa using hfuel) hrest, UInt64.add_assoc,
            ← UInt64.ofNat_add]

/-- Lists run one behind the other. -/
theorem runAt_append (is more : List (Instr σ)) :
    ∀ (address : UInt64) (s : σ),
      runAt address (is ++ more) s
        = match runAt address is s with
          | (s, some target) => (s, some target)
          | (s, none) => runAt (address + UInt64.ofNat (blockLength is)) more s := by
  induction is with
  | nil => intro address s; simp [runAt]
  | cons i is ih =>
    intro address s
    rw [List.cons_append, runAt, runAt]
    cases heffect : i.effect address s with
    | mk s' target =>
      cases target with
      | some target => rfl
      | none =>
        simp only
        rw [ih, blockLength_cons, UInt64.ofNat_add, UInt64.add_assoc]

/-- Lists are laid out one behind the other. -/
theorem laidOut_append (dec : Decoder σ) {code : UInt64 → UInt8} (is more : List (Instr σ)) :
    ∀ {address : UInt64}, LaidOut dec code address is →
      LaidOut dec code (address + UInt64.ofNat (blockLength is)) more →
      LaidOut dec code address (is ++ more) := by
  induction is with
  | nil => intro address _ hmore; simpa using hmore
  | cons i is ih =>
    intro address hlaid hmore
    refine ⟨hlaid.1, ih hlaid.2 ?_⟩
    rwa [blockLength_cons, UInt64.ofNat_add, ← UInt64.add_assoc] at hmore

/-- In the run of a list from `base`, every instruction that is reached
does the same at its place from `base'`. -/
def SameAt : UInt64 → UInt64 → List (Instr σ) → σ → Prop
  | _, _, [], _ => True
  | base, base', i :: is, s =>
    i.effect base' s = i.effect base s
      ∧ ((i.effect base s).2 = none →
        SameAt (base + UInt64.ofNat i.length) (base' + UInt64.ofNat i.length) is
          (i.effect base s).1)

/-- A list whose instructions do the same at two bases runs the same
from both. -/
theorem runAt_relocated (is : List (Instr σ)) :
    ∀ {base base' : UInt64} {s : σ}, SameAt base base' is s → runAt base' is s = runAt base is s := by
  induction is with
  | nil => intro base base' s _; rfl
  | cons i is ih =>
    intro base base' s hsame
    rcases hsame with ⟨heffect, hrest⟩
    -- An instruction that leaves the block says so at both places.
    rw [runAt, runAt, heffect]
    cases hresult : i.effect base s with
    | mk s' target =>
      cases target with
      | some target => rfl
      | none =>
        rw [hresult] at hrest
        exact ih (hrest rfl)

/-- Instructions that never depend on their address do the same at any
two bases. -/
theorem sameAt_of_free (is : List (Instr σ))
    (hfree : ∀ i ∈ is, ∀ address address' s, i.effect address s = i.effect address' s) :
    ∀ (base base' : UInt64) (s : σ), SameAt base base' is s := by
  induction is with
  | nil => intro base base' s; trivial
  | cons i is ih =>
    intro base base' s
    refine ⟨hfree i List.mem_cons_self _ _ _, fun _ => ?_⟩
    exact ih (fun j hj => hfree j (List.mem_cons_of_mem _ hj)) _ _ _

end Revhv.Lib
