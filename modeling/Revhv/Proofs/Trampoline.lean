import Revhv.Km.Trampoline

/-!
# `Revhv.Proofs.Trampoline`: the displaced instructions and the jump back

* `runAt_jump`: the absolute jump goes to its target, and writes below the stack
  pointer only.
* `displaced_laidOut`: the loop of `ept_hook` takes whole instructions.
* `trampoline_iff`: when the trampoline has the effect of the function's start.
* `trampoline_of_sameAt`: instructions that do not depend on their address.
* `lea_displaced`: a function for which the trampoline has another effect.
-/

set_option autoImplicit false

namespace Revhv.Detour

open Revhv.Lib Revhv.Lib.RecordLayout Revhv.Lib.StackFrame

/-! ### Bytes of numbers -/

/-- The low bytes of a number depend on its low bits only. -/
theorem leBytes_congr (w : Nat) :
    ∀ {v v' : Nat}, v % 256 ^ w = v' % 256 ^ w → leBytes w v = leBytes w v' := by
  induction w with
  | zero => intro v v' _; rfl
  | succ w ih =>
    intro v v' h
    rw [Nat.pow_succ, Nat.mul_comm] at h
    have hlow : v % 256 = v' % 256 := by
      rw [← Nat.mod_mul_right_mod v 256 (256 ^ w), h, Nat.mod_mul_right_mod]
    have hhigh : v / 256 % 256 ^ w = v' / 256 % 256 ^ w := by
      rw [← Nat.mod_mul_right_div_self, h, Nat.mod_mul_right_div_self]
    rw [leBytes, leBytes, hlow, ih hhigh]

/-- The first bytes of a number. -/
theorem take_leBytes (w k : Nat) : ∀ v, (leBytes (w + k) v).take w = leBytes w v := by
  induction w with
  | zero => intro v; simp [leBytes]
  | succ w ih =>
    intro v
    rw [show w + 1 + k = w + k + 1 by omega, leBytes, List.take_succ_cons, ih, leBytes]

/-- Bytes behind the bytes of a number. -/
theorem leValue_append (w k : Nat) (more : List UInt8) :
    ∀ {v : Nat}, v < 256 ^ w →
      leValue (w + k) (leBytes w v ++ more) = v + 256 ^ w * leValue k more := by
  -- By induction over the width. The low byte comes first and `v / 256` fits
  -- the rest.
  induction w with
  | zero =>
    intro v hv
    rw [Nat.pow_zero] at hv
    rw [leBytes, List.nil_append, Nat.zero_add]
    omega
  | succ w ih =>
    intro v hv
    have hhigh : v / 256 < 256 ^ w := by
      rw [Nat.pow_succ] at hv
      exact Nat.div_lt_of_lt_mul (by rw [Nat.mul_comm]; exact hv)
    have hlow : (UInt8.ofNat (v % 256)).toNat = v % 256 := by simp
    rw [show w + 1 + k = w + k + 1 by omega, leBytes, List.cons_append, leValue, ih hhigh, hlow,
      Nat.pow_succ, Nat.mul_comm (256 ^ w) 256, Nat.mul_assoc, Nat.mul_add]
    omega

/-! ### The jump -/

section
variable {ρ : Type}

/-- Up to memory below the stack pointer, a state is itself. -/
theorem SameAbove.refl (s : Cpu ρ) : SameAbove s s := ⟨rfl, rfl, fun _ _ => rfl⟩

/-- The relation is symmetric. -/
theorem SameAbove.symm {s t : Cpu ρ} (h : SameAbove s t) : SameAbove t s :=
  ⟨h.regs.symm, h.rsp.symm, fun a ha => (h.memory a (by rwa [h.rsp])).symm⟩

/-- The relation is transitive. -/
theorem SameAbove.trans {s t u : Cpu ρ} (hst : SameAbove s t) (htu : SameAbove t u) :
    SameAbove s u :=
  ⟨hst.regs.trans htu.regs, hst.rsp.trans htu.rsp, fun a ha =>
    (hst.memory a ha).trans (htu.memory a (by rwa [← hst.rsp]))⟩

/-- The three instructions of `write_absolute_jmp`. -/
def jumpTo (target : UInt64) : List (Instr (Cpu ρ)) :=
  [pushImm (target.toNat % 2 ^ 32), movHigh (target.toNat / 2 ^ 32), ret]

/-- The eight bytes below the stack pointer are below it. -/
theorem below_of_lt {rsp address : UInt64} (hlt : (address - (rsp - 8)).toNat < 8) :
    Below rsp address := by
  unfold Below
  have h8 : (8 : UInt64).toNat = 8 := rfl
  have h1 : (1 : UInt64).toNat = 1 := rfl
  have ha := address.toNat_lt
  have hr := rsp.toNat_lt
  simp only [UInt64.toNat_sub, h8, h1] at hlt ⊢
  omega

/-- The address that the jump leaves on the stack. -/
theorem leValue_jump (memory : UInt64 → UInt8) (rsp target : UInt64) :
    leValue 8 (bytesAt (store (store memory rsp (leBytes 8 (signExtend32 (target.toNat % 2 ^ 32))))
      (rsp + 4) (leBytes 4 (target.toNat / 2 ^ 32))) rsp 8) = target.toNat := by
  have htarget := target.toNat_lt
  -- The low half is from the push, whose high half the move overwrites.
  have hlow : bytesAt (store (store memory rsp (leBytes 8 (signExtend32 (target.toNat % 2 ^ 32))))
      (rsp + 4) (leBytes 4 (target.toNat / 2 ^ 32))) rsp 4 = leBytes 4 (target.toNat % 2 ^ 32) := by
    have hsame : bytesAt (store (store memory rsp
        (leBytes 8 (signExtend32 (target.toNat % 2 ^ 32)))) (rsp + 4)
          (leBytes 4 (target.toNat / 2 ^ 32))) rsp 4
        = bytesAt (store memory rsp (leBytes 8 (signExtend32 (target.toNat % 2 ^ 32)))) rsp 4 := by
      unfold bytesAt
      refine List.map_congr_left fun k hk => ?_
      have hk := List.mem_range.mp hk
      refine store_outside ?_
      rw [length_leBytes]
      have h4 : (4 : UInt64).toNat = 4 := rfl
      have hofNat : (UInt64.ofNat k).toNat = k := by
        rw [UInt64.toNat_ofNat']
        exact Nat.mod_eq_of_lt (by omega)
      have hr := rsp.toNat_lt
      simp only [UInt64.toNat_sub, UInt64.toNat_add, h4, hofNat]
      omega
    rw [hsame, bytesAt_store_take _ _ (by simp [length_leBytes]) (by simp [length_leBytes]),
      show 8 = 4 + 4 from rfl, take_leBytes]
    refine leBytes_congr 4 ?_
    unfold signExtend32
    split_ifs <;> omega
  have hhigh : bytesAt (store (store memory rsp (leBytes 8 (signExtend32 (target.toNat % 2 ^ 32))))
      (rsp + 4) (leBytes 4 (target.toNat / 2 ^ 32))) (rsp + UInt64.ofNat 4) 4
        = leBytes 4 (target.toNat / 2 ^ 32) := by
    rw [show UInt64.ofNat 4 = 4 from rfl,
      bytesAt_store_take _ _ (by simp [length_leBytes]) (by simp [length_leBytes]),
      List.take_of_length_le (by simp [length_leBytes])]
  rw [show 8 = 4 + 4 from rfl, bytesAt_add, hlow, hhigh, leValue_append 4 4 _ (by omega)]
  have h := leValue_leBytes 4 (target.toNat / 2 ^ 32) [] (by omega)
  rw [List.append_nil] at h
  rw [h]
  omega

/-- The jump goes to its target. It leaves everything as it is but
memory below the stack pointer. -/
theorem runAt_jump (base target : UInt64) (s : Cpu ρ) :
    (runAt base (jumpTo target) s).2 = some target
      ∧ SameAbove s (runAt base (jumpTo target) s).1 := by
  have hvalue := leValue_jump s.memory (s.rsp - 8) target
  -- The push extends the low half with its sign, and the store writes the high
  -- half over that.
  have hrun : runAt base (jumpTo target) s
      = ({ s with
            rsp := s.rsp - 8 + 8
            memory := store (store s.memory (s.rsp - 8)
              (leBytes 8 (signExtend32 (target.toNat % 2 ^ 32)))) (s.rsp - 8 + 4)
              (leBytes 4 (target.toNat / 2 ^ 32)) }, some target) := by
    simp only [jumpTo, runAt, pushImm, movHigh, ret]
    rw [hvalue, UInt64.ofNat_toNat]
  rw [hrun]
  refine ⟨rfl, rfl, ?_, ?_⟩
  · exact (UInt64.sub_add_cancel _ _).symm
  · intro address habove
    -- Both stores are below the stack pointer, inside the slot of the push.
    have hout : 8 ≤ (address - (s.rsp - 8)).toNat := by
      by_contra hlt
      exact habove (below_of_lt (by omega))
    have hout' : 4 ≤ (address - (s.rsp - 8 + 4)).toNat := by
      have h8 : (8 : UInt64).toNat = 8 := rfl
      have h4 : (4 : UInt64).toNat = 4 := rfl
      have ha := address.toNat_lt
      have hr := s.rsp.toNat_lt
      simp only [UInt64.toNat_sub, UInt64.toNat_add, h8, h4] at hout ⊢
      omega
    show s.memory address = store (store _ _ _) _ _ address
    rw [store_outside (by rwa [length_leBytes]), store_outside (by rwa [length_leBytes])]

/-- The bytes of a jump are laid out as its three instructions. -/
theorem laidOut_jump (dec : X86 ρ) {code : UInt64 → UInt8} {address target : UInt64}
    (hbytes : bytesAt code address absoluteJumpSize = writeAbsoluteJmp target) :
    LaidOut dec.toDecoder code address (jumpTo target) := by
  have htarget := target.toNat_lt
  -- The fourteen bytes are three instructions of 5, 8 and 1 bytes.
  have hpush : bytesAt code address 5 = [0x68] ++ leBytes 4 (target.toNat % 2 ^ 32) := by
    rw [← take_bytesAt code address (show 5 ≤ absoluteJumpSize by decide), hbytes]
    simp [writeAbsoluteJmp, leBytes]
  have hmov : bytesAt code (address + UInt64.ofNat 5) 8
      = leBytes 4 0x042444C7 ++ leBytes 4 (target.toNat / 2 ^ 32) := by
    have h := drop_bytesAt code address 5 9
    rw [show 5 + 9 = absoluteJumpSize from rfl, hbytes] at h
    rw [← take_bytesAt code _ (show 8 ≤ 9 by decide), ← h]
    simp [writeAbsoluteJmp, leBytes]
  have hret : bytesAt code (address + UInt64.ofNat 5 + UInt64.ofNat 8) 1 = [0xC3] := by
    have h := drop_bytesAt code address 13 1
    rw [show 13 + 1 = absoluteJumpSize from rfl, hbytes] at h
    rw [UInt64.add_assoc, ← UInt64.ofNat_add, ← h]
    simp [writeAbsoluteJmp, leBytes]
  refine ⟨⟨5, ?_⟩, ⟨8, ?_⟩, ⟨1, ?_⟩, trivial⟩
  · rw [hpush]
    have h := dec.decode_push (target.toNat % 2 ^ 32) (by omega) []
    rwa [List.append_nil] at h
  · show dec.decode (bytesAt code (address + UInt64.ofNat 5) 8) = _
    rw [hmov]
    have h := dec.decode_mov (target.toNat / 2 ^ 32) (by omega) []
    rwa [List.append_nil] at h
  · show dec.decode (bytesAt code (address + UInt64.ofNat 5 + UInt64.ofNat 8) 1) = _
    rw [hret]
    have h := dec.decode_ret []
    rwa [List.append_nil] at h

/-! ### The displaced instructions -/

/-- The loop of `ept_hook` takes the instructions that stand at the
start of the function, one behind the other. -/
theorem displaced_laidOut (dec : Decoder (Cpu ρ)) (memory : UInt64 → UInt8) (target : UInt64)
    (rounds : Nat) :
    ∀ overwritten n, (decodeLoop (zydis dec memory target) (offsetIntoPage target) rounds
        overwritten).fin = .exit n →
      LaidOut dec memory (target + UInt64.ofNat overwritten)
          (displaced dec memory target rounds overwritten)
        ∧ overwritten + blockLength (displaced dec memory target rounds overwritten) = n := by
  -- By induction over the rounds of the loop, each of which decodes one
  -- instruction.
  induction rounds with
  | zero =>
    intro overwritten n hn
    rw [decodeLoop] at hn
    split_ifs at hn
    cases hn
    exact ⟨trivial, rfl⟩
  | succ rounds ih =>
    intro overwritten n hn
    rw [decodeLoop] at hn
    rw [displaced]
    by_cases hmore : overwritten < absoluteJumpSize
    · rw [if_pos hmore] at hn ⊢
      unfold zydis at hn
      cases hdecode : dec.decode (bytesAt memory (target + UInt64.ofNat overwritten)
          (offeredLength (offsetIntoPage target) overwritten)) with
      | none =>
        simp only [hdecode, Option.map_none] at hn
        cases hn
      | some i =>
        simp only [hdecode, Option.map_some] at hn ⊢
        rcases ih (overwritten + i.length) n hn with ⟨hlaid, hlen⟩
        rw [UInt64.ofNat_add, ← UInt64.add_assoc] at hlaid
        refine ⟨⟨⟨_, hdecode⟩, hlaid⟩, ?_⟩
        rw [blockLength_cons]
        omega
    · rw [if_neg hmore] at hn ⊢
      cases hn
      exact ⟨trivial, rfl⟩

/-- Instructions have a byte each. -/
theorem length_le_blockLength (dec : Decoder (Cpu ρ)) {code : UInt64 → UInt8}
    (is : List (Instr (Cpu ρ))) :
    ∀ {address : UInt64}, LaidOut dec code address is → is.length ≤ blockLength is := by
  induction is with
  | nil => intro address _; exact Nat.le_refl _
  | cons i is ih =>
    intro address hlaid
    rcases hlaid with ⟨⟨n, hdecode⟩, hrest⟩
    have hpos := dec.length_pos _ i hdecode
    have hle := ih hrest
    rw [List.length_cons, blockLength_cons]
    omega

/-! ### The trampoline -/

/-- From a state, the trampoline has the same effect as the start of the
function: run until a branch is taken or the end is reached, both go on
at the same address, in states that are the same up to memory below the
stack pointer. `before` is the code without the hook, `after` the code
with the trampoline in its buffer. -/
def SameEffect (dec : Decoder (Cpu ρ)) (before after : UInt64 → UInt8) (target : UInt64)
    (built : Hook) (s : Cpu ρ) : Prop :=
  ∃ rip unhooked hooked,
    exec dec before (built.overwritten + 1) built.overwritten target s = some (rip, unhooked)
      ∧ exec dec after (built.trampolineBytes.length + 1) built.trampolineBytes.length
          built.trampoline s = some (rip, hooked)
      ∧ SameAbove unhooked hooked

/-- The displaced instructions of a hook. -/
def Hook.displaced (dec : Decoder (Cpu ρ)) (before : UInt64 → UInt8) (target : UInt64) :
    List (Instr (Cpu ρ)) :=
  Detour.displaced dec before target maxRounds 0

/-- From a state, instructions end the same way at two bases: they go to
the same place, where their end counts as `next`, in states that are the
same up to memory below the stack pointer. -/
def EndsSame (base base' next : UInt64) (is : List (Instr (Cpu ρ))) (s : Cpu ρ) : Prop :=
  (runAt base is s).2.getD next = (runAt base' is s).2.getD next
    ∧ SameAbove (runAt base is s).1 (runAt base' is s).1

/-- What `ept_hook` builds: whole instructions are overwritten, and the
trampoline is their bytes and the jump behind them. -/
theorem eptHook_spec {dec : Decoder (Cpu ρ)} {env : HookEnv} {before : UInt64 → UInt8}
    {target hook : UInt64} {built : Hook}
    (hbuilt : eptHook env (zydis dec before target) before target hook = .ok built) :
    LaidOut dec before target (Hook.displaced dec before target)
      ∧ blockLength (Hook.displaced dec before target) = built.overwritten
      ∧ built.trampolineBytes = bytesAt before target built.overwritten
          ++ writeAbsoluteJmp (target + UInt64.ofNat built.overwritten) := by
  unfold eptHook at hbuilt
  simp only at hbuilt
  split_ifs at hbuilt
  -- The loop must have left by its exit. Otherwise no hook is built.
  cases hfin : (decodeLoop (zydis dec before target) (offsetIntoPage target) maxRounds 0).fin with
  | decodeFailed =>
    rw [hfin] at hbuilt
    cases hbuilt
  | running =>
    rw [hfin] at hbuilt
    cases hbuilt
  | exit n =>
    rcases displaced_laidOut dec before target maxRounds 0 n hfin with ⟨hlaid, hlen⟩
    rw [show UInt64.ofNat 0 = 0 from rfl, UInt64.add_zero] at hlaid
    rw [Nat.zero_add] at hlen
    rw [hfin] at hbuilt
    simp only at hbuilt
    split_ifs at hbuilt
    -- Either allocation may fail.
    cases htrampoline : env.trampoline with
    | none =>
      rw [htrampoline] at hbuilt
      cases hbuilt
    | some trampoline =>
      cases hexec : env.execPage with
      | none =>
        rw [htrampoline, hexec] at hbuilt
        cases hbuilt
      | some execPage =>
        rw [htrampoline, hexec] at hbuilt
        cases hbuilt
        exact ⟨hlaid, hlen, rfl⟩

/-- When `ept_hook` builds its detour and the trampoline stands in its
buffer, calling the trampoline from a state has the same effect as the
unhooked function exactly when the displaced instructions end the same
way at the trampoline's address as at their own. -/
theorem trampoline_iff (dec : X86 ρ) (env : HookEnv) (before after : UInt64 → UInt8)
    (target hook : UInt64) (built : Hook)
    (hbuilt : eptHook env (zydis dec.toDecoder before target) before target hook = .ok built)
    (hplaced : bytesAt after built.trampoline built.trampolineBytes.length
      = built.trampolineBytes) (s : Cpu ρ) :
    SameEffect dec.toDecoder before after target built s
      ↔ EndsSame target built.trampoline (target + UInt64.ofNat built.overwritten)
          (Hook.displaced dec.toDecoder before target) s := by
  rcases eptHook_spec hbuilt with ⟨hlaid, hlen, hbytes⟩
  unfold SameEffect EndsSame
  generalize Hook.displaced dec.toDecoder before target = is at hlaid hlen ⊢
  have hsize : built.trampolineBytes.length = blockLength is + absoluteJumpSize := by
    rw [hbytes, List.length_append, length_bytesAt, ← hlen]
    simp [writeAbsoluteJmp, length_leBytes, absoluteJumpSize]
  rw [hsize] at hplaced
  rw [bytesAt_add, hbytes, ← hlen] at hplaced
  rcases List.append_inj hplaced (by simp) with ⟨hcopy, hjump⟩
  -- The copy and the jump are one block.
  have hcopied := laidOut_of_bytes dec.toDecoder is hlaid hcopy
  have hwhole := laidOut_append dec.toDecoder is _ hcopied (laidOut_jump dec hjump)
  have hblock : blockLength (is ++ jumpTo (ρ := ρ) (target + UInt64.ofNat (blockLength is)))
      = blockLength is + absoluteJumpSize := by
    simp [blockLength, jumpTo, pushImm, movHigh, ret, absoluteJumpSize]
  have hunhooked : exec dec.toDecoder before (blockLength is + 1) (blockLength is) target s = _ :=
    exec_eq_runAt dec.toDecoder is s
      (Nat.lt_succ_of_le (length_le_blockLength dec.toDecoder is hlaid)) hlaid
  have hhooked : exec dec.toDecoder after (blockLength is + absoluteJumpSize + 1) _
      built.trampoline s = _ :=
    exec_eq_runAt dec.toDecoder (is ++ jumpTo (target + UInt64.ofNat (blockLength is))) s
    (Nat.lt_succ_of_le (by
      rw [← hblock]
      exact length_le_blockLength dec.toDecoder _ hwhole)) hwhole
  rw [hblock] at hhooked
  rw [hsize, ← hlen, hunhooked, hhooked, runAt_append]
  rcases runAt_jump (built.trampoline + UInt64.ofNat (blockLength is))
    (target + UInt64.ofNat (blockLength is)) (runAt built.trampoline is s).1 with ⟨hgo, hsame⟩
  cases hrun : runAt built.trampoline is s with
  | mk copied taken =>
    rw [hrun] at hgo hsame
    cases taken with
    | some place =>
      -- A branch of the copy leaves the trampoline.
      simp only [Option.getD_some]
      constructor
      · rintro ⟨rip, unhooked, hooked, hfirst, hsecond, habove⟩
        simp only [Option.some.injEq, Prod.mk.injEq] at hfirst hsecond
        rcases hfirst with ⟨hrip, rfl⟩
        rcases hsecond with ⟨hplace, rfl⟩
        exact ⟨hrip.trans hplace.symm, habove⟩
      · rintro ⟨hplace, habove⟩
        exact ⟨place, _, _, by rw [hplace], rfl, habove⟩
    | none =>
      -- The copy ends, and the jump takes it behind the displaced bytes.
      simp only [hgo, Option.getD_some, Option.getD_none]
      constructor
      · rintro ⟨rip, unhooked, hooked, hfirst, hsecond, habove⟩
        simp only [Option.some.injEq, Prod.mk.injEq] at hfirst hsecond
        rcases hfirst with ⟨hrip, rfl⟩
        rcases hsecond with ⟨hplace, rfl⟩
        exact ⟨hrip.trans hplace.symm, habove.trans hsame.symm⟩
      · rintro ⟨hplace, habove⟩
        exact ⟨_, _, _, by rw [hplace], rfl, habove.trans hsame⟩

/-- Instructions of which each one that is reached does the same at both
bases. -/
theorem endsSame_of_sameAt {base base' : UInt64} (next : UInt64) {is : List (Instr (Cpu ρ))}
    {s : Cpu ρ} (hsame : SameAt base base' is s) : EndsSame base base' next is s := by
  unfold EndsSame
  rw [runAt_relocated is hsame]
  exact ⟨rfl, SameAbove.refl _⟩

end

/-! ### A small processor -/

/-- `lea rax, [rip + disp32]`, for a processor whose other register is
`rax`. -/
def lea (disp : Nat) : Instr (Cpu UInt64) where
  length := 7
  effect address s :=
    ({ s with regs := address + 7 + UInt64.ofNat (signExtend32 disp) }, none)

/-- `nop`. -/
def nop : Instr (Cpu UInt64) where
  length := 1
  effect _ s := (s, none)

/-- The decoder of these two and of the instructions of the jump. -/
def smallDecode : List UInt8 → Option (Instr (Cpu UInt64))
  | [] => none
  | b :: rest =>
    if b = 0x90 then some nop
    else if b = 0xC3 then some ret
    else if b = 0x68 then if 4 ≤ rest.length then some (pushImm (leValue 4 rest)) else none
    else if b = 0xC7 then
      if rest.take 3 = [0x44, 0x24, 0x04] ∧ 7 ≤ rest.length then
        some (movHigh (leValue 4 (rest.drop 3)))
      else none
    else if b = 0x48 then
      if rest.take 2 = [0x8D, 0x05] ∧ 6 ≤ rest.length then some (lea (leValue 4 (rest.drop 2)))
      else none
    else none

/-- A number is read from its own bytes. -/
theorem leValue_take (w : Nat) : ∀ bytes, leValue w (bytes.take w) = leValue w bytes := by
  induction w with
  | zero => intro bytes; rfl
  | succ w ih =>
    intro bytes
    cases bytes with
    | nil => rfl
    | cons b bytes => rw [List.take_succ_cons, leValue, leValue, ih]

/-- A number is read from a text with its bytes in front. -/
theorem leValue_of_le {w : Nat} {bytes : List UInt8} (more : List UInt8)
    (hlen : w ≤ bytes.length) : leValue w (bytes ++ more) = leValue w bytes := by
  rw [← leValue_take w (bytes ++ more), List.take_append_of_le_length hlen, leValue_take]

/-- The forms of the decoder. -/
theorem smallDecode_cases {bytes : List UInt8} {i : Instr (Cpu UInt64)}
    (hdecode : smallDecode bytes = some i) :
    (∃ rest, bytes = 0x90 :: rest ∧ i = nop)
      ∨ (∃ rest, bytes = 0xC3 :: rest ∧ i = ret)
      ∨ (∃ rest, bytes = 0x68 :: rest ∧ 4 ≤ rest.length ∧ i = pushImm (leValue 4 rest))
      ∨ (∃ rest, bytes = 0xC7 :: rest ∧ rest.take 3 = [0x44, 0x24, 0x04] ∧ 7 ≤ rest.length
          ∧ i = movHigh (leValue 4 (rest.drop 3)))
      ∨ ∃ rest, bytes = 0x48 :: rest ∧ rest.take 2 = [0x8D, 0x05] ∧ 6 ≤ rest.length
          ∧ i = lea (leValue 4 (rest.drop 2)) := by
  cases bytes with
  | nil => cases hdecode
  | cons b rest =>
    simp only [smallDecode] at hdecode
    -- The decoder goes by the first byte, and by the following ones for the
    -- longer encodings.
    split_ifs at hdecode with h1 h2 h3 h4 h5 h6 h7 h8
    · cases hdecode
      exact .inl ⟨rest, by rw [h1], rfl⟩
    · cases hdecode
      exact .inr (.inl ⟨rest, by rw [h2], rfl⟩)
    · cases hdecode
      exact .inr (.inr (.inl ⟨rest, by rw [h3], h4, rfl⟩))
    · cases hdecode
      exact .inr (.inr (.inr (.inl ⟨rest, by rw [h5], h6.1, h6.2, rfl⟩)))
    · cases hdecode
      exact .inr (.inr (.inr (.inr ⟨rest, by rw [h7], h8.1, h8.2, rfl⟩)))

/-- An instruction is decoded from its own bytes, whatever stands behind
them. -/
theorem smallDecode_own {bytes more : List UInt8} {i : Instr (Cpu UInt64)}
    (hdecode : smallDecode bytes = some i) (hmore : more.take i.length = bytes.take i.length) :
    smallDecode more = some i := by
  -- The bytes behind the instruction may be any, so they are generalized away.
  rw [← List.take_append_drop i.length more, hmore]
  generalize more.drop i.length = behind
  rcases smallDecode_cases hdecode with ⟨rest, rfl, rfl⟩ | ⟨rest, rfl, rfl⟩ |
    ⟨rest, rfl, hlen, rfl⟩ | ⟨rest, rfl, hop, hlen, rfl⟩ | ⟨rest, rfl, hop, hlen, rfl⟩
  · rfl
  · rfl
  · show smallDecode (0x68 :: (rest.take 4 ++ behind)) = _
    have hfour : 4 ≤ (rest.take 4).length := by simp [hlen]
    simp only [smallDecode]
    rw [if_neg (by decide), if_neg (by decide), if_pos trivial,
      if_pos (by simp only [List.length_append]; omega), leValue_of_le behind hfour, leValue_take]
  · show smallDecode (0xC7 :: (rest.take 7 ++ behind)) = _
    have hseven : (rest.take 7).length = 7 := by simp [hlen]
    have hfour : 4 ≤ ((rest.take 7).drop 3).length := by simp [hlen]
    have hopcode : (rest.take 7 ++ behind).take 3 = [0x44, 0x24, 0x04] := by
      rw [List.take_append_of_le_length (by omega), List.take_take]
      exact hop
    simp only [smallDecode]
    rw [if_neg (by decide), if_neg (by decide), if_neg (by decide), if_pos trivial,
      if_pos ⟨hopcode, by simp only [List.length_append]; omega⟩,
      List.drop_append_of_le_length (by omega), leValue_of_le behind hfour, List.drop_take,
      leValue_take]
  · show smallDecode (0x48 :: (rest.take 6 ++ behind)) = _
    have hsix : (rest.take 6).length = 6 := by simp [hlen]
    have hfour : 4 ≤ ((rest.take 6).drop 2).length := by simp [hlen]
    have hopcode : (rest.take 6 ++ behind).take 2 = [0x8D, 0x05] := by
      rw [List.take_append_of_le_length (by omega), List.take_take]
      exact hop
    simp only [smallDecode]
    rw [if_neg (by decide), if_neg (by decide), if_neg (by decide), if_neg (by decide),
      if_pos trivial, if_pos ⟨hopcode, by simp only [List.length_append]; omega⟩,
      List.drop_append_of_le_length (by omega), leValue_of_le behind hfour, List.drop_take,
      leValue_take]

/-- The small processor. -/
def small : X86 UInt64 where
  decode := smallDecode
  length_pos bytes i hdecode := by
    rcases smallDecode_cases hdecode with ⟨rest, rfl, rfl⟩ | ⟨rest, rfl, rfl⟩ |
      ⟨rest, rfl, hlen, rfl⟩ | ⟨rest, rfl, hop, hlen, rfl⟩ | ⟨rest, rfl, hop, hlen, rfl⟩ <;>
      exact Nat.le_add_left 1 _
  length_le bytes i hdecode := by
    rcases smallDecode_cases hdecode with ⟨rest, rfl, rfl⟩ | ⟨rest, rfl, rfl⟩ |
      ⟨rest, rfl, hlen, rfl⟩ | ⟨rest, rfl, hop, hlen, rfl⟩ | ⟨rest, rfl, hop, hlen, rfl⟩ <;>
      simp only [List.length_cons, nop, ret, pushImm, movHigh, lea] <;> omega
  own_bytes bytes i hdecode more hmore := smallDecode_own hdecode hmore
  decode_push imm himm rest := by
    have hlen : 4 ≤ (leBytes 4 imm ++ rest).length := by
      rw [List.length_append, length_leBytes]
      omega
    show smallDecode (0x68 :: (leBytes 4 imm ++ rest)) = _
    simp only [smallDecode]
    rw [if_neg (by decide), if_neg (by decide), if_pos trivial, if_pos hlen,
      leValue_leBytes 4 imm rest (by omega)]
  decode_mov imm himm rest := by
    have hlen : 7 ≤ ([0x44, 0x24, 0x04] ++ (leBytes 4 imm ++ rest)).length := by
      simp only [List.length_append, length_leBytes, List.length_cons, List.length_nil]
      omega
    show smallDecode (0xC7 :: ([0x44, 0x24, 0x04] ++ (leBytes 4 imm ++ rest))) = _
    simp only [smallDecode]
    rw [if_neg (by decide), if_neg (by decide), if_neg (by decide), if_pos trivial,
      if_pos ⟨rfl, hlen⟩]
    show some (movHigh (leValue 4 (leBytes 4 imm ++ rest))) = _
    rw [leValue_leBytes 4 imm rest (by omega)]
  decode_ret rest := rfl

/-- A pool that gives two buffers. -/
def sampleEnv : HookEnv := ⟨true, true, some 0x5000, some 0x7000⟩

/-- What `ept_hook` builds for a function at `0x1FD0`, if anything. -/
def sampleHook (code : UInt64 → UInt8) : Hook :=
  (eptHook sampleEnv (zydis small.toDecoder code 0x1FD0) code 0x1FD0 0x2000).toOption.getD
    ⟨0, 0, [], 0, []⟩

/-- The code with the trampoline in its buffer. -/
def sampleAfter (code : UInt64 → UInt8) : UInt64 → UInt8 :=
  store code (sampleHook code).trampoline (sampleHook code).trampolineBytes

/-- A hook that is built is the one of the sample. -/
theorem sampleHook_eq {code : UInt64 → UInt8}
    (hok : (eptHook sampleEnv (zydis small.toDecoder code 0x1FD0) code 0x1FD0 0x2000).isOk = true) :
    eptHook sampleEnv (zydis small.toDecoder code 0x1FD0) code 0x1FD0 0x2000
      = .ok (sampleHook code) := by
  unfold sampleHook
  cases hresult : eptHook sampleEnv (zydis small.toDecoder code 0x1FD0) code 0x1FD0 0x2000 with
  | error e =>
    rw [hresult] at hok
    cases hok
  | ok built => rfl

/-- The trampoline stands in its buffer. -/
theorem sampleAfter_placed {code : UInt64 → UInt8}
    (hlen : (sampleHook code).trampolineBytes.length < 2 ^ 64) :
    bytesAt (sampleAfter code) (sampleHook code).trampoline
      (sampleHook code).trampolineBytes.length = (sampleHook code).trampolineBytes := by
  unfold sampleAfter
  rw [bytesAt_store_take _ _ (Nat.le_refl _) (Nat.le_of_lt hlen), List.take_length]

/-- Memory full of `nop`. -/
def nopCode (_ : UInt64) : UInt8 := 0x90

/-- The displaced instructions there. -/
theorem displaced_nopCode (target : UInt64) (rounds : Nat) :
    ∀ overwritten, ∀ i ∈ displaced small.toDecoder nopCode target rounds overwritten, i = nop := by
  induction rounds with
  | zero => intro overwritten i hi; cases hi
  | succ rounds ih =>
    intro overwritten i hi
    rw [displaced] at hi
    split_ifs at hi with hmore
    · generalize offeredLength (offsetIntoPage target) overwritten = offered at hi
      cases offered with
      | zero => cases hi
      | succ offered =>
        have hbytes : bytesAt nopCode (target + UInt64.ofNat overwritten) (offered + 1)
            = 0x90 :: List.replicate offered 0x90 := by
          -- All that the decoder is offered are NOPs.
          rw [← List.replicate_succ]
          refine List.eq_replicate_iff.mpr ⟨length_bytesAt _ _ _, fun b hb => ?_⟩
          rcases List.mem_map.mp hb with ⟨k, _, rfl⟩
          rfl
        rw [hbytes, show small.decode (0x90 :: List.replicate offered 0x90) = some nop from rfl] at hi
        rcases List.mem_cons.mp hi with rfl | hi
        · rfl
        · exact ih _ i hi
    · cases hi

/-- A function of `nop`s. -/
theorem trampoline_iff_nops :
    SameEffect small.toDecoder nopCode (sampleAfter nopCode) 0x1FD0 (sampleHook nopCode)
      ⟨0, 0x8000, fun _ => 0⟩ :=
  (trampoline_iff small sampleEnv nopCode (sampleAfter nopCode) 0x1FD0 0x2000 (sampleHook nopCode)
    (sampleHook_eq (by decide +kernel)) (sampleAfter_placed (by decide +kernel))
    ⟨0, 0x8000, fun _ => 0⟩).mpr
    (endsSame_of_sameAt _ (sameAt_of_free _ (by
      intro i hi address address' s
      rw [displaced_nopCode 0x1FD0 maxRounds 0 i hi]
      rfl) _ _ _))

/-- Two times `lea rax, [rip]`. -/
def leaCode : UInt64 → UInt8 :=
  store nopCode 0x1FD0
    [0x48, 0x8D, 0x05, 0, 0, 0, 0, 0x48, 0x8D, 0x05, 0, 0, 0, 0]

/-- The trampoline of a function that starts with a RIP-relative operand
leaves another value in the register. -/
theorem lea_displaced :
    ¬ ∀ (ρ : Type) (dec : X86 ρ) (env : HookEnv) (before after : UInt64 → UInt8)
      (target hook : UInt64) (built : Hook),
      eptHook env (zydis dec.toDecoder before target) before target hook = .ok built →
      bytesAt after built.trampoline built.trampolineBytes.length = built.trampolineBytes →
      ∀ s, SameEffect dec.toDecoder before after target built s := by
  intro hall
  rcases hall UInt64 small sampleEnv leaCode (sampleAfter leaCode) 0x1FD0 0x2000 (sampleHook leaCode)
    (sampleHook_eq (by decide +kernel)) (sampleAfter_placed (by decide +kernel))
    ⟨0, 0x8000, fun _ => 0⟩ with ⟨rip, unhooked, hooked, hfirst, hsecond, hsame⟩
  -- RIP-relative code computes another address in the trampoline than in its
  -- place.
  have hunhooked : (exec small.toDecoder leaCode ((sampleHook leaCode).overwritten + 1)
      (sampleHook leaCode).overwritten 0x1FD0 ⟨0, 0x8000, fun _ => 0⟩).map (·.2.regs)
      = some 0x1FDE := by
    decide +kernel
  have hhooked : (exec small.toDecoder (sampleAfter leaCode)
      ((sampleHook leaCode).trampolineBytes.length + 1) (sampleHook leaCode).trampolineBytes.length
      (sampleHook leaCode).trampoline ⟨0, 0x8000, fun _ => 0⟩).map (·.2.regs) = some 0x500E := by
    decide +kernel
  rw [hfirst, Option.map_some, Option.some.injEq] at hunhooked
  rw [hsecond, Option.map_some, Option.some.injEq] at hhooked
  have hregs := hsame.regs
  rw [hunhooked, hhooked] at hregs
  exact absurd hregs (by decide)

end Revhv.Detour
