import Revhv.Proofs.TraceQueue

/-!
# `Revhv.Proofs.TraceRing`: the ring under one producer and one consumer

`RingInv` is the invariant of `ringMachine`. It counts absolutely: the
indices are the counts of published and released entries modulo the
slot count, and the private tail of a `drain` under way is the count of
copied entries modulo the slot count. Every modular test of the code
then reads as a comparison of counts, through the lemmas of
`Revhv.Lib.Ring`.

* `emitStep_inv` / `drainStep_inv`: one memory step of either side
  keeps it. The producer's case that matters is a field store: it goes
  to the slot of count `published`, which no unreleased entry shares.
  The consumer's case that matters is a field load: the slot still
  holds the entry of count `copied`, because releasing happens only at
  the end of the batch.
* `ring_copied_prefix`: what the consumer copied is a prefix of what the
  producer published, a drop means 8191 unreleased entries, and both
  indices stay below 8192.
-/

set_option autoImplicit false

namespace Revhv.Trace

open Revhv.Lib

/-- The producer's part of the invariant. `p` and `r` count the
published and the released entries. -/
def EmitPc.Ok (buf : RingBuffer) (p r : Nat) : EmitPc → Prop
  | .idle | .checkActive _ | .readHead _ => True
  | .readTail _ head => head = p % ringBufferEntryCount
  | .fill e head k =>
      head = p % ringBufferEntryCount ∧ p + 1 < r + ringBufferEntryCount ∧
        k ≤ Entry.fieldCount ∧ ∃ old, buf.entries head = e.storeFields k old

/-- The consumer's part of the invariant. `c` counts the copied entries. -/
def DrainPc.Ok (published : List Entry) (c r : Nat) : DrainPc → Prop
  | .idle | .readTail _ _ => c = r
  | .test _ _ out tail | .publish out tail =>
      tail = c % ringBufferEntryCount ∧ r + out.length = c
  | .copy _ _ out tail part k =>
      tail = c % ringBufferEntryCount ∧ r + out.length = c ∧ k ≤ Entry.fieldCount ∧
        ∃ (h : c < published.length) (old : Entry), part = (published[c]).storeFields k old

/-- The invariant of the ring machine. -/
structure RingInv (s : RingState) : Prop where
  active : s.buf.active = true
  head : s.buf.writeHead = s.published.length % ringBufferEntryCount
  tail : s.buf.readTail = s.released % ringBufferEntryCount
  released_le : s.released ≤ s.copied.length
  copied_le : s.copied.length ≤ s.published.length
  room : s.published.length < s.released + ringBufferEntryCount
  slots : ∀ i (h : i < s.published.length), s.released ≤ i →
    s.buf.entries (i % ringBufferEntryCount) = s.published[i]
  prefix_eq : s.copied = s.published.take s.copied.length
  emitOk : s.emitPc.Ok s.buf s.published.length s.released
  drainOk : s.drainPc.Ok s.published s.copied.length s.released
  drops : ∀ d ∈ s.drops, d = ringBufferEntryCount - 1

/-- At the start nothing has been emitted or copied. -/
theorem ringInv_initial (entries : Nat → Entry) : RingInv (RingState.initial entries) where
  active := rfl
  head := rfl
  tail := rfl
  released_le := Nat.le_refl _
  copied_le := Nat.le_refl _
  room := by simp [RingState.initial, ringBufferEntryCount]
  slots i h := absurd h (Nat.not_lt_zero i)
  prefix_eq := rfl
  emitOk := trivial
  drainOk := rfl
  drops d h := absurd h List.not_mem_nil

/-- The consumer's part does not mind further published entries. -/
theorem DrainPc.Ok.append {published : List Entry} {c r : Nat} {pc : DrainPc} (e : Entry)
    (h : pc.Ok published c r) : pc.Ok (published ++ [e]) c r := by
  cases pc with
  | idle | readTail _ _ | test _ _ _ _ | publish _ _ => exact h
  | copy _ _ out tail part k =>
      obtain ⟨htail, hout, hk, hc, old, hpart⟩ := h
      refine ⟨htail, hout, hk, by rw [List.length_append]; omega, old, ?_⟩
      rw [hpart, List.getElem_append_left hc]

/-- The producer's part does not mind released slots. -/
theorem EmitPc.Ok.mono {buf : RingBuffer} {p r r' : Nat} {pc : EmitPc} (hr : r ≤ r')
    (h : pc.Ok buf p r) : pc.Ok buf p r' := by
  cases pc with
  | idle | checkActive _ | readHead _ | readTail _ _ => exact h
  | fill e head k =>
      obtain ⟨hhead, hroom, hk, hold⟩ := h
      exact ⟨hhead, by omega, hk, hold⟩

/-- One more field store extends the stored prefix. -/
theorem storeFields_step {e x old : Entry} {k : Nat} (h : x = e.storeFields k old) :
    e.storeField k x = e.storeFields (k + 1) old := by
  rw [h, Entry.storeFields_succ]

/-- One memory step of the producer keeps the invariant. -/
theorem emitStep_inv {s s' : RingState} (hs : RingInv s) (h : emitStep s = some s') :
    RingInv s' := by
  have hemit := hs.emitOk
  cases hpc : s.emitPc with
  | idle =>
      rw [emitStep, hpc] at h
      cases h
  | checkActive e =>
      rw [emitStep, hpc] at h
      cases h
      exact { hs with emitOk := by simp only [hs.active, if_true]; trivial }
  | readHead e =>
      rw [emitStep, hpc] at h
      cases h
      exact { hs with emitOk := hs.head }
  | readTail e head =>
      rw [hpc] at hemit
      have hhead : head = s.published.length % ringBufferEntryCount := hemit
      have hreleased := Nat.le_trans hs.released_le hs.copied_le
      -- The test of `next` against `read_tail` is a comparison of counts.
      have hfull : nextIndex head = s.buf.readTail
          ↔ s.published.length + 1 = s.released + ringBufferEntryCount := by
        have hk : s.published.length - s.released < ringBufferEntryCount := by
          have := hs.room; omega
        have hiff := Ring.succ_mod_eq_iff (t := s.released) hk
        have hsum : s.released + (s.published.length - s.released) = s.published.length := by
          omega
        rw [hsum] at hiff
        rw [nextIndex_eq_mod, hhead, Nat.mod_add_mod, hs.tail, hiff]
        omega
      rw [emitStep, hpc] at h
      dsimp only at h
      split at h
      · rename_i hnext
        cases h
        have hcount := hfull.mp hnext
        refine { hs with emitOk := trivial, drops := fun d hd => ?_ }
        rcases List.mem_append.mp hd with hd | hd
        · exact hs.drops d hd
        · rw [List.mem_singleton.mp hd]
          omega
      · rename_i hnext
        cases h
        have hroom : s.published.length + 1 < s.released + ringBufferEntryCount := by
          have hne := fun hc => hnext (hfull.mpr hc)
          have := hs.room
          omega
        exact { hs with emitOk := ⟨hhead, hroom, Nat.zero_le _, _, rfl⟩ }
  | fill e head k =>
      rw [hpc] at hemit
      obtain ⟨hhead, hroom, hk, old, hold⟩ := hemit
      rw [emitStep, hpc] at h
      dsimp only at h
      split at h
      · -- A field store: the slot of count `published` is no unreleased entry's slot.
        cases h
        refine { hs with
          slots := fun i hi hri => ?_
          emitOk := ⟨hhead, hroom, by omega, old, ?_⟩ }
        · dsimp only at hi hri ⊢
          have hne : i % ringBufferEntryCount ≠ head := by
            rw [hhead]
            intro hmod
            have := Ring.eq_of_mod_eq (Nat.le_of_lt hi) (by omega) hmod
            omega
          rw [Function.update_of_ne hne]
          exact hs.slots i hi hri
        · dsimp only
          rw [Function.update_self]
          exact storeFields_step hold
      · -- The publishing store: the slot now holds all of the entry.
        cases h
        have hk10 : k = Entry.fieldCount := by omega
        have hfull : s.buf.entries head = e := by
          rw [hold, hk10, Entry.storeFields_all]
        have hlen : (s.published ++ [e]).length = s.published.length + 1 := by simp
        refine {
          active := hs.active
          head := ?_
          tail := hs.tail
          released_le := hs.released_le
          copied_le := by rw [hlen]; exact Nat.le_succ_of_le hs.copied_le
          room := by rw [hlen]; exact hroom
          slots := fun i hi hri => ?_
          prefix_eq := ?_
          emitOk := trivial
          drainOk := hs.drainOk.append e
          drops := hs.drops }
        · dsimp only
          rw [hlen, nextIndex_eq_mod, hhead, Nat.mod_add_mod]
        · dsimp only
          rw [hlen] at hi
          by_cases hlast : i = s.published.length
          · subst hlast
            rw [← hhead, hfull]
            simp
          · have hi' : i < s.published.length := by omega
            rw [hs.slots i hi' hri, List.getElem_append_left hi']
        · dsimp only
          rw [List.take_append_of_le_length hs.copied_le]
          exact hs.prefix_eq

/-- One memory step of the consumer keeps the invariant. -/
theorem drainStep_inv {s s' : RingState} (hs : RingInv s) (h : drainStep s = some s') :
    RingInv s' := by
  have hdrain := hs.drainOk
  cases hpc : s.drainPc with
  | idle =>
      rw [drainStep, hpc] at h
      cases h
  | readTail maxEntries scratch =>
      rw [hpc] at hdrain
      have hcr : s.copied.length = s.released := hdrain
      rw [drainStep, hpc] at h
      cases h
      exact { hs with drainOk := ⟨by rw [hcr]; exact hs.tail, hcr.symm⟩ }
  | test maxEntries scratch out tail =>
      rw [hpc] at hdrain
      obtain ⟨htail, hout⟩ := hdrain
      rw [drainStep, hpc] at h
      dsimp only at h
      split at h
      · rename_i hgo
        cases h
        -- The head differs from the private tail, so an entry waits there.
        have hlt : s.copied.length < s.published.length := by
          rcases Nat.lt_or_ge s.copied.length s.published.length with hlt | hge
          · exact hlt
          · have heq : s.copied.length = s.published.length :=
              Nat.le_antisymm hs.copied_le hge
            exact absurd (by rw [htail, hs.head, heq]) hgo.2
        exact { hs with
          drainOk := ⟨htail, hout, Nat.zero_le _, hlt, scratch out.length, rfl⟩ }
      · cases h
        exact { hs with drainOk := ⟨htail, hout⟩ }
  | copy maxEntries scratch out tail part k =>
      rw [hpc] at hdrain
      obtain ⟨htail, hout, hk, hlt, old, hpart⟩ := hdrain
      rw [drainStep, hpc] at h
      dsimp only at h
      split at h
      · -- A field load: the slot has not been released, so it still holds the entry.
        cases h
        have hslot : s.buf.entries tail = s.published[s.copied.length] := by
          rw [htail]
          exact hs.slots _ hlt hs.released_le
        refine { hs with drainOk := ⟨htail, hout, by omega, hlt, old, ?_⟩ }
        rw [hslot]
        exact storeFields_step hpart
      · cases h
        have hk10 : k = Entry.fieldCount := by omega
        have hpart' : part = s.published[s.copied.length] := by
          rw [hpart, hk10, Entry.storeFields_all]
        have hlen : (s.copied ++ [part]).length = s.copied.length + 1 := by simp
        refine { hs with
          released_le := by rw [hlen]; exact Nat.le_succ_of_le hs.released_le
          copied_le := by rw [hlen]; exact hlt
          prefix_eq := ?_
          drainOk := ⟨?_, ?_⟩ }
        · dsimp only
          rw [hlen, List.take_succ_eq_append_getElem hlt, ← hs.prefix_eq, hpart']
        · rw [hlen, nextIndex_eq_mod, htail, Nat.mod_add_mod]
        · rw [hlen, List.length_append, List.length_singleton, ← Nat.add_assoc, hout]
  | publish out tail =>
      rw [hpc] at hdrain
      obtain ⟨htail, hout⟩ := hdrain
      rw [drainStep, hpc] at h
      cases h
      have hcopied := hs.copied_le
      have hroom := hs.room
      exact { hs with
        tail := by dsimp only; rw [htail, hout]
        released_le := by dsimp only; omega
        room := by dsimp only; omega
        slots := fun i hi hri => hs.slots i hi (by dsimp only at hri; omega)
        emitOk := hs.emitOk.mono (Nat.le_add_right _ _)
        drainOk := hout.symm }

/-- Every event of the ring machine keeps the invariant. -/
theorem ringMachine_inv (s : RingState) (e : RingEvent) (s' : RingState) (hs : RingInv s)
    (h : ringMachine.next s e = some s') : RingInv s' := by
  cases e with
  | emit e =>
      dsimp only [ringMachine] at h
      -- A call begins only where the same side is idle.
      split at h
      · cases h
        exact { hs with emitOk := trivial }
      · cases h
  | emitStep => exact emitStep_inv hs h
  | drain maxEntries scratch =>
      dsimp only [ringMachine] at h
      split at h
      · rename_i hpc
        cases h
        have hidle := hs.drainOk
        rw [hpc] at hidle
        exact { hs with drainOk := hidle }
      · cases h
  | drainStep => exact drainStep_inv hs h

/-- The ring under every interleaving of one producer's and one
consumer's memory steps. What the consumer has copied out is a prefix of
what the producer has published, so no entry is lost, repeated,
reordered or torn. An entry is dropped only with 8191 published entries
not yet released. Both indices stay below 8192. -/
theorem ring_copied_prefix (entries : Nat → Entry) (es : List RingEvent) (s : RingState)
    (hrun : ringMachine.run (RingState.initial entries) es = some s) :
    s.copied <+: s.published ∧
      (∀ d ∈ s.drops, d = 8191) ∧
      s.buf.writeHead < 8192 ∧ s.buf.readTail < 8192 := by
  have hinv : RingInv s :=
    ringMachine.invariant_of_run ringMachine_inv (ringInv_initial entries) hrun
  refine ⟨?_, hinv.drops, ?_, ?_⟩
  · rw [hinv.prefix_eq]
    exact List.take_prefix _ _
  · rw [hinv.head]
    exact Nat.mod_lt _ (by decide)
  · rw [hinv.tail]
    exact Nat.mod_lt _ (by decide)

/-- One entry goes through the ring, step by step, and comes out. -/
theorem ring_copied_prefix_oneEntry : ∃ es s,
    ringMachine.run (RingState.initial fun _ => makeEntry .invalid 0 0 fun _ => 0) es = some s ∧
    s.copied = [makeEntry .eptTargetTransition 1 7 fun _ => 5] ∧
    s.copied <+: s.published ∧ (∀ d ∈ s.drops, d = 8191) ∧
    s.buf.writeHead < 8192 ∧ s.buf.readTail < 8192 := by
  obtain ⟨k, s, hemit, -, hbuf, hcopied, hdrainPc, -⟩ := emit_steps
    (s := RingState.initial fun _ => makeEntry .invalid 0 0 fun _ => 0) rfl .eptTargetTransition 1 7
    fun _ => 5
  obtain ⟨l, s', hdrain, -, -, hcopied'⟩ :=
    drain_steps (hdrainPc.trans rfl) 4 fun _ => makeEntry .invalid 0 0 fun _ => 0
  have hrun := (ringMachine.run_append_of_eq hemit _).trans hdrain
  refine ⟨_, s', hrun, ?_, ring_copied_prefix _ _ s' hrun⟩
  rw [hcopied', hcopied, hbuf]
  rfl

end Revhv.Trace
