import Revhv.Km.Error
import Mathlib.Data.Fintype.Card

/-!
# `Revhv.Proofs.CrashProtocol`: one initiator, one acknowledgement a core

`CrashInv` is the invariant of `crashMachine`. It reads almost
everything off the program points: a core has acknowledged exactly when
it is past its increment, and no core gets there while the flag is
clear. `CrashInv.update` covers the steps that move one core and nothing
else, which is all but the compare-exchange, the increment and the
broadcast.

* `crashMachine_inv`: every event keeps the invariant.
* `InitiatorInv`: where a core that won the compare-exchange can be, as
  long as nothing interrupts it before its VMXOFF. An interruption
  behind the VMXOFF sends it into a loop of faulting VMXOFFs.
* `crash_protocol_safe`: the safety theorem.
* `crash_protocol_breaks`: a run that ends in `KeBugCheckEx` with one of
  two cores acknowledged, and one that parks the initiator.
-/

set_option autoImplicit false

namespace Revhv.Error

open Revhv.Lib

/-- The core is past its increment of `crash_ack_core_count`. -/
def CorePc.acked : CorePc → Bool
  | .notify | .wait | .bugcheck _ | .parked => true
  | _ => false

/-- The core is past a VMXOFF that succeeded. -/
def CorePc.pastVmxoff : CorePc → Bool
  | .restoreIdt _ | .restoreRest _ | .acknowledge _ => true
  | pc => pc.acked

/-- Where a core can be while no crash is in progress. -/
def CorePc.calm : CorePc → Bool
  | .guest | .root | .raise | .check _ => true
  | _ => false

/-- The invariant of the protocol. -/
structure CrashInv {n : Nat} (s : CrashState n) : Prop where
  calm : s.crashInProgress = false → ∀ c, s.won c = false ∧ (s.cores c).pc.calm = true
  one_initiator : ∀ c c', s.won c = true → s.won c' = true → c = c'
  off : ∀ c, (s.cores c).pc.pastVmxoff = true → (s.cores c).vmx = false
  acks_mem : ∀ c, c ∈ s.acks ↔ (s.cores c).pc.acked = true
  acks_nodup : s.acks.Nodup
  count : s.crashAckCoreCount = s.acks.length
  bugcheck : ∀ c, (s.cores c).pc = .bugcheck true → s.crashAckCoreCount = n

/-- At the start no core has raised a crash. -/
theorem crashInv_initial (n : Nat) : CrashInv (CrashState.initial n) where
  calm _ _ := ⟨rfl, rfl⟩
  one_initiator c _ h := by cases h
  off c h := by cases h
  acks_mem c := iff_of_false List.not_mem_nil (by simp [CrashState.initial, CorePc.acked])
  acks_nodup := List.nodup_nil
  count := rfl
  bugcheck c h := by cases h

section
variable {n : Nat} {s : CrashState n}

/-- Each core acknowledges at most once, so the count never exceeds the
number of cores. -/
theorem CrashInv.count_le (h : CrashInv s) : s.crashAckCoreCount ≤ n := by
  rw [h.count]
  simpa using h.acks_nodup.length_le_card

/-- A core that won has set the flag. -/
theorem CrashInv.inProgress (h : CrashInv s) {c : Fin n} (hwon : s.won c = true) :
    s.crashInProgress = true := by
  cases hflag : s.crashInProgress with
  | true => rfl
  | false =>
    have hnone := (h.calm hflag c).1
    rw [hwon] at hnone
    cases hnone

/-- A step that moves one core without passing its increment. -/
theorem CrashInv.update (h : CrashInv s) (c : Fin n) (k : Core)
    (hacked : k.pc.acked = (s.cores c).pc.acked)
    (hoff : k.pc.pastVmxoff = true → k.vmx = false)
    (hcalm : s.crashInProgress = false → k.pc.calm = true)
    (hbug : k.pc = .bugcheck true → s.crashAckCoreCount = n) :
    CrashInv { s with cores := Function.update s.cores c k } where
  calm hflag c' := by
    refine ⟨(h.calm hflag c').1, ?_⟩
    -- The changed core meets each clause by a hypothesis. The others have not
    -- moved.
    by_cases hc : c' = c
    · subst hc
      simpa using hcalm hflag
    · simpa [Function.update_of_ne hc] using (h.calm hflag c').2
  one_initiator := h.one_initiator
  off c' := by
    by_cases hc : c' = c
    · subst hc
      simpa using hoff
    · simpa [Function.update_of_ne hc] using h.off c'
  acks_mem c' := by
    by_cases hc : c' = c
    · subst hc
      simpa [hacked] using h.acks_mem c'
    · simpa [Function.update_of_ne hc] using h.acks_mem c'
  acks_nodup := h.acks_nodup
  count := h.count
  bugcheck c' := by
    by_cases hc : c' = c
    · subst hc
      simpa using hbug
    · simpa [Function.update_of_ne hc] using h.bugcheck c'

/-- `update` for a core that only changes its program point. -/
theorem CrashInv.goto (h : CrashInv s) (c : Fin n) (pc : CorePc)
    (hacked : pc.acked = (s.cores c).pc.acked)
    (hoff : pc.pastVmxoff = true → (s.cores c).pc.pastVmxoff = true)
    (hcalm : s.crashInProgress = false → pc.calm = true)
    (hbug : pc = .bugcheck true → s.crashAckCoreCount = n) : CrashInv (s.goto c pc) :=
  h.update c { s.cores c with pc := pc } hacked (fun hp => h.off c (hoff hp)) hcalm hbug

/-- A pending NMI is no part of the invariant. -/
theorem CrashInv.broadcastNmi (h : CrashInv s) (c : Fin n) : CrashInv (s.broadcastNmi c) := by
  -- An NMI that is sent changes nothing of a core but its pending flag.
  have hpc : ∀ c', ((s.broadcastNmi c).cores c').pc = (s.cores c').pc := by
    intro c'
    show (if c' = c then s.cores c' else { s.cores c' with nmiPending := true }).pc = _
    split <;> rfl
  have hvmx : ∀ c', ((s.broadcastNmi c).cores c').vmx = (s.cores c').vmx := by
    intro c'
    show (if c' = c then s.cores c' else { s.cores c' with nmiPending := true }).vmx = _
    split <;> rfl
  refine ⟨fun hflag c' => ?_, h.one_initiator, fun c' => ?_, fun c' => ?_, h.acks_nodup, h.count,
    fun c' => ?_⟩
  · rw [hpc]
    exact h.calm hflag c'
  · rw [hpc, hvmx]
    exact h.off c'
  · rw [hpc]
    exact h.acks_mem c'
  · rw [hpc]
    exact h.bugcheck c'

/-- The events of a core that touch nothing outside it. -/
theorem localEvent_inv (h : CrashInv s) {c : Fin n} {e : CoreEvent} {k : Core}
    (hev : localEvent (s.cores c) e = some k) :
    CrashInv { s with cores := Function.update s.cores c k } := by
  -- Under the hypervisor's table a core has not acknowledged.
  have hhost : (s.cores c).pc.hostIdt = true → (s.cores c).pc.acked = false := by
    cases (s.cores c).pc <;> simp [CorePc.hostIdt, CorePc.acked]
  cases e with
  | vmexit =>
    simp only [localEvent, Option.ite_none_right_eq_some, Option.some.injEq] at hev
    obtain ⟨hpc, rfl⟩ := hev
    exact h.update c _ (by rw [hpc]; rfl) (fun hp => by cases hp) (fun _ => rfl)
      (fun hp => by cases hp)
  | vmentry =>
    simp only [localEvent, Option.ite_none_right_eq_some, Option.some.injEq] at hev
    obtain ⟨hpc, rfl⟩ := hev
    exact h.update c _ (by rw [hpc]; rfl) (fun hp => by cases hp) (fun _ => rfl)
      (fun hp => by cases hp)
  | hostError =>
    simp only [localEvent, Option.ite_none_right_eq_some, Option.some.injEq] at hev
    obtain ⟨hpc, rfl⟩ := hev
    exact h.update c _ (by rw [hhost hpc]; rfl) (fun hp => by cases hp) (fun _ => rfl)
      (fun hp => by cases hp)
  | externalNmi =>
    simp only [localEvent, Option.some.injEq] at hev
    subst hev
    exact h.update c _ rfl (h.off c) (fun hflag => (h.calm hflag c).2) (h.bugcheck c)
  | deliverNmi =>
    simp only [localEvent, deliverNmi, Option.ite_none_right_eq_some] at hev
    obtain ⟨-, hev⟩ := hev
    split at hev
    · rename_i hpc
      cases hev
      exact h.update c _ (by rw [hpc]; rfl) (fun hp => by cases hp) (fun _ => rfl)
        (fun hp => by cases hp)
    · split at hev
      · rename_i hpc
        cases hev
        exact h.update c _ (by rw [hhost hpc]; rfl) (fun hp => by cases hp) (fun _ => rfl)
          (fun hp => by cases hp)
      · cases hev
        exact h.update c _ rfl (h.off c) (fun hflag => (h.calm hflag c).2) (h.bugcheck c)
  | step lapic => cases hev

/-- The winner of the compare-exchange is the first. -/
theorem CrashInv.win (h : CrashInv s) {c : Fin n} (hpc : (s.cores c).pc = .raise)
    (hflag : s.crashInProgress = false) :
    CrashInv { s.goto c (.vmxoff .initiator) with
      crashInProgress := true
      won := Function.update s.won c true } := by
  have hnone : ∀ c', Function.update s.won c true c' = true → c' = c := by
    intro c' hwon
    by_contra hne
    rw [Function.update_of_ne hne, (h.calm hflag c').1] at hwon
    cases hwon
  -- The flag is set first, in a state that is otherwise the same.
  have hset : CrashInv { s with crashInProgress := true, won := Function.update s.won c true } :=
    { h with calm := (fun hf => by cases hf)
             one_initiator := fun c1 c2 h1 h2 => (hnone c1 h1).trans (hnone c2 h2).symm }
  exact hset.goto c (.vmxoff .initiator) (by rw [hpc]; rfl) (fun hp => by cases hp)
    (fun hf => by cases hf) (fun hp => by cases hp)

/-- A core acknowledges for the first time. -/
theorem CrashInv.acknowledge (h : CrashInv s) {c : Fin n} {role : Role}
    (hpc : (s.cores c).pc = .acknowledge role) {k : Core} (hacked : k.pc.acked = true)
    (hvmx : k.vmx = (s.cores c).vmx) (hbug : k.pc ≠ .bugcheck true) :
    CrashInv { s with
      cores := Function.update s.cores c k
      crashAckCoreCount := s.crashAckCoreCount + 1
      acks := s.acks ++ [c] } := by
  -- A core acknowledges once, so it is not in the list yet.
  have hnew : c ∉ s.acks := by
    rw [h.acks_mem, hpc]
    simp [CorePc.acked]
  have hoff : (s.cores c).vmx = false := h.off c (by rw [hpc]; rfl)
  have hflag : s.crashInProgress = true := by
    cases hf : s.crashInProgress with
    | true => rfl
    | false =>
      have hcalm := (h.calm hf c).2
      rw [hpc] at hcalm
      cases hcalm
  -- With the new core there are no more names than cores, so the counter was
  -- below `n`.
  have hroom : s.crashAckCoreCount < n := by
    have hcard := (h.acks_nodup.concat hnew).length_le_card
    rw [List.concat_eq_append, List.length_append, List.length_singleton, Fintype.card_fin,
      ← h.count] at hcard
    omega
  refine ⟨fun hf => ?_, h.one_initiator, fun c' => ?_, fun c' => ?_, ?_, ?_, fun c' hc' => ?_⟩
  · rw [hflag] at hf
    cases hf
  · by_cases hc : c' = c
    · subst hc
      simp [hvmx, hoff]
    · simpa [Function.update_of_ne hc] using h.off c'
  · by_cases hc : c' = c
    · subst hc
      simp [hacked]
    · simpa [Function.update_of_ne hc, hc] using h.acks_mem c'
  · rw [← List.concat_eq_append]
    exact h.acks_nodup.concat hnew
  · simp [h.count]
  · by_cases hc : c' = c
    · subst hc
      simp only [Function.update_self] at hc'
      exact absurd hc' hbug
    · -- A core in the final bugcheck has seen all acknowledgements, and `c` was not among them.
      simp only [Function.update_of_ne hc] at hc'
      have := h.bugcheck c' hc'
      omega

/-- The steps of the protocol. -/
theorem protocolStep_inv (h : CrashInv s) {c : Fin n} {lapic : LapicAccess} {s' : CrashState n}
    (hstep : protocolStep s c lapic = some s') : CrashInv s' := by
  -- A core inside the protocol means that the flag has been set.
  have hbusy : (s.cores c).pc.calm = false → s.crashInProgress = true := by
    intro hpc
    cases hflag : s.crashInProgress with
    | true => rfl
    | false =>
      rw [(h.calm hflag c).2] at hpc
      cases hpc
  simp only [protocolStep] at hstep
  -- One case for each place in the protocol. Only the compare-exchange and the
  -- acknowledgement touch the shared words.
  split at hstep
  · rename_i hpc
    split at hstep
    · rename_i hflag
      cases hstep
      exact h.goto c _ (by rw [hpc]; rfl) (fun hp => by cases hp) (fun _ => rfl)
        (fun hp => by cases hp)
    · rename_i hflag
      cases hstep
      exact h.win hpc (by simpa using hflag)
  · rename_i resume hpc
    split at hstep
    · rename_i hflag
      cases hstep
      exact h.goto c _ (by rw [hpc]; rfl) (fun hp => by cases hp)
        (fun hf => by rw [hflag] at hf; cases hf) (fun hp => by cases hp)
    · cases resume with
      | exitHandler =>
        cases hstep
        exact h.goto c _ (by rw [hpc]; rfl) (fun hp => by cases hp) (fun _ => rfl)
          (fun hp => by cases hp)
      | root | raise =>
        cases hstep
        exact h.update c _ (by rw [hpc]; rfl) (fun hp => by cases hp) (fun _ => rfl)
          (fun hp => by cases hp)
      | noReturn => cases hstep
  · rename_i role hpc
    have hflag := hbusy (by rw [hpc]; rfl)
    split at hstep
    · cases hstep
      exact h.update c _ (by rw [hpc]; rfl) (fun _ => rfl)
        (fun hf => by rw [hflag] at hf; cases hf) (fun hp => by cases hp)
    · cases hstep
      exact h.goto c _ (by rw [hpc]; rfl) (fun hp => by cases hp) (fun _ => rfl)
        (fun hp => by cases hp)
  · rename_i role hpc
    have hflag := hbusy (by rw [hpc]; rfl)
    cases hstep
    exact h.goto c _ (by rw [hpc]; rfl) (fun _ => by rw [hpc]; rfl)
      (fun hf => by rw [hflag] at hf; cases hf) (fun hp => by cases hp)
  · rename_i role hpc
    have hflag := hbusy (by rw [hpc]; rfl)
    cases hstep
    exact h.goto c _ (by rw [hpc]; rfl) (fun _ => by rw [hpc]; rfl)
      (fun hf => by rw [hflag] at hf; cases hf) (fun hp => by cases hp)
  · rename_i role hpc
    cases hstep
    cases role <;> exact h.acknowledge hpc rfl rfl (by simp)
  · rename_i hpc
    have hflag := hbusy (by rw [hpc]; rfl)
    have hwait : CrashInv ((s.broadcastNmi c).goto c .wait) := by
      have hpc' : ((s.broadcastNmi c).cores c).pc = .notify := by
        simpa [CrashState.broadcastNmi] using hpc
      exact (h.broadcastNmi c).goto c _ (by rw [hpc']; rfl) (fun _ => by rw [hpc']; rfl)
        (fun hf => by rw [show s.crashInProgress = false from hf] at hflag; cases hflag)
        (fun hp => by cases hp)
    -- Without a mapped LAPIC the initiator cannot notify anyone and goes
    -- straight to its bugcheck.
    cases lapic with
    | unmapped =>
      cases hstep
      exact h.goto c _ (by rw [hpc]; rfl) (fun _ => by rw [hpc]; rfl)
        (fun hf => by rw [hflag] at hf; cases hf) (fun hp => by cases hp)
    | x2apic | mapped =>
      cases hstep
      exact hwait
  · rename_i hpc
    have hflag := hbusy (by rw [hpc]; rfl)
    split at hstep
    · cases hstep
      exact h
    · rename_i hall
      cases hstep
      exact h.goto c _ (by rw [hpc]; rfl) (fun _ => by rw [hpc]; rfl)
        (fun hf => by rw [hflag] at hf; cases hf)
        (fun _ => Nat.le_antisymm h.count_le (Nat.le_of_not_lt hall))
  · cases hstep

/-- Every event keeps the invariant. -/
theorem crashMachine_inv {ev : Fin n × CoreEvent} {s' : CrashState n} (h : CrashInv s)
    (hnext : (crashMachine n).next s ev = some s') : CrashInv s' := by
  obtain ⟨c, e⟩ := ev
  cases e with
  | step lapic => exact protocolStep_inv h hnext
  | vmexit | vmentry | hostError | externalNmi | deliverNmi =>
    simp only [crashMachine, Option.map_eq_some_iff] at hnext
    obtain ⟨k, hev, rfl⟩ := hnext
    exact localEvent_inv h hev

/-! ### The initiator -/

/-- The program points of a core that raised the crash and was not
interrupted. -/
def CorePc.initiating : CorePc → Bool
  | .vmxoff .initiator | .restoreIdt .initiator | .restoreRest .initiator
  | .acknowledge .initiator | .notify | .wait | .bugcheck _ => true
  | _ => false

/-- The loop of a core that was interrupted between its VMXOFF and the
load of the OS table: its next VMXOFF faults, and the fault raises the
error anew. -/
def CorePc.faulting : CorePc → Bool
  | .raise | .check _ | .vmxoff .responder => true
  | _ => false

/-- Where the winner of the compare-exchange can be. -/
def Core.initiates (k : Core) : Prop :=
  k.pc.initiating = true ∨ (k.vmx = false ∧ k.pc.faulting = true)

/-- No NMI and no host error hits a core that won the compare-exchange
before its VMXOFF. -/
def sparesInitiator (s : CrashState n) (ev : Fin n × CoreEvent) : Prop :=
  s.won ev.1 = true → (s.cores ev.1).vmx = true → ev.2 ≠ .hostError ∧ ev.2 ≠ .deliverNmi

/-- Whether an event spares the initiator shows in the state of its
core, so a run can be checked step by step. -/
instance decidableSparesInitiator (s : CrashState n) (ev : Fin n × CoreEvent) :
    Decidable (sparesInitiator s ev) := inferInstanceAs (Decidable (_ → _ → _ ∧ _))

/-- The conditional invariant: every winner initiates. -/
def InitiatorInv (s : CrashState n) : Prop :=
  ∀ c, s.won c = true → (s.cores c).initiates

/-- An event inside the winner leaves it where it can be. -/
theorem localEvent_initiates {k k' : Core} {e : CoreEvent} (hk : k.initiates)
    (hspared : k.vmx = true → e ≠ .hostError ∧ e ≠ .deliverNmi)
    (hev : localEvent k e = some k') : k'.initiates := by
  -- The initiator is past the places at which an exit or an entry can happen.
  have hinside : k.pc ≠ .guest ∧ k.pc ≠ .root := by
    constructor <;>
    · intro hpc
      rcases hk with hk | ⟨-, hk⟩ <;>
      · rw [hpc] at hk
        cases hk
  cases e with
  | vmexit =>
    simp only [localEvent, if_neg hinside.1] at hev
    cases hev
  | vmentry =>
    simp only [localEvent, if_neg hinside.2] at hev
    cases hev
  | hostError =>
    simp only [localEvent, Option.ite_none_right_eq_some, Option.some.injEq] at hev
    obtain ⟨-, rfl⟩ := hev
    -- An error with VMX on is ruled out for the initiator. With VMX off it
    -- raises again and loses the flag to itself.
    cases hvmx : k.vmx with
    | true => exact absurd rfl (hspared hvmx).1
    | false => exact Or.inr ⟨rfl, rfl⟩
  | externalNmi =>
    simp only [localEvent, Option.some.injEq] at hev
    subst hev
    exact hk
  | deliverNmi =>
    simp only [localEvent, deliverNmi, Option.ite_none_right_eq_some, if_neg hinside.1] at hev
    obtain ⟨-, hev⟩ := hev
    cases hvmx : k.vmx with
    | true => exact absurd rfl (hspared hvmx).2
    | false =>
      split at hev
      · cases hev
        exact Or.inr ⟨hvmx, rfl⟩
      · cases hev
        exact hk
  | step lapic => cases hev

/-- What the steps of core `c` leave to another core: where it is, and
whether it won. -/
theorem crashMachine_others {ev : Fin n × CoreEvent} {s' : CrashState n}
    (hnext : (crashMachine n).next s ev = some s') {c : Fin n} (hc : c ≠ ev.1) :
    s'.won c = s.won c ∧ (s'.cores c).pc = (s.cores c).pc ∧
      (s'.cores c).vmx = (s.cores c).vmx := by
  obtain ⟨c', e⟩ := ev
  cases e with
  | vmexit | vmentry | hostError | externalNmi | deliverNmi =>
    simp only [crashMachine, Option.map_eq_some_iff] at hnext
    obtain ⟨k, -, rfl⟩ := hnext
    simp [Function.update_of_ne hc]
  | step lapic =>
    simp only [crashMachine, protocolStep] at hnext
    repeat' split at hnext
    all_goals first
      | cases hnext
        simp [CrashState.goto, CrashState.broadcastNmi, hc]
      | cases hnext

/-- A step of the protocol leaves the winner where it can be. -/
theorem protocolStep_initiates (h : CrashInv s) {c : Fin n} {lapic : LapicAccess}
    {s' : CrashState n} (hs : InitiatorInv s) (hstep : protocolStep s c lapic = some s')
    (hwon : s'.won c = true) : (s'.cores c).initiates := by
  -- Either this core had won already, or this step makes it the winner.
  by_cases hbefore : s.won c = true
  · have hflag := h.inProgress hbefore
    rcases hs c hbefore with hpc | ⟨hvmx, hpc⟩
    · cases hcase : (s.cores c).pc with
      | vmxoff role =>
        rw [hcase] at hpc
        obtain rfl : role = .initiator := by
          cases role with
          | initiator => rfl
          | responder => cases hpc
        simp only [protocolStep, hcase] at hstep
        split at hstep
        · cases hstep
          simp [Core.initiates, CorePc.initiating]
        · rename_i hvmx
          cases hstep
          simp [Core.initiates, CrashState.goto, CorePc.faulting, CorePc.initiating, hvmx]
      | restoreIdt role | restoreRest role =>
        rw [hcase] at hpc
        obtain rfl : role = .initiator := by
          cases role with
          | initiator => rfl
          | responder => cases hpc
        simp only [protocolStep, hcase] at hstep
        cases hstep
        simp [Core.initiates, CrashState.goto, CorePc.initiating]
      | acknowledge role =>
        rw [hcase] at hpc
        obtain rfl : role = .initiator := by
          cases role with
          | initiator => rfl
          | responder => cases hpc
        simp only [protocolStep, hcase] at hstep
        cases hstep
        simp [Core.initiates, CorePc.initiating]
      | notify =>
        simp only [protocolStep, hcase] at hstep
        cases lapic <;>
        · cases hstep
          simp [Core.initiates, CrashState.goto, CorePc.initiating]
      | wait =>
        simp only [protocolStep, hcase] at hstep
        split at hstep
        · cases hstep
          exact Or.inl (by rw [hcase]; rfl)
        · cases hstep
          simp [Core.initiates, CrashState.goto, CorePc.initiating]
      | bugcheck notified =>
        simp only [protocolStep, hcase] at hstep
        cases hstep
      | guest | root | raise | check _ | parked =>
        rw [hcase] at hpc
        cases hpc
    · -- The faulting loop: the compare-exchange is lost, the flag is set, VMXOFF faults.
      cases hcase : (s.cores c).pc with
      | raise =>
        simp only [protocolStep, hcase, hflag, if_true] at hstep
        cases hstep
        simp [Core.initiates, CrashState.goto, CorePc.faulting, hvmx]
      | check resume =>
        simp only [protocolStep, hcase, hflag, if_true] at hstep
        cases hstep
        simp [Core.initiates, CrashState.goto, CorePc.faulting, hvmx]
      | vmxoff role =>
        simp only [protocolStep, hcase, hvmx, Bool.false_eq_true, if_false] at hstep
        cases hstep
        simp [Core.initiates, CrashState.goto, CorePc.faulting, hvmx]
      | guest | root | restoreIdt _ | restoreRest _ | acknowledge _ | notify | wait
      | bugcheck _ | parked =>
        rw [hcase] at hpc
        cases hpc
  · -- The step that wins is the compare-exchange.
    cases hcase : (s.cores c).pc with
    | raise =>
      simp only [protocolStep, hcase] at hstep
      split at hstep
      · cases hstep
        exact absurd hwon hbefore
      · cases hstep
        simp [Core.initiates, CrashState.goto, CorePc.initiating]
    | check resume =>
      refine absurd (Eq.trans ?_ hwon) hbefore
      simp only [protocolStep, hcase] at hstep
      split at hstep
      · cases hstep
        rfl
      · cases resume <;>
        · cases hstep
          try rfl
    | vmxoff role | wait =>
      refine absurd (Eq.trans ?_ hwon) hbefore
      simp only [protocolStep, hcase] at hstep
      split at hstep <;>
      · cases hstep
        rfl
    | restoreIdt role | restoreRest role | acknowledge role =>
      refine absurd (Eq.trans ?_ hwon) hbefore
      simp only [protocolStep, hcase] at hstep
      cases hstep
      rfl
    | notify =>
      refine absurd (Eq.trans ?_ hwon) hbefore
      simp only [protocolStep, hcase] at hstep
      cases lapic <;>
      · cases hstep
        rfl
    | guest | root | bugcheck _ | parked =>
      simp only [protocolStep, hcase] at hstep
      cases hstep

/-- An event that spares the initiator keeps the winner where it can be. -/
theorem crashMachine_initiatorInv {ev : Fin n × CoreEvent} {s' : CrashState n} (h : CrashInv s)
    (hs : InitiatorInv s) (hspares : sparesInitiator s ev)
    (hnext : (crashMachine n).next s ev = some s') : InitiatorInv s' := by
  intro c hwon
  by_cases hc : c = ev.1
  · obtain ⟨c', e⟩ := ev
    obtain rfl : c = c' := hc
    cases e with
    | step lapic => exact protocolStep_initiates h hs hnext hwon
    | vmexit | vmentry | hostError | externalNmi | deliverNmi =>
      simp only [crashMachine, Option.map_eq_some_iff] at hnext
      obtain ⟨k, hev, rfl⟩ := hnext
      simpa using localEvent_initiates (hs c hwon) (hspares hwon) hev
  · obtain ⟨hw, hpc, hvmx⟩ := crashMachine_others hnext hc
    rw [Core.initiates, hpc, hvmx]
    exact hs c (hw ▸ hwon)

end

/-! ### Safety -/

/-- What the protocol guarantees in every state: one initiator at most,
a count that is the number of cores that devirtualized and acknowledged,
each once, and no `KeBugCheckEx` behind the busy wait before all cores
have. -/
structure CrashSafe {n : Nat} (s : CrashState n) : Prop where
  one_initiator : ∀ c c', s.won c = true → s.won c' = true → c = c'
  count : s.crashAckCoreCount = s.acks.length
  acks_nodup : s.acks.Nodup
  devirtualized : ∀ c ∈ s.acks, (s.cores c).vmx = false ∧ (s.cores c).pc.hostIdt = false
  bugcheck : ∀ c, (s.cores c).pc = .bugcheck true → s.crashAckCoreCount = n

/-- The invariant gives the guarantees of the protocol. -/
theorem CrashInv.safe {n : Nat} {s : CrashState n} (h : CrashInv s) : CrashSafe s where
  one_initiator := h.one_initiator
  count := h.count
  acks_nodup := h.acks_nodup
  devirtualized c hc := by
    have hacked := (h.acks_mem c).mp hc
    refine ⟨h.off c ?_, ?_⟩ <;>
    · cases hpc : (s.cores c).pc <;> simp_all [CorePc.acked, CorePc.pastVmxoff, CorePc.hostIdt]
  bugcheck := h.bugcheck

/-- **The crash protocol.** In every run the guarantees of `CrashSafe`
hold, and in every run that spares the initiator before its VMXOFF, the
initiator is never parked. -/
theorem crash_protocol_safe {n : Nat} (es : List (Fin n × CoreEvent)) {s : CrashState n}
    (hrun : (crashMachine n).run (CrashState.initial n) es = some s) :
    CrashSafe s ∧
      ((crashMachine n).Along sparesInitiator (CrashState.initial n) es →
        ∀ c, s.won c = true → (s.cores c).pc ≠ .parked) := by
  refine ⟨((crashMachine n).invariant_of_run (fun _ _ _ h hnext => crashMachine_inv h hnext)
    (crashInv_initial n) hrun).safe, fun hspares c hwon hparked => ?_⟩
  have hboth := (crashMachine n).invariant_of_along (I := fun s => CrashInv s ∧ InitiatorInv s)
    (fun _ _ _ h hok hnext =>
      ⟨crashMachine_inv h.1 hnext, crashMachine_initiatorInv h.1 h.2 hok hnext⟩)
    ⟨crashInv_initial n, fun c hwon => by cases hwon⟩ hspares hrun
  rcases hboth.2 c hwon with hpc | ⟨-, hpc⟩ <;>
  · rw [hparked] at hpc
    cases hpc

/-! ### Two cores -/

/-- Core 0 raises a crash, devirtualizes and acknowledges. -/
def raiseRun : List (Fin 2 × CoreEvent) :=
  [(0, .vmexit), (0, .hostError), (0, .step .mapped), (0, .step .mapped), (0, .step .mapped),
   (0, .step .mapped), (0, .step .mapped)]

/-- After `raiseRun`, core 1 fails too and loses the compare-exchange,
core 0 is hit by an NMI that the OS handles, and core 1 acknowledges and
hangs. -/
def followRun : List (Fin 2 × CoreEvent) :=
  [(1, .vmexit), (1, .hostError), (0, .step .mapped), (1, .step .mapped), (1, .step .mapped),
   (0, .externalNmi), (1, .step .mapped), (0, .deliverNmi), (0, .step .mapped),
   (1, .step .mapped), (1, .step .mapped), (1, .step .mapped), (0, .step .mapped)]

/-- The protocol from a crash up to `KeBugCheckEx`. Nothing hits the
initiator before its VMXOFF, so it is not parked, and all cores have
acknowledged. -/
theorem crash_protocol_safe_raiseRun : ∃ s,
    (crashMachine 2).run (CrashState.initial 2) (raiseRun ++ followRun) = some s ∧ CrashSafe s ∧
      (∀ c, s.won c = true → (s.cores c).pc ≠ .parked) ∧
      s.won 0 = true ∧ (s.cores 0).pc = .bugcheck true ∧ (s.cores 1).pc = .parked ∧
      s.acks = [0, 1] := by
  obtain ⟨hsafe, hinitiator⟩ := crash_protocol_safe (raiseRun ++ followRun) rfl
  exact ⟨_, rfl, hsafe, hinitiator (by decide +kernel), rfl, rfl, rfl, rfl⟩

/-- An NMI hits core 0 behind its compare-exchange, while the
hypervisor's interrupt table is still loaded. -/
def nmiRun : List (Fin 2 × CoreEvent) :=
  [(0, .vmexit), (0, .externalNmi), (0, .hostError), (0, .step .mapped), (0, .deliverNmi),
   (0, .step .mapped), (0, .step .mapped), (0, .step .mapped), (0, .step .mapped),
   (0, .step .mapped)]

/-- When the LAPIC cannot be mapped, core 0 calls `KeBugCheckEx` as the
only core of two that acknowledged. Under `nmiRun` core 0 is the
initiator and ends up parked. -/
theorem crash_protocol_breaks :
    (∃ s, (crashMachine 2).run (CrashState.initial 2) (raiseRun ++ [(0, .step .unmapped)]) =
        some s ∧ (s.cores 0).pc = .bugcheck false ∧ s.crashAckCoreCount ≠ 2) ∧
    ∃ s, (crashMachine 2).run (CrashState.initial 2) nmiRun = some s ∧
      s.won 0 = true ∧ (s.cores 0).pc = .parked :=
  ⟨⟨_, rfl, rfl, by decide⟩, ⟨_, rfl, rfl, rfl⟩⟩

end Revhv.Error
