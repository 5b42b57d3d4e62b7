import Revhv.Km.Onload
import Revhv.Lib.CriticalSection

/-!
# `Revhv.Proofs.Onload`: set, clear and the loads in between

Match and disarm are one critical section, so a target triggers once and
no load takes away a newer one. The enabling calls come later. A load
can match, lose the processor, and enable the auto-trace when a clear or
a newer set has long returned.

* `OnloadInv` is kept by every step, `OnloadSettled` by the steps that
  meet `ReturnsSettled`.
* `onload_contract`: what the users of the target may rely on, in every
  run in which no call returns while a load that has matched an older
  target still has enabling calls to make.
* `clear_too_early`: a run in which a clear does.
-/

set_option autoImplicit false

namespace Revhv.Onload

open Revhv.Lib

/-! ### The property -/

/-- An enabling call that comes after a return belongs to no older
target. After the return of a clear it belongs to a later set. -/
def Ordered : Note → Note → Prop
  | .setReturned k, .enabled _ j => k ≤ j
  | .clearReturned k, .enabled _ j => k < j
  | _, _ => True

/-- What the users of the target may rely on. -/
structure OnloadContract (s : OnloadState) : Prop where
  /-- Each set triggers at most once. -/
  once : ∀ k, s.notes.count (.triggered k) ≤ 1
  /-- Only a target that was set triggers, and nothing else enables the
  auto-trace. -/
  fromSet : ∀ core k, .enabled core k ∈ s.notes →
    .triggered k ∈ s.notes ∧ ∃ name, .armed k name ∈ s.notes
  /-- The target of the latest call is in place, unless a load has
  matched that very one. -/
  inPlace : s.locked = false → ∀ name, s.last = some name →
    s.name = name ∧ (s.active = true ∨ .triggered s.calls ∈ s.notes)
  /-- The enabling calls are in order with the returns. -/
  ordered : s.notes.Pairwise Ordered

/-- The call that returns in the next step. -/
def OnloadPc.returning : OnloadPc → Option Nat
  | .setReturn k | .clearReturn k => some k
  | _ => none

/-- The target of a load that still has enabling calls to make. -/
def OnloadPc.toEnable (n : Nat) : OnloadPc → Option Nat
  | .loadDisarm image k | .loadUnlock image (some k) => if image.traceable then some k else none
  | .enable _ k core => if core < n then some k else none
  | _ => none

/-- No call returns while a load that has matched an older target still
has enabling calls to make. -/
def ReturnsSettled (n : Nat) (s : OnloadState) (ev : Nat × OnloadEvent) : Prop :=
  ∀ k, (s.pc ev.1).returning = some k → ∀ t j, (s.pc t).toEnable n = some j → k ≤ j

/-! ### The invariant -/

/-- The lock is held at these points. -/
def OnloadPc.inside : OnloadPc → Bool
  | .setName _ | .setActive _ | .setUnlock _ | .clearActive | .clearName _ | .clearUnlock _ |
    .loadTest _ _ | .loadDisarm _ _ | .loadUnlock _ _ => true
  | _ => false

/-- Call `k` was a clear. -/
def OnloadState.Clears (s : OnloadState) (k : Nat) : Prop :=
  k ≤ s.calls ∧ ∀ name, .armed k name ∉ s.notes

/-- The target of the latest call is in place. -/
def OnloadState.InPlace (s : OnloadState) : Prop :=
  ∀ name, s.last = some name →
    s.name = name ∧ (s.active = true ∨ .triggered s.calls ∈ s.notes)

/-- What holds at a program point. -/
def OnloadState.At (s : OnloadState) : OnloadPc → Prop
  | .setActive name => s.name = name
  | .setUnlock k | .setReturn k => k ≤ s.calls
  | .clearName k => s.last = none ∧ s.Clears k
  | .clearUnlock k | .clearReturn k => s.Clears k
  | .loadDisarm _ k => s.active = true ∧ k = s.calls
  | .loadUnlock _ (some k) | .enable _ k _ => .triggered k ∈ s.notes
  | _ => True

/-- The invariant of every run. -/
structure OnloadInv (s : OnloadState) : Prop where
  exclusive : Exclusive OnloadPc.inside s.locked s.pc
  holds : ∀ t, s.At (s.pc t)
  inPlace : (∀ t name, s.pc t ≠ .setActive name) → s.InPlace
  fresh : s.active = true → .triggered s.calls ∉ s.notes ∧ ∃ name, .armed s.calls name ∈ s.notes
  triggered : ∀ k, .triggered k ∈ s.notes → k ≤ s.calls ∧ ∃ name, .armed k name ∈ s.notes
  once : ∀ k, s.notes.count (.triggered k) ≤ 1
  enabled : ∀ core k, .enabled core k ∈ s.notes → .triggered k ∈ s.notes
  armed : ∀ k name, .armed k name ∈ s.notes → k ≤ s.calls
  setReturned : ∀ k, .setReturned k ∈ s.notes → k ≤ s.calls
  clearReturned : ∀ k, .clearReturned k ∈ s.notes → s.Clears k

/-- At the start no target is set. -/
theorem onloadInv_initial : OnloadInv .initial where
  exclusive := ⟨fun _ _ => rfl, fun _ _ h => by cases h⟩
  holds _ := trivial
  inPlace _ _ h := by cases h
  fresh h := by cases h
  triggered _ h := absurd h List.not_mem_nil
  once _ := Nat.zero_le 1
  enabled _ _ h := absurd h List.not_mem_nil
  armed _ _ h := absurd h List.not_mem_nil
  setReturned _ h := absurd h List.not_mem_nil
  clearReturned _ h := absurd h List.not_mem_nil

section
variable {s : OnloadState}

/-- A note is added to those there are. -/
@[simp] theorem mem_note {n m : Note} : m ∈ (s.note n).notes ↔ m ∈ s.notes ∨ m = n := by
  simp [OnloadState.note]

/-- A thread that is not in the critical section relies only on what has
happened, and nothing that has happened is undone. -/
theorem At.mono {s s' : OnloadState} {pc : OnloadPc} (houtside : pc.inside = false)
    (hcalls : s.calls ≤ s'.calls) (hnotes : ∀ n ∈ s.notes, n ∈ s'.notes)
    (harmed : ∀ k name, k ≤ s.calls → .armed k name ∈ s'.notes → .armed k name ∈ s.notes)
    (h : s.At pc) : s'.At pc := by
  cases pc with
  | setReturn k => exact Nat.le_trans h hcalls
  | clearReturn k =>
    exact ⟨Nat.le_trans h.1 hcalls, fun name hmem => h.2 name (harmed k name h.1 hmem)⟩
  | enable image k core => exact hnotes _ h
  | idle => trivial
  | setLock name => trivial
  | clearLock => trivial
  | loadLock image name => trivial
  | _ => cases houtside

/-- What holds at the points of all threads when one of them has moved. -/
theorem At.update (s' : OnloadState) {t : Nat} {pc : OnloadPc} (hself : s'.At pc)
    (hothers : ∀ t', t' ≠ t → s'.At (s.pc t')) (t' : Nat) :
    s'.At (Function.update s.pc t pc t') := by
  by_cases ht : t' = t
  · rw [ht, Function.update_self]
    exact hself
  · rw [Function.update_of_ne ht]
    exact hothers t' ht

/-! ### Kinds of steps -/

/-- A step that moves one thread and at most takes or gives back the
lock. -/
theorem OnloadInv.move (h : OnloadInv s) {t : Nat} {pc : OnloadPc} {locked : Bool}
    (hexclusive : Exclusive OnloadPc.inside locked (Function.update s.pc t pc)) (hat : s.At pc)
    (hfrom : ∀ name, s.pc t ≠ .setActive name) :
    OnloadInv { s.goto t pc with locked } where
  exclusive := hexclusive
  holds := At.update { s.goto t pc with locked } hat fun t' _ => h.holds t'
  inPlace hno := by
    apply h.inPlace
    -- Any other thread at `setActive` was already there.
    intro t' name heq
    by_cases ht : t' = t
    · exact hfrom name (ht ▸ heq)
    · apply hno t' name
      show Function.update s.pc t pc t' = _
      rw [Function.update_of_ne ht, heq]
  fresh := h.fresh
  triggered := h.triggered
  once := h.once
  enabled := h.enabled
  armed := h.armed
  setReturned := h.setReturned
  clearReturned := h.clearReturned

/-- A step that stays on its side of the lock. -/
theorem OnloadInv.goto (h : OnloadInv s) {t : Nat} {pc : OnloadPc}
    (hside : pc.inside = (s.pc t).inside) (hat : s.At pc)
    (hfrom : ∀ name, s.pc t ≠ .setActive name) :
    OnloadInv (s.goto t pc) :=
  h.move (h.exclusive.move hside) hat hfrom

/-- A thread tries to take the lock. -/
theorem OnloadInv.acquire (h : OnloadInv s) {t : Nat} {pc : OnloadPc} (hat : s.At pc)
    (hfrom : ∀ name, s.pc t ≠ .setActive name) :
    OnloadInv (s.acquire t pc) := by
  unfold OnloadState.acquire
  split
  · exact h
  · rename_i hfree
    exact h.move (h.exclusive.enter (Bool.eq_false_iff.mpr hfree) t pc) hat hfrom

/-- A thread gives the lock back. -/
theorem OnloadInv.release (h : OnloadInv s) {t : Nat} {pc : OnloadPc}
    (hinside : (s.pc t).inside = true) (houtside : pc.inside = false) (hat : s.At pc)
    (hfrom : ∀ name, s.pc t ≠ .setActive name) :
    OnloadInv (s.release t pc) :=
  h.move (h.exclusive.leave hinside houtside) hat hfrom

/-- What a thread may report outside the lock. -/
def OnloadState.Reports (s : OnloadState) : Note → Prop
  | .setReturned k => k ≤ s.calls
  | .clearReturned k => s.Clears k
  | .enabled _ k => .triggered k ∈ s.notes
  | .armed _ _ | .triggered _ => False

/-- A report adds no target and no trigger. -/
theorem Clears.note {n : Note} (hn : s.Reports n) {k : Nat} (h : s.Clears k) :
    (s.note n).Clears k := by
  refine ⟨h.1, fun name hmem => ?_⟩
  rcases mem_note.mp hmem with hold | rfl
  · exact h.2 name hold
  · exact hn

/-- A note leaves a thread where it is. -/
theorem At.note {n : Note} (hn : s.Reports n) {pc : OnloadPc} (h : s.At pc) :
    (s.note n).At pc := by
  cases pc with
  | clearName k => exact ⟨h.1, Clears.note hn h.2⟩
  | clearUnlock k => exact Clears.note hn h
  | clearReturn k => exact Clears.note hn h
  | loadUnlock image trigger =>
    cases trigger with
    | none => trivial
    | some k => exact mem_note.mpr (Or.inl h)
  | enable image k core => exact mem_note.mpr (Or.inl h)
  | _ => exact h

/-- A step that only reports. -/
theorem OnloadInv.note (h : OnloadInv s) {n : Note} (hn : s.Reports n) : OnloadInv (s.note n) where
  exclusive := h.exclusive
  holds t := At.note hn (h.holds t)
  -- A report changes no field of the trigger, only what the threads may still
  -- owe.
  inPlace hno name hlast := by
    obtain ⟨hname, hactive⟩ := h.inPlace hno name hlast
    exact ⟨hname, hactive.imp_right fun hmem => mem_note.mpr (Or.inl hmem)⟩
  fresh hactive := by
    obtain ⟨hnot, name, harmed⟩ := h.fresh hactive
    refine ⟨fun hmem => ?_, name, mem_note.mpr (Or.inl harmed)⟩
    rcases mem_note.mp hmem with hold | heq
    · exact hnot hold
    · rw [← heq] at hn
      exact hn
  triggered k hmem := by
    rcases mem_note.mp hmem with hold | rfl
    · obtain ⟨hle, name, harmed⟩ := h.triggered k hold
      exact ⟨hle, name, mem_note.mpr (Or.inl harmed)⟩
    · exact absurd hn id
  -- No report is itself a trigger: that note is made where the load disarms.
  once k := by
    have hne : n ≠ .triggered k := by
      rintro rfl
      exact hn
    simp only [OnloadState.note, List.count_append, List.count_singleton, beq_iff_eq, hne,
      if_false]
    exact h.once k
  enabled core k hmem := by
    rcases mem_note.mp hmem with hold | rfl
    · exact mem_note.mpr (Or.inl (h.enabled core k hold))
    · exact mem_note.mpr (Or.inl hn)
  armed k name hmem := by
    rcases mem_note.mp hmem with hold | rfl
    · exact h.armed k name hold
    · exact absurd hn id
  setReturned k hmem := by
    rcases mem_note.mp hmem with hold | rfl
    · exact h.setReturned k hold
    · exact hn
  clearReturned k hmem := by
    rcases mem_note.mp hmem with hold | rfl
    · exact Clears.note hn (h.clearReturned k hold)
    · exact Clears.note hn hn

/-- While a thread is inside, the others keep what they rely on. -/
theorem OnloadInv.others (h : OnloadInv s) {t : Nat} (hinside : (s.pc t).inside = true)
    {s' : OnloadState} (hcalls : s.calls ≤ s'.calls) (hnotes : ∀ n ∈ s.notes, n ∈ s'.notes)
    (harmed : ∀ k name, k ≤ s.calls → .armed k name ∈ s'.notes → .armed k name ∈ s.notes)
    (t' : Nat) (hne : t' ≠ t) : s'.At (s.pc t') :=
  At.mono (h.exclusive.outside hinside hne) hcalls hnotes harmed (h.holds t')

/-- The copy of the name. -/
theorem OnloadInv.setName (h : OnloadInv s) {t : Nat} {name : List UInt8}
    (hpc : s.pc t = .setName name) : OnloadInv { s.goto t (.setActive name) with name } := by
  have hinside : (s.pc t).inside = true := by
    rw [hpc]
    rfl
  exact {
    exclusive := h.exclusive.move (by rw [hpc]; rfl)
    holds := At.update { s.goto t (.setActive name) with name } rfl
      (h.others hinside (Nat.le_refl _) (fun _ => id) fun _ _ _ => id)
    inPlace := fun hno => absurd (Function.update_self t _ s.pc) (hno t name)
    fresh := h.fresh
    triggered := h.triggered
    once := h.once
    enabled := h.enabled
    armed := h.armed
    setReturned := h.setReturned
    clearReturned := h.clearReturned }

/-- The write that arms the target. -/
theorem OnloadInv.setActive (h : OnloadInv s) {t : Nat} {name : List UInt8}
    (hpc : s.pc t = .setActive name) :
    OnloadInv ({ s.goto t (.setUnlock (s.calls + 1)) with
      active := true
      calls := s.calls + 1
      last := some name }.note (.armed (s.calls + 1) name)) := by
  have hinside : (s.pc t).inside = true := by
    rw [hpc]
    rfl
  have hname : s.name = name := by
    have hat := h.holds t
    rw [hpc] at hat
    exact hat
  generalize hs' : ({ s.goto t (.setUnlock (s.calls + 1)) with
      active := true
      calls := s.calls + 1
      last := some name }.note (.armed (s.calls + 1) name) : OnloadState) = s'
  have hnotes : s'.notes = s.notes ++ [.armed (s.calls + 1) name] := by rw [← hs']; rfl
  have hcalls : s'.calls = s.calls + 1 := by rw [← hs']; rfl
  have hmem : ∀ {m}, m ∈ s'.notes ↔ m ∈ s.notes ∨ m = .armed (s.calls + 1) name := by
    intro m
    rw [hnotes]
    simp
  -- Only the newest number has been armed by this step, so for older ones
  -- nothing is new.
  have harmed : ∀ k name', k ≤ s.calls → .armed k name' ∈ s'.notes → .armed k name' ∈ s.notes := by
    intro k name' hk harm
    rcases hmem.mp harm with hold | heq
    · exact hold
    · cases heq
      omega
  have hclears : ∀ k, s.Clears k → s'.Clears k := by
    intro k hk
    exact ⟨by rw [hcalls]; exact Nat.le_succ_of_le hk.1,
      fun name' harm => hk.2 name' (harmed k name' hk.1 harm)⟩
  have hpcs : s'.pc = Function.update s.pc t (.setUnlock (s.calls + 1)) := by rw [← hs']; rfl
  refine { exclusive := ?_, holds := ?_, inPlace := ?_, fresh := ?_, triggered := ?_, once := ?_,
           enabled := ?_, armed := ?_, setReturned := ?_, clearReturned := ?_ }
  · rw [hpcs, ← hs']
    exact h.exclusive.move (by rw [hpc]; rfl)
  · rw [hpcs]
    exact At.update _ (Nat.le_of_eq hcalls.symm)
      (h.others hinside (by omega) (fun m hm => hmem.mpr (Or.inl hm)) harmed)
  · intro _ name' hlast
    rw [← hs'] at hlast ⊢
    cases hlast
    exact ⟨hname, Or.inl rfl⟩
  · -- The number is fresh: it has been handed out just now.
    intro _
    refine ⟨fun htrig => ?_, name, hcalls ▸ hmem.mpr (Or.inr rfl)⟩
    rw [hcalls] at htrig
    rcases hmem.mp htrig with hold | heq
    · have := (h.triggered _ hold).1
      omega
    · cases heq
  · intro k htrig
    rcases hmem.mp htrig with hold | heq
    · obtain ⟨hle, name', harm⟩ := h.triggered k hold
      exact ⟨by rw [hcalls]; exact Nat.le_succ_of_le hle, name', hmem.mpr (Or.inl harm)⟩
    · cases heq
  · intro k
    rw [hnotes]
    simpa [List.count_append] using h.once k
  · intro core k hen
    rcases hmem.mp hen with hold | heq
    · exact hmem.mpr (Or.inl (h.enabled core k hold))
    · cases heq
  · intro k name' harm
    rcases hmem.mp harm with hold | heq
    · have := h.armed k name' hold
      omega
    · cases heq
      omega
  · intro k hret
    rcases hmem.mp hret with hold | heq
    · have := h.setReturned k hold
      omega
    · cases heq
  · intro k hret
    rcases hmem.mp hret with hold | heq
    · exact hclears k (h.clearReturned k hold)
    · cases heq

/-- The write that disarms the target for a clear. -/
theorem OnloadInv.clearActive (h : OnloadInv s) {t : Nat} (hpc : s.pc t = .clearActive) :
    OnloadInv { s.goto t (.clearName (s.calls + 1)) with
      active := false
      calls := s.calls + 1
      last := none } := by
  have hinside : (s.pc t).inside = true := by
    rw [hpc]
    rfl
  have hle : s.calls ≤ s.calls + 1 := Nat.le_succ _
  -- The number is new, so no set has had it.
  have hclears : ∀ name, .armed (s.calls + 1) name ∉ s.notes := by
    intro name hmem
    have := h.armed _ name hmem
    omega
  exact {
    exclusive := h.exclusive.move (by rw [hpc]; rfl)
    holds := At.update { s.goto t (.clearName (s.calls + 1)) with
        active := false
        calls := s.calls + 1
        last := none } ⟨rfl, Nat.le_refl _, hclears⟩
      (h.others hinside hle (fun _ => id) fun _ _ _ => id)
    inPlace := fun _ _ hlast => by cases hlast
    fresh := fun hactive => by cases hactive
    triggered := fun k hmem => ⟨Nat.le_trans (h.triggered k hmem).1 hle, (h.triggered k hmem).2⟩
    once := h.once
    enabled := h.enabled
    armed := fun k name hmem => Nat.le_trans (h.armed k name hmem) hle
    setReturned := fun k hmem => Nat.le_trans (h.setReturned k hmem) hle
    clearReturned := fun k hmem =>
      ⟨Nat.le_trans (h.clearReturned k hmem).1 hle, (h.clearReturned k hmem).2⟩ }

/-- The write that empties the name. -/
theorem OnloadInv.clearName (h : OnloadInv s) {t k : Nat} (hpc : s.pc t = .clearName k) :
    OnloadInv { s.goto t (.clearUnlock k) with name := [] } := by
  have hinside : (s.pc t).inside = true := by
    rw [hpc]
    rfl
  have hat := h.holds t
  rw [hpc] at hat
  exact {
    exclusive := h.exclusive.move (by rw [hpc]; rfl)
    holds := At.update { s.goto t (.clearUnlock k) with name := [] } hat.2
      (h.others hinside (Nat.le_refl _) (fun _ => id) fun _ _ _ => id)
    -- There is no name in place while a clear is half done.
    inPlace := fun _ name hlast => by
      have hnone : s.last = some name := hlast
      rw [hat.1] at hnone
      cases hnone
    fresh := h.fresh
    triggered := h.triggered
    once := h.once
    enabled := h.enabled
    armed := h.armed
    setReturned := h.setReturned
    clearReturned := h.clearReturned }

/-- The write that disarms the target for a load that has matched it. -/
theorem OnloadInv.loadDisarm (h : OnloadInv s) {t k : Nat} {image : ImageLoad}
    (hpc : s.pc t = .loadDisarm image k) :
    OnloadInv ({ s.goto t (.loadUnlock image (some k)) with active := false }.note
      (.triggered k)) := by
  have hinside : (s.pc t).inside = true := by
    rw [hpc]
    rfl
  have hat := h.holds t
  rw [hpc] at hat
  obtain ⟨hactive, hk⟩ := hat
  subst hk
  obtain ⟨hnot, hsome⟩ := h.fresh hactive
  -- The target in place is the one that was matched.
  have hplace : s.InPlace := by
    apply h.inPlace
    intro t' name heq
    have hsame := h.exclusive.unique t' t (by rw [heq]; rfl) hinside
    rw [hsame, hpc] at heq
    cases heq
  generalize hs' : ({ s.goto t (.loadUnlock image (some s.calls)) with active := false }.note
    (.triggered s.calls) : OnloadState) = s'
  have hnotes : s'.notes = s.notes ++ [.triggered s.calls] := by rw [← hs']; rfl
  have hcalls : s'.calls = s.calls := by rw [← hs']; rfl
  have hmem : ∀ {m}, m ∈ s'.notes ↔ m ∈ s.notes ∨ m = .triggered s.calls := by
    intro m
    rw [hnotes]
    simp
  have hold : ∀ m ∈ s.notes, m ∈ s'.notes := fun m hm => hmem.mpr (Or.inl hm)
  have harmed : ∀ k name, .armed k name ∈ s'.notes → .armed k name ∈ s.notes := by
    intro k name hin
    rcases hmem.mp hin with hin | heq
    · exact hin
    · cases heq
  have hpcs : s'.pc = Function.update s.pc t (.loadUnlock image (some s.calls)) := by
    rw [← hs']
    rfl
  refine { exclusive := ?_, holds := ?_, inPlace := ?_, fresh := ?_, triggered := ?_, once := ?_,
           enabled := ?_, armed := ?_, setReturned := ?_, clearReturned := ?_ }
  · rw [hpcs, ← hs']
    exact h.exclusive.move (by rw [hpc]; rfl)
  · rw [hpcs]
    exact At.update _ (hmem.mpr (Or.inr rfl))
      (h.others hinside (Nat.le_of_eq hcalls.symm) hold fun k name _ => harmed k name)
  · intro _ name hlast
    have hname : s'.name = s.name := by rw [← hs']; rfl
    rw [← hs'] at hlast
    rw [hname, hcalls]
    exact ⟨(hplace name hlast).1, Or.inr (hmem.mpr (Or.inr rfl))⟩
  · intro hon
    rw [← hs'] at hon
    cases hon
  · intro k hin
    rcases hmem.mp hin with hin | heq
    · obtain ⟨hle, name, hname⟩ := h.triggered k hin
      exact ⟨hcalls ▸ hle, name, hold _ hname⟩
    · cases heq
      obtain ⟨name, hname⟩ := hsome
      exact ⟨Nat.le_of_eq hcalls.symm, name, hold _ hname⟩
  · intro k
    rw [hnotes, List.count_append]
    by_cases heq : k = s.calls
    · rw [heq, List.count_eq_zero_of_not_mem hnot]
      simp
    · have hne : Note.triggered s.calls ≠ .triggered k := by
        intro hsame
        cases hsame
        exact heq rfl
      simpa [List.count_singleton, hne] using h.once k
  · intro core k hin
    rcases hmem.mp hin with hin | heq
    · exact hold _ (h.enabled core k hin)
    · cases heq
  · intro k name hin
    rw [hcalls]
    exact h.armed k name (harmed k name hin)
  · intro k hin
    rw [hcalls]
    rcases hmem.mp hin with hin | heq
    · exact h.setReturned k hin
    · cases heq
  · intro k hin
    rcases hmem.mp hin with hin | heq
    · obtain ⟨hle, hnone⟩ := h.clearReturned k hin
      exact ⟨hcalls ▸ hle, fun name hname => hnone name (harmed k name hname)⟩
    · cases heq

/-! ### Every step -/

/-- A step of a thread keeps the invariant. -/
theorem onloadInv_step {n t : Nat} {accepted : Bool} {s' : OnloadState} (h : OnloadInv s)
    (hstep : s.step n t accepted = some s') : OnloadInv s' := by
  have hat := h.holds t
  unfold OnloadState.step at hstep
  -- One case for each place in the two functions and the callback.
  cases hpc : s.pc t with
  | idle =>
    rw [hpc] at hstep
    cases hstep
  | setLock name =>
    rw [hpc] at hstep
    cases hstep
    exact h.acquire trivial (by simp [hpc])
  | setName name =>
    rw [hpc] at hstep
    cases hstep
    exact h.setName hpc
  | setActive name =>
    rw [hpc] at hstep
    cases hstep
    exact h.setActive hpc
  | setUnlock k =>
    rw [hpc] at hstep hat
    cases hstep
    exact h.release (by rw [hpc]; rfl) rfl hat (by simp [hpc])
  | setReturn k =>
    rw [hpc] at hstep hat
    cases hstep
    have hmoved : OnloadInv (s.goto t .idle) :=
      h.goto (by rw [hpc]; rfl) trivial (by simp [hpc])
    exact hmoved.note hat
  | clearLock =>
    rw [hpc] at hstep
    cases hstep
    exact h.acquire trivial (by simp [hpc])
  | clearActive =>
    rw [hpc] at hstep
    cases hstep
    exact h.clearActive hpc
  | clearName k =>
    rw [hpc] at hstep
    cases hstep
    exact h.clearName hpc
  | clearUnlock k =>
    rw [hpc] at hstep hat
    cases hstep
    exact h.release (by rw [hpc]; rfl) rfl hat (by simp [hpc])
  | clearReturn k =>
    rw [hpc] at hstep hat
    cases hstep
    have hmoved : OnloadInv (s.goto t .idle) :=
      h.goto (by rw [hpc]; rfl) trivial (by simp [hpc])
    exact hmoved.note hat
  | loadLock image name =>
    rw [hpc] at hstep
    cases hstep
    exact h.acquire trivial (by simp [hpc])
  | loadTest image name =>
    rw [hpc] at hstep
    simp only at hstep
    split at hstep
    · rename_i hmatch
      cases hstep
      have hactive : s.active = true := (Bool.and_eq_true_iff.mp hmatch).1
      exact h.goto (by rw [hpc]; rfl) ⟨hactive, rfl⟩ (by simp [hpc])
    · cases hstep
      exact h.goto (by rw [hpc]; rfl) trivial (by simp [hpc])
  | loadDisarm image k =>
    rw [hpc] at hstep
    cases hstep
    exact h.loadDisarm hpc
  | loadUnlock image trigger =>
    rw [hpc] at hstep hat
    cases trigger with
    | none =>
      cases hstep
      exact h.release (by rw [hpc]; rfl) rfl trivial (by simp [hpc])
    | some k =>
      cases hstep
      -- A load that took no number has nothing to enable.
      split
      · exact h.release (by rw [hpc]; rfl) rfl hat (by simp [hpc])
      · exact h.release (by rw [hpc]; rfl) rfl trivial (by simp [hpc])
  | enable image k core =>
    rw [hpc] at hstep hat
    -- The loop of `broadcast` goes on to the next core whether this one
    -- accepted or not.
    simp only at hstep
    split at hstep
    · cases hstep
      have hnext : OnloadInv (s.goto t (.enable image k (core + 1))) :=
        h.goto (by rw [hpc]; rfl) hat (by simp [hpc])
      split
      · exact hnext.note hat
      · exact hnext
    · cases hstep
      exact h.goto (by rw [hpc]; rfl) trivial (by simp [hpc])

/-- A call begins outside the lock, with nothing to rely on. -/
theorem entry_cases (ev : OnloadEvent) :
    ev.entry = .idle ∨ (∃ name, ev.entry = .setLock name) ∨ ev.entry = .clearLock ∨
      ∃ image name, ev.entry = .loadLock image name := by
  cases ev with
  | set driverName =>
    cases driverName with
    | none => simp [OnloadEvent.entry]
    | some driverName => simp [OnloadEvent.entry]
  | clear => simp [OnloadEvent.entry]
  | load image =>
    simp only [OnloadEvent.entry]
    cases image.imageName with
    | none => simp
    | some name => simp
  | step accepted => simp [OnloadEvent.entry]

/-- What an event of the machine is: a step, or the beginning of a call. -/
theorem next_cases {n : Nat} {s' : OnloadState} {ev : Nat × OnloadEvent}
    (hnext : (onloadMachine n).next s ev = some s') :
    (∃ accepted, s.step n ev.1 accepted = some s') ∨
      (s.pc ev.1 = .idle ∧ s' = s.goto ev.1 ev.2.entry) := by
  obtain ⟨t, event⟩ := ev
  have hcall : ∀ call : OnloadEvent, (if s.pc t = .idle then some (s.goto t call.entry) else none) =
      some s' → s.pc t = .idle ∧ s' = s.goto t call.entry := by
    intro call h
    split at h
    · rename_i hidle
      cases h
      exact ⟨hidle, rfl⟩
    · cases h
  cases event with
  | step accepted => exact Or.inl ⟨accepted, hnext⟩
  | set driverName => exact Or.inr (hcall _ hnext)
  | clear => exact Or.inr (hcall _ hnext)
  | load image => exact Or.inr (hcall _ hnext)

/-- Every event keeps the invariant. -/
theorem onloadInv_next {n : Nat} {s' : OnloadState} {ev : Nat × OnloadEvent} (h : OnloadInv s)
    (hnext : (onloadMachine n).next s ev = some s') : OnloadInv s' := by
  rcases next_cases hnext with ⟨accepted, hstep⟩ | ⟨hidle, rfl⟩
  · exact onloadInv_step h hstep
  · have hfrom : ∀ name, s.pc ev.1 ≠ .setActive name := by simp [hidle]
    rcases entry_cases ev.2 with heq | ⟨name, heq⟩ | heq | ⟨image, name, heq⟩
    all_goals
      rw [heq]
      exact h.goto (by simp [hidle, OnloadPc.inside]) trivial hfrom

/-! ### The order of the returns and the enabling calls -/

/-- The order does not depend on the core. -/
theorem ordered_core {a : Note} {core core' k : Nat} (h : Ordered a (.enabled core k)) :
    Ordered a (.enabled core' k) := by
  cases a <;> exact h

/-- The invariant of the runs that meet the condition. -/
structure OnloadSettled (n : Nat) (s : OnloadState) : Prop where
  pending : ∀ t j, (s.pc t).toEnable n = some j → ∀ a ∈ s.notes, Ordered a (.enabled 0 j)
  ordered : s.notes.Pairwise Ordered

/-- At the start every thread is done. -/
theorem onloadSettled_initial (n : Nat) : OnloadSettled n .initial where
  pending _ _ h := by cases h
  ordered := List.Pairwise.nil

/-- A step of a thread that reports nothing. -/
theorem OnloadSettled.move {n : Nat} (h : OnloadSettled n s) {s' : OnloadState} {t : Nat}
    {pc : OnloadPc} (hpc : s'.pc = Function.update s.pc t pc) (hnotes : s'.notes = s.notes)
    (hto : ∀ j, pc.toEnable n = some j → ∀ a ∈ s.notes, Ordered a (.enabled 0 j)) :
    OnloadSettled n s' where
  pending t' j hj := by
    rw [hnotes]
    rw [hpc] at hj
    by_cases ht : t' = t
    · rw [ht, Function.update_self] at hj
      exact hto j hj
    · rw [Function.update_of_ne ht] at hj
      exact h.pending t' j hj
  ordered := by
    rw [hnotes]
    exact h.ordered

/-- A report. What comes after it has to fit it, and it has to fit what
came before. -/
theorem OnloadSettled.note {n : Nat} (h : OnloadSettled n s) {m : Note}
    (hbefore : ∀ a ∈ s.notes, Ordered a m)
    (hafter : ∀ t j, (s.pc t).toEnable n = some j → Ordered m (.enabled 0 j)) :
    OnloadSettled n (s.note m) where
  pending t j hj a ha := by
    rcases mem_note.mp ha with hold | rfl
    · exact h.pending t j hj a hold
    · exact hafter t j hj
  ordered := by
    unfold OnloadState.note
    rw [List.pairwise_append]
    refine ⟨h.ordered, List.pairwise_singleton _ _, fun a ha b hb => ?_⟩
    rw [List.mem_singleton.mp hb]
    exact hbefore a ha

/-- A load with enabling calls to make has matched a target that was
set. -/
theorem OnloadInv.toEnable_armed {n t j : Nat} (h : OnloadInv s)
    (hj : (s.pc t).toEnable n = some j) : ∃ name, .armed j name ∈ s.notes := by
  have hat := h.holds t
  -- Only a load on its way to the broadcast still has something to enable.
  cases hpc : s.pc t with
  | loadDisarm image k =>
    rw [hpc] at hj hat
    simp only [OnloadPc.toEnable] at hj
    split at hj
    · cases hj
      rw [hat.2]
      exact (h.fresh hat.1).2
    · cases hj
  | loadUnlock image trigger =>
    rw [hpc] at hj hat
    cases trigger with
    | none => cases hj
    | some k =>
      simp only [OnloadPc.toEnable] at hj
      split at hj
      · cases hj
        exact (h.triggered _ hat).2
      · cases hj
  | enable image k core =>
    rw [hpc] at hj hat
    simp only [OnloadPc.toEnable] at hj
    split at hj
    · cases hj
      exact (h.triggered _ hat).2
    · cases hj
  | _ =>
    rw [hpc] at hj
    cases hj

/-- The enabling calls for the target in place fit all returns. -/
theorem OnloadInv.ordered_calls (h : OnloadInv s) (hactive : s.active = true) :
    ∀ a ∈ s.notes, Ordered a (.enabled 0 s.calls) := by
  intro a ha
  cases a with
  | setReturned k => exact h.setReturned k ha
  | clearReturned k =>
    obtain ⟨hle, hnone⟩ := h.clearReturned k ha
    obtain ⟨_, name, harmed⟩ := h.fresh hactive
    refine Nat.lt_of_le_of_ne hle ?_
    rintro rfl
    exact hnone name harmed
  | armed k name => trivial
  | triggered k => trivial
  | enabled core k => trivial

/-- A step that meets the condition keeps the order. -/
theorem onloadSettled_step {n t : Nat} {accepted : Bool} {s' : OnloadState} (hinv : OnloadInv s)
    (h : OnloadSettled n s)
    (hok : ∀ k, (s.pc t).returning = some k → ∀ t' j, (s.pc t').toEnable n = some j → k ≤ j)
    (hstep : s.step n t accepted = some s') : OnloadSettled n s' := by
  have hat := hinv.holds t
  have hpending := h.pending t
  -- Nothing to enable at the next point.
  have hquiet : ∀ (pc : OnloadPc) {s' : OnloadState}, s'.pc = Function.update s.pc t pc →
      s'.notes = s.notes → pc.toEnable n = none → OnloadSettled n s' := by
    intro pc s' hpc hnotes hnone
    refine h.move hpc hnotes fun j hj => ?_
    rw [hnone] at hj
    cases hj
  have hacquire : ∀ {pc : OnloadPc}, pc.toEnable n = none → OnloadSettled n (s.acquire t pc) := by
    intro pc hnone
    unfold OnloadState.acquire
    split
    · exact h
    · exact hquiet pc rfl rfl hnone
  unfold OnloadState.step at hstep
  cases hpc : s.pc t with
  | idle =>
    rw [hpc] at hstep
    cases hstep
  | setLock name =>
    rw [hpc] at hstep
    cases hstep
    exact hacquire rfl
  | setName name =>
    rw [hpc] at hstep
    cases hstep
    exact hquiet (.setActive name) rfl rfl rfl
  | setActive name =>
    rw [hpc] at hstep
    cases hstep
    have hmoved : OnloadSettled n { s.goto t (.setUnlock (s.calls + 1)) with
        active := true
        calls := s.calls + 1
        last := some name } := hquiet _ rfl rfl rfl
    refine hmoved.note ?_ ?_
    · intro a _
      cases a <;> trivial
    · intro _ _ _
      trivial
  | setUnlock k =>
    rw [hpc] at hstep
    cases hstep
    exact hquiet (.setReturn k) rfl rfl rfl
  | setReturn k =>
    rw [hpc] at hstep hok
    cases hstep
    have hmoved : OnloadSettled n (s.goto t .idle) := hquiet _ rfl rfl rfl
    refine hmoved.note ?_ ?_
    · intro a _
      cases a <;> trivial
    · intro t' j hj
      by_cases ht : t' = t
      · simp [OnloadState.goto, ht, OnloadPc.toEnable] at hj
      · simp only [OnloadState.goto, Function.update_of_ne ht] at hj
        exact hok k rfl t' j hj
  | clearLock =>
    rw [hpc] at hstep
    cases hstep
    exact hacquire rfl
  | clearActive =>
    rw [hpc] at hstep
    cases hstep
    exact hquiet (.clearName (s.calls + 1)) rfl rfl rfl
  | clearName k =>
    rw [hpc] at hstep
    cases hstep
    exact hquiet (.clearUnlock k) rfl rfl rfl
  | clearUnlock k =>
    rw [hpc] at hstep
    cases hstep
    exact hquiet (.clearReturn k) rfl rfl rfl
  | clearReturn k =>
    rw [hpc] at hstep hok hat
    cases hstep
    have hmoved : OnloadSettled n (s.goto t .idle) := hquiet _ rfl rfl rfl
    refine hmoved.note ?_ ?_
    · intro a _
      cases a <;> trivial
    · intro t' j hj
      by_cases ht : t' = t
      · simp [OnloadState.goto, ht, OnloadPc.toEnable] at hj
      · simp only [OnloadState.goto, Function.update_of_ne ht] at hj
        -- The load's target was set, so it is not the clear.
        obtain ⟨name, harmed⟩ := hinv.toEnable_armed hj
        refine Nat.lt_of_le_of_ne (hok k rfl t' j hj) ?_
        rintro rfl
        exact hat.2 name harmed
  | loadLock image name =>
    rw [hpc] at hstep
    cases hstep
    exact hacquire rfl
  | loadTest image name =>
    rw [hpc] at hstep
    simp only at hstep
    split at hstep
    · rename_i hmatch
      cases hstep
      refine h.move rfl rfl fun j hj => ?_
      simp only [OnloadPc.toEnable] at hj
      split at hj
      · cases hj
        exact hinv.ordered_calls (Bool.and_eq_true_iff.mp hmatch).1
      · cases hj
    · cases hstep
      exact hquiet (.loadUnlock image none) rfl rfl rfl
  | loadDisarm image k =>
    rw [hpc] at hstep hpending
    cases hstep
    have hmoved : OnloadSettled n { s.goto t (.loadUnlock image (some k)) with
        active := false } := h.move rfl rfl hpending
    refine hmoved.note ?_ ?_
    · intro a _
      cases a <;> trivial
    · intro _ _ _
      trivial
  | loadUnlock image trigger =>
    rw [hpc] at hstep hpending
    cases trigger with
    | none =>
      cases hstep
      exact hquiet .idle rfl rfl rfl
    | some k =>
      cases hstep
      refine h.move rfl rfl fun j hj => ?_
      apply hpending j
      simp only [OnloadPc.toEnable]
      split at hj
      · rename_i htraceable
        simp only [OnloadPc.toEnable] at hj
        split at hj
        · rw [if_pos htraceable, hj]
        · cases hj
      · cases hj
  | enable image k core =>
    rw [hpc] at hstep hpending
    simp only at hstep
    split at hstep
    · rename_i hcore
      cases hstep
      have hk : (OnloadPc.enable image k core).toEnable n = some k := if_pos hcore
      have hfits := hpending k hk
      have hnext : OnloadSettled n (s.goto t (.enable image k (core + 1))) := by
        refine h.move rfl rfl fun j hj => ?_
        simp only [OnloadPc.toEnable] at hj
        split at hj
        · cases hj
          exact hfits
        · cases hj
      split
      · refine hnext.note (fun a ha => ordered_core (hfits a ha)) ?_
        intro _ _ _
        trivial
      · exact hnext
    · cases hstep
      exact hquiet .idle rfl rfl rfl

/-- Both invariants together. -/
theorem onloadSettled_next {n : Nat} {s' : OnloadState} {ev : Nat × OnloadEvent}
    (hinv : OnloadInv s) (h : OnloadSettled n s) (hok : ReturnsSettled n s ev)
    (hnext : (onloadMachine n).next s ev = some s') : OnloadSettled n s' := by
  rcases next_cases hnext with ⟨accepted, hstep⟩ | ⟨hidle, rfl⟩
  · exact onloadSettled_step hinv h hok hstep
  · refine h.move rfl rfl fun j hj => ?_
    rcases entry_cases ev.2 with heq | ⟨name, heq⟩ | heq | ⟨image, name, heq⟩
    all_goals
      rw [heq] at hj
      cases hj

/-- The invariants give the contract. -/
theorem OnloadInv.contract {n : Nat} (hinv : OnloadInv s) (h : OnloadSettled n s) :
    OnloadContract s where
  once := hinv.once
  fromSet core k hmem := by
    have htriggered := hinv.enabled core k hmem
    exact ⟨htriggered, (hinv.triggered k htriggered).2⟩
  inPlace hfree := by
    apply hinv.inPlace
    intro t name heq
    -- Nobody is inside while the lock is free.
    have hinside := hinv.exclusive.free hfree t
    rw [heq] at hinside
    cases hinside
  ordered := h.ordered

end

/-- In every run in which no set or clear returns while a load that has
matched an older target still has enabling calls to make, each set
triggers at most once, no load takes the place of a newer target, and
after the return of a clear nothing is enabled without a later set. -/
theorem onload_contract (n : Nat) {s : OnloadState} {evs : List (Nat × OnloadEvent)}
    (hrun : (onloadMachine n).run .initial evs = some s)
    (hok : (onloadMachine n).Along (ReturnsSettled n) .initial evs) : OnloadContract s := by
  have h : OnloadInv s ∧ OnloadSettled n s :=
    (onloadMachine n).invariant_of_along (I := fun s => OnloadInv s ∧ OnloadSettled n s)
      (fun _ _ _ hI hret hnext =>
        ⟨onloadInv_next hI.1 hnext, onloadSettled_next hI.1 hI.2 hret hnext⟩)
      ⟨onloadInv_initial, onloadSettled_initial n⟩ hok hrun
  exact h.1.contract h.2

/-! ### One target and one driver -/

/-- The steps of one thread. -/
def steps (t count : Nat) : List (Nat × OnloadEvent) := List.replicate count (t, .step true)

/-- The letters `drv`. -/
def drvName : List UInt8 := [0x64, 0x72, 0x76]

/-- A load of `drv`, with its path in capitals. -/
def drvImage : ImageLoad where
  loaded := true
  ansiName := some [0x43, 0x3a, 0x5c, 0x44, 0x52, 0x56]
  base := 0x1000
  imageSize := 0x1000

/-- Thread 0 sets the target, and its call returns. -/
def setDrv : List (Nat × OnloadEvent) := (0, .set (some drvName)) :: steps 0 5

/-- In thread 1 the driver is loaded: lock, match, disarm, unlock. -/
def matchDrv : List (Nat × OnloadEvent) := (1, .load drvImage) :: steps 1 4

/-- Thread 2 clears the target, and its call returns. -/
def clearTarget : List (Nat × OnloadEvent) := (2, .clear) :: steps 2 5

/-- The state in which the auto-trace has been enabled on one core. -/
theorem onload_contract_drv : ∃ s,
    (onloadMachine 1).run .initial (setDrv ++ matchDrv ++ steps 1 1) = some s ∧
      s.notes = [.armed 1 drvName, .setReturned 1, .triggered 1, .enabled 0 1] ∧
      OnloadContract s := by
  obtain ⟨s, hrun, hnotes⟩ : ∃ s,
      (onloadMachine 1).run .initial (setDrv ++ matchDrv ++ steps 1 1) = some s ∧
        s.notes = [.armed 1 drvName, .setReturned 1, .triggered 1, .enabled 0 1] :=
    ⟨_, rfl, rfl⟩
  refine ⟨s, hrun, hnotes, onload_contract 1 hrun ?_⟩
  -- Up to the return of the set.
  iterate 5 refine Machine.along_cons rfl (fun _ h => by cases h) ?_
  refine Machine.along_cons rfl ?_ ?_
  · intro k _ t j hj
    -- No other thread has begun anything.
    cases t with
    | zero => cases hj
    | succ t => cases hj
  · iterate 6 refine Machine.along_cons rfl (fun _ h => by cases h) ?_
    trivial

/-- The claimed property fails: a load has matched the target, a clear
comes and returns, and then the load enables the auto-trace. -/
theorem clear_too_early : ∃ s,
    (onloadMachine 1).run .initial (setDrv ++ matchDrv ++ clearTarget ++ steps 1 1) = some s ∧
      s.notes = [.armed 1 drvName, .setReturned 1, .triggered 1, .clearReturned 2,
        .enabled 0 1] ∧ ¬ OnloadContract s := by
  refine ⟨_, rfl, rfl, fun h => ?_⟩
  have hordered := h.ordered
  change List.Pairwise Ordered [.armed 1 drvName, .setReturned 1, .triggered 1, .clearReturned 2,
    .enabled 0 1] at hordered
  simp [Ordered] at hordered

end Revhv.Onload
