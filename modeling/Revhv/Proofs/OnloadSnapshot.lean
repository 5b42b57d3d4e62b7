import Revhv.Um.OnloadSnapshot

/-!
# `Revhv.Proofs.OnloadSnapshot`: the first batch and its trigger

The callback has to be there when the first batch arrives, and what it
sets must not be reset after that.

* `TriggerInv` holds along every run in which no worker looks for the
  callback before it is stored and none is in it before the flag has
  been reset.
* `trigger_reaches_snapshot`: after the command has returned, a batch
  that has been drained has set the flag, or a worker is about to.
* `first_batch_lost`: a run in which the first batch comes between the
  start of the poller and the callback.
-/

set_option autoImplicit false

namespace Revhv.OnloadSnapshot

open Revhv.Lib

section
variable {n : Nat}

/-! ### The property -/

/-- The worker sets `m_snapshot_triggered` before it drains again. -/
def SnapshotState.Underway (s : SnapshotState n) (w : Fin n) : Prop :=
  (s.workers w = .fire ∧ s.firstDataFired = false) ∨ s.workers w = .look ∨
    s.workers w = .callback

/-- The snapshot thread is not left waiting for a batch that has been
there. -/
def TriggerReaches (s : SnapshotState n) : Prop :=
  s.main = .returned → s.running = true → s.drained = true →
    s.snapshotTriggered = true ∨ ∃ w, s.Underway w

/-- The command has reset `m_snapshot_triggered`. -/
def MainPc.pastReset : MainPc → Bool
  | .spawnSnapshot | .install | .store | .rearm | .returned => true
  | _ => false

/-- `set_on_first_data` has stored the callback. -/
def MainPc.stored : MainPc → Bool
  | .rearm | .returned => true
  | _ => false

/-- A worker that has won the exchange looks for the callback only after
`set_on_first_data` has stored it, and is in it only after the command
has reset the flag. -/
def CallbackInTime (s : SnapshotState n) : SnapshotEvent n → Prop
  | .worker w _ _ =>
      (s.workers w = .look → s.main.stored = true) ∧
        (s.workers w = .callback → s.main.pastReset = true)
  | _ => True

/-! ### The invariant -/

/-- The flag is set for good, or some worker has won the exchange and
not left the callback. -/
def SnapshotState.Settling (s : SnapshotState n) : Prop :=
  (s.main.pastReset = true ∧ s.snapshotTriggered = true) ∨
    ∃ w, s.workers w = .look ∨ s.workers w = .callback

/-- The command has not reset `m_first_data_fired` yet. -/
def MainPc.beforeFired : MainPc → Bool
  | .start | .resetFired => true
  | _ => false

/-- The workers whose threads have been started. -/
def MainPc.spawned (n : Nat) : MainPc → Nat
  | .start | .resetFired => 0
  | .spawn k => k
  | _ => n

/-- The invariant of the runs with the callback in time. -/
structure TriggerInv (s : SnapshotState n) : Prop where
  absent : ∀ w : Fin n, s.main.spawned n ≤ w → s.workers w = .absent
  fresh : s.main.beforeFired = true → s.drained = false
  fired : s.main.beforeFired = false → s.firstDataFired = true → s.Settling
  drained : s.running = true → s.drained = true → s.Settling ∨ ∃ w, s.workers w = .fire
  stopped : ∀ w, s.workers w = .finalDrain → s.running = false
  idle : s.main = .start → s.running = false

/-- What has been stored is not taken away again. -/
def CallbackStored (s : SnapshotState n) : Prop := s.main.stored = true → s.onFirstData = true

/-- The start of a command, with any flags left over from an earlier
one. -/
theorem triggerInv_initial (firstDataFired onFirstData snapshotTriggered : Bool) :
    TriggerInv (SnapshotState.initial n firstDataFired onFirstData snapshotTriggered) where
  absent _ _ := rfl
  fresh _ := rfl
  fired h := by cases h
  drained h := by cases h
  stopped _ h := by cases h
  idle _ := rfl

variable {s s' : SnapshotState n}

/-! ### The command -/

/-- A step of the command keeps a worker in flight, and the flag once it
has been reset. -/
theorem settling_advance (h : s.Settling)
    (hset : s.main.pastReset = true →
      s'.main.pastReset = true ∧ s'.snapshotTriggered = s.snapshotTriggered)
    (hworkers : ∀ w, s.workers w ≠ .absent → s'.workers w = s.workers w) : s'.Settling := by
  rcases h with ⟨hpast, htriggered⟩ | ⟨w, hw⟩
  · obtain ⟨hpast', hsame⟩ := hset hpast
    exact Or.inl ⟨hpast', hsame.trans htriggered⟩
  · have hstarted : s.workers w ≠ .absent := by
      intro habsent
      rw [habsent] at hw
      rcases hw with hw | hw
      · cases hw
      · cases hw
    refine Or.inr ⟨w, ?_⟩
    rw [hworkers w hstarted]
    exact hw

/-- A step of the command after its first reset of `m_first_data_fired`.
It starts workers and changes none. -/
theorem TriggerInv.advance (h : TriggerInv s) (hbefore : s.main.beforeFired = false)
    (hbefore' : s'.main.beforeFired = false)
    (hset : s.main.pastReset = true →
      s'.main.pastReset = true ∧ s'.snapshotTriggered = s.snapshotTriggered)
    (habsent : ∀ w : Fin n, s'.main.spawned n ≤ w → s'.workers w = .absent)
    (hworkers : ∀ w, s.workers w ≠ .absent → s'.workers w = s.workers w)
    (hnew : ∀ w, s'.workers w = .finalDrain → s.workers w = .finalDrain)
    (hfired : s'.firstDataFired = true → s.firstDataFired = true)
    (hrunning : s'.running = s.running) (hdrained : s'.drained = s.drained) : TriggerInv s' where
  absent := habsent
  fresh hno := by
    rw [hbefore'] at hno
    cases hno
  fired _ hf := settling_advance (h.fired hbefore (hfired hf)) hset hworkers
  drained hr hd := by
    rw [hrunning] at hr
    rw [hdrained] at hd
    -- Data that has been drained is either settled or in the hands of one
    -- worker.
    rcases h.drained hr hd with hsettling | ⟨w, hw⟩
    · exact Or.inl (settling_advance hsettling hset hworkers)
    · have hstarted : s.workers w ≠ .absent := by
        intro hno
        rw [hno] at hw
        cases hw
      exact Or.inr ⟨w, (hworkers w hstarted).trans hw⟩
  stopped w hw := by
    rw [hrunning]
    exact h.stopped w (hnew w hw)
  idle hno := by
    rw [hno] at hbefore'
    cases hbefore'

/-- The start of a worker's thread. -/
theorem TriggerInv.spawn (h : TriggerInv s) {k : Nat} (hmain : s.main = .spawn k) (hk : k < n) :
    TriggerInv { s with
      workers := Function.update s.workers ⟨k, hk⟩ .opening
      main := .spawn (k + 1) } := by
  -- The loop creates the workers in order, so this one does not exist yet.
  have habsent : s.workers ⟨k, hk⟩ = .absent := h.absent _ (by rw [hmain]; exact Nat.le_refl k)
  have hother : ∀ w, w ≠ ⟨k, hk⟩ →
      Function.update s.workers ⟨k, hk⟩ .opening w = s.workers w :=
    fun w hw => Function.update_of_ne hw _ _
  apply h.advance
  · rw [hmain]
    rfl
  · rfl
  · intro hpast
    rw [hmain] at hpast
    cases hpast
  · intro w hw
    have hlt : k + 1 ≤ (w : Nat) := hw
    have hne : w ≠ ⟨k, hk⟩ := by
      intro heq
      rw [heq] at hlt
      exact Nat.lt_irrefl k hlt
    show Function.update s.workers ⟨k, hk⟩ .opening w = .absent
    rw [hother w hne]
    apply h.absent
    rw [hmain]
    exact Nat.le_of_succ_le hlt
  · intro w hstarted
    apply hother
    rintro rfl
    exact hstarted habsent
  · intro w hw
    -- A new worker starts by opening its file, not with the final drain.
    by_cases heq : w = ⟨k, hk⟩
    · simp [heq] at hw
    · exact (hother w heq) ▸ hw
  · exact id
  · rfl
  · rfl

/-- A step of the command. -/
theorem triggerInv_main (h : TriggerInv s) (hstep : s.mainStep = some s') : TriggerInv s' := by
  unfold SnapshotState.mainStep at hstep
  -- After the workers have been started the command only touches flags.
  have hflags : ∀ {t : SnapshotState n}, s.main.spawned n = n → s.main.beforeFired = false →
      t.main.spawned n = n → t.main.beforeFired = false →
      (s.main.pastReset = true →
        t.main.pastReset = true ∧ t.snapshotTriggered = s.snapshotTriggered) →
      t.workers = s.workers → (t.firstDataFired = true → s.firstDataFired = true) →
      t.running = s.running → t.drained = s.drained → TriggerInv t := by
    intro t hspawned hbefore hspawned' hbefore' hset hworkers hfired hrunning hdrained
    apply h.advance hbefore hbefore' hset _ _ _ hfired hrunning hdrained
    · intro w hw
      exact absurd w.isLt (by omega)
    · intro w _
      rw [hworkers]
    · intro w hw
      rw [← hworkers]
      exact hw
  cases hmain : s.main with
  | start =>
    rw [hmain] at hstep
    have hfresh := h.fresh (by rw [hmain]; rfl)
    have habsent : ∀ w, s.workers w = .absent :=
      fun w => h.absent w (by rw [hmain]; exact Nat.zero_le _)
    simp only [h.idle hmain, Bool.false_eq_true, if_false, Option.some.injEq] at hstep
    subst hstep
    exact {
      absent := fun w _ => habsent w
      fresh := fun _ => hfresh
      fired := fun hno => by cases hno
      drained := fun _ hd => by
        rw [hfresh] at hd
        cases hd
      stopped := fun w hw => by
        rw [habsent w] at hw
        cases hw
      idle := fun hno => by cases hno }
  | resetFired =>
    rw [hmain] at hstep
    have hfresh := h.fresh (by rw [hmain]; rfl)
    have habsent : ∀ w, s.workers w = .absent :=
      fun w => h.absent w (by rw [hmain]; exact Nat.zero_le _)
    cases hstep
    exact {
      absent := fun w _ => habsent w
      fresh := fun hno => by cases hno
      fired := fun _ hfired => by cases hfired
      drained := fun _ hd => by
        rw [hfresh] at hd
        cases hd
      stopped := h.stopped
      idle := fun hno => by cases hno }
  | spawn k =>
    rw [hmain] at hstep
    simp only at hstep
    split at hstep
    · rename_i hk
      cases hstep
      exact h.spawn hmain hk
    · rename_i hk
      cases hstep
      apply h.advance
      · rw [hmain]
        rfl
      · rfl
      · intro hpast
        rw [hmain] at hpast
        cases hpast
      · intro w hw
        exact absurd w.isLt (Nat.not_lt.mpr hw)
      · exact fun _ _ => rfl
      · exact fun _ => id
      · exact id
      · rfl
      · rfl
  | exportConfig =>
    rw [hmain] at hstep hflags
    cases hstep
    exact hflags rfl rfl rfl rfl (fun hno => by cases hno) rfl id rfl rfl
  | resetTriggered =>
    rw [hmain] at hstep hflags
    cases hstep
    exact hflags rfl rfl rfl rfl (fun hno => by cases hno) rfl id rfl rfl
  | spawnSnapshot =>
    rw [hmain] at hstep hflags
    cases hstep
    exact hflags rfl rfl rfl rfl (fun _ => ⟨rfl, rfl⟩) rfl id rfl rfl
  | install =>
    rw [hmain] at hstep hflags
    cases hstep
    exact hflags rfl rfl rfl rfl (fun _ => ⟨rfl, rfl⟩) rfl id rfl rfl
  | store =>
    rw [hmain] at hstep hflags
    cases hstep
    exact hflags rfl rfl rfl rfl (fun _ => ⟨rfl, rfl⟩) rfl id rfl rfl
  | rearm =>
    rw [hmain] at hstep hflags
    cases hstep
    exact hflags rfl rfl rfl rfl (fun _ => ⟨rfl, rfl⟩) rfl (fun hno => by cases hno) rfl rfl
  | returned =>
    rw [hmain] at hstep
    cases hstep

/-! ### The workers -/

/-- A worker that moves is no longer where it was, the others are. -/
theorem goto_workers {w : Fin n} {pc : WorkerPc} (w' : Fin n) :
    (s.goto w pc).workers w' = if w' = w then pc else s.workers w' := by
  show Function.update s.workers w pc w' = _
  by_cases hw : w' = w
  · rw [if_pos hw, hw, Function.update_self]
  · rw [if_neg hw, Function.update_of_ne hw]

/-- A worker moves that has not won the exchange. -/
theorem settling_goto {w : Fin n} {pc : WorkerPc} (h : s.Settling)
    (hfrom : s.workers w ≠ .look ∧ s.workers w ≠ .callback) : (s.goto w pc).Settling := by
  rcases h with hset | ⟨w', hw'⟩
  · exact Or.inl hset
  · have hne : w' ≠ w := by
      rintro rfl
      exact hw'.elim hfrom.1 hfrom.2
    refine Or.inr ⟨w', ?_⟩
    rw [goto_workers, if_neg hne]
    exact hw'

/-- A worker has been started. -/
theorem TriggerInv.absent_goto (h : TriggerInv s) {w : Fin n} (pc : WorkerPc)
    (hstarted : s.workers w ≠ .absent) (w' : Fin n) (hw' : s.main.spawned n ≤ w') :
    (s.goto w pc).workers w' = .absent := by
  have habsent := h.absent w' hw'
  have hne : w' ≠ w := by
    rintro rfl
    exact hstarted habsent
  rw [goto_workers, if_neg hne]
  exact habsent

/-- A worker comes to its final drain only after the stop. -/
theorem TriggerInv.stopped_goto (h : TriggerInv s) {w : Fin n} {pc : WorkerPc}
    (hstop : pc = .finalDrain → s.running = false) (w' : Fin n)
    (hw' : (s.goto w pc).workers w' = .finalDrain) : s.running = false := by
  rw [goto_workers] at hw'
  split at hw'
  · exact hstop hw'
  · exact h.stopped w' hw'

/-- A worker moves without a batch in hand. -/
theorem TriggerInv.goto (h : TriggerInv s) {w : Fin n} {pc : WorkerPc}
    (hstarted : s.workers w ≠ .absent)
    (hfrom : s.workers w ≠ .look ∧ s.workers w ≠ .callback)
    (hfire : s.workers w = .fire → s.running = true → s.drained = true → s.Settling)
    (hstop : pc = .finalDrain → s.running = false) : TriggerInv (s.goto w pc) where
  absent := h.absent_goto pc hstarted
  fresh := h.fresh
  fired hbefore hfired := settling_goto (h.fired hbefore hfired) hfrom
  drained hr hd := by
    rcases h.drained hr hd with hsettling | ⟨w', hw'⟩
    · exact Or.inl (settling_goto hsettling hfrom)
    · -- A worker that leaves the firing step has settled the data it held.
      by_cases hw : w' = w
      · exact Or.inl (settling_goto (hfire (hw ▸ hw') hr hd) hfrom)
      · refine Or.inr ⟨w', ?_⟩
        rw [goto_workers, if_neg hw]
        exact hw'
  stopped := h.stopped_goto hstop
  idle := h.idle

/-- A worker that has been started runs after the first reset of
`m_first_data_fired`. -/
theorem TriggerInv.started (h : TriggerInv s) {w : Fin n} (hstarted : s.workers w ≠ .absent) :
    s.main.beforeFired = false := by
  rw [← Bool.not_eq_true]
  intro hbefore
  apply hstarted
  apply h.absent
  cases hmain : s.main with
  | start => exact Nat.zero_le _
  | resetFired => exact Nat.zero_le _
  | _ =>
    rw [hmain] at hbefore
    cases hbefore

/-- A step of a worker that finds the callback in time. -/
theorem triggerInv_worker {w : Fin n} {opened : Bool} {count : Nat} (h : TriggerInv s)
    (hstored : CallbackStored s) (htime : CallbackInTime s (.worker w opened count))
    (hstep : s.workerStep w opened count = some s') : TriggerInv s' := by
  unfold SnapshotState.workerStep at hstep
  cases hpc : s.workers w with
  | absent =>
    rw [hpc] at hstep
    cases hstep
  | exited =>
    rw [hpc] at hstep
    cases hstep
  | opening =>
    rw [hpc] at hstep
    cases hstep
    apply h.goto
    · simp [hpc]
    · simp [hpc]
    · simp [hpc]
    · intro hfinal
      split at hfinal
      · cases hfinal
      · cases hfinal
  | check =>
    rw [hpc] at hstep
    cases hstep
    apply h.goto
    · simp [hpc]
    · simp [hpc]
    · simp [hpc]
    · intro hfinal
      split at hfinal
      · cases hfinal
      · rename_i hno
        exact Bool.eq_false_iff.mpr hno
  | drain =>
    rw [hpc] at hstep
    simp only at hstep
    have hmoved : ∀ pc, pc ≠ .finalDrain → TriggerInv (s.goto w pc) := by
      intro pc hne
      exact h.goto (by simp [hpc]) (by simp [hpc]) (by simp [hpc]) fun hfinal => absurd hfinal hne
    split at hstep
    · cases hstep
      exact hmoved .check (by simp)
    · cases hstep
      have hnext := hmoved .fire (by simp)
      have hbefore := h.started (w := w) (by simp [hpc])
      exact {
        absent := hnext.absent
        fresh := fun hno => by
          have : s.main.beforeFired = true := hno
          rw [hbefore] at this
          cases this
        fired := hnext.fired
        drained := fun _ _ => Or.inr ⟨w, by
          show (s.goto w .fire).workers w = .fire
          rw [goto_workers, if_pos rfl]⟩
        stopped := hnext.stopped
        idle := h.idle }
  | fire =>
    rw [hpc] at hstep
    simp only at hstep
    have hbefore := h.started (w := w) (by simp [hpc])
    split at hstep
    · rename_i hfired
      cases hstep
      exact h.goto (by simp [hpc]) (by simp [hpc]) (fun _ _ _ => h.fired hbefore hfired) (by simp)
    · cases hstep
      have hlook : ({ s.goto w .look with firstDataFired := true } : SnapshotState n).Settling := by
        refine Or.inr ⟨w, Or.inl ?_⟩
        show (s.goto w .look).workers w = .look
        rw [goto_workers, if_pos rfl]
      exact {
        absent := h.absent_goto .look (by simp [hpc])
        fresh := h.fresh
        fired := fun _ _ => hlook
        drained := fun _ _ => Or.inl hlook
        stopped := h.stopped_goto (by simp)
        idle := h.idle }
  | look =>
    rw [hpc] at hstep
    cases hstep
    rw [if_pos (hstored (htime.1 hpc))]
    -- The worker is in the callback next.
    have hcallback : (s.goto w .callback).Settling := by
      refine Or.inr ⟨w, Or.inr ?_⟩
      rw [goto_workers, if_pos rfl]
    exact {
      absent := h.absent_goto .callback (by simp [hpc])
      fresh := h.fresh
      fired := fun _ _ => hcallback
      drained := fun _ _ => Or.inl hcallback
      stopped := h.stopped_goto (by simp)
      idle := h.idle }
  | callback =>
    rw [hpc] at hstep
    cases hstep
    -- The flag is set, and the command has passed its reset.
    have hset : ({ s.goto w .check with snapshotTriggered := true } : SnapshotState n).Settling :=
      Or.inl ⟨htime.2 hpc, rfl⟩
    exact {
      absent := h.absent_goto .check (by simp [hpc])
      fresh := h.fresh
      fired := fun _ _ => hset
      drained := fun _ _ => Or.inl hset
      stopped := h.stopped_goto (by simp)
      idle := h.idle }
  | finalDrain =>
    rw [hpc] at hstep
    simp only at hstep
    have hstopped := h.stopped w hpc
    have hbefore := h.started (w := w) (by simp [hpc])
    split at hstep
    · cases hstep
      exact h.goto (by simp [hpc]) (by simp [hpc]) (by simp [hpc]) (by simp)
    · cases hstep
      exact {
        absent := h.absent
        fresh := fun hno => by
          have : s.main.beforeFired = true := hno
          rw [hbefore] at this
          cases this
        fired := h.fired
        drained := fun hr _ => by
          have : s.running = true := hr
          rw [hstopped] at this
          cases this
        stopped := h.stopped
        idle := h.idle }

/-! ### Runs -/

/-- Only the command stores the callback, and it does so last but for
the reset of `m_first_data_fired`. -/
theorem callbackStored_next {ev : SnapshotEvent n} (h : CallbackStored s)
    (hnext : (snapshotMachine n).next s ev = some s') : CallbackStored s' := by
  -- No other thread moves the command or touches the callback.
  have hother : ∀ {t : SnapshotState n}, t.main = s.main → t.onFirstData = s.onFirstData →
      CallbackStored t := by
    intro t hmain hsame hstored
    rw [hsame]
    exact h (hmain ▸ hstored)
  cases ev with
  | main =>
    simp only [snapshotMachine, SnapshotState.mainStep] at hnext
    intro hstored
    cases hmain : s.main with
    | store =>
      rw [hmain] at hnext
      cases hnext
      rfl
    | rearm =>
      rw [hmain] at hnext
      cases hnext
      exact h (by rw [hmain]; rfl)
    | returned =>
      rw [hmain] at hnext
      cases hnext
    | _ =>
      -- Before the callback is stored, the next place is before that, too.
      rw [hmain] at hnext
      simp only at hnext
      first
        | split at hnext <;> cases hnext <;> cases hstored
        | (cases hnext; cases hstored)
  | worker w opened count =>
    simp only [snapshotMachine, SnapshotState.workerStep] at hnext
    split at hnext <;> (try split at hnext) <;> cases hnext <;> exact hother rfl rfl
  | snapshot found =>
    simp only [snapshotMachine, SnapshotState.snapshotStep] at hnext
    split at hnext <;> (try split at hnext) <;> cases hnext <;> exact hother rfl rfl
  | stop =>
    simp only [snapshotMachine] at hnext
    split at hnext
    · cases hnext
      exact hother rfl rfl
    · cases hnext

/-- Every event that finds the callback in time keeps the invariant. -/
theorem triggerInv_next {ev : SnapshotEvent n} (h : TriggerInv s) (hstored : CallbackStored s)
    (htime : CallbackInTime s ev) (hnext : (snapshotMachine n).next s ev = some s') :
    TriggerInv s' := by
  cases ev with
  | main => exact triggerInv_main h hnext
  | worker w opened count => exact triggerInv_worker h hstored htime hnext
  | snapshot found =>
    -- The snapshot thread only reads, and moves its own place.
    have hsame : ∃ pc, s' = { s with snapshot := pc } := by
      simp only [snapshotMachine, SnapshotState.snapshotStep] at hnext
      split at hnext
      · cases hnext
      · cases hnext
      · split at hnext
        · cases hnext
          exact ⟨_, rfl⟩
        · cases hnext
          exact ⟨_, rfl⟩
      · cases hnext
        exact ⟨_, rfl⟩
    obtain ⟨pc, rfl⟩ := hsame
    exact ⟨h.absent, h.fresh, h.fired, h.drained, h.stopped, h.idle⟩
  | stop =>
    simp only [snapshotMachine] at hnext
    split at hnext
    · cases hnext
      exact ⟨h.absent, h.fresh, h.fired, fun hno => (by cases hno), fun _ _ => rfl, fun _ => rfl⟩
    · cases hnext

/-- The invariant gives the property. -/
theorem TriggerInv.reaches (h : TriggerInv s) : TriggerReaches s := by
  intro hmain hrunning hdrained
  have hbefore : s.main.beforeFired = false := by
    rw [hmain]
    rfl
  have hsettling : s.Settling → s.snapshotTriggered = true ∨ ∃ w, s.Underway w := by
    rintro (⟨_, htriggered⟩ | ⟨w, hw⟩)
    · exact Or.inl htriggered
    · exact Or.inr ⟨w, Or.inr hw⟩
  rcases h.drained hrunning hdrained with hs | ⟨w, hw⟩
  · exact hsettling hs
  · cases hfired : s.firstDataFired with
    | true => exact hsettling (h.fired hbefore hfired)
    | false => exact Or.inr ⟨w, Or.inl ⟨hw, hfired⟩⟩

end

/-- In every run in which no worker looks for the callback before it is
stored, and none is in it before the command has reset the flag, a batch
drained since the start of the poller has set the flag or is about to,
in every state after the command has returned in which the poller still
runs. -/
theorem trigger_reaches_snapshot (n : Nat) (firstDataFired onFirstData snapshotTriggered : Bool)
    {evs : List (SnapshotEvent n)} {s : SnapshotState n}
    (hrun : (snapshotMachine n).run
      (.initial n firstDataFired onFirstData snapshotTriggered) evs = some s)
    (htime : (snapshotMachine n).Along CallbackInTime
      (.initial n firstDataFired onFirstData snapshotTriggered) evs) : TriggerReaches s := by
  have hinv := (snapshotMachine n).invariant_of_along (I := fun s => TriggerInv s ∧ CallbackStored s)
    (fun _ _ _ hI hok hnext =>
      ⟨triggerInv_next hI.1 hI.2 hok hnext, callbackStored_next hI.2 hnext⟩)
    ⟨triggerInv_initial firstDataFired onFirstData snapshotTriggered, nofun⟩ htime hrun
  exact hinv.1.reaches

/-! ### One worker -/

/-- The command up to the start of the workers, and the rest of it. -/
def startPoller : List (SnapshotEvent 1) := List.replicate 4 .main

/-- The main thread runs on to the end of the command. -/
def restOfCommand : List (SnapshotEvent 1) := List.replicate 6 .main

/-- So many steps of the worker, which opens its file and drains ten
entries. -/
def workerSteps (count : Nat) : List (SnapshotEvent 1) := List.replicate count (.worker 0 true 10)

/-- The batch comes after the command has returned. -/
theorem trigger_reaches_afterwards : ∃ s,
    (snapshotMachine 1).run (.initial 1 false false false)
      (startPoller ++ restOfCommand ++ workerSteps 6) = some s ∧
      s.drained = true ∧ TriggerReaches s := by
  obtain ⟨s, hrun, hdrained⟩ : ∃ s,
      (snapshotMachine 1).run (.initial 1 false false false)
        (startPoller ++ restOfCommand ++ workerSteps 6) = some s ∧ s.drained = true :=
    ⟨_, rfl, rfl⟩
  refine ⟨s, hrun, hdrained, trigger_reaches_snapshot 1 false false false hrun ?_⟩
  iterate 10 refine Machine.along_cons rfl trivial ?_
  -- From here on the callback is stored and the flag is not reset any more.
  iterate 6 refine Machine.along_cons rfl ⟨fun _ => rfl, fun _ => rfl⟩ ?_
  trivial

/-- The claimed property fails: the worker handles its first batch
before the callback is installed. The flag is never set, and the
snapshot thread waits. -/
theorem first_batch_lost : ∃ s,
    (snapshotMachine 1).run (.initial 1 false false false)
      (startPoller ++ workerSteps 5 ++ restOfCommand) = some s ∧
      s.snapshot = .waiting ∧ ¬ TriggerReaches s := by
  refine ⟨_, rfl, rfl, fun hreaches => ?_⟩
  rcases hreaches rfl rfl rfl with htriggered | ⟨w, hw⟩
  · cases htriggered
  · have hcheck : w = 0 := Subsingleton.elim w 0
    subst hcheck
    rcases hw with ⟨hfire, _⟩ | hlook | hcallback
    · cases hfire
    · cases hlook
    · cases hcallback

end Revhv.OnloadSnapshot
