import Revhv.Um.TraceSession
import Revhv.Proofs.Flush

/-!
# `Revhv.Proofs.TraceSession`: which accepted entries reach the file

The entries that `emit` accepts in a session pass from the ring through
the worker's batch to the file. `SessionInv.content` says that at every
moment the accepted entries are the file, the batch in flight and the
ring, one after the other. Three steps can break it: a hypercall of
`at enable` or `at disable` that finds entries in the ring, and a drain
whose copy fails. `keepsAll` excludes just these.

* `drainTraceLogs_spec`: a drain whose batches can be written moves the
  oldest entries from the ring to the batch.
* `sessionMachine_inv`: one step keeps the invariant.
* `session_written`: in every run of such steps, each accepted entry is
  in the file once and in order when the ring has been deactivated.
* `session_loses_entry`: a run in which an entry comes between the final
  drain and the disable hypercall.
-/

set_option autoImplicit false

namespace Revhv.TraceSession

open Revhv.Lib Revhv.Trace Revhv.Introspection Revhv.Hypercall

/-- The batch that the worker holds between a drain and the write. -/
def WorkerPc.inFlight : WorkerPc → List Entry
  | .write batch _ => batch
  | _ => []

/-- The worker is past opening the file and has not returned. -/
def WorkerPc.active : WorkerPc → Bool
  | .check | .drain _ | .write _ _ => true
  | _ => false

/-- A step after which no entry is missing: an enable or disable
hypercall finds the ring empty, and a drain can write every batch. -/
def keepsAll (batchVa : Nat) (s : SessionState) : SessionEvent → Prop
  | .enableHypercall here _ => here = true → s.ring.pending = []
  | .disableHypercall => s.ring.pending = []
  | .drain pages =>
      BatchesWritable pages batchVa 0 (min maxFlushEntries s.ring.pending.length)
  | _ => True

/-- The invariant of the session. -/
structure SessionInv (s : SessionState) : Prop where
  wf : s.ring.WF
  content : s.accepted =
    (if s.opened then s.file ++ s.worker.inFlight else []) ++ s.ring.pending
  inactive : s.ring.active = false → s.ring.pending = [] ∧ s.worker = .absent
  fresh : s.ring.active = true → s.worker = .absent → s.controller ≠ .disableHypercall →
    s.opened = false
  opening : s.worker = .opening → s.opened = false
  opened : s.worker.active = true → s.opened = true
  running : s.running = true → s.worker ≠ .absent
  stopped : s.worker ≠ .absent → s.running = true ∨ s.controller = .join
  starting : s.controller = .startPoller → s.ring.active = true
  joining : s.controller = .join → s.worker ≠ .absent ∧ s.running = false
  disabling : s.controller = .disableHypercall → s.worker = .absent ∧ s.running = false

/-- A zeroed ring is empty. -/
theorem zeroed_pending (entries : Nat → Entry) :
    RingBuffer.pending ⟨0, 0, false, entries⟩ = [] :=
  pending_of_eq (RingBuffer.Reachable.zeroed entries).wf.tail rfl

/-- At the start no session has written anything. -/
theorem sessionInv_initial (entries : Nat → Entry) (file : List Entry) :
    SessionInv (SessionState.initial entries file) where
  wf := (RingBuffer.Reachable.zeroed entries).wf
  content := by
    show [] = [] ++ RingBuffer.pending ⟨0, 0, false, entries⟩
    rw [zeroed_pending, List.append_nil]
  inactive _ := ⟨zeroed_pending entries, rfl⟩
  fresh h := by cases h
  opening h := by cases h
  opened h := by cases h
  running h := by cases h
  stopped h := absurd rfl h
  starting h := by cases h
  joining h := by cases h
  disabling h := by cases h

/-- A drain whose batches can be written takes the oldest entries off
the ring. -/
theorem drainTraceLogs_spec {batchVa : Nat} {pages : Nat → GuestPages} {buf : RingBuffer}
    (hwf : buf.WF)
    (hw : BatchesWritable pages batchVa 0 (min maxFlushEntries buf.pending.length)) :
    (drainTraceLogs batchVa pages buf).1.WF ∧
      (drainTraceLogs batchVa pages buf).2 ++ (drainTraceLogs batchVa pages buf).1.pending =
        buf.pending ∧
      (drainTraceLogs batchVa pages buf).1.active = buf.active := by
  obtain ⟨buf', out', hloop, hwf', hpending, -, hslots⟩ :=
    flushTraceLoop_delivers pages batchVa maxFlushEntries (fun _ => none) hwf
      (Nat.le_add_left maxFlushEntries 0) rfl hw
  rw [Nat.zero_add] at hloop
  have hactive := flushTraceLoop_active pages batchVa maxFlushEntries (fun _ => none)
    maxFlushEntries buf 0
  rw [hloop] at hactive
  rw [drainTraceLogs, hloop]
  refine ⟨hwf', ?_, hactive⟩
  -- With the batch writable the records come back as they were drained.
  have hrecords : returnedRecords (min (maxFlushEntries - 0) buf.pending.length) out' =
      buf.pending.take (min (maxFlushEntries - 0) buf.pending.length) :=
    returnedRecords_eq_take (fun i hi => by rw [← hslots i hi, Nat.zero_add])
      (Nat.min_le_right ..)
  show returnedRecords _ out' ++ buf'.pending = _
  rw [hrecords, hpending, List.take_append_drop]

/-- An accepted entry goes to the end of the ring and of the accepted
ones. -/
theorem emitEvent_inv {s : SessionState} (h : SessionInv s) (fmt : FormatId) (core : UInt16)
    (tsc : UInt64) (d : Fin 6 → UInt64) : SessionInv (emitEvent s fmt core tsc d) := by
  have hactive : (emit s.ring fmt core tsc d).active = s.ring.active :=
    emit_active fmt core tsc d
  have hpending := emit_pending fmt core tsc d h.wf
  refine { h with wf := emit_wf fmt core tsc d h.wf, content := ?_, inactive := ?_, fresh := ?_,
                  starting := ?_ }
  · -- A full or inactive ring drops the record, and then neither side has it.
    show (if emitAccepts s.ring then _ else _) = _ ++ (emit s.ring fmt core tsc d).pending
    rw [hpending]
    split
    · rw [h.content, List.append_assoc]
      rfl
    · exact h.content
  · intro hoff
    have hoff' : s.ring.active = false := hactive.symm.trans hoff
    obtain ⟨hempty, habsent⟩ := h.inactive hoff'
    refine ⟨?_, habsent⟩
    show (emit s.ring fmt core tsc d).pending = []
    rw [hpending, emitAccepts, hoff']
    exact hempty
  · exact fun hon => h.fresh (hactive.symm.trans hon)
  · exact fun hstart => hactive.trans (h.starting hstart)

/-- Without a poller that runs or is joined there is no worker. -/
theorem SessionInv.absent {s : SessionState} (h : SessionInv s) (hrun : s.running = false)
    (hjoin : s.controller ≠ .join) : s.worker = .absent := by
  by_contra hw
  rcases h.stopped hw with hrun' | hjoin'
  · rw [hrun] at hrun'
    cases hrun'
  · exact hjoin hjoin'

/-- The controller's steps. -/
theorem controllerEvent_inv {batchVa : Nat} {s s' : SessionState} {ev : SessionEvent}
    (h : SessionInv s) (hkeeps : keepsAll batchVa s ev) (hev : controllerEvent s ev = some s') :
    SessionInv s' := by
  cases ev with
  | command c =>
    simp only [controllerEvent, Option.ite_none_right_eq_some, Option.some.injEq] at hev
    obtain ⟨hidle, rfl⟩ := hev
    have hstopped : s.worker ≠ .absent → s.running = true := fun hw =>
      (h.stopped hw).resolve_right (by rw [hidle]; simp)
    have hfresh : s.ring.active = true → s.worker = .absent → s.opened = false :=
      fun hon hw => h.fresh hon hw (by rw [hidle]; simp)
    refine { h with fresh := fun hon hw _ => hfresh hon hw,
                    stopped := fun hw => Or.inl (hstopped hw),
                    starting := ?_, joining := ?_, disabling := ?_ } <;>
    · intro hc
      cases c <;> cases hc
  | enableHypercall here elsewhere =>
    simp only [controllerEvent, Option.ite_none_right_eq_some] at hev
    obtain ⟨hpc, hev⟩ := hev
    have hstopped : s.worker ≠ .absent → s.running = true := fun hw =>
      (h.stopped hw).resolve_right (by rw [hpc]; simp)
    have hfresh : s.ring.active = true → s.worker = .absent → s.opened = false :=
      fun hon hw => h.fresh hon hw (by rw [hpc]; simp)
    cases here with
    | false =>
      simp only [Bool.false_and, Bool.false_eq_true, if_false, Option.some.injEq] at hev
      subst hev
      exact { h with fresh := fun hon hw _ => hfresh hon hw,
                     stopped := fun hw => Or.inl (hstopped hw),
                     starting := (fun hc => by cases hc), joining := (fun hc => by cases hc),
                     disabling := (fun hc => by cases hc) }
    | true =>
      simp only [if_true, Option.some.injEq] at hev
      subst hev
      have hempty : s.ring.pending = [] := hkeeps rfl
      have hcontent := h.content
      rw [hempty, List.append_nil] at hcontent
      refine { h with wf := activate_wf _, content := ?_, inactive := (fun hoff => by cases hoff),
                      fresh := ?_, opening := ?_, opened := ?_,
                      stopped := fun hw => Or.inl (hstopped hw), starting := fun _ => rfl,
                      joining := ?_, disabling := ?_ }
      · rw [activate_pending, List.append_nil]
        cases hon : s.ring.active with
        | true => simpa using hcontent
        | false => rfl
      · intro _ hw _
        show (s.ring.active && s.opened) = false
        cases hon : s.ring.active with
        | true => exact hfresh hon hw
        | false => rfl
      · intro hw
        show (s.ring.active && s.opened) = false
        rw [h.opening hw, Bool.and_false]
      · intro hw
        show (s.ring.active && s.opened) = true
        rw [h.opened hw, Bool.and_true]
        cases hon : s.ring.active with
        | true => rfl
        | false =>
          have hw' : s.worker.active = true := hw
          rw [(h.inactive hon).2] at hw'
          cases hw'
      · intro hc
        cases elsewhere <;> cases hc
      · intro hc
        cases elsewhere <;> cases hc
  | startPoller =>
    simp only [controllerEvent, Option.ite_none_right_eq_some, Option.some.injEq] at hev
    obtain ⟨hpc, rfl⟩ := hev
    have hon := h.starting hpc
    cases hrun : s.running with
    | true =>
      have hw := h.running hrun
      exact { h with fresh := fun _ habs => absurd habs hw,
                     running := fun _ => hw, stopped := fun _ => Or.inl rfl,
                     starting := (fun hc => by cases hc), joining := (fun hc => by cases hc),
                     disabling := (fun hc => by cases hc) }
    | false =>
      -- Without a poller there is no worker, and the file was not opened in this session.
      have habsent : s.worker = .absent := h.absent hrun (by rw [hpc]; simp)
      have hnew : s.opened = false := h.fresh hon habsent (by rw [hpc]; simp)
      refine { h with content := ?_, inactive := ?_, fresh := (fun _ hw => by cases hw),
                      opening := fun _ => hnew, opened := (fun hw => by cases hw),
                      running := fun _ => by simp, stopped := fun _ => Or.inl rfl,
                      starting := (fun hc => by cases hc), joining := (fun hc => by cases hc),
                      disabling := (fun hc => by cases hc) }
      · have hcontent := h.content
        rw [hnew] at hcontent ⊢
        exact hcontent
      · intro hoff
        rw [hon] at hoff
        cases hoff
  | stopPoller =>
    simp only [controllerEvent, Option.ite_none_right_eq_some, Option.some.injEq] at hev
    obtain ⟨hpc, rfl⟩ := hev
    cases hrun : s.running with
    | true =>
      have hw := h.running hrun
      exact { h with fresh := fun _ habs => absurd habs hw,
                     running := (fun hr => by cases hr), stopped := fun _ => Or.inr rfl,
                     starting := (fun hc => by cases hc), joining := fun _ => ⟨hw, rfl⟩,
                     disabling := (fun hc => by cases hc) }
    | false =>
      have habsent : s.worker = .absent := h.absent hrun (by rw [hpc]; simp)
      exact { h with fresh := fun _ _ hc => absurd rfl hc,
                     running := (fun hr => by cases hr), stopped := fun hw => absurd habsent hw,
                     starting := (fun hc => by cases hc), joining := (fun hc => by cases hc),
                     disabling := fun _ => ⟨habsent, rfl⟩ }
  | join =>
    simp only [controllerEvent] at hev
    split at hev
    · rename_i hpc hw
      simp only [Option.some.injEq] at hev
      subst hev
      have hrun := (h.joining hpc).2
      refine { h with content := ?_, inactive := fun hoff => ⟨(h.inactive hoff).1, rfl⟩,
                      fresh := fun _ _ hc => absurd rfl hc, opening := (fun hc => by cases hc),
                      opened := (fun hc => by cases hc), running := ?_,
                      stopped := fun hc => absurd rfl hc, starting := (fun hc => by cases hc),
                      joining := (fun hc => by cases hc), disabling := fun _ => ⟨rfl, hrun⟩ }
      · have hcontent := h.content
        rw [hw] at hcontent
        exact hcontent
      · intro hr
        rw [hrun] at hr
        cases hr
    · cases hev
  | disableHypercall =>
    simp only [controllerEvent, Option.ite_none_right_eq_some, Option.some.injEq] at hev
    obtain ⟨hpc, rfl⟩ := hev
    obtain ⟨habsent, hrun⟩ := h.disabling hpc
    exact { h with wf := deactivate_wf h.wf, inactive := fun _ => ⟨hkeeps, habsent⟩,
                   fresh := (fun hon => by cases hon),
                   stopped := fun hw => absurd habsent hw,
                   starting := (fun hc => by cases hc), joining := (fun hc => by cases hc),
                   disabling := (fun hc => by cases hc) }
  | emit | openFile | checkRunning | drain | writeBatch => cases hev

/-- The worker's steps. -/
theorem workerEvent_inv {batchVa : Nat} {s s' : SessionState} {ev : SessionEvent}
    (h : SessionInv s) (hkeeps : keepsAll batchVa s ev)
    (hev : workerEvent batchVa s ev = some s') : SessionInv s' := by
  -- A step of the worker from `pc` to another point that is not `absent`.
  have hthread : ∀ {pc : WorkerPc}, s.worker = pc → pc ≠ .absent →
      s.ring.active = true ∧ (s.running = true ∨ s.controller = .join) ∧
        s.controller ≠ .disableHypercall := by
    rintro pc rfl hpc
    refine ⟨?_, h.stopped hpc, fun hc => hpc (h.disabling hc).1⟩
    cases hon : s.ring.active with
    | true => rfl
    | false => exact absurd (h.inactive hon).2 hpc
  cases ev with
  | openFile ok =>
    simp only [workerEvent] at hev
    split at hev
    · rename_i hw
      obtain ⟨hon, hstopped, hctl⟩ := hthread hw (by simp)
      have hnew := h.opening hw
      have hcontent := h.content
      rw [hnew] at hcontent
      cases ok with
      | true =>
        simp only [if_true, Option.some.injEq] at hev
        subst hev
        exact { h with content := hcontent,
                       inactive := (fun hoff => by rw [hon] at hoff; cases hoff),
                       fresh := (fun _ hc => by cases hc), opening := (fun hc => by cases hc),
                       opened := fun _ => rfl, running := fun _ => by simp,
                       stopped := fun _ => hstopped,
                       joining := fun hc => ⟨by simp, (h.joining hc).2⟩,
                       disabling := fun hc => absurd hc hctl }
      | false =>
        simp only [Bool.false_eq_true, if_false, Option.some.injEq] at hev
        subst hev
        refine { h with content := ?_,
                        inactive := (fun hoff => by rw [hon] at hoff; cases hoff),
                        fresh := (fun _ hc => by cases hc), opening := (fun hc => by cases hc),
                        opened := (fun hc => by cases hc), running := fun _ => by simp,
                        stopped := fun _ => hstopped,
                        joining := fun hc => ⟨by simp, (h.joining hc).2⟩,
                        disabling := fun hc => absurd hc hctl }
        rw [hnew]
        exact hcontent
    · cases hev
  | checkRunning =>
    simp only [workerEvent] at hev
    split at hev
    · rename_i hw
      simp only [Option.some.injEq] at hev
      subst hev
      obtain ⟨hon, hstopped, hctl⟩ := hthread hw (by simp)
      have hcontent := h.content
      rw [hw] at hcontent
      exact { h with content := hcontent,
                     inactive := (fun hoff => by rw [hon] at hoff; cases hoff),
                     fresh := (fun _ hc => by cases hc), opening := (fun hc => by cases hc),
                     opened := fun _ => h.opened (by rw [hw]; rfl), running := fun _ => by simp,
                     stopped := fun _ => hstopped,
                     joining := fun hc => ⟨by simp, (h.joining hc).2⟩,
                     disabling := fun hc => absurd hc hctl }
    · cases hev
  | drain pages =>
    simp only [workerEvent] at hev
    split at hev
    · rename_i final hw
      simp only [Option.some.injEq] at hev
      subst hev
      obtain ⟨hon, hstopped, hctl⟩ := hthread hw (by simp)
      have hopened := h.opened (by rw [hw]; rfl)
      obtain ⟨hwf, hsplit, hactive⟩ := drainTraceLogs_spec h.wf hkeeps
      have hcontent := h.content
      rw [hw, hopened, ← hsplit] at hcontent
      -- An empty batch takes nothing off the ring, any other one is in flight now.
      have hnext : ∃ pc : WorkerPc, pc ≠ .absent ∧ pc ≠ .opening ∧
          pc.inFlight = (drainTraceLogs batchVa pages s.ring).2 ∧
          (if (drainTraceLogs batchVa pages s.ring).2 = [] then
            (if final then WorkerPc.exited else .check)
            else .write (drainTraceLogs batchVa pages s.ring).2 final) = pc := by
        refine ⟨_, ?_, ?_, ?_, rfl⟩
        · split
          · split <;> simp
          · simp
        · split
          · split <;> simp
          · simp
        · split
          · rename_i hempty
            rw [hempty]
            split <;> rfl
          · rfl
      obtain ⟨pc, habsent, hopening, hflight, hpc⟩ := hnext
      rw [hpc]
      refine { h with wf := hwf, content := ?_,
                      inactive := (fun hoff => by rw [hactive, hon] at hoff; cases hoff),
                      fresh := fun _ hc => absurd hc habsent,
                      opening := fun hc => absurd hc hopening, opened := fun _ => hopened,
                      running := fun _ => habsent, stopped := fun _ => hstopped,
                      starting := fun hc => hactive.trans (h.starting hc),
                      joining := fun hc => ⟨habsent, (h.joining hc).2⟩,
                      disabling := fun hc => absurd hc hctl }
      show s.accepted = (if s.opened then s.file ++ pc.inFlight else []) ++ _
      rw [hcontent, hopened, hflight]
      simp [WorkerPc.inFlight]
    · cases hev
  | writeBatch =>
    simp only [workerEvent] at hev
    split at hev
    · rename_i batch final hw
      simp only [Option.some.injEq] at hev
      subst hev
      obtain ⟨hon, hstopped, hctl⟩ := hthread hw (by simp)
      have hopened := h.opened (by rw [hw]; rfl)
      have hcontent := h.content
      rw [hw, hopened] at hcontent
      refine { h with content := ?_,
                      inactive := (fun hoff => by rw [hon] at hoff; cases hoff),
                      fresh := (fun _ hc => by cases final <;> cases hc),
                      opening := (fun hc => by cases final <;> cases hc),
                      opened := fun _ => hopened, running := (fun _ => by cases final <;> simp),
                      stopped := fun _ => hstopped,
                      joining := fun hc => ⟨by cases final <;> simp, (h.joining hc).2⟩,
                      disabling := fun hc => absurd hc hctl }
      rw [hcontent, hopened]
      cases final <;> simp [WorkerPc.inFlight]
    · cases hev
  | emit | command | enableHypercall | startPoller | stopPoller | join | disableHypercall =>
    cases hev

/-- One step of any party keeps the invariant. -/
theorem sessionMachine_inv {batchVa : Nat} {s s' : SessionState} {ev : SessionEvent}
    (h : SessionInv s) (hkeeps : keepsAll batchVa s ev)
    (hnext : (sessionMachine batchVa).next s ev = some s') : SessionInv s' := by
  cases ev with
  | emit fmt core tsc d =>
    simp only [sessionMachine, Option.some.injEq] at hnext
    subst hnext
    exact emitEvent_inv h fmt core tsc d
  | openFile | checkRunning | drain | writeBatch => exact workerEvent_inv h hkeeps hnext
  | command | enableHypercall | startPoller | stopPoller | join | disableHypercall =>
    exact controllerEvent_inv h hkeeps hnext

/-- What the session promises: the file never runs ahead of the accepted
entries or changes their order, and when the ring is inactive it holds
each of them. -/
structure Written (s : SessionState) : Prop where
  in_order : s.opened = true → s.file <+: s.accepted
  complete : s.ring.active = false → s.accepted = [] ∨ s.file = s.accepted

/-- The invariant gives the property. -/
theorem SessionInv.written {s : SessionState} (h : SessionInv s) : Written s where
  in_order hopened := by
    rw [h.content, if_pos hopened, List.append_assoc]
    exact List.prefix_append ..
  complete hoff := by
    obtain ⟨hempty, habsent⟩ := h.inactive hoff
    have hcontent := h.content
    rw [hempty, habsent, List.append_nil] at hcontent
    cases hopened : s.opened with
    | false =>
      rw [hopened] at hcontent
      exact Or.inl hcontent
    | true =>
      rw [hopened] at hcontent
      exact Or.inr (by rw [hcontent]; exact (List.append_nil _).symm)

/-- **From the ring to the file.** In every run whose steps meet
`keepsAll`, the entries that `emit` accepts in a session are in the
core's file, once each and in order, when the session is over. -/
theorem session_written (batchVa : Nat) (entries : Nat → Entry) (file : List Entry)
    (es : List SessionEvent) {s : SessionState}
    (hrun : (sessionMachine batchVa).run (SessionState.initial entries file) es = some s)
    (hkeeps : (sessionMachine batchVa).Along (keepsAll batchVa)
      (SessionState.initial entries file) es) :
    Written s :=
  ((sessionMachine batchVa).invariant_of_along
    (fun _ _ _ hinv hok hnext => sessionMachine_inv hinv hok hnext)
    (sessionInv_initial entries file) hkeeps hrun).written

/-! ### One entry -/

/-- A zeroed ring, and no file yet. -/
def start : SessionState := SessionState.initial (fun _ => makeEntry .invalid 0 0 fun _ => 0) []

/-- A session in which one entry is emitted while the worker polls. -/
def oneEntryRun : List SessionEvent :=
  [.command .enable, .enableHypercall true true, .startPoller, .openFile true,
   .emit .eptTargetTransition 0 7 fun _ => 5, .checkRunning,
   .drain fun _ => residentArray.pages, .writeBatch, .command .disable, .stopPoller,
   .checkRunning, .drain fun _ => residentArray.pages, .join, .disableHypercall]

/-- After `oneEntryRun` the entry is in the file. -/
theorem session_written_oneEntryRun : ∃ s,
    (sessionMachine 0x1000).run start oneEntryRun = some s ∧ Written s := by
  refine ⟨_, rfl, session_written 0x1000 (fun _ => makeEntry .invalid 0 0 fun _ => 0) []
    oneEntryRun rfl ?_⟩
  refine Machine.along_cons rfl trivial (Machine.along_cons rfl (fun _ => zeroed_pending _) ?_)
  refine Machine.along_cons rfl trivial (Machine.along_cons rfl trivial ?_)
  refine Machine.along_cons rfl trivial (Machine.along_cons rfl trivial ?_)
  refine Machine.along_cons rfl (residentArray.batchesWritable (Nat.min_le_left ..)) ?_
  refine Machine.along_cons rfl trivial (Machine.along_cons rfl trivial ?_)
  refine Machine.along_cons rfl trivial (Machine.along_cons rfl trivial ?_)
  refine Machine.along_cons rfl (residentArray.batchesWritable (Nat.min_le_left ..)) ?_
  refine Machine.along_cons rfl trivial ?_
  exact Machine.along_cons rfl (pending_of_eq (by decide) rfl) trivial

/-- A session in which the entry comes after the worker's final drain,
while `at disable` has yet to reach the core. -/
def lateEntryRun : List SessionEvent :=
  [.command .enable, .enableHypercall true true, .startPoller, .openFile true,
   .command .disable, .stopPoller, .checkRunning, .drain fun _ => residentArray.pages,
   .emit .eptTargetTransition 0 7 fun _ => 5, .join, .disableHypercall]

/-- After `lateEntryRun` the file is empty. -/
theorem session_loses_entry : ∃ s,
    (sessionMachine 0x1000).run start lateEntryRun = some s ∧ ¬ Written s := by
  refine ⟨_, rfl, fun h => ?_⟩
  rcases h.complete rfl with haccepted | hfile
  · exact absurd (congrArg List.length haccepted) (by decide)
  · exact absurd (congrArg List.length hfile) (by decide)

end Revhv.TraceSession
