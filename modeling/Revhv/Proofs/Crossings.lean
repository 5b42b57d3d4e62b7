import Revhv.Km.GuestAccess
import Revhv.Proofs.EptMachine
import Revhv.Proofs.TraceQueue

/-!
# `Revhv.Proofs.Crossings`: what a session records

A session on the pages `T` traps `T` in the normal view and everything
else in the target view. The view in use is therefore a memory of where
the last fetch was, and each flip out of `T` is recorded.

* `crossings` are the fetches outside `T` whose predecessor was inside.
* `crossings_recorded`: the entries recorded during a session are those
  of the crossings, in their order.
-/

set_option autoImplicit false

namespace Revhv.Crossings

open Revhv.Ept Revhv.Hypercall Revhv.Lib Revhv.Memory Revhv.Trace Revhv.TransitionCfg Revhv.Vcpu
  Revhv.Vmexit

/-! ### The property -/

/-- The fetches among some events. -/
def fetches (es : List GuestEvent) : List Access :=
  es.filterMap fun e =>
    match e with
    | .access a => if a.kind = .fetch then some a else none
    | .drain _ => none

/-- The fetches outside `T` that come right after one inside. `inside`
is where the fetch before the first one was. -/
def crossings (T : List GuestPage) (inside : Bool) (fs : List Access) : List Access :=
  ((fs.zip (inside :: fs.map fun f => decide (f.page ∈ T))).filter fun f =>
    f.2 && decide (f.1.page ∉ T)).map Prod.fst

/-- The entry of a transition out of the target range at fetch `f`. -/
def transitionEntry (v : Vcpu) (f : Access) : Entry :=
  makeEntry .eptTargetTransition (UInt16.ofNat v.coreId) f.tsc
    (resolveDataFields (lookupTransitionCfg v.transitionCfgs f.guest.rip) f.guest)

/-- Auto-trace is inactive: both views let every page run that has no
active hook. -/
structure Inactive (v : Vcpu) : Prop where
  normal : ∀ q, ¬ v.ept.normal.ActiveHook q → v.ept.normal.Executable q
  target : ∀ q, ¬ v.ept.target.ActiveHook q → v.ept.target.Executable q

/-- The ring has room for an entry before the event. -/
def RoomLeft (s : TracedVcpu) (_ : GuestEvent) : Prop :=
  s.vcpu.traceBuffer.pending.length + 1 < ringBufferEntryCount

/-! ### Open views -/

/-- Pages without an active hook may be read and written in both views. -/
structure OpenPair (p : ViewPair) : Prop where
  normal : p.normal.Open
  target : p.target.Open

/-- Pages stay open to data while the hooks are suspended. -/
theorem openPair_suspend {p : ViewPair} (h : OpenPair p) : OpenPair p.suspend :=
  ⟨View.open_suspend GuestPage.frame h.normal, View.open_suspend GuestPage.frame h.target⟩

/-- So does the end of a session. -/
theorem openPair_reset (p : ViewPair) : OpenPair p.reset :=
  ⟨View.open_resume GuestPage.frame (View.open_setAccess p.normal true),
    View.open_resume GuestPage.frame (View.open_setAccess p.target true)⟩

/-- So does the start of a session, which takes rights to execute only. -/
theorem openPair_trace {p : ViewPair} (h : OpenPair p) (pages : List GuestPage) :
    OpenPair (p.trace pages) :=
  ⟨View.open_setExecute h.normal pages false,
    View.open_setExecute (View.open_setAccess p.target false) pages true⟩

/-- An edit of the view in use that keeps it open. -/
theorem openPair_onCurrent {p : ViewPair} (h : OpenPair p) (inNormal : Bool)
    {f : View GuestPage Nat → View GuestPage Nat}
    (hf : (p.current inNormal).Open → (f (p.current inNormal)).Open) :
    OpenPair (p.onCurrent inNormal f) := by
  cases inNormal with
  | true => exact ⟨hf h.normal, h.target⟩
  | false => exact ⟨h.normal, hf h.target⟩

/-- Every exit keeps the views open. -/
theorem openPair_next {systemCr3 : Nat} {v v' : Vcpu} {e : EptExit} (hwf : v.WF)
    (h : OpenPair v.views) (hnext : (eptMachine systemCr3).next v e = some v') :
    OpenPair v'.views := by
  obtain ⟨_, hstep⟩ := next_viewStep hwf hnext
  -- Only hooks and sessions touch read and write access, and each of them
  -- leaves an entry open to one of the two.
  cases hstep with
  | hookRefused _ views _ _ =>
    rw [views]
    exact h
  | hookStored _ views _ _ =>
    rw [views]
    exact ⟨View.open_guard h.normal _ _, View.open_guard h.target _ _⟩
  | enabled _ _ views _ _ _ _ _ =>
    rw [views]
    exact openPair_trace (openPair_suspend h) _
  | enableFailed _ views _ _ =>
    rw [views]
    exact openPair_reset _
  | disabled views _ =>
    rw [views]
    exact openPair_reset _
  | retyped views _ =>
    rw [views]
    exact h
  | swappedIn _ mem active _ views _ =>
    rw [views]
    exact openPair_onCurrent h _ fun hopen => View.open_swapIn hopen _ ⟨_, mem, rfl, active⟩
  | swappedOut _ _ _ _ views _ =>
    rw [views]
    exact openPair_onCurrent h _ fun hopen => View.open_swapOut GuestPage.frame hopen _
  | flipped _ _ views _ _ _ _ =>
    rw [views]
    exact h

/-- The views of a vCPU are open after any run. -/
theorem reachable_open {systemCr3 : Nat} {setup : VcpuSetup} {entries : Nat → Entry}
    {es : List EptExit} {v : Vcpu}
    (hrun : (eptMachine systemCr3).run (initialVcpu setup entries) es = some v) :
    OpenPair v.views := by
  have hstart : OpenPair (initialVcpu setup entries).views := by
    rw [initialVcpu_views]
    exact ⟨fun _ _ => ⟨rfl, rfl⟩, fun _ _ => ⟨rfl, rfl⟩⟩
  have h : v.WF ∧ OpenPair v.views :=
    (eptMachine systemCr3).invariant_of_run (I := fun v => v.WF ∧ OpenPair v.views)
      (fun _ _ _ hI hnext => ⟨(next_viewStep hI.1 hnext).1, openPair_next hI.1 hI.2 hnext⟩)
      ⟨initialVcpu_wf setup entries, hstart⟩ hrun
  exact h.2

/-! ### The invariant of a session -/

/-- A session on the pages `T`, the last fetch having been inside or
not. `start` is the vCPU right after the enable. -/
structure Tracing (T : List GuestPage) (start : Vcpu) (inside : Bool) (v : Vcpu) : Prop where
  wf : v.WF
  normal : ∀ q, (v.views.normal.map q).execute = true ↔ q ∉ T
  target : ∀ q, (v.views.target.map q).execute = true ↔ q ∈ T
  unguarded : ∀ q, ¬ v.views.normal.Guarded q
  opened : OpenPair v.views
  inNormal : v.inNormalExecution = !inside
  cfgs : v.transitionCfgs = start.transitionCfgs
  core : v.coreId = start.coreId
  ring : v.traceBuffer.WF
  active : v.traceBuffer.active = true

section
variable {T : List GuestPage} {start v : Vcpu} {inside : Bool}

/-- Where the views are the same, the ring's indices are in range and
the ring is active, a session goes on. -/
theorem Tracing.of_views (h : Tracing T start inside v) {v' : Vcpu} {inside' : Bool}
    (hwf : v'.WF) (hviews : v'.views = v.views) (hinNormal : v'.inNormalExecution = !inside')
    (hcfgs : v'.transitionCfgs = v.transitionCfgs) (hcore : v'.coreId = v.coreId)
    (hring : v'.traceBuffer.WF) (hactive : v'.traceBuffer.active = true) :
    Tracing T start inside' v' where
  wf := hwf
  normal := by
    rw [hviews]
    exact h.normal
  target := by
    rw [hviews]
    exact h.target
  unguarded := by
    rw [hviews]
    exact h.unguarded
  opened := by
    rw [hviews]
    exact h.opened
  inNormal := hinNormal
  cfgs := hcfgs.trans h.cfgs
  core := hcore.trans h.core
  ring := hring
  active := hactive

/-- The view the processor walks. -/
theorem Tracing.walk (h : Tracing T start inside v) (q : GuestPage) :
    (v.walkedPages.walk q).mapping = (v.views.current (!inside)).map q := by
  rw [h.wf.walkedPages]
  have hview := view_currentEptPages (v := v)
  rw [h.inNormal] at hview
  exact congrArg (fun w : View GuestPage Nat => w.map q) hview

/-- A fetch goes through without an exit when it is on the same side as
the one before. -/
theorem Tracing.executes_iff (h : Tracing T start inside v) (q : GuestPage) :
    (v.walkedPages.walk q).executeAccess = true ↔ decide (q ∈ T) = inside := by
  have hwalk := congrArg Mapping.execute (h.walk q)
  have hexecute : (v.walkedPages.walk q).executeAccess =
      ((v.views.current (!inside)).map q).execute := hwalk
  rw [hexecute]
  cases inside with
  | true =>
    rw [decide_eq_true_iff]
    exact h.target q
  | false =>
    rw [decide_eq_false_iff_not]
    exact h.normal q

/-- Data accesses below 512 GB go through without an exit. -/
theorem Tracing.permits_data (h : Tracing T start inside v) {a : Access} (hkind : a.kind ≠ .fetch)
    (hbelow : a.guestPhysicalAddress < 2 ^ 39) : EptPages.Permits v.walkedPages a := by
  have hwalk := h.walk a.page
  have hread : (v.walkedPages.walk a.page).readAccess =
      ((v.views.current (!inside)).map a.page).read := congrArg Mapping.read hwalk
  have hwrite : (v.walkedPages.walk a.page).writeAccess =
      ((v.views.current (!inside)).map a.page).write := congrArg Mapping.write hwalk
  have hopen : ((v.views.current (!inside)).map a.page).read = true ∧
      ((v.views.current (!inside)).map a.page).write = true := by
    cases inside with
    | true => exact h.opened.target a.page (mt (guarded_target h.wf _).mp (h.unguarded _))
    | false => exact h.opened.normal a.page (h.unguarded _)
  refine ⟨hbelow, ?_⟩
  cases hcase : a.kind with
  | fetch => exact absurd hcase hkind
  | read => exact hread.trans hopen.1
  | write => exact hwrite.trans hopen.2

/-- The handler cannot help a data access, which needs one below 512 GB. -/
theorem Tracing.data_below (h : Tracing T start inside v) {a : Access} (hkind : a.kind ≠ .fetch)
    {attempts : Nat} {v' : Vcpu} (hperform : performAccess attempts v a = some v') : v' = v := by
  cases attempts with
  | zero => cases hperform
  | succ attempts =>
    unfold performAccess at hperform
    split at hperform
    · cases hperform
      rfl
    · obtain ⟨v₁, hhandle, _⟩ := Option.bind_eq_some_iff.mp hperform
      have hnext : (eptMachine 0).next v (.eptViolation a.violation) = some v₁ := hhandle
      obtain ⟨_, hstep⟩ := next_viewStep h.wf hnext
      have hexecute : a.violation.executeAccess = false := decide_eq_false hkind
      -- A data access is denied on a guarded page only, and none is guarded
      -- during a session.
      cases hstep with
      | swappedIn execute _ _ _ _ _ =>
        rw [hexecute] at execute
        cases execute
      | swappedOut _ mem active _ _ _ =>
        have hguarded := (guarded_current h.wf _).mp ⟨_, mem, rfl, active⟩
        exact absurd hguarded (h.unguarded _)
      | flipped execute _ _ _ _ _ _ =>
        rw [hexecute] at execute
        cases execute

/-- The ring after a fetch of page `q`. -/
def ringAfter (T : List GuestPage) (start : Vcpu) (inside : Bool) (ring : RingBuffer)
    (f : Access) : RingBuffer :=
  if inside && decide (f.page ∉ T) then
    emit ring .eptTargetTransition (UInt16.ofNat start.coreId) f.tsc
      (resolveDataFields (lookupTransitionCfg start.transitionCfgs f.guest.rip) f.guest)
  else ring

/-- A fetch on the other side of the border exits once, and the view
changes. -/
theorem Tracing.flip (h : Tracing T start inside v) {f : Access} (hkind : f.kind = .fetch)
    (hdenied : decide (f.page ∈ T) ≠ inside) :
    ∃ v', handleEptViolation { v with guestContext := f.guest.ctx } f.violation = some v' ∧
      Tracing T start (decide (f.page ∈ T)) v' ∧
      v'.traceBuffer = ringAfter T start inside v.traceBuffer f := by
  have hexecute : f.violation.executeAccess = true := decide_eq_true hkind
  -- The view in use must be the wrong one for the page, so the flip leads to
  -- the right one.
  have hflips : (!inside) = decide (f.page ∈ T) := by
    cases inside with
    | true =>
      cases hmem : decide (f.page ∈ T) with
      | true => exact absurd hmem hdenied
      | false => rfl
    | false =>
      cases hmem : decide (f.page ∈ T) with
      | true => rfl
      | false => exact absurd hmem hdenied
  have hsome : ∃ v', handleEptViolation { v with guestContext := f.guest.ctx } f.violation =
      some v' := next_execute 0 v hexecute
  obtain ⟨v', hhandle⟩ := hsome
  have hnext : (eptMachine 0).next v (.eptViolation f.violation) = some v' := hhandle
  obtain ⟨hwf, hstep⟩ := next_viewStep h.wf hnext
  refine ⟨v', hhandle, ?_⟩
  cases hstep with
  | swappedIn _ mem active _ _ _ =>
    have hguarded := (guarded_current h.wf _).mp ⟨_, mem, rfl, active⟩
    exact absurd hguarded (h.unguarded _)
  | swappedOut execute _ _ _ _ _ =>
    rw [hexecute] at execute
    cases execute
  | flipped _ _ views inNormal cfgs core ring =>
    have hring : v'.traceBuffer = ringAfter T start inside v.traceBuffer f := by
      rw [ring, h.inNormal, h.core, h.cfgs]
      -- A record is made on the way out of the traced pages only.
      unfold ringAfter
      cases inside with
      | true =>
        have hout : f.page ∉ T := of_decide_eq_false hflips.symm
        simp only [Bool.not_true, Bool.false_eq_true, if_false, Bool.true_and, hout,
          not_false_eq_true, decide_true, if_true]
        rfl
      | false => rfl
    refine ⟨?_, hring⟩
    apply h.of_views hwf views _ cfgs core
    · rw [hring]
      unfold ringAfter
      split
      · exact emit_wf _ _ _ _ h.ring
      · exact h.ring
    · rw [hring]
      unfold ringAfter
      split
      · rw [emit_active]
        exact h.active
      · exact h.active
    · rw [inNormal, h.inNormal, hflips]

/-- A fetch below 512 GB takes at most two attempts. -/
theorem Tracing.fetch (h : Tracing T start inside v) {f : Access} (hkind : f.kind = .fetch)
    (hbelow : f.guestPhysicalAddress < 2 ^ 39) (attempts : Nat) :
    ∃ v', performAccess (attempts + 2) v f = some v' ∧
      Tracing T start (decide (f.page ∈ T)) v' ∧
      v'.traceBuffer = ringAfter T start inside v.traceBuffer f := by
  have hpermits : ∀ {w : Vcpu} {side : Bool}, Tracing T start side w →
      (EptPages.Permits w.walkedPages f ↔ decide (f.page ∈ T) = side) := by
    intro w side hw
    unfold EptPages.Permits
    rw [hkind]
    exact (and_iff_right hbelow).trans (hw.executes_iff f.page)
  unfold performAccess
  -- The first attempt succeeds when the view in use suits the page, the second
  -- after the flip.
  by_cases hsame : decide (f.page ∈ T) = inside
  · rw [if_pos ((hpermits h).mpr hsame)]
    refine ⟨v, rfl, hsame ▸ h, ?_⟩
    unfold ringAfter
    rw [if_neg]
    rw [← hsame, decide_not, Bool.and_not_self]
    exact Bool.false_ne_true
  · obtain ⟨v', hhandle, htracing, hring⟩ := h.flip hkind hsame
    rw [if_neg (mt (hpermits h).mp hsame), hhandle, Option.bind_some]
    unfold performAccess
    rw [if_pos ((hpermits htracing).mpr rfl)]
    exact ⟨v', rfl, htracing, hring⟩

/-! ### Runs -/

/-- The first fetch crosses or not, then the others follow. -/
theorem crossings_cons (T : List GuestPage) (inside : Bool) (f : Access) (fs : List Access) :
    crossings T inside (f :: fs) =
      (if inside && decide (f.page ∉ T) then [f] else []) ++
        crossings T (decide (f.page ∈ T)) fs := by
  unfold crossings
  rw [List.map_cons, List.zip_cons_cons, List.filter_cons]
  split
  · rw [List.map_cons, List.singleton_append]
  · rw [List.nil_append]

/-- The queue of a ring with room, after a fetch. -/
theorem pending_ringAfter {ring : RingBuffer} (hring : ring.WF) (hactive : ring.active = true)
    (hroom : ring.pending.length + 1 < ringBufferEntryCount) (f : Access) :
    (ringAfter T start inside ring f).pending = ring.pending ++
      (if inside && decide (f.page ∉ T) then [f] else []).map (transitionEntry start) := by
  have haccepts := (emitAccepts_iff hring).mpr ⟨hactive, hroom⟩
  unfold ringAfter
  split
  · rw [emit_pending _ _ _ _ hring, if_pos haccepts]
    rfl
  · rw [List.map_nil, List.append_nil]

/-- Accesses below 512 GB all go through. -/
theorem Tracing.run_isSome (attempts : Nat) (es : List GuestEvent)
    (hbelow : ∀ a, .access a ∈ es → a.guestPhysicalAddress < 2 ^ 39) :
    ∀ (inside : Bool) (s : TracedVcpu), Tracing T start inside s.vcpu →
      ∃ s', (guestMachine (attempts + 2)).run s es = some s' := by
  -- By induction over the events, for either view in use.
  induction es with
  | nil =>
    intro inside s _
    exact ⟨s, rfl⟩
  | cons e es ih =>
    intro inside s h
    have hrest := ih fun a ha => hbelow a (List.mem_cons_of_mem _ ha)
    cases e with
    | drain maxEntries =>
      have hdrained : Tracing T start inside
          { s.vcpu with traceBuffer := (drain s.vcpu.traceBuffer maxEntries).1 } :=
        h.of_views ⟨h.wf.ept, h.wf.pointer⟩ rfl h.inNormal rfl rfl (drain_wf maxEntries h.ring)
          h.active
      exact hrest inside ⟨_, s.drained ++ (drain s.vcpu.traceBuffer maxEntries).2⟩ hdrained
    | access a =>
      have ha := hbelow a List.mem_cons_self
      rw [Machine.run_cons]
      by_cases hkind : a.kind = .fetch
      · obtain ⟨v', hperform, htracing, _⟩ := h.fetch hkind ha attempts
        have hnext : (guestMachine (attempts + 2)).next s (.access a) =
            some { s with vcpu := v' } := congrArg (Option.map _) hperform
        rw [hnext, Option.bind_some]
        exact hrest _ _ htracing
      · have hperform : performAccess (attempts + 2) s.vcpu a = some s.vcpu :=
          if_pos (h.permits_data hkind ha)
        have hnext : (guestMachine (attempts + 2)).next s (.access a) = some s :=
          congrArg (Option.map _) hperform
        rw [hnext, Option.bind_some]
        exact hrest _ _ h

/-- What has been recorded after a run, with or without being drained. -/
theorem Tracing.run_recorded (attempts : Nat) (es : List GuestEvent)
    (hbelow : ∀ a, .access a ∈ es → a.kind = .fetch → a.guestPhysicalAddress < 2 ^ 39) :
    ∀ (inside : Bool) (s s' : TracedVcpu), Tracing T start inside s.vcpu →
      (guestMachine (attempts + 2)).run s es = some s' →
      (guestMachine (attempts + 2)).Along RoomLeft s es →
      s'.drained ++ s'.vcpu.traceBuffer.pending =
        s.drained ++ s.vcpu.traceBuffer.pending ++
          (crossings T inside (fetches es)).map (transitionEntry start) := by
  -- By induction over the events, for any state of the session.
  induction es with
  | nil =>
    intro inside s s' _ hrun _
    cases hrun
    exact (List.append_nil _).symm
  | cons e es ih =>
    intro inside s s' h hrun hroom
    have hrest := ih fun a ha => hbelow a (List.mem_cons_of_mem _ ha)
    obtain ⟨s₁, hnext, hrun⟩ := (guestMachine (attempts + 2)).run_cons_eq_some hrun
    have hroom₁ := hroom.2 s₁ hnext
    cases e with
    | drain maxEntries =>
      cases hnext
      have hdrained : Tracing T start inside
          { s.vcpu with traceBuffer := (drain s.vcpu.traceBuffer maxEntries).1 } :=
        h.of_views ⟨h.wf.ept, h.wf.pointer⟩ rfl h.inNormal rfl rfl (drain_wf maxEntries h.ring)
          h.active
      have hrecorded := hrest inside _ s' hdrained hrun hroom₁
      rw [hrecorded]
      show s.drained ++ (drain s.vcpu.traceBuffer maxEntries).2 ++
        (drain s.vcpu.traceBuffer maxEntries).1.pending ++ _ = _
      -- A drain moves records from the ring to the drained ones, so their
      -- concatenation stays.
      rw [drain_snd maxEntries h.ring, drain_fst maxEntries h.ring, List.append_assoc s.drained,
        List.take_append_drop]
      rfl
    | access a =>
      obtain ⟨v', hperform, rfl⟩ := Option.map_eq_some_iff.mp hnext
      by_cases hkind : a.kind = .fetch
      · obtain ⟨v'', hperform', htracing, hring⟩ :=
          h.fetch hkind (hbelow a List.mem_cons_self hkind) attempts
        rw [hperform] at hperform'
        cases hperform'
        have hfetches : fetches (.access a :: es) = a :: fetches es := by
          unfold fetches
          rw [List.filterMap_cons_some]
          simp only [hkind, if_true]
        have hrecorded := hrest _ _ s' htracing hrun hroom₁
        rw [hrecorded, hfetches, crossings_cons, List.map_append, ← List.append_assoc]
        -- The ring has room, so the record of a crossing is appended.
        show s.drained ++ v'.traceBuffer.pending ++ _ = _
        rw [hring, pending_ringAfter h.ring h.active hroom.1, ← List.append_assoc]
      · have hsame := h.data_below hkind hperform
        rw [hsame] at hrun hroom₁
        have hfetches : fetches (.access a :: es) = fetches es := by
          unfold fetches
          rw [List.filterMap_cons_none]
          simp only [hkind, if_false]
        rw [hfetches]
        exact hrest inside s s' h hrun hroom₁

/-- The views of a new session on `pages`. -/
theorem trace_facts {p : ViewPair} (hopen : OpenPair p)
    (hruns : ∀ q, ¬ p.normal.Guarded q → (p.normal.map q).execute = true)
    (pages : List GuestPage) :
    (∀ q, ((p.suspend.trace pages).normal.map q).execute = true ↔ q ∉ pages) ∧
      (∀ q, ((p.suspend.trace pages).target.map q).execute = true ↔ q ∈ pages) ∧
      (∀ q, ¬ (p.suspend.trace pages).normal.Guarded q) ∧ OpenPair (p.suspend.trace pages) := by
  refine ⟨fun q => ?_, fun q => ?_, fun _ => View.not_guarded_suspend GuestPage.frame,
    openPair_trace (openPair_suspend hopen) pages⟩
  · show ((p.suspend.normal.setExecute pages false).map q).execute = true ↔ q ∉ pages
    rw [View.map_setExecute]
    -- The normal view denies execution on the traced pages and grants it
    -- elsewhere.
    by_cases hq : q ∈ pages
    · rw [if_pos hq]
      exact ⟨fun hfalse => absurd hfalse Bool.false_ne_true, fun hno => absurd hq hno⟩
    · rw [if_neg hq]
      refine ⟨fun _ => hq, fun _ => ?_⟩
      show ((p.normal.suspend GuestPage.frame).map q).execute = true
      rw [View.map_suspend]
      split
      · rfl
      · exact hruns q ‹_›
  · show (((p.suspend.target.setAccess true true false).setExecute pages true).map q).execute =
      true ↔ q ∈ pages
    rw [View.map_setExecute]
    -- The target view the other way round.
    by_cases hq : q ∈ pages
    · rw [if_pos hq]
      exact ⟨fun _ => hq, fun _ => rfl⟩
    · rw [if_neg hq, View.map_setAccess]
      exact ⟨fun hfalse => absurd hfalse Bool.false_ne_true, fun hin => absurd hin hq⟩

/-- The state right after an enable that has succeeded. -/
theorem tracing_of_enabled {systemCr3 : Nat} {v v₁ : Vcpu} (hwf : v.WF) (hopen : OpenPair v.views)
    (hinactive : Inactive v) {tables : Tables} {ctx : GuestContext}
    (hnext : (eptMachine systemCr3).next v (.enableAutoTrace tables ctx) = some v₁)
    (hrax : v₁.guestContext.rax = 1) :
    Tracing (tracedPages tables systemCr3 ctx.rdx.toNat ctx.r8.toNat) v₁ false v₁ ∧
      v₁.traceBuffer.pending = [] := by
  obtain ⟨hwf₁, hstep⟩ := next_viewStep hwf hnext
  cases hstep with
  | enableFailed _ _ _ rax =>
    rw [rax] at hrax
    exact absurd hrax (by decide)
  | enabled _ _ views inNormal ring _ _ _ =>
    have hruns : ∀ q, ¬ v.views.normal.Guarded q → (v.views.normal.map q).execute = true := by
      intro q hguarded
      exact hinactive.normal q (mt (activeHook_iff hwf.ept.normal q).mp hguarded)
    have hring : v₁.traceBuffer.WF ∧ v₁.traceBuffer.active = true ∧
        v₁.traceBuffer.pending = [] := by
      rw [ring]
      exact ⟨activate_wf _, rfl, activate_pending _⟩
    generalize tracedPages tables systemCr3 ctx.rdx.toNat ctx.r8.toNat = pages at *
    obtain ⟨hnormal, htarget, hunguarded, hopened⟩ := trace_facts hopen hruns pages
    rw [← views] at hnormal htarget hunguarded hopened
    exact ⟨⟨hwf₁, hnormal, htarget, hunguarded, hopened, inNormal, rfl, rfl, hring.1, hring.2.1⟩,
      hring.2.2⟩

end

/-- A session that starts on a vCPU without one records the crossings
out of its pages, each one once and in their order. `s'.drained` are the
recorded entries that have been drained already. Accesses below 512 GB
all go through. -/
theorem crossings_recorded (systemCr3 : Nat) (setup : VcpuSetup) (entries : Nat → Entry)
    (es₀ : List EptExit) {v v₁ : Vcpu}
    (hrun₀ : (eptMachine systemCr3).run (initialVcpu setup entries) es₀ = some v)
    (hinactive : Inactive v) (tables : Tables) (ctx : GuestContext)
    (henable : (eptMachine systemCr3).next v (.enableAutoTrace tables ctx) = some v₁)
    (hrax : v₁.guestContext.rax = 1) (attempts : Nat) (es : List GuestEvent)
    (hfetch : ∀ a, .access a ∈ es → a.kind = .fetch → a.guestPhysicalAddress < 2 ^ 39) :
    ((∀ a, .access a ∈ es → a.guestPhysicalAddress < 2 ^ 39) →
      ∃ s', (guestMachine (attempts + 2)).run ⟨v₁, []⟩ es = some s') ∧
    ∀ s', (guestMachine (attempts + 2)).run ⟨v₁, []⟩ es = some s' →
      (guestMachine (attempts + 2)).Along RoomLeft ⟨v₁, []⟩ es →
      s'.drained ++ s'.vcpu.traceBuffer.pending =
        (crossings (tracedPages tables systemCr3 ctx.rdx.toNat ctx.r8.toNat) false
          (fetches es)).map (transitionEntry v₁) := by
  obtain ⟨htracing, hempty⟩ := tracing_of_enabled (reachable_wf hrun₀) (reachable_open hrun₀)
    hinactive henable hrax
  constructor
  · intro hbelow
    exact Tracing.run_isSome attempts es hbelow false ⟨v₁, []⟩ htracing
  · intro s' hrun hroom
    have hrecorded := Tracing.run_recorded attempts es hfetch false _ s' htracing hrun hroom
    rw [hrecorded]
    show [] ++ v₁.traceBuffer.pending ++ _ = _
    rw [hempty]
    rfl

/-! ### A session of the small vCPU -/

/-- A new vCPU has no session. -/
theorem plainVcpu_inactive : Inactive plainVcpu := by
  have hviews : plainVcpu.views = ⟨identityView, identityView⟩ := initialVcpu_views plainSetup _
  constructor
  · intro q _
    rw [executable_normal_iff, hviews]
    rfl
  · intro q _
    rw [executable_target_iff, hviews]
    rfl

/-- A fetch at a physical address, with the registers zero. -/
def fetchAt (address : Nat) : Access := ⟨.fetch, address, address, ⟨0, 0, .zero, fun _ => 0⟩, 0⟩

/-- Into the first page and out of it again. -/
def intoAndOut : List GuestEvent := [.access (fetchAt 0x1000), .access (fetchAt 0x2000)]

/-- It is recorded once, at the fetch outside. -/
theorem crossings_recorded_intoAndOut : ∃ v₁ s',
    (eptMachine 1).next plainVcpu
      (.enableAutoTrace directTables (hypercallContext 0x1000 0x1000)) = some v₁ ∧
    (guestMachine 2).run ⟨v₁, []⟩ intoAndOut = some s' ∧
    s'.drained ++ s'.vcpu.traceBuffer.pending = [transitionEntry v₁ (fetchAt 0x2000)] := by
  obtain ⟨v₁, hnext, hrax, _⟩ := plainVcpu_session
  have hviews : plainVcpu.views = ⟨identityView, identityView⟩ := initialVcpu_views plainSetup _
  have hinactive := plainVcpu_inactive
  have hpages : tracedPages directTables 1 (hypercallContext 0x1000 0x1000).rdx.toNat
      (hypercallContext 0x1000 0x1000).r8.toNat = [firstPage] := tracedPages_first
  have hbelow : ∀ a, .access a ∈ intoAndOut → a.guestPhysicalAddress < 2 ^ 39 := by
    intro a ha
    simp only [intoAndOut, List.mem_cons, GuestEvent.access.injEq, List.not_mem_nil,
      or_false] at ha
    cases ha with
    | inl hfirst =>
      rw [hfirst]
      decide
    | inr hsecond =>
      rw [hsecond]
      decide
  obtain ⟨hruns, hrecorded⟩ := crossings_recorded 1 plainSetup _ [] rfl hinactive directTables _
    hnext hrax 0 intoAndOut fun a ha _ => hbelow a ha
  obtain ⟨s', hrun⟩ := hruns hbelow
  have hopen : OpenPair plainVcpu.views := by
    rw [hviews]
    exact ⟨fun _ _ => ⟨rfl, rfl⟩, fun _ _ => ⟨rfl, rfl⟩⟩
  obtain ⟨htracing, hempty⟩ := tracing_of_enabled plainVcpu_wf hopen hinactive hnext hrax
  have hroom : (guestMachine 2).Along RoomLeft ⟨v₁, []⟩ intoAndOut := by
    have hlength : v₁.traceBuffer.pending.length + 1 < ringBufferEntryCount := by
      rw [hempty]
      decide
    refine ⟨hlength, fun s₁ hs₁ => ⟨?_, fun _ _ => trivial⟩⟩
    -- The first fetch goes inside, so the ring is still empty.
    obtain ⟨v₂, hperform, rfl⟩ := Option.map_eq_some_iff.mp hs₁
    obtain ⟨v₂', hperform', _, hring⟩ := htracing.fetch (f := fetchAt 0x1000) rfl (by decide) 0
    rw [hperform] at hperform'
    cases hperform'
    show v₂.traceBuffer.pending.length + 1 < ringBufferEntryCount
    rw [hring]
    exact hlength
  refine ⟨v₁, s', hnext, hrun, ?_⟩
  rw [hrecorded s' hrun hroom, hpages]
  rfl

end Revhv.Crossings
