import Revhv.Km.Preemption

/-!
# `Revhv.Proofs.Preemption`: no core waits for its own guest

An exit handler that waits for a lock keeps its core. If the holder is
guest code on that same core, it waits forever.

* `SpinsOnOwnGuest` is that situation.
* `SuspendInv` holds along every run of safe events. While an exit
  handler that takes the logger's lock is on a core, guest code on that
  core holds it only under the token of the core, and the lock is then
  reentrant. While one that takes the other lock is there, no guest code
  on that core is inside.
* `never_spins_on_own_guest`: the safety theorem.
* `spins_on_own_guest`: a run for each lock that ends in the situation.
-/

set_option autoImplicit false

namespace Revhv.Sync

/-- The thread is in the loop of `lock`, or in the one try of
`try_lock`. -/
def Thread.waits (t : Thread) : Bool :=
  match t.pc with
  | .compareExchange _ => true
  | _ => false

/-- The thread has found its token in `m_owner` or put it there, and has
not given the lock back. -/
def Thread.inSection (t : Thread) : Bool :=
  decide (0 < t.held) || match t.pc with
    | .incLoad | .incStore _ | .setDepth | .decLoad | .decStore _ | .release => true
    | _ => false

/-- The handler or the NMI handler above it waits. -/
def Core.waits (k : Core) : Bool := k.main.waits || (k.nmi.map Thread.waits).getD false

/-! ### What a step does to `m_owner` -/

section
variable {id : Nat} {lk : ReentrantSpinLock}

/-- The owner stays, or the lock becomes free, or it was free. -/
theorem stepThread_owner {t : Thread} {r : ReentrantSpinLock × Thread}
    (h : stepThread id lk t = some r) :
    r.1.owner = lk.owner ∨ r.1.owner = unlocked ∨ lk.owner = unlocked := by
  unfold stepThread at h
  -- Two of the places write the owner. The exchange does so only when the lock
  -- is free.
  cases hpc : t.pc with
  | idle =>
    rw [hpc] at h
    cases h
  | compareExchange tryOnly =>
    rw [hpc] at h
    by_cases hfree : lk.owner = unlocked
    · exact Or.inr (Or.inr hfree)
    · simp only [if_neg hfree] at h
      split at h
      · cases h
        exact Or.inl rfl
      · cases h
        exact Or.inl rfl
  | release =>
    rw [hpc] at h
    cases h
    exact Or.inr (Or.inl rfl)
  | _ =>
    rw [hpc] at h
    cases h
    exact Or.inl rfl

/-- A thread begins to wait only where it finds another token than its
own. -/
theorem stepThread_waits {t : Thread} {r : ReentrantSpinLock × Thread}
    (h : stepThread id lk t = some r) (hwaits : r.2.waits = true) :
    t.waits = true ∨ lk.owner ≠ id := by
  unfold stepThread at h
  -- A thread begins to wait where it reads an owner that is not its own.
  cases hpc : t.pc with
  | idle =>
    rw [hpc] at h
    cases h
  | readOwner tryOnly =>
    rw [hpc] at h
    cases h
    right
    intro hown
    simp [Thread.waits, hown] at hwaits
  | compareExchange tryOnly =>
    left
    simp [Thread.waits, hpc]
  | decStore d =>
    rw [hpc] at h
    cases h
    by_cases hzero : toLong (d - 1) = 0
    · simp [Thread.waits, hzero] at hwaits
    · simp [Thread.waits, hzero] at hwaits
  | _ =>
    rw [hpc] at h
    cases h
    cases hwaits

/-- An event of a core leaves the owner, frees the lock or takes it when
it is free. -/
theorem coreEvent_owner {k : Core} {op : CoreEvent} {r : ReentrantSpinLock × Core}
    (h : coreEvent id lk k op = some r) :
    r.1.owner = lk.owner ∨ r.1.owner = unlocked ∨ lk.owner = unlocked := by
  cases op with
  | step =>
    obtain ⟨r', hstep, rfl⟩ := Option.map_eq_some_iff.mp h
    exact stepThread_owner hstep
  | _ =>
    left
    simp only [coreEvent] at h
    split at h
    · cases h
      rfl
    · cases h

/-- The running thread of a core is one of its two. -/
theorem Core.waits_running {k : Core} (h : k.running.waits = true) : k.waits = true := by
  unfold Core.running at h
  unfold Core.waits
  cases hnmi : k.nmi with
  | none =>
    rw [hnmi] at h
    simpa using h
  | some t =>
    rw [hnmi] at h
    simpa using Or.inr h

/-- Where the running thread has been replaced. -/
theorem Core.waits_setRunning {k : Core} {t : Thread} (h : (k.setRunning t).waits = true) :
    k.waits = true ∨ t.waits = true := by
  unfold Core.setRunning at h
  unfold Core.waits at h ⊢
  cases hnmi : k.nmi with
  | none =>
    rw [hnmi] at h
    right
    simpa using h
  | some t' =>
    rw [hnmi] at h
    simp only [Option.map_some, Option.getD_some, Bool.or_eq_true] at h ⊢
    rcases h with hmain | ht
    · exact Or.inl (Or.inl hmain)
    · exact Or.inr ht

/-- A core that waits waited before, or finds another owner. -/
theorem coreEvent_waits {k : Core} {op : CoreEvent} {r : ReentrantSpinLock × Core}
    (h : coreEvent id lk k op = some r) (hwaits : r.2.waits = true) :
    k.waits = true ∨ lk.owner ≠ id := by
  -- A call that begins does not wait yet.
  have hset : ∀ t : Thread, t.waits = false → (k.setRunning t).waits = true →
      k.waits = true ∨ lk.owner ≠ id := by
    intro t ht hk
    rcases Core.waits_setRunning hk with hold | hnew
    · exact Or.inl hold
    · rw [ht] at hnew
      cases hnew
  cases op with
  | step =>
    obtain ⟨r', hstep, rfl⟩ := Option.map_eq_some_iff.mp h
    rcases Core.waits_setRunning hwaits with hold | hnew
    · exact Or.inl hold
    · exact (stepThread_waits hstep hnew).imp_left Core.waits_running
  | lock =>
    simp only [coreEvent] at h
    split at h
    · cases h
      exact hset _ rfl hwaits
    · cases h
  | tryLock =>
    simp only [coreEvent] at h
    split at h
    · cases h
      exact hset _ rfl hwaits
    · cases h
  | unlock =>
    simp only [coreEvent] at h
    split at h
    · cases h
      exact hset _ rfl hwaits
    · cases h
  | nmiEnter =>
    simp only [coreEvent] at h
    split at h
    · rename_i hnone
      cases h
      left
      simpa [Core.waits, Thread.waits, hnone] using hwaits
    · cases h
  | nmiExit =>
    simp only [coreEvent] at h
    split at h
    · rename_i hnmi
      cases h
      left
      simpa [Core.waits, Thread.waits, hnmi] using hwaits
    · cases h

end

end Revhv.Sync

namespace Revhv.Preemption

open Revhv.Lib Revhv.Sync

section
variable {n : Nat}

/-! ### The property -/

/-- The thread is the one that has to give back the logger's lock: it is
in its section, and the lock has not become free since it has entered. -/
def HostState.Holds (s : HostState n) (t : Nat) : Prop :=
  s.logger.owner ≠ unlocked ∧ (s.threads t).joined = s.period ∧
    (s.threads t).logger.inSection = true

/-- The exit handler of core `c` waits for a lock that guest code on
this core holds. -/
def SpinsOnOwnGuest (s : HostState n) (c : Fin n) : Prop :=
  ∃ r, s.root c = some r ∧
    ((r.onload = .spin ∧ s.onloadFlag = true ∧
        ∃ t, (s.threads t).core = c ∧ (s.threads t).onload = .inside) ∨
      (r.logger.running.waits = true ∧ s.logger.owner ≠ unlocked ∧
        ∃ t, (s.threads t).core = c ∧ s.Holds t))

/-- What an exit and a move have to meet. -/
def SafeEvent (ids : ApicIds n) (s : HostState n) : HostEvent n → Prop
  -- Guest code on the core holds the logger's lock under the token of the core if at all, and
  -- is not inside the other lock when the hypercall is one that takes it.
  | .exit c kind =>
      (kind ≠ .quiet → ∀ t, (s.threads t).core = c → s.Holds t →
        s.logger.owner = ids.ownerId c) ∧
      (kind = .target → ∀ t, (s.threads t).core = c → (s.threads t).onload ≠ .inside)
  -- No holder comes to a core whose exit handler takes the lock.
  | .move t c => ∀ r, s.root c = some r →
      (r.kind ≠ .quiet → ¬ s.Holds t) ∧ (r.kind = .target → (s.threads t).onload ≠ .inside)
  | _ => True

/-! ### The invariant -/

/-- The invariant of the runs of safe events. -/
structure SuspendInv (ids : ApicIds n) (s : HostState n) : Prop where
  joined : ∀ t, (s.threads t).joined ≤ s.period
  idle : ∀ c r, s.root c = some r →
    (r.kind = .quiet → r.logger = ⟨⟨.idle, 0⟩, none⟩) ∧ (r.kind ≠ .target → r.onload = .idle)
  suits : ∀ c r, s.root c = some r → r.kind ≠ .quiet → ∀ t, (s.threads t).core = c →
    s.Holds t → s.logger.owner = ids.ownerId c ∧ r.logger.waits = false
  outside : ∀ c r, s.root c = some r → r.kind = .target → ∀ t, (s.threads t).core = c →
    (s.threads t).onload ≠ .inside

/-- At the start no thread has the lock. -/
theorem suspendInv_initial (ids : ApicIds n) (core : Nat → Fin n) :
    SuspendInv ids (HostState.initial core) where
  joined _ := Nat.le_refl 0
  idle _ _ h := by cases h
  suits _ _ h := by cases h
  outside _ _ h := by cases h

/-- Periods only go up. -/
theorem period_le (lk lk' : ReentrantSpinLock) (period : Nat) :
    period ≤ periodAfter lk lk' period := by
  unfold periodAfter
  split
  · exact Nat.le_succ _
  · exact Nat.le_refl _

/-- Who holds the lock after a step of somebody else has held it before,
under the same token: a lock that becomes free and is taken again begins
a new period. -/
theorem holds_before {lk lk' : ReentrantSpinLock} {period joined : Nat}
    (howner : lk'.owner = lk.owner ∨ lk'.owner = unlocked ∨ lk.owner = unlocked)
    (hjoined : joined ≤ period) (hheld : lk'.owner ≠ unlocked)
    (hperiod : joined = periodAfter lk lk' period) : lk'.owner = lk.owner ∧ joined = period := by
  unfold periodAfter at hperiod
  by_cases hfree : lk.owner = unlocked
  · rw [if_pos ⟨hfree, hheld⟩] at hperiod
    omega
  · rw [if_neg (fun hboth => hfree hboth.1)] at hperiod
    exact ⟨(howner.resolve_right fun hrest => hrest.elim hheld hfree), hperiod⟩

/-- An operation of a thread on the logger's lock. -/
theorem loggerStep_facts {ids : ApicIds n} {th : GuestThread n} {lk : ReentrantSpinLock}
    {period : Nat} {op : LockOp} {r : ReentrantSpinLock × GuestThread n}
    (hjoined : th.joined ≤ period) (h : th.loggerStep ids lk period op = some r) :
    r.2.core = th.core ∧ r.2.onload = th.onload ∧
      r.2.joined ≤ periodAfter lk r.1 period ∧
      (r.1.owner = lk.owner ∨ r.1.owner = unlocked ∨ lk.owner = unlocked) := by
  have hle := period_le lk r.1 period
  cases op with
  | lock =>
    simp only [GuestThread.loggerStep] at h
    split at h
    · cases h
      exact ⟨rfl, rfl, Nat.le_trans hjoined hle, Or.inl rfl⟩
    · cases h
  | unlock =>
    simp only [GuestThread.loggerStep] at h
    split at h
    · cases h
      exact ⟨rfl, rfl, Nat.le_trans hjoined hle, Or.inl rfl⟩
    · cases h
  | step =>
    obtain ⟨r', hstep, rfl⟩ := Option.map_eq_some_iff.mp h
    refine ⟨rfl, rfl, ?_, stepThread_owner hstep⟩
    show th.joinedAfter lk (periodAfter lk r'.1 period) ≤ periodAfter lk r'.1 period
    unfold GuestThread.joinedAfter
    -- A thread that takes the lock in this step joins the period that begins
    -- with it.
    split
    · split
      · exact Nat.le_refl _
      · exact Nat.le_trans hjoined hle
    · split
      · exact Nat.le_refl _
      · exact Nat.le_trans hjoined hle
    · exact Nat.le_trans hjoined hle

/-! ### Every event -/

variable {ids : ApicIds n} {s s' : HostState n}

/-- A step on the logger's lock, seen by a thread that does not take
part in it. -/
theorem SuspendInv.holds_later (h : SuspendInv ids s) {lk' : ReentrantSpinLock}
    (howner : lk'.owner = s.logger.owner ∨ lk'.owner = unlocked ∨ s.logger.owner = unlocked)
    {t : Nat} (hheld : lk'.owner ≠ unlocked)
    (hjoined : (s.threads t).joined = periodAfter s.logger lk' s.period)
    (hsection : (s.threads t).logger.inSection = true) :
    s.Holds t ∧ lk'.owner = s.logger.owner := by
  obtain ⟨hsame, hjoined'⟩ := holds_before howner (h.joined t) hheld hjoined
  exact ⟨⟨hsame ▸ hheld, hjoined', hsection⟩, hsame⟩

/-- A thread on a core without an exit handler. -/
theorem ne_of_canRun {t t' : Nat} {c : Fin n} {r : RootContext} (hrun : s.canRun t)
    (hroot : s.root c = some r) (hcore : (s.threads t').core = c) : t' ≠ t := by
  rintro rfl
  have hnone := hrun.2
  rw [hcore, hroot] at hnone
  cases hnone

/-- A thread works on the logger's lock. -/
theorem SuspendInv.guestLogger (h : SuspendInv ids s) {t : Nat} {op : LockOp}
    {r : ReentrantSpinLock × GuestThread n} (hrun : s.canRun t)
    (hstep : (s.threads t).loggerStep ids s.logger s.period op = some r) :
    SuspendInv ids { s with
      logger := r.1
      period := periodAfter s.logger r.1 s.period
      threads := Function.update s.threads t r.2 } := by
  obtain ⟨hcore, _, hjoined, howner⟩ := loggerStep_facts (h.joined t) hstep
  -- On a core with an exit handler there is another thread, which has not changed.
  have hother : ∀ {c r'}, s.root c = some r' → ∀ {t'},
      (Function.update s.threads t r.2 t').core = c →
      Function.update s.threads t r.2 t' = s.threads t' ∧ (s.threads t').core = c := by
    intro c r' hroot t' hc
    by_cases ht : t' = t
    · rw [ht, Function.update_self, hcore] at hc
      exact absurd rfl (ne_of_canRun hrun hroot hc)
    · rw [Function.update_of_ne ht] at hc ⊢
      exact ⟨rfl, hc⟩
  constructor
  · intro t'
    by_cases ht : t' = t
    · simp only [ht, Function.update_self]
      exact hjoined
    · simp only [Function.update_of_ne ht]
      exact Nat.le_trans (h.joined t') (period_le _ _ _)
  · exact h.idle
  · intro c r' hroot hkind t' hc hholds
    obtain ⟨hsame, hc'⟩ := hother hroot hc
    obtain ⟨hheld, hjoined', hsection⟩ := hholds
    simp only [hsame] at hjoined' hsection
    obtain ⟨hbefore, howns⟩ := h.holds_later howner hheld hjoined' hsection
    obtain ⟨hid, hwaits⟩ := h.suits c r' hroot hkind t' hc' hbefore
    exact ⟨howns.trans hid, hwaits⟩
  · intro c r' hroot hkind t' hc
    obtain ⟨hsame, hc'⟩ := hother hroot hc
    show (Function.update s.threads t r.2 t').onload ≠ .inside
    rw [hsame]
    exact h.outside c r' hroot hkind t' hc'

/-- A thread works on the other lock. -/
theorem SuspendInv.guestOnload (h : SuspendInv ids s) {t : Nat} (hrun : s.canRun t) (flag : Bool)
    (pc : SpinPc) :
    SuspendInv ids { s with
      onloadFlag := flag
      threads := Function.update s.threads t { s.threads t with onload := pc } } := by
  have hsame : ∀ t', (Function.update s.threads t { s.threads t with onload := pc } t').core =
        (s.threads t').core ∧
      (Function.update s.threads t { s.threads t with onload := pc } t').logger =
        (s.threads t').logger ∧
      (Function.update s.threads t { s.threads t with onload := pc } t').joined =
        (s.threads t').joined := by
    intro t'
    -- The step moves this thread's place in the onload code and nothing else of
    -- it.
    by_cases ht : t' = t
    · rw [ht, Function.update_self]
      exact ⟨rfl, rfl, rfl⟩
    · rw [Function.update_of_ne ht]
      exact ⟨rfl, rfl, rfl⟩
  constructor
  · intro t'
    show (Function.update s.threads t _ t').joined ≤ s.period
    rw [(hsame t').2.2]
    exact h.joined t'
  · exact h.idle
  · intro c r' hroot hkind t' hc hholds
    obtain ⟨hheld, hjoined, hsection⟩ := hholds
    obtain ⟨hcore', hlogger', hjoined'⟩ := hsame t'
    exact h.suits c r' hroot hkind t' (hcore' ▸ hc)
      ⟨hheld, hjoined' ▸ hjoined, hlogger' ▸ hsection⟩
  · intro c r' hroot hkind t' hc
    have hc' : (s.threads t').core = c := (hsame t').1 ▸ hc
    show (Function.update s.threads t _ t').onload ≠ .inside
    rw [Function.update_of_ne (ne_of_canRun hrun hroot hc')]
    exact h.outside c r' hroot hkind t' hc'

/-- The scheduler moves a thread. -/
theorem SuspendInv.move (h : SuspendInv ids s) {t : Nat} {c : Fin n}
    (hsafe : SafeEvent ids s (.move t c)) :
    SuspendInv ids { s with
      threads := Function.update s.threads t { s.threads t with core := c } } := by
  have hsame : ∀ t', t' ≠ t →
      Function.update s.threads t { s.threads t with core := c } t' = s.threads t' :=
    fun t' ht => Function.update_of_ne ht _ _
  constructor
  · intro t'
    -- A thread may move only to a core whose root code does not need the lock
    -- it holds.
    by_cases ht : t' = t
    · simp only [ht, Function.update_self]
      exact h.joined t
    · simp only [hsame t' ht]
      exact h.joined t'
  · exact h.idle
  · intro c' r hroot hkind t' hc hholds
    by_cases ht : t' = t
    · simp only [ht, Function.update_self] at hc
      subst hc
      simp only [HostState.Holds, ht, Function.update_self] at hholds
      exact absurd hholds ((hsafe r hroot).1 hkind)
    · simp only [hsame t' ht] at hc
      simp only [HostState.Holds, hsame t' ht] at hholds
      exact h.suits c' r hroot hkind t' hc hholds
  · intro c' r hroot hkind t' hc
    by_cases ht : t' = t
    · simp only [ht, Function.update_self] at hc ⊢
      subst hc
      exact (hsafe r hroot).2 hkind
    · simp only [hsame t' ht] at hc ⊢
      exact h.outside c' r hroot hkind t' hc

/-- A VM exit. -/
theorem SuspendInv.exit (h : SuspendInv ids s) {c : Fin n} {kind : ExitKind}
    (hsafe : SafeEvent ids s (.exit c kind)) :
    SuspendInv ids { s with
      root := Function.update s.root c (some ⟨kind, ⟨⟨.idle, 0⟩, none⟩, .idle⟩) } := by
  constructor
  · exact h.joined
  · intro c' r hroot
    -- The new root context has done nothing yet, and the condition says what
    -- its core may hold.
    by_cases hc : c' = c
    · simp only [hc, Function.update_self] at hroot
      cases hroot
      exact ⟨fun _ => rfl, fun _ => rfl⟩
    · simp only [Function.update_of_ne hc] at hroot
      exact h.idle c' r hroot
  · intro c' r hroot hkind t hcore hholds
    by_cases hc : c' = c
    · simp only [hc, Function.update_self] at hroot
      cases hroot
      subst hc
      exact ⟨hsafe.1 hkind t hcore hholds, rfl⟩
    · simp only [Function.update_of_ne hc] at hroot
      exact h.suits c' r hroot hkind t hcore hholds
  · intro c' r hroot hkind t hcore
    by_cases hc : c' = c
    · simp only [hc, Function.update_self] at hroot
      cases hroot
      subst hc
      exact hsafe.2 hkind t hcore
    · simp only [Function.update_of_ne hc] at hroot
      exact h.outside c' r hroot hkind t hcore

/-- An exit handler works on the logger's lock. -/
theorem SuspendInv.rootLogger (h : SuspendInv ids s) {c : Fin n} {r : RootContext} {op : CoreEvent}
    {a : ReentrantSpinLock × Core} (hroot : s.root c = some r) (hkind : r.kind ≠ .quiet)
    (hstep : coreEvent (ids.ownerId c) s.logger r.logger op = some a) :
    SuspendInv ids { s with
      logger := a.1
      period := periodAfter s.logger a.1 s.period
      root := Function.update s.root c (some { r with logger := a.2 }) } := by
  have howner := coreEvent_owner hstep
  constructor
  · intro t
    exact Nat.le_trans (h.joined t) (period_le _ _ _)
  · intro c' r' hroot'
    by_cases hc : c' = c
    · simp only [hc, Function.update_self] at hroot'
      cases hroot'
      exact ⟨fun hquiet => absurd hquiet hkind, (h.idle c r hroot).2⟩
    · simp only [Function.update_of_ne hc] at hroot'
      exact h.idle c' r' hroot'
  · intro c' r' hroot' hkind' t hcore hholds
    obtain ⟨hbefore, howns⟩ := h.holds_later howner hholds.1 hholds.2.1 hholds.2.2
    by_cases hc : c' = c
    · simp only [hc, Function.update_self] at hroot'
      cases hroot'
      obtain ⟨hid, hwaits⟩ := h.suits c r hroot hkind t (hc ▸ hcore) hbefore
      refine ⟨howns.trans (hc ▸ hid), Bool.eq_false_iff.mpr fun hnew => ?_⟩
      -- It finds its own token, so it does not begin to wait.
      rcases coreEvent_waits hstep hnew with hold | hother
      · rw [hwaits] at hold
        cases hold
      · exact hother hid
    · simp only [Function.update_of_ne hc] at hroot'
      obtain ⟨hid, hwaits⟩ := h.suits c' r' hroot' hkind' t hcore hbefore
      exact ⟨howns.trans hid, hwaits⟩
  · intro c' r' hroot' hkind' t hcore
    by_cases hc : c' = c
    · simp only [hc, Function.update_self] at hroot'
      cases hroot'
      exact h.outside c r hroot hkind' t (hc ▸ hcore)
    · simp only [Function.update_of_ne hc] at hroot'
      exact h.outside c' r' hroot' hkind' t hcore

/-- An exit handler works on the other lock. -/
theorem SuspendInv.rootOnload (h : SuspendInv ids s) {c : Fin n} {r : RootContext}
    (hroot : s.root c = some r) (hkind : r.kind = .target) (flag : Bool) (pc : SpinPc) :
    SuspendInv ids { s with
      onloadFlag := flag
      root := Function.update s.root c (some { r with onload := pc }) } := by
  have hquiet : r.kind ≠ .quiet := by
    rw [hkind]
    intro hno
    cases hno
  constructor
  · exact h.joined
  · intro c' r' hroot'
    -- Other cores keep their contexts.
    by_cases hc : c' = c
    · simp only [hc, Function.update_self] at hroot'
      cases hroot'
      exact ⟨fun hq => absurd hq hquiet, fun hno => absurd hkind hno⟩
    · simp only [Function.update_of_ne hc] at hroot'
      exact h.idle c' r' hroot'
  · intro c' r' hroot' hkind' t hcore hholds
    by_cases hc : c' = c
    · simp only [hc, Function.update_self] at hroot'
      cases hroot'
      exact hc ▸ h.suits c r hroot hquiet t (hc ▸ hcore) hholds
    · simp only [Function.update_of_ne hc] at hroot'
      exact h.suits c' r' hroot' hkind' t hcore hholds
  · intro c' r' hroot' hkind' t hcore
    by_cases hc : c' = c
    · simp only [hc, Function.update_self] at hroot'
      cases hroot'
      exact h.outside c r hroot hkind t (hc ▸ hcore)
    · simp only [Function.update_of_ne hc] at hroot'
      exact h.outside c' r' hroot' hkind' t hcore

/-- A VM entry. -/
theorem SuspendInv.entry (h : SuspendInv ids s) (c : Fin n) :
    SuspendInv ids { s with root := Function.update s.root c none } := by
  have hroots : ∀ {c' r}, Function.update s.root c none c' = some r → s.root c' = some r := by
    intro c' r hroot
    by_cases hc : c' = c
    · rw [hc, Function.update_self] at hroot
      cases hroot
    · rw [Function.update_of_ne hc] at hroot
      exact hroot
  exact ⟨h.joined, fun c' r hroot => h.idle c' r (hroots hroot),
    fun c' r hroot => h.suits c' r (hroots hroot), fun c' r hroot => h.outside c' r (hroots hroot)⟩

/-- Every safe event keeps the invariant. -/
theorem suspendInv_next {ev : HostEvent n} (h : SuspendInv ids s) (hsafe : SafeEvent ids s ev)
    (hnext : (hostMachine ids).next s ev = some s') : SuspendInv ids s' := by
  -- Dispatch and preemption change who runs, which the invariant does not speak
  -- of.
  cases ev with
  | guestLogger t op =>
    simp only [hostMachine] at hnext
    split at hnext
    · rename_i hrun
      obtain ⟨r, hstep, rfl⟩ := Option.map_eq_some_iff.mp hnext
      exact h.guestLogger hrun hstep
    · cases hnext
  | guestOnload t op =>
    simp only [hostMachine] at hnext
    split at hnext
    · rename_i hrun
      obtain ⟨r, _, rfl⟩ := Option.map_eq_some_iff.mp hnext
      exact h.guestOnload hrun r.1 r.2
    · cases hnext
  | preempt c =>
    simp only [hostMachine] at hnext
    split at hnext
    · cases hnext
      exact ⟨h.joined, h.idle, h.suits, h.outside⟩
    · cases hnext
  | dispatch c t =>
    simp only [hostMachine] at hnext
    split at hnext
    · split at hnext
      · cases hnext
        exact ⟨h.joined, h.idle, h.suits, h.outside⟩
      · cases hnext
    · cases hnext
  | move t c =>
    simp only [hostMachine] at hnext
    split at hnext
    · cases hnext
      exact h.move hsafe
    · cases hnext
  | exit c kind =>
    simp only [hostMachine, HostState.exitTo] at hnext
    split at hnext
    · cases hnext
    · split at hnext
      · cases hnext
        exact h.exit hsafe
      · cases hnext
    · cases hnext
    · cases hnext
      exact h.exit hsafe
  | rootLogger c op =>
    simp only [hostMachine] at hnext
    cases hroot : s.root c with
    | none => simp [hroot] at hnext
    | some r =>
      simp only [hroot] at hnext
      split at hnext
      · cases hnext
      · rename_i hkind
        obtain ⟨a, hstep, rfl⟩ := Option.map_eq_some_iff.mp hnext
        exact h.rootLogger hroot hkind hstep
  | rootOnload c op =>
    simp only [hostMachine] at hnext
    cases hroot : s.root c with
    | none => simp [hroot] at hnext
    | some r =>
      simp only [hroot] at hnext
      split at hnext
      · rename_i hkind
        obtain ⟨a, _, rfl⟩ := Option.map_eq_some_iff.mp hnext
        exact h.rootOnload hroot hkind a.1 a.2
      · cases hnext
  | entry c =>
    simp only [hostMachine] at hnext
    split at hnext
    · cases hnext
    · split at hnext
      · cases hnext
        exact h.entry c
      · cases hnext

/-- The invariant excludes the situation. -/
theorem SuspendInv.not_spins (h : SuspendInv ids s) (c : Fin n) : ¬ SpinsOnOwnGuest s c := by
  rintro ⟨r, hroot, hspins⟩
  rcases hspins with ⟨hspin, _, t, hcore, hinside⟩ | ⟨hwaits, _, t, hcore, hholds⟩
  · have hkind : r.kind = .target := by
      by_contra hno
      rw [(h.idle c r hroot).2 hno] at hspin
      cases hspin
    exact h.outside c r hroot hkind t hcore hinside
  · have hkind : r.kind ≠ .quiet := by
      intro hquiet
      rw [(h.idle c r hroot).1 hquiet] at hwaits
      cases hwaits
    have hnot := (h.suits c r hroot hkind t hcore hholds).2
    rw [Core.waits_running hwaits] at hnot
    cases hnot

/-- In every run of safe events, on any number of cores, no exit handler
ever waits for a lock that guest code on its own core holds. -/
theorem never_spins_on_own_guest (ids : ApicIds n) (core : Nat → Fin n) {evs : List (HostEvent n)}
    {s : HostState n} (hrun : (hostMachine ids).run (.initial core) evs = some s)
    (hsafe : (hostMachine ids).Along (SafeEvent ids) (.initial core) evs) (c : Fin n) :
    ¬ SpinsOnOwnGuest s c :=
  ((hostMachine ids).invariant_of_along (fun _ _ _ hI hok hnext => suspendInv_next hI hok hnext)
    (suspendInv_initial ids core) hsafe hrun).not_spins c

end

/-! ### Runs on one core and on two -/

/-- Core `c` has APIC id `c`. -/
def plainIds (n : Nat) (h : n ≤ 255) : ApicIds n where
  id c := c
  lt c := Nat.lt_of_lt_of_le c.isLt h
  inj _ _ heq := Fin.ext heq

/-- Thread 0 logs on core 0. In the middle of it an NMI exits and logs
too. -/
def nmiInSection : List (HostEvent 1) :=
  [.dispatch 0 0, .guestLogger 0 .lock, .guestLogger 0 .step, .guestLogger 0 .step,
    .exit 0 .logs, .rootLogger 0 .lock, .rootLogger 0 .step]

/-- The exit handler finds the token of its core and goes on. -/
theorem never_spins_nmiInSection : ∃ s,
    (hostMachine (plainIds 1 (by decide))).run (.initial fun _ => 0) nmiInSection = some s ∧
      s.logger.owner = 1 ∧ ¬ SpinsOnOwnGuest s 0 := by
  obtain ⟨s, hrun, howner⟩ : ∃ s,
      (hostMachine (plainIds 1 (by decide))).run (.initial fun _ => 0) nmiInSection = some s ∧
        s.logger.owner = 1 := ⟨_, rfl, rfl⟩
  refine ⟨s, hrun, howner, never_spins_on_own_guest _ _ hrun ?_ 0⟩
  iterate 4 refine Machine.along_cons rfl trivial ?_
  -- The exit: the holder has taken the lock on this core.
  refine Machine.along_cons rfl ⟨fun _ _ _ _ => rfl, fun h => by cases h⟩ ?_
  iterate 2 refine Machine.along_cons rfl trivial ?_
  trivial

/-- Thread 0 is preempted inside the hook's section, and thread 1 makes
the hypercall. -/
def preempted : List (HostEvent 1) :=
  [.dispatch 0 0, .guestOnload 0 .lock, .guestOnload 0 .step, .preempt 0, .dispatch 0 1,
    .exit 0 .target, .rootOnload 0 .lock, .rootOnload 0 .step]

/-- Thread 0 takes the logger's lock on core 0, is preempted and goes on
on core 1, where an exit handler logs. -/
def migrated : List (HostEvent 2) :=
  [.dispatch 0 0, .guestLogger 0 .lock, .guestLogger 0 .step, .guestLogger 0 .step,
    .guestLogger 0 .step, .preempt 0, .move 0 1, .dispatch 1 0, .exit 1 .logs,
    .rootLogger 1 .lock, .rootLogger 1 .step, .rootLogger 1 .step]

/-- The claimed property fails for both locks. -/
theorem spins_on_own_guest :
    (∃ s, (hostMachine (plainIds 1 (by decide))).run (.initial fun _ => 0) preempted = some s ∧
      SpinsOnOwnGuest s 0) ∧
    ∃ s, (hostMachine (plainIds 2 (by decide))).run (.initial fun _ => 0) migrated = some s ∧
      SpinsOnOwnGuest s 1 := by
  constructor
  · exact ⟨_, rfl, _, rfl, Or.inl ⟨rfl, rfl, 0, rfl, rfl⟩⟩
  · exact ⟨_, rfl, _, rfl, Or.inr ⟨rfl, by decide, 0, rfl, by decide, rfl, rfl⟩⟩

end Revhv.Preemption
