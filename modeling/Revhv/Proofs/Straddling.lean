import Revhv.Proofs.Crossings

/-!
# `Revhv.Proofs.Straddling`: instructions on the border of a session

A session lets its pages run in the target view only and all others in
the normal view only. An instruction is fetched as a whole, so all its
pages have to run in one view.

* `session_next`: the exits other than hypercalls leave the views of a
  session as they are.
* `fetch_ends_iff`: an instruction has a view in which all its pages
  run, and the flips for it come to an end, exactly when the border of
  the session does not cut it.
* `straddling_flips_forever`: one that the border cuts.
-/

set_option autoImplicit false

namespace Revhv.Straddling

open Revhv.Crossings Revhv.Ept Revhv.Hypercall Revhv.Lib Revhv.Memory Revhv.Trace
  Revhv.TransitionCfg Revhv.Vcpu Revhv.Vmexit

/-! ### The property -/

/-- In one of the views all the pages of an instruction can be executed. -/
def RunsInOneView (v : Vcpu) (paging : Nat → GuestPage) (i : Instruction) : Prop :=
  (∀ k, k < i.length → v.ept.normal.Executable (i.page paging k)) ∨
    ∀ k, k < i.length → v.ept.target.Executable (i.page paging k)

/-- The pages of an instruction are all in `T`, or all outside. -/
def Uncut (T : List GuestPage) (paging : Nat → GuestPage) (i : Instruction) : Prop :=
  (∀ k, k < i.length → i.page paging k ∈ T) ∨ ∀ k, k < i.length → i.page paging k ∉ T

/-- An exit that is no hypercall. -/
def NoHypercall : EptExit → Prop
  | .eptHook _ | .enableAutoTrace _ _ | .disableAutoTrace _ => False
  | .wrmsrMtrr _ | .eptViolation _ => True

/-! ### The views of a session -/

/-- The views of a session on the pages `T`. -/
structure Session (T : List GuestPage) (v : Vcpu) : Prop where
  wf : v.WF
  normal : ∀ q, v.ept.normal.Executable q ↔ q ∉ T
  target : ∀ q, v.ept.target.Executable q ↔ q ∈ T
  unguarded : ∀ q, ¬ v.views.normal.Guarded q

section
variable {T : List GuestPage} {v v' : Vcpu} {paging : Nat → GuestPage} {i : Instruction}

/-- The session does not depend on the view in use. -/
theorem Session.of_views (h : Session T v) (hwf : v'.WF) (hviews : v'.views = v.views) :
    Session T v' where
  wf := hwf
  normal q := by
    rw [executable_normal_iff, hviews]
    exact h.normal q
  target q := by
    rw [executable_target_iff, hviews]
    exact h.target q
  unguarded := by
    rw [hviews]
    exact h.unguarded

/-- There is no active hook in the view in use. -/
theorem Session.no_guard (h : Session T v) {g : Guard GuestPage Nat}
    (hmem : g ∈ (v.views.current v.inNormalExecution).guards) : g.active ≠ true := by
  intro hactive
  exact h.unguarded g.page ((guarded_current h.wf _).mp ⟨g, hmem, rfl, hactive⟩)

/-- An exit other than a hypercall leaves a session alone. For a
violation it changes the view in use. -/
theorem session_next {systemCr3 : Nat} {exit : EptExit} (h : Session T v)
    (hexit : NoHypercall exit) (hnext : (eptMachine systemCr3).next v exit = some v') :
    Session T v' ∧
      ∀ violation, exit = .eptViolation violation →
        v'.inNormalExecution = !v.inNormalExecution := by
  obtain ⟨hwf, hstep⟩ := next_viewStep h.wf hnext
  cases hstep with
  | hookRefused _ _ _ _ => exact absurd hexit id
  | hookStored _ _ _ _ => exact absurd hexit id
  | enabled _ _ _ _ _ _ _ _ => exact absurd hexit id
  | enableFailed _ _ _ _ => exact absurd hexit id
  | disabled _ _ => exact absurd hexit id
  | retyped views _ => exact ⟨h.of_views hwf views, fun _ heq => by cases heq⟩
  | swappedIn _ mem active _ _ _ => exact absurd active (h.no_guard mem)
  | swappedOut _ mem active _ _ _ => exact absurd active (h.no_guard mem)
  | flipped _ _ views inNormal _ _ _ => exact ⟨h.of_views hwf views, fun _ _ => inNormal⟩

/-- The session goes on along any run without a hypercall. -/
theorem session_run {systemCr3 : Nat} {es : List EptExit} (hes : ∀ e ∈ es, NoHypercall e)
    (h : Session T v) (hrun : (eptMachine systemCr3).run v es = some v') : Session T v' := by
  induction es generalizing v with
  | nil =>
    cases hrun
    exact h
  | cons e es ih =>
    obtain ⟨v₁, hnext, hrest⟩ := (eptMachine systemCr3).run_cons_eq_some hrun
    have h₁ := (session_next h (hes e List.mem_cons_self) hnext).1
    exact ih (fun e he => hes e (List.mem_cons_of_mem _ he)) h₁ hrest

/-- A successful enable on a vCPU without a session starts one. -/
theorem session_of_enabled {systemCr3 : Nat} {setup : VcpuSetup} {entries : Nat → Entry}
    {es : List EptExit} (hrun : (eptMachine systemCr3).run (initialVcpu setup entries) es = some v)
    (hinactive : Inactive v) {tables : Tables} {ctx : GuestContext}
    (henable : (eptMachine systemCr3).next v (.enableAutoTrace tables ctx) = some v')
    (hrax : v'.guestContext.rax = 1) :
    Session (tracedPages tables systemCr3 ctx.rdx.toNat ctx.r8.toNat) v' := by
  have h := (tracing_of_enabled (reachable_wf hrun) (reachable_open hrun) hinactive henable hrax).1
  exact ⟨h.wf, h.normal, h.target, h.unguarded⟩

/-! ### Fetching an instruction -/

/-- A page runs in the view in use when it is on that view's side of the
border. -/
theorem Session.walked_iff (h : Session T v) (q : GuestPage) :
    v.walkedPages.Executable q ↔ (v.inNormalExecution = true ↔ q ∉ T) := by
  rw [h.wf.walkedPages]
  unfold Vcpu.currentEptPages
  cases v.inNormalExecution with
  | true => simp [h.normal]
  | false => simp [h.target]

/-- The page of an instruction's fetch. The fetch is below 512 GB like
its page. -/
theorem fetch_permits_iff (pages : EptPages) (k : Nat) (tsc : UInt64) :
    EptPages.Permits pages (i.fetch paging k tsc) ↔ pages.Executable (i.page paging k) := by
  have hoffset : offset (i.address + k) < 2 ^ 12 := Nat.mod_lt _ (by decide)
  have hpage : (i.fetch paging k tsc).page = i.page paging k := pageOf_frame _ hoffset
  have hbelow : (i.fetch paging k tsc).guestPhysicalAddress < 2 ^ 39 := by
    show (i.page paging k).frame * 2 ^ 12 + offset (i.address + k) < 2 ^ 39
    have hframe := (i.page paging k).frame_lt
    omega
  unfold EptPages.Permits
  rw [hpage, and_iff_right hbelow]
  exact Iff.rfl

/-- One try that is refused. -/
theorem session_fetch {e : Nat × UInt64} (h : Session T v)
    (hnext : (fetchMachine paging i).next v e = some v') :
    e.1 < i.length ∧ ¬ v.walkedPages.Executable (i.page paging e.1) ∧ Session T v' ∧
      v'.inNormalExecution = !v.inNormalExecution := by
  have hrefused : (if e.1 < i.length ∧ ¬ EptPages.Permits v.walkedPages (i.fetch paging e.1 e.2)
      then handleEptViolation { v with guestContext := i.guest.ctx }
        (i.fetch paging e.1 e.2).violation else none) = some v' := hnext
  split at hrefused
  · rename_i hfetch
    have hexit : (eptMachine 0).next v (.eptViolation (i.fetch paging e.1 e.2).violation) =
        some v' := hrefused
    obtain ⟨hsession, hflip⟩ := session_next h (show NoHypercall (.eptViolation _) from trivial)
      hexit
    rw [fetch_permits_iff] at hfetch
    exact ⟨hfetch.1, hfetch.2, hsession, hflip _ rfl⟩
  · cases hrefused

/-- A byte that the view in use refuses is a next try. -/
theorem fetch_of_refused {k : Nat} (hk : k < i.length)
    (hrefused : ¬ v.walkedPages.Executable (i.page paging k)) :
    ∃ v', (fetchMachine paging i).next v (k, 0) = some v' := by
  have hexecute : (i.fetch paging k 0).violation.executeAccess = true := rfl
  obtain ⟨v', hnext⟩ := next_execute 0 v hexecute
  refine ⟨v', ?_⟩
  have hfetch : k < i.length ∧ ¬ EptPages.Permits v.walkedPages (i.fetch paging k 0) :=
    ⟨hk, mt (fetch_permits_iff _ k 0).mp hrefused⟩
  exact (if_pos hfetch).trans hnext

/-- An instruction the border does not cut is refused once at most. -/
theorem Session.ends (h : Session T v) (huncut : Uncut T paging i) :
    ¬ (fetchMachine paging i).RunsForever v := by
  intro hforever
  obtain ⟨es, v₂, hlength, hrun⟩ := hforever 2
  match es, hlength with
  | [e₁, e₂], _ =>
    obtain ⟨v₁, hnext₁, hrun₁⟩ := (fetchMachine paging i).run_cons_eq_some hrun
    obtain ⟨_, hnext₂, _⟩ := (fetchMachine paging i).run_cons_eq_some hrun₁
    obtain ⟨hk₁, hrefused₁, h₁, hflip⟩ := session_fetch h hnext₁
    obtain ⟨hk₂, hrefused₂, _⟩ := session_fetch h₁ hnext₂
    rw [h.walked_iff] at hrefused₁
    rw [h₁.walked_iff, hflip] at hrefused₂
    -- Both bytes are on one side, and each view has refused one of them.
    rcases huncut with hin | hout
    · have hin₁ := hin e₁.1 hk₁
      have hin₂ := hin e₂.1 hk₂
      cases hn : v.inNormalExecution with
      | true => simp [hn, hin₂] at hrefused₂
      | false => simp [hn, hin₁] at hrefused₁
    · have hout₁ := hout e₁.1 hk₁
      have hout₂ := hout e₂.1 hk₂
      cases hn : v.inNormalExecution with
      | true => simp [hn, hout₁] at hrefused₁
      | false => simp [hn, hout₂] at hrefused₂

/-- Whichever view is in use, it refuses a byte of an instruction the
border cuts. -/
theorem Session.refuses (h : Session T v) (hcut : ¬ Uncut T paging i) :
    ∃ k, k < i.length ∧ ¬ v.walkedPages.Executable (i.page paging k) := by
  -- If every page could be executed now, all of them would lie on one side of
  -- the target.
  by_contra hnone
  apply hcut
  have hall : ∀ k, k < i.length → (v.inNormalExecution = true ↔ i.page paging k ∉ T) := by
    intro k hk
    rw [← h.walked_iff]
    by_contra hrefused
    exact hnone ⟨k, hk, hrefused⟩
  cases hn : v.inNormalExecution with
  | true =>
    right
    intro k hk
    exact (hall k hk).mp hn
  | false =>
    left
    intro k hk
    simpa [hn] using hall k hk

/-- So the flips for it go on forever. -/
theorem Session.flips_forever (h : Session T v) (hcut : ¬ Uncut T paging i) :
    (fetchMachine paging i).RunsForever v := by
  apply (fetchMachine paging i).runsForever_of_progress (I := Session T) _ h
  intro w hw
  obtain ⟨k, hk, hrefused⟩ := hw.refuses hcut
  obtain ⟨w', hnext⟩ := fetch_of_refused hk hrefused
  exact ⟨(k, 0), w', hnext, (session_fetch hw hnext).2.2.1⟩

/-- In a session an instruction runs in one view exactly if no boundary
cuts it. -/
theorem Session.runsInOneView_iff (h : Session T v) :
    RunsInOneView v paging i ↔ Uncut T paging i := by
  unfold RunsInOneView Uncut
  simp only [h.normal, h.target]
  exact or_comm

/-- The flips of its fetches end under the same condition. -/
theorem Session.ends_iff (h : Session T v) :
    ¬ (fetchMachine paging i).RunsForever v ↔ Uncut T paging i := by
  constructor
  · intro hends
    by_contra hcut
    exact hends (h.flips_forever hcut)
  · exact h.ends

end

/-- While a session is on that one enable has started, an instruction
has a view in which all its pages can be executed exactly when they are
all in the traced range or all outside, and exactly then the flips for
it come to an end. -/
theorem fetch_ends_iff (systemCr3 : Nat) (setup : VcpuSetup) (entries : Nat → Entry)
    (es₀ : List EptExit) {v v₁ v₂ : Vcpu}
    (hrun₀ : (eptMachine systemCr3).run (initialVcpu setup entries) es₀ = some v)
    (hinactive : Inactive v) (tables : Tables) (ctx : GuestContext)
    (henable : (eptMachine systemCr3).next v (.enableAutoTrace tables ctx) = some v₁)
    (hrax : v₁.guestContext.rax = 1) (es : List EptExit) (hes : ∀ e ∈ es, NoHypercall e)
    (hrun : (eptMachine systemCr3).run v₁ es = some v₂) (paging : Nat → GuestPage)
    (i : Instruction) :
    (RunsInOneView v₂ paging i ↔
      Uncut (tracedPages tables systemCr3 ctx.rdx.toNat ctx.r8.toNat) paging i) ∧
    (¬ (fetchMachine paging i).RunsForever v₂ ↔
      Uncut (tracedPages tables systemCr3 ctx.rdx.toNat ctx.r8.toNat) paging i) := by
  have h := session_run hes (session_of_enabled hrun₀ hinactive henable hrax) hrun
  exact ⟨h.runsInOneView_iff, h.ends_iff⟩

/-! ### A session of the small vCPU -/

/-- The guest's own paging maps each page to itself. -/
def directPaging (page : Nat) : GuestPage := pageOf (page * 2 ^ 12)

/-- Four bytes, the last two of the first page and the first two of the
second. -/
def straddling : Instruction where
  address := 0x1ffe
  length := 4
  guest := ⟨0x1ffe, 0, .zero, fun _ => 0⟩
  nonempty := by decide
  twoPages := by decide

/-- Four bytes in the middle of the first page. -/
def inFirstPage : Instruction where
  address := 0x1800
  length := 4
  guest := ⟨0x1800, 0, .zero, fun _ => 0⟩
  nonempty := by decide
  twoPages := by decide

/-- An instruction with all its bytes on the traced page. -/
theorem fetch_ends_inFirstPage : ∃ v₁,
    (eptMachine 1).next plainVcpu
      (.enableAutoTrace directTables (hypercallContext 0x1000 0x1000)) = some v₁ ∧
    RunsInOneView v₁ directPaging inFirstPage ∧
    ¬ (fetchMachine directPaging inFirstPage).RunsForever v₁ := by
  obtain ⟨v₁, hnext, hrax, _⟩ := plainVcpu_session
  have hpages : tracedPages directTables 1 (hypercallContext 0x1000 0x1000).rdx.toNat
      (hypercallContext 0x1000 0x1000).r8.toNat = [firstPage] := tracedPages_first
  have hends := fetch_ends_iff 1 plainSetup _ [] rfl plainVcpu_inactive directTables _ hnext hrax []
    (by simp) rfl directPaging inFirstPage
  have huncut : Uncut [firstPage] directPaging inFirstPage := Or.inl (by decide)
  rw [hpages] at hends
  exact ⟨v₁, hnext, hends.1.mpr huncut, hends.2.mpr huncut⟩

/-- The claimed property fails: an instruction that begins on the traced
page and ends on the next one runs in neither view, and the handler
flips them forever. -/
theorem straddling_flips_forever : ∃ v₁,
    (eptMachine 1).next plainVcpu
      (.enableAutoTrace directTables (hypercallContext 0x1000 0x1000)) = some v₁ ∧
    v₁.guestContext.rax = 1 ∧ ¬ RunsInOneView v₁ directPaging straddling ∧
    (fetchMachine directPaging straddling).RunsForever v₁ := by
  obtain ⟨v₁, hnext, hrax, _⟩ := plainVcpu_session
  have hpages : tracedPages directTables 1 (hypercallContext 0x1000 0x1000).rdx.toNat
      (hypercallContext 0x1000 0x1000).r8.toNat = [firstPage] := tracedPages_first
  have hrun : (eptMachine 1).run plainVcpu [] = some plainVcpu := rfl
  have h := session_of_enabled hrun plainVcpu_inactive hnext hrax
  rw [hpages] at h
  -- One byte lies in the traced page and another outside of it.
  have hcut : ¬ Uncut [firstPage] directPaging straddling := by
    intro huncut
    rcases huncut with hin | hout
    · exact absurd (hin 2 (by decide)) (by decide)
    · exact absurd (hout 0 (by decide)) (by decide)
  exact ⟨v₁, hnext, hrax, mt h.runsInOneView_iff.mp hcut, h.flips_forever hcut⟩

end Revhv.Straddling
