import Mathlib.Data.List.Basic
import Mathlib.Logic.Function.Basic

/-!
# `Revhv.Lib.GuardedView`: page permissions with guarded pages

A view gives every page a mapping: what may be done with it and the
frame behind it. A page can be guarded. While its guard is active,
data accesses are to see the page's home frame and execution is to see
a shadow frame, so the mapping is swapped between the two. A guard can
be suspended, which opens the page again.

* `View.AtHome` says that a page shows its home unless it is guarded.
* `View.Sealed` says that page `p` with shadow `s` is in one of the
  forms a guard keeps it in. One lemma an operation shows that the
  operation keeps it (`sealed_guard`, `sealed_suspend`,
  `sealed_resume`, ...).
* `View.Uniform` says that the guards on one page are active or
  suspended together.
* `View.Open` says that every page without an active guard may be read
  and written.

Pages, frames and the home of a page are parameters.
-/

set_option autoImplicit false

namespace Revhv.Lib

/-- What a page may be used for, and the frame behind it. -/
structure Mapping (φ : Type) where
  read : Bool
  write : Bool
  execute : Bool
  frame : φ
  deriving DecidableEq

/-- A guard on a page. -/
structure Guard (π φ : Type) where
  page : π
  shadow : φ
  active : Bool
  deriving DecidableEq

/-- Mappings of all pages, and the guards in the order they were added. -/
structure View (π φ : Type) where
  map : π → Mapping φ
  guards : List (Guard π φ)

namespace View

variable {π φ : Type} [DecidableEq π] (home : π → φ)

/-- Some guard on the page is active. -/
def Guarded (v : View π φ) (q : π) : Prop := ∃ g ∈ v.guards, g.page = q ∧ g.active = true

/-- Some guard on the page is suspended. -/
def Suspended (v : View π φ) (q : π) : Prop := ∃ g ∈ v.guards, g.page = q ∧ g.active = false

/-- The guards of a view are a list, so they can be searched. -/
instance (v : View π φ) (q : π) : Decidable (v.Guarded q) :=
  inferInstanceAs (Decidable (∃ g ∈ v.guards, _))

/-- So can the suspended ones among them. -/
instance (v : View π φ) (q : π) : Decidable (v.Suspended q) :=
  inferInstanceAs (Decidable (∃ g ∈ v.guards, _))

/-! ### Operations -/

/-- The same rights for every page. -/
def setAccess (v : View π φ) (read write execute : Bool) : View π φ :=
  { v with map := fun q => { v.map q with read := read, write := write, execute := execute } }

/-- Execution of the listed pages on or off. -/
def setExecute (v : View π φ) (pages : List π) (execute : Bool) : View π φ :=
  { v with map := fun q => if q ∈ pages then { v.map q with execute := execute } else v.map q }

/-- A new guard, armed: execution of the page faults. -/
def guard (v : View π φ) (p : π) (s : φ) : View π φ where
  map := fun q => if q = p then { v.map q with execute := false } else v.map q
  guards := v.guards ++ [⟨p, s, true⟩]

/-- All guards suspended, their pages open at home. -/
def suspend (v : View π φ) : View π φ where
  map := fun q => if v.Guarded q then ⟨true, true, true, home q⟩ else v.map q
  guards := v.guards.map fun g => { g with active := false }

/-- All suspended guards armed again. -/
def resume (v : View π φ) : View π φ where
  map := fun q =>
    if v.Suspended q then { v.map q with execute := false, frame := home q } else v.map q
  guards := v.guards.map fun g => { g with active := true }

/-- The page shows its shadow, to execution only. -/
def swapIn (v : View π φ) (p : π) (s : φ) : View π φ :=
  { v with map := fun q => if q = p then ⟨false, false, true, s⟩ else v.map q }

/-- The page shows its home, to data accesses only. -/
def swapOut (v : View π φ) (p : π) : View π φ :=
  { v with map := fun q => if q = p then ⟨true, true, false, home p⟩ else v.map q }

section
variable (v : View π φ) (p q : π) (s : φ)

omit [DecidableEq π] in
/-- Every page gets the access, and keeps its frame. -/
@[simp] theorem map_setAccess (read write execute : Bool) :
    (v.setAccess read write execute).map q = ⟨read, write, execute, (v.map q).frame⟩ := rfl

/-- The listed pages get the right to execute or lose it. -/
theorem map_setExecute (pages : List π) (execute : Bool) :
    (v.setExecute pages execute).map q =
      if q ∈ pages then { v.map q with execute := execute } else v.map q := rfl

/-- A guard takes the right to execute from its page, and changes no
other page. -/
theorem map_guard :
    (v.guard p s).map q = if q = p then { v.map q with execute := false } else v.map q := rfl

/-- A suspension opens the guarded pages at home, and changes no other
page. -/
theorem map_suspend :
    (v.suspend home).map q = if v.Guarded q then ⟨true, true, true, home q⟩ else v.map q := rfl

/-- The pages of suspended guards go home and lose the right to execute. -/
theorem map_resume :
    (v.resume home).map q =
      if v.Suspended q then { v.map q with execute := false, frame := home q } else v.map q := rfl

/-- The page shows its shadow, to execution only. -/
theorem map_swapIn :
    (v.swapIn p s).map q = if q = p then ⟨false, false, true, s⟩ else v.map q := rfl

/-- The page shows its own frame, to data accesses only. -/
theorem map_swapOut :
    (v.swapOut home p).map q = if q = p then ⟨true, true, false, home p⟩ else v.map q := rfl

end

/-! ### Guards after an operation -/

/-- A new guard guards its page besides those that were guarded before. -/
theorem guarded_guard {v : View π φ} {p q : π} {s : φ} :
    (v.guard p s).Guarded q ↔ v.Guarded q ∨ q = p := by
  constructor
  · intro h
    obtain ⟨g, hg, hpage, hactive⟩ := h
    -- The new guard is appended, and it is active.
    cases List.mem_append.mp hg with
    | inl hold => exact Or.inl ⟨g, hold, hpage, hactive⟩
    | inr hnew =>
      rw [List.mem_singleton] at hnew
      rw [hnew] at hpage
      exact Or.inr hpage.symm
  · intro h
    cases h with
    | inl hold =>
      obtain ⟨g, hg, hpage⟩ := hold
      exact ⟨g, List.mem_append_left _ hg, hpage⟩
    | inr hnew => exact ⟨⟨p, s, true⟩, by simp [guard], hnew.symm, rfl⟩

/-- While the guards are suspended no page is guarded. -/
theorem not_guarded_suspend {v : View π φ} {q : π} : ¬ (v.suspend home).Guarded q := by
  intro h
  obtain ⟨g, hg, _, hactive⟩ := h
  obtain ⟨g', _, rfl⟩ := List.mem_map.mp hg
  exact Bool.false_ne_true hactive

/-- After `resume` a page is guarded as soon as it has a guard. -/
theorem guarded_resume {v : View π φ} {q : π} :
    (v.resume home).Guarded q ↔ v.Guarded q ∨ v.Suspended q := by
  constructor
  · intro h
    obtain ⟨g, hg, hpage, _⟩ := h
    obtain ⟨g', hg', rfl⟩ := List.mem_map.mp hg
    -- After the sweep all are active, whichever way they were before.
    cases hactive : g'.active with
    | true => exact Or.inl ⟨g', hg', hpage, hactive⟩
    | false => exact Or.inr ⟨g', hg', hpage, hactive⟩
  · intro h
    have hmem : ∃ g ∈ v.guards, g.page = q := by
      cases h with
      | inl h => exact h.imp fun g hg => ⟨hg.1, hg.2.1⟩
      | inr h => exact h.imp fun g hg => ⟨hg.1, hg.2.1⟩
    obtain ⟨g, hg, hpage⟩ := hmem
    exact ⟨{ g with active := true }, List.mem_map_of_mem hg, hpage, rfl⟩

/-! ### Guards of one page go together -/

/-- The guards on one page are all active or all suspended. -/
def Uniform (v : View π φ) : Prop := ∀ q, v.Guarded q → ¬ v.Suspended q

/-- A suspension makes all guards alike. -/
theorem uniform_suspend (v : View π φ) : (v.suspend home).Uniform :=
  fun _ h => (not_guarded_suspend home h).elim

/-- So does a resumption. -/
theorem uniform_resume (v : View π φ) : (v.resume home).Uniform := by
  intro q _ hsuspended
  obtain ⟨g, hg, _, hactive⟩ := hsuspended
  obtain ⟨g', _, rfl⟩ := List.mem_map.mp hg
  exact Bool.false_ne_true hactive.symm

/-- A new guard has to meet no suspended one on its page. -/
theorem uniform_guard {v : View π φ} (h : v.Uniform) {p : π} (s : φ) (hp : ¬ v.Suspended p) :
    (v.guard p s).Uniform := by
  intro q hguarded hsuspended
  have hold : v.Suspended q := by
    obtain ⟨g, hg, hpage, hactive⟩ := hsuspended
    -- The new guard is active and suspends no page.
    cases List.mem_append.mp hg with
    | inl hmem => exact ⟨g, hmem, hpage, hactive⟩
    | inr hnew =>
      rw [List.mem_singleton] at hnew
      rw [hnew] at hactive
      exact (Bool.false_ne_true hactive.symm).elim
  cases guarded_guard.mp hguarded with
  | inl hq => exact h q hq hold
  | inr heq => exact hp (heq ▸ hold)

/-! ### Pages that run or are guarded -/

/-- After full access and `resume`, a page that cannot be executed is
guarded. -/
theorem runs_or_guarded_reset (v : View π φ) (q : π) :
    (((v.setAccess true true true).resume home).map q).execute = true ∨
      ((v.setAccess true true true).resume home).Guarded q := by
  rw [map_resume]
  split
  · exact Or.inr ((guarded_resume home).mpr (Or.inr ‹_›))
  · exact Or.inl rfl

/-! ### Pages without an active guard are open to data -/

/-- Every page without an active guard may be read and written. -/
def Open (v : View π φ) : Prop :=
  ∀ q, ¬ v.Guarded q → (v.map q).read = true ∧ (v.map q).write = true

omit [DecidableEq π] in
/-- Data accesses are open under any right to execute. -/
theorem open_setAccess (v : View π φ) (execute : Bool) : (v.setAccess true true execute).Open :=
  fun _ _ => ⟨rfl, rfl⟩

/-- The right to execute is none of the data accesses. -/
theorem open_setExecute {v : View π φ} (h : v.Open) (pages : List π) (execute : Bool) :
    (v.setExecute pages execute).Open := by
  intro q hq
  have hopen := h q hq
  rw [map_setExecute]
  split
  · exact hopen
  · exact hopen

/-- A guard takes the right to execute only. -/
theorem open_guard {v : View π φ} (h : v.Open) (p : π) (s : φ) : (v.guard p s).Open := by
  intro q hq
  have hopen := h q fun hguarded => hq (guarded_guard.mpr (Or.inl hguarded))
  rw [map_guard]
  split
  · exact hopen
  · exact hopen

/-- A suspended page has all rights. -/
theorem open_suspend {v : View π φ} (h : v.Open) : (v.suspend home).Open := by
  intro q _
  rw [map_suspend]
  split
  · exact ⟨rfl, rfl⟩
  · exact h q ‹_›

/-- Resuming takes the right to execute only. -/
theorem open_resume {v : View π φ} (h : v.Open) : (v.resume home).Open := by
  intro q hq
  have hopen := h q fun hguarded => hq ((guarded_resume home).mpr (Or.inl hguarded))
  rw [map_resume]
  split
  · exact hopen
  · exact hopen

/-- A swap closes a page to data, so the page has to be a guarded one. -/
theorem open_swapIn {v : View π φ} (h : v.Open) {p : π} (s : φ) (hp : v.Guarded p) :
    (v.swapIn p s).Open := by
  intro q hq
  have hne : q ≠ p := fun heq => hq (heq ▸ hp)
  rw [map_swapIn, if_neg hne]
  exact h q hq

/-- A swap back opens its page to data. -/
theorem open_swapOut {v : View π φ} (h : v.Open) (p : π) : (v.swapOut home p).Open := by
  intro q hq
  rw [map_swapOut]
  split
  · exact ⟨rfl, rfl⟩
  · exact h q hq

/-! ### Pages that show their home -/

/-- The page shows its home unless it is guarded. -/
def AtHome (v : View π φ) (p : π) : Prop := ¬ v.Guarded p → (v.map p).frame = home p

section
variable {home} {v : View π φ} {p : π}

omit [DecidableEq π] in
/-- The access says nothing about frames. -/
theorem atHome_setAccess (h : AtHome home v p) (read write execute : Bool) :
    AtHome home (v.setAccess read write execute) p := h

/-- Neither does the right to execute. -/
theorem atHome_setExecute (h : AtHome home v p) (pages : List π) (execute : Bool) :
    AtHome home (v.setExecute pages execute) p := by
  intro hguarded
  have hframe := h hguarded
  rw [map_setExecute]
  split
  · exact hframe
  · exact hframe

/-- A guard leaves the frames of all pages. -/
theorem atHome_guard (h : AtHome home v p) (q : π) (s : φ) : AtHome home (v.guard q s) p := by
  intro hguarded
  have hframe := h fun hold => hguarded (guarded_guard.mpr (Or.inl hold))
  rw [map_guard]
  split
  · exact hframe
  · exact hframe

/-- A suspended page goes home. -/
theorem atHome_suspend (h : AtHome home v p) : AtHome home (v.suspend home) p := by
  intro _
  rw [map_suspend]
  split
  · rfl
  · exact h ‹_›

/-- A resumed page goes home. -/
theorem atHome_resume (h : AtHome home v p) : AtHome home (v.resume home) p := by
  intro hguarded
  have hframe := h fun hold => hguarded ((guarded_resume home).mpr (Or.inl hold))
  rw [map_resume]
  split
  · rfl
  · exact hframe

/-- A guarded page may show anything. -/
theorem atHome_swapIn (h : AtHome home v p) {q : π} (s : φ) (hq : v.Guarded q) :
    AtHome home (v.swapIn q s) p := by
  intro hguarded
  have hne : p ≠ q := fun heq => hguarded (heq ▸ hq)
  rw [map_swapIn, if_neg hne]
  exact h hguarded

/-- A page that is swapped out goes home, the others stay. -/
theorem atHome_swapOut (h : AtHome home v p) (q : π) : AtHome home (v.swapOut home q) p := by
  intro hguarded
  rw [map_swapOut]
  split
  · rename_i heq
    rw [heq]
  · exact h hguarded

end

/-! ### The forms of a guarded page -/

/-- Page `p` under guards with shadow `s`. Suspended or without a guard
it shows its home. Guarded it shows its home without execution, or the
shadow without data access. -/
structure Sealed (v : View π φ) (p : π) (s : φ) : Prop where
  shadow : ∀ g ∈ v.guards, g.page = p → g.shadow = s
  together : v.Guarded p → ¬ v.Suspended p
  atHome : AtHome home v p
  form : v.Guarded p →
    ((v.map p).execute = false ∧ (v.map p).frame = home p) ∨
      ((v.map p).read = false ∧ (v.map p).write = false ∧ (v.map p).frame = s)

variable {home} {v : View π φ} {p : π} {s : φ}

omit [DecidableEq π] in
/-- Rights for all pages keep the form of a page whose guards are
suspended. -/
theorem sealed_setAccess (h : Sealed home v p s) (read write execute : Bool)
    (hp : ¬ v.Guarded p) : Sealed home (v.setAccess read write execute) p s where
  shadow := h.shadow
  together hguarded := (hp hguarded).elim
  atHome := h.atHome
  form hguarded := (hp hguarded).elim

/-- So does the right to execute. -/
theorem sealed_setExecute (h : Sealed home v p s) (pages : List π) (execute : Bool)
    (hp : ¬ v.Guarded p) : Sealed home (v.setExecute pages execute) p s where
  shadow := h.shadow
  together hguarded := (hp hguarded).elim
  atHome := atHome_setExecute h.atHome pages execute
  form hguarded := (hp hguarded).elim

/-- A guard on another page. -/
theorem sealed_guard_of_ne (h : Sealed home v p s) {q : π} (s' : φ) (hq : q ≠ p) :
    Sealed home (v.guard q s') p s := by
  have hmap : (v.guard q s').map p = v.map p := if_neg (Ne.symm hq)
  have hguarded : (v.guard q s').Guarded p ↔ v.Guarded p := by
    rw [guarded_guard, or_iff_left (Ne.symm hq)]
  refine ⟨fun g hg hpage => ?_, fun hg hsuspended => ?_, atHome_guard h.atHome q s',
    fun hg => ?_⟩
  · -- The new guard is on another page.
    cases List.mem_append.mp hg with
    | inl hmem => exact h.shadow g hmem hpage
    | inr hnew =>
      rw [List.mem_singleton] at hnew
      rw [hnew] at hpage
      exact (hq hpage).elim
  · obtain ⟨g, hmem, hpage, hactive⟩ := hsuspended
    cases List.mem_append.mp hmem with
    | inl hold => exact h.together (hguarded.mp hg) ⟨g, hold, hpage, hactive⟩
    | inr hnew =>
      rw [List.mem_singleton] at hnew
      rw [hnew] at hpage
      exact hq hpage
  · rw [hmap]
    exact h.form (hguarded.mp hg)

/-- A guard on the page itself, with the same shadow as those it has. -/
theorem sealed_guard (h : Sealed home v p s) (hp : ¬ v.Suspended p) :
    Sealed home (v.guard p s) p s := by
  have hmap : (v.guard p s).map p = { v.map p with execute := false } := if_pos rfl
  refine ⟨fun g hg hpage => ?_, fun _ hsuspended => ?_, atHome_guard h.atHome p s, fun _ => ?_⟩
  · cases List.mem_append.mp hg with
    | inl hmem => exact h.shadow g hmem hpage
    | inr hnew =>
      rw [List.mem_singleton] at hnew
      rw [hnew]
  · obtain ⟨g, hmem, hpage, hactive⟩ := hsuspended
    cases List.mem_append.mp hmem with
    | inl hold => exact hp ⟨g, hold, hpage, hactive⟩
    | inr hnew =>
      rw [List.mem_singleton] at hnew
      rw [hnew] at hactive
      exact Bool.false_ne_true hactive.symm
  · rw [hmap]
    -- A page that was guarded may be showing its shadow. One that was not is at
    -- home.
    by_cases hguarded : v.Guarded p
    · cases h.form hguarded with
      | inl harmed => exact Or.inl ⟨rfl, harmed.2⟩
      | inr hswapped => exact Or.inr hswapped
    · exact Or.inl ⟨rfl, h.atHome hguarded⟩

/-- With its guards suspended the page is at home. -/
theorem sealed_suspend (h : Sealed home v p s) : Sealed home (v.suspend home) p s := by
  refine ⟨fun g hg hpage => ?_, fun hg => (not_guarded_suspend home hg).elim,
    atHome_suspend h.atHome, fun hg => (not_guarded_suspend home hg).elim⟩
  obtain ⟨g', hg', rfl⟩ := List.mem_map.mp hg
  exact h.shadow g' hg' hpage

/-- A resumed page is at home, without execution. -/
theorem sealed_resume (h : Sealed home v p s) : Sealed home (v.resume home) p s := by
  refine ⟨fun g hg hpage => ?_, uniform_resume home v p, atHome_resume h.atHome, fun hg => ?_⟩
  · obtain ⟨g', hg', rfl⟩ := List.mem_map.mp hg
    exact h.shadow g' hg' hpage
  · by_cases hsuspended : v.Suspended p
    · have hmap : (v.resume home).map p = { v.map p with execute := false, frame := home p } :=
        if_pos hsuspended
      rw [hmap]
      exact Or.inl ⟨rfl, rfl⟩
    · have hmap : (v.resume home).map p = v.map p := if_neg hsuspended
      rw [hmap]
      exact h.form (((guarded_resume home).mp hg).resolve_right hsuspended)

/-- A page shows its shadow only while it is guarded, and a swap of
another page leaves it alone. -/
theorem sealed_swapIn (h : Sealed home v p s) {q : π} {s' : φ} (hq : q = p → s' = s)
    (hguarded : v.Guarded q) : Sealed home (v.swapIn q s') p s where
  shadow := h.shadow
  together := h.together
  atHome := atHome_swapIn h.atHome s' hguarded
  form hp := by
    -- The swapped page stands at its shadow, the others as before.
    by_cases heq : p = q
    · have hmap : (v.swapIn q s').map p = ⟨false, false, true, s'⟩ := if_pos heq
      rw [hmap]
      exact Or.inr ⟨rfl, rfl, hq heq.symm⟩
    · have hmap : (v.swapIn q s').map p = v.map p := if_neg heq
      rw [hmap]
      exact h.form hp

/-- A page that is swapped out is at home, without execution. -/
theorem sealed_swapOut (h : Sealed home v p s) (q : π) : Sealed home (v.swapOut home q) p s := by
  have hmap : (v.swapOut home q).map p = ⟨true, true, false, home p⟩ ∨
      (v.swapOut home q).map p = v.map p := by
    by_cases heq : p = q
    · exact Or.inl (heq ▸ if_pos rfl)
    · exact Or.inr (if_neg heq)
  refine ⟨h.shadow, h.together, atHome_swapOut h.atHome q, fun hp => ?_⟩
  cases hmap with
  | inl hswapped =>
    rw [hswapped]
    exact Or.inl ⟨rfl, rfl⟩
  | inr hsame =>
    rw [hsame]
    exact h.form hp

end View

end Revhv.Lib
