import Mathlib.Algebra.GroupWithZero.Nat
import Mathlib.Data.List.Basic

/-!
# `Revhv.Lib.Machine`: machines, runs and invariants

A machine is a partial transition function: `next s e` is the state
after event `e`, or `none` when `e` cannot happen in `s`. An
interleaving of several parties is a list of events, so a claim over
every interleaving is a claim over every list.

* `Machine.run` folds `next` over a list of events.
* `Machine.Along ok s es`: every step of that run is taken in a state
  and with an event that meet `ok`. `Along (fun _ _ => True)` puts no
  condition on the run.
* `Machine.invariant_of_along` is the induction rule: a predicate that
  the start state has and every admitted step keeps holds after the
  run.
* `Machine.along_append` turns a condition on a whole run into one on
  each step of it.
* `Machine.RunsForever` is divergence, and `Machine.runsForever_of_progress`
  the rule for it.

Nothing here names a program.
-/

set_option autoImplicit false

namespace Revhv.Lib

/-- A party of a machine of one party is a numeral. -/
instance neZero_one : NeZero 1 := ⟨by decide⟩

/-- A party of a machine of two parties is a numeral. -/
instance neZero_two : NeZero 2 := ⟨by decide⟩

/-- A partial transition function over states `σ` and events `ε`. -/
structure Machine (σ ε : Type) where
  next : σ → ε → Option σ

namespace Machine

variable {σ ε : Type} (m : Machine σ ε)

/-- The state after the events `es`, `none` when one of them cannot
happen. -/
def run (s : σ) : List ε → Option σ
  | [] => some s
  | e :: es => (m.next s e).bind fun s' => run s' es

/-- Every step of the run of `es` from `s` meets `ok`. -/
def Along (ok : σ → ε → Prop) (s : σ) : List ε → Prop
  | [] => True
  | e :: es => ok s e ∧ ∀ s', m.next s e = some s' → Along ok s' es

/-- The empty run stays where it is. -/
@[simp] theorem run_nil (s : σ) : m.run s [] = some s := rfl

/-- A run takes its first event and runs the rest. -/
theorem run_cons (s : σ) (e : ε) (es : List ε) :
    m.run s (e :: es) = (m.next s e).bind fun s' => m.run s' es := rfl

/-- A run of a nonempty list takes its first step and runs the rest. -/
theorem run_cons_eq_some {s s'' : σ} {e : ε} {es : List ε}
    (h : m.run s (e :: es) = some s'') :
    ∃ s', m.next s e = some s' ∧ m.run s' es = some s'' := by
  rw [run_cons, Option.bind_eq_some_iff] at h
  exact h

/-- Two runs one after the other are the run of the joined list. -/
theorem run_append (s : σ) (es fs : List ε) :
    m.run s (es ++ fs) = (m.run s es).bind fun s' => m.run s' fs := by
  induction es generalizing s with
  | nil => rfl
  | cons e es ih =>
      rw [List.cons_append, run_cons, run_cons, Option.bind_assoc]
      exact congrArg _ (funext fun s' => ih s')

/-- A run goes on from where its first part ended. -/
theorem run_append_of_eq {s s' : σ} {es : List ε} (h : m.run s es = some s') (fs : List ε) :
    m.run s (es ++ fs) = m.run s' fs := by
  rw [run_append, h, Option.bind_some]

/-- A run that puts no condition on its steps meets it. -/
theorem along_true (s : σ) (es : List ε) : m.Along (fun _ _ => True) s es := by
  induction es generalizing s with
  | nil => trivial
  | cons e es ih => exact ⟨trivial, fun s' _ => ih s'⟩

/-- A condition along a run whose first step is known. -/
theorem along_cons {m : Machine σ ε} {ok : σ → ε → Prop} {s s' : σ} {e : ε} {es : List ε}
    (hnext : m.next s e = some s') (h : ok s e) (hrest : m.Along ok s' es) :
    m.Along ok s (e :: es) := by
  refine ⟨h, fun t ht => ?_⟩
  cases hnext.symm.trans ht
  exact hrest

/-- A condition that the events of a run meet in every state. -/
theorem along_of_mem {m : Machine σ ε} {ok : σ → ε → Prop} {es : List ε}
    (h : ∀ e ∈ es, ∀ s, ok s e) (s : σ) : m.Along ok s es := by
  induction es generalizing s with
  | nil => trivial
  | cons e es ih =>
    exact ⟨h e List.mem_cons_self s, fun s' _ => ih (fun e' he' => h e' (.tail _ he')) s'⟩

/-- A machine that takes every event has every run. -/
theorem exists_run {m : Machine σ ε} (h : ∀ s e, ∃ s', m.next s e = some s') (s : σ)
    (es : List ε) : ∃ s', m.run s es = some s' := by
  induction es generalizing s with
  | nil => exact ⟨s, rfl⟩
  | cons e es ih =>
    obtain ⟨s₁, hnext⟩ := h s e
    rw [run_cons, hnext]
    exact ih s₁

/-- A condition that can be decided for a step can be decided along a
run. -/
instance decidableAlong (ok : σ → ε → Prop) [∀ s e, Decidable (ok s e)] :
    ∀ (es : List ε) (s : σ), Decidable (m.Along ok s es)
  | [], _ => isTrue trivial
  | e :: es, s =>
      match h : m.next s e with
      | none => decidable_of_iff (ok s e) ⟨fun hok => ⟨hok, fun _ hs => by
          rw [h] at hs
          cases hs⟩, And.left⟩
      | some s' =>
          have := decidableAlong ok es s'
          decidable_of_iff (ok s e ∧ m.Along ok s' es)
            ⟨fun hok => along_cons h hok.1 hok.2, fun hok => ⟨hok.1, hok.2 s' h⟩⟩

/-- The induction rule. `I` holds after a run when it holds before it
and every step that meets `ok` keeps it. -/
theorem invariant_of_along {ok : σ → ε → Prop} {I : σ → Prop}
    (hstep : ∀ s e s', I s → ok s e → m.next s e = some s' → I s')
    {s s' : σ} {es : List ε} (h0 : I s) (hok : m.Along ok s es)
    (hrun : m.run s es = some s') : I s' := by
  induction es generalizing s with
  | nil =>
      cases hrun
      exact h0
  | cons e es ih =>
      obtain ⟨t, ht, hrest⟩ := m.run_cons_eq_some hrun
      exact ih (hstep s e t h0 hok.1 ht) (hok.2 t ht) hrest

/-- The induction rule for runs without a condition on their steps. -/
theorem invariant_of_run {I : σ → Prop}
    (hstep : ∀ s e s', I s → m.next s e = some s' → I s')
    {s s' : σ} {es : List ε} (h0 : I s) (hrun : m.run s es = some s') : I s' :=
  m.invariant_of_along (fun s e s' hI (_ : True) hn => hstep s e s' hI hn) h0
    (m.along_true s es) hrun

/-- A condition along a joined run splits at the seam. -/
theorem along_append {ok : σ → ε → Prop} {s s' : σ} {es fs : List ε}
    (hok : m.Along ok s (es ++ fs)) (hrun : m.run s es = some s') :
    m.Along ok s es ∧ m.Along ok s' fs := by
  induction es generalizing s with
  | nil =>
      cases hrun
      exact ⟨trivial, hok⟩
  | cons e es ih =>
      obtain ⟨t, ht, hrest⟩ := m.run_cons_eq_some hrun
      refine ⟨⟨hok.1, fun u hu => ?_⟩, (ih (hok.2 t ht) hrest).2⟩
      cases ht.symm.trans hu
      exact (ih (hok.2 t ht) hrest).1

/-- A stronger condition may be replaced by a weaker one. -/
theorem Along.mono {m : Machine σ ε} {ok ok' : σ → ε → Prop} (h : ∀ s e, ok s e → ok' s e)
    {s : σ} {es : List ε} (hok : m.Along ok s es) : m.Along ok' s es := by
  induction es generalizing s with
  | nil => trivial
  | cons e es ih => exact ⟨h s e hok.1, fun s' hs' => ih (hok.2 s' hs')⟩

/-- There are runs of every length: nothing makes the machine come to an
end. -/
def RunsForever (s : σ) : Prop := ∀ n, ∃ es s', es.length = n ∧ m.run s es = some s'

/-- The rule for divergence. From a state of `I` some step leads to a
state of `I` again. -/
theorem runsForever_of_progress {I : σ → Prop}
    (hprogress : ∀ s, I s → ∃ e s', m.next s e = some s' ∧ I s') {s : σ} (h : I s) :
    m.RunsForever s := by
  intro n
  induction n generalizing s with
  | zero => exact ⟨[], s, rfl, rfl⟩
  | succ n ih =>
    obtain ⟨e, t, hnext, ht⟩ := hprogress s h
    obtain ⟨es, s', hlength, hrun⟩ := ih ht
    refine ⟨e :: es, s', ?_, ?_⟩
    · rw [List.length_cons, hlength]
    · rw [run_cons, hnext, Option.bind_some, hrun]

end Machine

end Revhv.Lib
