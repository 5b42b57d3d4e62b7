import Mathlib.Data.List.Basic

/-!
# `Revhv.Lib.Query`: programs that ask an environment

A `Query` asks questions, goes on with the answers, and ends with a value
or an exception. `run` is its result when a function answers, `asked` the
questions it then asks, and `Asks Q` says that it asks questions of `Q`
only, whatever the answers are.

* `Asks.bind`, `Asks.attempt`: the rules of `Asks`.
* `asked_of_asks`: what a run asks.
* `run_bind`, `run_attempt`: how runs compose.

Nothing here names a program.
-/

set_option autoImplicit false

namespace Revhv.Lib

/-- A program that asks questions of `κ` and gets answers of `ρ`. -/
inductive Query (κ ρ α : Type) where
  | done (a : α)
  | throw
  | ask (question : κ) (next : ρ → Query κ ρ α)

namespace Query

variable {κ ρ α β : Type}

/-- One program after another. An exception ends both. -/
def bind : Query κ ρ α → (α → Query κ ρ β) → Query κ ρ β
  | done a, f => f a
  | throw, _ => throw
  | ask question next, f => ask question fun answer => (next answer).bind f

/-- Catch the exception of a program. -/
def attempt : Query κ ρ α → Query κ ρ (Option α)
  | done a => done (some a)
  | throw => done none
  | ask question next => ask question fun answer => (next answer).attempt

/-- The result of a program, `none` for an exception. -/
def run (answer : κ → ρ) : Query κ ρ α → Option α
  | done a => some a
  | throw => none
  | ask question next => (next (answer question)).run answer

/-- The questions of a run. -/
def asked (answer : κ → ρ) : Query κ ρ α → List κ
  | done _ => []
  | throw => []
  | ask question next => question :: (next (answer question)).asked answer

/-- The program asks questions of `Q` only, whatever the answers are. -/
def Asks (Q : κ → Prop) : Query κ ρ α → Prop
  | done _ => True
  | throw => True
  | ask question next => Q question ∧ ∀ answer, (next answer).Asks Q

/-- A finished program returns its value. -/
@[simp] theorem run_done (answer : κ → ρ) (a : α) : (done a : Query κ ρ α).run answer = some a :=
  rfl

/-- A failed program returns nothing. -/
@[simp] theorem run_throw (answer : κ → ρ) : (throw : Query κ ρ α).run answer = none := rfl

/-- A question is answered, and the program goes on with the answer. -/
@[simp] theorem run_ask (answer : κ → ρ) (question : κ) (next : ρ → Query κ ρ α) :
    (ask question next).run answer = (next (answer question)).run answer := rfl

/-- The result of one program after another. -/
@[simp] theorem run_bind (answer : κ → ρ) (m : Query κ ρ α) (f : α → Query κ ρ β) :
    (m.bind f).run answer = (m.run answer).bind fun a => (f a).run answer := by
  induction m with
  | done a => rfl
  | throw => rfl
  | ask question next ih => exact ih (answer question)

/-- A caught exception is a result. -/
@[simp] theorem run_attempt (answer : κ → ρ) (m : Query κ ρ α) :
    m.attempt.run answer = some (m.run answer) := by
  induction m with
  | done a => rfl
  | throw => rfl
  | ask question next ih => exact ih (answer question)

section
variable {Q : κ → Prop}

/-- One program after another asks what the two ask. -/
theorem Asks.bind {m : Query κ ρ α} {f : α → Query κ ρ β} (hm : m.Asks Q)
    (hf : ∀ a, (f a).Asks Q) : (m.bind f).Asks Q := by
  induction m with
  | done a => exact hf a
  | throw => trivial
  | ask question next ih => exact ⟨hm.1, fun answer => ih answer (hm.2 answer)⟩

/-- Catching an exception asks nothing. -/
theorem Asks.attempt {m : Query κ ρ α} (hm : m.Asks Q) : m.attempt.Asks Q := by
  induction m with
  | done a => trivial
  | throw => trivial
  | ask question next ih => exact ⟨hm.1, fun answer => ih answer (hm.2 answer)⟩

/-- The questions of a run are questions of `Q`. -/
theorem asked_of_asks {m : Query κ ρ α} (hm : m.Asks Q) {answer : κ → ρ} {question : κ}
    (h : question ∈ m.asked answer) : Q question := by
  induction m with
  | done a => cases h
  | throw => cases h
  | ask first next ih =>
    rcases List.mem_cons.mp h with hfirst | hrest
    · rw [hfirst]
      exact hm.1
    · exact ih (answer first) (hm.2 _) hrest

end

/-- Run a program for every element of a list, and collect the results. -/
def each (f : α → Query κ ρ β) : List α → Query κ ρ (List β)
  | [] => done []
  | a :: l => (f a).bind fun b => (each f l).bind fun bs => done (b :: bs)

/-- Running a program for every element is a loop over the elements. -/
theorem run_each (answer : κ → ρ) (f : α → Query κ ρ β) (l : List α) :
    (each f l).run answer = l.mapM fun a => (f a).run answer := by
  induction l with
  | nil => rfl
  | cons a l ih =>
    rw [each, run_bind, List.mapM_cons]
    simp only [run_bind, ih]
    rfl

/-- A loop asks only what its rounds ask. -/
theorem Asks.each {Q : κ → Prop} {f : α → Query κ ρ β} {l : List α}
    (h : ∀ a ∈ l, (f a).Asks Q) : (Query.each f l).Asks Q := by
  induction l with
  | nil => trivial
  | cons a l ih =>
    apply (h a List.mem_cons_self).bind
    intro b
    exact (ih fun c hc => h c (List.mem_cons_of_mem a hc)).bind fun bs => trivial

end Query

end Revhv.Lib
