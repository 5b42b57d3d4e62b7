import Revhv.Lib.Machine
import Mathlib.Data.List.Perm.Basic

/-!
# `Revhv.Lib.CommitPoint`: calls that take effect at one point

A machine that works through calls in several steps, against a
specification that takes a call at once. If every step of the machine
lets some of the calls that are open take effect, in some order, then a
whole run has the effect of all its calls in one order.

Nothing here names a program.
-/

set_option autoImplicit false

namespace Revhv.Lib

variable {σ ε τ κ : Type}

/-- How the calls of a specification are worked through: which calls an
event starts, which ones a state has open that have not taken effect,
and which states stand for which. -/
structure CommitPoints (m : Machine σ ε) (spec : Machine τ κ) where
  starts : ε → List κ
  pending : σ → List κ
  Linked : σ → τ → Prop
  ok : σ → ε → Prop
  /-- The calls that take effect in a step are pending before it or
  started by it. -/
  commit : ∀ s e s' a, Linked s a → ok s e → m.next s e = some s' →
    ∃ calls a', spec.run a calls = some a' ∧ Linked s' a' ∧
      (calls ++ pending s').Perm (pending s ++ starts e)

namespace CommitPoints

variable {m : Machine σ ε} {spec : Machine τ κ} (c : CommitPoints m spec)

/-- A run has the effect of its calls in some order, up to those still
pending. -/
theorem exists_serial {events : List ε} {s s' : σ} {a : τ} (h : c.Linked s a)
    (hok : m.Along c.ok s events) (hrun : m.run s events = some s') :
    ∃ calls a', spec.run a calls = some a' ∧ c.Linked s' a' ∧
      (calls ++ c.pending s').Perm (c.pending s ++ events.flatMap c.starts) := by
  -- By induction over the events, with the calls that take effect at each in
  -- their order.
  induction events generalizing s a with
  | nil =>
      obtain rfl := Option.some.inj hrun
      exact ⟨[], a, rfl, h, by simp⟩
  | cons e events ih =>
      obtain ⟨t, hnext, hrest⟩ := m.run_cons_eq_some hrun
      obtain ⟨calls, b, hcalls, hb, hperm⟩ := c.commit s e t a h hok.1 hnext
      obtain ⟨calls', b', hcalls', hb', hperm'⟩ := ih hb (hok.2 t hnext) hrest
      refine ⟨calls ++ calls', b', ?_, hb', ?_⟩
      · rw [spec.run_append_of_eq hcalls]
        exact hcalls'
      · rw [List.append_assoc, List.flatMap_cons, ← List.append_assoc (c.pending s)]
        refine (List.Perm.append_left calls hperm').trans ?_
        rw [← List.append_assoc]
        exact List.Perm.append_right _ hperm

end CommitPoints

end Revhv.Lib
