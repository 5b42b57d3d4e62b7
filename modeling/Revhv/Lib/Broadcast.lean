import Mathlib.Data.List.FinRange
import Mathlib.Logic.Function.Basic

/-!
# `Revhv.Lib.Broadcast`: one call on every replica

A broadcast makes a call on each of `n` replicas, one after the other,
and reports whether all calls have succeeded. It does not stop at a
call that fails and takes nothing back.

* `broadcast_apply`: each replica is left as its own call leaves it.
* `broadcast_success_iff`: the report.

Nothing here names a program.
-/

set_option autoImplicit false

namespace Revhv.Lib.Broadcast

variable {n : Nat} {σ : Type}

/-- The call on replica `c`, and the conjunction of the answers so far. -/
def visit (call : Fin n → σ → σ × Bool) (s : (Fin n → σ) × Bool) (c : Fin n) :
    (Fin n → σ) × Bool :=
  (Function.update s.1 c (call c (s.1 c)).1, s.2 && (call c (s.1 c)).2)

/-- The call on every replica in turn. -/
def broadcast (call : Fin n → σ → σ × Bool) (replicas : Fin n → σ) : (Fin n → σ) × Bool :=
  (List.finRange n).foldl (visit call) (replicas, true)

variable (call : Fin n → σ → σ × Bool)

/-- A replica that is not visited stays as it is. -/
theorem foldl_visit_of_notMem {cs : List (Fin n)} {c : Fin n} (hc : c ∉ cs)
    (s : (Fin n → σ) × Bool) : (cs.foldl (visit call) s).1 c = s.1 c := by
  induction cs generalizing s with
  | nil => rfl
  | cons d cs ih =>
    rw [List.mem_cons, not_or] at hc
    rw [List.foldl_cons, ih hc.2]
    exact Function.update_of_ne hc.1 _ _

/-- A replica that is visited once is left as its call leaves it. -/
theorem foldl_visit_of_mem {cs : List (Fin n)} (hnodup : cs.Nodup) {c : Fin n} (hc : c ∈ cs)
    (s : (Fin n → σ) × Bool) : (cs.foldl (visit call) s).1 c = (call c (s.1 c)).1 := by
  induction cs generalizing s with
  | nil => cases hc
  | cons d cs ih =>
    rw [List.nodup_cons] at hnodup
    rw [List.foldl_cons]
    cases List.mem_cons.mp hc with
    | inl heq =>
      subst heq
      rw [foldl_visit_of_notMem call hnodup.1]
      exact Function.update_self _ _ _
    -- The first visit goes to another replica, and `c` is visited as it was.
    | inr hmem =>
      have hne : c ≠ d := by
        intro heq
        rw [heq] at hmem
        exact hnodup.1 hmem
      have hother : (visit call s d).1 c = s.1 c := Function.update_of_ne hne _ _
      rw [ih hnodup.2 hmem, hother]

/-- The answers are and-ed. Each call is made on the replica as it was. -/
theorem foldl_visit_snd {cs : List (Fin n)} (hnodup : cs.Nodup) (s : (Fin n → σ) × Bool) :
    (cs.foldl (visit call) s).2 = true ↔
      s.2 = true ∧ ∀ c ∈ cs, (call c (s.1 c)).2 = true := by
  induction cs generalizing s with
  | nil => exact ⟨fun h => ⟨h, nofun⟩, And.left⟩
  | cons d cs ih =>
    rw [List.nodup_cons] at hnodup
    -- No replica is visited twice, so the later ones are still as they were.
    have hsame : ∀ c ∈ cs, (visit call s d).1 c = s.1 c := by
      intro c hc
      have hne : c ≠ d := by
        intro heq
        rw [heq] at hc
        exact hnodup.1 hc
      exact Function.update_of_ne hne _ _
    rw [List.foldl_cons, ih hnodup.2, List.forall_mem_cons, ← and_assoc]
    refine and_congr (Bool.and_eq_true_iff) (forall₂_congr fun c hc => ?_)
    rw [hsame c hc]

/-- Each replica is left as its own call leaves it, whatever the other
calls do. -/
theorem broadcast_apply (replicas : Fin n → σ) (c : Fin n) :
    (broadcast call replicas).1 c = (call c (replicas c)).1 :=
  foldl_visit_of_mem call (List.nodup_finRange n) (List.mem_finRange c) _

/-- The broadcast succeeds when every call does. -/
theorem broadcast_success_iff (replicas : Fin n → σ) :
    (broadcast call replicas).2 = true ↔ ∀ c, (call c (replicas c)).2 = true := by
  rw [broadcast, foldl_visit_snd call (List.nodup_finRange n)]
  exact ⟨fun h c => h.2 c (List.mem_finRange c), fun h => ⟨rfl, fun c _ => h c⟩⟩

/-- A broadcast fails when some call does. -/
theorem broadcast_failure_iff (replicas : Fin n → σ) :
    (broadcast call replicas).2 = false ↔ ∃ c, (call c (replicas c)).2 = false := by
  rw [← Bool.not_eq_true, broadcast_success_iff, Classical.not_forall]
  exact exists_congr fun c => by rw [Bool.not_eq_true]

end Revhv.Lib.Broadcast
