import Mathlib.Data.List.Basic

/-!
# `Revhv.Lib.Loop`: bounded loops with an early exit

A `for` loop over a list of indices whose body may leave the loop is
`List.foldlM` in `Except`: `.ok` goes on with the next index, `.error`
leaves with the state it carries.

* `Loop.rule` is the invariant rule. The invariant may speak of the
  indices already done, so it can say what the loop has computed so
  far. An exit has to meet the exit condition.
* `Loop.rule_ok` is its form for a body that never leaves.
* `Loop.rel_ok` and `Loop.rel_foldl` run two loops over the same
  indices side by side.
-/

set_option autoImplicit false

namespace Revhv.Lib.Loop

variable {α σ τ ε δ : Type}

/-- The state a loop ends in, whichever way it was left. -/
def exit : Except σ σ → σ
  | .ok s => s
  | .error s => s

/-- A loop that ran to its end leaves the last state. -/
@[simp] theorem exit_ok (s : σ) : exit (.ok s) = s := rfl

/-- A round that succeeds hands its state to the rest of the loop. -/
theorem foldlM_cons_ok {body : σ → α → Except ε σ} {s s' : σ} {x : α} {xs : List α}
    (h : body s x = .ok s') : (x :: xs).foldlM body s = xs.foldlM body s' := by
  rw [List.foldlM_cons, h]
  rfl

/-- A round that fails ends the loop with its error. -/
theorem foldlM_cons_error {body : σ → α → Except ε σ} {s : σ} {e : ε} {x : α} {xs : List α}
    (h : body s x = .error e) : (x :: xs).foldlM body s = .error e := by
  rw [List.foldlM_cons, h]
  rfl

/-- The rule at a general position of the loop, `done` being the indices
behind it. -/
private theorem rule_from {body : σ → α → Except ε σ} {I : List α → σ → Prop} {E : ε → Prop}
    {xs : List α}
    (hstep : ∀ done x rest s, xs = done ++ x :: rest → I done s →
      (∃ s', body s x = .ok s' ∧ I (done ++ [x]) s') ∨ ∃ e, body s x = .error e ∧ E e)
    (rest : List α) {done : List α} {s : σ} (hxs : xs = done ++ rest) (hI : I done s) :
    (∃ s', rest.foldlM body s = .ok s' ∧ I xs s') ∨ ∃ e, rest.foldlM body s = .error e ∧ E e := by
  -- By induction over what is left of the list, `done` growing by one element
  -- each time.
  induction rest generalizing done s with
  | nil =>
    rw [List.append_nil] at hxs
    exact Or.inl ⟨s, rfl, hxs ▸ hI⟩
  | cons x rest ih =>
    cases hstep done x rest s hxs hI with
    | inl hok =>
      obtain ⟨s', hbody, hI'⟩ := hok
      rw [foldlM_cons_ok hbody]
      exact ih (by rw [hxs, List.append_assoc, List.singleton_append]) hI'
    | inr herr =>
      obtain ⟨e, hbody, hE⟩ := herr
      rw [foldlM_cons_error hbody]
      exact Or.inr ⟨e, rfl, hE⟩

/-- The invariant rule. When the body either keeps `I` or leaves with
`E`, the loop either reaches its end with `I` for all indices or leaves
with `E`. -/
theorem rule {body : σ → α → Except ε σ} (I : List α → σ → Prop) (E : ε → Prop) {xs : List α}
    {s : σ} (h0 : I [] s)
    (hstep : ∀ done x rest s, xs = done ++ x :: rest → I done s →
      (∃ s', body s x = .ok s' ∧ I (done ++ [x]) s') ∨ ∃ e, body s x = .error e ∧ E e) :
    (∃ s', xs.foldlM body s = .ok s' ∧ I xs s') ∨ ∃ e, xs.foldlM body s = .error e ∧ E e :=
  rule_from hstep xs rfl h0

/-- The invariant rule for a body that never leaves the loop. -/
theorem rule_ok {body : σ → α → Except ε σ} (I : List α → σ → Prop) {xs : List α} {s : σ}
    (h0 : I [] s)
    (hstep : ∀ done x rest s, xs = done ++ x :: rest → I done s →
      ∃ s', body s x = .ok s' ∧ I (done ++ [x]) s') :
    ∃ s', xs.foldlM body s = .ok s' ∧ I xs s' := by
  cases rule I (fun _ => False) h0 fun done x rest s hxs hI =>
      Or.inl (hstep done x rest s hxs hI) with
  | inl hok => exact hok
  | inr herr =>
    obtain ⟨_, _, hfalse⟩ := herr
    exact hfalse.elim

/-- The rule for two loops at a general position. -/
private theorem rel_from {body : σ → α → Except ε σ} {body' : τ → α → Except δ τ}
    {R : List α → σ → τ → Prop} {xs : List α}
    (hstep : ∀ done x rest s t, xs = done ++ x :: rest → R done s t →
      ∃ s' t', body s x = .ok s' ∧ body' t x = .ok t' ∧ R (done ++ [x]) s' t')
    (rest : List α) {done : List α} {s : σ} {t : τ} (hxs : xs = done ++ rest) (hR : R done s t) :
    ∃ s' t', rest.foldlM body s = .ok s' ∧ rest.foldlM body' t = .ok t' ∧ R xs s' t' := by
  -- As above, for two loops in step.
  induction rest generalizing done s t with
  | nil =>
    rw [List.append_nil] at hxs
    exact ⟨s, t, rfl, rfl, hxs ▸ hR⟩
  | cons x rest ih =>
    obtain ⟨s', t', hs, ht, hR'⟩ := hstep done x rest s t hxs hR
    rw [foldlM_cons_ok hs, foldlM_cons_ok ht]
    exact ih (by rw [hxs, List.append_assoc, List.singleton_append]) hR'

/-- Two loops over the same indices, neither of which leaves, end in
related states when their bodies keep the relation. -/
theorem rel_ok {body : σ → α → Except ε σ} {body' : τ → α → Except δ τ}
    (R : List α → σ → τ → Prop) {xs : List α} {s : σ} {t : τ} (h0 : R [] s t)
    (hstep : ∀ done x rest s t, xs = done ++ x :: rest → R done s t →
      ∃ s' t', body s x = .ok s' ∧ body' t x = .ok t' ∧ R (done ++ [x]) s' t') :
    ∃ s' t', xs.foldlM body s = .ok s' ∧ xs.foldlM body' t = .ok t' ∧ R xs s' t' :=
  rel_from hstep xs rfl h0

/-- The same for loops without an exit. -/
theorem rel_foldl {body : σ → α → σ} {body' : τ → α → τ} {R : σ → τ → Prop}
    (hstep : ∀ x s t, R s t → R (body s x) (body' t x)) (xs : List α) {s : σ} {t : τ}
    (h0 : R s t) : R (xs.foldl body s) (xs.foldl body' t) := by
  induction xs generalizing s t with
  | nil => exact h0
  | cons x xs ih => exact ih (hstep x s t h0)

end Revhv.Lib.Loop
