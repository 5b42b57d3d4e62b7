import Revhv.Lib.Machine
import Mathlib.Data.List.Range
import Mathlib.Data.List.Pairwise

/-!
# `Revhv.Lib.DropQueue`: a bounded queue that drops its oldest elements

A queue that holds at most `cap` elements. A push into a full queue
drops the oldest one. Every element carries the number of its push, and
`out` is all that has been popped so far.

* `DropQueue.Ordered`: the numbers in the queue are consecutive and end
  with that of the last push, and what has been popped comes in
  increasing order before them.
* `DropQueue.ordered_run`: it holds after every run.
* `DropQueue.run_pushes`: pushes only fill the queue and keep it full.
* `DropQueue.overwritten_of_missing`: a number that has neither been
  popped nor is in the queue was dropped by a push into a full queue,
  and after that push `cap` newer elements were in it.

Nothing here names a program.
-/

set_option autoImplicit false

namespace Revhv.Lib

variable {α : Type}

/-- The elements with the numbers of their pushes, oldest first, the
pushes so far, and what has been popped. -/
structure DropQueue (α : Type) where
  items : List (Nat × α)
  pushed : Nat
  out : List (Nat × α)

/-- An operation on the queue. -/
inductive DropQueueOp (α : Type) where
  | push (x : α)
  /-- The oldest `n` elements, or all if there are fewer. -/
  | pop (n : Nat)

namespace DropQueue

/-- No element, and no push yet. -/
def empty : DropQueue α := ⟨[], 0, []⟩

/-- A push, which drops what exceeds the capacity. -/
def push (cap : Nat) (q : DropQueue α) (x : α) : DropQueue α where
  items := (q.items ++ [(q.pushed, x)]).drop (q.items.length + 1 - cap)
  pushed := q.pushed + 1
  out := q.out

/-- What a push leaves in the queue: of one element too many, the oldest
goes. -/
theorem items_push (cap : Nat) (q : DropQueue α) (x : α) : (q.push cap x).items =
    (q.items ++ [(q.pushed, x)]).drop (q.items.length + 1 - cap) := rfl

/-- A push is counted, whether or not an element goes for it. -/
@[simp] theorem pushed_push (cap : Nat) (q : DropQueue α) (x : α) :
    (q.push cap x).pushed = q.pushed + 1 := rfl

/-- A push gives nothing out. -/
@[simp] theorem out_push (cap : Nat) (q : DropQueue α) (x : α) : (q.push cap x).out = q.out := rfl

/-- A pop. -/
def pop (q : DropQueue α) (n : Nat) : DropQueue α where
  items := q.items.drop n
  pushed := q.pushed
  out := q.out ++ q.items.take n

/-- A pop takes from the front. -/
theorem items_pop (q : DropQueue α) (n : Nat) : (q.pop n).items = q.items.drop n := rfl

/-- What a pop gives out comes behind what was given out before. -/
theorem out_pop (q : DropQueue α) (n : Nat) : (q.pop n).out = q.out ++ q.items.take n := rfl

/-- A pop is no push. -/
@[simp] theorem pushed_pop (q : DropQueue α) (n : Nat) : (q.pop n).pushed = q.pushed := rfl

/-- The queue as a machine. -/
def machine (cap : Nat) : Machine (DropQueue α) (DropQueueOp α) where
  next q
    | .push x => some (q.push cap x)
    | .pop n => some (q.pop n)

/-- The numbers of the elements. -/
def numbers (l : List (Nat × α)) : List Nat := l.map Prod.fst

/-- No elements, no numbers. -/
@[simp] theorem numbers_nil : numbers ([] : List (Nat × α)) = [] := rfl

/-- The numbers of a joined list are joined. -/
@[simp] theorem numbers_append (l l' : List (Nat × α)) :
    numbers (l ++ l') = numbers l ++ numbers l' := List.map_append

/-- Every element has one number. -/
@[simp] theorem length_numbers (l : List (Nat × α)) : (numbers l).length = l.length :=
  List.length_map _

/-- The numbers are in order, and those in the queue are the latest
ones. -/
structure Ordered (cap : Nat) (q : DropQueue α) : Prop where
  bounded : q.items.length ≤ cap
  le_pushed : q.items.length ≤ q.pushed
  consecutive : numbers q.items = List.range' (q.pushed - q.items.length) q.items.length
  increasing : (numbers q.out).Pairwise (· < ·)
  before : ∀ k ∈ numbers q.out, k < q.pushed - q.items.length

/-- The empty queue is in order: nothing has been pushed or popped. -/
theorem ordered_empty (cap : Nat) : Ordered cap (empty : DropQueue α) where
  bounded := Nat.zero_le _
  le_pushed := Nat.le_refl _
  consecutive := rfl
  increasing := List.Pairwise.nil
  before _ h := absurd h List.not_mem_nil

section
variable {cap : Nat} {q : DropQueue α}

/-- A push into a queue with room, or into a full one. -/
theorem length_push (h : Ordered cap q) (hcap : 0 < cap) (x : α) :
    (q.push cap x).items.length = min (q.items.length + 1) cap := by
  have hle := h.bounded
  show ((q.items ++ [(q.pushed, x)]).drop _).length = _
  simp only [List.length_drop, List.length_append, List.length_singleton]
  omega

/-- A push keeps the order. Its number is the next one, and the drop
takes the smallest of the numbers in the queue. -/
theorem Ordered.push (h : Ordered cap q) (hcap : 0 < cap) (x : α) : Ordered cap (q.push cap x) := by
  have hlength := length_push h hcap x
  have hle := h.bounded
  have hpushed := h.le_pushed
  have hnumber := pushed_push cap q x
  -- The old numbers and the new one are consecutive, and the drop takes the first of them.
  have hnumbers : numbers (q.items ++ [(q.pushed, x)]) =
      List.range' (q.pushed - q.items.length) (q.items.length + 1) := by
    rw [numbers_append, h.consecutive, List.range'_concat, Nat.one_mul]
    have hend : q.pushed - q.items.length + q.items.length = q.pushed := by omega
    rw [hend]
    rfl
  refine ⟨?_, ?_, ?_, h.increasing, ?_⟩
  · omega
  · omega
  · show numbers ((q.items ++ [(q.pushed, x)]).drop _) = _
    rw [hlength, hnumber]
    have hdrop : numbers ((q.items ++ [(q.pushed, x)]).drop (q.items.length + 1 - cap)) =
        (numbers (q.items ++ [(q.pushed, x)])).drop (q.items.length + 1 - cap) := List.map_drop
    rw [hdrop, hnumbers, List.drop_range', Nat.mul_one]
    congr 1
    · omega
    · omega
  · intro k hk
    have := h.before k hk
    omega

/-- A pop keeps the order. What goes out are the smallest numbers in the
queue, and they are larger than all that went out before. -/
theorem Ordered.pop (h : Ordered cap q) (n : Nat) : Ordered cap (q.pop n) := by
  have hle := h.bounded
  have hpushed := h.le_pushed
  have hlength : (q.pop n).items.length = q.items.length - n := List.length_drop ..
  have hnumber := pushed_pop q n
  -- The items carry consecutive numbers, so what is taken are the lowest of
  -- them.
  have htake : numbers (q.items.take n) =
      List.range' (q.pushed - q.items.length) (min n q.items.length) := by
    show (q.items.take n).map Prod.fst = _
    rw [List.map_take]
    show (numbers q.items).take n = _
    rw [h.consecutive]
    by_cases hn : n ≤ q.items.length
    · rw [List.take_range'_of_length_ge hn, Nat.min_eq_left hn]
    · rw [List.take_range'_of_length_le (by omega), Nat.min_eq_right (by omega)]
  refine ⟨?_, ?_, ?_, ?_, ?_⟩
  · omega
  · omega
  · show numbers (q.items.drop n) = _
    rw [hlength, hnumber]
    show (q.items.drop n).map Prod.fst = _
    rw [List.map_drop]
    show (numbers q.items).drop n = _
    rw [h.consecutive, List.drop_range', Nat.mul_one]
    by_cases hn : n ≤ q.items.length
    · congr 1
      omega
    · have hzero : q.items.length - n = 0 := by omega
      rw [hzero]
      rfl
  · show (numbers (q.out ++ q.items.take n)).Pairwise (· < ·)
    rw [numbers_append, htake, List.pairwise_append]
    refine ⟨h.increasing, List.pairwise_lt_range', fun a ha b hb => ?_⟩
    have := h.before a ha
    have := (List.mem_range'_1.mp hb).1
    omega
  · intro k hk
    have hk' : k ∈ numbers q.out ++ numbers (q.items.take n) := by
      rw [← numbers_append]
      exact hk
    rw [hlength, hnumber]
    rcases List.mem_append.mp hk' with hold | hnew
    · have := h.before k hold
      omega
    · rw [htake] at hnew
      have := (List.mem_range'_1.mp hnew).2
      omega

/-- One operation. -/
theorem ordered_next (hcap : 0 < cap) {op : DropQueueOp α} {q' : DropQueue α} (h : Ordered cap q)
    (hnext : (machine cap).next q op = some q') : Ordered cap q' := by
  cases op with
  | push x =>
    cases hnext
    exact h.push hcap x
  | pop n =>
    cases hnext
    exact h.pop n

/-- Every run from the empty queue. -/
theorem ordered_run (hcap : 0 < cap) {ops : List (DropQueueOp α)}
    (hrun : (machine cap).run empty ops = some q) : Ordered cap q :=
  (machine cap).invariant_of_run (fun _ _ _ hI hnext => ordered_next hcap hI hnext)
    (ordered_empty cap) hrun

/-- A run of pushes only, whatever they push. -/
theorem run_pushes (hcap : 0 < cap) (h : Ordered cap q) (xs : List α) :
    ∃ q', (machine cap).run q (xs.map .push) = some q' ∧ Ordered cap q' ∧
      q'.pushed = q.pushed + xs.length ∧ q'.out = q.out ∧
      q'.items.length = min (q.items.length + xs.length) cap := by
  induction xs generalizing q with
  | nil => exact ⟨q, rfl, h, rfl, rfl, (Nat.min_eq_left h.bounded).symm⟩
  | cons x xs ih =>
    -- The counts after all pushes are those after the first, extended.
    obtain ⟨q', hrun, h', hpushed, hout, hlength⟩ := ih (h.push hcap x)
    have hfirst := length_push h hcap x
    refine ⟨q', hrun, h', ?_, hout, ?_⟩
    · rw [hpushed, pushed_push, List.length_cons]
      omega
    · rw [hlength, hfirst, List.length_cons]
      omega

/-- Number `k` was dropped by a push into a full queue, and after it the
queue was full of newer elements. -/
def Overwritten (cap : Nat) (start : DropQueue α) (ops : List (DropQueueOp α)) (k : Nat) : Prop :=
  ∃ ops₁ x ops₂ q₁, ops = ops₁ ++ .push x :: ops₂ ∧ (machine cap).run start ops₁ = some q₁ ∧
    k ∈ numbers q₁.items ∧ (q₁.push cap x).items.length = cap ∧
      ∀ j ∈ numbers (q₁.push cap x).items, k < j

/-- One more operation at the front. -/
theorem Overwritten.cons {op : DropQueueOp α} {ops : List (DropQueueOp α)} {q' : DropQueue α}
    {k : Nat} (hnext : (machine cap).next q op = some q') (h : Overwritten cap q' ops k) :
    Overwritten cap q (op :: ops) k := by
  obtain ⟨ops₁, x, ops₂, q₁, rfl, hrun, hrest⟩ := h
  refine ⟨op :: ops₁, x, ops₂, q₁, rfl, ?_, hrest⟩
  rw [Machine.run_cons, hnext, Option.bind_some, hrun]

/-- An element leaves the queue by a pop or because it is overwritten. -/
theorem missing_next (hcap : 0 < cap) {op : DropQueueOp α} {q' : DropQueue α} {k : Nat}
    (h : Ordered cap q) (hnext : (machine cap).next q op = some q') (hk : k ∈ numbers q.items) :
    k ∈ numbers q'.out ∨ k ∈ numbers q'.items ∨ Overwritten cap q [op] k := by
  cases op with
  | pop n =>
    cases hnext
    have hsplit : numbers q.items = numbers (q.items.take n) ++ numbers (q.items.drop n) := by
      rw [← numbers_append, List.take_append_drop]
    rw [hsplit] at hk
    -- A pop takes `k` out or leaves it in.
    rcases List.mem_append.mp hk with htaken | hkept
    · left
      show k ∈ numbers (q.out ++ q.items.take n)
      rw [numbers_append]
      exact List.mem_append_right _ htaken
    · exact Or.inr (Or.inl hkept)
  | push x =>
    cases hnext
    have hnew := h.push hcap x
    have hlength := length_push h hcap x
    have hle := h.bounded
    have hpushed := h.le_pushed
    have hnumber := pushed_push cap q x
    right
    -- A push that finds no room drops the oldest item, here `k`.
    by_cases hin : k ∈ numbers (q.push cap x).items
    · exact Or.inl hin
    · right
      rw [h.consecutive, List.mem_range'_1] at hk
      rw [hnew.consecutive, List.mem_range'_1, hnumber] at hin
      refine ⟨[], x, [], q, rfl, rfl, ?_, ?_, fun j hj => ?_⟩
      · rw [h.consecutive, List.mem_range'_1]
        exact hk
      · omega
      · rw [hnew.consecutive, List.mem_range'_1, hnumber] at hj
        omega

/-- A number that is in the queue is later popped, still there or
overwritten. -/
theorem missing_run (hcap : 0 < cap) {ops : List (DropQueueOp α)} {q' : DropQueue α} {k : Nat}
    (h : Ordered cap q) (hrun : (machine cap).run q ops = some q')
    (hk : k ∈ numbers q.out ∨ k ∈ numbers q.items) :
    k ∈ numbers q'.out ∨ k ∈ numbers q'.items ∨ Overwritten cap q ops k := by
  induction ops generalizing q with
  | nil =>
    cases hrun
    exact hk.imp_right Or.inl
  | cons op ops ih =>
    obtain ⟨q₁, hnext, hrest⟩ := (machine cap).run_cons_eq_some hrun
    have h₁ := ordered_next hcap h hnext
    have hkept : k ∈ numbers q₁.out ∨ k ∈ numbers q₁.items ∨ Overwritten cap q [op] k := by
      rcases hk with hout | hin
      · left
        cases op with
        | push x =>
          cases hnext
          exact hout
        | pop n =>
          cases hnext
          show k ∈ numbers (q.out ++ q.items.take n)
          rw [numbers_append]
          exact List.mem_append_left _ hout
      · exact missing_next hcap h hnext hin
    rcases hkept with hout | hin | hover
    · exact (ih h₁ hrest (Or.inl hout)).imp_right fun h => h.imp_right fun h => h.cons hnext
    · exact (ih h₁ hrest (Or.inr hin)).imp_right fun h => h.imp_right fun h => h.cons hnext
    · obtain ⟨ops₁, x, ops₂, q₂, heq, hrest'⟩ := hover
      -- The overwriting push is the first operation.
      have hone : ops₁ = [] ∧ ops₂ = [] ∧ op = .push x := by
        cases ops₁ with
        | nil =>
          simp only [List.nil_append, List.cons.injEq] at heq
          exact ⟨rfl, heq.2.symm, heq.1⟩
        | cons op' ops₁ => simp at heq
      obtain ⟨rfl, rfl, rfl⟩ := hone
      exact Or.inr (Or.inr ⟨[], x, ops, q₂, rfl, hrest'⟩)

/-- What a run has pushed and neither popped nor kept was overwritten. -/
theorem overwritten_of_missing (hcap : 0 < cap) {ops : List (DropQueueOp α)} {q' : DropQueue α}
    {k : Nat} (h : Ordered cap q) (hrun : (machine cap).run q ops = some q')
    (hfirst : q.pushed ≤ k) (hlast : k < q'.pushed) (hout : k ∉ numbers q'.out)
    (hitems : k ∉ numbers q'.items) : Overwritten cap q ops k := by
  induction ops generalizing q with
  | nil =>
    cases hrun
    omega
  | cons op ops ih =>
    obtain ⟨q₁, hnext, hrest⟩ := (machine cap).run_cons_eq_some hrun
    have h₁ := ordered_next hcap h hnext
    cases op with
    | pop n =>
      cases hnext
      exact (ih h₁ hrest hfirst).cons rfl
    | push x =>
      cases hnext
      -- The push that brings `k`: from here on it is queued, and must be
      -- overwritten later.
      by_cases hk : k = q.pushed
      · have hlength := length_push h hcap x
        have hpushed := h.le_pushed
        have hin : k ∈ numbers (q.push cap x).items := by
          rw [h₁.consecutive, List.mem_range'_1]
          have hnumber := pushed_push cap q x
          omega
        rcases missing_run hcap h₁ hrest (Or.inr hin) with hno | hno | hover
        · exact absurd hno hout
        · exact absurd hno hitems
        · exact hover.cons rfl
      · exact (ih h₁ hrest (by show q.pushed + 1 ≤ k; omega)).cons rfl

end

end DropQueue

end Revhv.Lib
