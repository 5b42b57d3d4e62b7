import Mathlib.Data.Nat.ModEq
import Mathlib.Data.List.Basic

/-!
# `Revhv.Lib.Ring`: positions and contents of a circular buffer

A circular buffer of `n` slots is a function `slots` read at positions
below `n`. `segment slots n t k` is the list of the `k` elements from
position `t` on, with wrap-around.

* `add_mod_inj`: two offsets below `n` from one position reach two
  different slots. Every "does not overwrite" fact below comes from it.
* `add_mod_eq_self_iff` / `succ_mod_eq_iff`: the empty test `head = tail`
  and the full test `next head = tail` of a buffer that keeps one slot
  free.
* `segment_succ`, `segment_cons`, `segment_append`: the contents grow at
  the head, shrink at the tail, and split at any offset.
* `segment_update`: a store behind the last element leaves the contents
  as they are.
* `segment_push`, `segment_overwrite`: a push with room for it, and one
  that takes the place of the oldest element.
-/

set_option autoImplicit false

namespace Revhv.Lib.Ring

variable {α : Type}

/-- Two offsets below `n` from the same position that reach one slot are
equal. -/
theorem add_mod_inj {n t i j : Nat} (hi : i < n) (hj : j < n)
    (h : (t + i) % n = (t + j) % n) : i = j := by
  have hmod : i ≡ j [MOD n] := Nat.ModEq.add_left_cancel' t h
  have hij : i % n = j % n := hmod
  rwa [Nat.mod_eq_of_lt hi, Nat.mod_eq_of_lt hj] at hij

/-- Two positions less than `n` apart that share a slot are equal. -/
theorem eq_of_mod_eq {n a b : Nat} (hab : a ≤ b) (hlt : b < a + n)
    (h : a % n = b % n) : a = b := by
  have hb : b = a + (b - a) := by omega
  have hz : (a + 0) % n = (a + (b - a)) % n := by rw [← hb, Nat.add_zero]; exact h
  have := add_mod_inj (by omega) (by omega) hz
  omega

/-- A buffer with `k < n` elements is empty exactly when head and tail
meet. -/
theorem add_mod_eq_self_iff {n t k : Nat} (hk : k < n) :
    (t + k) % n = t % n ↔ k = 0 := by
  constructor
  · intro h
    exact add_mod_inj (j := 0) hk (by omega) (by rwa [Nat.add_zero])
  · rintro rfl
    rw [Nat.add_zero]

/-- A buffer with `k < n` elements holds `n - 1` of them exactly when
the slot after the head is the tail. -/
theorem succ_mod_eq_iff {n t k : Nat} (hk : k < n) :
    (t + k + 1) % n = t % n ↔ k + 1 = n := by
  constructor
  · intro h
    by_contra hne
    have hz : (t + (k + 1)) % n = (t + 0) % n := by
      rw [Nat.add_zero, ← Nat.add_assoc]
      exact h
    have := add_mod_inj (show k + 1 < n by omega) (show 0 < n by omega) hz
    omega
  · intro h
    rw [Nat.add_assoc, h, Nat.add_mod_right]

/-- The `k` elements from position `t` on. -/
def segment (slots : Nat → α) (n t k : Nat) : List α :=
  (List.range k).map fun i => slots ((t + i) % n)

/-- A segment of no slots is empty. -/
@[simp] theorem segment_zero (slots : Nat → α) (n t : Nat) : segment slots n t 0 = [] := rfl

/-- A segment has as many elements as it has slots. -/
@[simp] theorem segment_length (slots : Nat → α) (n t k : Nat) :
    (segment slots n t k).length = k := by
  simp [segment]

/-- The elements of a segment by their offset. -/
theorem segment_getElem? (slots : Nat → α) (n t : Nat) {k i : Nat} (h : i < k) :
    (segment slots n t k)[i]? = some (slots ((t + i) % n)) := by
  simp [segment, h]

/-- One more element at the head. -/
theorem segment_succ (slots : Nat → α) (n t k : Nat) :
    segment slots n t (k + 1) = segment slots n t k ++ [slots ((t + k) % n)] := by
  simp [segment, List.range_succ]

/-- A segment depends on its start only up to the wrap. -/
theorem segment_mod (slots : Nat → α) (n t k : Nat) :
    segment slots n (t % n) k = segment slots n t k := by
  unfold segment
  refine List.map_congr_left fun i _ => ?_
  rw [Nat.mod_add_mod]

/-- A segment splits at every offset. -/
theorem segment_append (slots : Nat → α) (n t a b : Nat) :
    segment slots n t (a + b) = segment slots n t a ++ segment slots n (t + a) b := by
  induction b with
  | zero => simp
  | succ b ih =>
      rw [← Nat.add_assoc, segment_succ, ih, segment_succ, List.append_assoc, Nat.add_assoc]

/-- The first element and the rest. -/
theorem segment_cons (slots : Nat → α) (n t k : Nat) :
    segment slots n t (k + 1) = slots (t % n) :: segment slots n (t + 1) k := by
  rw [Nat.add_comm k 1, segment_append]
  rfl

/-- Two slot functions that agree on the segment's positions give one
segment. -/
theorem segment_congr {slots slots' : Nat → α} {n t k : Nat}
    (h : ∀ i < k, slots ((t + i) % n) = slots' ((t + i) % n)) :
    segment slots n t k = segment slots' n t k :=
  List.map_congr_left fun i hi => h i (List.mem_range.mp hi)

/-- A store at the slot behind the last of `k < n` elements changes none
of them. -/
theorem segment_update (slots : Nat → α) {n t k : Nat} (hk : k < n) (x : α) :
    segment (Function.update slots ((t + k) % n) x) n t k = segment slots n t k := by
  refine segment_congr fun i hi => Function.update_of_ne ?_ _ _
  intro h
  have := add_mod_inj (by omega) hk h
  omega

/-- The first `a` elements of a segment. -/
theorem take_segment (slots : Nat → α) (n t : Nat) {a k : Nat} (h : a ≤ k) :
    (segment slots n t k).take a = segment slots n t a := by
  obtain ⟨b, rfl⟩ := Nat.exists_eq_add_of_le h
  rw [segment_append, List.take_left' (segment_length ..)]

/-- A segment without its first `a` elements. -/
theorem drop_segment (slots : Nat → α) (n t : Nat) {a k : Nat} (h : a ≤ k) :
    (segment slots n t k).drop a = segment slots n (t + a) (k - a) := by
  obtain ⟨b, rfl⟩ := Nat.exists_eq_add_of_le h
  rw [segment_append, List.drop_left' (segment_length ..), Nat.add_sub_cancel_left]

/-- A push into a buffer with room. -/
theorem segment_push (slots : Nat → α) {n t k : Nat} (hk : k < n) (x : α) :
    segment (Function.update slots ((t + k) % n) x) n t (k + 1) = segment slots n t k ++ [x] := by
  rw [segment_succ, segment_update slots hk, Function.update_self]

/-- A push into a full buffer takes the place of the oldest element. -/
theorem segment_overwrite (slots : Nat → α) {n : Nat} (hn : 0 < n) (t : Nat) (x : α) :
    segment (Function.update slots (t % n) x) n (t + 1) n = (segment slots n t n).drop 1 ++ [x] := by
  obtain ⟨k, rfl⟩ := Nat.exists_eq_succ_of_ne_zero (Nat.pos_iff_ne_zero.mp hn)
  have hlast : (t + 1 + k) % (k + 1) = t % (k + 1) := by
    rw [Nat.add_assoc, Nat.add_comm 1 k, Nat.add_mod_right]
  rw [← hlast, drop_segment _ _ _ (Nat.succ_le_succ (Nat.zero_le k)), Nat.succ_sub_one]
  exact segment_push slots (Nat.lt_succ_self k) x

end Revhv.Lib.Ring
