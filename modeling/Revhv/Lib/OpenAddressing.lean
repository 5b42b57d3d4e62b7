import Mathlib.Algebra.GroupWithZero.Nat
import Mathlib.Logic.Function.Basic
import Mathlib.Data.Fin.Basic

/-!
# `Revhv.Lib.OpenAddressing`: linear probing without deletion

A hash table of `n` slots in which a reserved key marks the empty slot.
The probe of a key starts at its hash and goes from slot to slot, with
wrap-around, until it meets the key or an empty slot.

* `firstFrom`: the first index at which a test holds, with the
  characterisation of its result.
* `Scheme.place`: where a probe stops. `Scheme.find` looks there.
* `Scheme.WellPlaced`: every stored key is found at its own slot. It is
  the invariant of the table.
* `Scheme.wellPlaced_update` / `Scheme.find_update`: a store at the slot
  of `place` keeps the invariant and makes `find` the updated map.

Slots, keys and hash function are parameters.
-/

set_option autoImplicit false

namespace Revhv.Lib.OpenAddressing

/-- The first of the `fuel` indices from `i` on at which `p` holds. -/
def firstFrom (p : Nat → Bool) : (fuel i : Nat) → Option Nat
  | 0, _ => none
  | fuel + 1, i => if p i then some i else firstFrom p fuel (i + 1)

/-- A search that finds nothing has looked everywhere. By induction on
the fuel. -/
theorem firstFrom_eq_none {p : Nat → Bool} {fuel i l : Nat} (h : firstFrom p fuel i = none)
    (hle : i ≤ l) (hlt : l < i + fuel) : p l = false := by
  induction fuel generalizing i with
  | zero => omega
  | succ fuel ih =>
    rw [firstFrom] at h
    split at h
    · cases h
    · rename_i hp
      rcases Nat.eq_or_lt_of_le hle with rfl | hgt
      · exact Bool.eq_false_iff.mpr hp
      · exact ih h hgt (by omega)

/-- A search finds the first place with the property. -/
theorem firstFrom_eq_some_iff {p : Nat → Bool} {fuel i j : Nat} :
    firstFrom p fuel i = some j ↔
      i ≤ j ∧ j < i + fuel ∧ p j = true ∧ ∀ l, i ≤ l → l < j → p l = false := by
  induction fuel generalizing i with
  | zero =>
    simp only [firstFrom, reduceCtorEq, false_iff]
    omega
  | succ fuel ih =>
    unfold firstFrom
    -- The first candidate, or the search that starts behind it.
    by_cases hp : p i = true
    · rw [if_pos hp, Option.some.injEq]
      constructor
      · rintro rfl
        exact ⟨Nat.le_refl _, by omega, hp, fun l hl hlt => by omega⟩
      · rintro ⟨hle, -, -, hbefore⟩
        by_contra hne
        exact absurd hp (by simp [hbefore i (Nat.le_refl _) (by omega)])
    · rw [if_neg hp, ih]
      constructor
      · rintro ⟨hle, hlt, hj, hbefore⟩
        refine ⟨by omega, by omega, hj, fun l hl hlt' => ?_⟩
        rcases Nat.eq_or_lt_of_le hl with rfl | hgt
        · simpa using hp
        · exact hbefore l hgt hlt'
      · rintro ⟨hle, hlt, hj, hbefore⟩
        have hne : i ≠ j := by
          rintro rfl
          exact hp hj
        exact ⟨by omega, by omega, hj, fun l hl hlt' => hbefore l (by omega) hlt'⟩

/-- How a table reads the key of a slot, hashes a key, and marks an
empty slot. -/
structure Scheme (σ κ : Type) where
  key : σ → κ
  hash : κ → Nat
  empty : κ

namespace Scheme

variable {σ κ : Type} [DecidableEq κ] {n : Nat} [NeZero n] (T : Scheme σ κ)

/-- The slot that the probe of `k` visits in round `j`. -/
def probeSlot (n : Nat) [NeZero n] (k : κ) (j : Nat) : Fin n := Fin.ofNat n (T.hash k + j)

/-- The probe of `k` stops at slot `p`: it is the key's own, or empty. -/
def Stops (slots : Fin n → σ) (k : κ) (p : Fin n) : Prop :=
  T.key (slots p) = k ∨ T.key (slots p) = T.empty

/-- A probe stops by a look at one slot. -/
instance (slots : Fin n → σ) (k : κ) (p : Fin n) : Decidable (T.Stops slots k p) :=
  inferInstanceAs (Decidable (_ ∨ _))

/-- The slot at which the probe of `k` stops. -/
def place (slots : Fin n → σ) (k : κ) : Option (Fin n) :=
  (firstFrom (fun j => decide (T.Stops slots k (T.probeSlot n k j))) n 0).map (T.probeSlot n k)

/-- What the table holds for `k`. -/
def find (slots : Fin n → σ) (k : κ) : Option σ :=
  (T.place slots k).bind fun p => if T.key (slots p) = k then some (slots p) else none

/-- Every stored key is found at its own slot. -/
def WellPlaced (slots : Fin n → σ) : Prop :=
  ∀ p, T.key (slots p) ≠ T.empty → T.place slots (T.key (slots p)) = some p

variable {T} {slots : Fin n → σ} {k k' : κ} {p q : Fin n} {x : σ}

/-- A key is placed at the first slot of its probe sequence where the
probe stops. -/
theorem place_eq_some_iff : T.place slots k = some p ↔
    ∃ j < n, T.probeSlot n k j = p ∧ T.Stops slots k p ∧
      ∀ i < j, ¬ T.Stops slots k (T.probeSlot n k i) := by
  rw [place, Option.map_eq_some_iff]
  constructor
  · rintro ⟨j, hj, rfl⟩
    obtain ⟨-, hlt, hstop, hbefore⟩ := firstFrom_eq_some_iff.mp hj
    exact ⟨j, by omega, rfl, of_decide_eq_true hstop,
      fun i hi => of_decide_eq_false (hbefore i (Nat.zero_le _) hi)⟩
  · rintro ⟨j, hlt, rfl, hstop, hbefore⟩
    exact ⟨j, firstFrom_eq_some_iff.mpr ⟨Nat.zero_le _, by omega, decide_eq_true hstop,
      fun i _ hi => decide_eq_false (hbefore i hi)⟩, rfl⟩

/-- The probe does stop where `place` says. -/
theorem stops_of_place (h : T.place slots k = some p) : T.Stops slots k p := by
  obtain ⟨j, -, -, hstop, -⟩ := place_eq_some_iff.mp h
  exact hstop

omit [DecidableEq κ] in
/-- Every slot is on the probe of every key. -/
theorem exists_probeSlot (k : κ) (p : Fin n) : ∃ j < n, T.probeSlot n k j = p := by
  have hpos : 0 < n := Nat.pos_of_ne_zero (NeZero.ne n)
  have hp := p.isLt
  have hr := Nat.mod_lt (T.hash k) hpos
  refine ⟨(p + (n - T.hash k % n)) % n, Nat.mod_lt _ hpos, Fin.ext ?_⟩
  show (T.hash k + (p + (n - T.hash k % n)) % n) % n = p
  rw [Nat.add_mod_mod, ← Nat.mod_add_mod]
  have hsum : T.hash k % n + (p + (n - T.hash k % n)) = p + n := by omega
  rw [hsum, Nat.add_mod_right, Nat.mod_eq_of_lt hp]

/-- A probe stops if some slot is the key's own or empty. -/
theorem exists_place_iff : (∃ p, T.place slots k = some p) ↔ ∃ p, T.Stops slots k p := by
  constructor
  · rintro ⟨p, hplace⟩
    exact ⟨p, stops_of_place hplace⟩
  · rintro ⟨p, hstop⟩
    obtain ⟨j, hj, rfl⟩ := T.exists_probeSlot k p
    cases hfirst : firstFrom (fun i => decide (T.Stops slots k (T.probeSlot n k i))) n 0 with
    | none =>
      have hnever := firstFrom_eq_none hfirst (Nat.zero_le j) (by omega)
      exact absurd hstop (of_decide_eq_false hnever)
    | some i => exact ⟨T.probeSlot n k i, by rw [place, hfirst, Option.map_some]⟩

/-- No key is stored twice. -/
theorem key_injective (hwp : T.WellPlaced slots) (hp : T.key (slots p) ≠ T.empty)
    (h : T.key (slots p) = T.key (slots q)) : p = q := by
  have hplace := hwp p hp
  rw [h] at hplace hp
  exact Option.some.inj (hplace.symm.trans (hwp q hp))

/-- A probe reads only keys. -/
theorem place_congr {slots' : Fin n → σ} (h : ∀ p, T.key (slots' p) = T.key (slots p)) (k : κ) :
    T.place slots' k = T.place slots k := by
  refine congrArg (fun f => (firstFrom f n 0).map (T.probeSlot n k)) (funext fun j => ?_)
  rw [decide_eq_decide, Stops, Stops, h]

/-- A well-placed table holds for a key what some slot holds under it. -/
theorem find_eq_some_iff (hwp : T.WellPlaced slots) (hk : k ≠ T.empty) :
    T.find slots k = some x ↔ ∃ p, slots p = x ∧ T.key x = k := by
  constructor
  · intro h
    obtain ⟨p, -, hp⟩ := Option.bind_eq_some_iff.mp h
    rw [Option.ite_none_right_eq_some, Option.some.injEq] at hp
    obtain ⟨hkey, rfl⟩ := hp
    exact ⟨p, rfl, hkey⟩
  · rintro ⟨p, rfl, rfl⟩
    rw [find, hwp p hk, Option.bind_some, if_pos rfl]

/-- A store of key `k` at its place keeps the table well placed. The
probe of another stored key passes the slot before and after, or never
visits it. -/
theorem wellPlaced_update (hwp : T.WellPlaced slots) (hk : k ≠ T.empty) (hx : T.key x = k)
    (hplace : T.place slots k = some p) : T.WellPlaced (Function.update slots p x) := by
  intro q hq
  -- The new entry: the probe for its key stops at its slot and not before.
  by_cases hqp : q = p
  · subst hqp
    obtain ⟨j, hlt, hj, hstop, hbefore⟩ := place_eq_some_iff.mp hplace
    rw [Function.update_self, hx]
    refine place_eq_some_iff.mpr ⟨j, hlt, hj, Or.inl (by rw [Function.update_self, hx]),
      fun i hi => ?_⟩
    have hne : T.probeSlot n k i ≠ q := fun heq => hbefore i hi (heq ▸ hstop)
    rw [Stops, Function.update_of_ne hne]
    exact hbefore i hi
  · rw [Function.update_of_ne hqp] at hq ⊢
    have hown := hwp q hq
    obtain ⟨j, hlt, hj, hstop, hbefore⟩ := place_eq_some_iff.mp hown
    refine place_eq_some_iff.mpr ⟨j, hlt, hj, Or.inl (by rw [Function.update_of_ne hqp]),
      fun i hi => ?_⟩
    -- The slot now holds `k`: the probe for another key goes on behind it.
    by_cases hip : T.probeSlot n (T.key (slots q)) i = p
    · rw [Stops, hip, Function.update_self, hx, not_or]
      refine ⟨fun hkq => hqp ?_, hk⟩
      rw [← hkq, hplace] at hown
      exact (Option.some.inj hown).symm
    · rw [Stops, Function.update_of_ne hip]
      exact hbefore i hi

/-- After a store of key `k` at its place, the table is the updated map. -/
theorem find_update (hwp : T.WellPlaced slots) (hk : k ≠ T.empty) (hx : T.key x = k)
    (hplace : T.place slots k = some p) (hk' : k' ≠ T.empty) :
    T.find (Function.update slots p x) k' = if k' = k then some x else T.find slots k' := by
  have hwp' := wellPlaced_update hwp hk hx hplace
  split
  · rename_i heq
    subst heq
    exact (find_eq_some_iff hwp' hk).mpr ⟨p, Function.update_self .., hx⟩
  · rename_i hne
    refine Option.ext fun y => ?_
    rw [find_eq_some_iff hwp' hk', find_eq_some_iff hwp hk']
    -- Neither the old nor the new content of `p` has key `k'`.
    have hold : T.key (slots p) ≠ k' := by
      rcases stops_of_place hplace with hkey | hempty
      · rw [hkey]
        exact Ne.symm hne
      · rw [hempty]
        exact Ne.symm hk'
    constructor
    · rintro ⟨q, hq, hy⟩
      have hqp : q ≠ p := by
        rintro rfl
        rw [Function.update_self] at hq
        exact hne (hy.symm.trans (hq ▸ hx))
      exact ⟨q, by rwa [Function.update_of_ne hqp] at hq, hy⟩
    · rintro ⟨q, hq, hy⟩
      have hqp : q ≠ p := by
        rintro rfl
        exact hold (hq ▸ hy)
      exact ⟨q, by rwa [Function.update_of_ne hqp], hy⟩

/-- A store that changes no key keeps the table well placed. -/
theorem wellPlaced_update_of_key (hwp : T.WellPlaced slots) (hx : T.key x = T.key (slots p)) :
    T.WellPlaced (Function.update slots p x) := by
  have hkeys : ∀ q, T.key (Function.update slots p x q) = T.key (slots q) := by
    intro q
    by_cases hqp : q = p
    · subst hqp
      rw [Function.update_self, hx]
    · rw [Function.update_of_ne hqp]
  intro q hq
  rw [hkeys] at hq ⊢
  rw [place_congr hkeys]
  exact hwp q hq

/-- A store into an empty slot under the reserved key changes no
content. -/
theorem find_update_empty (hwp : T.WellPlaced slots) (hx : T.key x = T.empty)
    (hp : T.key (slots p) = T.empty) (hk : k ≠ T.empty) :
    T.find (Function.update slots p x) k = T.find slots k := by
  have hwp' := wellPlaced_update_of_key hwp (hx.trans hp.symm)
  refine Option.ext fun y => ?_
  rw [find_eq_some_iff hwp' hk, find_eq_some_iff hwp hk]
  constructor
  · rintro ⟨q, hq, hy⟩
    have hqp : q ≠ p := by
      rintro rfl
      rw [Function.update_self] at hq
      exact hk (hy.symm.trans (hq ▸ hx))
    exact ⟨q, by rwa [Function.update_of_ne hqp] at hq, hy⟩
  · rintro ⟨q, hq, hy⟩
    have hqp : q ≠ p := by
      rintro rfl
      exact hk (hy.symm.trans (hq ▸ hp))
    exact ⟨q, by rwa [Function.update_of_ne hqp], hy⟩

end Scheme

end Revhv.Lib.OpenAddressing
