import Revhv.Proofs.TransitionCfg
import Mathlib.Data.Finmap

/-!
# `Revhv.Proofs.TransitionTable`: the config table is a finite map of 64 addresses

* `Represents` ties the table to a `Finmap`.
* `insertCall_represents`: an insert of a proper address, with its
  answer, against the map.
* `transitionTable_refines`: every sequence of inserts from the empty
  table.
-/

set_option autoImplicit false

namespace Revhv.TransitionCfg

open Revhv.Lib.OpenAddressing Revhv.Trace

/-! ### The map -/

/-- The configs by address. -/
abbrev CfgMap := Finmap fun _ : UInt64 => EptTransitionCfg

/-- An insert into a map of at most 64 addresses, with its answer. -/
def insertCfg (m : CfgMap) (call : UInt64 × EptTransitionCfg) : CfgMap × Bool :=
  if call.1 ∈ m ∨ m.keys.card < maxExactTransitionCfgs then (m.insert call.1 call.2, true)
  else (m, false)

/-- `insert_exact_transition_cfg` as a call, with its answer. -/
def insertCall (cfgs : TransitionCfgs) (call : UInt64 × EptTransitionCfg) :
    TransitionCfgs × Bool :=
  match insertExactTransitionCfg cfgs call.1 call.2 with
  | some cfgs' => (cfgs', true)
  | none => (cfgs, false)

/-- Calls one after the other: the last state and the answers. -/
def runCalls {σ ε β : Type} (call : σ → ε → σ × β) (s : σ) : List ε → σ × List β
  | [] => (s, [])
  | e :: es =>
      let r := call s e
      let rest := runCalls call r.1 es
      (rest.1, r.2 :: rest.2)

/-- The table holds what the map holds. -/
structure Represents (cfgs : TransitionCfgs) (m : CfgMap) : Prop where
  ok : CfgsOk cfgs
  count : cfgs.exactTransitionCfgCount = m.keys.card
  mem : ∀ a, a ∈ m ↔ a ≠ 0 ∧ ∃ p, (cfgs.exactTransitionCfgs p).addr = a
  lookup : ∀ a, a ≠ 0 → exactCfg cfgs a = m.lookup a

/-! ### Room -/

section
variable {cfgs : TransitionCfgs} {m : CfgMap}

/-- There is an empty slot exactly while the map has fewer than 64
addresses. -/
theorem Represents.exists_empty_iff (h : Represents cfgs m) :
    (∃ p, (cfgs.exactTransitionCfgs p).addr = 0) ↔ m.keys.card < maxExactTransitionCfgs := by
  constructor
  · rintro ⟨p, hp⟩
    -- The addresses are those of the other slots.
    have hsub : m.keys ⊆ (Finset.univ.erase p).image fun q => (cfgs.exactTransitionCfgs q).addr := by
      intro a ha
      obtain ⟨hne, q, hq⟩ := (h.mem a).mp (Finmap.mem_keys.mp ha)
      have hqp : q ≠ p := by
        rintro rfl
        exact hne (hq.symm.trans hp)
      exact Finset.mem_image.mpr ⟨q, Finset.mem_erase.mpr ⟨hqp, Finset.mem_univ q⟩, hq⟩
    have hcard := (Finset.card_le_card hsub).trans Finset.card_image_le
    rw [Finset.card_erase_of_mem (Finset.mem_univ p), Finset.card_univ, Fintype.card_fin] at hcard
    have hpos : 0 < maxExactTransitionCfgs := by decide
    omega
  · intro hroom
    by_contra hfull
    have hne : ∀ p, (cfgs.exactTransitionCfgs p).addr ≠ 0 := fun p hp => hfull ⟨p, hp⟩
    -- Otherwise the 64 slots hold 64 addresses.
    have hinj : Function.Injective fun p => (cfgs.exactTransitionCfgs p).addr :=
      fun p q hpq => Scheme.key_injective h.ok.wellPlaced (hne p) hpq
    have hsub : (Finset.univ.image fun q => (cfgs.exactTransitionCfgs q).addr) ⊆ m.keys := by
      intro a ha
      obtain ⟨p, -, hp⟩ := Finset.mem_image.mp ha
      exact Finmap.mem_keys.mpr ((h.mem a).mpr ⟨hp ▸ hne p, p, hp⟩)
    have hcard := Finset.card_le_card hsub
    rw [Finset.card_image_of_injective _ hinj, Finset.card_univ, Fintype.card_fin] at hcard
    omega

/-- The probe of a proper address stops exactly when the map has it or
has room. -/
theorem Represents.exists_place_iff (h : Represents cfgs m) {addr : UInt64} (haddr : addr ≠ 0) :
    (∃ p, scheme.place cfgs.exactTransitionCfgs addr = some p) ↔
      addr ∈ m ∨ m.keys.card < maxExactTransitionCfgs := by
  rw [Scheme.exists_place_iff, ← h.exists_empty_iff, h.mem]
  constructor
  · rintro ⟨p, hown | hempty⟩
    · exact Or.inl ⟨haddr, p, hown⟩
    · exact Or.inr ⟨p, hempty⟩
  · rintro (⟨-, p, hown⟩ | ⟨p, hempty⟩)
    · exact ⟨p, Or.inl hown⟩
    · exact ⟨p, Or.inr hempty⟩

/-! ### One insert -/

/-- An insertion adds its key. -/
theorem keys_insert (m : CfgMap) (a : UInt64) (cfg : EptTransitionCfg) :
    (m.insert a cfg).keys = insert a m.keys := by
  ext b
  rw [Finmap.mem_keys, Finmap.mem_insert, Finset.mem_insert, Finmap.mem_keys]

/-- The addresses after a store at slot `p`, whose probe stopped there. -/
theorem mem_storeAt {p : Fin maxExactTransitionCfgs} {addr : UInt64} (cfg : EptTransitionCfg)
    (hstop : scheme.Stops cfgs.exactTransitionCfgs addr p) {a : UInt64} (ha : a ≠ 0) :
    (∃ q, ((storeAt cfgs addr cfg p).exactTransitionCfgs q).addr = a) ↔
      a = addr ∨ ∃ q, (cfgs.exactTransitionCfgs q).addr = a := by
  have hslots : (storeAt cfgs addr cfg p).exactTransitionCfgs =
      Function.update cfgs.exactTransitionCfgs p ⟨addr, cfg⟩ := by
    rw [storeAt]
    split <;> rfl
  rw [hslots]
  constructor
  · rintro ⟨q, hq⟩
    by_cases hqp : q = p
    · rw [hqp, Function.update_self] at hq
      exact Or.inl hq.symm
    · rw [Function.update_of_ne hqp] at hq
      exact Or.inr ⟨q, hq⟩
  · rintro (rfl | ⟨q, hq⟩)
    · exact ⟨p, by rw [Function.update_self]⟩
    · by_cases hqp : q = p
      · -- The slot that is overwritten held the address itself or none.
        rcases hstop with hown | hempty
        · refine ⟨p, ?_⟩
          rw [Function.update_self, ← hq, hqp]
          exact hown.symm
        · exact absurd (hq.symm.trans ((congrArg _ (congrArg _ hqp)).trans hempty)) ha
      · exact ⟨q, by rw [Function.update_of_ne hqp, hq]⟩

/-- An insert of a proper address and the insert into the map give the
same answer, and the same map. -/
theorem insertCall_represents (h : Represents cfgs m) {call : UInt64 × EptTransitionCfg}
    (haddr : call.1 ≠ 0) :
    (insertCall cfgs call).2 = (insertCfg m call).2 ∧
      Represents (insertCall cfgs call).1 (insertCfg m call).1 ∧
      (insertCall cfgs call).1.genericTransitionCfg = cfgs.genericTransitionCfg := by
  -- There is a slot exactly when the map has the address or room for it.
  by_cases hroom : call.1 ∈ m ∨ m.keys.card < maxExactTransitionCfgs
  · obtain ⟨p, hplace⟩ := (h.exists_place_iff haddr).mpr hroom
    have hins : insertExactTransitionCfg cfgs call.1 call.2 =
        some (storeAt cfgs call.1 call.2 p) := by
      rw [insertExactTransitionCfg_eq, hplace, Option.map_some]
    have hcall : insertCall cfgs call = (storeAt cfgs call.1 call.2 p, true) := by
      rw [insertCall, hins]
    have hmap : insertCfg m call = (m.insert call.1 call.2, true) := if_pos hroom
    rcases insert_of_ne_zero h.ok haddr hins with ⟨hok, hgeneric, hexact⟩
    have hstop := Scheme.stops_of_place hplace
    rw [hcall, hmap]
    refine ⟨rfl, ⟨hok, ?_, fun a => ?_, fun a ha => ?_⟩, hgeneric⟩
    · -- The count goes up for an empty slot only, and then the address is new.
      show (storeAt cfgs call.1 call.2 p).exactTransitionCfgCount = (m.insert call.1 call.2).keys.card
      rw [keys_insert, storeAt]
      by_cases hown : (cfgs.exactTransitionCfgs p).addr = call.1
      · have hmem : call.1 ∈ m.keys := Finmap.mem_keys.mpr ((h.mem _).mpr ⟨haddr, p, hown⟩)
        rw [if_pos hown, Finset.insert_eq_of_mem hmem]
        exact h.count
      · have hnew : call.1 ∉ m.keys := by
          intro hmem
          obtain ⟨-, q, hq⟩ := (h.mem _).mp (Finmap.mem_keys.mp hmem)
          have hplaced := h.ok.wellPlaced q (by
            show (cfgs.exactTransitionCfgs q).addr ≠ 0
            rw [hq]
            exact haddr)
          rw [show scheme.key (cfgs.exactTransitionCfgs q) = call.1 from hq, hplace] at hplaced
          exact hown (Option.some.inj hplaced ▸ hq)
        rw [if_neg hown, Finset.card_insert_of_notMem hnew]
        exact congrArg (· + 1) h.count
    · rw [Finmap.mem_insert]
      by_cases ha : a = 0
      · have hzero : ¬ a ∈ m := fun hmem => ((h.mem a).mp hmem).1 ha
        simp [ha ▸ hzero, ha, haddr.symm]
      · rw [mem_storeAt call.2 hstop ha, h.mem]
        simp [ha]
    · rw [hexact a ha]
      by_cases hac : a = call.1
      · rw [if_pos hac, hac, Finmap.lookup_insert]
      · rw [if_neg hac, Finmap.lookup_insert_of_ne m hac, h.lookup a ha]
  · -- A full table without the address refuses, as the map does.
    have hnone : insertExactTransitionCfg cfgs call.1 call.2 = none := by
      rw [insertExactTransitionCfg_eq]
      cases hplace : scheme.place cfgs.exactTransitionCfgs call.1 with
      | none => rfl
      | some p => exact absurd ((h.exists_place_iff haddr).mp ⟨p, hplace⟩) hroom
    have hcall : insertCall cfgs call = (cfgs, false) := by
      rw [insertCall, hnone]
    have hmap : insertCfg m call = (m, false) := if_neg hroom
    rw [hcall, hmap]
    exact ⟨rfl, h, rfl⟩

end

/-! ### All inserts -/

/-- Calls of proper addresses on a table that holds what the map holds. -/
theorem runCalls_represents (calls : List (UInt64 × EptTransitionCfg))
    (haddr : ∀ call ∈ calls, call.1 ≠ 0) {cfgs : TransitionCfgs} {m : CfgMap}
    (h : Represents cfgs m) :
    (runCalls insertCall cfgs calls).2 = (runCalls insertCfg m calls).2 ∧
      Represents (runCalls insertCall cfgs calls).1 (runCalls insertCfg m calls).1 ∧
      (runCalls insertCall cfgs calls).1.genericTransitionCfg = cfgs.genericTransitionCfg := by
  induction calls generalizing cfgs m with
  | nil => exact ⟨rfl, h, rfl⟩
  | cons call calls ih =>
    rcases insertCall_represents h (haddr call List.mem_cons_self) with ⟨hanswer, h', hgeneric⟩
    rcases ih (fun c hc => haddr c (List.mem_cons_of_mem _ hc)) h' with ⟨hanswers, h'', hgeneric'⟩
    refine ⟨?_, h'', hgeneric'.trans hgeneric⟩
    show _ :: _ = _ :: _
    rw [hanswer, hanswers]

/-- An empty table, whatever its slots held as configs. -/
structure EmptyTable (cfgs : TransitionCfgs) : Prop where
  slots : ∀ p, (cfgs.exactTransitionCfgs p).addr = 0
  count : cfgs.exactTransitionCfgCount = 0

/-- A table without configs is the empty map. -/
theorem EmptyTable.represents {cfgs : TransitionCfgs} (h : EmptyTable cfgs) :
    Represents cfgs ∅ where
  ok := ⟨fun p hp => absurd (h.slots p) hp, fun _ => h.slots⟩
  count := h.count
  mem a := by
    constructor
    · intro hmem
      exact absurd hmem Finmap.notMem_empty
    · rintro ⟨hne, p, hp⟩
      exact absurd (hp.symm.trans (h.slots p)) hne
  lookup a ha := by
    rw [Finmap.lookup_empty, exactCfg, Option.map_eq_none_iff, Option.eq_none_iff_forall_not_mem]
    intro x hx
    obtain ⟨p, rfl, hkey⟩ := (Scheme.find_eq_some_iff
      (fun q hq => absurd (h.slots q) hq) ha).mp hx
    exact ha (hkey.symm.trans (h.slots p))

/-- After any inserts of proper addresses into an empty table, the
answers are those of a map of at most 64 addresses, the count is the
number of its addresses, and a lookup gives what the map holds or the
generic config. A further insert that fails changes nothing. -/
theorem transitionTable_refines (cfgs : TransitionCfgs) (hempty : EmptyTable cfgs)
    (calls : List (UInt64 × EptTransitionCfg)) (haddr : ∀ call ∈ calls, call.1 ≠ 0) :
    let table := runCalls insertCall cfgs calls
    let map := runCalls insertCfg ∅ calls
    table.2 = map.2 ∧
      table.1.exactTransitionCfgCount = map.1.keys.card ∧
      (∀ rip, rip ≠ 0 → lookupTransitionCfg table.1 rip =
        (map.1.lookup rip).getD cfgs.genericTransitionCfg) ∧
      ∀ call, (insertCall table.1 call).2 = false → (insertCall table.1 call).1 = table.1 := by
  intro table map
  rcases runCalls_represents calls haddr hempty.represents with ⟨hanswers, h, hgeneric⟩
  refine ⟨hanswers, h.count, fun rip hrip => ?_, fun call hfalse => ?_⟩
  · rw [lookupTransitionCfg_eq h.ok hrip, h.lookup rip hrip, hgeneric]
  · rw [insertCall] at hfalse ⊢
    split at hfalse
    · cases hfalse
    · rfl

/-- Two addresses whose probes start at the same slot. -/
theorem transitionTable_refines_collision :
    let calls : List (UInt64 × EptTransitionCfg) :=
      [(0x1000, ⟨fun _ => .guestRip⟩), (0x1200, ⟨fun _ => .guestRsp⟩)]
    initialSlot 0x1000 = initialSlot 0x1200 ∧
      lookupTransitionCfg (runCalls insertCall AtConfig.initialCfgs calls).1 0x1200 =
        ⟨fun _ => .guestRsp⟩ := by
  intro calls
  have hempty : EmptyTable AtConfig.initialCfgs := ⟨fun _ => rfl, rfl⟩
  rcases transitionTable_refines AtConfig.initialCfgs hempty calls (by decide) with
    ⟨-, -, hlookup, -⟩
  have hfirst : insertCfg ∅ (0x1000, ⟨fun _ => .guestRip⟩) =
      ((∅ : CfgMap).insert 0x1000 ⟨fun _ => .guestRip⟩, true) := if_pos (Or.inr (by decide))
  have hsecond : ∀ m : CfgMap, m.keys.card < maxExactTransitionCfgs →
      insertCfg m (0x1200, ⟨fun _ => .guestRsp⟩) =
        (m.insert 0x1200 ⟨fun _ => .guestRsp⟩, true) := fun m hroom => if_pos (Or.inr hroom)
  have hroom : ((∅ : CfgMap).insert 0x1000 ⟨fun _ => .guestRip⟩).keys.card <
      maxExactTransitionCfgs := by
    rw [keys_insert]
    decide
  refine ⟨by decide, ?_⟩
  rw [hlookup 0x1200 (by decide)]
  simp only [calls, runCalls, hfirst, hsecond _ hroom, Finmap.lookup_insert, Option.getD_some]

end Revhv.TransitionCfg
