import Revhv.Um.AtConfig
import Revhv.Lib.OpenAddressing

/-!
# `Revhv.Proofs.TransitionCfg`: the config table is a map

The exact-address table is an instance of linear probing with address 0
as the reserved key.

* `insertLoop_eq` / `lookupLoop_eq`: the two loops of the source are the
  library's `place` and `find`.
* `CfgsOk` is the invariant of a vCPU's configs and `Mirrors` ties them
  to the engine's mirror. `atConfig_mirrors` shows that every command
  keeps both, so after any series of commands the table and the mirror
  hold the same configs (`atConfigs_mirrors`).
-/

set_option autoImplicit false

namespace Revhv.TransitionCfg

open Revhv.Lib.OpenAddressing Revhv.Trace Revhv.AtConfig

/-- The table as an instance of linear probing. -/
def scheme : Scheme ExactEntry UInt64 where
  key := ExactEntry.addr
  hash := initialSlot
  empty := 0

/-- What the table holds for an address. -/
def exactCfg (cfgs : TransitionCfgs) (addr : UInt64) : Option EptTransitionCfg :=
  (scheme.find cfgs.exactTransitionCfgs addr).map ExactEntry.cfg

/-- The invariant of the table. The count is 0 only while every slot is
empty. -/
structure CfgsOk (cfgs : TransitionCfgs) : Prop where
  wellPlaced : scheme.WellPlaced cfgs.exactTransitionCfgs
  count : cfgs.exactTransitionCfgCount = 0 → ∀ p, (cfgs.exactTransitionCfgs p).addr = 0

/-- The test of both loops: the probe of `addr` stops in round `i`. -/
def stopsAt (cfgs : TransitionCfgs) (addr : UInt64) (i : Nat) : Bool :=
  decide (scheme.Stops cfgs.exactTransitionCfgs addr (slotAt addr i))

/-- The place of an address is the first slot of its probe sequence that
is free or has the address. -/
theorem place_eq (cfgs : TransitionCfgs) (addr : UInt64) :
    scheme.place cfgs.exactTransitionCfgs addr =
      (firstFrom (stopsAt cfgs addr) maxExactTransitionCfgs 0).map (slotAt addr) := rfl

/-- The insert as a store at a slot at which its probe stops. -/
def storeAt (cfgs : TransitionCfgs) (addr : UInt64) (cfg : EptTransitionCfg)
    (slot : Fin maxExactTransitionCfgs) : TransitionCfgs :=
  if (cfgs.exactTransitionCfgs slot).addr = addr then
    { cfgs with
      exactTransitionCfgs := Function.update cfgs.exactTransitionCfgs slot ⟨addr, cfg⟩ }
  else
    { cfgs with
      exactTransitionCfgs := Function.update cfgs.exactTransitionCfgs slot ⟨addr, cfg⟩
      exactTransitionCfgCount := cfgs.exactTransitionCfgCount + 1 }

/-- The loop of the insert stores at the first slot at which its probe
stops. -/
theorem insertLoop_eq (cfgs : TransitionCfgs) (addr : UInt64) (cfg : EptTransitionCfg)
    (fuel i : Nat) :
    insertLoop cfgs addr cfg fuel i =
      (firstFrom (stopsAt cfgs addr) fuel i).map fun j => storeAt cfgs addr cfg (slotAt addr j) := by
  -- By induction over the slots left to probe: the loop stops at the address's
  -- own slot or at an empty one.
  induction fuel generalizing i with
  | zero => rfl
  | succ fuel ih =>
    unfold insertLoop firstFrom
    by_cases hown : (cfgs.exactTransitionCfgs (slotAt addr i)).addr = addr
    · have hstops : stopsAt cfgs addr i = true := decide_eq_true (Or.inl hown)
      simp only [if_pos hown, hstops, if_true, Option.map_some, storeAt]
      rw [hown]
    · by_cases hempty : (cfgs.exactTransitionCfgs (slotAt addr i)).addr = 0
      · have hstops : stopsAt cfgs addr i = true := decide_eq_true (Or.inr hempty)
        simp only [if_neg hown, if_pos hempty, hstops, if_true, Option.map_some, storeAt]
      · have hgo : stopsAt cfgs addr i = false := decide_eq_false (not_or.mpr ⟨hown, hempty⟩)
        simp only [if_neg hown, if_neg hempty, hgo]
        exact ih (i + 1)

/-- The insert in terms of `place`. -/
theorem insertExactTransitionCfg_eq (cfgs : TransitionCfgs) (addr : UInt64)
    (cfg : EptTransitionCfg) :
    insertExactTransitionCfg cfgs addr cfg =
      (scheme.place cfgs.exactTransitionCfgs addr).map (storeAt cfgs addr cfg) := by
  rw [insertExactTransitionCfg, insertLoop_eq, place_eq, Option.map_map]
  rfl

/-- The loop of the lookup reads the first slot at which its probe
stops. -/
theorem lookupLoop_eq (cfgs : TransitionCfgs) {rip : UInt64} (hrip : rip ≠ 0) (fuel i : Nat) :
    lookupLoop cfgs rip fuel i =
      (firstFrom (stopsAt cfgs rip) fuel i).bind fun j =>
        if (cfgs.exactTransitionCfgs (slotAt rip j)).addr = rip then
          some (cfgs.exactTransitionCfgs (slotAt rip j)).cfg
        else none := by
  induction fuel generalizing i with
  | zero => rfl
  | succ fuel ih =>
    unfold lookupLoop firstFrom
    -- The lookup tests for an empty slot first, the insertion for its own
    -- address.
    by_cases hempty : (cfgs.exactTransitionCfgs (slotAt rip i)).addr = 0
    · have hstops : stopsAt cfgs rip i = true := decide_eq_true (Or.inr hempty)
      have hother : ¬ (cfgs.exactTransitionCfgs (slotAt rip i)).addr = rip := fun h =>
        hrip (h.symm.trans hempty)
      simp only [if_pos hempty, hstops, if_true, Option.bind_some, if_neg hother]
    · by_cases hown : (cfgs.exactTransitionCfgs (slotAt rip i)).addr = rip
      · have hstops : stopsAt cfgs rip i = true := decide_eq_true (Or.inl hown)
        simp only [if_neg hempty, if_pos hown, hstops, if_true, Option.bind_some]
      · have hgo : stopsAt cfgs rip i = false := decide_eq_false (not_or.mpr ⟨hown, hempty⟩)
        simp only [if_neg hempty, if_neg hown, hgo]
        exact ih (i + 1)

/-- A guest RIP of 0 never matches: its probe ends at the first empty
slot, and a slot that is not empty has another address. -/
theorem lookupLoop_zero (cfgs : TransitionCfgs) (fuel i : Nat) :
    lookupLoop cfgs 0 fuel i = none := by
  induction fuel generalizing i with
  | zero => rfl
  | succ fuel ih =>
    unfold lookupLoop
    by_cases hempty : (cfgs.exactTransitionCfgs (slotAt 0 i)).addr = 0
    · simp only [if_pos hempty]
    · simp only [if_neg hempty]
      exact ih (i + 1)

/-- The lookup falls back on the generic config where the table holds
nothing. -/
theorem lookupTransitionCfg_eq {cfgs : TransitionCfgs} (h : CfgsOk cfgs) {rip : UInt64}
    (hrip : rip ≠ 0) :
    lookupTransitionCfg cfgs rip = (exactCfg cfgs rip).getD cfgs.genericTransitionCfg := by
  have hfind : lookupLoop cfgs rip maxExactTransitionCfgs 0 = exactCfg cfgs rip := by
    rw [lookupLoop_eq cfgs hrip, exactCfg, Scheme.find, place_eq]
    cases firstFrom (stopsAt cfgs rip) maxExactTransitionCfgs 0 with
    | none => rfl
    | some j =>
      simp only [Option.map_some, Option.bind_some]
      show _ = Option.map ExactEntry.cfg
        (if (cfgs.exactTransitionCfgs (slotAt rip j)).addr = rip then _ else _)
      split <;> rfl
  unfold lookupTransitionCfg
  split
  · rw [hfind]
  · rename_i hcount
    -- Without a stored address the table holds nothing.
    have hnone : exactCfg cfgs rip = none := by
      rw [exactCfg, Option.map_eq_none_iff]
      cases hx : scheme.find cfgs.exactTransitionCfgs rip with
      | none => rfl
      | some x =>
        obtain ⟨p, rfl, hkey⟩ := (Scheme.find_eq_some_iff h.wellPlaced hrip).mp hx
        exact absurd (hkey.symm.trans (h.count (by omega) p)) hrip
    rw [hnone, Option.getD_none]

/-- The address 0 stands for a free slot, and has the generic config. -/
theorem lookupTransitionCfg_zero (cfgs : TransitionCfgs) :
    lookupTransitionCfg cfgs 0 = cfgs.genericTransitionCfg := by
  unfold lookupTransitionCfg
  split
  · rw [lookupLoop_zero, Option.getD_none]
  · rfl

/-- An insert of a proper address updates the map. -/
theorem insert_of_ne_zero {cfgs cfgs' : TransitionCfgs} {addr : UInt64} {cfg : EptTransitionCfg}
    (h : CfgsOk cfgs) (haddr : addr ≠ 0)
    (hins : insertExactTransitionCfg cfgs addr cfg = some cfgs') :
    CfgsOk cfgs' ∧ cfgs'.genericTransitionCfg = cfgs.genericTransitionCfg ∧
      ∀ a, a ≠ 0 → exactCfg cfgs' a = if a = addr then some cfg else exactCfg cfgs a := by
  rw [insertExactTransitionCfg_eq, Option.map_eq_some_iff] at hins
  obtain ⟨p, hplace, rfl⟩ := hins
  have hslots : (storeAt cfgs addr cfg p).exactTransitionCfgs =
      Function.update cfgs.exactTransitionCfgs p ⟨addr, cfg⟩ := by
    unfold storeAt
    split <;> rfl
  -- Without an exact entry the count is 0, and a new entry makes it positive.
  have hcount : (storeAt cfgs addr cfg p).exactTransitionCfgCount ≠ 0 := by
    unfold storeAt
    split
    · rename_i hown
      intro hzero
      exact haddr (hown.symm.trans (h.count hzero p))
    · exact Nat.succ_ne_zero _
  refine ⟨⟨?_, fun hzero => absurd hzero hcount⟩, ?_, fun a ha => ?_⟩
  · rw [hslots]
    exact Scheme.wellPlaced_update h.wellPlaced haddr rfl hplace
  · unfold storeAt
    split <;> rfl
  · rw [exactCfg, hslots, Scheme.find_update h.wellPlaced haddr rfl hplace ha]
    split
    · rfl
    · rfl

/-- An insert of address 0 stores a config that no lookup reaches. -/
theorem insert_zero {cfgs cfgs' : TransitionCfgs} {cfg : EptTransitionCfg} (h : CfgsOk cfgs)
    (hins : insertExactTransitionCfg cfgs 0 cfg = some cfgs') :
    CfgsOk cfgs' ∧ cfgs'.genericTransitionCfg = cfgs.genericTransitionCfg ∧
      ∀ a, a ≠ 0 → exactCfg cfgs' a = exactCfg cfgs a := by
  rw [insertExactTransitionCfg_eq, Option.map_eq_some_iff] at hins
  obtain ⟨p, hplace, rfl⟩ := hins
  -- For address 0 the probe ends at the first empty slot, which keeps its key.
  have hempty : (cfgs.exactTransitionCfgs p).addr = 0 := (Scheme.stops_of_place hplace).elim id id
  rw [storeAt, if_pos hempty]
  refine ⟨⟨Scheme.wellPlaced_update_of_key h.wellPlaced hempty.symm, fun hzero q => ?_⟩, rfl,
    fun a ha => ?_⟩
  · by_cases hqp : q = p
    · subst hqp
      show (Function.update cfgs.exactTransitionCfgs q _ q).addr = 0
      rw [Function.update_self]
    · show (Function.update cfgs.exactTransitionCfgs p _ q).addr = 0
      rw [Function.update_of_ne hqp]
      exact h.count hzero q
  · rw [exactCfg, exactCfg, Scheme.find_update_empty h.wellPlaced rfl hempty ha]

/-! ### The mirror -/

/-- What the engine's mirror holds for an address. -/
def mirroredCfg (exact : List ExactCfgEntry) (addr : UInt64) : Option EptTransitionCfg :=
  (exact.find? fun e => e.addr = addr).map ExactCfgEntry.cfg

/-- The table and the mirror hold the same configs. -/
structure Mirrors (cfgs : TransitionCfgs) (eng : Engine) : Prop where
  ok : CfgsOk cfgs
  generic : eng.genericTransitionCfg = cfgs.genericTransitionCfg
  exact : ∀ a, a ≠ 0 → mirroredCfg eng.exactTransitionCfgs a = exactCfg cfgs a

/-- An update that keeps addresses is seen only by lookups of its
address. -/
theorem mirroredCfg_updateFirst (addr : UInt64) {f : ExactCfgEntry → ExactCfgEntry}
    (hf : ∀ e, (f e).addr = e.addr) {new : List ExactCfgEntry}
    (hnew : ∀ e ∈ new, e.addr = addr) (exact : List ExactCfgEntry) (a : UInt64) :
    mirroredCfg (updateFirst addr f new exact) a =
      if a = addr then
        ((exact.find? fun e => e.addr = addr).map fun e => (f e).cfg).or (mirroredCfg new a)
      else mirroredCfg exact a := by
  -- By induction over the mirror's list: the first entry of the address is
  -- updated, else one is appended.
  induction exact with
  | nil =>
    rw [updateFirst]
    split
    · rfl
    · rename_i hne
      have hnone : new.find? (fun e => e.addr = a) = none := by
        refine List.find?_eq_none.mpr fun e he => ?_
        rw [hnew e he]
        simpa using Ne.symm hne
      rw [mirroredCfg, hnone]
      rfl
  | cons e es ih =>
    rw [updateFirst]
    by_cases he : e.addr = addr
    · rw [if_pos he]
      by_cases ha : a = addr
      · simp [mirroredCfg, hf, he, ha]
      · have hne : ¬ addr = a := Ne.symm ha
        simp [mirroredCfg, hf, he, ha, hne]
    · rw [if_neg he]
      by_cases hea : e.addr = a
      · have ha : ¬ a = addr := fun h => he (hea.trans h)
        simp [mirroredCfg, hea, ha]
      · have hcons : ∀ l : List ExactCfgEntry, mirroredCfg (e :: l) a = mirroredCfg l a := by
          intro l
          simp [mirroredCfg, hea]
        rw [hcons, hcons, ih, List.find?_cons_of_neg (by simpa using he)]

/-- A mirrored config replaces or extends the mirror. -/
theorem mirroredCfg_exact (addr : UInt64) (cfg : EptTransitionCfg) (exact : List ExactCfgEntry)
    (a : UInt64) :
    mirroredCfg (updateFirst addr (fun e => { e with cfg := cfg }) [⟨addr, cfg, []⟩] exact) a =
      if a = addr then some cfg else mirroredCfg exact a := by
  rw [mirroredCfg_updateFirst addr (f := fun e => { e with cfg := cfg }) (fun _ => rfl) (by simp)]
  split
  · rename_i heq
    subst heq
    cases exact.find? (fun e => decide (e.addr = a)) <;> simp [mirroredCfg]
  · rfl

/-- A display format changes no config. -/
theorem mirroredCfg_fmt (addr : UInt64) (fmt : List UInt8) (exact : List ExactCfgEntry)
    (a : UInt64) :
    mirroredCfg (updateFirst addr (fun e => { e with fmt := fmt }) [] exact) a =
      mirroredCfg exact a := by
  rw [mirroredCfg_updateFirst addr (f := fun e => { e with fmt := fmt }) (fun _ => rfl) (by simp)]
  split
  · rename_i heq
    subst heq
    show Option.or _ none = _
    rw [Option.or_none]
    rfl
  · rfl

/-- One command keeps the table and the mirror in step. -/
theorem atConfig_mirrors {cfgs : TransitionCfgs} {eng : Engine} (h : Mirrors cfgs eng)
    (cmd : ConfigCommand) : Mirrors (atConfig cfgs eng cmd).1 (atConfig cfgs eng cmd).2 := by
  cases cmd with
  | generic cfg => exact ⟨⟨h.ok.wellPlaced, h.ok.count⟩, rfl, h.exact⟩
  | exact addr cfg =>
    -- The engine changes its mirror only where the hypervisor has accepted.
    cases hins : insertExactTransitionCfg cfgs addr cfg with
    | none =>
      have hsame : atConfig cfgs eng (.exact addr cfg) = (cfgs, eng) := by
        simp only [atConfig, hins]
      rw [hsame]
      exact h
    | some cfgs' =>
      have hboth : atConfig cfgs eng (.exact addr cfg) = (cfgs', { eng with
          exactTransitionCfgs := updateFirst addr (fun e => { e with cfg := cfg })
            [⟨addr, cfg, []⟩] eng.exactTransitionCfgs }) := by
        simp only [atConfig, hins]
      rw [hboth]
      -- Address 0 takes no slot, and the mirror's entry for it is never looked
      -- up.
      by_cases haddr : addr = 0
      · subst haddr
        obtain ⟨hok, hgeneric, hexact⟩ := insert_zero h.ok hins
        refine ⟨hok, h.generic.trans hgeneric.symm, fun a ha => ?_⟩
        show mirroredCfg (updateFirst 0 _ _ _) a = _
        rw [mirroredCfg_exact, if_neg ha, hexact a ha, h.exact a ha]
      · obtain ⟨hok, hgeneric, hexact⟩ := insert_of_ne_zero h.ok haddr hins
        refine ⟨hok, h.generic.trans hgeneric.symm, fun a ha => ?_⟩
        show mirroredCfg (updateFirst addr _ _ _) a = _
        rw [mirroredCfg_exact, hexact a ha, h.exact a ha]
  | fmtGeneric fmt => exact ⟨h.ok, h.generic, h.exact⟩
  | fmtExact addr fmt =>
    refine ⟨h.ok, h.generic, fun a ha => ?_⟩
    show mirroredCfg (updateFirst addr _ _ _) a = exactCfg cfgs a
    rw [mirroredCfg_fmt, h.exact a ha]

/-- A new engine mirrors the tables after their reset. -/
theorem mirrors_initial : Mirrors initialCfgs Engine.start where
  ok := ⟨fun p hp => absurd rfl hp, fun _ _ => rfl⟩
  generic := rfl
  exact a ha := by
    have hnone : scheme.find initialCfgs.exactTransitionCfgs a = none := by
      rw [Option.eq_none_iff_forall_not_mem]
      intro x hx
      obtain ⟨p, rfl, hkey⟩ :=
        (Scheme.find_eq_some_iff (fun p hp => absurd rfl hp) ha).mp hx
      exact ha hkey.symm
    rw [exactCfg, hnone]
    rfl

/-- After any series of commands the vCPU and the engine hold the same
configs. -/
theorem atConfigs_mirrors (cmds : List ConfigCommand) :
    Mirrors (atConfigs cmds).1 (atConfigs cmds).2 := by
  unfold atConfigs
  have hfold : ∀ (cmds : List ConfigCommand) (s : TransitionCfgs × Engine), Mirrors s.1 s.2 →
      Mirrors (cmds.foldl (fun s cmd => atConfig s.1 s.2 cmd) s).1
        (cmds.foldl (fun s cmd => atConfig s.1 s.2 cmd) s).2 := by
    intro cmds
    induction cmds with
    | nil => exact fun s h => h
    | cons cmd cmds ih => exact fun s h => ih _ (atConfig_mirrors h cmd)
  exact hfold cmds _ mirrors_initial

end Revhv.TransitionCfg
