import Revhv.Proofs.TransitionCfg
import Revhv.Um.TraceParser

/-!
# `Revhv.Proofs.ParserConfig`: which config the parser prints an entry with

The hypervisor chooses the capture config by the guest RIP. The parser
reads a RIP back from the slot in which the generic config captures it,
also for an entry that another config laid out. `ParserRecovers` is the
exact condition under which it still finds the config of the capture.

* `selectCfg_eq`: the parser's choice as a lookup in the mirror.
* `parser_recovers_iff`: the choice is the capturing config exactly
  when `ParserRecovers` holds.
* `parserRecovers_of_ripSlot`: it does when every exact config captures
  the RIP where the generic config does.
* `printedFields_sound`: with the right config every value is printed
  under the name of the guest value it is.
-/

set_option autoImplicit false

namespace Revhv.TraceParser

open Revhv.Trace Revhv.Vcpu Revhv.TransitionCfg Revhv.AtConfig

/-- The parser finds the config of the capture, for a generic config,
the exact configs and the guest at the transition. A RIP of 0 counts as
one without an exact config, because the hypervisor never matches it. -/
def ParserRecovers (generic : EptTransitionCfg) (exact : UInt64 → Option EptTransitionCfg)
    (g : GuestState) : Prop :=
  match (if g.rip = 0 then none else exact g.rip), findDataSlot generic .guestRip with
  | none, none => True
  -- The entry holds the RIP, and only a config for address 0 can be taken for the generic one.
  | none, some _ => g.rip = 0 → ∀ cfg, exact 0 = some cfg → cfg = generic
  | some cfg, none => cfg = generic
  -- The slot holds whatever the exact config put there.
  | some cfg, some slot => (exact (resolveDataField g (cfg.dataMap slot))).getD generic = cfg

/-- The slot that is found holds the field. -/
theorem dataMap_of_findDataSlot {cfg : EptTransitionCfg} {field : EptTransitionDataField}
    {slot : Fin 6} (h : findDataSlot cfg field = some slot) : cfg.dataMap slot = field := by
  simpa using List.find?_some h

/-- The export keeps the mirrored configs. -/
theorem mirroredCfg_export (eng : Engine) (a : UInt64) :
    mirroredCfg (exportTraceConfig eng).exactEntries a = mirroredCfg eng.exactTransitionCfgs a := by
  rw [mirroredCfg, mirroredCfg, exportTraceConfig, List.find?_map, Option.map_map]
  rfl

/-- The parser's choice is a lookup in the mirror under the value of the
RIP slot. -/
theorem selectCfg_eq (eng : Engine) (e : Entry) :
    (selectCfg (loadTraceCfg (exportTraceConfig eng)) e).1 =
      ((findDataSlot eng.genericTransitionCfg .guestRip).bind fun slot =>
        mirroredCfg eng.exactTransitionCfgs (e.data slot)).getD eng.genericTransitionCfg := by
  have hmap : (findExact (loadTraceCfg (exportTraceConfig eng)) e).map ExactCfgEntry.cfg =
      (findDataSlot eng.genericTransitionCfg .guestRip).bind fun slot =>
        mirroredCfg eng.exactTransitionCfgs (e.data slot) := by
    rw [findExact, Option.map_bind]
    refine congrArg (Option.bind _) (funext fun slot => ?_)
    exact mirroredCfg_export eng (e.data slot)
  rw [← hmap, selectCfg]
  cases findExact (loadTraceCfg (exportTraceConfig eng)) e <;> rfl

/-- **Config recovery.** After any series of commands, the parser prints
the entry of a transition with the config that captured it exactly when
`ParserRecovers` holds. -/
theorem parser_recovers_iff (cmds : List ConfigCommand) (core : UInt16) (tsc : UInt64)
    (g : GuestState) :
    (selectCfg (loadTraceCfg (exportTraceConfig (atConfigs cmds).2))
        (transitionEntry (atConfigs cmds).1 core tsc g)).1 =
        lookupTransitionCfg (atConfigs cmds).1 g.rip ↔
      ParserRecovers (atConfigs cmds).2.genericTransitionCfg
        (mirroredCfg (atConfigs cmds).2.exactTransitionCfgs) g := by
  have hmirror := atConfigs_mirrors cmds
  generalize (atConfigs cmds).1 = cfgs at hmirror ⊢
  generalize (atConfigs cmds).2 = eng at hmirror ⊢
  have hlookup : lookupTransitionCfg cfgs g.rip =
      (if g.rip = 0 then none else mirroredCfg eng.exactTransitionCfgs g.rip).getD
        eng.genericTransitionCfg := by
    split
    · rename_i hzero
      rw [hzero, lookupTransitionCfg_zero, hmirror.generic]
      rfl
    · rename_i hrip
      rw [lookupTransitionCfg_eq hmirror.ok hrip, hmirror.exact _ hrip, hmirror.generic]
  have hdata : ∀ slot, (transitionEntry cfgs core tsc g).data slot =
      resolveDataField g ((lookupTransitionCfg cfgs g.rip).dataMap slot) := fun _ => rfl
  rw [selectCfg_eq]
  simp only [hdata, hlookup, ParserRecovers]
  cases hown : (if g.rip = 0 then none else mirroredCfg eng.exactTransitionCfgs g.rip) with
  | some cfg =>
    cases findDataSlot eng.genericTransitionCfg .guestRip with
    | none => exact eq_comm
    | some slot => rfl
  | none =>
    cases hslot : findDataSlot eng.genericTransitionCfg .guestRip with
    | none => simp
    | some slot =>
      simp only [Option.getD_none, Option.bind_some, dataMap_of_findDataSlot hslot,
        resolveDataField]
      by_cases hzero : g.rip = 0
      · rw [hzero]
        cases mirroredCfg eng.exactTransitionCfgs 0 <;> simp
      · rw [if_neg hzero] at hown
        simp [hown, hzero]

/-- When the exact configs capture the RIP where the generic config
does, every transition of a guest whose RIP is not 0 is printed with the
right config. -/
theorem parserRecovers_of_ripSlot {generic : EptTransitionCfg}
    {exact : UInt64 → Option EptTransitionCfg} {g : GuestState} {slot : Fin 6}
    (hrip : g.rip ≠ 0) (hslot : findDataSlot generic .guestRip = some slot)
    (hexact : ∀ cfg, exact g.rip = some cfg → cfg.dataMap slot = .guestRip) :
    ParserRecovers generic exact g := by
  unfold ParserRecovers
  rw [hslot, if_neg hrip]
  cases hown : exact g.rip with
  | none => exact fun hzero => absurd hzero hrip
  | some cfg =>
    show (exact (resolveDataField g (cfg.dataMap slot))).getD generic = cfg
    rw [hexact cfg hown, resolveDataField, hown]
    rfl

/-- An entry printed with the config that captured it shows every guest
value under its own name. -/
theorem printedFields_sound {p : Parser} {cfgs : TransitionCfgs} {core : UInt16} {tsc : UInt64}
    {g : GuestState}
    (h : (selectCfg p (transitionEntry cfgs core tsc g)).1 = lookupTransitionCfg cfgs g.rip) :
    ∀ x ∈ printedFields p (transitionEntry cfgs core tsc g), x.2 = resolveDataField g x.1 := by
  intro x hx
  obtain ⟨i, -, rfl⟩ := List.mem_map.mp hx
  show resolveDataField g _ = resolveDataField g _
  rw [h]

/-! ### An exact config without the RIP -/

/-- Under the default generic config, the exact config for 0x1000
captures RAX in slot 0. -/
def raxConfig : List ConfigCommand :=
  [.exact 0x1000 ⟨fun i => if i = 0 then .guestRax else .none⟩]

/-- A guest at 0x1000 with 5 in RAX. -/
def guestAt1000 : GuestState where
  rip := 0x1000
  rsp := 0
  ctx := { GuestContext.zero with rax := 5 }
  readGuestVirtual _ := 0

/-- The parser looks for a config of address 5, finds none, and prints
RAX as the RIP. -/
theorem parser_mislabels_rax :
    (selectCfg (loadTraceCfg (exportTraceConfig (atConfigs raxConfig).2))
        (transitionEntry (atConfigs raxConfig).1 0 7 guestAt1000)).1 ≠
      lookupTransitionCfg (atConfigs raxConfig).1 guestAt1000.rip := by
  intro h
  exact absurd (congrArg (fun cfg => cfg.dataMap 0) h) (by decide)

end Revhv.TraceParser
