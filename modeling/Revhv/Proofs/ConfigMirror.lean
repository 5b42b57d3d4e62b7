import Revhv.Proofs.EptMachine
import Revhv.Proofs.TransitionCfg
import Revhv.Um.Hypercall

/-!
# `Revhv.Proofs.ConfigMirror`: the mirror over the controller's life

The cores outlive the controller and a broadcast is not taken back, so
the mirror and the cores can come apart: by a start that finds configs
of an earlier controller, by a request that only some cores accept, and
by a config for address 0, which no core ever looks up.

* `MirrorInv`: all tables are well formed, and each holds what the
  mirror of the running controller holds.
* `mirror_agrees`: in a run without these three, the mirror and every
  core agree on every guest RIP.
* `restart_forgets`: a restart after one exact-address config.
-/

set_option autoImplicit false

namespace Revhv.AtConfig

open Revhv.Hypercall Revhv.Lib Revhv.Trace Revhv.TransitionCfg Revhv.Vcpu Revhv.Vmexit

/-! ### One call -/

/-- The configs after a request, `none` when it is refused. -/
def configured (cfgs : TransitionCfgs) : ConfigRequest → Option TransitionCfgs
  | .generic cfg => some { cfgs with genericTransitionCfg := cfg }
  | .exactAddr addr cfg => insertExactTransitionCfg cfgs addr cfg
  | .unknown => none

/-- The call reaches the hypervisor, which can read the request and has
room for it. -/
def Accepts (site : CallSite) (req : ConfigRequest) (v : Vcpu) : Prop :=
  site.delivered = true ∧ site.readable = true ∧ (configured v.transitionCfgs req).isSome = true

/-- Whether a core accepts is decided by the request and its own table. -/
instance (site : CallSite) (req : ConfigRequest) (v : Vcpu) : Decidable (Accepts site req v) :=
  inferInstanceAs (Decidable (_ ∧ _))

/-- The handler answers with what `configured` gives. -/
theorem handleAtConfig_eq (v : Vcpu) (req : ConfigRequest) :
    (handleAtConfigEptTransition v (some req)).transitionCfgs =
      (configured v.transitionCfgs req).getD v.transitionCfgs ∧
    ((handleAtConfigEptTransition v (some req)).guestContext.rax != 0) =
      (configured v.transitionCfgs req).isSome := by
  cases req with
  | generic cfg => exact ⟨rfl, rfl⟩
  | exactAddr addr cfg =>
    cases hins : insertExactTransitionCfg v.transitionCfgs addr cfg with
    | none =>
      simp only [handleAtConfigEptTransition, configured, hins]
      exact ⟨rfl, rfl⟩
    | some cfgs =>
      simp only [handleAtConfigEptTransition, configured, hins]
      exact ⟨rfl, rfl⟩
  | unknown => exact ⟨rfl, rfl⟩

/-- A core that accepts a request takes it over. -/
theorem configCall_of_accepts {site : CallSite} {req : ConfigRequest} {v : Vcpu}
    (h : Accepts site req v) :
    (configCall site req v).2 = true ∧
      configured v.transitionCfgs req = some (configCall site req v).1.transitionCfgs := by
  obtain ⟨hdelivered, hreadable, hsome⟩ := h
  obtain ⟨cfgs, hcfgs⟩ := Option.isSome_iff_exists.mp hsome
  obtain ⟨htable, hanswer⟩ := handleAtConfig_eq { v with guestContext := site.registers } req
  unfold configCall vmcall
  simp only [hdelivered, hreadable, if_true]
  rw [htable, hanswer, hcfgs]
  exact ⟨rfl, rfl⟩

/-- A core that does not accept it keeps its configs. -/
theorem configCall_of_not_accepts {site : CallSite} {req : ConfigRequest} {v : Vcpu}
    (h : ¬ Accepts site req v) :
    (configCall site req v).2 = false ∧
      (configCall site req v).1.transitionCfgs = v.transitionCfgs := by
  unfold configCall vmcall
  -- A call that does not arrive or whose request cannot be read stops before
  -- the table.
  cases hdelivered : site.delivered with
  | false => exact ⟨rfl, rfl⟩
  | true =>
    cases hreadable : site.readable with
    | false => exact ⟨rfl, rfl⟩
    | true =>
      -- What is left of the refusal is a full table.
      have hnone : configured v.transitionCfgs req = none := by
        rw [← Option.not_isSome_iff_eq_none]
        exact fun hsome => h ⟨hdelivered, hreadable, hsome⟩
      obtain ⟨htable, hanswer⟩ :=
        handleAtConfig_eq { v with guestContext := site.registers } req
      simp only [if_true]
      rw [htable, hanswer, hnone]
      exact ⟨rfl, rfl⟩

/-- The call returns true exactly on a core that accepts. -/
theorem configCall_snd_iff {site : CallSite} {req : ConfigRequest} {v : Vcpu} :
    (configCall site req v).2 = true ↔ Accepts site req v := by
  by_cases h : Accepts site req v
  · exact iff_of_true (configCall_of_accepts h).1 h
  · rw [(configCall_of_not_accepts h).1]
    exact iff_of_false Bool.false_ne_true h

/-! ### The invariant -/

/-- The tables of all cores are well formed and agree with the mirror.
No mirrored config is for address 0. -/
structure MirrorInv {n : Nat} (s : ControllerState n) : Prop where
  ok : ∀ c, CfgsOk (s.cores c).transitionCfgs
  mirrors : ∀ eng, s.engine = some eng → ∀ c, Mirrors (s.cores c).transitionCfgs eng
  proper : ∀ eng, s.engine = some eng → mirroredCfg eng.exactTransitionCfgs 0 = none

/-- The request asks for what the table gives already, or for address 0. -/
def Installed (cfgs : TransitionCfgs) : ConfigRequest → Prop
  | .generic cfg => cfgs.genericTransitionCfg = cfg
  | .exactAddr addr cfg => addr = 0 ∨ exactCfg cfgs addr = some cfg
  | .unknown => True

/-- A start finds no exact-address config and reaches every core whose
generic config is not the default. A request that all cores accept is
not for address 0, and one that some core refuses asks each of the
others for what it has. -/
def KeepsMirror {n : Nat} (s : ControllerState n) : ControllerEvent n → Prop
  | .start sites => ∀ c, (s.cores c).transitionCfgs.exactTransitionCfgCount = 0 ∧
      (Accepts (sites c) (.generic defaultGenericCfg) (s.cores c) ∨
        (s.cores c).transitionCfgs.genericTransitionCfg = defaultGenericCfg)
  | .atConfig req sites =>
      if ∀ c, Accepts (sites c) req (s.cores c) then ∀ cfg, req ≠ .exactAddr 0 cfg
      else ∀ c, Accepts (sites c) req (s.cores c) → Installed (s.cores c).transitionCfgs req
  | .exit => True

/-- A request that all cores accept, and that is not for address 0. -/
theorem keepsMirror_of_all {n : Nat} {s : ControllerState n} {req : ConfigRequest}
    {sites : Fin n → CallSite} (hall : ∀ c, Accepts (sites c) req (s.cores c))
    (hreq : ∀ cfg, req ≠ .exactAddr 0 cfg) : KeepsMirror s (.atConfig req sites) := by
  simp only [KeepsMirror]
  rw [if_pos hall]
  exact hreq

/-- Tables that give the same configs agree with the same mirrors. -/
theorem mirrors_congr {cfgs cfgs' : TransitionCfgs} {eng : Engine} (h : Mirrors cfgs eng)
    (hok : CfgsOk cfgs') (hgeneric : cfgs'.genericTransitionCfg = cfgs.genericTransitionCfg)
    (hexact : ∀ a, a ≠ 0 → exactCfg cfgs' a = exactCfg cfgs a) : Mirrors cfgs' eng where
  ok := hok
  generic := h.generic.trans hgeneric.symm
  exact a ha := (h.exact a ha).trans (hexact a ha).symm

/-- A table without entries agrees with the mirror of a new controller. -/
theorem mirrors_start {cfgs : TransitionCfgs} (h : CfgsOk cfgs)
    (hcount : cfgs.exactTransitionCfgCount = 0)
    (hgeneric : cfgs.genericTransitionCfg = defaultGenericCfg) : Mirrors cfgs .start := by
  refine ⟨h, hgeneric.symm, fun a ha => ?_⟩
  have hnone : exactCfg cfgs a = none := by
    rw [exactCfg, Option.map_eq_none_iff, Option.eq_none_iff_forall_not_mem]
    intro x hx
    obtain ⟨p, rfl, hkey⟩ := (OpenAddressing.Scheme.find_eq_some_iff h.wellPlaced ha).mp hx
    exact ha (hkey.symm.trans (h.count hcount p))
  rw [hnone]
  rfl

/-- An accepted request keeps a table well formed. -/
theorem cfgsOk_configured {cfgs cfgs' : TransitionCfgs} {req : ConfigRequest} (h : CfgsOk cfgs)
    (hreq : configured cfgs req = some cfgs') : CfgsOk cfgs' := by
  cases req with
  | generic cfg =>
    cases hreq
    exact ⟨h.wellPlaced, h.count⟩
  | exactAddr addr cfg =>
    by_cases haddr : addr = 0
    · subst haddr
      exact (insert_zero h hreq).1
    · exact (insert_of_ne_zero h haddr hreq).1
  | unknown => cases hreq

/-- A request that all cores accept is mirrored. -/
theorem mirrors_mirror {cfgs cfgs' : TransitionCfgs} {eng : Engine} {req : ConfigRequest}
    (h : Mirrors cfgs eng) (hreq : configured cfgs req = some cfgs') :
    Mirrors cfgs' (eng.mirror req) := by
  cases req with
  | generic cfg =>
    cases hreq
    exact atConfig_mirrors h (.generic cfg)
  | exactAddr addr cfg =>
    have hmirrors := atConfig_mirrors h (.exact addr cfg)
    have hins : insertExactTransitionCfg cfgs addr cfg = some cfgs' := hreq
    simp only [atConfig, hins] at hmirrors
    exact hmirrors
  | unknown => cases hreq

/-- A request for what is there changes nothing a lookup can see. -/
theorem mirrors_installed {cfgs cfgs' : TransitionCfgs} {eng : Engine} {req : ConfigRequest}
    (h : Mirrors cfgs eng) (hinstalled : Installed cfgs req)
    (hreq : configured cfgs req = some cfgs') : Mirrors cfgs' eng := by
  have hok := cfgsOk_configured h.ok hreq
  -- A request for one address leaves the generic configuration, and the other
  -- way round.
  cases req with
  | generic cfg =>
    cases hreq
    exact mirrors_congr h hok (Eq.symm hinstalled) fun _ _ => rfl
  | exactAddr addr cfg =>
    by_cases haddr : addr = 0
    · subst haddr
      obtain ⟨_, hgeneric, hexact⟩ := insert_zero h.ok hreq
      exact mirrors_congr h hok hgeneric hexact
    · obtain ⟨_, hgeneric, hexact⟩ := insert_of_ne_zero h.ok haddr hreq
      refine mirrors_congr h hok hgeneric fun a ha => ?_
      rw [hexact a ha]
      split
      · -- The address that is set: the engine holds the configuration installed
        -- there.
        rename_i heq
        rw [heq, hinstalled.resolve_left haddr]
      · rfl
  | unknown => cases hreq

/-- The mirror gets no config for address 0 from a request for another
address. -/
theorem mirror_proper {eng : Engine} {req : ConfigRequest}
    (h : mirroredCfg eng.exactTransitionCfgs 0 = none) (hreq : ∀ cfg, req ≠ .exactAddr 0 cfg) :
    mirroredCfg (eng.mirror req).exactTransitionCfgs 0 = none := by
  cases req with
  | generic cfg => exact h
  | exactAddr addr cfg =>
    have haddr : (0 : UInt64) ≠ addr := by
      intro heq
      subst heq
      exact hreq cfg rfl
    show mirroredCfg (updateFirst addr _ _ _) 0 = none
    rw [mirroredCfg_exact, if_neg haddr, h]
  | unknown => exact h

/-! ### Steps and runs -/

section Steps

variable {n : Nat} {s : ControllerState n}

/-- On a thread that goes where it is sent, `for_each_cpu` is a
broadcast. -/
theorem forEachCpu_placed {place : Fin n → Fin n} (hplace : ∀ c, place c = c)
    (call : Fin n → Vcpu → Vcpu × Bool) (cores : Fin n → Vcpu) :
    forEachCpu place call cores = Broadcast.broadcast call cores := by
  have hid : place = id := funext hplace
  rw [forEachCpu, hid, List.map_id]
  rfl

/-- A thread that goes where it is sent. -/
theorem placed_id (c : Fin n) : id c = c := rfl

/-- The core `c` is left as its own call leaves it. -/
theorem configEptTransition_apply {place : Fin n → Fin n} (hplace : ∀ c, place c = c)
    (sites : Fin n → CallSite) (req : ConfigRequest) (cores : Fin n → Vcpu) (c : Fin n) :
    (configEptTransition place sites req cores).1 c = (configCall (sites c) req (cores c)).1 := by
  rw [configEptTransition, forEachCpu_placed hplace]
  exact Broadcast.broadcast_apply _ cores c

/-- The broadcast reports that all cores have accepted the request. -/
theorem configEptTransition_success_iff (sites : Fin n → CallSite) (req : ConfigRequest)
    (cores : Fin n → Vcpu) :
    (configEptTransition id sites req cores).2 = true ↔ ∀ c, Accepts (sites c) req (cores c) := by
  rw [configEptTransition, forEachCpu_placed placed_id]
  exact (Broadcast.broadcast_success_iff _ cores).trans (forall_congr' fun _ => configCall_snd_iff)

/-- A broadcast of a request keeps all tables well formed. -/
theorem cfgsOk_configEptTransition (h : ∀ c, CfgsOk (s.cores c).transitionCfgs)
    (sites : Fin n → CallSite) (req : ConfigRequest) (c : Fin n) :
    CfgsOk ((configEptTransition id sites req s.cores).1 c).transitionCfgs := by
  rw [configEptTransition_apply placed_id]
  by_cases haccepts : Accepts (sites c) req (s.cores c)
  · exact cfgsOk_configured (h c) (configCall_of_accepts haccepts).2
  · rw [(configCall_of_not_accepts haccepts).2]
    exact h c

/-- A controller that starts sends the default config to all cores, and
has it as its own. -/
theorem mirrorInv_start (h : MirrorInv s) {sites : Fin n → CallSite}
    (hok : KeepsMirror s (.start sites)) :
    MirrorInv ⟨(configEptTransition id sites (.generic defaultGenericCfg) s.cores).1,
      some Engine.start⟩ := by
  have htables := cfgsOk_configEptTransition h.ok sites (.generic defaultGenericCfg)
  refine ⟨htables, fun eng heng c => ?_, fun eng heng => ?_⟩
  · cases heng
    obtain ⟨hcount, hgeneric⟩ := hok c
    have htable := htables c
    show Mirrors ((configEptTransition id sites (.generic defaultGenericCfg) s.cores).1
      c).transitionCfgs .start
    rw [configEptTransition_apply placed_id] at htable ⊢
    -- A core that refuses the request is only mirrored when it holds the
    -- default already.
    by_cases haccepts : Accepts (sites c) (.generic defaultGenericCfg) (s.cores c)
    · have hnew := Option.some.inj (configCall_of_accepts haccepts).2
      rw [← hnew] at htable ⊢
      exact mirrors_start htable hcount rfl
    · rw [(configCall_of_not_accepts haccepts).2] at htable ⊢
      exact mirrors_start htable hcount (hgeneric.resolve_left haccepts)
  · cases heng
    rfl

/-- A request that all cores accept. -/
theorem mirrorInv_accepted (h : MirrorInv s) {eng : Engine} (heng : s.engine = some eng)
    {req : ConfigRequest} {sites : Fin n → CallSite}
    (hall : ∀ c, Accepts (sites c) req (s.cores c)) (hreq : ∀ cfg, req ≠ .exactAddr 0 cfg) :
    MirrorInv ⟨(configEptTransition id sites req s.cores).1, some (eng.mirror req)⟩ := by
  refine ⟨cfgsOk_configEptTransition h.ok sites req, fun eng' heng' c => ?_,
    fun eng' heng' => ?_⟩
  · cases heng'
    show Mirrors ((configEptTransition id sites req s.cores).1 c).transitionCfgs (eng.mirror req)
    rw [configEptTransition_apply placed_id]
    exact mirrors_mirror (h.mirrors eng heng c) (configCall_of_accepts (hall c)).2
  · cases heng'
    exact mirror_proper (h.proper eng heng) hreq

/-- A request that some core refuses. The mirror stays as it is. -/
theorem mirrorInv_refused (h : MirrorInv s) {eng : Engine} (heng : s.engine = some eng)
    {req : ConfigRequest} {sites : Fin n → CallSite}
    (hreq : ∀ c, Accepts (sites c) req (s.cores c) → Installed (s.cores c).transitionCfgs req) :
    MirrorInv ⟨(configEptTransition id sites req s.cores).1, some eng⟩ := by
  refine ⟨cfgsOk_configEptTransition h.ok sites req, fun eng' heng' c => ?_,
    fun eng' heng' => ?_⟩
  · cases heng'
    show Mirrors ((configEptTransition id sites req s.cores).1 c).transitionCfgs eng
    rw [configEptTransition_apply placed_id]
    by_cases haccepts : Accepts (sites c) req (s.cores c)
    · exact mirrors_installed (h.mirrors eng heng c) (hreq c haccepts)
        (configCall_of_accepts haccepts).2
    · rw [(configCall_of_not_accepts haccepts).2]
      exact h.mirrors eng heng c
  · cases heng'
    exact h.proper eng heng

/-- A config goes into the mirror if all cores took it, and under the
condition none took it otherwise. -/
theorem mirrorInv_atConfig (h : MirrorInv s) {eng : Engine} (heng : s.engine = some eng)
    {req : ConfigRequest} {sites : Fin n → CallSite} (hok : KeepsMirror s (.atConfig req sites)) :
    MirrorInv ⟨(configEptTransition id sites req s.cores).1,
      some (if (configEptTransition id sites req s.cores).2 then eng.mirror req else eng)⟩ := by
  have hreport := configEptTransition_success_iff sites req s.cores
  by_cases hall : ∀ c, Accepts (sites c) req (s.cores c)
  · rw [if_pos (hreport.mpr hall)]
    exact mirrorInv_accepted h heng hall ((if_pos hall).mp hok)
  · rw [if_neg fun hsuccess => hall (hreport.mp hsuccess)]
    exact mirrorInv_refused h heng ((if_neg hall).mp hok)

/-- One event of the controller or of the hypervisor. -/
theorem mirrorInv_next (s : ControllerState n) (event : ControllerEvent n)
    (s' : ControllerState n) (h : MirrorInv s) (hok : KeepsMirror s event)
    (hnext : (controllerMachine n).next s event = some s') : MirrorInv s' := by
  -- Requests need an engine and a start needs none: the other combinations are
  -- no step.
  cases event with
  | start sites =>
    cases heng : s.engine with
    | some eng => simp only [controllerMachine, heng, reduceCtorEq] at hnext
    | none =>
      simp only [controllerMachine, heng, Option.some.injEq] at hnext
      subst hnext
      exact mirrorInv_start h hok
  | atConfig req sites =>
    cases heng : s.engine with
    | none => simp only [controllerMachine, heng, reduceCtorEq] at hnext
    | some eng =>
      simp only [controllerMachine, heng, Option.some.injEq] at hnext
      subst hnext
      exact mirrorInv_atConfig h heng hok
  | exit =>
    cases hnext
    -- Without an engine there is nothing to mirror.
    exact ⟨h.ok, nofun, nofun⟩

/-- Behind a load no core has any config, and there is no controller. -/
theorem mirrorInv_loaded {cores : Fin n → Vcpu}
    (h : ∀ c, (cores c).transitionCfgs = zeroedCfgs) : MirrorInv ⟨cores, none⟩ where
  ok c := by
    rw [h c]
    exact ⟨fun p hp => absurd rfl hp, fun _ _ => rfl⟩
  mirrors := nofun
  proper := nofun

end Steps

/-- The controller and every core agree on the config for every guest
RIP, in every state of a run from the load of the hypervisor that gives
no step a reason to set them apart. -/
theorem mirror_agrees {n : Nat} {cores : Fin n → Vcpu}
    (hloaded : ∀ c, (cores c).transitionCfgs = zeroedCfgs) {events : List (ControllerEvent n)}
    (hok : (controllerMachine n).Along KeepsMirror ⟨cores, none⟩ events)
    {s : ControllerState n} (hrun : (controllerMachine n).run ⟨cores, none⟩ events = some s)
    {eng : Engine} (heng : s.engine = some eng) (c : Fin n) (guestRip : UInt64) :
    lookupTransitionCfg (s.cores c).transitionCfgs guestRip =
      (mirroredCfg eng.exactTransitionCfgs guestRip).getD eng.genericTransitionCfg := by
  have hinv := (controllerMachine n).invariant_of_along (I := MirrorInv) mirrorInv_next
    (mirrorInv_loaded hloaded) hok hrun
  have hmirrors := hinv.mirrors eng heng c
  by_cases hrip : guestRip = 0
  · subst hrip
    rw [lookupTransitionCfg_zero, hinv.proper eng heng, hmirrors.generic]
    rfl
  · rw [lookupTransitionCfg_eq hmirrors.ok hrip, hmirrors.exact guestRip hrip, hmirrors.generic]

/-! ### Two cores -/

/-- A call that reaches the hypervisor and whose request can be read. -/
def plainSite : CallSite := ⟨true, true, .zero, fun _ _ => .zero⟩

/-- Two vCPUs as the hypervisor has loaded them. -/
def loadedCores (_ : Fin 2) : Vcpu := { plainVcpu with transitionCfgs := zeroedCfgs }

/-- A config that captures nothing, for one address. -/
def quietRequest : ConfigRequest := .exactAddr 0x1000 ⟨fun _ => .none⟩

/-- The start of a controller, and a config that both cores accept. -/
theorem mirror_agrees_twoCores : ∃ s eng,
    (controllerMachine 2).run ⟨loadedCores, none⟩
      [.start fun _ => plainSite, .atConfig quietRequest fun _ => plainSite] = some s ∧
    s.engine = some eng ∧ ∀ c guestRip,
      lookupTransitionCfg (s.cores c).transitionCfgs guestRip =
        (mirroredCfg eng.exactTransitionCfgs guestRip).getD eng.genericTransitionCfg := by
  have hall : ∀ c, Accepts plainSite quietRequest
      ((configEptTransition id (fun _ => plainSite) (.generic defaultGenericCfg)
        loadedCores).1 c) := by
    intro c
    rw [configEptTransition_apply placed_id]
    exact ⟨rfl, rfl, rfl⟩
  have hproper : ∀ cfg, quietRequest ≠ .exactAddr 0 cfg := by
    intro cfg heq
    injection heq with haddr
    exact absurd haddr (by decide)
  have hok : (controllerMachine 2).Along KeepsMirror ⟨loadedCores, none⟩
      [.start fun _ => plainSite, .atConfig quietRequest fun _ => plainSite] :=
    Machine.along_cons rfl (fun _ => ⟨rfl, Or.inl ⟨rfl, rfl, rfl⟩⟩)
      (Machine.along_cons rfl (keepsMirror_of_all hall hproper) trivial)
  exact ⟨_, _, rfl, rfl, fun c guestRip => mirror_agrees (fun _ => rfl) hok rfl rfl c guestRip⟩

/-- A restart sets the mirror apart from both cores, although every call
has succeeded. -/
theorem restart_forgets : ∃ s eng,
    (controllerMachine 2).run ⟨loadedCores, none⟩
      [.start fun _ => plainSite, .atConfig quietRequest fun _ => plainSite, .exit,
        .start fun _ => plainSite] = some s ∧
    s.engine = some eng ∧ ∀ c,
      lookupTransitionCfg (s.cores c).transitionCfgs 0x1000 ≠
        (mirroredCfg eng.exactTransitionCfgs 0x1000).getD eng.genericTransitionCfg := by
  refine ⟨_, _, rfl, rfl, ?_⟩
  decide +kernel

end Revhv.AtConfig
