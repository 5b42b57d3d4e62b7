import Mathlib.Data.List.TakeWhile
import Revhv.Um.SnapshotFiles

/-!
# `Revhv.Proofs.SnapshotFiles`: the readers of a snapshot undo its writers

* `loadTraceCfg_export`, `loadModules_export`: what the readers make of a
  written file, for lists of any length. The counts are 32 bits wide, so of
  `n` records the first `n % 2 ^ 32` come back.
* `loadTraceCfg_records`: below `2 ^ 32` records the reader of the bytes
  agrees with the reader of the records.
* `loadModules_take`: how much of a module list its reader needs.
* `snapshots_read_back`: the round trips and the rejection of every strict
  prefix of a module list.
-/

set_option autoImplicit false

namespace Revhv.SnapshotFiles

open Revhv.Trace Revhv.AtConfig Revhv.TraceParser Revhv.Lib.RecordLayout

/-! ### Character arrays -/

/-- A string as an array of `n` characters holds it: cut to `n - 1`
characters, up to the first NUL. -/
def cutString (n : Nat) (s : List UInt8) : List UInt8 :=
  (s.take (n - 1)).takeWhile (· ≠ 0)

/-- Without a NUL only the length matters. -/
theorem cutString_of_not_mem (n : Nat) {s : List UInt8} (h : 0 ∉ s) :
    cutString n s = s.take (n - 1) := by
  rw [cutString]
  rw [List.takeWhile_eq_self_iff]
  intro b hb
  have hne : b ≠ 0 := fun hzero => h (hzero ▸ List.mem_of_mem_take hb)
  exact decide_eq_true hne

/-- The characters of an array: the ones copied, then zeros. -/
theorem toList_charArray (n : Nat) (s : List UInt8) :
    (charArray n s).toList
      = s.take (n - 1) ++ List.replicate (n - (s.take (n - 1)).length) 0 := by
  have hlen : (s.take (n - 1)).length ≤ n := by
    rw [List.length_take]
    omega
  rw [charArray, Vector.toList_ofFn]
  apply List.ext_getElem
  · rw [List.length_ofFn, List.length_append, List.length_replicate]
    omega
  · intro i hleft hright
    rw [List.getElem_ofFn, List.getD_eq_getElem?_getD]
    by_cases hi : i < (s.take (n - 1)).length
    · rw [List.getElem_append_left hi, List.getElem?_eq_getElem hi, Option.getD_some]
    · rw [List.getElem_append_right (Nat.le_of_not_lt hi),
        List.getElem_replicate, List.getElem?_eq_none (Nat.le_of_not_lt hi), Option.getD_none]

/-- A string read from the array it was copied to. -/
theorem assign_charArray (n : Nat) (s : List UInt8) : assign (charArray n s) = cutString n s := by
  rw [assign, toList_charArray, cutString, List.takeWhile_append]
  split
  · rename_i hall
    -- The zeros behind the copied characters end the string.
    have hzeros : (List.replicate (n - (s.take (n - 1)).length) (0 : UInt8)).takeWhile (· ≠ 0)
        = [] := by
      rw [List.takeWhile_replicate]
      rfl
    rw [hzeros, List.append_nil]
    exact (List.takeWhile_prefix _).eq_of_length hall |>.symm
  · rfl

/-! ### Sizes -/

/-- The structs have the sizes the compiler gives them. -/
theorem size_layouts :
    traceCfgHeaderLayout.size = 288 ∧ exactEntryLayout.size = 272 ∧
      moduleHeaderLayout.size = 16 ∧ moduleEntryLayout.size = 344 := by
  simp [traceCfgHeaderLayout, exactEntryLayout, transitionCfgLayout, moduleHeaderLayout,
    moduleEntryLayout]

/-! ### Slots -/

/-- A vector has the length it was resized to. -/
theorem length_resize {α : Type} (v : List α) (n : Nat) (fresh : α) :
    (resize v n fresh).length = n := by
  rw [resize, List.length_append, List.length_take, List.length_replicate]
  omega

/-- The records that a 32-bit count lets through, each read back by
itself. -/
theorem readSlots_counted {α β γ : Type} (l : Layout α) (entry : Nat → γ → α) (store : α → β)
    (norm : γ → β) (hnorm : ∀ i c, store (entry i c) = norm c) (items : List γ) (old : List β)
    (fresh : β) :
    readSlots l store (resize old (UInt32.ofNat items.length).toNat fresh)
        (writeRecords l (items.mapIdx entry))
      = ((items.take (items.length % 2 ^ 32)).map norm, true) := by
  have hcount : (UInt32.ofNat items.length).toNat = items.length % 2 ^ 32 := UInt32.toNat_ofNat'
  -- The reader sizes its list by the count of the header, which is cut to 32
  -- bits.
  have hlen : (resize old (UInt32.ofNat items.length).toNat fresh).length
      = items.length % 2 ^ 32 := by
    rw [length_resize, hcount]
  have hle : items.length % 2 ^ 32 ≤ items.length := Nat.mod_le _ _
  rw [readSlots_records l store (by rw [hlen, List.length_mapIdx]; exact hle), hlen]
  have hmap : (items.mapIdx entry).map store = items.map norm := by
    apply List.ext_getElem
    · rw [List.length_map, List.length_mapIdx, List.length_map]
    · intro i hleft hright
      rw [List.getElem_map, List.getElem_mapIdx, hnorm, List.getElem_map]
  rw [List.map_take, hmap, List.map_take]

/-! ### `trace_cfg.bin` -/

/-- A mirrored exact config with its format as the file holds it. -/
def cutFormat (e : ExactCfgEntry) : ExactCfgEntry :=
  { e with fmt := cutString maxFormatLength e.fmt }

/-- An exact config is read back with its format cut. -/
theorem loadExactEntry_exactEntry (tail : Vector UInt8 2) (e : ExactCfgEntry) :
    loadExactEntry (exactEntry tail e) = cutFormat e := by
  show ExactCfgEntry.mk e.addr e.cfg (assign (charArray maxFormatLength e.fmt)) = _
  rw [assign_charArray]
  rfl

/-- Behind a good header the reader takes the generic config from the
header and fills one slot for each counted exact config. -/
theorem loadTraceCfg_of_header (p : Parser) (tail : Vector UInt8 2) (eng : Engine)
    {file stream : List UInt8}
    (h : readRecord traceCfgHeaderLayout file = some (traceCfgHeader tail eng, stream)) :
    loadTraceCfg p file =
      { genericCfg := eng.genericTransitionCfg
        genericFmt := assign (charArray maxFormatLength eng.genericTransitionFmt)
        exactCfgs := (readSlots exactEntryLayout loadExactEntry (resize p.exactCfgs
          (UInt32.ofNat eng.exactTransitionCfgs.length).toNat freshExactCfg) stream).1
        ripSlot := findDataSlot eng.genericTransitionCfg .guestRip } := by
  have hgood : ¬((traceCfgHeader tail eng).magic ≠ traceCfgMagic ∨
      (traceCfgHeader tail eng).version ≠ traceCfgVersion) := by
    simp only [traceCfgHeader, ne_eq, not_true, or_self, not_false_eq_true]
  unfold loadTraceCfg
  rewrite [h]
  exact if_neg hgood

/-- What `load_trace_cfg` makes of an exported configuration. -/
theorem loadTraceCfg_export (tails : Nat → Vector UInt8 2) (eng : Engine) (p : Parser) :
    loadTraceCfg p (exportTraceConfig tails eng) =
      { genericCfg := eng.genericTransitionCfg
        genericFmt := cutString maxFormatLength eng.genericTransitionFmt
        exactCfgs := (eng.exactTransitionCfgs.take
          (eng.exactTransitionCfgs.length % 2 ^ 32)).map cutFormat
        ripSlot := findDataSlot eng.genericTransitionCfg .guestRip } := by
  rw [exportTraceConfig,
    loadTraceCfg_of_header p (tails 0) eng (readRecord_toBytes _ _ _), assign_charArray,
    readSlots_counted exactEntryLayout (fun i e => exactEntry (tails (i + 1)) e)
      loadExactEntry cutFormat fun i e => loadExactEntry_exactEntry (tails (i + 1)) e]

/-- Below `2 ^ 32` exact configs the bytes carry what the records do. -/
theorem loadTraceCfg_records (tails : Nat → Vector UInt8 2) (eng : Engine) (p : Parser)
    (h : eng.exactTransitionCfgs.length < 2 ^ 32) :
    loadTraceCfg p (exportTraceConfig tails eng)
      = TraceParser.loadTraceCfg (AtConfig.exportTraceConfig eng) := by
  rw [loadTraceCfg_export, Nat.mod_eq_of_lt h, List.take_length]
  rfl

/-! ### The module list -/

/-- A module with its strings as the file holds them. -/
def cutModule (mod : ModuleInfo) : ModuleInfo :=
  { mod with
    name := cutString maxNameLength mod.name
    fullPath := cutString maxPathLength mod.fullPath }

/-- A module is read back with its strings cut. -/
theorem loadModuleEntry_moduleEntry (tail : Vector UInt8 4) (mod : ModuleInfo) :
    loadModuleEntry (moduleEntry tail mod) = cutModule mod := by
  show ModuleInfo.mk mod.base mod.size (assign (charArray maxNameLength mod.name))
    (assign (charArray maxPathLength mod.fullPath)) = _
  rw [assign_charArray, assign_charArray]
  rfl

/-- The records of an exported module list. -/
def moduleEntries (tails : Nat → Vector UInt8 4) (modules : List ModuleInfo) : List ModuleEntry :=
  modules.mapIdx fun i mod => moduleEntry (tails i) mod

/-- The bytes of the file of a module list that is not empty. -/
theorem exportModules_of_ne (tails : Nat → Vector UInt8 4) {modules : List ModuleInfo}
    (h : modules ≠ []) :
    exportModules tails modules = some (moduleHeaderLayout.toBytes (moduleHeader modules) ++
      writeRecords moduleEntryLayout (moduleEntries tails modules)) := if_neg h

/-- Behind a good header the reader fills one slot for each counted
module. -/
theorem loadModules_of_header (old : List ModuleInfo) (modules : List ModuleInfo)
    {file stream : List UInt8}
    (h : readRecord moduleHeaderLayout file = some (moduleHeader modules, stream)) :
    loadModules old file = readSlots moduleEntryLayout loadModuleEntry
      (resize old (UInt32.ofNat modules.length).toNat freshModule) stream := by
  have hgood : ¬((moduleHeader modules).magic ≠ moduleMagic ∨
      (moduleHeader modules).version ≠ moduleVersion) := by
    simp only [moduleHeader, ne_eq, not_true, or_self, not_false_eq_true]
  rw [loadModules, h]
  simp only [if_neg hgood]
  rfl

/-- What `load_modules` makes of an exported module list. -/
theorem loadModules_export (tails : Nat → Vector UInt8 4) (modules old : List ModuleInfo) :
    loadModules old (moduleHeaderLayout.toBytes (moduleHeader modules) ++
        writeRecords moduleEntryLayout (moduleEntries tails modules))
      = ((modules.take (modules.length % 2 ^ 32)).map cutModule, true) := by
  rw [loadModules_of_header old modules (readRecord_toBytes _ _ _)]
  exact readSlots_counted moduleEntryLayout (fun i mod => moduleEntry (tails i) mod)
    loadModuleEntry cutModule (fun i mod => loadModuleEntry_moduleEntry (tails i) mod) modules old
    freshModule

/-- `load_modules` accepts the first `k` bytes of an exported module
list exactly when the header and the records it counts are among them. -/
theorem loadModules_take (tails : Nat → Vector UInt8 4) (modules old : List ModuleInfo) (k : Nat)
    (hk : k ≤ moduleHeaderLayout.size + modules.length * moduleEntryLayout.size) :
    (loadModules old ((moduleHeaderLayout.toBytes (moduleHeader modules) ++
        writeRecords moduleEntryLayout (moduleEntries tails modules)).take k)).2 = true ↔
      moduleHeaderLayout.size + modules.length % 2 ^ 32 * moduleEntryLayout.size ≤ k := by
  have hrecords : (writeRecords moduleEntryLayout (moduleEntries tails modules)).length
      = modules.length * moduleEntryLayout.size := by
    rw [length_writeRecords, moduleEntries, List.length_mapIdx]
  have hcount : (UInt32.ofNat modules.length).toNat = modules.length % 2 ^ 32 :=
    UInt32.toNat_ofNat'
  by_cases hhead : moduleHeaderLayout.size ≤ k
  · rw [loadModules_of_header old modules (readRecord_take _ _ _ hhead), readSlots_snd_iff,
      length_resize, hcount, List.length_take, hrecords]
    omega
  · -- Too short for the header: the reader stops before it looks at the count.
    have hshort : ((moduleHeaderLayout.toBytes (moduleHeader modules) ++
        writeRecords moduleEntryLayout (moduleEntries tails modules)).take k).length
          < moduleHeaderLayout.size := by
      rw [List.length_take]
      omega
    rw [loadModules, readRecord_short _ hshort]
    constructor
    · intro hfalse
      cases hfalse
    · intro hle
      omega

/-- Every strict prefix of the file of fewer than `2 ^ 32` modules is
rejected. -/
theorem loadModules_strictPrefix (tails : Nat → Vector UInt8 4) (modules old : List ModuleInfo)
    {file pre : List UInt8} (hcount : modules.length < 2 ^ 32)
    (hfile : exportModules tails modules = some file) (hpre : pre <+: file) (hne : pre ≠ file) :
    (loadModules old pre).2 = false := by
  have hnonempty : modules ≠ [] := by
    intro hnil
    rw [exportModules, if_pos hnil] at hfile
    cases hfile
  rw [exportModules_of_ne tails hnonempty] at hfile
  have hbytes := Option.some.inj hfile
  have hlen : file.length
      = moduleHeaderLayout.size + modules.length * moduleEntryLayout.size := by
    rw [← hbytes, List.length_append, moduleHeaderLayout.length_toBytes, length_writeRecords,
      moduleEntries, List.length_mapIdx]
  have hshort : pre.length < file.length := by
    rcases Nat.lt_or_ge pre.length file.length with hlt | hge
    · exact hlt
    · exact absurd (hpre.eq_of_length_le hge) hne
  have htake := loadModules_take tails modules old pre.length (by omega)
  rw [hbytes, ← List.prefix_iff_eq_take.mp hpre, Nat.mod_eq_of_lt hcount] at htake
  -- If the prefix loads, it holds every record the count promises.
  cases hres : (loadModules old pre).2 with
  | false => rfl
  | true =>
    have hle := htake.mp hres
    omega

/-- The readers of a snapshot undo its writers, as long as the 32-bit
counts hold the number of records: the generic config, the exact configs
in their order and the formats cut to 255 characters; the modules in
their order, names and paths cut to 63 and 259 characters and up to
their first NUL; and a module list that is not there in full is
rejected. -/
theorem snapshots_read_back :
    (∀ (tails : Nat → Vector UInt8 2) (eng : Engine) (p : Parser),
      eng.exactTransitionCfgs.length < 2 ^ 32 → 0 ∉ eng.genericTransitionFmt →
      (∀ e ∈ eng.exactTransitionCfgs, 0 ∉ e.fmt) →
      (loadTraceCfg p (exportTraceConfig tails eng)).genericCfg = eng.genericTransitionCfg ∧
      (loadTraceCfg p (exportTraceConfig tails eng)).genericFmt
        = eng.genericTransitionFmt.take 255 ∧
      (loadTraceCfg p (exportTraceConfig tails eng)).exactCfgs
        = eng.exactTransitionCfgs.map fun e => { e with fmt := e.fmt.take 255 }) ∧
    (∀ (tails : Nat → Vector UInt8 4) (modules old : List ModuleInfo),
      modules ≠ [] → modules.length < 2 ^ 32 →
      ∃ file, exportModules tails modules = some file ∧
        loadModules old file = (modules.map fun mod =>
          { mod with
            name := (mod.name.take 63).takeWhile (· ≠ 0)
            fullPath := (mod.fullPath.take 259).takeWhile (· ≠ 0) }, true)) ∧
    (∀ (tails : Nat → Vector UInt8 4) (modules old : List ModuleInfo) (file pre : List UInt8),
      modules.length < 2 ^ 32 → exportModules tails modules = some file →
      pre <+: file → pre ≠ file → (loadModules old pre).2 = false) := by
  refine ⟨?_, ?_, ?_⟩
  · intro tails eng p hcount hgeneric hexact
    rw [loadTraceCfg_export, Nat.mod_eq_of_lt hcount, List.take_length]
    refine ⟨rfl, cutString_of_not_mem _ hgeneric, ?_⟩
    apply List.map_congr_left
    intro e he
    exact congrArg (ExactCfgEntry.mk e.addr e.cfg) (cutString_of_not_mem _ (hexact e he))
  · intro tails modules old hne hcount
    refine ⟨_, exportModules_of_ne tails hne, ?_⟩
    rw [loadModules_export, Nat.mod_eq_of_lt hcount, List.take_length]
    rfl
  · intro tails modules old file pre hcount hfile hpre hne
    exact loadModules_strictPrefix tails modules old hcount hfile hpre hne

/-- An engine with two exact configs, the second with a format that is
too long. -/
def longFormatEngine : Engine :=
  ⟨defaultGenericCfg, [123, 125],
    [⟨4096, defaultGenericCfg, [82]⟩, ⟨8192, ⟨fun _ => .none⟩, List.replicate 300 65⟩]⟩

/-- Two modules, the second with a NUL in its name and a path that is
too long. -/
def longPathModules : List ModuleInfo :=
  [⟨4096, 8192, [78], [67]⟩, ⟨65536, 4096, [78, 0, 78], List.replicate 300 67⟩]

/-- The round trips of two exact configs and of two modules, and the
module list without its last byte. -/
theorem snapshots_read_back_single :
    (loadTraceCfg ⟨defaultGenericCfg, [], [], none⟩ (exportTraceConfig
        (fun i => Vector.replicate 2 (UInt8.ofNat i)) longFormatEngine)).exactCfgs
      = [⟨4096, defaultGenericCfg, [82]⟩, ⟨8192, ⟨fun _ => .none⟩, List.replicate 255 65⟩] ∧
    ∃ file, exportModules (fun i => Vector.replicate 4 (UInt8.ofNat i)) longPathModules =
        some file ∧
      loadModules [] file = ([⟨4096, 8192, [78], [67]⟩,
        ⟨65536, 4096, [78], List.replicate 259 67⟩], true) ∧
      (loadModules [] file.dropLast).2 = false := by
  obtain ⟨hcfg, hmodules, hprefix⟩ := snapshots_read_back
  have hcut : longFormatEngine.exactTransitionCfgs.map (fun e => { e with fmt := e.fmt.take 255 }) =
      [⟨4096, defaultGenericCfg, [82]⟩, ⟨8192, ⟨fun _ => .none⟩, List.replicate 255 65⟩] := by
    simp [longFormatEngine, -List.reduceReplicate]
  have hcut' : longPathModules.map (fun mod => { mod with
        name := (mod.name.take 63).takeWhile (· ≠ 0)
        fullPath := (mod.fullPath.take 259).takeWhile (· ≠ 0) }) =
      [⟨4096, 8192, [78], [67]⟩, ⟨65536, 4096, [78], List.replicate 259 67⟩] := by
    simp [longPathModules, -List.reduceReplicate]
  refine ⟨(hcfg _ longFormatEngine _ (by decide) (by decide) (by decide)).2.2.trans hcut, ?_⟩
  obtain ⟨file, hfile, hread⟩ := hmodules (fun i => Vector.replicate 4 (UInt8.ofNat i))
    longPathModules [] (by decide) (by decide)
  rw [hcut'] at hread
  refine ⟨file, hfile, hread, ?_⟩
  refine hprefix _ longPathModules [] file file.dropLast (by decide) hfile
    (List.dropLast_prefix file) fun hsame => ?_
  -- Only the empty file is its own prefix here, and it is not accepted.
  have hlength := congrArg List.length hsame
  rw [List.length_dropLast] at hlength
  have hempty : file = [] := List.eq_nil_of_length_eq_zero (by omega)
  rw [hempty] at hread
  cases congrArg Prod.snd hread

/-- Of a multiple of `2 ^ 32` exact configs none comes back. -/
theorem exactCfgs_overflow (tails : Nat → Vector UInt8 2) (cfg : EptTransitionCfg)
    (fmt : List UInt8) (p : Parser) (e : ExactCfgEntry) (n : Nat) (h : n % 2 ^ 32 = 0) :
    (loadTraceCfg p (exportTraceConfig tails ⟨cfg, fmt, List.replicate n e⟩)).exactCfgs = [] := by
  rw [loadTraceCfg_export, List.length_replicate, h, List.take_zero]
  rfl

/-- The header alone passes for the file of a multiple of `2 ^ 32`
modules. -/
theorem loadModules_overflow (tails : Nat → Vector UInt8 4) (mod : ModuleInfo) (n : Nat)
    (hpos : 0 < n) (h : n % 2 ^ 32 = 0) :
    ∃ file pre, exportModules tails (List.replicate n mod) = some file ∧ pre <+: file ∧
      pre ≠ file ∧ (loadModules [] pre).2 = true := by
  have hne : List.replicate n mod ≠ [] := by
    intro hnil
    have hlen := congrArg List.length hnil
    rw [List.length_replicate, List.length_nil] at hlen
    omega
  refine ⟨_, _, exportModules_of_ne tails hne, List.take_prefix moduleHeaderLayout.size _, ?_,
    (loadModules_take tails _ [] _ (Nat.le_add_right _ _)).mpr ?_⟩
  · -- The header alone is shorter than the file, which has a record.
    intro heq
    have hlen := congrArg List.length heq
    rw [List.length_take, List.length_append, moduleHeaderLayout.length_toBytes,
      length_writeRecords, moduleEntries, List.length_mapIdx, List.length_replicate,
      size_layouts.2.2.2] at hlen
    omega
  · -- The count in the header is 0, so no record is asked for.
    rw [List.length_replicate, h, Nat.zero_mul]
    exact Nat.le_refl _

/-- The 32-bit counts lose `2 ^ 32` exact configs and let the header
pass for a file of `2 ^ 32` modules, and a module name ends at its first
NUL. -/
theorem snapshots_lossy :
    (loadTraceCfg ⟨defaultGenericCfg, [], [], none⟩ (exportTraceConfig
        (fun _ => Vector.replicate 2 0)
        ⟨defaultGenericCfg, [], List.replicate (2 ^ 32) freshExactCfg⟩)).exactCfgs = [] ∧
    (∃ file, exportModules (fun _ => Vector.replicate 4 0) [⟨4096, 8192, [78, 0, 78], [67]⟩]
        = some file ∧
      loadModules [] file = ([⟨4096, 8192, [78], [67]⟩], true)) ∧
    (∃ file pre, exportModules (fun _ => Vector.replicate 4 0)
        (List.replicate (2 ^ 32) ⟨4096, 8192, [78], [67]⟩) = some file ∧
      pre <+: file ∧ pre ≠ file ∧ (loadModules [] pre).2 = true) := by
  refine ⟨?_, ⟨_, exportModules_of_ne _ (by decide), ?_⟩, ?_⟩
  · exact exactCfgs_overflow (fun _ => Vector.replicate 2 0) defaultGenericCfg []
      ⟨defaultGenericCfg, [], [], none⟩ freshExactCfg (2 ^ 32) (Nat.mod_self _)
  · exact loadModules_export _ _ _
  · exact loadModules_overflow (fun _ => Vector.replicate 4 0) ⟨4096, 8192, [78], [67]⟩ (2 ^ 32)
      (Nat.two_pow_pos 32) (Nat.mod_self _)

end Revhv.SnapshotFiles
