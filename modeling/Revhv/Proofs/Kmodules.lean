import Revhv.Proofs.Numbers
import Revhv.Um.Kmodules

/-!
# `Revhv.Proofs.Kmodules`: a printed address read back

The symbolic part that `resolve_address` prints, given to `parse_expression`.

* `parseHexOffset_toHexstr`: an offset as printed is read as it was.
* `parseExpression_resolveAddress`: the names for which the printed address comes
  back.
* `printed_names_lost`: names for which it does not, one for each condition.
-/

set_option autoImplicit false

namespace Revhv.Kmodules

open Revhv.Lib Revhv.Numbers Revhv.Symbols

/-! ### Offsets and numbers -/

/-- The text of a 64-bit number is a number of the grammar. -/
theorem numeral_toHexstr (value : UInt64) : Numeral (toHexstr value) value.toNat := by
  have hdigits : ∀ c ∈ toHex value.toNat, isHexDigit c = true := fun c hc =>
    isHexDigit_of_mem_toHex hc
  have hfilter : (toHex value.toNat).filter (!isSeparator ·) = toHex value.toNat :=
    List.filter_eq_self.mpr fun c hc => by simp [isSeparator_of_isHexDigit (hdigits c hc)]
  unfold Numeral toHexstr
  rw [hfilter]
  have hvalue := hexValue_toHex value.toNat
  have hcount : (significant (toHex value.toNat)).length ≤ 16 := by
    rw [← hexValue_lt_iff hdigits, hvalue]
    have := value.toNat_lt
    omega
  have hform := Form.plain _ ⟨toHex_ne_nil _, hdigits, hcount⟩
  rwa [hvalue] at hform

/-- An offset as printed is read as it was. -/
theorem parseHexOffset_toHexstr (value : UInt64) : parseHexOffset (toHexstr value) = some value := by
  have hnumeral := numeral_toHexstr value
  have hdigits : ∀ c ∈ toHexstr value, isHexDigit c = true := fun c hc =>
    isHexDigit_of_mem_toHex hc
  have hread := stoull_numeral_iff hnumeral
  rw [UInt64.ofNat_toNat] at hread
  rw [parseHexOffset_eq, hread]
  refine ⟨?_, .inr ?_⟩
  · cases htext : toHexstr value with
    | nil => exact absurd htext (toHex_ne_nil _)
    | cons c rest => exact ⟨c, rfl, hdigits c (htext ▸ List.mem_cons_self)⟩
  · -- No separator at all.
    have hdrop : (toHexstr value).dropWhile (!isSeparator ·) = [] :=
      List.dropWhile_eq_nil_iff.mpr fun c hc => by simp [isSeparator_of_isHexDigit (hdigits c hc)]
    rw [behindSeparator, hdrop, List.filter_nil]

/-- The characters of a number: digits, the letters of its markers, and
separators. -/
theorem char_of_numeral {s : List UInt8} {v : Nat} (hnumeral : Numeral s v) {c : UInt8}
    (hc : c ∈ s) :
    isHexDigit c = true ∨ isX c = true ∨ isH c = true ∨ isSeparator c = true := by
  by_cases hsep : isSeparator c = true
  · tauto
  have hmem : c ∈ s.filter (!isSeparator ·) := List.mem_filter.mpr ⟨hc, by simpa using hsep⟩
  unfold Numeral at hnumeral
  generalize s.filter (!isSeparator ·) = sanitized at hnumeral hmem
  -- The prefix and suffix letters are the only characters that are no digits.
  cases hnumeral with
  | prefixed x ds hx hds =>
    rcases List.mem_cons.mp hmem with rfl | hmem
    · left
      rfl
    · rcases List.mem_cons.mp hmem with rfl | hmem
      · tauto
      · exact .inl (hds.2.1 c hmem)
  | suffixed h ds hh hds =>
    rcases List.mem_append.mp hmem with hmem | hmem
    · exact .inl (hds.2.1 c hmem)
    · rw [List.mem_singleton.mp hmem]
      tauto
  | plain _ hds => exact .inl (hds.2.1 c hmem)

/-- A text with a `!`, a `:` or a `+` is no number. -/
theorem parseU64Token_of_split {s : List UInt8} {c : UInt8} (hc : c ∈ s)
    (hsplit : isSplit c = true) : parseU64Token s = none := by
  rw [Option.eq_none_iff_forall_ne_some]
  intro v hv
  have hchar := char_of_numeral ((parseU64Token_eq_some_iff s v).mp hv) hc
  simp only [isSplit, Bool.or_eq_true, beq_iff_eq] at hsplit
  rcases hsplit with (rfl | rfl) | rfl <;> exact absurd hchar (by decide)

/-! ### Splitting -/

/-- A name without a separator, and the text from its separator on. -/
theorem split_name {name : Text} (hplain : ∀ c ∈ name, isSplit c = false) {sep : UInt8}
    (hsep : isSplit sep = true) (rest : Text) :
    (name ++ sep :: rest).takeWhile (!isSplit ·) = name
      ∧ (name ++ sep :: rest).dropWhile (!isSplit ·) = sep :: rest := by
  have hall : ∀ c ∈ name, (!isSplit c) = true := fun c hc => by simp [hplain c hc]
  rw [List.takeWhile_append_of_pos hall, List.dropWhile_append_of_pos hall,
    List.takeWhile_cons_of_neg (by simp [hsep]), List.dropWhile_cons_of_neg (by simp [hsep]),
    List.append_nil]
  exact ⟨rfl, rfl⟩

/-- A name without a `+`, as the part behind the separator. -/
theorem splitOffset_plain {name : Text} (hplus : '+'.toUInt8 ∉ name) :
    splitOffset name = some (name, 0) := by
  have hdrop : name.dropWhile (· != '+'.toUInt8) = [] :=
    List.dropWhile_eq_nil_iff.mpr fun c hc => by
      simp only [bne_iff_ne, ne_eq]
      rintro rfl
      exact hplus hc
  unfold splitOffset
  rw [hdrop]

/-- A name without a `+`, with an offset behind it. -/
theorem splitOffset_offset {name : Text} (hplus : '+'.toUInt8 ∉ name) (offset : UInt64) :
    splitOffset (name ++ '+'.toUInt8 :: toHexstr offset) = some (name, offset) := by
  have hall : ∀ c ∈ name, (c != '+'.toUInt8) = true := fun c hc => by
    simp only [bne_iff_ne, ne_eq]
    rintro rfl
    exact hplus hc
  unfold splitOffset
  rw [List.dropWhile_append_of_pos hall, List.takeWhile_append_of_pos hall,
    List.dropWhile_cons_of_neg (by simp), List.takeWhile_cons_of_neg (by simp)]
  simp only [parseHexOffset_toHexstr, List.append_nil, Option.map_some]

/-! ### The round trip -/

section
variable {modules : List Kmodule} {parsed : Kmodule → Option Pe}

/-- The name that the parser looks up for a module finds the module: its
name has no extension that is stripped, is not replaced by an alias, and
no module before it has it. -/
def Found (modules : List Kmodule) (mod : Kmodule) : Prop :=
  getModuleByName modules (lookupName mod.name) = some mod

/-- An expression with a separator behind the name of a module. -/
theorem parseExpression_split {mod : Kmodule} (hplain : ∀ c ∈ mod.name, isSplit c = false)
    (hfound : Found modules mod) {sep : UInt8} (hsep : isSplit sep = true) (rest : Text) :
    parseExpression modules parsed (mod.name ++ sep :: rest)
      = if sep = '+'.toUInt8 then (parseHexOffset rest).map (mod.base + ·)
        else
          match splitOffset rest with
          | none => none
          | some (namePart, trailingOffset) =>
            if sep = ':'.toUInt8 then
              (parsed mod).bind fun pe =>
                (pe.sections.find? fun sect => stripDot sect.name == stripDot namePart).map
                  fun sect => mod.base + sect.rva + trailingOffset
            else
              (parsed mod).bind fun pe =>
                (pe.symbols.find? fun sym => sym.name == namePart).map
                  fun sym => mod.base + sym.rva + trailingOffset := by
  -- The separator keeps the expression from being read as a number.
  have hmem : sep ∈ mod.name ++ sep :: rest := List.mem_append_right _ List.mem_cons_self
  rcases split_name hplain hsep rest with ⟨htake, hdrop⟩
  unfold Found at hfound
  unfold parseExpression resolveSymbol
  rw [parseU64Token_of_split hmem hsep]
  simp only [htake, hdrop, hfound]
  refine (if_neg (by simp)).trans ?_
  rfl

/-- An offset behind the name of a module. -/
theorem parseExpression_offset {mod : Kmodule} (hplain : ∀ c ∈ mod.name, isSplit c = false)
    (hfound : Found modules mod) (offset : UInt64) :
    parseExpression modules parsed (mod.name ++ lit "+" ++ toHexstr offset)
      = some (mod.base + offset) := by
  rw [List.append_assoc, show lit "+" ++ toHexstr offset = '+'.toUInt8 :: toHexstr offset from rfl,
    parseExpression_split hplain hfound (by rfl), if_pos rfl, parseHexOffset_toHexstr]
  rfl

/-- The name of a module alone. -/
theorem parseExpression_name {mod : Kmodule} (hplain : ∀ c ∈ mod.name, isSplit c = false)
    (hfound : Found modules mod) (hnil : mod.name ≠ []) (hnumber : parseU64Token mod.name = none) :
    parseExpression modules parsed mod.name = some mod.base := by
  have hall : ∀ c ∈ mod.name, (!isSplit c) = true := fun c hc => by simp [hplain c hc]
  unfold Found at hfound
  unfold parseExpression resolveSymbol
  simp only [hnumber, if_neg hnil, List.takeWhile_eq_self_iff.mpr hall,
    List.dropWhile_eq_nil_iff.mpr hall, hfound]

/-- A symbol behind the name of its module. The first symbol of its name
has its address. -/
theorem parseExpression_symbol {mod : Kmodule} {pe : Pe} {symbol : SymbolInfo}
    (hplain : ∀ c ∈ mod.name, isSplit c = false) (hfound : Found modules mod)
    (hparsed : parsed mod = some pe) (hmem : symbol ∈ pe.symbols)
    (hfirst : ∀ s, pe.symbols.find? (·.name == symbol.name) = some s → s.rva = symbol.rva)
    {rest : Text} {offset : UInt64} (hrest : splitOffset rest = some (symbol.name, offset)) :
    parseExpression modules parsed (mod.name ++ '!'.toUInt8 :: rest)
      = some (mod.base + symbol.rva + offset) := by
  rw [parseExpression_split hplain hfound (by rfl), if_neg (by decide), hrest]
  simp only [if_neg (show '!'.toUInt8 ≠ ':'.toUInt8 by decide), hparsed, Option.bind_some]
  cases hfind : pe.symbols.find? (fun sym => sym.name == symbol.name) with
  | none =>
    have h := List.find?_eq_none.mp hfind symbol hmem
    simp at h
  | some s => rw [Option.map_some, hfirst s hfind]

/-- The address of a module that contains it, from the offset into it. -/
theorem base_add_sub (base address : UInt64) : base + (address - base) = address := by
  rw [UInt64.add_comm, UInt64.sub_add_cancel]

/-- The symbol that `resolve_address` prints for an address of a module. -/
def printedSymbol (parsed : Kmodule → Option Pe) (mod : Kmodule) (address : UInt64) :
    Option SymbolInfo :=
  (parsed mod).bind fun pe => getClosestSymbol pe.symbols (address - mod.base)

/-- The printed address comes back. -/
def RoundTrips (modules : List Kmodule) (parsed : Kmodule → Option Pe) (address : UInt64) : Prop :=
  parseExpression modules parsed (resolveAddress modules parsed address).symbolic = some address

/-- The symbolic part that is printed for an address of a module is read
as this address, for modules that do not overlap, when the name of the
module has no separator and finds the module; for the first byte of the
module, the name is not empty and no number; and for another address,
the printed symbol has no `+` in its name, and the first symbol of that
name has its address. -/
theorem parseExpression_resolveAddress {mod : Kmodule} {address : UInt64}
    (hdisjoint : Disjoint modules) (hmod : mod ∈ modules) (hin : mod.contains address = true)
    (hplain : ∀ c ∈ mod.name, isSplit c = false) (hfound : Found modules mod)
    (hstart : address = mod.base → mod.name ≠ [] ∧ parseU64Token mod.name = none)
    (hsymbol : address ≠ mod.base → ∀ pe symbol, parsed mod = some pe →
      printedSymbol parsed mod address = some symbol →
      '+'.toUInt8 ∉ symbol.name
        ∧ ∀ s, pe.symbols.find? (·.name == symbol.name) = some s → s.rva = symbol.rva) :
    RoundTrips modules parsed address := by
  unfold RoundTrips resolveAddress
  rw [find_contains hdisjoint hmod hin]
  have hbase := base_add_sub mod.base address
  have hzero : address - mod.base = 0 ↔ address = mod.base := by
    constructor
    · intro h
      rw [← hbase, h, UInt64.add_zero]
    · rintro rfl
      exact UInt64.sub_self _
  unfold resolveIn
  by_cases hrva : address - mod.base = 0
  · rcases hstart (hzero.mp hrva) with ⟨hnil, hnumber⟩
    simp only [if_pos hrva]
    rw [parseExpression_name hplain hfound hnil hnumber, hzero.mp hrva]
  simp only [if_neg hrva]
  have hne : address ≠ mod.base := fun h => hrva (hzero.mpr h)
  cases hparsed : parsed mod with
  | none =>
    simp only
    rw [parseExpression_offset hplain hfound, hbase]
  | some pe =>
    cases hclosest : getClosestSymbol pe.symbols (address - mod.base) with
    | none =>
      simp only [hclosest]
      rw [parseExpression_offset hplain hfound, hbase]
    | some symbol =>
      have hprinted : printedSymbol parsed mod address = some symbol := by
        rw [printedSymbol, hparsed]
        exact hclosest
      rcases hsymbol hne pe symbol hparsed hprinted with ⟨hplus, hfirst⟩
      have hmem := (getClosestSymbol_le hclosest).1
      -- The address is the module's base, the symbol's address and the printed offset.
      have hsum : mod.base + symbol.rva + (address - mod.base - symbol.rva) = address := by
        rw [UInt64.add_assoc, base_add_sub symbol.rva, hbase]
      by_cases hoffset : address - mod.base - symbol.rva = 0
      · simp only [hclosest, if_pos hoffset]
        rw [List.append_assoc, show lit "!" ++ symbol.name = '!'.toUInt8 :: symbol.name from rfl,
          parseExpression_symbol hplain hfound hparsed hmem hfirst (splitOffset_plain hplus),
          ← hoffset, hsum]
      · simp only [hclosest, if_neg hoffset]
        rw [List.append_assoc, List.append_assoc, List.append_assoc,
          show lit "!" ++ (symbol.name ++ (lit "+" ++ toHexstr (address - mod.base - symbol.rva)))
            = '!'.toUInt8 :: (symbol.name ++ '+'.toUInt8
                :: toHexstr (address - mod.base - symbol.rva)) from rfl,
          parseExpression_symbol hplain hfound hparsed hmem hfirst (splitOffset_offset hplus _),
          hsum]

end

/-- A module at an address, of one page. -/
def sampleModule (base : UInt64) (name : String) : Kmodule := ⟨base, 0x1000, lit name, []⟩

/-- An image without sections, with these symbols. -/
def sampleImage (symbols : List (String × UInt64)) : Kmodule → Option Pe := fun _ =>
  some ⟨[], symbols.map fun symbol => ⟨lit symbol.1, symbol.2⟩⟩

/-- A symbol with an offset behind it. -/
theorem parseExpression_resolveAddress_symbol :
    RoundTrips [sampleModule 0x20000 "cdd"]
      (sampleImage [("Entry", 0x100), ("Exit", 0x200)]) 0x20240 :=
  parseExpression_resolveAddress (List.pairwise_singleton _ _)
    (List.mem_singleton_self _) (by decide +kernel)
    (by decide +kernel) (show getModuleByName _ _ = _ by decide +kernel) (by decide +kernel)
    (by
      rintro - pe symbol hpe hsymbol
      cases hpe
      have hprinted : printedSymbol (sampleImage [("Entry", 0x100), ("Exit", 0x200)])
          (sampleModule 0x20000 "cdd") 0x20240 = some ⟨lit "Exit", 0x200⟩ := by decide +kernel
      rw [hsymbol, Option.some.injEq] at hprinted
      subst hprinted
      refine ⟨by decide +kernel, ?_⟩
      intro s hs
      simp [lit] at hs
      rw [← hs])

/-- Names that are lost: a number, a stripped extension, an alias, a
separator in the name, a second module of one name, a symbol with a `+`,
and a second symbol of one name. -/
theorem printed_names_lost :
    ¬ RoundTrips [sampleModule 0x10000 "cdd"] (fun _ => none) 0x10000
      ∧ ¬ RoundTrips [sampleModule 0x10000 "filter.sys"] (fun _ => none) 0x10010
      ∧ ¬ RoundTrips [sampleModule 0x10000 "nt"] (fun _ => none) 0x10010
      ∧ ¬ RoundTrips [sampleModule 0x10000 "a+b"] (fun _ => none) 0x10010
      ∧ ¬ RoundTrips [sampleModule 0x10000 "dump", sampleModule 0x20000 "dump"]
          (fun _ => none) 0x20010
      ∧ ¬ RoundTrips [sampleModule 0x10000 "driver"] (sampleImage [("operator+", 0x100)]) 0x10100
      ∧ ¬ RoundTrips [sampleModule 0x10000 "driver"]
          (sampleImage [("Stub", 0x100), ("Stub", 0x200)]) 0x10200 := by
  unfold RoundTrips
  decide +kernel

end Revhv.Kmodules
