import Revhv.Um.TraceSymbols

/-!
# `Revhv.Proofs.TraceSymbols`: sound and nearest names

What `resolve_address` of the trace parser prints, after any earlier calls.

* `getClosestSymbol_nearest`: the closest symbol of symbols in order.
* `sound_nameIn_iff`: when the image that is used gives a right name.
* `resolveAddress_sound_iff`: when every call is right.
* `same_name_shared`: two modules of one name, the second named after the first.
-/

set_option autoImplicit false

namespace Revhv.TraceSymbols

open Revhv.Lib Revhv.Symbols

/-! ### The closest symbol -/

/-- Symbols in the order of their addresses. -/
def Sorted (symbols : List SymbolInfo) : Prop :=
  symbols.Pairwise fun s t => s.rva ≤ t.rva

/-- The closest symbol has the greatest address that is not above. -/
theorem getClosestSymbol_nearest {symbols : List SymbolInfo} {rva : UInt64} {s : SymbolInfo}
    (hsorted : Sorted symbols) (hclosest : getClosestSymbol symbols rva = some s) :
    ∀ t ∈ symbols, t.rva ≤ rva → t.rva ≤ s.rva := by
  intro t ht hle
  have hsplit := List.takeWhile_append_dropWhile (p := fun t : SymbolInfo => !(rva < t.rva))
    (l := symbols)
  rw [← hsplit] at ht hsorted
  unfold getClosestSymbol at hclosest
  rcases List.mem_append.mp ht with ht | ht
  · -- In front of the last one that is not above.
    rcases List.getLast?_eq_some_iff.mp hclosest with ⟨front, hfront⟩
    rw [hfront] at ht hsorted
    rcases List.mem_append.mp ht with ht | ht
    · have h := (List.pairwise_append.mp (List.pairwise_append.mp hsorted).1).2.2
      exact h t ht s (List.mem_singleton.mpr rfl)
    · rw [List.mem_singleton.mp ht]
      exact UInt64.le_refl _
  · -- Behind the first one that is above, all are.
    cases hrest : symbols.dropWhile fun t => !(rva < t.rva) with
    | nil =>
      rw [hrest] at ht
      cases ht
    | cons first rest =>
      have hfirst : rva < first.rva := by
        have h := List.head?_dropWhile_not (fun t : SymbolInfo => !(rva < t.rva)) symbols
        rw [hrest] at h
        simpa using h
      rw [hrest] at ht hsorted
      have hbehind := (List.pairwise_append.mp hsorted).2.1
      rcases List.mem_cons.mp ht with rfl | ht
      · exact absurd hle (UInt64.not_le.mpr hfirst)
      · have h := (List.pairwise_cons.mp hbehind).1 t ht
        exact absurd hle (UInt64.not_le.mpr (UInt64.lt_of_lt_of_le hfirst h))

/-- Without a closest symbol, every symbol is above. -/
theorem getClosestSymbol_none {symbols : List SymbolInfo} {rva : UInt64} (hsorted : Sorted symbols)
    (hclosest : getClosestSymbol symbols rva = none) : ∀ t ∈ symbols, ¬ t.rva ≤ rva := by
  cases symbols with
  | nil => simp
  | cons first rest =>
    unfold getClosestSymbol at hclosest
    rw [List.getLast?_eq_none_iff, List.takeWhile_cons] at hclosest
    have hfirst : rva < first.rva := by
      by_contra h
      simp [h] at hclosest
    intro t ht hle
    rcases List.mem_cons.mp ht with rfl | ht
    · exact absurd hle (UInt64.not_le.mpr hfirst)
    · have h := (List.pairwise_cons.mp hsorted).1 t ht
      exact absurd hle (UInt64.not_le.mpr (UInt64.lt_of_lt_of_le hfirst h))

/-! ### What a right answer is -/

/-- The address is inside the module. -/
def InRange (mod : Kmodule) (address : UInt64) : Prop :=
  mod.base.toNat ≤ address.toNat ∧ address.toNat < mod.base.toNat + mod.size.toNat

/-- The module that is named. -/
def Resolution.module : Resolution → Option Kmodule
  | .raw _ => none
  | .start mod => some mod
  | .offset mod _ => some mod
  | .sect mod _ _ => some mod
  | .symbol mod _ _ => some mod

/-- The base of the module, the RVA of what is named in it, and the
printed offset. -/
def Resolution.total : Resolution → Nat
  | .raw address => address.toNat
  | .start mod => mod.base.toNat
  | .offset mod off => mod.base.toNat + off.toNat
  | .sect mod s off => mod.base.toNat + s.rva.toNat + off.toNat
  | .symbol mod sym off => mod.base.toNat + sym.rva.toNat + off.toNat

/-- The symbol is one of the image, with the greatest address that is
not above. -/
def Nearest (pe : Pe) (rva : UInt64) (s : SymbolInfo) : Prop :=
  s ∈ pe.symbols ∧ s.rva ≤ rva ∧ ∀ t ∈ pe.symbols, t.rva ≤ rva → t.rva ≤ s.rva

/-- The answer for an address is right, where `own` is the image of each
module. -/
structure Sound (modules : List Kmodule) (own : Kmodule → Option Pe) (address : UInt64)
    (r : Resolution) : Prop where
  /-- The raw address exactly when no module contains it. -/
  raw : r = .raw address ↔ ∀ mod ∈ modules, ¬ InRange mod address
  /-- Sixteen digits. -/
  digits : r = .raw address → r.text.length = 16 ∧ hexValue r.text = address.toNat
  /-- The module that contains the address is named. -/
  named : ∀ mod ∈ modules, InRange mod address → r.module = some mod
  /-- What is printed adds up to the address. -/
  total : r.total = address.toNat
  /-- A symbol of the module at or below the address is named, the
  closest. -/
  nearest : ∀ mod ∈ modules, InRange mod address → address ≠ mod.base →
    ∀ pe, own mod = some pe → (∃ s ∈ pe.symbols, s.rva ≤ address - mod.base) →
      ∃ s off, r = .symbol mod s off ∧ Nearest pe (address - mod.base) s
  /-- A named symbol is one of the module. -/
  symbolOf : ∀ mod s off, r = .symbol mod s off → ∃ pe, own mod = some pe ∧ s ∈ pe.symbols
  /-- A named section is one of the module. -/
  sectionOf : ∀ mod s off, r = .sect mod s off → ∃ pe, own mod = some pe ∧ s ∈ pe.sections

/-- The image `used` names nothing at an offset that `own` does not: the
closest symbol of `used` is a closest one of `own`, and without one,
`own` has none either, and the section that `used` has there is one of
`own`. -/
def Agrees (own used : Option Pe) (rva : UInt64) : Prop :=
  match used.bind fun pe => getClosestSymbol pe.symbols rva with
  | some s => ∃ pe, own = some pe ∧ Nearest pe rva s
  | none =>
    (∀ pe, own = some pe → ∀ t ∈ pe.symbols, ¬ t.rva ≤ rva)
      ∧ ∀ s, (used.bind fun pe => pe.sections.find? (·.contains rva)) = some s →
        ∃ pe, own = some pe ∧ s ∈ pe.sections

/-- An image with its symbols in order agrees with itself. -/
theorem agrees_self (own : Option Pe) (rva : UInt64)
    (hsorted : ∀ pe, own = some pe → Sorted pe.symbols) : Agrees own own rva := by
  unfold Agrees
  cases own with
  | none => simp
  | some pe =>
    have hpe := hsorted pe rfl
    simp only [Option.bind_some]
    cases hclosest : getClosestSymbol pe.symbols rva with
    | some s =>
      rcases getClosestSymbol_le hclosest with ⟨hmem, hle⟩
      exact ⟨pe, rfl, hmem, hle, getClosestSymbol_nearest hpe hclosest⟩
    | none =>
      refine ⟨?_, fun s hs => ⟨pe, rfl, List.mem_of_find?_eq_some hs⟩⟩
      intro pe' hpe'
      cases hpe'
      exact getClosestSymbol_none hpe hclosest

/-! ### One call -/

/-- The test of the scan, for a module that does not reach the end of
the addresses. -/
theorem contains_iff {mod : Kmodule} (hbound : mod.base.toNat + mod.size.toNat < 2 ^ 64)
    (address : UInt64) : mod.contains address = true ↔ InRange mod address := by
  unfold Kmodule.contains InRange
  simp only [Bool.not_eq_true', Bool.or_eq_false_iff, decide_eq_false_iff_not,
    UInt64.le_iff_toNat_le, UInt64.lt_iff_toNat_lt, UInt64.toNat_add, Nat.mod_eq_of_lt hbound]
  omega

/-- The module of a name is the one it was looked up in. -/
theorem nameIn_module (mod : Kmodule) (used : Option Pe) (rva : UInt64) :
    (nameIn mod used rva).module = some mod := by
  unfold nameIn
  split
  · rfl
  · split
    · split <;> rfl
    · rfl

/-- A name adds up to the offset into the module. -/
theorem nameIn_total (mod : Kmodule) (used : Option Pe) (rva : UInt64) :
    (nameIn mod used rva).total = mod.base.toNat + rva.toNat := by
  have hsub : ∀ part : UInt64, part ≤ rva →
      mod.base.toNat + part.toNat + (rva - part).toNat = mod.base.toNat + rva.toNat := by
    intro part hle
    rw [UInt64.toNat_sub_of_le _ _ hle]
    have := UInt64.le_iff_toNat_le.mp hle
    omega
  unfold nameIn
  -- Symbol, section and plain offset each split the address into parts that add
  -- up again.
  cases used with
  | none => rfl
  | some pe =>
    cases hclosest : getClosestSymbol pe.symbols rva with
    | some sym =>
      simp only [hclosest]
      exact hsub sym.rva (getClosestSymbol_le hclosest).2
    | none =>
      cases hsect : pe.sections.find? (·.contains rva) with
      | none =>
        simp only [hclosest, hsect]
        rfl
      | some s =>
        have hin := List.find?_some hsect
        simp only [Section.contains, Bool.and_eq_true, decide_eq_true_eq] at hin
        simp only [hclosest, hsect]
        exact hsub s.rva hin.1

section
variable {modules : List Kmodule} {own : Kmodule → Option Pe}

/-- In modules that do not overlap, one contains an address. -/
theorem inRange_unique {mod other : Kmodule} {address : UInt64}
    (hbound : ∀ mod ∈ modules, mod.base.toNat + mod.size.toNat < 2 ^ 64)
    (hdisjoint : Disjoint modules) (hmod : mod ∈ modules) (hin : InRange mod address)
    (hother : other ∈ modules) (hinOther : InRange other address) : other = mod := by
  have h := find_contains hdisjoint hmod ((contains_iff (hbound mod hmod) address).mpr hin)
  rw [find_contains hdisjoint hother ((contains_iff (hbound other hother) address).mpr hinOther),
    Option.some.injEq] at h
  exact h

/-- The answer for an address behind the first byte of a module is right
exactly when the image it is taken from agrees with the image of the
module. -/
theorem sound_nameIn_iff {mod : Kmodule} {address : UInt64} (used : Option Pe)
    (hbound : ∀ mod ∈ modules, mod.base.toNat + mod.size.toNat < 2 ^ 64)
    (hdisjoint : Disjoint modules) (hmod : mod ∈ modules) (hin : InRange mod address)
    (hne : address ≠ mod.base) :
    Sound modules own address (nameIn mod used (address - mod.base))
      ↔ Agrees (own mod) used (address - mod.base) := by
  have hmodule := nameIn_module mod used (address - mod.base)
  have hraw : nameIn mod used (address - mod.base) ≠ .raw address := by
    intro h
    rw [h] at hmodule
    cases hmodule
  have htotal : (nameIn mod used (address - mod.base)).total = address.toNat := by
    rw [nameIn_total, UInt64.toNat_sub_of_le _ _ (UInt64.le_iff_toNat_le.mpr hin.1)]
    have := hin.1
    omega
  have hunique : ∀ other ∈ modules, InRange other address → other = mod := fun other ho hi =>
    inRange_unique hbound hdisjoint hmod hin ho hi
  -- What is left of a right answer are the three parts about the image.
  have hparts : Sound modules own address (nameIn mod used (address - mod.base)) ↔
      (∀ pe, own mod = some pe → (∃ s ∈ pe.symbols, s.rva ≤ address - mod.base) →
        ∃ s off, nameIn mod used (address - mod.base) = .symbol mod s off
          ∧ Nearest pe (address - mod.base) s)
      ∧ (∀ s off, nameIn mod used (address - mod.base) = .symbol mod s off →
        ∃ pe, own mod = some pe ∧ s ∈ pe.symbols)
      ∧ (∀ s off, nameIn mod used (address - mod.base) = .sect mod s off →
        ∃ pe, own mod = some pe ∧ s ∈ pe.sections) := by
    constructor
    · intro h
      exact ⟨h.nearest mod hmod hin hne, h.symbolOf mod, h.sectionOf mod⟩
    · rintro ⟨hnearest, hsymbol, hsection⟩
      refine ⟨⟨fun h => absurd h hraw, fun h => absurd hin (h mod hmod)⟩,
        fun h => absurd h hraw, ?_, htotal, ?_, ?_, ?_⟩
      · intro other ho hi
        rw [hunique other ho hi]
        exact hmodule
      · intro other ho hi _ pe hpe
        rw [hunique other ho hi] at hpe ⊢
        exact hnearest pe hpe
      · intro other s off hr
        rw [hr] at hmodule
        simp only [Resolution.module, Option.some.injEq] at hmodule
        subst hmodule
        exact hsymbol s off hr
      · intro other s off hr
        rw [hr] at hmodule
        simp only [Resolution.module, Option.some.injEq] at hmodule
        subst hmodule
        exact hsection s off hr
  rw [hparts]
  generalize address - mod.base = rva
  -- Without a closest symbol in the image that is used.
  have hnone : ∀ r : Resolution, (∀ s off, r ≠ .symbol mod s off) →
      ((∀ pe, own mod = some pe → (∃ s ∈ pe.symbols, s.rva ≤ rva) →
        ∃ s off, r = .symbol mod s off ∧ Nearest pe rva s)
      ↔ ∀ pe, own mod = some pe → ∀ t ∈ pe.symbols, ¬ t.rva ≤ rva) := by
    intro r hr
    constructor
    · intro h pe hpe t ht hle
      rcases h pe hpe ⟨t, ht, hle⟩ with ⟨s, off, hs, -⟩
      exact hr s off hs
    · intro h pe hpe hex
      rcases hex with ⟨s, hs, hle⟩
      exact absurd hle (h pe hpe s hs)
  unfold Agrees nameIn
  cases used with
  | none =>
    simp only [Option.bind_none]
    rw [hnone _ (by simp)]
    simp
  | some pe =>
    simp only [Option.bind_some]
    cases hclosest : getClosestSymbol pe.symbols rva with
    | some sym =>
      have hle := (getClosestSymbol_le hclosest).2
      simp only
      constructor
      · rintro ⟨hnearest, hsymbol, -⟩
        rcases hsymbol sym _ rfl with ⟨pe', hpe', hmem⟩
        rcases hnearest pe' hpe' ⟨sym, hmem, hle⟩ with ⟨s, off, hs, hnear⟩
        cases hs
        exact ⟨pe', hpe', hnear⟩
      · rintro ⟨pe', hpe', hnear⟩
        refine ⟨?_, ?_, ?_⟩
        · intro pe'' hpe'' _
          rw [hpe', Option.some.injEq] at hpe''
          subst hpe''
          exact ⟨sym, _, rfl, hnear⟩
        · intro s off hs
          cases hs
          exact ⟨pe', hpe', hnear.1⟩
        · intro s off hs
          cases hs
    | none =>
      simp only
      cases hsect : pe.sections.find? (·.contains rva) with
      | none =>
        rw [hnone _ (by simp)]
        simp
      | some s =>
        rw [hnone _ (by simp)]
        simp

/-- The answer for an address that no module contains. -/
theorem sound_raw {address : UInt64} (hout : ∀ mod ∈ modules, ¬ InRange mod address) :
    Sound modules own address (.raw address) := by
  -- A value of 64 bits has no more than 16 digits.
  have hlen : (formatX address).length ≤ 16 := by
    have hdigits : ∀ d ∈ Nat.digits 16 address.toNat, d < 16 := fun d hd =>
      Nat.digits_lt_base (by norm_num) hd
    unfold formatX toHex
    split_ifs with hzero
    · simp
    · rw [List.length_reverse, List.length_map, Nat.digits_length_le_iff (by norm_num)]
      have := address.toNat_lt
      omega
  refine ⟨⟨fun _ => hout, fun _ => rfl⟩, fun _ => ⟨?_, ?_⟩,
    fun mod hmod hin => absurd hin (hout mod hmod), rfl,
    fun mod hmod hin => absurd hin (hout mod hmod), ?_, ?_⟩
  · simp only [Resolution.text, format016x, List.length_append, List.length_replicate]
    omega
  · -- The zeros in front do not count.
    have hzeros : ∀ n, hexValue (List.replicate n '0'.toUInt8) = 0 := by
      intro n
      induction n with
      | zero => rfl
      | succ n ih =>
        rw [List.replicate_succ, hexValue_cons, ih, show digitValue '0'.toUInt8 = 0 from rfl,
          Nat.zero_mul]
    rw [Resolution.text, format016x, hexValue_append, hzeros, formatX, hexValue_toHex]
    omega
  · intro mod s off h
    cases h
  · intro mod s off h
    cases h

/-- The answer for the first byte of a module. -/
theorem sound_start {mod : Kmodule}
    (hbound : ∀ mod ∈ modules, mod.base.toNat + mod.size.toNat < 2 ^ 64)
    (hdisjoint : Disjoint modules) (hmod : mod ∈ modules) (hin : InRange mod mod.base) :
    Sound modules own mod.base (.start mod) := by
  have hraw : Resolution.start mod ≠ .raw mod.base := fun h => by cases h
  refine ⟨⟨fun h => absurd h hraw, fun h => absurd hin (h mod hmod)⟩, fun h => absurd h hraw, ?_,
    rfl, ?_, ?_, ?_⟩
  · intro other ho hi
    rw [inRange_unique hbound hdisjoint hmod hin ho hi]
    rfl
  · intro other ho hi hne
    rw [inRange_unique hbound hdisjoint hmod hin ho hi] at hne
    exact absurd rfl hne
  · intro other s off h
    cases h
  · intro other s off h
    cases h

end

/-! ### The images that are kept -/

section
variable {modules : List Kmodule} {load : Text → UInt64 → Option Pe}

/-- What is kept for a name was loaded for a module of this name with
more than a byte. -/
structure Kept (modules : List Kmodule) (load : Text → UInt64 → Option Pe) (st : PeState) :
    Prop where
  loaded : ∀ name pe, st.cache.lookup name = some pe →
    ∃ other ∈ modules, other.name = name ∧ 1 < other.size.toNat ∧ loadPe load other = some pe
  failed : ∀ name, name ∈ st.attempted → st.cache.lookup name = none →
    ∃ other ∈ modules, other.name = name ∧ 1 < other.size.toNat ∧ loadPe load other = none

/-- Nothing is kept at the start. -/
theorem kept_empty : Kept modules load .empty := by
  constructor
  · intro name pe h
    cases h
  · intro name h
    cases h

/-- The image that is used for a module is the one of a module of its
name. -/
theorem getOrLoadPe_spec {st : PeState} {mod : Kmodule} (hkept : Kept modules load st)
    (hmod : mod ∈ modules) (hsize : 1 < mod.size.toNat) :
    (∃ other ∈ modules, other.name = mod.name ∧ 1 < other.size.toNat
        ∧ (getOrLoadPe load st mod).1 = loadPe load other)
      ∧ Kept modules load (getOrLoadPe load st mod).2 := by
  unfold getOrLoadPe
  -- A module is loaded once for each name: the cache and the list of attempts
  -- are both keyed by it.
  cases hlookup : st.cache.lookup mod.name with
  | some pe =>
    rcases hkept.loaded mod.name pe hlookup with ⟨other, ho, hname, hs, hload⟩
    exact ⟨⟨other, ho, hname, hs, hload.symm⟩, hkept⟩
  | none =>
    simp only
    by_cases htried : mod.name ∈ st.attempted
    · rw [if_pos htried]
      rcases hkept.failed mod.name htried hlookup with ⟨other, ho, hname, hs, hload⟩
      exact ⟨⟨other, ho, hname, hs, hload.symm⟩, hkept⟩
    · rw [if_neg htried]
      cases hload : loadPe load mod with
      | none =>
        refine ⟨⟨mod, hmod, rfl, hsize, hload.symm⟩, hkept.loaded, ?_⟩
        intro name hname hnone
        rcases List.mem_cons.mp hname with rfl | hname
        · exact ⟨mod, hmod, rfl, hsize, hload⟩
        · exact hkept.failed name hname hnone
      | some pe =>
        refine ⟨⟨mod, hmod, rfl, hsize, hload.symm⟩, ?_, ?_⟩
        · intro name pe' hlook
          simp only [List.lookup_cons] at hlook
          -- Only this name is new in the cache.
          by_cases hname : name = mod.name
          · subst hname
            simp only [beq_self_eq_true, Option.some.injEq] at hlook
            subst hlook
            exact ⟨mod, hmod, rfl, hsize, hload⟩
          · rw [beq_false_of_ne hname] at hlook
            exact hkept.loaded name pe' hlook
        · intro name hname hnone
          simp only [List.lookup_cons] at hnone
          by_cases heq : name = mod.name
          · simp [heq] at hnone
          · rw [beq_false_of_ne heq] at hnone
            rcases List.mem_cons.mp hname with rfl | hname
            · exact absurd rfl heq
            · exact hkept.failed name hname hnone

/-- A module that contains an address behind its first byte has more
than a byte. -/
theorem size_of_inRange {mod : Kmodule} {address : UInt64} (hin : InRange mod address)
    (hne : address ≠ mod.base) : 1 < mod.size.toNat := by
  have hne' : address.toNat ≠ mod.base.toNat := fun h => hne (UInt64.toNat_inj.mp h)
  have h := hin
  unfold InRange at h
  omega

/-- A call of `resolve_address` for an address that is in a module. -/
theorem resolveAddress_of_inRange {mod : Kmodule} {address : UInt64} (st : PeState)
    (hbound : ∀ mod ∈ modules, mod.base.toNat + mod.size.toNat < 2 ^ 64)
    (hdisjoint : Disjoint modules) (hmod : mod ∈ modules) (hin : InRange mod address)
    (hne : address ≠ mod.base) :
    resolveAddress modules load st address
      = (nameIn mod (getOrLoadPe load st mod).1 (address - mod.base),
          (getOrLoadPe load st mod).2) := by
  have hrva : address - mod.base ≠ 0 := by
    intro h
    have hsum : address - mod.base + mod.base = address := UInt64.sub_add_cancel _ _
    rw [h, UInt64.zero_add] at hsum
    exact hne hsum.symm
  unfold resolveAddress
  rw [find_contains hdisjoint hmod ((contains_iff (hbound mod hmod) address).mpr hin)]
  simp only [if_neg hrva]

/-- A call keeps what is kept. -/
theorem kept_resolveAddress {st : PeState} (hkept : Kept modules load st) (address : UInt64)
    (hbound : ∀ mod ∈ modules, mod.base.toNat + mod.size.toNat < 2 ^ 64) :
    Kept modules load (resolveAddress modules load st address).2 := by
  unfold resolveAddress
  -- A resolution may load the file of the module that contains the address.
  cases hfind : modules.find? (·.contains address) with
  | none => exact hkept
  | some mod =>
    have hmod := List.mem_of_find?_eq_some hfind
    have hin := (contains_iff (hbound mod hmod) address).mp (by simpa using List.find?_some hfind)
    simp only
    by_cases hrva : address - mod.base = 0
    · rw [if_pos hrva]
      exact hkept
    · rw [if_neg hrva]
      have hne : address ≠ mod.base := by
        rintro rfl
        exact hrva (UInt64.sub_self _)
      exact (getOrLoadPe_spec hkept hmod (size_of_inRange hin hne)).2

/-- Any calls keep what is kept. -/
theorem kept_resolveAll (hbound : ∀ mod ∈ modules, mod.base.toNat + mod.size.toNat < 2 ^ 64)
    (addresses : List UInt64) :
    ∀ {st : PeState}, Kept modules load st →
      Kept modules load (resolveAll modules load st addresses) := by
  induction addresses with
  | nil => intro st hkept; exact hkept
  | cons address addresses ih =>
    intro st hkept
    exact ih (kept_resolveAddress hkept address hbound)

/-- After a load for a module, the image of a module of the same name is
the same. -/
theorem getOrLoadPe_same_name {mod other : Kmodule} (hname : other.name = mod.name) :
    (getOrLoadPe load (getOrLoadPe load .empty other).2 mod).1 = loadPe load other := by
  cases hload : loadPe load other with
  | none => simp [getOrLoadPe, PeState.empty, hload, ← hname]
  | some pe => simp [getOrLoadPe, PeState.empty, hload, ← hname]

/-! ### Every call -/

/-- Every call of the parser is right, whatever it resolved before,
exactly when for any two modules of one name, the first of more than a
byte, the image of the first agrees with the image of the second at
every offset into the second. -/
theorem resolveAddress_sound_iff
    (hbound : ∀ mod ∈ modules, mod.base.toNat + mod.size.toNat < 2 ^ 64)
    (hdisjoint : Disjoint modules)
    (hsorted : ∀ path base pe, load path base = some pe → Sorted pe.symbols) :
    (∀ earlier address, Sound modules (loadPe load) address
      (resolveAddress modules load (resolveAll modules load .empty earlier) address).1)
    ↔ ∀ mod ∈ modules, ∀ other ∈ modules, other ≠ mod → other.name = mod.name →
        1 < other.size.toNat → ∀ address, InRange mod address → address ≠ mod.base →
          Agrees (loadPe load mod) (loadPe load other) (address - mod.base) := by
  constructor
  · intro hsound mod hmod other hother _ hname hsize address hin hne
    -- One call for the second byte of the other module, then the call for the address.
    have hone : (other.base + 1).toNat = other.base.toNat + 1 := by
      have := hbound other hother
      rw [UInt64.toNat_add]
      exact Nat.mod_eq_of_lt (by simp only [UInt64.toNat_one]; omega)
    have hinOther : InRange other (other.base + 1) := by
      unfold InRange
      omega
    have hneOther : other.base + 1 ≠ other.base := by
      intro h
      rw [h] at hone
      omega
    have h := hsound [other.base + 1] address
    rw [show resolveAll modules load .empty [other.base + 1]
        = (resolveAddress modules load .empty (other.base + 1)).2 from rfl,
      resolveAddress_of_inRange _ hbound hdisjoint hother hinOther hneOther,
      resolveAddress_of_inRange _ hbound hdisjoint hmod hin hne, getOrLoadPe_same_name hname] at h
    exact (sound_nameIn_iff _ hbound hdisjoint hmod hin hne).mp h
  · intro hagree earlier address
    have hkept : Kept modules load (resolveAll modules load .empty earlier) :=
      kept_resolveAll hbound earlier kept_empty
    generalize resolveAll modules load .empty earlier = st at hkept
    by_cases hex : ∃ mod ∈ modules, InRange mod address
    · rcases hex with ⟨mod, hmod, hin⟩
      by_cases hne : address = mod.base
      · subst hne
        unfold resolveAddress
        rw [find_contains hdisjoint hmod ((contains_iff (hbound mod hmod) _).mpr hin)]
        simp only [UInt64.sub_self, if_true]
        exact sound_start hbound hdisjoint hmod hin
      · rw [resolveAddress_of_inRange st hbound hdisjoint hmod hin hne]
        rcases getOrLoadPe_spec hkept hmod (size_of_inRange hin hne) with
          ⟨⟨other, hother, hname, hsize, hused⟩, -⟩
        rw [hused]
        refine (sound_nameIn_iff _ hbound hdisjoint hmod hin hne).mpr ?_
        by_cases hself : other = mod
        · subst hself
          refine agrees_self _ _ fun pe hpe => ?_
          unfold loadPe at hpe
          split_ifs at hpe
          exact hsorted _ _ pe hpe
        · exact hagree mod hmod other hother hself hname hsize address hin hne
    · have hout : ∀ mod ∈ modules, ¬ InRange mod address := fun mod hmod hin =>
        hex ⟨mod, hmod, hin⟩
      have hfind : modules.find? (·.contains address) = none := by
        rw [List.find?_eq_none]
        intro mod hmod hcontains
        exact hout mod hmod ((contains_iff (hbound mod hmod) address).mp (by simpa using hcontains))
      unfold resolveAddress
      rw [hfind]
      exact sound_raw hout

end

/-- Two modules of one name, loaded from different files. -/
def sampleModules : List Kmodule :=
  [⟨0x10000, 0x1000, lit "filter", lit "filter.sys"⟩,
   ⟨0x20000, 0x1000, lit "filter", lit "filter.dll"⟩]

/-- The images of the two files. -/
def sampleLoad (path : Text) (_ : UInt64) : Option Pe :=
  if path = lit "filter.sys" then some ⟨[], [⟨lit "Entry", 0x100⟩]⟩
  else some ⟨[], [⟨lit "Exit", 0x200⟩]⟩

/-- The images have one symbol each. -/
theorem sampleLoad_sorted (path : Text) (base : UInt64) (pe : Pe)
    (hload : sampleLoad path base = some pe) : Sorted pe.symbols := by
  unfold sampleLoad at hload
  split_ifs at hload
  · cases hload
    exact List.pairwise_singleton _ _
  · cases hload
    exact List.pairwise_singleton _ _

/-- Two modules of different names. -/
def namedModules : List Kmodule :=
  [⟨0x10000, 0x1000, lit "filter", lit "filter.sys"⟩,
   ⟨0x20000, 0x1000, lit "driver", lit "driver.sys"⟩]

/-- A module of a page at 0x10000 ends in front of one at 0x20000. -/
theorem disjoint_pages {first second : Kmodule}
    (hbound : first.base.toNat + first.size.toNat < 2 ^ 64 ∧
      second.base.toNat + second.size.toNat < 2 ^ 64)
    (hbase : first.base.toNat = 0x10000) (hbase' : second.base.toNat = 0x20000)
    (hsize : first.size.toNat = 0x1000) :
    Disjoint [first, second] := by
  refine List.pairwise_pair.mpr ?_
  rintro address ⟨hfirst, hsecond⟩
  have hone := (contains_iff hbound.1 address).mp hfirst
  have htwo := (contains_iff hbound.2 address).mp hsecond
  unfold InRange at hone htwo
  omega

/-- Addresses of two modules of different names, with two calls before. -/
theorem resolveAddress_sound_alone :
    (∀ address, Sound namedModules (loadPe sampleLoad) address
      (resolveAddress namedModules sampleLoad
        (resolveAll namedModules sampleLoad .empty [0x10180, 0x20201]) address).1) ∧
    (resolveAddress namedModules sampleLoad
      (resolveAll namedModules sampleLoad .empty [0x10180, 0x20201]) 0x20280).1 =
        .symbol ⟨0x20000, 0x1000, lit "driver", lit "driver.sys"⟩ ⟨lit "Exit", 0x200⟩ 0x80 := by
  refine ⟨(resolveAddress_sound_iff (by decide) (disjoint_pages (by decide) rfl rfl rfl)
    sampleLoad_sorted).mpr ?_ [0x10180, 0x20201], by decide +kernel⟩
  -- No two of the modules have one name.
  intro mod hmod other hother hne hname
  simp only [List.mem_cons, List.not_mem_nil, or_false] at hmod hother
  rcases hmod with rfl | rfl <;> rcases hother with rfl | rfl
  · exact absurd rfl hne
  · exact absurd hname (by decide)
  · exact absurd hname (by decide)
  · exact absurd rfl hne

/-- After an address of the first module, an address of the second is
named after a symbol of the first. -/
theorem same_name_shared :
    ¬ ∀ modules load, (∀ mod ∈ modules, mod.base.toNat + mod.size.toNat < 2 ^ 64) →
      Disjoint modules → (∀ path base pe, load path base = some pe → Sorted pe.symbols) →
      ∀ earlier address, Sound modules (loadPe load) address
        (resolveAddress modules load (resolveAll modules load .empty earlier) address).1 := by
  intro hall
  have hdisjoint : Disjoint sampleModules := disjoint_pages (by decide) rfl rfl rfl
  have hsound := hall sampleModules sampleLoad (by decide) hdisjoint sampleLoad_sorted
    [0x10180] 0x20280
  have hname : (resolveAddress sampleModules sampleLoad
      (resolveAll sampleModules sampleLoad .empty [0x10180]) 0x20280).1
      = .symbol ⟨0x20000, 0x1000, lit "filter", lit "filter.dll"⟩ ⟨lit "Entry", 0x100⟩ 0x180 := by
    decide +kernel
  rw [hname] at hsound
  -- The file of the first module was taken for the second, which bears the same
  -- name.
  rcases hsound.symbolOf _ _ _ rfl with ⟨pe, hpe, hmem⟩
  have hown : loadPe sampleLoad ⟨0x20000, 0x1000, lit "filter", lit "filter.dll"⟩
      = some ⟨[], [⟨lit "Exit", 0x200⟩]⟩ := by decide +kernel
  rw [hown, Option.some.injEq] at hpe
  rw [← hpe] at hmem
  exact absurd hmem (by decide)

end Revhv.TraceSymbols
