import Mathlib.Data.List.TakeWhile
import Revhv.Um.Numbers

/-!
# `Revhv.Proofs.Numbers`: the two number parsers

The grammar of the documented number forms, and where `parse_u64_token` and
`parse_hex_offset` stand to it.

* `parseU64Token_eq_some_iff`: the token parser reads the grammar.
* `parsers_agree_iff`: the strings on which the two parsers agree.
* `trailing_text_dropped`: a string on which they do not.
-/

set_option autoImplicit false

namespace Revhv.Numbers

open Revhv.Lib

/-! ### The grammar -/

/-- Digits, at most sixteen of which count. -/
def IsDigits (ds : List UInt8) : Prop :=
  ds ≠ [] ∧ (∀ c ∈ ds, isHexDigit c = true) ∧ (significant ds).length ≤ 16

/-- The three forms of a number, after its separators are left out:
digits behind `0x`, digits before `h`, or digits. -/
inductive Form : List UInt8 → Nat → Prop where
  | prefixed (x : UInt8) (ds : List UInt8) (hx : isX x = true) (hds : IsDigits ds) :
      Form ('0'.toUInt8 :: x :: ds) (hexValue ds)
  | suffixed (h : UInt8) (ds : List UInt8) (hh : isH h = true) (hds : IsDigits ds) :
      Form (ds ++ [h]) (hexValue ds)
  | plain (ds : List UInt8) (hds : IsDigits ds) : Form ds (hexValue ds)

/-- The string is a number: without its separators it has one of the
forms. -/
def Numeral (s : List UInt8) (v : Nat) : Prop :=
  Form (s.filter (!isSeparator ·)) v

/-! ### Characters -/

/-- The letter of the prefix is no digit. -/
theorem isHexDigit_of_isX {c : UInt8} (hc : isX c = true) : isHexDigit c = false := by
  simp only [isX, Bool.or_eq_true, beq_iff_eq] at hc
  rcases hc with rfl | rfl <;> rfl

/-- The letter of the suffix is no digit. -/
theorem isHexDigit_of_isH {c : UInt8} (hc : isH c = true) : isHexDigit c = false := by
  simp only [isH, Bool.or_eq_true, beq_iff_eq] at hc
  rcases hc with rfl | rfl <;> rfl

/-- The letter of the suffix is not the letter of the prefix. -/
theorem isX_of_isH {c : UInt8} (hc : isH c = true) : isX c = false := by
  simp only [isH, Bool.or_eq_true, beq_iff_eq] at hc
  rcases hc with rfl | rfl <;> rfl

/-- A digit is no separator. -/
theorem isSeparator_of_isHexDigit {c : UInt8} (hc : isHexDigit c = true) :
    isSeparator c = false := by
  by_contra hsep
  simp only [isSeparator, Bool.not_eq_false, Bool.or_eq_true, beq_iff_eq] at hsep
  rcases hsep with (rfl | rfl) | rfl <;> exact absurd hc (by decide)

/-- A separator is no letter of a prefix. -/
theorem isX_of_isSeparator {c : UInt8} (hc : isSeparator c = true) : isX c = false := by
  simp only [isSeparator, Bool.or_eq_true, beq_iff_eq] at hc
  rcases hc with (rfl | rfl) | rfl <;> rfl

/-- A separator is no space and no sign. -/
theorem isSpace_of_isSeparator {c : UInt8} (hc : isSeparator c = true) :
    isSpace c = false ∧ c ≠ '-'.toUInt8 ∧ c ≠ '+'.toUInt8 := by
  simp only [isSeparator, Bool.or_eq_true, beq_iff_eq] at hc
  rcases hc with (rfl | rfl) | rfl <;> decide

/-- A digit is no space and no sign. -/
theorem isSpace_of_isHexDigit {c : UInt8} (hc : isHexDigit c = true) :
    isSpace c = false ∧ c ≠ '-'.toUInt8 ∧ c ≠ '+'.toUInt8 := by
  refine ⟨?_, ?_, ?_⟩
  · by_contra hspace
    simp only [isSpace, Bool.not_eq_false, Bool.or_eq_true, Bool.and_eq_true, beq_iff_eq,
      decide_eq_true_eq] at hspace
    simp only [isHexDigit, Bool.or_eq_true, Bool.and_eq_true, decide_eq_true_eq] at hc
    rcases hspace with rfl | hspace
    · exact absurd hc (by decide)
    · omega
  · rintro rfl
    exact absurd hc (by decide)
  · rintro rfl
    exact absurd hc (by decide)

/-! ### The token parser -/

/-- The digits in front of a text. -/
theorem takeWhile_digits {ds : List UInt8} (more : List UInt8)
    (hds : ∀ c ∈ ds, isHexDigit c = true) (hmore : ∀ c ∈ more.head?, isHexDigit c = false) :
    (ds ++ more).takeWhile isHexDigit = ds := by
  rw [List.takeWhile_append_of_pos hds]
  cases more with
  | nil => simp
  | cons c more => simp [hmore c rfl]

/-- `from_chars` takes all of a text exactly when it is a number of
digits. -/
theorem fromChars_eq_some_iff (s : List UInt8) (v : UInt64) :
    fromChars s = some (v, []) ↔ IsDigits s ∧ v = UInt64.ofNat (hexValue s) := by
  unfold fromChars
  constructor
  · intro h
    simp only at h
    split_ifs at h with hnil hbig
    simp only [Option.some.injEq, Prod.mk.injEq] at h
    rcases h with ⟨hv, hrest⟩
    -- Nothing is left, so that all of the text is digits.
    have hall : ∀ c ∈ s, isHexDigit c = true := List.dropWhile_eq_nil_iff.mp hrest
    have hrun : s.takeWhile isHexDigit = s := List.takeWhile_eq_self_iff.mpr hall
    rw [hrun] at hv hnil hbig
    refine ⟨⟨hnil, hall, ?_⟩, hv.symm⟩
    exact (hexValue_lt_iff hall 16).mp (by omega)
  · rintro ⟨⟨hnil, hall, hcount⟩, rfl⟩
    have hrun : s.takeWhile isHexDigit = s := List.takeWhile_eq_self_iff.mpr hall
    have hrest : s.dropWhile isHexDigit = [] := List.dropWhile_eq_nil_iff.mpr hall
    have hlt := (hexValue_lt_iff hall 16).mpr hcount
    simp only [hrun, hrest]
    rw [if_neg hnil, if_neg (by omega)]

/-- What `parse_u64_token` makes of a sanitized token. -/
theorem parseU64Token_eq_some (s : List UInt8) (v : UInt64) :
    parseU64Token s = some v ↔
      IsDigits (stripMarker (s.filter (!isSeparator ·)))
        ∧ v = UInt64.ofNat (hexValue (stripMarker (s.filter (!isSeparator ·)))) := by
  rw [← fromChars_eq_some_iff]
  unfold parseU64Token
  simp only
  split_ifs with hnil hstrip
  · rw [hnil]
    simp [stripMarker, fromChars]
  · rw [hstrip]
    simp [fromChars]
  · -- `from_chars` has to reach the end of the token.
    cases hparsed : fromChars (stripMarker (s.filter (!isSeparator ·))) with
    | none => simp
    | some result =>
      rcases result with ⟨parsed, rest⟩
      cases rest with
      | nil => simp
      | cons c rest => simp

/-- A `0x` with digits behind it is left out. -/
theorem stripMarker_prefixed {x : UInt8} {ds : List UInt8} (hx : isX x = true) (hds : ds ≠ []) :
    stripMarker ('0'.toUInt8 :: x :: ds) = ds := by
  cases ds with
  | nil => exact absurd rfl hds
  | cons d rest =>
    unfold stripMarker
    exact if_pos ⟨rfl, hx⟩

/-- Without a `0x`, an `h` at the end is left out. -/
theorem stripMarker_of_second {s : List UInt8}
    (hsecond : ∀ c x rest, s = c :: x :: rest → isX x = false) :
    stripMarker s = if (s.getLast?).any isH then s.dropLast else s := by
  unfold stripMarker
  split
  · rename_i c x d rest
    rw [if_neg]
    rintro ⟨-, hx⟩
    rw [hsecond c x (d :: rest) rfl] at hx
    cases hx
  · rfl

/-- Digits before an `h`. -/
theorem stripMarker_suffixed {h : UInt8} {ds : List UInt8} (hh : isH h = true)
    (hds : ∀ c ∈ ds, isHexDigit c = true) : stripMarker (ds ++ [h]) = ds := by
  rw [stripMarker_of_second]
  · simp [hh]
  · intro c x rest hs
    -- The second character is a digit, or the `h` itself.
    have hmem : x ∈ ds ++ [h] := by
      rw [hs]
      exact List.mem_cons_of_mem _ List.mem_cons_self
    rcases List.mem_append.mp hmem with hx | hx
    · by_contra hX
      have := isHexDigit_of_isX (by simpa using hX : isX x = true)
      rw [hds x hx] at this
      cases this
    · rw [List.mem_singleton.mp hx]
      exact isX_of_isH hh

/-- Digits. -/
theorem stripMarker_plain {ds : List UInt8} (hds : ∀ c ∈ ds, isHexDigit c = true) :
    stripMarker ds = ds := by
  -- Neither X nor H is a hexadecimal digit, so no marker is found in a plain
  -- number.
  have hnot : ∀ c ∈ ds, isX c = false ∧ isH c = false := by
    intro c hc
    constructor
    · by_contra hX
      have := isHexDigit_of_isX (by simpa using hX : isX c = true)
      rw [hds c hc] at this
      cases this
    · by_contra hH
      have := isHexDigit_of_isH (by simpa using hH : isH c = true)
      rw [hds c hc] at this
      cases this
  rw [stripMarker_of_second, if_neg]
  · intro hlast
    rw [Option.any_eq_true] at hlast
    rcases hlast with ⟨c, hc, hH⟩
    rw [(hnot c (List.mem_of_getLast? hc)).2] at hH
    cases hH
  · intro c x rest hs
    refine (hnot x ?_).1
    rw [hs]
    exact List.mem_cons_of_mem _ List.mem_cons_self

/-- The forms are the texts that are digits without their marker. -/
theorem form_iff (s : List UInt8) (v : Nat) :
    Form s v ↔ IsDigits (stripMarker s) ∧ v = hexValue (stripMarker s) := by
  constructor
  · intro hform
    cases hform with
    | prefixed x ds hx hds =>
      rw [stripMarker_prefixed hx hds.1]
      exact ⟨hds, rfl⟩
    | suffixed h ds hh hds =>
      rw [stripMarker_suffixed hh hds.2.1]
      exact ⟨hds, rfl⟩
    | plain _ hds =>
      rw [stripMarker_plain hds.2.1]
      exact ⟨hds, rfl⟩
  · rintro ⟨hds, rfl⟩
    -- Without a 0x in front the source looks for an h at the end.
    have hsuffix : IsDigits (if (s.getLast?).any isH then s.dropLast else s) →
        Form s (hexValue (if (s.getLast?).any isH then s.dropLast else s)) := by
      intro hds
      split_ifs at hds ⊢ with hlast
      · rw [Option.any_eq_true] at hlast
        rcases hlast with ⟨h, hs, hH⟩
        have hform := Form.suffixed h s.dropLast hH hds
        rwa [List.dropLast_append_getLast? h hs] at hform
      · exact Form.plain s hds
    revert hds
    unfold stripMarker
    split
    · -- The three patterns of the source: 0x with a digit behind it, a final h,
      -- and neither.
      rename_i c x d rest
      split_ifs with hmarked hlast
      · intro hds
        rw [hmarked.1]
        exact Form.prefixed x (d :: rest) hmarked.2 hds
      · intro hds
        simpa only [if_pos hlast] using hsuffix (by simpa only [if_pos hlast] using hds)
      · intro hds
        simpa only [if_neg hlast] using hsuffix (by simpa only [if_neg hlast] using hds)
    · exact hsuffix

/-- `parse_u64_token` reads the grammar. -/
theorem parseU64Token_eq_some_iff (s : List UInt8) (v : UInt64) :
    parseU64Token s = some v ↔ Numeral s v.toNat := by
  rw [parseU64Token_eq_some, Numeral, form_iff]
  constructor
  · rintro ⟨hds, rfl⟩
    refine ⟨hds, ?_⟩
    have hlt := (hexValue_lt_iff hds.2.1 16).mpr hds.2.2
    rw [UInt64.toNat_ofNat']
    exact Nat.mod_eq_of_lt (by omega)
  · rintro ⟨hds, hv⟩
    refine ⟨hds, ?_⟩
    rw [← hv, UInt64.ofNat_toNat]

/-! ### The offset parser -/

/-- The digits that a string starts with, behind spaces, a sign and a
`0x`. -/
def leadingDigits (s : List UInt8) : List UInt8 :=
  (stripPrefix (stripSign (s.dropWhile isSpace)).2).takeWhile isHexDigit

/-- The digits behind the first separator of a string. -/
def behindSeparator (s : List UInt8) : List UInt8 :=
  (s.dropWhile (!isSeparator ·)).filter isHexDigit

/-- The leading digits are digits. -/
theorem isHexDigit_of_mem_leadingDigits {s : List UInt8} {c : UInt8} (hc : c ∈ leadingDigits s) :
    isHexDigit c = true :=
  List.mem_takeWhile_imp hc

/-- `stoull` rejects a string without leading digits, or with too many. -/
theorem stoull_eq_none_iff (s : List UInt8) :
    stoull s = none ↔ leadingDigits s = [] ∨ 16 < (significant (leadingDigits s)).length := by
  have hbound : hexValue (leadingDigits s) < 16 ^ 16 ↔ _ :=
    hexValue_lt_iff (fun c hc => isHexDigit_of_mem_leadingDigits hc) 16
  unfold stoull
  simp only
  rw [show List.takeWhile isHexDigit (stripPrefix (stripSign (s.dropWhile isSpace)).2)
    = leadingDigits s from rfl]
  -- `stoull` throws when there is no digit and when the value does not fit.
  split_ifs with hnil hbig
  · simp [hnil]
  · simp only [true_iff]
    right
    by_contra hcount
    have := hbound.mpr (by omega)
    omega
  · simp only [hnil, false_or, false_iff, Nat.not_lt]
    exact hbound.mp (by omega)

/-- A string whose first character is a digit has no spaces and no sign
in front. -/
theorem leadingDigits_of_head {c : UInt8} (s : List UInt8) (hc : isHexDigit c = true) :
    leadingDigits (c :: s) = (stripPrefix (c :: s)).takeWhile isHexDigit
      ∧ (stripSign ((c :: s).dropWhile isSpace)).1 = false := by
  rcases isSpace_of_isHexDigit hc with ⟨hspace, hminus, hplus⟩
  have hdrop : (c :: s).dropWhile isSpace = c :: s := by
    rw [List.dropWhile_cons, if_neg (by simp [hspace])]
  unfold leadingDigits
  rw [hdrop]
  simp only [stripSign, if_neg hminus, if_neg hplus, and_self]

/-- Leading digits without a `0x`. -/
theorem leadingDigits_plain {ds : List UInt8} (more : List UInt8) (hnil : ds ≠ [])
    (hds : ∀ c ∈ ds, isHexDigit c = true)
    (hmore : ∀ c rest, more = c :: rest → isHexDigit c = false ∧
      (isX c = true → ∀ d ∈ rest.head?, isHexDigit d = false)) :
    leadingDigits (ds ++ more) = ds := by
  cases ds with
  | nil => exact absurd rfl hnil
  | cons c ds =>
    rw [List.cons_append, (leadingDigits_of_head _ (hds c List.mem_cons_self)).1]
    have hstrip : stripPrefix (c :: (ds ++ more)) = c :: (ds ++ more) := by
      unfold stripPrefix
      split
      · rename_i c' x d s heq
        rw [if_neg]
        · exact heq.symm
        · rintro ⟨-, hx, hd⟩
          rw [List.cons.injEq] at heq
          -- The letter of the prefix is no digit, so that it is the first one behind `ds`.
          cases ds with
          | nil =>
            rw [List.nil_append] at heq
            have h := (hmore x (d :: s) heq.2).2 hx d rfl
            rw [h] at hd
            cases hd
          | cons e ds =>
            rw [List.cons_append, List.cons.injEq] at heq
            have he := hds e (List.mem_cons_of_mem _ List.mem_cons_self)
            rw [heq.2.1, isHexDigit_of_isX hx] at he
            cases he
      · rfl
    rw [hstrip, ← List.cons_append]
    refine takeWhile_digits more hds ?_
    intro e he
    cases more with
    | nil => cases he
    | cons m more =>
      simp only [List.head?_cons, Option.mem_def, Option.some.injEq] at he
      subst he
      exact (hmore m more rfl).1

/-- Leading digits behind a `0x`. -/
theorem leadingDigits_prefixed {x : UInt8} {ds : List UInt8} (more : List UInt8)
    (hx : isX x = true) (hnil : ds ≠ []) (hds : ∀ c ∈ ds, isHexDigit c = true)
    (hmore : ∀ c ∈ more.head?, isHexDigit c = false) :
    leadingDigits ('0'.toUInt8 :: x :: (ds ++ more)) = ds := by
  cases ds with
  | nil => exact absurd rfl hnil
  | cons d ds =>
    rw [(leadingDigits_of_head _ (by rfl)).1]
    have hstrip : stripPrefix ('0'.toUInt8 :: x :: (d :: ds ++ more)) = d :: ds ++ more := by
      rw [List.cons_append]
      exact if_pos ⟨rfl, hx, hds d List.mem_cons_self⟩
    rw [hstrip]
    exact takeWhile_digits more hds hmore

/-- The digits of a form have its value. -/
theorem hexValue_of_form {s : List UInt8} {v : Nat} (hform : Form s v) :
    hexValue (s.filter isHexDigit) = v := by
  cases hform with
  | prefixed x ds hx hds =>
    have hzero : isHexDigit '0'.toUInt8 = true := rfl
    rw [List.filter_cons_of_pos hzero, List.filter_cons_of_neg (by simp [isHexDigit_of_isX hx]),
      List.filter_eq_self.mpr hds.2.1, hexValue_cons, show digitValue '0'.toUInt8 = 0 from rfl,
      Nat.zero_mul, Nat.zero_add]
  | suffixed h ds hh hds =>
    rw [List.filter_append, List.filter_eq_self.mpr hds.2.1,
      List.filter_cons_of_neg (by simp [isHexDigit_of_isH hh]), List.filter_nil, List.append_nil]
  | plain _ hds => rw [List.filter_eq_self.mpr hds.2.1]

/-- What stands in front of the first separator of a number that starts
with a digit: `stoull` reads its digits. -/
theorem leadingDigits_of_form {lead back more : List UInt8} {v : Nat}
    (hform : Form (lead ++ back) v) (hhead : ∃ c ∈ lead.head?, isHexDigit c = true)
    (hmore : ∀ c ∈ more.head?, isSeparator c = true) :
    leadingDigits (lead ++ more) ≠ []
      ∧ hexValue (leadingDigits (lead ++ more)) = hexValue (lead.filter isHexDigit) := by
  have hnil : lead ≠ [] := by
    rintro rfl
    rcases hhead with ⟨c, hc, -⟩
    cases hc
  have hsep : ∀ c, isSeparator c = true → isHexDigit c = false ∧ isX c = false := by
    intro c hc
    refine ⟨?_, isX_of_isSeparator hc⟩
    by_contra hdigit
    rw [isSeparator_of_isHexDigit (by simpa using hdigit)] at hc
    cases hc
  have hbehind : ∀ c rest, more = c :: rest → isHexDigit c = false ∧
      (isX c = true → ∀ d ∈ rest.head?, isHexDigit d = false) := by
    rintro c rest rfl
    rcases hsep c (hmore c rfl) with ⟨hdigit, hX⟩
    exact ⟨hdigit, fun h => by rw [hX] at h; cases h⟩
  -- Digits only in front of the separator.
  have hdigits : (∀ c ∈ lead, isHexDigit c = true) → leadingDigits (lead ++ more) ≠ []
      ∧ hexValue (leadingDigits (lead ++ more)) = hexValue (lead.filter isHexDigit) := by
    intro hall
    rw [leadingDigits_plain more hnil hall hbehind, List.filter_eq_self.mpr hall]
    exact ⟨hnil, rfl⟩
  generalize hwhole : lead ++ back = whole at hform
  cases hform with
  | plain _ hds =>
    refine hdigits fun c hc => hds.2.1 c ?_
    rw [← hwhole]
    exact List.mem_append_left _ hc
  | suffixed h ds hh hds =>
    rcases List.append_eq_append_iff.mp hwhole with ⟨as, hlead, -⟩ | ⟨bs, hlead, hbs⟩
    · refine hdigits fun c hc => hds.2.1 c ?_
      rw [hlead]
      exact List.mem_append_left _ hc
    · cases bs with
      | nil =>
        rw [List.append_nil] at hlead
        exact hdigits fun c hc => hds.2.1 c (hlead ▸ hc)
      | cons b bs =>
        -- The `h` itself stands in front of the separator.
        rw [List.cons_append, List.cons.injEq] at hbs
        rcases hbs with ⟨rfl, hbs⟩
        rw [List.nil_eq, List.append_eq_nil_iff] at hbs
        rw [hlead, hbs.1, List.append_assoc, List.singleton_append, List.filter_append,
          List.filter_eq_self.mpr hds.2.1, List.filter_cons_of_neg (by simp [isHexDigit_of_isH hh]),
          leadingDigits_plain (h :: more) hds.1 hds.2.1]
        · exact ⟨hds.1, by rw [List.filter_nil, List.append_nil]⟩
        · intro c rest heq
          rw [List.cons.injEq] at heq
          rw [← heq.1, isX_of_isH hh]
          exact ⟨isHexDigit_of_isH hh, fun h => by cases h⟩
  | prefixed x ds hx hds =>
    cases lead with
    | nil => exact absurd rfl hnil
    | cons z lead =>
      rw [List.cons_append, List.cons.injEq] at hwhole
      rcases hwhole with ⟨rfl, hwhole⟩
      have hzero : isHexDigit '0'.toUInt8 = true := rfl
      cases lead with
      | nil =>
        -- A separator between the `0` and the `x`.
        refine hdigits fun c hc => ?_
        rw [List.mem_singleton.mp hc]
        exact hzero
      | cons y lead =>
        rw [List.cons_append, List.cons.injEq] at hwhole
        rcases hwhole with ⟨rfl, rfl⟩
        have hy : isHexDigit y = false := isHexDigit_of_isX hx
        have hfilter : ∀ c ∈ lead, isHexDigit c = true := fun c hc =>
          hds.2.1 c (List.mem_append_left _ hc)
        rw [List.filter_cons_of_pos hzero, List.filter_cons_of_neg (by simp [hy]),
          List.filter_eq_self.mpr hfilter]
        by_cases hlead : lead = []
        · -- A separator right behind the `0x`.
          subst hlead
          have hplain : leadingDigits (['0'.toUInt8] ++ (y :: more)) = ['0'.toUInt8] :=
            leadingDigits_plain (y :: more) (by simp) (by simp [hzero]) (by
              intro c rest heq
              rw [List.cons.injEq] at heq
              rw [← heq.1, ← heq.2]
              exact ⟨hy, fun _ d hd => (hsep d (hmore d hd)).1⟩)
          rw [show '0'.toUInt8 :: y :: ([] : List UInt8) ++ more
            = ['0'.toUInt8] ++ (y :: more) from rfl, hplain]
          exact ⟨by simp, rfl⟩
        · rw [show '0'.toUInt8 :: y :: lead ++ more = '0'.toUInt8 :: y :: (lead ++ more) from rfl,
            leadingDigits_prefixed more hx hlead hfilter (fun c hc => (hsep c (hmore c hc)).1),
            hexValue_cons, show digitValue '0'.toUInt8 = 0 from rfl, Nat.zero_mul, Nat.zero_add]
          exact ⟨hlead, rfl⟩

/-- The value of a number that starts with a digit: its leading digits,
followed by the digits behind its first separator. -/
theorem numeral_split {s : List UInt8} {v : Nat} (hnumeral : Numeral s v)
    (hhead : ∃ c ∈ s.head?, isHexDigit c = true) :
    leadingDigits s ≠ []
      ∧ v = hexValue (leadingDigits s) * 16 ^ (behindSeparator s).length
        + hexValue (behindSeparator s) := by
  have hsplit := List.takeWhile_append_dropWhile (p := (!isSeparator ·)) (l := s)
  have hlead : (s.takeWhile (!isSeparator ·)).filter (!isSeparator ·)
      = s.takeWhile (!isSeparator ·) :=
    List.filter_eq_self.mpr fun c hc => List.mem_takeWhile_imp (p := (!isSeparator ·)) hc
  -- What is in front of the first separator is read by both parsers, and
  -- `stoull` stops there.
  have hform : Form (s.takeWhile (!isSeparator ·)
      ++ (s.dropWhile (!isSeparator ·)).filter (!isSeparator ·)) v := by
    have h := hnumeral
    unfold Numeral at h
    rw [← hsplit, List.filter_append, hlead] at h
    exact h
  have hheadLead : ∃ c ∈ (s.takeWhile (!isSeparator ·)).head?, isHexDigit c = true := by
    rcases hhead with ⟨c, hc, hdigit⟩
    refine ⟨c, ?_, hdigit⟩
    cases s with
    | nil => cases hc
    | cons a s =>
      simp only [List.head?_cons, Option.mem_def, Option.some.injEq] at hc
      subst hc
      rw [List.takeWhile_cons, if_pos (by simp [isSeparator_of_isHexDigit hdigit])]
      rfl
  have hmore : ∀ c ∈ (s.dropWhile (!isSeparator ·)).head?, isSeparator c = true := by
    intro c hc
    have h := List.head?_dropWhile_not (!isSeparator ·) s
    rw [show (s.dropWhile (!isSeparator ·)).head? = some c from hc] at h
    simpa using h
  rcases leadingDigits_of_form hform hheadLead hmore with ⟨hnil, hvalue⟩
  rw [hsplit] at hnil hvalue
  refine ⟨hnil, ?_⟩
  -- The digits behind it count for the other parser only.
  have hbehind : ((s.dropWhile (!isSeparator ·)).filter (!isSeparator ·)).filter isHexDigit
      = behindSeparator s := by
    rw [List.filter_filter]
    refine List.filter_congr fun c _ => ?_
    cases hdigit : isHexDigit c with
    | false => rfl
    | true => simp [isSeparator_of_isHexDigit hdigit]
  rw [hvalue, ← hexValue_of_form hform, List.filter_append, hexValue_append, hbehind]

/-! ### Agreement -/

/-- The two parsers treat a string as one grammar has it: with the same
result, and rejecting it unless it is a number. -/
structure OneGrammar (s : List UInt8) : Prop where
  same : parseHexOffset s = parseU64Token s
  reject : (∀ v, ¬ Numeral s v) → parseHexOffset s = none ∧ parseU64Token s = none
  kept : ∀ v, parseHexOffset s = some v → Numeral s v.toNat

/-- A number has one value. -/
theorem numeral_unique {s : List UInt8} {v w : Nat} (hv : Numeral s v) (hw : Numeral s w) :
    v = w := by
  rw [← hexValue_of_form hv, ← hexValue_of_form hw]

/-- A number fits 64 bits. -/
theorem numeral_lt {s : List UInt8} {v : Nat} (hnumeral : Numeral s v) : v < 2 ^ 64 := by
  have h := (form_iff _ _).mp hnumeral
  rw [h.2]
  have hlt := (hexValue_lt_iff h.1.2.1 16).mpr h.1.2.2
  omega

/-- A form starts with a digit. -/
theorem head_of_form {s : List UInt8} {v : Nat} (hform : Form s v) :
    ∃ c ∈ s.head?, isHexDigit c = true := by
  have hdigits : ∀ (ds more : List UInt8), IsDigits ds →
      ∃ c ∈ (ds ++ more).head?, isHexDigit c = true := by
    intro ds more hds
    cases ds with
    | nil => exact absurd rfl hds.1
    | cons c ds => exact ⟨c, rfl, hds.2.1 c List.mem_cons_self⟩
  cases hform with
  | prefixed x ds hx hds => exact ⟨'0'.toUInt8, rfl, rfl⟩
  | suffixed h ds hh hds => exact hdigits ds [h] hds
  | plain _ hds => simpa using hdigits s [] hds

/-- A number that does not start with a digit starts with a separator. -/
theorem leadingDigits_of_separator {s : List UInt8} {v : Nat} (hnumeral : Numeral s v)
    (hhead : ¬ ∃ c ∈ s.head?, isHexDigit c = true) : leadingDigits s = [] := by
  -- A first character that is no digit must be a separator, or the numeral
  -- would begin with it.
  cases s with
  | nil => rfl
  | cons c s =>
    have hc : isHexDigit c = false := by
      by_contra hdigit
      exact hhead ⟨c, rfl, by simpa using hdigit⟩
    have hsep : isSeparator c = true := by
      by_contra hsep
      rcases head_of_form hnumeral with ⟨d, hd, hdigit⟩
      rw [List.filter_cons_of_pos (by simpa using hsep)] at hd
      simp only [List.head?_cons, Option.mem_def, Option.some.injEq] at hd
      rw [hd, hdigit] at hc
      cases hc
    rcases isSpace_of_isSeparator hsep with ⟨hspace, hminus, hplus⟩
    have hX : c ≠ '0'.toUInt8 := by
      rintro rfl
      cases hc
    unfold leadingDigits
    rw [List.dropWhile_cons, if_neg (by simp [hspace])]
    simp only [stripSign, if_neg hminus, if_neg hplus]
    have hstrip : stripPrefix (c :: s) = c :: s := by
      unfold stripPrefix
      split
      · rename_i c' x d rest heq
        rw [List.cons.injEq] at heq
        rw [if_neg (fun h => hX (heq.1.trans h.1)), heq.1, heq.2]
      · rfl
    rw [hstrip, List.takeWhile_cons, if_neg (by simp [hc])]

/-- `stoull` reads a number as it is exactly when the number starts with
a digit and, unless it is zero, has no digit behind a separator. -/
theorem stoull_numeral_iff {s : List UInt8} {v : Nat} (hnumeral : Numeral s v) :
    stoull s = some (UInt64.ofNat v)
      ↔ (∃ c ∈ s.head?, isHexDigit c = true) ∧ (v = 0 ∨ behindSeparator s = []) := by
  have hv := numeral_lt hnumeral
  -- A separator in front stops `stoull` before any digit.
  by_cases hhead : ∃ c ∈ s.head?, isHexDigit c = true
  · simp only [hhead, true_and]
    rcases numeral_split hnumeral hhead with ⟨hnil, hsplit⟩
    have hle : hexValue (leadingDigits s) ≤ v := by
      have := Nat.le_mul_of_pos_right (hexValue (leadingDigits s))
        (Nat.pow_pos (n := (behindSeparator s).length) (show 0 < 16 by norm_num))
      omega
    have hread : stoull s = some (UInt64.ofNat (hexValue (leadingDigits s))) := by
      cases s with
      | nil => exact absurd rfl hnil
      | cons c s =>
        rcases hhead with ⟨d, hd, hdigit⟩
        simp only [List.head?_cons, Option.mem_def, Option.some.injEq] at hd
        subst hd
        unfold stoull
        simp only [(leadingDigits_of_head s hdigit).2]
        rw [show List.takeWhile isHexDigit
            (stripPrefix (stripSign ((c :: s).dropWhile isSpace)).2) = leadingDigits (c :: s)
            from rfl, if_neg hnil, if_neg (by omega)]
        rfl
    have hsame : stoull s = some (UInt64.ofNat v) ↔ hexValue (leadingDigits s) = v := by
      rw [hread, Option.some.injEq, ← UInt64.toNat_inj, UInt64.toNat_ofNat', UInt64.toNat_ofNat',
        Nat.mod_eq_of_lt hv, Nat.mod_eq_of_lt (Nat.lt_of_le_of_lt hle hv)]
    rw [hsame]
    -- The values agree when nothing follows the separator or all digits in
    -- front of it are zeros.
    constructor
    · intro hvalue
      by_cases hbehind : behindSeparator s = []
      · exact .inr hbehind
      · -- Behind a digit that counts, another digit changes the value.
        left
        have hpow : 16 ^ 1 ≤ 16 ^ (behindSeparator s).length :=
          Nat.pow_le_pow_right (by norm_num) (List.length_pos_iff.mpr hbehind)
        have hmul := Nat.mul_le_mul_left (hexValue (leadingDigits s)) hpow
        omega
    · rintro (hzero | hbehind)
      · omega
      · rw [hbehind] at hsplit
        simpa using hsplit.symm
  · refine iff_of_false ?_ (fun h => hhead h.1)
    rw [(stoull_eq_none_iff s).mpr (.inl (leadingDigits_of_separator hnumeral hhead))]
    simp

/-- `parse_hex_offset` is `stoull`, which rejects the empty string as
well. -/
theorem parseHexOffset_eq (s : List UInt8) : parseHexOffset s = stoull s := by
  unfold parseHexOffset
  split_ifs with hnil
  · rw [hnil]
    rfl
  · rfl

/-- The two parsers treat a string as one grammar has it exactly when,
if it is a number, it starts with a digit and has no digit behind a
separator or is zero, and if it is none, it does not start with digits
of which at most sixteen count. -/
theorem parsers_agree_iff (s : List UInt8) :
    OneGrammar s ↔
      (∀ v, Numeral s v →
        (∃ c ∈ s.head?, isHexDigit c = true) ∧ (v = 0 ∨ behindSeparator s = []))
      ∧ ((∀ v, ¬ Numeral s v) →
        leadingDigits s = [] ∨ 16 < (significant (leadingDigits s)).length) := by
  -- A numeral must be read alike by both, anything else rejected by both.
  by_cases hex : ∃ v, Numeral s v
  · rcases hex with ⟨v, hv⟩
    have htoNat : (UInt64.ofNat v).toNat = v := by
      rw [UInt64.toNat_ofNat']
      exact Nat.mod_eq_of_lt (numeral_lt hv)
    have htoken : parseU64Token s = some (UInt64.ofNat v) := by
      rw [parseU64Token_eq_some_iff, htoNat]
      exact hv
    have hone : OneGrammar s ↔ stoull s = some (UInt64.ofNat v) := by
      constructor
      · intro h
        rw [← parseHexOffset_eq, h.same, htoken]
      · intro h
        rw [← parseHexOffset_eq] at h
        refine ⟨h.trans htoken.symm, fun hnone => absurd hv (hnone v), ?_⟩
        intro w hw
        rw [h, Option.some.injEq] at hw
        rw [← hw, htoNat]
        exact hv
    rw [hone, stoull_numeral_iff hv]
    constructor
    · intro h
      refine ⟨fun w hw => ?_, fun hnone => absurd hv (hnone v)⟩
      rw [numeral_unique hw hv]
      exact h
    · intro h
      exact h.1 v hv
  · have hnone : ∀ v, ¬ Numeral s v := not_exists.mp hex
    have htoken : parseU64Token s = none := by
      rw [Option.eq_none_iff_forall_ne_some]
      intro v hv
      exact hnone _ ((parseU64Token_eq_some_iff s v).mp hv)
    have hone : OneGrammar s ↔ stoull s = none := by
      constructor
      · intro h
        rw [← parseHexOffset_eq]
        exact (h.reject hnone).1
      · intro h
        rw [← parseHexOffset_eq] at h
        refine ⟨h.trans htoken.symm, fun _ => ⟨h, htoken⟩, ?_⟩
        intro w hw
        rw [h] at hw
        cases hw
    rw [hone, stoull_eq_none_iff]
    constructor
    · intro h
      exact ⟨fun v hv => absurd hv (hnone v), fun _ => h⟩
    · intro h
      exact h.2 hnone

/-- An offset in the documented form with a separator: the offset parser
drops what stands behind the separator. -/
theorem trailing_text_dropped : ¬ ∀ s, OneGrammar s := by
  intro hall
  have hsame := (hall ("ffff`f800".toList.map Char.toUInt8)).same
  revert hsame
  decide +kernel

end Revhv.Numbers
