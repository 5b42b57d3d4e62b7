import Revhv.Um.TraceFormat

/-!
# `Revhv.Proofs.TraceFormat`: templates

A template is a list of segments: literal texts and placeholders. Its text is
scanned segment by segment.

What a template should put out is stated without the functions of the parser:
`fieldName` is the table of the names, and `namedValue` takes the value of a
named field from the slot whose field has this name.

* `scan_terminates`: the scan ends on every string.
* `scan_segment`: the scan over one segment, whatever stands behind it.
* `fieldValue_eq_iff`: when the parser takes the value of the named field. A name
  that is no field's is looked up as `none`, and the first slot without a field
  is found for it.
* `applyCustomFormat_iff`: when every template puts out the outputs of its
  segments.
-/

set_option autoImplicit false

namespace Revhv.TraceFormat

open Revhv.Lib Revhv.Symbols Revhv.Trace Revhv.TraceParser Revhv.TraceSymbols

/-! ### Segments -/

/-- The name in a placeholder: a text without braces and without a
colon. -/
structure Name where
  text : Text
  plain : openBrace ∉ text ∧ closeBrace ∉ text ∧ colon ∉ text

/-- The spec in a placeholder: a text without braces. -/
structure Spec where
  text : Text
  plain : openBrace ∉ text ∧ closeBrace ∉ text

/-- A segment of a template. -/
inductive Segment where
  | literal (text : Text)
  | placeholder (name : Name) (spec : Option Spec)

/-- The name that a segment looks up, if it is a placeholder. -/
def Segment.name? : Segment → Option Name
  | .literal _ => none
  | .placeholder name _ => some name

/-- A character of a literal, with a brace doubled. -/
def escape (c : UInt8) : Text :=
  if c = openBrace ∨ c = closeBrace then [c, c] else [c]

/-- How a segment is written. -/
def Segment.written : Segment → Text
  | .literal text => text.flatMap escape
  | .placeholder name none => [openBrace] ++ name.text ++ [closeBrace]
  | .placeholder name (some spec) =>
    [openBrace] ++ name.text ++ [colon] ++ spec.text ++ [closeBrace]

/-- A template, as it is written. -/
def template (segments : List Segment) : Text :=
  segments.flatMap Segment.written

/-! ### What a template should put out -/

/-- The name of a field in a template. An unassigned slot has a field
without a name. -/
def fieldName : EptTransitionDataField → Option Text
  | .none => none
  | .guestRip => some (lit "rip")
  | .guestRsp => some (lit "rsp")
  | .guestRax => some (lit "rax")
  | .guestRbx => some (lit "rbx")
  | .guestRcx => some (lit "rcx")
  | .guestRdx => some (lit "rdx")
  | .guestRsi => some (lit "rsi")
  | .guestRdi => some (lit "rdi")
  | .guestRbp => some (lit "rbp")
  | .guestR8 => some (lit "r8")
  | .guestR9 => some (lit "r9")
  | .guestR10 => some (lit "r10")
  | .guestR11 => some (lit "r11")
  | .guestR12 => some (lit "r12")
  | .guestR13 => some (lit "r13")
  | .guestR14 => some (lit "r14")
  | .guestR15 => some (lit "r15")
  | .guestRetaddr => some (lit "retaddr")
  | .other _ _ => none

/-- The text is the name of a field. -/
def IsField (name : Text) : Prop := ∃ field, fieldName field = some name

/-- The value of the named field of an entry: the data of the first slot
that the config assigns to it, and 0 if it assigns none. -/
def namedValue (e : Entry) (cfg : EptTransitionCfg) (name : Text) : UInt64 :=
  match (List.finRange 6).find? fun i => fieldName (cfg.dataMap i) = some name with
  | some slot => e.data slot
  | none => 0

/-- The first slot that the config leaves unassigned. -/
def unassigned (cfg : EptTransitionCfg) : Option (Fin 6) :=
  (List.finRange 6).find? fun i => cfg.dataMap i = .none

section
variable (modules : List Kmodule) (load : Text → UInt64 → Option Pe)
  (vformat : Text → UInt64 → Option Text) (e : Entry) (cfg : EptTransitionCfg)

/-- What a segment should put out: the literal text, or the value of the
named field. The value is resolved as a symbol without a spec and
formatted by the spec otherwise, with `?` for a spec that is no good. An
empty spec is none. -/
def Segment.output (st : PeState) : Segment → Text × PeState
  | .literal text => (text, st)
  | .placeholder name spec =>
    let val := namedValue e cfg name.text
    match (spec.map Spec.text).getD [] with
    | [] =>
      ((TraceSymbols.resolveAddress modules load st val).1.text,
        (TraceSymbols.resolveAddress modules load st val).2)
    | c :: text =>
      ((vformat ([openBrace, colon] ++ c :: text ++ [closeBrace]) val).getD (lit "?"), st)

/-- What a template should put out: the outputs of its segments, one
behind the other. The images that one segment loads are there for the
next. -/
def outputs : PeState → List Segment → Text × PeState
  | st, [] => ([], st)
  | st, s :: segments =>
    let first := s.output modules load vformat e cfg st
    let others := outputs first.2 segments
    (first.1 ++ others.1, others.2)

/-! ### What the parser puts out for a segment -/

/-- The parser's text of a segment, with its own lookup of the field. -/
def Segment.printed (st : PeState) : Segment → Text × PeState
  | .literal text => (text, st)
  | .placeholder name spec =>
    valueText modules load vformat st (fieldValue e cfg (parseFieldType name.text))
      ((spec.map Spec.text).getD [])

/-- The parser's texts of segments, one behind the other. -/
def printedAll : PeState → List Segment → Text × PeState
  | st, [] => ([], st)
  | st, s :: segments =>
    let first := s.printed modules load vformat e cfg st
    let others := printedAll first.2 segments
    (first.1 ++ others.1, others.2)

/-! ### The scan ends -/

/-- A round that goes on takes at least one character. -/
theorem scanRound_shorter {rest result rest' result' : Text} {st st' : PeState}
    (hround : scanRound modules load vformat e cfg rest result st = .again rest' result' st') :
    rest'.length < rest.length := by
  cases rest with
  | nil => cases hround
  | cons c more =>
    have htail : more.tail.length ≤ more.length := by
      rw [List.length_tail]
      omega
    have hdrop : (more.dropWhile (· ≠ closeBrace)).tail.length ≤ more.length := by
      have h := (List.dropWhile_sublist (l := more) (· ≠ closeBrace)).length_le
      rw [List.length_tail]
      omega
    unfold scanRound at hround
    simp only at hround
    rw [List.length_cons]
    split_ifs at hround <;> cases hround <;> omega

/-- More rounds than characters are enough, and make no difference. -/
theorem scan_enough (fuel : Nat) :
    ∀ (rest result : Text) (st : PeState), rest.length < fuel →
      scan modules load vformat e cfg fuel rest result st
          = scan modules load vformat e cfg (rest.length + 1) rest result st
        ∧ (scan modules load vformat e cfg fuel rest result st).isSome = true := by
  induction fuel using Nat.strong_induction_on with
  | _ fuel ih =>
    intro rest result st hfuel
    -- A round consumes at least one character, so the length of the text is
    -- enough fuel.
    cases fuel with
    | zero => omega
    | succ fuel =>
      rw [scan, scan]
      cases hround : scanRound modules load vformat e cfg rest result st with
      | done result' st' => exact ⟨rfl, rfl⟩
      | again rest' result' st' =>
        have hshort := scanRound_shorter modules load vformat e cfg hround
        have hmany := ih fuel (by omega) rest' result' st' (by omega)
        have hfew := ih rest.length (by omega) rest' result' st' hshort
        exact ⟨hmany.1.trans hfew.1.symm, hmany.2⟩

/-- The scan with as many rounds as it needs. -/
def scanAll (rest result : Text) (st : PeState) : Option (Text × PeState) :=
  scan modules load vformat e cfg (rest.length + 1) rest result st

/-- The scan ends on every string, well formed or not. -/
theorem scan_terminates (st : PeState) (fmt : Text) :
    (applyCustomFormat modules load vformat e cfg st fmt).isSome = true :=
  (scan_enough modules load vformat e cfg _ fmt [] st (Nat.lt_succ_self _)).2

/-- A round, and the scan of what it leaves. -/
theorem scanAll_again {rest result rest' result' : Text} {st st' : PeState}
    (hround : scanRound modules load vformat e cfg rest result st = .again rest' result' st') :
    scanAll modules load vformat e cfg rest result st
      = scanAll modules load vformat e cfg rest' result' st' := by
  unfold scanAll
  rw [scan, hround]
  exact (scan_enough modules load vformat e cfg _ rest' result' st'
    (scanRound_shorter modules load vformat e cfg hround)).1

/-! ### Segments are scanned one by one -/

/-- One character of a literal. -/
theorem scan_escape (c : UInt8) (tail result : Text) (st : PeState) :
    scanAll modules load vformat e cfg (escape c ++ tail) result st
      = scanAll modules load vformat e cfg tail (result ++ [c]) st := by
  refine scanAll_again modules load vformat e cfg ?_
  by_cases hopen : c = openBrace
  · subst hopen
    rfl
  by_cases hclose : c = closeBrace
  · subst hclose
    rfl
  · rw [escape, if_neg (not_or.mpr ⟨hopen, hclose⟩), List.singleton_append, scanRound,
      if_neg (fun h => hopen h.1), if_neg (fun h => hclose h.1), if_pos hopen]

/-- A literal text. -/
theorem scan_literal (text tail : Text) :
    ∀ (result : Text) (st : PeState),
      scanAll modules load vformat e cfg (text.flatMap escape ++ tail) result st
        = scanAll modules load vformat e cfg tail (result ++ text) st := by
  induction text with
  | nil => intro result st; rw [List.flatMap_nil, List.nil_append, List.append_nil]
  | cons c text ih =>
    intro result st
    rw [List.flatMap_cons, List.append_assoc, scan_escape, ih, List.append_assoc,
      List.singleton_append]

/-- A text without braces between two braces. What follows the closing
brace makes no difference: the search for it stops at the first one. -/
theorem scan_placeholder {body : Text} (hopen : openBrace ∉ body) (hclose : closeBrace ∉ body)
    (tail result : Text) (st : PeState) :
    scanAll modules load vformat e cfg (openBrace :: (body ++ closeBrace :: tail)) result st
      = scanAll modules load vformat e cfg tail
          (result ++ (placeholderText modules load vformat e cfg st body).1)
          (placeholderText modules load vformat e cfg st body).2 := by
  refine scanAll_again modules load vformat e cfg ?_
  have hall : ∀ c ∈ body, (decide (c ≠ closeBrace)) = true := by
    intro c hc
    rw [decide_eq_true_eq]
    rintro rfl
    exact hclose hc
  have htake : (body ++ closeBrace :: tail).takeWhile (· ≠ closeBrace) = body := by
    rw [List.takeWhile_append_of_pos hall, List.takeWhile_cons_of_neg (by simp), List.append_nil]
  have hdrop : (body ++ closeBrace :: tail).dropWhile (· ≠ closeBrace) = closeBrace :: tail := by
    rw [List.dropWhile_append_of_pos hall, List.dropWhile_cons_of_neg (by simp)]
  -- The character behind the opening brace is no second one.
  have hhead : (body ++ closeBrace :: tail).head? ≠ some openBrace := by
    cases body with
    | nil =>
      rw [List.nil_append, List.head?_cons, ne_eq, Option.some.injEq]
      decide
    | cons c body =>
      rw [List.cons_append, List.head?_cons, ne_eq, Option.some.injEq]
      rintro rfl
      exact hopen List.mem_cons_self
  rw [scanRound, if_neg (fun h => hhead h.2), if_neg (fun h => absurd h.1 (by decide)),
    if_neg (not_not.mpr rfl), if_neg (by simp), htake, hdrop]
  rfl

/-- A name and its spec, taken apart at the colon. -/
theorem placeholderText_eq {name : Text} (hname : colon ∉ name) (spec : Option Text)
    (st : PeState) :
    placeholderText modules load vformat e cfg st
        (match spec with
          | none => name
          | some spec => name ++ colon :: spec)
      = valueText modules load vformat st (fieldValue e cfg (parseFieldType name))
          (spec.getD []) := by
  -- The name has no colon, so the first one in the text separates the format.
  have hall : ∀ c ∈ name, (decide (c ≠ colon)) = true := by
    intro c hc
    rw [decide_eq_true_eq]
    rintro rfl
    exact hname hc
  cases spec with
  | none =>
    simp only [placeholderText]
    rw [List.dropWhile_eq_nil_iff.mpr hall]
    rfl
  | some spec =>
    simp only [placeholderText]
    rw [List.dropWhile_append_of_pos hall, List.takeWhile_append_of_pos hall,
      List.dropWhile_cons_of_neg (by simp), List.takeWhile_cons_of_neg (by simp), List.append_nil]
    rfl

/-- The scan over a segment puts out the parser's text of it, whatever
stands behind it. -/
theorem scan_segment (s : Segment) (tail result : Text) (st : PeState) :
    scanAll modules load vformat e cfg (s.written ++ tail) result st
      = scanAll modules load vformat e cfg tail
          (result ++ (s.printed modules load vformat e cfg st).1)
          (s.printed modules load vformat e cfg st).2 := by
  cases s with
  | literal text => exact scan_literal modules load vformat e cfg text tail result st
  | placeholder name spec =>
    -- Neither the name nor the format has a brace, so the scan finds the
    -- closing one of this placeholder.
    obtain ⟨hopen, hclose, hcolon⟩ := name.plain
    have hvalue := placeholderText_eq modules load vformat e cfg hcolon (spec.map Spec.text) st
    cases spec with
    | none =>
      have hscan := scan_placeholder modules load vformat e cfg hopen hclose tail result st
      simp only [Option.map_none] at hvalue
      rw [hvalue] at hscan
      simpa [Segment.written, Segment.printed] using hscan
    | some spec =>
      have hopenAll : openBrace ∉ name.text ++ colon :: spec.text := by
        simp only [List.mem_append, List.mem_cons, not_or]
        exact ⟨hopen, by decide, spec.plain.1⟩
      have hcloseAll : closeBrace ∉ name.text ++ colon :: spec.text := by
        simp only [List.mem_append, List.mem_cons, not_or]
        exact ⟨hclose, by decide, spec.plain.2⟩
      have hscan := scan_placeholder modules load vformat e cfg hopenAll hcloseAll tail result st
      simp only [Option.map_some] at hvalue
      rw [hvalue] at hscan
      simpa [Segment.written, Segment.printed] using hscan

/-- The scan of a template, from any result on. -/
theorem scan_template (segments : List Segment) :
    ∀ (result : Text) (st : PeState),
      scanAll modules load vformat e cfg (template segments) result st
        = some (result ++ (printedAll modules load vformat e cfg st segments).1,
            (printedAll modules load vformat e cfg st segments).2) := by
  induction segments with
  | nil =>
    intro result st
    simp [scanAll, template, scan, scanRound, printedAll]
  | cons s segments ih =>
    intro result st
    rw [show template (s :: segments) = s.written ++ template segments from List.flatMap_cons,
      scan_segment, ih, printedAll, List.append_assoc]

/-- On the template of a list of segments, `apply_custom_format` puts
out its texts of the segments, in order. -/
theorem applyCustomFormat_printed (st : PeState) (segments : List Segment) :
    applyCustomFormat modules load vformat e cfg st (template segments)
      = some (printedAll modules load vformat e cfg st segments) := by
  have h := scan_template modules load vformat e cfg segments [] st
  rwa [List.nil_append] at h

/-! ### The value of a name -/

/-- `parse_field_type` finds the field of a name, and `none` for a name
that is no field's. -/
theorem parseFieldType_eq_iff {name : Text} {field : EptTransitionDataField}
    (hfield : field ≠ .none) : parseFieldType name = field ↔ fieldName field = some name := by
  constructor
  · intro h
    -- The table has a pair for what is found, and each of its pairs is one of `fieldName`.
    have hpairs : ∀ pair ∈ fieldNames, fieldName pair.2 = some pair.1 := by
      simp only [fieldNames, List.forall_mem_cons, fieldName, List.not_mem_nil, false_imp_iff,
        implies_true, and_self]
    rw [parseFieldType] at h
    cases hlookup : fieldNames.lookup name with
    | none =>
      rw [hlookup] at h
      exact absurd h.symm hfield
    | some found =>
      obtain ⟨front, back, hsplit, -⟩ := List.lookup_eq_some_iff.mp hlookup
      rw [hlookup, Option.getD_some] at h
      rw [← h]
      exact hpairs (name, found) (by simp [hsplit])
  · intro h
    cases field <;> simp only [fieldName, Option.some.injEq, reduceCtorEq] at h <;>
      first | exact absurd rfl hfield | (rw [← h]; decide +kernel)

/-- A name that is no field's is looked up as `none`. -/
theorem parseFieldType_of_not_isField {name : Text} (h : ¬ IsField name) :
    parseFieldType name = .none := by
  by_contra hfield
  exact h ⟨_, (parseFieldType_eq_iff hfield).mp rfl⟩

/-- For the name of a field, the parser takes the value of the named
field. -/
theorem fieldValue_of_isField {name : Text} (h : IsField name) :
    fieldValue e cfg (parseFieldType name) = namedValue e cfg name := by
  obtain ⟨field, hname⟩ := h
  -- The name of a field is not that of `none`, which has no name.
  have hfield : field ≠ .none := by
    rintro rfl
    cases hname
  have hparse : parseFieldType name = field := (parseFieldType_eq_iff hfield).mpr hname
  have hslot : ∀ other, other = field ↔ fieldName other = some name := by
    intro other
    constructor
    · rintro rfl
      exact hname
    · intro hother
      have hne : other ≠ .none := by
        rintro rfl
        cases hother
      exact ((parseFieldType_eq_iff hne).mpr hother).symm.trans hparse
  have htest : (fun i => decide (cfg.dataMap i = field)) =
      fun i => decide (fieldName (cfg.dataMap i) = some name) :=
    funext fun i => decide_eq_decide.mpr (hslot (cfg.dataMap i))
  rw [fieldValue, namedValue, findDataSlot, hparse]
  exact congrArg (fun test : Fin 6 → Bool =>
    match (List.finRange 6).find? test with
    | some slot => e.data slot
    | none => 0) htest

/-- For any other name the value should be 0, and the parser takes the
data of the first slot that is unassigned. -/
theorem fieldValue_of_not_isField {name : Text} (h : ¬ IsField name) :
    namedValue e cfg name = 0 ∧
      fieldValue e cfg (parseFieldType name) = ((unassigned cfg).map e.data).getD 0 := by
  constructor
  · have hnone : ((List.finRange 6).find? fun i => fieldName (cfg.dataMap i) = some name) =
        none := by
      rw [List.find?_eq_none]
      intro i _ hi
      exact h ⟨_, of_decide_eq_true hi⟩
    rw [namedValue, hnone]
  · rw [parseFieldType_of_not_isField h, fieldValue]
    show (match unassigned cfg with | some slot => e.data slot | none => 0) = _
    cases unassigned cfg <;> rfl

/-- A name is looked up well: it is a field's, or no slot is unassigned,
or the first of them holds 0. -/
def LooksUp (name : Text) : Prop :=
  IsField name ∨ ∀ slot, unassigned cfg = some slot → e.data slot = 0

/-- The parser takes the right value exactly for the names that are
looked up well. -/
theorem fieldValue_eq_iff (name : Text) :
    fieldValue e cfg (parseFieldType name) = namedValue e cfg name ↔ LooksUp e cfg name := by
  by_cases h : IsField name
  · exact ⟨fun _ => .inl h, fun _ => fieldValue_of_isField e cfg h⟩
  · obtain ⟨hzero, hvalue⟩ := fieldValue_of_not_isField e cfg h
    rw [hzero, hvalue, LooksUp]
    cases hslot : unassigned cfg with
    | none => simp
    | some slot =>
      simp only [Option.map_some, Option.getD_some, Option.some.injEq, forall_eq', or_iff_right h]

/-- The parser's text of a segment is what the segment should put out,
if its name is looked up well. -/
theorem printed_eq_output {s : Segment} (h : ∀ name ∈ s.name?, LooksUp e cfg name.text)
    (st : PeState) :
    s.printed modules load vformat e cfg st = s.output modules load vformat e cfg st := by
  cases s with
  | literal text => rfl
  | placeholder name spec =>
    have hvalue := (fieldValue_eq_iff e cfg name.text).mpr (h name rfl)
    simp only [Segment.printed, Segment.output, hvalue, valueText]
    cases (spec.map Spec.text).getD [] with
    | nil => rfl
    | cons c text => rfl

/-- The same for a list of segments: the images that are loaded are the
same, too. -/
theorem printedAll_eq_outputs {segments : List Segment}
    (h : ∀ s ∈ segments, ∀ name ∈ s.name?, LooksUp e cfg name.text) :
    ∀ st, printedAll modules load vformat e cfg st segments =
      outputs modules load vformat e cfg st segments := by
  induction segments with
  | nil => exact fun _ => rfl
  | cons s segments ih =>
    intro st
    have hfirst := printed_eq_output modules load vformat e cfg (h s List.mem_cons_self) st
    have hothers := ih fun t ht => h t (List.mem_cons_of_mem _ ht)
    rw [printedAll, outputs, hfirst, hothers]

/-- `{:x}` tells all values apart. -/
theorem formatX_injective {a b : UInt64} (h : formatX a = formatX b) : a = b := by
  have hvalue := congrArg hexValue h
  rw [formatX, formatX, hexValue_toHex, hexValue_toHex] at hvalue
  exact UInt64.toNat_inj.mp hvalue

/-- `apply_custom_format` ends on every string. On the templates whose
placeholders have one of some names, it puts out what they should,
exactly if each of these names is looked up well: the name is one of the
eighteen, or the config assigns every slot, or the first slot that it
leaves unassigned holds 0. -/
theorem applyCustomFormat_iff
    (hhex : ∀ val, vformat ([openBrace, colon] ++ lit "x" ++ [closeBrace]) val = some (formatX val))
    (names : Name → Prop) :
    (∀ st fmt, (applyCustomFormat modules load vformat e cfg st fmt).isSome = true) ∧
      ((∀ st segments, (∀ s ∈ segments, ∀ name ∈ s.name?, names name) →
          (applyCustomFormat modules load vformat e cfg st (template segments)).map Prod.fst =
            some (outputs modules load vformat e cfg st segments).1) ↔
        ∀ name, names name → LooksUp e cfg name.text) := by
  refine ⟨scan_terminates modules load vformat e cfg, ?_, ?_⟩
  · intro h name hname
    -- `{name:x}` shows which value has been taken.
    have hspec : openBrace ∉ lit "x" ∧ closeBrace ∉ lit "x" := by decide +kernel
    have hsegment := h .empty [.placeholder name (some ⟨lit "x", hspec⟩)] (by
      intro s hs other hother
      rw [List.mem_singleton.mp hs] at hother
      cases hother
      exact hname)
    rw [applyCustomFormat_printed, Option.map_some, Option.some.injEq] at hsegment
    have hprinted : formatX (fieldValue e cfg (parseFieldType name.text)) ++ [] =
        formatX (namedValue e cfg name.text) ++ [] := by
      have hleft := congrArg (fun text => text.getD (lit "?"))
        (hhex (fieldValue e cfg (parseFieldType name.text)))
      have hright := congrArg (fun text => text.getD (lit "?"))
        (hhex (namedValue e cfg name.text))
      exact (congrArg (· ++ []) hleft).symm.trans (hsegment.trans (congrArg (· ++ []) hright))
    rw [List.append_nil, List.append_nil] at hprinted
    exact (fieldValue_eq_iff e cfg name.text).mp (formatX_injective hprinted)
  · intro h st segments hnames
    have hlooks : ∀ s ∈ segments, ∀ name ∈ s.name?, LooksUp e cfg name.text :=
      fun s hs name hname => h name (hnames s hs name hname)
    rw [applyCustomFormat_printed, Option.map_some,
      printedAll_eq_outputs modules load vformat e cfg hlooks]

end

/-- A formatter that knows `{:x}`. -/
def hexFormat (fmt : Text) (val : UInt64) : Option Text :=
  if fmt = [openBrace, colon] ++ lit "x" ++ [closeBrace] then some (formatX val) else none

/-- An entry with RIP in its first slot, and a value in the second. -/
def sampleEntry (val : UInt64) : Entry where
  formatId := .eptTargetTransition
  coreId := 0
  pad0 := 0
  timestamp := 1
  data := fun i => if i.val = 0 then 0x1000 else if i.val = 1 then val else 0

/-- A config that assigns the first slot to RIP, and no other. -/
def ripCfg : EptTransitionCfg := ⟨fun i => if i.val = 0 then .guestRip else .none⟩

/-- The name `foo`, which is no field's. -/
def foo : Name := ⟨lit "foo", by decide +kernel⟩

/-- The first slot that the config leaves unassigned is the second.
While it holds 0, every template comes out as it should. -/
theorem applyCustomFormat_iff_rip :
    (applyCustomFormat [] (fun _ _ => none) hexFormat (sampleEntry 0) ripCfg .empty
      (template [.literal (lit "rip"), .placeholder foo none])).map Prod.fst =
        some (outputs [] (fun _ _ => none) hexFormat (sampleEntry 0) ripCfg .empty
          [.literal (lit "rip"), .placeholder foo none]).1 := by
  have hunassigned : unassigned ripCfg = some 1 := by decide
  refine ((applyCustomFormat_iff [] (fun _ _ => none) hexFormat (sampleEntry 0) ripCfg
    (fun val => if_pos rfl) fun _ => True).2.mpr ?_) _ _ fun _ _ _ _ => trivial
  intro name _
  right
  intro slot hslot
  rw [hunassigned, Option.some.injEq] at hslot
  rw [← hslot]
  rfl

/-- The template `{foo}` puts out the data of the second slot, which no
field is assigned to. It should put out 0. -/
theorem applyCustomFormat_foo :
    (applyCustomFormat [] (fun _ _ => none) hexFormat (sampleEntry 0x1234) ripCfg .empty
      (template [.placeholder foo none])).map Prod.fst = some (lit "0000000000001234") ∧
    (applyCustomFormat [] (fun _ _ => none) hexFormat (sampleEntry 0x1234) ripCfg .empty
      (template [.placeholder foo none])).map Prod.fst ≠
        some (outputs [] (fun _ _ => none) hexFormat (sampleEntry 0x1234) ripCfg .empty
          [.placeholder foo none]).1 := by
  decide +kernel

end Revhv.TraceFormat
