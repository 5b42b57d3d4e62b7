import Mathlib.Data.Nat.Digits.Lemmas
import Revhv.Km.Format

/-!
# `Revhv.Proofs.Format`: what the formatter stores

A format string is a list of directives, perhaps with an incomplete specifier
behind them. With its arguments it is a list of items, each with a text. The
loop of `format` stores the texts of the items, cut to the buffer.

* `loop_eq_render`: the loop in terms of the items.
* `format_wellFormatted_iff`: when a call keeps to the format string and to the
  buffer, and returns the length of a terminated text.
* `lone_percent`: a format string that the loop runs past.
-/

set_option autoImplicit false

namespace Revhv.Format

/-! ### Directives -/

/-- A character, or a specifier with its length modifier read. -/
inductive Directive where
  | char (c : UInt8)
  | convert (isLongLong : Bool) (c : UInt8)
deriving DecidableEq

/-- The directives of a format string. The second part says that the
string ends inside a specifier. -/
def directives : List UInt8 → List Directive × Bool
  | [] => ([], false)
  | c :: p =>
    if c ≠ '%'.toUInt8 then (.char c :: (directives p).1, (directives p).2)
    else
      match p with
      | [] => ([], true)
      | c₁ :: p₁ =>
        if c₁ = 'l'.toUInt8 then
          match p₁ with
          | [] => ([], true)
          | c₂ :: p₂ =>
            if c₂ = 'l'.toUInt8 then
              match p₂ with
              | [] => ([], true)
              | c₃ :: p₃ => (.convert true c₃ :: (directives p₃).1, (directives p₃).2)
            else (.convert false c₂ :: (directives p₂).1, (directives p₂).2)
        else (.convert false c₁ :: (directives p₁).1, (directives p₁).2)

/-- What the loop does for one directive. -/
def step (maxSize : Nat) : Directive → List Arg → List UInt8 →
    Except Fault (List Arg × List UInt8)
  | .char c, args, text => .ok (args, text ++ [c])
  | .convert isLongLong c, args, text => conversion maxSize isLongLong c args text

/-- The loop over directives. -/
def run (maxSize : Nat) (incomplete : Bool) : List Directive → List Arg → List UInt8 →
    Except Fault (List UInt8)
  | [], _, text =>
    if incomplete ∧ text.length < maxSize - 1 then .error .pastFormat else .ok text
  | d :: ds, args, text =>
    if text.length < maxSize - 1 then
      match step maxSize d args text with
      | .error fault => .error fault
      | .ok (args, text) => run maxSize incomplete ds args text
    else .ok text

/-- A loop whose buffer is full ends. -/
theorem run_of_full (maxSize : Nat) (incomplete : Bool) (ds : List Directive) (args : List Arg)
    (text : List UInt8) (hfull : ¬ text.length < maxSize - 1) :
    run maxSize incomplete ds args text = .ok text := by
  cases ds with
  | nil => simp [run, hfull]
  | cons d ds => simp [run, hfull]

/-- A character that starts no specifier. -/
theorem directives_char {c : UInt8} (p : List UInt8) (hc : c ≠ '%'.toUInt8) :
    directives (c :: p) = (.char c :: (directives p).1, (directives p).2) := by
  rw [directives.eq_def]
  exact if_pos hc

/-- A specifier without a length modifier. -/
theorem directives_short {c : UInt8} (p : List UInt8) (hc : c ≠ 'l'.toUInt8) :
    directives ('%'.toUInt8 :: c :: p)
      = (.convert false c :: (directives p).1, (directives p).2) := by
  rw [directives.eq_def]
  simp only [ne_eq, not_true, if_false, if_neg hc]

/-- A specifier with one `l`. -/
theorem directives_one {c : UInt8} (p : List UInt8) (hc : c ≠ 'l'.toUInt8) :
    directives ('%'.toUInt8 :: 'l'.toUInt8 :: c :: p)
      = (.convert false c :: (directives p).1, (directives p).2) := by
  rw [directives.eq_def]
  simp only [ne_eq, not_true, if_false, if_true, if_neg hc]

/-- A specifier with two `l`. -/
theorem directives_long (c : UInt8) (p : List UInt8) :
    directives ('%'.toUInt8 :: 'l'.toUInt8 :: 'l'.toUInt8 :: c :: p)
      = (.convert true c :: (directives p).1, (directives p).2) := by
  rw [directives.eq_def]
  simp only [ne_eq, not_true, if_false, if_true]

/-- The loop reads directive after directive. -/
theorem loop_eq_run (maxSize : Nat) (fmt : List UInt8) (args : List Arg) (text : List UInt8) :
    loop maxSize fmt args text
      = run maxSize (directives fmt).2 (directives fmt).1 args text := by
  fun_induction loop maxSize fmt args text with
  | case1 => simp [directives, run]
  | case2 c p args text hroom hc ih => simp [directives_char p hc, run, step, hroom, ih]
  -- The three ways to end inside a specifier.
  | case3 => simp_all [directives, run]
  | case4 => simp_all [directives, run]
  | case5 => simp_all [directives, run]
  -- A conversion after two, one and no `l`; either it fails or the loop goes on.
  | case6 => simp_all [directives_long, run, step]
  | case7 => simp_all [directives_long, run, step]
  | case8 => simp_all [directives_one, run, step]
  | case9 => simp_all [directives_one, run, step]
  | case10 => simp_all [directives_short, run, step]
  | case11 => simp_all [directives_short, run, step]
  | case12 => rw [run_of_full _ _ _ _ _ ‹_›]

/-! ### Items -/

/-- A directive with its argument. -/
inductive Item where
  | char (c : UInt8)
  | string (s : CString)
  | signed (value : BitVec 64)
  | unsigned (base : Nat) (value : BitVec 64)
  | pointer (value : BitVec 64)
deriving DecidableEq

/-- The digits of a number, the most significant first; one digit for
zero. -/
def numeral (base value : Nat) : List UInt8 :=
  if value = 0 then [digits 0] else ((Nat.digits base value).map digits).reverse

/-- The text of an item. -/
def Item.text : Item → List UInt8
  | .char c => [c]
  | .string s => s.val
  | .signed value =>
    (if value.toInt < 0 then ['-'.toUInt8] else []) ++ numeral 10 value.toInt.natAbs
  | .unsigned base value => numeral base value.toNat
  | .pointer value => ['0'.toUInt8, 'x'.toUInt8] ++ numeral 16 value.toNat

/-- The text of an item at a position: a pointer whose prefix and first
digit do not fit is printed without the prefix. -/
def Item.textAt (maxSize pos : Nat) : Item → List UInt8
  | .pointer value =>
    if pos + 3 < maxSize then (Item.pointer value).text else numeral 16 value.toNat
  | item => item.text

/-- The item of a specifier and the argument it takes, if the argument
matches. -/
def convertItem (isLongLong : Bool) (c : UInt8) (arg : Arg) : Option Item :=
  if c = 's'.toUInt8 then arg.string.map .string
  else if c = 'd'.toUInt8 ∨ c = 'i'.toUInt8 then some (.signed (arg.signed isLongLong))
  else if c = 'u'.toUInt8 then some (.unsigned 10 (arg.unsigned isLongLong))
  else if c = 'x'.toUInt8 then some (.unsigned 16 (arg.unsigned isLongLong))
  else some (.pointer arg.value)

/-- The conversions that take an argument. -/
def takesArgument (c : UInt8) : Bool :=
  c ∈ ['s'.toUInt8, 'd'.toUInt8, 'i'.toUInt8, 'u'.toUInt8, 'x'.toUInt8, 'p'.toUInt8]

/-- The items of directives and their arguments, `none` when there are
too few arguments or one does not match. -/
def items : List Directive → List Arg → Option (List Item)
  | [], _ => some []
  | .char c :: ds, args => (items ds args).map (.char c :: ·)
  | .convert isLongLong c :: ds, args =>
    if takesArgument c then
      match args with
      | [] => none
      | arg :: args => (convertItem isLongLong c arg).bind fun item => (items ds args).map (item :: ·)
    else (items ds args).map (.char c :: ·)

/-- The texts of items, cut to the buffer. -/
def render (maxSize : Nat) : List Item → List UInt8 → List UInt8
  | [], text => text
  | item :: is, text =>
    render maxSize is ((text ++ item.textAt maxSize text.length).take (maxSize - 1))

/-! ### The text of a number -/

/-- The digits that `int_to_str` collects. -/
theorem temp_eq {base : Nat} (hbase : 2 ≤ base) (room : Nat) :
    ∀ value, 0 < value → value < base ^ room →
      temp base room value = (Nat.digits base value).map digits := by
  induction room with
  | zero => intro value hpos hlt; simp only [pow_zero] at hlt; omega
  | succ room ih =>
    intro value hpos hlt
    rw [Nat.digits_def' (by omega) hpos, List.map_cons, temp]
    congr 1
    by_cases hmore : value / base > 0
    · rw [if_pos hmore]
      refine ih _ hmore (Nat.div_lt_of_lt_mul ?_)
      rwa [pow_succ, Nat.mul_comm] at hlt
    · rw [if_neg hmore, Nat.eq_zero_of_not_pos hmore]
      simp

/-- The loop over `temp` leaves a numeral. -/
theorem temp_reverse {base value : Nat} (hbase : base = 10 ∨ base = 16) (hlt : value < 2 ^ 64) :
    (temp base 32 value).reverse = numeral base value := by
  by_cases hzero : value = 0
  · subst hzero
    simp [temp, numeral]
  · have hpow : value < base ^ 32 := by
      rcases hbase with hbase | hbase <;> subst hbase <;> omega
    rw [temp_eq (by omega) 32 value (Nat.pos_of_ne_zero hzero) hpow, numeral, if_neg hzero]

/-- A text and the part of another one that fits behind it. -/
theorem append_take_eq (text more : List UInt8) {n : Nat} (hlen : text.length ≤ n) :
    text ++ more.take (n - text.length) = (text ++ more).take n := by
  rw [List.take_append, List.take_of_length_le hlen]

/-- `int_to_str` writes the sign and the numeral, cut to the buffer. -/
theorem intToStr_eq {maxSize value base : Nat} {isNegative : Bool} (hsize : 1 < maxSize)
    (hbase : base = 10 ∨ base = 16) (hlt : value < 2 ^ 64) :
    intToStr maxSize value base isNegative
      = ((if isNegative ∧ base = 10 ∧ value > 0 then ['-'.toUInt8] else [])
          ++ numeral base value).take (maxSize - 1) := by
  unfold intToStr
  rw [if_neg (by omega), temp_reverse hbase hlt]
  simp only [if_pos (show 0 < maxSize - 1 by omega)]
  by_cases hsign : isNegative ∧ base = 10 ∧ value > 0
  · rw [if_pos hsign]
    exact append_take_eq _ _ (by simp only [List.length_singleton]; omega)
  · rw [if_neg hsign]
    exact append_take_eq _ _ (by simp)

/-- A number behind a text. -/
theorem append_intToStr {maxSize value base : Nat} {isNegative : Bool} (text : List UInt8)
    (hroom : text.length < maxSize - 1) (hbase : base = 10 ∨ base = 16) (hlt : value < 2 ^ 64) :
    text ++ intToStr (maxSize - text.length) value base isNegative
      = (text ++ ((if isNegative ∧ base = 10 ∧ value > 0 then ['-'.toUInt8] else [])
          ++ numeral base value)).take (maxSize - 1) := by
  rw [intToStr_eq (by omega) hbase hlt, ← append_take_eq _ _ (Nat.le_of_lt hroom)]
  congr 2
  omega

/-- The absolute value that `format` computes, and its sign. -/
theorem signed_eq (val : BitVec 64) :
    (if val.slt 0 then -val else val).toNat = val.toInt.natAbs
      ∧ (val.slt 0 = true ↔ val.toInt < 0) := by
  have hslt : val.slt 0 = true ↔ val.toInt < 0 := by simp [BitVec.slt]
  refine ⟨?_, hslt⟩
  by_cases hneg : val.toInt < 0
  · rw [if_pos (hslt.mpr hneg)]
    have hval := BitVec.toInt_eq_toNat_cond val
    have hlt := val.isLt
    simp only [BitVec.toNat_neg]
    split at hval <;> omega
  · rw [if_neg (fun h => hneg (hslt.mp h))]
    have hval := BitVec.toInt_eq_toNat_cond val
    have hlt := val.isLt
    split at hval <;> omega

/-! ### One directive -/

/-- A directive takes its item from the arguments. -/
inductive Takes : Directive → List Arg → Item → List Arg → Prop where
  | char (c : UInt8) (args : List Arg) : Takes (.char c) args (.char c) args
  | plain (isLongLong : Bool) (c : UInt8) (args : List Arg) (hplain : takesArgument c = false) :
      Takes (.convert isLongLong c) args (.char c) args
  | arg (isLongLong : Bool) (c : UInt8) (arg : Arg) (args : List Arg) (item : Item)
      (htakes : takesArgument c = true) (hitem : convertItem isLongLong c arg = some item) :
      Takes (.convert isLongLong c) (arg :: args) item args

/-- The items of directives, one after the other. -/
theorem items_cons {d : Directive} {ds : List Directive} {args : List Arg} {is : List Item}
    (his : items (d :: ds) args = some is) :
    ∃ item rest args', is = item :: rest ∧ items ds args' = some rest
      ∧ Takes d args item args' := by
  -- A character is copied. A conversion takes an argument unless its letter is
  -- unknown.
  cases d with
  | char c =>
    simp only [items, Option.map_eq_some_iff] at his
    rcases his with ⟨rest, hrest, rfl⟩
    exact ⟨.char c, rest, args, rfl, hrest, .char c args⟩
  | convert isLongLong c =>
    by_cases htakes : takesArgument c = true
    · cases args with
      | nil => simp [items, htakes] at his
      | cons a args =>
        simp only [items, if_pos htakes, Option.bind_eq_some_iff, Option.map_eq_some_iff] at his
        rcases his with ⟨item, hitem, rest, hrest, rfl⟩
        exact ⟨item, rest, args, rfl, hrest, .arg isLongLong c a args item htakes hitem⟩
    · simp only [items, if_neg htakes, Option.map_eq_some_iff] at his
      rcases his with ⟨rest, hrest, rfl⟩
      exact ⟨.char c, rest, args, rfl, hrest, .plain isLongLong c args (by simpa using htakes)⟩

/-- The room for the prefix of a pointer, apart from a buffer of two
bytes. -/
theorem prefix_iff {maxSize pos : Nat} (hsize : maxSize < 2 ^ 64) (hroom : pos < maxSize - 1)
    (htwo : maxSize ≠ 2) : pos < roomForPrefix maxSize ↔ pos + 3 < maxSize := by
  unfold roomForPrefix
  rw [show maxSize + 2 ^ 64 - 3 = maxSize - 3 + 2 ^ 64 by omega, Nat.add_mod_right,
    Nat.mod_eq_of_lt (by omega)]
  omega

/-- A conversion that takes an argument stores the text of its item, cut
to the buffer. -/
theorem conversion_eq {maxSize : Nat} {isLongLong : Bool} {c : UInt8} {arg : Arg} {item : Item}
    (args : List Arg) (text : List UInt8) (hsize : maxSize < 2 ^ 64)
    (hroom : text.length < maxSize - 1) (htakes : takesArgument c = true)
    (hitem : convertItem isLongLong c arg = some item)
    (hpointer : maxSize = 2 → ∀ value, item ≠ .pointer value) :
    conversion maxSize isLongLong c (arg :: args) text
      = .ok (args, (text ++ item.textAt maxSize text.length).take (maxSize - 1)) := by
  have hle : text.length ≤ maxSize - 1 := Nat.le_of_lt hroom
  -- The conversions in the order of the source's switch.
  by_cases hs : c = 's'.toUInt8
  · simp only [convertItem, if_pos hs, Option.map_eq_some_iff] at hitem
    rcases hitem with ⟨s, hstring, rfl⟩
    simp only [conversion, if_pos hs, hstring, append_take_eq _ _ hle]
    rfl
  by_cases hd : c = 'd'.toUInt8 ∨ c = 'i'.toUInt8
  · simp only [convertItem, if_neg hs, if_pos hd, Option.some.injEq] at hitem
    subst hitem
    rcases signed_eq (arg.signed isLongLong) with ⟨habs, hsign⟩
    simp only [conversion, if_neg hs, if_pos hd]
    rw [append_intToStr text hroom (.inl rfl) (BitVec.isLt _), habs]
    have hneg : ((arg.signed isLongLong).slt 0 = true
        ∧ (arg.signed isLongLong).toInt.natAbs > 0) ↔ (arg.signed isLongLong).toInt < 0 := by
      rw [hsign]
      omega
    simp only [true_and, hneg, Item.textAt, Item.text]
  by_cases hu : c = 'u'.toUInt8
  · simp only [convertItem, if_neg hs, if_neg hd, if_pos hu, Option.some.injEq] at hitem
    subst hitem
    simp only [conversion, if_neg hs, if_neg hd, if_pos hu]
    rw [append_intToStr text hroom (.inl rfl) (BitVec.isLt _)]
    simp [Item.textAt, Item.text]
  by_cases hx : c = 'x'.toUInt8
  · simp only [convertItem, if_neg hs, if_neg hd, if_neg hu, if_pos hx, Option.some.injEq]
      at hitem
    subst hitem
    simp only [conversion, if_neg hs, if_neg hd, if_neg hu, if_pos hx]
    rw [append_intToStr text hroom (.inr rfl) (BitVec.isLt _)]
    simp [Item.textAt, Item.text]
  · have hp : c = 'p'.toUInt8 := by
      simp only [takesArgument, List.mem_cons, List.not_mem_nil, or_false, decide_eq_true_eq]
        at htakes
      tauto
    simp only [convertItem, if_neg hs, if_neg hd, if_neg hu, if_neg hx, Option.some.injEq]
      at hitem
    subst hitem
    have htwo : maxSize ≠ 2 := fun h => hpointer h _ rfl
    have hroomFor := prefix_iff hsize hroom htwo
    simp only [conversion, if_neg hs, if_neg hd, if_neg hu, if_neg hx, if_pos hp]
    -- 0x is written only where a digit and the NUL still fit behind it.
    by_cases hthree : text.length + 3 < maxSize
    · have hlen : (text ++ ['0'.toUInt8, 'x'.toUInt8]).length < maxSize - 1 := by
        simp only [List.length_append, List.length_cons, List.length_nil]
        omega
      rw [if_pos (hroomFor.mpr hthree), append_intToStr _ hlen (.inr rfl) (BitVec.isLt _)]
      simp [Item.textAt, Item.text, hthree]
    · rw [if_neg (fun h => hthree (hroomFor.mp h)),
        append_intToStr text hroom (.inr rfl) (BitVec.isLt _)]
      simp [Item.textAt, hthree]

/-- A character is stored as it is. -/
theorem char_cut {maxSize : Nat} (c : UInt8) (text : List UInt8)
    (hroom : text.length < maxSize - 1) :
    (text ++ (Item.char c).textAt maxSize text.length).take (maxSize - 1) = text ++ [c] := by
  refine List.take_of_length_le ?_
  simp only [Item.textAt, Item.text, List.length_append, List.length_singleton]
  omega

/-- What the loop does for a directive. -/
theorem step_of_takes {maxSize : Nat} {d : Directive} {args args' : List Arg} {item : Item}
    (text : List UInt8) (hsize : maxSize < 2 ^ 64) (hroom : text.length < maxSize - 1)
    (htakes : Takes d args item args') (hpointer : maxSize = 2 → ∀ value, item ≠ .pointer value) :
    step maxSize d args text
      = .ok (args', (text ++ item.textAt maxSize text.length).take (maxSize - 1)) := by
  cases htakes with
  | char c => rw [char_cut c text hroom, step]
  | plain isLongLong c _ hplain =>
    rw [char_cut c text hroom, step]
    simp only [takesArgument, List.mem_cons, List.not_mem_nil, or_false, decide_eq_false_iff_not,
      not_or] at hplain
    simp only [conversion, hplain, or_self, if_false]
  | arg isLongLong c arg args item htake hitem =>
    exact conversion_eq _ text hsize hroom htake hitem hpointer

/-! ### The loop -/

/-- The bytes that items occupy in the buffer from a position on: the
lengths of their texts, as long as there is room. -/
def occupied (maxSize : Nat) : List Item → Nat → Nat
  | [], pos => pos
  | item :: is, pos =>
    occupied maxSize is (min (pos + (item.textAt maxSize pos).length) (maxSize - 1))

/-- The length of the texts of items. -/
theorem render_length (maxSize : Nat) (is : List Item) :
    ∀ text, (render maxSize is text).length = occupied maxSize is text.length := by
  induction is with
  | nil => intro text; rfl
  | cons item is ih =>
    intro text
    rw [render, occupied, ih]
    simp only [List.length_take, List.length_append, Nat.min_comm]

/-- Nothing goes into a full buffer. -/
theorem render_of_full {maxSize : Nat} (is : List Item) {text : List UInt8}
    (hfull : text.length = maxSize - 1) : render maxSize is text = text := by
  induction is with
  | nil => rfl
  | cons item is ih =>
    rw [render, List.take_left' hfull]
    exact ih

/-- The texts of items fit the buffer. -/
theorem occupied_le {maxSize : Nat} (is : List Item) :
    ∀ {pos : Nat}, pos ≤ maxSize - 1 → occupied maxSize is pos ≤ maxSize - 1 := by
  induction is with
  | nil => intro pos hpos; exact hpos
  | cons item is ih => intro pos _; exact ih (Nat.min_le_right _ _)

/-- The first item that prints anything is a pointer. -/
def PointerFirst (is : List Item) : Prop :=
  ∃ value, is.find? (fun item => item.text ≠ []) = some (.pointer value)

/-- A numeral has a digit. -/
theorem numeral_ne_nil (base value : Nat) : numeral base value ≠ [] := by
  unfold numeral
  by_cases hzero : value = 0
  · simp [hzero]
  · simp [hzero, Nat.digits_ne_nil_iff_ne_zero]

/-- An item that prints nothing prints nothing at any position. -/
theorem textAt_eq_nil_iff (maxSize pos : Nat) (item : Item) :
    item.textAt maxSize pos = [] ↔ item.text = [] := by
  cases item with
  | char c => rfl
  | string s => rfl
  | signed value => rfl
  | unsigned base value => rfl
  | pointer value =>
    by_cases hthree : pos + 3 < maxSize
    · simp [Item.textAt, hthree]
    · simp [Item.textAt, Item.text, hthree, numeral_ne_nil]

/-- The loop stores the texts of the items, or runs past an incomplete
specifier that it reaches. -/
theorem run_eq_render {maxSize : Nat} (incomplete : Bool) (ds : List Directive)
    (hsize : maxSize < 2 ^ 64) :
    ∀ (args : List Arg) (is : List Item) (text : List UInt8), items ds args = some is →
      text.length ≤ maxSize - 1 → (maxSize = 2 → text = [] → ¬ PointerFirst is) →
      run maxSize incomplete ds args text
        = if incomplete ∧ (render maxSize is text).length < maxSize - 1 then .error .pastFormat
          else .ok (render maxSize is text) := by
  -- By induction on the directives; the hypothesis on a buffer of two bytes stays as long as
  -- nothing is printed.
  induction ds with
  | nil =>
    intro args is text his hlen hfirst
    rw [items, Option.some.injEq] at his
    subst his
    rfl
  | cons d ds ih =>
    intro args is text his hlen hfirst
    rcases items_cons his with ⟨item, rest, args', rfl, hrest, htakes⟩
    by_cases hroom : text.length < maxSize - 1
    · have hempty : maxSize = 2 → text = [] := by
        intro htwo
        exact List.eq_nil_of_length_eq_zero (by omega)
      have hpointer : maxSize = 2 → ∀ value, item ≠ .pointer value := by
        rintro htwo value rfl
        exact hfirst htwo (hempty htwo) ⟨value, by simp [Item.text]⟩
      have hlen' : ((text ++ item.textAt maxSize text.length).take (maxSize - 1)).length
          ≤ maxSize - 1 := by
        rw [List.length_take]
        exact Nat.min_le_left _ _
      simp only [run, if_pos hroom, step_of_takes text hsize hroom htakes hpointer, render]
      refine ih _ _ _ hrest hlen' ?_
      intro htwo hnil hpointer
      rw [hempty htwo, htwo, List.nil_append, List.take_eq_nil_iff] at hnil
      have hitem : item.text = [] := by
        rcases hnil with hnil | hnil
        · omega
        · exact (textAt_eq_nil_iff _ _ _).mp hnil
      rcases hpointer with ⟨value, hvalue⟩
      exact hfirst htwo (hempty htwo) ⟨value, by simpa [List.find?_cons, hitem] using hvalue⟩
    · rw [run_of_full _ _ _ _ _ hroom, render_of_full _ (by omega), if_neg (by tauto)]

/-- Only `%p` has a pointer as its item. -/
theorem convertItem_pointer {isLongLong : Bool} {c : UInt8} {arg : Arg} {value : BitVec 64}
    (htakes : takesArgument c = true)
    (hitem : convertItem isLongLong c arg = some (.pointer value)) : c = 'p'.toUInt8 := by
  simp only [takesArgument, List.mem_cons, List.not_mem_nil, or_false, decide_eq_true_eq] at htakes
  unfold convertItem at hitem
  split_ifs at hitem with hs hd hu hx
  · simp at hitem
  · simp at hitem
  · simp at hitem
  · simp at hitem
  · tauto

/-- In an empty buffer of two bytes, a pointer leaves its prefix and no
room for the terminator: `max_size - 3` wraps around. -/
theorem step_pointer {d : Directive} {args args' : List Arg} {value : BitVec 64}
    (htakes : Takes d args (.pointer value) args') :
    step 2 d args [] = .ok (args', ['0'.toUInt8, 'x'.toUInt8]) := by
  cases htakes with
  | arg isLongLong c arg args _ htake hitem =>
    have hp : c = 'p'.toUInt8 := convertItem_pointer htake hitem
    subst hp
    rfl

/-- A loop over a buffer of two bytes whose first text is a pointer
stores the two characters of the prefix. -/
theorem run_of_pointerFirst (incomplete : Bool) (ds : List Directive) :
    ∀ (args : List Arg) (is : List Item), items ds args = some is → PointerFirst is →
      run 2 incomplete ds args [] = .ok ['0'.toUInt8, 'x'.toUInt8] := by
  -- By induction over the directives. Those that print nothing leave the buffer
  -- empty, so the pointer still finds it so.
  induction ds with
  | nil =>
    intro args is his hfirst
    rw [items, Option.some.injEq] at his
    subst his
    rcases hfirst with ⟨value, hvalue⟩
    simp at hvalue
  | cons d ds ih =>
    intro args is his hfirst
    rcases items_cons his with ⟨item, rest, args', rfl, hrest, htakes⟩
    rcases hfirst with ⟨value, hvalue⟩
    rw [List.find?_cons] at hvalue
    by_cases hnil : item.text = []
    · -- An item that prints nothing is an empty string.
      have hpointer : 2 = 2 → ∀ value, item ≠ .pointer value := by
        rintro - value rfl
        simp [Item.text] at hnil
      have hstep := step_of_takes [] (by norm_num) (by simp) htakes hpointer
      rw [(textAt_eq_nil_iff _ _ _).mpr hnil] at hstep
      simp only [hnil, ne_eq, not_true, decide_false] at hvalue
      simp only [run, List.length_nil, hstep, List.append_nil, List.take_nil]
      exact ih _ _ hrest ⟨value, hvalue⟩
    · simp only [ne_eq, hnil, not_false_eq_true, decide_true, Option.some.injEq] at hvalue
      subst hvalue
      simp only [run, List.length_nil, step_pointer htakes]
      exact run_of_full _ _ _ _ _ (by simp)

/-! ### No terminator inside the text -/

/-- The character of a directive. -/
def Directive.character : Directive → UInt8
  | .char c => c
  | .convert _ c => c

/-- The directives of a format string have its characters. -/
theorem directives_mem (fmt : List UInt8) : ∀ d ∈ (directives fmt).1, d.character ∈ fmt := by
  fun_induction directives fmt with
  | case1 => simp
  | case2 c p hc ih =>
    intro d hd
    rcases List.mem_cons.mp hd with rfl | hd
    · exact List.mem_cons_self
    · exact List.mem_cons_of_mem _ (ih d hd)
  -- No directive of an incomplete specifier.
  | case3 => simp
  | case4 => simp
  | case5 => simp
  | case6 c hc c₃ p₃ ih =>
    intro d hd
    rcases List.mem_cons.mp hd with rfl | hd
    · simp [Directive.character]
    · simp [ih d hd]
  | case7 c hc c₂ p₂ hl ih =>
    intro d hd
    rcases List.mem_cons.mp hd with rfl | hd
    · simp [Directive.character]
    · simp [ih d hd]
  | case8 c hc c₁ p₁ hl ih =>
    intro d hd
    rcases List.mem_cons.mp hd with rfl | hd
    · simp [Directive.character]
    · simp [ih d hd]

/-- A digit is not a terminator. -/
theorem digits_ne_zero {value : Nat} (hlt : value < 16) : digits value ≠ 0 := by
  interval_cases value <;> decide

/-- A numeral has no terminator. -/
theorem zero_notMem_numeral {base value : Nat} (hbase : base = 10 ∨ base = 16) :
    0 ∉ numeral base value := by
  unfold numeral
  by_cases hzero : value = 0
  · simp only [if_pos hzero, List.mem_singleton]
    exact (digits_ne_zero (by omega)).symm
  · simp only [if_neg hzero, List.mem_reverse, List.mem_map, not_exists, not_and]
    intro d hd
    have hlt := Nat.digits_lt_base (by omega : 1 < base) hd
    exact digits_ne_zero (by omega)

/-- An item that a directive takes has no terminator in its text. -/
theorem zero_notMem_textAt {d : Directive} {args args' : List Arg} {item : Item}
    (htakes : Takes d args item args') (hchar : d.character ≠ 0) (maxSize pos : Nat) :
    0 ∉ item.textAt maxSize pos := by
  cases htakes with
  | char c => simpa [Item.textAt, Item.text, Directive.character, eq_comm] using hchar
  | plain isLongLong c _ hplain =>
    simpa [Item.textAt, Item.text, Directive.character, eq_comm] using hchar
  -- A string has no NUL by its type, and numerals have none.
  | arg isLongLong c arg args _ htake hitem =>
    unfold convertItem at hitem
    split_ifs at hitem with hs hd hu hx
    · rw [Option.map_eq_some_iff] at hitem
      rcases hitem with ⟨s, _, rfl⟩
      exact s.property
    · cases hitem
      simp only [Item.textAt, Item.text, List.mem_append, not_or]
      refine ⟨?_, zero_notMem_numeral (.inl rfl)⟩
      split_ifs <;> decide
    · cases hitem
      exact zero_notMem_numeral (.inl rfl)
    · cases hitem
      exact zero_notMem_numeral (.inr rfl)
    · cases hitem
      have hnumeral : 0 ∉ numeral 16 arg.value.toNat := zero_notMem_numeral (.inr rfl)
      unfold Item.textAt
      split_ifs
      · simp only [Item.text, List.mem_append, not_or]
        exact ⟨by decide, hnumeral⟩
      · exact hnumeral

/-- The text of items has no terminator. -/
theorem zero_notMem_render {maxSize : Nat} (ds : List Directive) :
    ∀ (args : List Arg) (is : List Item) (text : List UInt8), items ds args = some is →
      (∀ d ∈ ds, d.character ≠ 0) → 0 ∉ text → 0 ∉ render maxSize is text := by
  -- By induction over the directives, with the text so far free of NULs.
  induction ds with
  | nil =>
    intro args is text his _ htext
    rw [items, Option.some.injEq] at his
    subst his
    exact htext
  | cons d ds ih =>
    intro args is text his hchars htext
    rcases items_cons his with ⟨item, rest, args', rfl, hrest, htakes⟩
    have hitem := zero_notMem_textAt htakes (hchars d List.mem_cons_self) maxSize text.length
    rw [render]
    refine ih _ _ _ hrest (fun d hd => hchars d (List.mem_cons_of_mem _ hd)) ?_
    intro hmem
    rcases List.mem_append.mp (List.mem_of_mem_take hmem) with hmem | hmem
    · exact htext hmem
    · exact hitem hmem

/-! ### The buffer -/

/-- A byte of the buffer after the bytes of a list were stored from its
start. -/
theorem stored_mapIdx (before : Nat → UInt8) (bytes : List UInt8) (k : Nat) :
    stored before (bytes.mapIdx fun offset byte => (offset, byte)) k
      = (bytes[k]?).getD (before k) := by
  induction bytes using List.reverseRecOn with
  | nil => rfl
  | append_singleton bytes byte ih =>
    rw [List.mapIdx_concat]
    simp only [stored, List.foldl_append, List.foldl_cons, List.foldl_nil] at ih ⊢
    by_cases hk : k = bytes.length
    · subst hk
      simp
    · rw [Function.update_of_ne hk, ih]
      rcases Nat.lt_or_gt_of_ne hk with hlt | hgt
      · rw [List.getElem?_append_left hlt]
      · rw [List.getElem?_eq_none (by omega), List.getElem?_eq_none (by simp; omega)]

/-- The byte behind a text is its terminator. -/
theorem stored_terminator (before : Nat → UInt8) (text : List UInt8) :
    stored before (storesOf text) text.length = 0 := by
  rw [storesOf, stored_mapIdx]
  simp

/-- The bytes of a text are in the buffer. -/
theorem stored_text (before : Nat → UInt8) (text : List UInt8) {k : Nat} (hk : k < text.length) :
    stored before (storesOf text) k = text[k] := by
  rw [storesOf, stored_mapIdx, List.getElem?_append_left hk, List.getElem?_eq_getElem hk]
  rfl

/-- The stores of a text stay inside a buffer that has room for its
terminator. -/
theorem storesOf_lt_iff (text : List UInt8) (maxSize : Nat) :
    (∀ store ∈ storesOf text, store.1 < maxSize) ↔ text.length < maxSize := by
  constructor
  · intro hall
    refine hall (text.length, 0) ?_
    simp [storesOf, List.mapIdx_append]
  · intro hlt store hstore
    rw [storesOf, List.mem_mapIdx] at hstore
    rcases hstore with ⟨i, hi, rfl⟩
    simp only [List.length_append, List.length_singleton] at hi
    show i < maxSize
    omega

/-- A call of `format` that keeps to its strings: it ends without a read
behind the format string, every store is inside the buffer, and the
buffer holds a terminated text whose length is the result. -/
def WellFormatted (maxSize : Nat) (result : Except Fault Outcome) : Prop :=
  ∃ outcome, result = .ok outcome ∧ (∀ store ∈ outcome.stores, store.1 < maxSize)
    ∧ ∀ before, ∃ n < maxSize, stored before outcome.stores n = 0
      ∧ (∀ k < n, stored before outcome.stores k ≠ 0) ∧ outcome.returned.toInt = n

/-- The `int` that a length is cast to. -/
theorem ofNat_toInt_eq_iff (n : Nat) : (BitVec.ofNat 32 n).toInt = n ↔ n < 2 ^ 31 := by
  rw [BitVec.toInt_eq_toNat_cond, BitVec.toNat_ofNat]
  split_ifs <;> omega

/-- A call that stores a text without a terminator inside. -/
theorem wellFormatted_text_iff {maxSize : Nat} {text : List UInt8} (hzero : 0 ∉ text) :
    WellFormatted maxSize (.ok ⟨storesOf text, BitVec.ofNat 32 text.length⟩)
      ↔ text.length < maxSize ∧ text.length < 2 ^ 31 := by
  have hbytes : ∀ before, ∀ k < text.length, stored before (storesOf text) k ≠ 0 := by
    intro before k hk hbyte
    rw [stored_text before text hk] at hbyte
    exact hzero (hbyte ▸ List.getElem_mem hk)
  constructor
  · rintro ⟨outcome, houtcome, hstores, hbuffer⟩
    cases houtcome
    rcases hbuffer (fun _ => 0) with ⟨n, _, hn, hbefore, hreturned⟩
    -- The first terminator is the one behind the text.
    have heq : n = text.length := by
      rcases Nat.lt_trichotomy n text.length with hlt | heq | hgt
      · exact absurd hn (hbytes _ n hlt)
      · exact heq
      · exact absurd (stored_terminator _ text) (hbefore _ hgt)
    subst heq
    exact ⟨(storesOf_lt_iff _ _).mp hstores, (ofNat_toInt_eq_iff _).mp hreturned⟩
  · rintro ⟨hsize, hint⟩
    exact ⟨_, rfl, (storesOf_lt_iff _ _).mpr hsize, fun before =>
      ⟨text.length, hsize, stored_terminator before text, hbytes before,
        (ofNat_toInt_eq_iff _).mpr hint⟩⟩

/-! ### The formatter -/

/-- A call of `format` whose arguments match keeps to the format string
and to the buffer, and returns the length of the text, exactly when a
buffer of two bytes does not start with a pointer, the buffer is full
before an incomplete specifier is reached, and the text is shorter than
2 GB. -/
theorem format_wellFormatted_iff (fmt : CString) (maxSize : Nat) (args : List Arg)
    (is : List Item) (hsize : 1 ≤ maxSize) (hlt : maxSize < 2 ^ 64)
    (hargs : items (directives fmt.val).1 args = some is) :
    WellFormatted maxSize (format fmt maxSize args)
      ↔ ¬ (maxSize = 2 ∧ PointerFirst is)
        ∧ ((directives fmt.val).2 = true → occupied maxSize is 0 = maxSize - 1)
        ∧ occupied maxSize is 0 < 2 ^ 31 := by
  have hzero : 0 ∉ render maxSize is [] := by
    refine zero_notMem_render _ _ _ _ hargs ?_ (by simp)
    intro d hd hd0
    have hmem := directives_mem _ d hd
    rw [hd0] at hmem
    exact fmt.property hmem
  have hlen : (render maxSize is []).length = occupied maxSize is 0 := render_length maxSize is []
  have hle : occupied maxSize is 0 ≤ maxSize - 1 := occupied_le is (Nat.zero_le _)
  unfold format
  rw [if_neg (by omega), loop_eq_run]
  -- In a buffer of two bytes the check for 0x lets it through, and no room is
  -- left for the NUL.
  by_cases hfirst : maxSize = 2 ∧ PointerFirst is
  · rcases hfirst with ⟨rfl, hpointer⟩
    rw [run_of_pointerFirst _ _ _ _ hargs hpointer]
    show WellFormatted 2 (.ok ⟨storesOf ['0'.toUInt8, 'x'.toUInt8], _⟩) ↔ _
    rw [show (['0'.toUInt8, 'x'.toUInt8] : List UInt8).length = 2 from rfl]
    refine iff_of_false ?_ (fun h => h.1 ⟨rfl, hpointer⟩)
    rintro ⟨outcome, houtcome, hstores, -⟩
    cases houtcome
    exact absurd (hstores (2, 0) (by decide)) (by decide)
  · rw [run_eq_render _ _ hlt _ _ [] hargs (Nat.zero_le _)
      (fun htwo _ hpointer => hfirst ⟨htwo, hpointer⟩)]
    -- A format that ends inside a directive is read past its NUL, unless the
    -- buffer is full before that.
    by_cases hpast : (directives fmt.val).2 = true ∧ (render maxSize is []).length < maxSize - 1
    · rw [if_pos hpast]
      refine iff_of_false ?_ ?_
      · rintro ⟨outcome, houtcome, -⟩
        cases houtcome
      · rintro ⟨-, hfull, -⟩
        have := hfull hpast.1
        omega
    · rw [if_neg hpast]
      show WellFormatted maxSize (.ok ⟨storesOf _, BitVec.ofNat 32 _⟩) ↔ _
      rw [wellFormatted_text_iff hzero, hlen]
      rw [hlen] at hpast
      constructor
      · rintro ⟨-, hint⟩
        refine ⟨hfirst, fun hinc => ?_, hint⟩
        have := not_and.mp hpast hinc
        omega
      · rintro ⟨-, -, hint⟩
        exact ⟨by omega, hint⟩

/-- A `%p` behind a literal, in a buffer of eight bytes. -/
theorem format_wellFormatted_truncated :
    WellFormatted 8 (format ⟨"at %p".toList.map Char.toUInt8, by decide⟩ 8 [⟨0xabcd, none⟩]) :=
  (format_wellFormatted_iff ⟨"at %p".toList.map Char.toUInt8, by decide⟩ 8 [⟨0xabcd, none⟩]
    [.char 97, .char 116, .char 32, .pointer 0xabcd] (by decide) (by decide) (by decide)).mpr
    ⟨by simp, by decide, by decide +kernel⟩

/-- A format string that ends in a lone percent sign: the call of
`format` on a buffer with room reads behind its terminator. -/
theorem lone_percent :
    ¬ ∀ (fmt : CString) (maxSize : Nat) (args : List Arg) (is : List Item), 1 ≤ maxSize →
      maxSize < 2 ^ 64 → items (directives fmt.val).1 args = some is →
      WellFormatted maxSize (format fmt maxSize args) := by
  intro hall
  rcases hall ⟨"100%".toList.map Char.toUInt8, by decide⟩ 512 [] [.char 49, .char 48, .char 48]
    (by decide) (by decide) (by decide) with ⟨outcome, houtcome, -⟩
  have hfault : format ⟨"100%".toList.map Char.toUInt8, by decide⟩ 512 [] = .error .pastFormat := rfl
  rw [hfault] at houtcome
  cases houtcome

end Revhv.Format
