import Revhv.Lib.CodeBlock
import Revhv.Lib.RecordLayout

/-!
# `Revhv.Lib.StackFrame`: stores into a frame

Memory is a function from 64-bit addresses to bytes. A frame is addressed by
offsets from its base, and a base and offsets below `2 ^ 64` name different
bytes for different offsets, whatever the base is.

* `bytesAt_writeSlots`: a frame whose slots do not overlap holds in each of
  them what was stored there.
* `writeSlots_outside`: nothing else is written.
* `words_storeWord`: a push puts its word on top of the words of the stack.

Nothing here names a program.
-/

set_option autoImplicit false

namespace Revhv.Lib.StackFrame

open Revhv.Lib Revhv.Lib.RecordLayout

/-! ### Stores -/

/-- Memory with bytes stored at an address. -/
def store (memory : UInt64 → UInt8) (address : UInt64) (bytes : List UInt8) : UInt64 → UInt8 :=
  fun x => (bytes[(x - address).toNat]?).getD (memory x)

variable {memory : UInt64 → UInt8} {address base x : UInt64} {bytes : List UInt8}

/-- A store changes no byte outside of its range. -/
theorem store_outside (hout : bytes.length ≤ (x - address).toNat) :
    store memory address bytes x = memory x := by
  unfold store
  rw [List.getElem?_eq_none hout]
  rfl

/-- The offset of an address that is given by an offset. -/
theorem toNat_add_sub (base : UInt64) {o p : Nat} (ho : o < 2 ^ 64) (hp : p < 2 ^ 64) :
    (base + UInt64.ofNat o - (base + UInt64.ofNat p)).toNat =
      if p ≤ o then o - p else 2 ^ 64 + o - p := by
  have hbase := base.toNat_lt
  rw [UInt64.toNat_sub, UInt64.toNat_add, UInt64.toNat_add, UInt64.toNat_ofNat_of_lt' ho,
    UInt64.toNat_ofNat_of_lt' hp]
  split <;> omega

/-- The offset from a base that is further up. -/
theorem toNat_sub_add (base : UInt64) {o : Nat} (ho : o ≤ (x - base).toNat) :
    (x - (base + UInt64.ofNat o)).toNat = (x - base).toNat - o := by
  have hlt := (x - base).toNat_lt
  have hsplit : x - (base + UInt64.ofNat o) = x - base - UInt64.ofNat o := by
    simp only [UInt64.sub_eq_add_neg, UInt64.neg_add, UInt64.add_assoc]
  rw [hsplit, UInt64.toNat_sub, UInt64.toNat_ofNat_of_lt' (show _ < 2 ^ 64 by omega)]
  omega

/-- An address outside of `size` bytes. -/
def Outside (base : UInt64) (size : Nat) (x : UInt64) : Prop := size ≤ (x - base).toNat

/-- A part of what an address is outside of. -/
theorem Outside.part {base' : UInt64} {size size' o : Nat} (h : Outside base size x)
    (hbase : base + UInt64.ofNat o = base') (hsize : o + size' ≤ size) :
    Outside base' size' x := by
  rw [Outside] at h ⊢
  rw [← hbase, toNat_sub_add base (by omega)]
  omega

/-- The offset of an address in some bytes. -/
theorem toNat_add_sub_self (base : UInt64) {o : Nat} (ho : o < 2 ^ 64) :
    (base + UInt64.ofNat o - base).toNat = o := by
  have hoffset := toNat_add_sub base (o := o) (p := 0) ho (by omega)
  rw [if_pos (Nat.zero_le o)] at hoffset
  have hzero : base + UInt64.ofNat 0 = base := UInt64.add_zero base
  rwa [hzero, Nat.sub_zero] at hoffset

/-- Two ranges are apart whichever of them is looked at. -/
theorem apart_symm {a b : UInt64} {m n : Nat} (hm : m ≤ 2 ^ 64)
    (h : ∀ k < n, Outside a m (b + UInt64.ofNat k)) {k : Nat} (hk : k < m) :
    Outside b n (a + UInt64.ofNat k) := by
  by_contra hinside
  have houtside := h _ (Nat.lt_of_not_le hinside)
  have hback : b + (a + UInt64.ofNat k - b) = a + UInt64.ofNat k := by
    rw [UInt64.add_comm, UInt64.sub_add_cancel]
  rw [UInt64.ofNat_toNat, hback, Outside, toNat_add_sub_self a (by omega)] at houtside
  omega

/-- Stored bytes are there, from the first one on. -/
theorem bytesAt_store_take (memory : UInt64 → UInt8) (address : UInt64) {bytes : List UInt8}
    {n : Nat} (hn : n ≤ bytes.length) (hfits : bytes.length ≤ 2 ^ 64) :
    bytesAt (store memory address bytes) address n = bytes.take n := by
  refine List.ext_getElem (by simp [hn]) ?_
  intro k hk _
  rw [length_bytesAt] at hk
  have hindex := toNat_add_sub_self address (o := k) (by omega)
  simp only [bytesAt, List.getElem_map, List.getElem_range, List.getElem_take, store, hindex]
  rw [List.getElem?_eq_getElem (by omega), Option.getD_some]

/-- All of them are there. -/
theorem bytesAt_store (memory : UInt64 → UInt8) (address : UInt64) {bytes : List UInt8}
    (hfits : bytes.length ≤ 2 ^ 64) :
    bytesAt (store memory address bytes) address bytes.length = bytes := by
  rw [bytesAt_store_take memory address (Nat.le_refl _) hfits, List.take_length]

/-- A part of a range is read as the part of what the whole range reads. -/
theorem bytesAt_part (memory : UInt64 → UInt8) (address : UInt64) {o n size : Nat}
    (hpart : o + n ≤ size) :
    bytesAt memory (address + UInt64.ofNat o) n = ((bytesAt memory address size).drop o).take n := by
  refine List.ext_getElem? fun k => ?_
  by_cases hk : k < n
  · rw [List.getElem?_take_of_lt hk, List.getElem?_drop, bytesAt, bytesAt, List.getElem?_map,
      List.getElem?_map, List.getElem?_range hk, List.getElem?_range (show o + k < size by omega),
      Option.map_some, Option.map_some, UInt64.add_assoc, ← UInt64.ofNat_add]
  · rw [List.getElem?_eq_none (by rw [length_bytesAt]; omega),
      List.getElem?_eq_none (by rw [List.length_take]; omega)]

/-- A copy has what the copied bytes have, at every offset. -/
theorem bytesAt_store_bytesAt (memory : UInt64 → UInt8) (address source : UInt64)
    {o n size : Nat} (hsize : size ≤ 2 ^ 64) (hpart : o + n ≤ size) :
    bytesAt (store memory address (bytesAt memory source size)) (address + UInt64.ofNat o) n =
      bytesAt memory (source + UInt64.ofNat o) n := by
  have hlength : (bytesAt memory source size).length = size := length_bytesAt ..
  have hcopy : bytesAt (store memory address (bytesAt memory source size)) address
      (bytesAt memory source size).length = bytesAt memory source size :=
    bytesAt_store memory address (by omega)
  rw [hlength] at hcopy
  rw [bytesAt_part _ _ hpart, hcopy, ← bytesAt_part _ _ hpart]

/-- Bytes away from a store are what they were. -/
theorem bytesAt_store_outside {n : Nat}
    (hout : ∀ k < n, bytes.length ≤ (x + UInt64.ofNat k - address).toNat) :
    bytesAt (store memory address bytes) x n = bytesAt memory x n := by
  refine List.map_congr_left fun k hk => ?_
  exact store_outside (hout k (List.mem_range.mp hk))

/-! ### Slots of a frame -/

/-- Bytes at an offset of a frame. -/
structure Slot where
  offset : Nat
  bytes : List UInt8

/-- The offsets of a slot are below `2 ^ 64`. -/
def Slot.Fits (s : Slot) : Prop := s.offset + s.bytes.length ≤ 2 ^ 64

/-- Two slots do not overlap. -/
def Slot.Apart (s t : Slot) : Prop :=
  s.offset + s.bytes.length ≤ t.offset ∨ t.offset + t.bytes.length ≤ s.offset

/-- Memory with slots stored one after another. -/
def writeSlots (memory : UInt64 → UInt8) (base : UInt64) : List Slot → UInt64 → UInt8
  | [] => memory
  | s :: slots => writeSlots (store memory (base + UInt64.ofNat s.offset) s.bytes) base slots

/-- Two lists of stores one after the other are the stores of the joined
list. -/
theorem writeSlots_append (memory : UInt64 → UInt8) (base : UInt64) (slots more : List Slot) :
    writeSlots memory base (slots ++ more) = writeSlots (writeSlots memory base slots) base more := by
  induction slots generalizing memory with
  | nil => rfl
  | cons s slots ih => exact ih _

/-- A store to another slot leaves a slot as it was. -/
theorem bytesAt_store_apart (memory : UInt64 → UInt8) (base : UInt64) {s t : Slot} (hs : s.Fits)
    (ht : t.Fits) (hapart : s.Apart t) :
    bytesAt (store memory (base + UInt64.ofNat t.offset) t.bytes) (base + UInt64.ofNat s.offset)
      s.bytes.length = bytesAt memory (base + UInt64.ofNat s.offset) s.bytes.length := by
  unfold Slot.Fits at hs ht
  unfold Slot.Apart at hapart
  refine bytesAt_store_outside fun k hk => ?_
  rw [UInt64.add_assoc, ← UInt64.ofNat_add]
  by_cases hempty : t.bytes.length = 0
  · omega
  · rw [toNat_add_sub base (by omega) (by omega)]
    split <;> omega

/-- Stores apart from a slot leave what it holds. -/
theorem bytesAt_writeSlots_apart {s : Slot} {slots : List Slot} (hs : s.Fits)
    (hfits : ∀ t ∈ slots, t.Fits) (hapart : ∀ t ∈ slots, s.Apart t) :
    bytesAt (writeSlots memory base slots) (base + UInt64.ofNat s.offset) s.bytes.length =
      bytesAt memory (base + UInt64.ofNat s.offset) s.bytes.length := by
  induction slots generalizing memory with
  | nil => rfl
  | cons t slots ih =>
    rw [writeSlots, ih (fun u hu => hfits u (List.mem_cons_of_mem _ hu))
      fun u hu => hapart u (List.mem_cons_of_mem _ hu)]
    exact bytesAt_store_apart memory base hs (hfits t List.mem_cons_self)
      (hapart t List.mem_cons_self)

/-- Each slot holds what was stored there. -/
theorem bytesAt_writeSlots {s : Slot} {slots : List Slot} (hfits : ∀ t ∈ slots, t.Fits)
    (hapart : slots.Pairwise Slot.Apart) (hs : s ∈ slots) :
    bytesAt (writeSlots memory base slots) (base + UInt64.ofNat s.offset) s.bytes.length =
      s.bytes := by
  induction slots generalizing memory with
  | nil => cases hs
  | cons t slots ih =>
    have hrest := List.pairwise_cons.mp hapart
    have hfits' : ∀ u ∈ slots, u.Fits := fun u hu => hfits u (List.mem_cons_of_mem _ hu)
    -- The slots are written in order, and those after `s` lie apart from it.
    rcases List.mem_cons.mp hs with rfl | hs
    · have hs := hfits s List.mem_cons_self
      rw [writeSlots, bytesAt_writeSlots_apart hs hfits' hrest.1]
      exact bytesAt_store _ _ (Nat.le_trans (Nat.le_add_left _ _) hs)
    · exact ih hfits' hrest.2 hs

/-- Bytes below the size of the frame are the only ones written. -/
theorem writeSlots_outside {slots : List Slot} {size : Nat}
    (hslots : ∀ s ∈ slots, s.offset + s.bytes.length ≤ size) (hout : size ≤ (x - base).toNat) :
    writeSlots memory base slots x = memory x := by
  induction slots generalizing memory with
  | nil => rfl
  | cons s slots ih =>
    rw [writeSlots, ih fun t ht => hslots t (List.mem_cons_of_mem _ ht)]
    have hs := hslots s List.mem_cons_self
    have hx := toNat_sub_add (x := x) base (o := s.offset) (by omega)
    exact store_outside (by rw [hx]; omega)

/-! ### Words -/

/-- The little-endian word at an address. -/
def loadWord (memory : UInt64 → UInt8) (address : UInt64) : UInt64 :=
  UInt64.ofNat (leValue 8 (bytesAt memory address 8))

/-- Memory with a little-endian word at an address. -/
def storeWord (memory : UInt64 → UInt8) (address value : UInt64) : UInt64 → UInt8 :=
  store memory address (leBytes 8 value.toNat)

/-- The words from an address on. -/
def words (memory : UInt64 → UInt8) (address : UInt64) : Nat → List UInt64
  | 0 => []
  | n + 1 => loadWord memory address :: words memory (address + 8) n

/-- Eight little-endian bytes are the word they came from, whatever
follows them. -/
theorem leValue_word (value : UInt64) (rest : List UInt8) :
    UInt64.ofNat (leValue 8 (leBytes 8 value.toNat ++ rest)) = value := by
  rw [leValue_leBytes 8 value.toNat rest (by have := value.toNat_lt; omega), UInt64.ofNat_toNat]

/-- A word that was stored is loaded. -/
@[simp] theorem loadWord_storeWord (memory : UInt64 → UInt8) (address value : UInt64) :
    loadWord (storeWord memory address value) address = value := by
  have hlength : (leBytes 8 value.toNat).length ≤ 2 ^ 64 := by
    rw [length_leBytes]
    omega
  have hbytes := bytesAt_store memory address hlength
  rw [length_leBytes] at hbytes
  have hvalue := leValue_word value []
  rw [List.append_nil] at hvalue
  rw [loadWord, storeWord, hbytes, hvalue]

/-- Bytes are the little-endian bytes of their value. -/
theorem leBytes_leValue (bytes : List UInt8) :
    leBytes bytes.length (leValue bytes.length bytes) = bytes := by
  induction bytes with
  | nil => rfl
  | cons b bytes ih =>
    have hb := b.toNat_lt
    have hlow : (b.toNat + 256 * leValue bytes.length bytes) % 256 = b.toNat := by omega
    have hhigh : (b.toNat + 256 * leValue bytes.length bytes) / 256 =
        leValue bytes.length bytes := by omega
    rw [List.length_cons, leValue, leBytes, hlow, hhigh, ih, UInt8.ofNat_toNat]

/-- A store of what is there already changes nothing. -/
theorem storeWord_loadWord (memory : UInt64 → UInt8) (address : UInt64) :
    storeWord memory address (loadWord memory address) = memory := by
  have hlength : (bytesAt memory address 8).length = 8 := length_bytesAt ..
  have hbytes := leBytes_leValue (bytesAt memory address 8)
  have hsmall := leValue_lt 8 (bytesAt memory address 8)
  rw [hlength] at hbytes
  funext x
  rw [storeWord, loadWord, UInt64.toNat_ofNat_of_lt' (show _ < 2 ^ 64 by omega), hbytes, store]
  -- A byte of the word is written back as it was read.
  by_cases hx : (x - address).toNat < 8
  · have hback : address + UInt64.ofNat (x - address).toNat = x := by
      rw [UInt64.ofNat_toNat, UInt64.add_comm, UInt64.sub_add_cancel]
    rw [bytesAt, List.getElem?_map, List.getElem?_range hx, Option.map_some, Option.getD_some, hback]
  · rw [List.getElem?_eq_none (by rw [hlength]; omega), Option.getD_none]

/-- A word that is apart from a stored one is what it was. -/
theorem loadWord_storeWord_apart (memory : UInt64 → UInt8) (base value : UInt64) {o p : Nat}
    (ho : o + 8 ≤ 2 ^ 64) (hp : p + 8 ≤ 2 ^ 64) (hapart : o + 8 ≤ p ∨ p + 8 ≤ o) :
    loadWord (storeWord memory (base + UInt64.ofNat p) value) (base + UInt64.ofNat o) =
      loadWord memory (base + UInt64.ofNat o) := by
  have hbytes := bytesAt_store_apart memory base (s := ⟨o, leBytes 8 0⟩)
    (t := ⟨p, leBytes 8 value.toNat⟩) (by simpa [Slot.Fits, length_leBytes] using ho)
    (by simpa [Slot.Fits, length_leBytes] using hp)
    (by simpa [Slot.Apart, length_leBytes] using hapart)
  rw [length_leBytes] at hbytes
  rw [loadWord, loadWord, storeWord, hbytes]

/-- A word depends on its eight bytes only. -/
theorem loadWord_congr {memory' : UInt64 → UInt8}
    (h : ∀ k < 8, memory' (address + UInt64.ofNat k) = memory (address + UInt64.ofNat k)) :
    loadWord memory' address = loadWord memory address := by
  have hbytes : bytesAt memory' address 8 = bytesAt memory address 8 :=
    List.map_congr_left fun k hk => h k (List.mem_range.mp hk)
  rw [loadWord, loadWord, hbytes]

/-- Words depend on their bytes only. -/
theorem words_congr {memory' : UInt64 → UInt8} {n : Nat}
    (h : ∀ k < 8 * n, memory' (address + UInt64.ofNat k) = memory (address + UInt64.ofNat k)) :
    words memory' address n = words memory address n := by
  induction n generalizing address with
  | zero => rfl
  | succ n ih =>
    rw [words, words, loadWord_congr fun k hk => h k (by omega), ih fun k hk => ?_]
    have hk := h (8 + k) (by omega)
    rwa [UInt64.ofNat_add, ← UInt64.add_assoc] at hk

/-- A push puts a word on top. -/
theorem words_storeWord (value : UInt64) {n : Nat} (hn : 8 * (n + 1) ≤ 2 ^ 64) :
    words (storeWord memory (address - 8) value) (address - 8) (n + 1) =
      value :: words memory address n := by
  have hback : address - 8 + 8 = address := UInt64.sub_add_cancel ..
  rw [words, loadWord_storeWord, hback]
  refine congrArg _ (words_congr fun k hk => store_outside ?_)
  have hoffset : address + UInt64.ofNat k - (address - 8) = UInt64.ofNat (k + 8) := by
    rw [UInt64.ofNat_add]
    have hsplit : address = address - 8 + 8 := hback.symm
    generalize address - 8 = low at hsplit
    subst hsplit
    rw [UInt64.add_assoc, UInt64.add_comm low, UInt64.add_sub_cancel, UInt64.add_comm]
    rfl
  rw [length_leBytes, hoffset, UInt64.toNat_ofNat_of_lt' (show _ < 2 ^ 64 by omega)]
  omega

/-- Words are read in two parts as in one. -/
theorem words_add (memory : UInt64 → UInt8) (address : UInt64) (n k : Nat) :
    words memory address (n + k) =
      words memory address n ++ words memory (address + UInt64.ofNat (8 * n)) k := by
  induction n generalizing address with
  | zero => simp [words]
  | succ n ih =>
    have hassoc : address + 8 + UInt64.ofNat (8 * n) = address + UInt64.ofNat (8 * (n + 1)) := by
      rw [Nat.mul_add, Nat.add_comm, UInt64.ofNat_add, UInt64.add_assoc]
      rfl
    rw [Nat.succ_add, words, words, ih, hassoc, List.cons_append]

/-- As many words are read as were asked for. -/
@[simp] theorem length_words (memory : UInt64 → UInt8) (address : UInt64) (n : Nat) :
    (words memory address n).length = n := by
  induction n generalizing address with
  | zero => rfl
  | succ n ih => rw [words, List.length_cons, ih]

/-- The words by their offsets. -/
theorem getElem?_words (memory : UInt64 → UInt8) (address : UInt64) {n k : Nat} (hk : k < n) :
    (words memory address n)[k]? = some (loadWord memory (address + UInt64.ofNat (8 * k))) := by
  have hsplit := words_add memory address k (n - k)
  rw [Nat.add_sub_cancel' (Nat.le_of_lt hk)] at hsplit
  obtain ⟨m, hm⟩ := Nat.exists_eq_succ_of_ne_zero (Nat.sub_ne_zero_of_lt hk)
  have hlength : (words memory address k).length = k := length_words ..
  rw [hsplit, hm, List.getElem?_append_right (Nat.le_of_eq hlength), hlength, Nat.sub_self, words]
  rfl

/-- A word stored among others replaces one of them. -/
theorem words_storeWord_at (memory : UInt64 → UInt8) (address value : UInt64) {n k : Nat}
    (hk : k < n) (hn : 8 * n ≤ 2 ^ 64) :
    words (storeWord memory (address + UInt64.ofNat (8 * k)) value) address n =
      (words memory address n).set k value := by
  refine List.ext_getElem? fun j => ?_
  have hlength : (words memory address n).length = n := length_words ..
  -- The words do not overlap, so the store hits one of them.
  by_cases hj : j < n
  · rw [getElem?_words _ _ hj]
    by_cases hjk : k = j
    · rw [hjk, List.getElem?_set_self (hlength.symm ▸ hj), loadWord_storeWord]
    · rw [List.getElem?_set_ne hjk, getElem?_words _ _ hj,
        loadWord_storeWord_apart memory address value (by omega) (by omega) (by omega)]
  · rw [List.getElem?_eq_none (by rw [length_words]; omega),
      List.getElem?_eq_none (by rw [List.length_set, hlength]; omega)]

end Revhv.Lib.StackFrame
