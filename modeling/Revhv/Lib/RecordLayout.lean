import Mathlib.Algebra.GroupWithZero.Nat
import Mathlib.Data.Fin.Tuple.Basic

/-!
# `Revhv.Lib.RecordLayout`: fixed-size records in a byte stream

A `Layout` is a record type with its bytes: how many, how a value is laid
out, and how it is read back. Layouts are closed under products, arrays and
changes of representation, so a struct has one as soon as its members do.

A file holds records one after another. `readSlots` is the loop of a reader
that fills slots from a stream and gives up at the first record that is not
there in full.

* `readSlots_records`: records written one after another are read back.
* `readSlots_snd_iff`: the loop comes to its end exactly when the stream is
  long enough.

Nothing here names a program.
-/

set_option autoImplicit false

namespace Revhv.Lib.RecordLayout

/-! ### Numbers -/

/-- The little-endian bytes of the low `w` bytes of a number. -/
def leBytes : Nat → Nat → List UInt8
  | 0, _ => []
  | w + 1, v => UInt8.ofNat (v % 256) :: leBytes w (v / 256)

/-- The number that the first `w` bytes spell, little-endian. -/
def leValue : Nat → List UInt8 → Nat
  | 0, _ => 0
  | _ + 1, [] => 0
  | w + 1, b :: bytes => b.toNat + 256 * leValue w bytes

/-- The bytes of a number fill its width. -/
theorem length_leBytes (w v : Nat) : (leBytes w v).length = w := by
  induction w generalizing v with
  | zero => rfl
  | succ w ih => rw [leBytes, List.length_cons, ih]

/-- A number that fits its width is read back, whatever follows it. -/
theorem leValue_leBytes (w v : Nat) (rest : List UInt8) (h : v < 256 ^ w) :
    leValue w (leBytes w v ++ rest) = v := by
  -- By induction over the width: the lowest byte comes first.
  induction w generalizing v with
  | zero =>
    rw [leValue]
    omega
  | succ w ih =>
    have hhigh : v / 256 < 256 ^ w := by
      rw [Nat.pow_succ] at h
      exact Nat.div_lt_of_lt_mul (by rw [Nat.mul_comm]; exact h)
    have hlow : (UInt8.ofNat (v % 256)).toNat = v % 256 := by simp
    rw [leBytes, List.cons_append, leValue, ih _ hhigh, hlow]
    omega

/-- The number that `w` bytes spell fits them. -/
theorem leValue_lt (w : Nat) (bytes : List UInt8) : leValue w bytes < 256 ^ w := by
  induction w generalizing bytes with
  | zero => exact Nat.one_pos
  | succ w ih =>
    cases bytes with
    | nil => exact Nat.pow_pos (by omega)
    | cons b bytes =>
      have hlow := b.toNat_lt
      have hhigh := ih bytes
      rw [leValue, Nat.pow_succ]
      omega

/-! ### Layouts -/

/-- A record type with its bytes. -/
structure Layout (α : Type) where
  size : Nat
  toBytes : α → List UInt8
  ofBytes : List UInt8 → α
  length_toBytes : ∀ a, (toBytes a).length = size
  ofBytes_toBytes : ∀ a rest, ofBytes (toBytes a ++ rest) = a

namespace Layout

variable {α β : Type}

/-- A number of `w` bytes, little-endian. -/
def little (w : Nat) : Layout (BitVec (8 * w)) where
  size := w
  toBytes v := leBytes w v.toNat
  ofBytes bytes := BitVec.ofNat (8 * w) (leValue w bytes)
  length_toBytes v := length_leBytes w v.toNat
  ofBytes_toBytes v rest := by
    have hlt : v.toNat < 256 ^ w := by
      rw [show (256 : Nat) = 2 ^ 8 from rfl, ← Nat.pow_mul]
      exact v.isLt
    rw [leValue_leBytes w v.toNat rest hlt, BitVec.ofNat_toNat, BitVec.setWidth_eq]

/-- Another type with the same bytes. -/
def map (l : Layout β) (f : α → β) (g : β → α) (h : ∀ a, g (f a) = a) : Layout α where
  size := l.size
  toBytes a := l.toBytes (f a)
  ofBytes bytes := g (l.ofBytes bytes)
  length_toBytes a := l.length_toBytes (f a)
  ofBytes_toBytes a rest := by rw [l.ofBytes_toBytes, h]

/-- Two members, the second right behind the first. -/
def prod (l : Layout α) (m : Layout β) : Layout (α × β) where
  size := l.size + m.size
  toBytes p := l.toBytes p.1 ++ m.toBytes p.2
  ofBytes bytes := (l.ofBytes bytes, m.ofBytes (bytes.drop l.size))
  length_toBytes p := by rw [List.length_append, l.length_toBytes, m.length_toBytes]
  ofBytes_toBytes p rest := by
    rw [List.append_assoc, l.ofBytes_toBytes, ← l.length_toBytes p.1, List.drop_left,
      m.ofBytes_toBytes]

/-- An array of `n` elements. -/
def array (l : Layout α) : (n : Nat) → Layout (Fin n → α)
  | 0 =>
    { size := 0
      toBytes := fun _ => []
      ofBytes := fun _ => Fin.elim0
      length_toBytes := fun _ => rfl
      ofBytes_toBytes := fun _ _ => funext fun i => i.elim0 }
  | n + 1 =>
    (prod l (array l n)).map (fun a => (a 0, Fin.tail a)) (fun p => Fin.cons p.1 p.2)
      fun a => Fin.cons_self_tail a

/-- A little-endian number has as many bytes as its width says. -/
@[simp] theorem size_little (w : Nat) : (little w).size = w := rfl

/-- Another view of the same bytes has the same size. -/
@[simp] theorem size_map (l : Layout β) (f : α → β) (g : β → α) (h : ∀ a, g (f a) = a) :
    (l.map f g h).size = l.size := rfl

/-- Fields that follow each other add up. -/
@[simp] theorem size_prod (l : Layout α) (m : Layout β) :
    (l.prod m).size = l.size + m.size := rfl

/-- An array takes the room of its elements. -/
@[simp] theorem size_array (l : Layout α) (n : Nat) : (l.array n).size = n * l.size := by
  induction n with
  | zero => exact (Nat.zero_mul _).symm
  | succ n ih =>
    show l.size + (l.array n).size = (n + 1) * l.size
    rw [ih, Nat.succ_mul, Nat.add_comm]

/-- An unsigned byte. -/
def uint8 : Layout UInt8 :=
  (little 1).map UInt8.toBitVec UInt8.ofBitVec fun _ => rfl

/-- A 32-bit number. -/
def uint32 : Layout UInt32 :=
  (little 4).map UInt32.toBitVec UInt32.ofBitVec fun _ => rfl

/-- A 64-bit number. -/
def uint64 : Layout UInt64 :=
  (little 8).map UInt64.toBitVec UInt64.ofBitVec fun _ => rfl

/-- `n` bytes as they are. -/
def bytes (n : Nat) : Layout (Vector UInt8 n) :=
  (uint8.array n).map (fun v i => v[i]) Vector.ofFn fun v => by
    ext i hi
    rw [Vector.getElem_ofFn]
    rfl

/-- A `uint8_t` has one byte. -/
@[simp] theorem size_uint8 : uint8.size = 1 := rfl

/-- A `uint32_t` has four bytes. -/
@[simp] theorem size_uint32 : uint32.size = 4 := rfl

/-- A `uint64_t` has eight bytes. -/
@[simp] theorem size_uint64 : uint64.size = 8 := rfl

/-- An array of bytes has its length. -/
@[simp] theorem size_bytes (n : Nat) : (bytes n).size = n := by
  simp [bytes]

end Layout

/-! ### Records one after another -/

section
variable {α β : Type}

/-- The bytes of records written one after another. -/
def writeRecords (l : Layout α) (records : List α) : List UInt8 :=
  records.flatMap l.toBytes

/-- Read one record, if it is there in full. -/
def readRecord (l : Layout α) (stream : List UInt8) : Option (α × List UInt8) :=
  if l.size ≤ stream.length then some (l.ofBytes stream, stream.drop l.size) else none

/-- A written record is read back and what follows it is left. -/
theorem readRecord_toBytes (l : Layout α) (a : α) (rest : List UInt8) :
    readRecord l (l.toBytes a ++ rest) = some (a, rest) := by
  have hroom : l.size ≤ (l.toBytes a ++ rest).length := by
    rw [List.length_append, l.length_toBytes]
    omega
  have hrest : (l.toBytes a ++ rest).drop l.size = rest := by
    rw [← l.length_toBytes a, List.drop_left]
  rw [readRecord, if_pos hroom, l.ofBytes_toBytes, hrest]

/-- A stream that ends too early holds no record. -/
theorem readRecord_short (l : Layout α) {stream : List UInt8} (h : stream.length < l.size) :
    readRecord l stream = none := if_neg (by omega)

/-- A stream cut off behind a record still holds the record. -/
theorem readRecord_take (l : Layout α) (a : α) (rest : List UInt8) {k : Nat} (h : l.size ≤ k) :
    readRecord l ((l.toBytes a ++ rest).take k) = some (a, rest.take (k - l.size)) := by
  have hlen : (l.toBytes a).length = l.size := l.length_toBytes a
  have hcut : (l.toBytes a ++ rest).take k = l.toBytes a ++ rest.take (k - l.size) := by
    rw [List.take_append, hlen, List.take_of_length_le (by omega)]
  rw [hcut, readRecord_toBytes]

/-- Fill slots from a stream, one record a slot, up to the first record
that is not there in full: the slots then, and whether all were filled. -/
def readSlots (l : Layout α) (store : α → β) : List β → List UInt8 → List β × Bool
  | [], _ => ([], true)
  | slot :: slots, stream =>
    match readRecord l stream with
    | none => (slot :: slots, false)
    | some (a, rest) =>
      (store a :: (readSlots l store slots rest).1, (readSlots l store slots rest).2)

/-- The bytes of records, by their number. -/
theorem length_writeRecords (l : Layout α) (records : List α) :
    (writeRecords l records).length = records.length * l.size := by
  induction records with
  | nil => exact (Nat.zero_mul _).symm
  | cons a records ih =>
    rw [writeRecords, List.flatMap_cons, List.length_append, l.length_toBytes]
    rw [writeRecords] at ih
    rw [ih, List.length_cons, Nat.succ_mul, Nat.add_comm]

/-- Slots are filled with the first records. -/
theorem readSlots_records (l : Layout α) (store : α → β) {slots : List β} {records : List α}
    (h : slots.length ≤ records.length) :
    readSlots l store slots (writeRecords l records)
      = ((records.take slots.length).map store, true) := by
  induction slots generalizing records with
  | nil => rfl
  | cons slot slots ih =>
    -- The stream has a record for every slot.
    cases records with
    | nil => simp at h
    | cons a records =>
      have hlen : slots.length ≤ records.length := by
        simp only [List.length_cons] at h
        omega
      have hstream : writeRecords l (a :: records) = l.toBytes a ++ writeRecords l records := by
        simp only [writeRecords, List.flatMap_cons]
      rw [hstream, readSlots, readRecord_toBytes]
      simp only [ih hlen, List.length_cons, List.take_succ_cons, List.map_cons]

/-- All slots are filled exactly when the stream is long enough. -/
theorem readSlots_snd_iff (l : Layout α) (store : α → β) (slots : List β)
    (stream : List UInt8) :
    (readSlots l store slots stream).2 = true ↔ slots.length * l.size ≤ stream.length := by
  induction slots generalizing stream with
  | nil => simp [readSlots]
  | cons slot slots ih =>
    rw [List.length_cons, Nat.succ_mul]
    -- The reader stops at the first record the stream does not hold.
    by_cases hroom : l.size ≤ stream.length
    · rw [readSlots, readRecord, if_pos hroom]
      show (readSlots l store slots (stream.drop l.size)).2 = true ↔ _
      rw [ih, List.length_drop]
      omega
    · rw [readSlots, readRecord_short l (by omega)]
      constructor
      · intro hfalse
        cases hfalse
      · intro hlen
        omega

end

end Revhv.Lib.RecordLayout
