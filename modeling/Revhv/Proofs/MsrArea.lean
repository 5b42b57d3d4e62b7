import Revhv.Km.Launch

/-!
# `Revhv.Proofs.MsrArea`: the entries of `msr_entries`

`prepare_msr_entries` fills three entries of two words each, with the counts for
the stores and the loads behind them. At an exit the processor writes the data
of all three, and at an entry it loads the first two.

* `entries_prepareMsrEntries`: the entries and the counts behind
  `prepare_msr_entries`.
* `storeMsrs_entries`: what the stores of an exit leave.
* `loadMsrs_entries`: what the loads of an entry make of the MSRs.
-/

set_option autoImplicit false

namespace Revhv.Launch

open Revhv.Asm Revhv.Lib.RecordLayout Revhv.Lib.StackFrame Revhv.Memory Revhv.Vmcs

/-- The entries of an area, with the data of MPERF, of APERF and of the
TSC. -/
def Entries (data : UInt64) (memory : UInt64 → UInt8) (mperf aperf tsc : UInt64) : Prop :=
  words memory data 6 =
    [UInt64.ofNat ia32Mperf, mperf, UInt64.ofNat ia32Aperf, aperf,
      UInt64.ofNat ia32TimeStampCounter, tsc]

/-- The area has its three entries, with any data. -/
def HasEntries (data : UInt64) (memory : UInt64 → UInt8) : Prop :=
  ∃ mperf aperf tsc, Entries data memory mperf aperf tsc

/-- The entries are determined by the bytes of the area. -/
theorem Entries.congr {data : UInt64} {memory memory' : UInt64 → UInt8} {mperf aperf tsc : UInt64}
    (h : Entries data memory mperf aperf tsc)
    (hmemory : ∀ k < 48, memory' (data + UInt64.ofNat k) = memory (data + UInt64.ofNat k)) :
    Entries data memory' mperf aperf tsc :=
  (words_congr hmemory).trans h

/-! ### Words of an area -/

section
variable {memory : UInt64 → UInt8} {data : UInt64} {mperf aperf tsc : UInt64}

/-- A word of an area whose words are known. -/
theorem loadWord_of_words {l : List UInt64} {n k : Nat} {value : UInt64}
    (h : words memory data n = l) (hk : k < n) (hvalue : l[k]? = some value) :
    loadWord memory (data + UInt64.ofNat (8 * k)) = value := by
  have hword := getElem?_words memory data hk
  rw [h, hvalue] at hword
  exact (Option.some.inj hword).symm

/-- The index of an entry is read back. -/
theorem Entries.index (h : Entries data memory mperf aperf tsc) {i msr : Nat}
    (hmsr : [ia32Mperf, ia32Aperf, ia32TimeStampCounter][i]? = some msr) :
    (loadWord memory (msrIndexAddress data i)).toNat % 2 ^ 32 = msr := by
  match i, hmsr with
  | 0, hmsr =>
    rw [msrIndexAddress, loadWord_of_words h (by decide) rfl]
    exact Option.some.inj hmsr
  | 1, hmsr =>
    rw [msrIndexAddress, loadWord_of_words h (by decide) rfl]
    exact Option.some.inj hmsr
  | 2, hmsr =>
    rw [msrIndexAddress, loadWord_of_words h (by decide) rfl]
    exact Option.some.inj hmsr

/-! ### The loads of an entry -/

/-- An entry loads MPERF and APERF from the area. -/
theorem loadMsrs_entries (h : Entries data memory mperf aperf tsc) (s : System) :
    loadMsrs memory data 2 s =
      { s with
        msrs := Function.update (Function.update s.msrs ia32Mperf mperf) ia32Aperf aperf } := by
  have hfirst : loadWord memory (msrDataAddress data 0) = mperf :=
    loadWord_of_words h (by decide) rfl
  have hsecond : loadWord memory (msrDataAddress data 1) = aperf :=
    loadWord_of_words h (by decide) rfl
  have hrange : List.range (2 : UInt64).toNat = [0, 1] := rfl
  have hmperf : ∀ value, s.writeMsr ia32Mperf value =
      { s with msrs := Function.update s.msrs ia32Mperf value } := fun value => rfl
  have haperf : ∀ (t : System) value, t.writeMsr ia32Aperf value =
      { t with msrs := Function.update t.msrs ia32Aperf value } := fun t value => rfl
  rw [loadMsrs, hrange, List.foldl_cons, List.foldl_cons, List.foldl_nil, loadMsr, loadMsr,
    h.index (i := 0) rfl, h.index (i := 1) rfl, hfirst, hsecond, hmperf, haperf]

/-! ### The stores of an exit -/

/-- The memory behind the stores of an exit. -/
def storedMemory (data : UInt64) (c : Core) : UInt64 → UInt8 :=
  storeWord
    (storeWord (storeWord c.memory (msrDataAddress data 0) (c.system.msrs ia32Mperf))
      (msrDataAddress data 1) (c.system.msrs ia32Aperf)) (msrDataAddress data 2) (c.tsc 0)

/-- New data for an entry leaves the indices and the other data alone. -/
theorem Entries.storeData (h : Entries data memory mperf aperf tsc) {i : Nat} (hi : i < 3)
    (value : UInt64) :
    words (storeWord memory (msrDataAddress data i) value) data 6 =
      [UInt64.ofNat ia32Mperf, mperf, UInt64.ofNat ia32Aperf, aperf,
        UInt64.ofNat ia32TimeStampCounter, tsc].set (2 * i + 1) value := by
  rw [msrDataAddress, words_storeWord_at memory data value (k := 2 * i + 1) (n := 6) (by omega)
    (by decide), h]

/-- The entries have the MSRs of the guest, and the TSC. -/
theorem entries_storedMemory {c : Core} (h : HasEntries data c.memory) :
    Entries data (storedMemory data c) (c.system.msrs ia32Mperf) (c.system.msrs ia32Aperf)
      (c.tsc 0) := by
  obtain ⟨mperf, aperf, tsc, h⟩ := h
  have hone : Entries data _ (c.system.msrs ia32Mperf) aperf tsc :=
    h.storeData (i := 0) (by decide) _
  have htwo : Entries data _ (c.system.msrs ia32Mperf) (c.system.msrs ia32Aperf) tsc :=
    hone.storeData (i := 1) (by decide) _
  exact htwo.storeData (i := 2) (by decide) _

/-- A store into a word of the area leaves the rest of the memory alone. -/
theorem storeWord_outside {x value : UInt64} {k n : Nat} (hk : k < n)
    (hx : Outside data (8 * n) x) :
    storeWord memory (data + UInt64.ofNat (8 * k)) value x = memory x := by
  have hpart : Outside (data + UInt64.ofNat (8 * k)) 8 x := hx.part rfl (by omega)
  refine store_outside ?_
  rw [length_leBytes]
  exact hpart

/-- Outside of the entries the stores of an exit write nothing. -/
theorem storedMemory_outside {c : Core} {x : UInt64} (hx : Outside data 48 x) :
    storedMemory data c x = c.memory x := by
  rw [storedMemory, msrDataAddress, msrDataAddress, msrDataAddress,
    storeWord_outside (n := 6) (by decide) hx, storeWord_outside (n := 6) (by decide) hx,
    storeWord_outside (n := 6) (by decide) hx]

/-- `tsc_data` is behind the entries. -/
theorem Entries.storeTscOffset (h : Entries data memory mperf aperf tsc) (value : UInt64) :
    Entries data (storeWord memory (tscDataAddress data) value) mperf aperf tsc := by
  refine h.congr fun k hk => store_outside ?_
  have hoffset := toNat_add_sub data (o := k) (p := 8 * 8) (by omega) (by decide)
  rw [if_neg (by omega)] at hoffset
  rw [length_leBytes, tscDataAddress, hoffset]
  omega

/-- MPERF is no base of a segment register, and neither is APERF. -/
theorem rdmsr_counter (c : Core) {msr : Nat} (h : msr = ia32Mperf ∨ msr = ia32Aperf) :
    c.rdmsr msr = (c.system.msrs msr, c) := by
  rcases h with rfl | rfl <;> rfl

/-- RDMSR of the TSC takes the next value of the counter. -/
theorem rdmsr_tsc (c : Core) :
    c.rdmsr ia32TimeStampCounter = (c.tsc 0, { c with tsc := fun k => c.tsc (k + 1) }) := rfl

/-- The stores of an exit: MPERF and APERF of the guest, and the next
value of the TSC. -/
theorem storeMsrs_entries {c : Core} (h : HasEntries data c.memory) :
    storeMsrs data 3 c =
      { c with memory := storedMemory data c, tsc := fun k => c.tsc (k + 1) } := by
  obtain ⟨mperf, aperf, tsc, h⟩ := h
  -- The indices stay what they are, while the data is replaced word by word.
  have hone : Entries data _ (c.system.msrs ia32Mperf) aperf tsc :=
    h.storeData (i := 0) (by decide) _
  have htwo : Entries data _ (c.system.msrs ia32Mperf) (c.system.msrs ia32Aperf) tsc :=
    hone.storeData (i := 1) (by decide) _
  have hrange : List.range (3 : UInt64).toNat = [0, 1, 2] := rfl
  rw [storeMsrs, hrange, List.foldl_cons, List.foldl_cons, List.foldl_cons, List.foldl_nil]
  simp only [storeMsr, h.index (i := 0) rfl, rdmsr_counter c (.inl rfl)]
  rw [hone.index (i := 1) rfl, rdmsr_counter _ (.inr rfl), htwo.index (i := 2) rfl, rdmsr_tsc]
  rfl

end

/-! ### `prepare_msr_entries` -/

/-- Memory with a word stored at a position of an area. -/
def storeAt (data : UInt64) (memory : UInt64 → UInt8) (k : Nat) (value : UInt64) : UInt64 → UInt8 :=
  storeWord memory (data + UInt64.ofNat (8 * k)) value

/-- Memory behind `prepare_msr_entries`: zeros, and eight words on top
of them. -/
def preparedMemory (data : UInt64) (c : Core) : UInt64 → UInt8 :=
  let zeros := store c.memory data (List.replicate stealthDataSize 0)
  let first := storeAt data (storeAt data zeros 0 (UInt64.ofNat ia32Mperf)) 1
    (c.system.msrs ia32Mperf)
  let second := storeAt data (storeAt data first 2 (UInt64.ofNat ia32Aperf)) 3
    (c.system.msrs ia32Aperf)
  let third := storeAt data (storeAt data second 4 (UInt64.ofNat ia32TimeStampCounter)) 5 (c.tsc 0)
  storeAt data (storeAt data third 6 (UInt64.ofNat maxMsrEntries)) 7
    (UInt64.ofNat (maxMsrEntries - 1))

/-- `prepare_msr_entries` reads the TSC once, and leaves all registers
alone. -/
theorem prepareMsrEntries_eq (data : UInt64) (c : Core) :
    prepareMsrEntries data c =
      { c with memory := preparedMemory data c, tsc := fun k => c.tsc (k + 1) } := by
  rw [prepareMsrEntries]
  simp only [addMsrEntry, rdmsr_counter _ (.inl rfl), rdmsr_counter _ (.inr rfl), rdmsr_tsc]
  rfl

/-- The words of `stealth_data` up to the counts. -/
theorem words_preparedMemory (data : UInt64) (c : Core) :
    words (preparedMemory data c) data 8 =
      [UInt64.ofNat ia32Mperf, c.system.msrs ia32Mperf, UInt64.ofNat ia32Aperf,
        c.system.msrs ia32Aperf, UInt64.ofNat ia32TimeStampCounter, c.tsc 0,
        UInt64.ofNat maxMsrEntries, UInt64.ofNat (maxMsrEntries - 1)] := by
  have hstore : ∀ memory k value, k < 8 →
      words (storeAt data memory k value) data 8 = (words memory data 8).set k value :=
    fun memory k value hk => words_storeWord_at memory data value hk (by decide)
  rw [preparedMemory, hstore _ 7 _ (by decide), hstore _ 6 _ (by decide), hstore _ 5 _ (by decide),
    hstore _ 4 _ (by decide), hstore _ 3 _ (by decide), hstore _ 2 _ (by decide),
    hstore _ 1 _ (by decide), hstore _ 0 _ (by decide)]
  generalize store c.memory data (List.replicate stealthDataSize 0) = zeros
  simp only [words, List.set_cons_zero, List.set_cons_succ]

/-- The entries have MPERF, APERF and the TSC as they are read. -/
theorem entries_prepareMsrEntries (data : UInt64) (c : Core) :
    Entries data (prepareMsrEntries data c).memory (c.system.msrs ia32Mperf)
      (c.system.msrs ia32Aperf) (c.tsc 0) := by
  have hwords := words_preparedMemory data c
  have hsplit := words_add (preparedMemory data c) data 6 2
  rw [Entries, prepareMsrEntries_eq]
  exact (List.append_inj (hsplit.symm.trans hwords) (length_words ..)).1

/-- All three entries are stored, and the TSC is not loaded. -/
theorem counts_prepareMsrEntries (data : UInt64) (c : Core) :
    loadWord (prepareMsrEntries data c).memory (msrStoreCountAddress data) = 3 ∧
      loadWord (prepareMsrEntries data c).memory (msrLoadCountAddress data) = 2 := by
  rw [prepareMsrEntries_eq]
  have hwords := words_preparedMemory data c
  exact ⟨loadWord_of_words hwords (by decide) rfl, loadWord_of_words hwords (by decide) rfl⟩

/-- Outside of `stealth_data` nothing is written. -/
theorem prepareMsrEntries_outside {data x : UInt64} (c : Core)
    (hx : Outside data stealthDataSize x) : (prepareMsrEntries data c).memory x = c.memory x := by
  have hwords : Outside data (8 * 8) x := Nat.le_trans (by decide) hx
  have hstore : ∀ memory k value, k < 8 → storeAt data memory k value x = memory x :=
    fun memory k value hk => storeWord_outside hk hwords
  rw [prepareMsrEntries_eq]
  simp only [preparedMemory]
  rw [hstore _ 7 _ (by decide), hstore _ 6 _ (by decide), hstore _ 5 _ (by decide),
    hstore _ 4 _ (by decide), hstore _ 3 _ (by decide), hstore _ 2 _ (by decide),
    hstore _ 1 _ (by decide), hstore _ 0 _ (by decide)]
  exact store_outside (by rwa [List.length_replicate])

end Revhv.Launch
