import Revhv.Proofs.PeParser
import Revhv.Um.PeAccess

/-!
# `Revhv.Proofs.PeAccess`: the PE parser stays in the mapped file

* `run_parseReads`, `localRead_eq`: the program with its reads made explicit
  is `parse`, and an access is what a read of the file copies.
* `parseReads_asks`: a parse reads within the size it was given, whatever
  the bytes say.
* `accesses_inView_iff`: from a file, everything stays in the view, unless a
  negative `e_lfanew` makes the bound of the quick parse wrap.
-/

set_option autoImplicit false

namespace Revhv.PeParser

open Revhv.Lib Revhv.Lib.RecordLayout

/-! ### The program is the parser -/

section
variable (p : Pe)

/-- The reads of `p`. -/
def Pe.answer (c : UInt64 × Nat) : Option (List UInt8) := p.read c.1 c.2

/-- A typed read, answered from the file. -/
theorem run_readTyped (source : UInt64) (size : Nat) :
    (readTyped source size).run p.answer = p.read source size := by
  have hanswer : p.answer (source, size) = p.read source size := rfl
  rw [readTyped, Query.run_ask, hanswer]
  cases p.read source size with
  | none => rfl
  | some bytes => rfl

/-- The reads of `validate_and_read_headers`, answered from the file,
give what it returns. -/
theorem run_validateReads :
    (validateReads p.base p.size).run p.answer = validateAndReadHeaders p := by
  unfold validateReads validateAndReadHeaders
  -- The same checks in the same order, each of which ends both.
  by_cases hargs : p.base = 0 ∨ p.size < sizeofDosHeader
  · rw [if_pos hargs, if_pos hargs]
    rfl
  rw [if_neg hargs, if_neg hargs, Query.run_bind, run_readTyped]
  apply congrArg
  funext dosBytes
  by_cases hmagic : (DosHeader.ofBytes dosBytes).magic ≠ dosSignature
  · simp only [if_pos hmagic, Query.run_throw]
  by_cases hneg : (DosHeader.ofBytes dosBytes).lfanew < 0
  · simp only [if_neg hmagic, if_pos hneg, Query.run_throw]
  by_cases hroom : (DosHeader.ofBytes dosBytes).lfanew.toNat > p.size ∨
      p.size - (DosHeader.ofBytes dosBytes).lfanew.toNat < sizeofNtHeaders
  · simp only [if_neg hmagic, if_neg hneg, if_pos hroom, Query.run_throw]
  simp only [if_neg hmagic, if_neg hneg, if_neg hroom, Query.run_bind, run_readTyped]
  apply congrArg
  funext ntBytes
  by_cases hsign : (NtHeaders.ofBytes ntBytes).signature ≠ ntSignature
  · simp only [if_pos hsign, Query.run_throw]
  simp only [if_neg hsign]
  cases calculateSectionTableOffset (DosHeader.ofBytes dosBytes).lfanew.toNat
      (NtHeaders.ofBytes ntBytes) with
  | none => rfl
  | some offset => rfl

/-- The reads of `read_sections`. -/
theorem run_sectionReads (headers : ParsedHeaders) :
    (sectionReads p.base p.size headers).run p.answer = readSections p headers := by
  unfold sectionReads readSections
  split
  · rfl
  · split
    · rfl
    · rw [Query.run_each]
      apply congrFun
      apply congrArg
      funext index
      rw [Query.run_bind, run_readTyped]
      rfl

variable (filename : List UInt8 → Option (List UInt8))

/-- The reads for one debug entry. -/
theorem run_entryReads (e : DebugEntry) :
    (entryReads filename p.base p.size e).run p.answer = examineEntry filename p e := by
  unfold entryReads examineEntry
  -- Each check that fails answers the same in both.
  split
  · rfl
  · split
    · rfl
    · split
      · rfl
      · split
        · rfl
        · have hanswer : p.answer (p.base + UInt64.ofNat e.addressOfRawData, e.sizeOfData) =
              p.read (p.base + UInt64.ofNat e.addressOfRawData) e.sizeOfData := rfl
          rw [Query.run_ask, hanswer]
          cases p.read (p.base + UInt64.ofNat e.addressOfRawData) e.sizeOfData with
          | none => rfl
          | some data =>
            simp only
            cases readRsds filename data with
            | none => rfl
            | some found => rfl

/-- The reads of the loop over the debug entries. By induction on the
entries. -/
theorem run_scanReads (rvas : List Nat) :
    (scanReads filename p.base p.size rvas).run p.answer = scanEntries filename p rvas := by
  induction rvas with
  | nil => rfl
  | cons rva rvas ih =>
    rw [scanReads, Query.run_bind, run_readTyped, scanEntries]
    cases p.read (p.base + UInt64.ofNat rva) sizeofDebugDirectory with
    | none => rfl
    | some bytes =>
      rw [Option.bind_some, Query.run_bind, run_entryReads]
      cases hentry : examineEntry filename p (DebugEntry.ofBytes bytes) with
      | none => simp only [Option.bind_none, hentry]
      | some found =>
        cases found with
        | none => simp only [Option.bind_some, hentry, ih]
        | some info => simp only [Option.bind_some, hentry, Query.run_done]

/-- The reads of `try_extract_codeview_info`. -/
theorem run_codeviewReads (nt : NtHeaders) :
    (codeviewReads filename p.base p.size nt).run p.answer
      = tryExtractCodeviewInfo filename p nt := by
  unfold codeviewReads tryExtractCodeviewInfo
  split
  · rfl
  · split
    · rfl
    · exact run_scanReads p filename _

/-- The program computes what `parse` computes. -/
theorem run_parseReads :
    (parseReads filename p.base p.size).run p.answer = some (parse filename p) := by
  unfold parseReads parse
  rw [Query.run_bind, Query.run_attempt, run_validateReads, Option.bind_some]
  cases validateAndReadHeaders p with
  | none => rfl
  | some headers =>
    simp only [Query.run_bind, Query.run_attempt, run_sectionReads, Option.bind_some]
    cases readSections p headers with
    | none => rfl
    | some sections =>
      simp only [Query.run_bind, Query.run_attempt, run_codeviewReads, Option.bind_some]
      cases tryExtractCodeviewInfo filename p headers.ntHeaders with
      | none => rfl
      | some codeview => rfl

end

/-- A read of the file copies what it accesses. -/
theorem localRead_eq (file : MappedFile) (sections : List SectionHeader) (headerSize : Nat)
    (virtualBase source : UInt64) (size : Nat) :
    localRead file sections headerSize virtualBase source size
      = (localAccess file sections headerSize virtualBase source size).map fun access =>
        bytesAt file.view access.1 access.2 := by
  unfold localRead localAccess
  -- The reader checks its arguments, then the headers, then looks for a
  -- section.
  by_cases hargs : source = 0 ∨ size = 0
  · rw [if_pos hargs, if_pos hargs]
    rfl
  simp only [if_neg hargs]
  split
  · split
    · rfl
    · rfl
  · cases sections.find? (fun s => s.covers (source - virtualBase).toNat) with
    | some s =>
      simp only
      split
      · rfl
      · rfl
    | none =>
      simp only
      split
      · rfl
      · rfl

/-! ### Reads within the size -/

/-- A read of `size` bytes from `base` on that ends within them, and is
less than 4 GB long. -/
def Within (base : UInt64) (size : Nat) (c : UInt64 × Nat) : Prop :=
  ∃ rva, c.1 = base + UInt64.ofNat rva ∧ rva + c.2 ≤ size ∧ c.2 < 2 ^ 32

section
variable {base : UInt64} {size : Nat}

/-- A range that ends inside the view is one of its ranges. -/
theorem within_of_le {rva n : Nat} (h : rva + n ≤ size) (hn : n < 2 ^ 32) :
    Within base size (base + UInt64.ofNat rva, n) := ⟨rva, rfl, h, hn⟩

/-- A typed read asks for one range. -/
theorem readTyped_asks {source : UInt64} {n : Nat} (h : Within base size (source, n)) :
    (readTyped source n).Asks (Within base size) := by
  refine ⟨h, fun answer => ?_⟩
  cases answer with
  | none => trivial
  | some bytes => trivial

/-- The headers are checked against the size before they are read. -/
theorem validateReads_asks : (validateReads base size).Asks (Within base size) := by
  unfold validateReads
  -- Two reads, one of the DOS header and one where its offset points, each
  -- checked before it is made.
  split
  · trivial
  rename_i hargs
  have hdos : Within base size (base + UInt64.ofNat 0, sizeofDosHeader) :=
    within_of_le (by omega) (by decide)
  rw [show base + UInt64.ofNat 0 = base from UInt64.add_zero base] at hdos
  apply (readTyped_asks hdos).bind
  intro dosBytes
  simp only
  split
  · trivial
  split
  · trivial
  split
  · trivial
  rename_i hroom
  have hnt : Within base size (base + UInt64.ofNat (DosHeader.ofBytes dosBytes).lfanew.toNat,
      sizeofNtHeaders) := within_of_le (by omega) (by decide)
  apply (readTyped_asks hnt).bind
  intro ntBytes
  split
  · trivial
  split
  · trivial
  · trivial

/-- So are the section headers. -/
theorem sectionReads_asks (headers : ParsedHeaders) :
    (sectionReads base size headers).Asks (Within base size) := by
  unfold sectionReads
  split
  · trivial
  split
  · trivial
  rename_i hoffset htable
  apply Query.Asks.each
  intro index hindex
  have hmul := Nat.mul_le_mul_right sizeofSectionHeader (List.mem_range.mp hindex)
  rw [Nat.succ_mul] at hmul
  have hpos := List.mem_range.mp hindex
  have hread : Within base size (base +
      UInt64.ofNat (headers.sectionTableOffset + index * sizeofSectionHeader),
        sizeofSectionHeader) := within_of_le (by omega) (by decide)
  exact (readTyped_asks hread).bind fun bytes => trivial

variable (filename : List UInt8 → Option (List UInt8))

/-- So is the record that a debug entry points to. -/
theorem entryReads_asks {e : DebugEntry} (hsize : e.sizeOfData < 2 ^ 32) :
    (entryReads filename base size e).Asks (Within base size) := by
  unfold entryReads
  split
  · trivial
  split
  · trivial
  split
  · trivial
  split
  · trivial
  rename_i hroom
  refine ⟨within_of_le (by omega) hsize, fun answer => ?_⟩
  cases answer with
  | none => trivial
  | some data =>
    simp only
    split
    · trivial
    · trivial

/-- The loop reads debug entries that end inside the view. By induction
on the entries. -/
theorem scanReads_asks {rvas : List Nat} (h : ∀ rva ∈ rvas, rva + sizeofDebugDirectory ≤ size) :
    (scanReads filename base size rvas).Asks (Within base size) := by
  induction rvas with
  | nil => trivial
  | cons rva rvas ih =>
    apply (readTyped_asks (within_of_le (h rva List.mem_cons_self) (by decide))).bind
    intro bytes
    apply (entryReads_asks filename (field_lt 16 4 bytes)).bind
    intro found
    cases found with
    | none => exact ih fun r hr => h r (List.mem_cons_of_mem rva hr)
    | some info => trivial

/-- The directory is checked against the size before its entries are
read. -/
theorem codeviewReads_asks (nt : NtHeaders) :
    (codeviewReads filename base size nt).Asks (Within base size) := by
  unfold codeviewReads
  split
  · trivial
  split
  · trivial
  rename_i hroom
  apply scanReads_asks
  intro rva hrva
  rcases List.mem_map.mp hrva with ⟨index, hindex, rfl⟩
  have hmul := Nat.mul_le_mul_right sizeofDebugDirectory (List.mem_range.mp hindex)
  have hdiv := Nat.div_mul_le_self nt.debugSize sizeofDebugDirectory
  rw [Nat.succ_mul] at hmul
  omega

/-- A parse reads within the size, whatever the bytes it reads say. -/
theorem parseReads_asks : (parseReads filename base size).Asks (Within base size) := by
  unfold parseReads
  apply validateReads_asks.attempt.bind
  intro headers
  cases headers with
  | none => trivial
  | some headers =>
    apply (sectionReads_asks headers).attempt.bind
    intro sections
    cases sections with
    | none => trivial
    | some sections =>
      apply (codeviewReads_asks filename headers.ntHeaders).attempt.bind
      intro codeview
      cases codeview with
      | none => trivial
      | some codeview => trivial

end

/-! ### Accesses in the view -/

/-- The access is to bytes of the file. -/
def MappedFile.InView (file : MappedFile) (access : Nat × Nat) : Prop :=
  access.1 + access.2 ≤ file.size

/-- The view lies in the user half of the address space, as every view
of a file does. -/
def MappedFile.InUserSpace (file : MappedFile) : Prop :=
  file.address.toNat + file.size ≤ 2 ^ 47

/-- `e_lfanew`. -/
def MappedFile.lfanew (file : MappedFile) : Int :=
  (DosHeader.ofBytes (bytesAt file.view 0 sizeofDosHeader)).lfanew

/-- The NT headers would start less than their size in front of the view
and end in it. -/
structure MappedFile.HeadersBeforeView (file : MappedFile) : Prop where
  dosHeader : sizeofDosHeader ≤ file.size
  dosMagic : (DosHeader.ofBytes (bytesAt file.view 0 sizeofDosHeader)).magic = dosSignature
  before : file.lfanew < 0
  wraps : 0 ≤ file.lfanew + sizeofNtHeaders
  ends : file.lfanew + sizeofNtHeaders ≤ file.size

section
variable {file : MappedFile}

/-- `e_lfanew` is a signed 32-bit number. -/
theorem lfanew_range (file : MappedFile) : -2 ^ 31 ≤ file.lfanew ∧ file.lfanew < 2 ^ 31 :=
  ⟨BitVec.le_toInt _, BitVec.toInt_lt⟩

/-- The sections of a quick parse come from section headers. -/
theorem pointerToRawData_lt {quick : List SectionHeader × Nat} (h : quickParse file = some quick)
    {s : SectionHeader} (hs : s ∈ quick.1) : s.pointerToRawData < 2 ^ 32 := by
  have hnone : s ∉ ([] : List SectionHeader) := List.not_mem_nil
  unfold quickParse at h
  by_cases hdos : file.size < sizeofDosHeader
  · rw [if_pos hdos] at h
    cases h
    exact absurd hs hnone
  rw [if_neg hdos] at h
  -- Every early exit of the quick parse returns no sections.
  simp only at h
  split at h
  · cases h
    exact absurd hs hnone
  split at h
  · cases h
    exact absurd hs hnone
  split at h
  · cases h
  split at h
  · cases h
    exact absurd hs hnone
  · cases h
    rcases List.mem_map.mp hs with ⟨off, -, rfl⟩
    exact field_lt 20 4 _

/-- A read within the size of the file accesses the file. -/
theorem localAccess_inView (hsize : file.size ≤ 2 ^ 47) {sections : List SectionHeader}
    (hsections : ∀ s ∈ sections, s.pointerToRawData < 2 ^ 32) {headerSize : Nat} {base : UInt64}
    {c : UInt64 × Nat} (hc : Within base file.size c) {access : Nat × Nat}
    (h : localAccess file sections headerSize base c.1 c.2 = some access) :
    file.InView access := by
  rcases hc with ⟨rva, hsource, hend, hshort⟩
  have hrva : (c.1 - base).toNat = rva := by
    rw [hsource, UInt64.add_comm, UInt64.add_sub_cancel, UInt64.toNat_ofNat',
      Nat.mod_eq_of_lt (by omega)]
  have hwrap : add64 rva c.2 = rva + c.2 := Nat.mod_eq_of_lt (by omega)
  unfold localAccess at h
  split at h
  · cases h
  simp only [hrva, hwrap] at h
  split at h
  · -- In the headers the RVA is the offset.
    rw [if_neg (by omega)] at h
    cases h
    exact hend
  cases hfind : sections.find? fun s => s.covers rva with
  | none =>
    simp only [hfind] at h
    cases h
    exact hend
  | some s =>
    -- Offset and size are sums of numbers of 32 bits, so the bound does not wrap.
    have hptr := hsections s (List.mem_of_find?_eq_some hfind)
    have hdec := List.find?_some hfind
    have hcovers : s.covers rva := of_decide_eq_true hdec
    have hlow : rva < 2 ^ 32 := by
      have hmod : add32 s.virtualAddress (max s.virtualSize s.sizeOfRawData) < 2 ^ 32 :=
        Nat.mod_lt _ (by decide)
      exact Nat.lt_trans hcovers.2 hmod
    have hoffset : add64 s.pointerToRawData (rva - s.virtualAddress)
        = s.pointerToRawData + (rva - s.virtualAddress) := Nat.mod_eq_of_lt (by omega)
    have hoffsetWrap : add64 (s.pointerToRawData + (rva - s.virtualAddress)) c.2
        = s.pointerToRawData + (rva - s.virtualAddress) + c.2 := Nat.mod_eq_of_lt (by omega)
    simp only [hfind, hoffset, hoffsetWrap] at h
    split at h
    · cases h
    · cases h
      exact Nat.le_of_not_lt ‹_›

/-- A parse of the object that `from_file` returns accesses the file. -/
theorem parseAccesses_inView (hsize : file.size ≤ 2 ^ 47)
    (filename : List UInt8 → Option (List UInt8)) (imageBase : UInt64) {access : Nat × Nat}
    (h : access ∈ parseAccesses filename file imageBase) : file.InView access := by
  unfold parseAccesses at h
  cases hquick : quickParse file with
  | none =>
    rw [hquick] at h
    cases h
  | some quick =>
    have hfile : fromFile file imageBase = some ⟨if imageBase ≠ 0 then imageBase else file.address,
        file.size, localRead file quick.1 quick.2
          (if imageBase ≠ 0 then imageBase else file.address)⟩ := by
      rw [fromFile, hquick]
      rfl
    rw [hquick, hfile] at h
    simp only at h
    rcases List.mem_filterMap.mp h with ⟨c, hc, haccess⟩
    have hwithin := Query.asked_of_asks (parseReads_asks filename) hc
    exact localAccess_inView hsize (fun s hs => pointerToRawData_lt hquick hs) hwithin haccess

/-- The walk over the section table accesses the file. -/
theorem tableAccesses_inView {table count : Nat}
    (htable : table < 2 ^ 48) (hcount : count < 2 ^ 16) {access : Nat × Nat}
    (h : access ∈ tableAccesses file table count) : file.InView access := by
  rcases List.mem_map.mp h with ⟨off, hoff, rfl⟩
  -- Entries are read while they fit, so the last one read fits too.
  have hfits := List.mem_takeWhile_imp hoff
  rcases List.mem_map.mp ((List.takeWhile_prefix _).mem hoff) with ⟨i, hi, rfl⟩
  have hlt := List.mem_range.mp hi
  have hle := of_decide_eq_true hfits
  have hmul : i * sizeofSectionHeader ≤ 2 ^ 16 * 40 := Nat.mul_le_mul (by omega) (Nat.le_refl 40)
  have hwrap : add64 table (i * sizeofSectionHeader) = table + i * sizeofSectionHeader :=
    Nat.mod_eq_of_lt (by omega)
  have hend : add64 (table + i * sizeofSectionHeader) sizeofSectionHeader
      = table + i * sizeofSectionHeader + sizeofSectionHeader := by
    apply Nat.mod_eq_of_lt
    unfold sizeofSectionHeader at hmul ⊢
    omega
  rw [hwrap] at hle ⊢
  rw [hend] at hle
  exact hle

/-- The quick parse accesses the file, unless the NT headers would start
in front of the view. -/
theorem quickAccesses_inView_iff (hsize : file.size ≤ 2 ^ 47) :
    (∀ access ∈ quickAccesses file, file.InView access) ↔ ¬ file.HeadersBeforeView := by
  have hrange := lfanew_range file
  have hnt : sizeofNtHeaders = 264 := rfl
  -- The branches of `quick_parse` in its order.
  by_cases hdos : file.size < sizeofDosHeader
  · have hempty : quickAccesses file = [] := if_pos hdos
    rw [hempty]
    constructor
    · intro _ hbad
      have hlarge := hbad.dosHeader
      omega
    · intro _ access haccess
      cases haccess
  have hfirst : file.InView (0, sizeofDosHeader) := by
    show 0 + sizeofDosHeader ≤ file.size
    omega
  unfold quickAccesses
  rw [if_neg hdos, List.forall_mem_cons]
  by_cases hmagic : (DosHeader.ofBytes (bytesAt file.view 0 sizeofDosHeader)).magic ≠ dosSignature
  · simp only [if_pos hmagic]
    constructor
    · intro _ hbad
      exact hmagic hbad.dosMagic
    · intro _
      exact ⟨hfirst, fun access haccess => absurd haccess List.not_mem_nil⟩
  simp only [if_neg hmagic]
  rw [show (DosHeader.ofBytes (bytesAt file.view 0 sizeofDosHeader)).lfanew = file.lfanew from rfl]
  by_cases hneg : file.lfanew < 0
  · -- The offset is just below `2 ^ 64`, and its end wraps or is far behind the view.
    have hoffset : (((file.lfanew % 2 ^ 64).toNat : Nat) : Int) = file.lfanew + 2 ^ 64 := by omega
    by_cases hends : add64 (file.lfanew % 2 ^ 64).toNat sizeofNtHeaders > file.size
    · rw [if_pos hends]
      constructor
      · intro _ hbad
        have hwraps := hbad.wraps
        have hend := hbad.ends
        unfold add64 at hends
        omega
      · intro _
        exact ⟨hfirst, fun access haccess => absurd haccess List.not_mem_nil⟩
    · rw [if_neg hends, List.forall_mem_cons]
      have hout : ¬ file.InView ((file.lfanew % 2 ^ 64).toNat, sizeofNtHeaders) := by
        show ¬ (file.lfanew % 2 ^ 64).toNat + sizeofNtHeaders ≤ file.size
        omega
      constructor
      · intro hall
        exact absurd hall.2.1 hout
      · intro hgood
        apply absurd _ hgood
        unfold add64 at hends
        exact ⟨by omega, not_not.mp hmagic, hneg, by omega, by omega⟩
  · have hgood : ¬ file.HeadersBeforeView := fun hbad => hneg hbad.before
    have hoffset : (((file.lfanew % 2 ^ 64).toNat : Nat) : Int) = file.lfanew := by omega
    apply iff_of_true _ hgood
    refine ⟨hfirst, ?_⟩
    have hwrap : add64 (file.lfanew % 2 ^ 64).toNat sizeofNtHeaders
        = (file.lfanew % 2 ^ 64).toNat + sizeofNtHeaders := Nat.mod_eq_of_lt (by omega)
    rw [hwrap]
    by_cases hends : (file.lfanew % 2 ^ 64).toNat + sizeofNtHeaders > file.size
    · rw [if_pos hends]
      exact fun access haccess => absurd haccess List.not_mem_nil
    rw [if_neg hends, if_neg hends, List.forall_mem_cons]
    refine ⟨Nat.le_of_not_lt hends, ?_⟩
    generalize hbytes : bytesAt file.view (file.lfanew % 2 ^ 64).toNat sizeofNtHeaders = bytes
    split
    · exact fun access haccess => absurd haccess List.not_mem_nil
    · have hoptional : (NtHeaders.ofBytes bytes).sizeOfOptionalHeader < 2 ^ 16 := field_lt 20 2 bytes
      have htable : add64 (file.lfanew % 2 ^ 64).toNat (sizeofSignatureAndFileHeader +
          (NtHeaders.ofBytes bytes).sizeOfOptionalHeader) < 2 ^ 48 := by
        have hsmall : sizeofSignatureAndFileHeader = 24 := rfl
        have hexact : add64 (file.lfanew % 2 ^ 64).toNat (sizeofSignatureAndFileHeader +
            (NtHeaders.ofBytes bytes).sizeOfOptionalHeader)
              = (file.lfanew % 2 ^ 64).toNat + (sizeofSignatureAndFileHeader +
                (NtHeaders.ofBytes bytes).sizeOfOptionalHeader) := Nat.mod_eq_of_lt (by omega)
        omega
      exact fun access haccess =>
        tableAccesses_inView htable (field_lt 6 2 bytes) haccess

/-- Everything that `from_file` and a later parse of its object access
of the view is in the file, at every image base, exactly when the NT
headers of the file do not seem to start in front of the view. -/
theorem accesses_inView_iff (filename : List UInt8 → Option (List UInt8)) (file : MappedFile)
    (hview : file.InUserSpace) :
    ((∀ access ∈ quickAccesses file, file.InView access) ∧
      ∀ imageBase, ∀ access ∈ parseAccesses filename file imageBase, file.InView access) ↔
    ¬ file.HeadersBeforeView := by
  have hsize : file.size ≤ 2 ^ 47 := by
    unfold MappedFile.InUserSpace at hview
    omega
  rw [← quickAccesses_inView_iff hsize]
  exact ⟨fun h => h.1, fun h => ⟨h, fun imageBase access haccess =>
    parseAccesses_inView hsize filename imageBase haccess⟩⟩

end

/-- The accesses of the packed sample. -/
theorem accesses_inView_packed :
    ((∀ access ∈ quickAccesses (sampleFile 0x200 0x400), (sampleFile 0x200 0x400).InView access) ∧
      ∀ imageBase, ∀ access ∈ parseAccesses lastName (sampleFile 0x200 0x400) imageBase,
        (sampleFile 0x200 0x400).InView access) ↔
    ¬ (sampleFile 0x200 0x400).HeadersBeforeView :=
  accesses_inView_iff lastName (sampleFile 0x200 0x400)
    (by rw [MappedFile.InUserSpace]; decide +kernel)

/-- A file of one DOS header, with `e_lfanew = -264`. -/
def dosFile : MappedFile where
  address := 0x10000
  size := 64
  view i := (leBytes 2 dosSignature ++ List.replicate 58 0 ++ leBytes 4 (2 ^ 32 - 264)).getD i 0

/-- The quick parse of `dosFile` reads the 264 bytes in front of its
view. -/
theorem view_underrun :
    dosFile.InUserSpace ∧ (2 ^ 64 - 264, 264) ∈ quickAccesses dosFile ∧
      ¬ dosFile.InView (2 ^ 64 - 264, 264) := by
  refine ⟨?_, by decide +kernel, ?_⟩
  · rw [MappedFile.InUserSpace]
    decide +kernel
  · rw [MappedFile.InView]
    decide +kernel

end Revhv.PeParser
