import Mathlib.Data.List.Pairwise
import Mathlib.Data.List.TakeWhile
import Revhv.Um.Pe

/-!
# `Revhv.Proofs.PeParser`: a PE file parsed from disk and as its loaded image

`WellFormed` is what the loader asks of a file, and that the debug directory
and the CodeView data it names are in the headers or in the raw data of a
section.

* `localRead_backed`: through its translation the parser of the file reads
  what the image holds, wherever the file backs the image.
* `parse_of_readsImage`: so both parsers compute `parseResult`, each for its
  own `size`.
* `parse_agrees_iff`: the sections are always the same. The identities are
  the same exactly when the debug directory and the data of the entry that
  has the identity end within the size of the file.
-/

set_option autoImplicit false

namespace Revhv.PeParser

open Revhv.Lib.RecordLayout

/-! ### Well-formed files -/

/-- The file has its own bytes for `n` bytes of the image: in the
headers, or in the raw data of a section. -/
def MappedFile.Backed (file : MappedFile) (rva n : Nat) : Prop :=
  rva + n ≤ file.ntHeaders.sizeOfHeaders ∨
    ∃ s ∈ file.sections, s.virtualAddress ≤ rva ∧ rva + n ≤ s.virtualAddress + s.sizeOfRawData

/-- The end of a section in the image. -/
def SectionHeader.imageEnd (s : SectionHeader) : Nat :=
  s.virtualAddress + max s.virtualSize s.sizeOfRawData

/-- Two sections share no byte of the image. -/
def SectionHeader.Apart (s t : SectionHeader) : Prop :=
  s.imageEnd ≤ t.virtualAddress ∨ t.imageEnd ≤ s.virtualAddress

/-- `parse` finds a debug directory in the NT headers. -/
def MappedFile.HasDebug (file : MappedFile) : Prop :=
  file.ntHeaders.debugAddress ≠ 0 ∧ sizeofDebugDirectory ≤ file.ntHeaders.debugSize

/-- The RVAs of the entries of the debug directory. -/
def NtHeaders.debugRvas (nt : NtHeaders) : List Nat :=
  (List.range (nt.debugSize / sizeofDebugDirectory)).map fun index =>
    nt.debugAddress + index * sizeofDebugDirectory

/-- The entries of the debug directory. -/
def MappedFile.debugEntries (file : MappedFile) : List DebugEntry :=
  file.ntHeaders.debugRvas.map fun rva =>
    DebugEntry.ofBytes (bytesAt file.loaded rva sizeofDebugDirectory)

/-- The entry names CodeView data in the image. -/
def DebugEntry.NamesCodeview (e : DebugEntry) : Prop :=
  e.type = debugTypeCodeview ∧ e.addressOfRawData ≠ 0 ∧ sizeofRsdsHeader ≤ e.sizeOfData

/-- A well-formed PE file. -/
structure MappedFile.WellFormed (file : MappedFile) : Prop where
  dosMagic : (DosHeader.ofBytes (bytesAt file.view 0 sizeofDosHeader)).magic = dosSignature
  lfanew : 0 ≤ (DosHeader.ofBytes (bytesAt file.view 0 sizeofDosHeader)).lfanew
  signature : file.ntHeaders.signature = ntSignature
  optionalHeader : sizeofNtHeaders
    ≤ sizeofSignatureAndFileHeader + file.ntHeaders.sizeOfOptionalHeader
  table : file.sectionTable + file.ntHeaders.numberOfSections * sizeofSectionHeader
    ≤ file.ntHeaders.sizeOfHeaders
  headersInFile : file.ntHeaders.sizeOfHeaders ≤ file.size
  headersInImage : file.ntHeaders.sizeOfHeaders ≤ file.ntHeaders.sizeOfImage
  size : file.size < 2 ^ 64
  rawData : ∀ s ∈ file.sections, s.pointerToRawData + s.sizeOfRawData ≤ file.size
  inImage : ∀ s ∈ file.sections, file.ntHeaders.sizeOfHeaders ≤ s.virtualAddress ∧
    s.imageEnd ≤ file.ntHeaders.sizeOfImage
  apart : file.sections.Pairwise SectionHeader.Apart
  debugDirectory : file.HasDebug →
    file.Backed file.ntHeaders.debugAddress file.ntHeaders.debugSize
  debugData : file.HasDebug → ∀ e ∈ file.debugEntries, e.NamesCodeview →
    file.Backed e.addressOfRawData e.sizeOfData

/-! ### Bytes of a view -/

/-- Bytes are equal where the views are. -/
theorem bytesAt_congr {f g : Nat → UInt8} {a b n : Nat} (h : ∀ i < n, f (a + i) = g (b + i)) :
    bytesAt f a n = bytesAt g b n := by
  apply List.map_congr_left
  intro i hi
  exact h i (List.mem_range.mp hi)

/-- A field fits its width. -/
theorem field_lt (off w : Nat) (bytes : List UInt8) : field off w bytes < 256 ^ w :=
  leValue_lt w _

/-- The size of an image fits 32 bits. -/
theorem sizeOfImage_lt (file : MappedFile) : file.ntHeaders.sizeOfImage < 2 ^ 32 := by
  have h := field_lt 80 4 (bytesAt file.view file.ntOffset sizeofNtHeaders)
  exact h

/-- The headers are in the image as they are in the file. -/
theorem loaded_header {file : MappedFile} {rva : Nat}
    (h : rva < file.ntHeaders.sizeOfHeaders) : file.loaded rva = file.view rva := if_pos h

section
variable {file : MappedFile} (hwf : file.WellFormed)
include hwf

/-! ### The image, by its parts -/

/-- Two sections that both cover a byte of the image are one. -/
theorem section_unique {s t : SectionHeader} (hs : s ∈ file.sections) (ht : t ∈ file.sections)
    (rva : Nat) (hsr : s.virtualAddress ≤ rva ∧ rva < s.imageEnd)
    (htr : t.virtualAddress ≤ rva ∧ rva < t.imageEnd) : s = t := by
  have hsymm : Std.Symm SectionHeader.Apart := ⟨fun _ _ h => h.symm⟩
  by_contra hne
  rcases hwf.apart.forall hs ht hne with h | h <;> omega

/-- The section test of the reader does not wrap. -/
theorem covers_iff {s : SectionHeader} (hs : s ∈ file.sections) (rva : Nat) :
    s.covers rva ↔ s.virtualAddress ≤ rva ∧ rva < s.imageEnd := by
  have hend := (hwf.inImage s hs).2
  have hsize := sizeOfImage_lt file
  unfold SectionHeader.imageEnd at hend ⊢
  rw [SectionHeader.covers, add32, Nat.mod_eq_of_lt (by omega)]

/-- The raw data of a section are in the image as they are in the file. -/
theorem loaded_section {s : SectionHeader} (hs : s ∈ file.sections) {rva : Nat}
    (h : s.holds rva) :
    file.loaded rva = file.view (s.pointerToRawData + (rva - s.virtualAddress)) := by
  have hbehind : ¬ rva < file.ntHeaders.sizeOfHeaders := by
    have hva := (hwf.inImage s hs).1
    have hlow := h.1
    omega
  -- The first section that holds the byte is `s`, since no two share one.
  have hfind : file.sections.find? (fun t => t.holds rva) = some s := by
    cases hres : file.sections.find? (fun t => t.holds rva) with
    | none =>
      have hnot := List.find?_eq_none.mp hres s hs
      exact absurd (decide_eq_true h) hnot
    | some t =>
      have hdec := List.find?_some hres
      have ht : t.holds rva := of_decide_eq_true hdec
      have heq : t = s := by
        apply section_unique hwf (List.mem_of_find?_eq_some hres) hs rva
        · unfold SectionHeader.holds at ht
          unfold SectionHeader.imageEnd
          omega
        · unfold SectionHeader.holds at h
          unfold SectionHeader.imageEnd
          omega
      rw [heq]
  rw [MappedFile.loaded, if_neg hbehind, hfind]

/-- Backed bytes are in the image. -/
theorem backed_inImage {rva n : Nat} (h : file.Backed rva n) :
    rva + n ≤ file.ntHeaders.sizeOfImage := by
  rcases h with h | ⟨s, hs, -, hend⟩
  · exact Nat.le_trans h hwf.headersInImage
  · have himage := (hwf.inImage s hs).2
    unfold SectionHeader.imageEnd at himage
    omega

/-! ### The parser of the file -/

/-- The NT headers lie in front of the end of the headers. -/
theorem ntHeaders_inHeaders :
    file.ntOffset + sizeofNtHeaders ≤ file.ntHeaders.sizeOfHeaders := by
  have htable := hwf.table
  have hoptional := hwf.optionalHeader
  unfold MappedFile.sectionTable at htable
  omega

/-- A section header lies in front of the end of the headers. -/
theorem sectionHeader_inHeaders {i : Nat} (hi : i < file.ntHeaders.numberOfSections) :
    file.sectionTable + i * sizeofSectionHeader + sizeofSectionHeader
      ≤ file.ntHeaders.sizeOfHeaders := by
  have htable := hwf.table
  have hmul := Nat.mul_le_mul_right sizeofSectionHeader hi
  rw [Nat.succ_mul] at hmul
  omega

/-- The quick parse finds the sections and the size of the headers. -/
theorem quickParse_eq : quickParse file = some (file.sections, file.ntHeaders.sizeOfHeaders) := by
  have hnt := ntHeaders_inHeaders hwf
  have hheaders := hwf.headersInFile
  have hsize := hwf.size
  -- The offset is signed in the file and unsigned where the parser adds to it.
  have hlfanew : ((DosHeader.ofBytes (bytesAt file.view 0 sizeofDosHeader)).lfanew % 2 ^ 64).toNat
      = file.ntOffset := by
    have hlt : (DosHeader.ofBytes (bytesAt file.view 0 sizeofDosHeader)).lfanew < 2 ^ 31 :=
      BitVec.toInt_lt
    have hge := hwf.lfanew
    rw [Int.emod_eq_of_lt hge (by omega)]
    rfl
  have hdos : ¬ file.size < sizeofDosHeader := by
    unfold sizeofNtHeaders at hnt
    unfold sizeofDosHeader
    omega
  have hwrap : add64 file.ntOffset sizeofNtHeaders = file.ntOffset + sizeofNtHeaders :=
    Nat.mod_eq_of_lt (by omega)
  -- No section header runs over the view, so the loop never stops early.
  have hsections : quickSections file file.sectionTable file.ntHeaders.numberOfSections
      = file.sections := by
    rw [quickSections, List.takeWhile_eq_self_iff.mpr, List.map_map]
    · rfl
    · intro off hoff
      rcases List.mem_map.mp hoff with ⟨i, hi, rfl⟩
      have hin := sectionHeader_inHeaders hwf (List.mem_range.mp hi)
      exact decide_eq_true (by omega)
  unfold quickParse
  simp only [if_neg hdos, hwf.dosMagic, hlfanew, hwrap, ne_eq, not_true, if_false]
  rw [if_neg (by omega), if_neg (by omega)]
  show (if file.ntHeaders.signature ≠ ntSignature then _ else _) = _
  rw [if_neg (fun hne => hne hwf.signature)]
  show some (quickSections file file.sectionTable file.ntHeaders.numberOfSections,
    file.ntHeaders.sizeOfHeaders) = _
  rw [hsections]

end

/-- The parser that `from_file` makes of a well-formed file. -/
def diskPe (file : MappedFile) (base : UInt64) : Pe :=
  ⟨base, file.size, localRead file file.sections file.ntHeaders.sizeOfHeaders base⟩

/-- What `from_file` returns. -/
theorem fromFile_eq {file : MappedFile} (hwf : file.WellFormed) {base : UInt64}
    (hbase : base ≠ 0) : fromFile file base = some (diskPe file base) := by
  rw [fromFile, quickParse_eq hwf, Option.map_some, if_pos hbase]
  rfl

/-! ### What both parsers read -/

/-- The image has room at `base`. -/
structure MappedFile.FitsAt (file : MappedFile) (base : UInt64) : Prop where
  nonzero : base ≠ 0
  room : base.toNat + file.ntHeaders.sizeOfImage ≤ 2 ^ 64

/-- The address of an RVA in the image, taken apart again. -/
theorem address_spec {file : MappedFile} {base : UInt64} (hfit : file.FitsAt base) {rva : Nat}
    (h : rva < file.ntHeaders.sizeOfImage) :
    base + UInt64.ofNat rva ≠ 0 ∧ (base + UInt64.ofNat rva - base).toNat = rva := by
  have hroom := hfit.room
  have hbase : 0 < base.toNat := by
    -- An address that wraps to 0 would read as absent.
    rcases Nat.eq_zero_or_pos base.toNat with hzero | hpos
    · exact absurd (UInt64.toNat_inj.mp hzero) hfit.nonzero
    · exact hpos
  have hrva : (UInt64.ofNat rva).toNat = rva := by
    rw [UInt64.toNat_ofNat', Nat.mod_eq_of_lt (by omega)]
  constructor
  · intro hzero
    have hsum := congrArg UInt64.toNat hzero
    rw [UInt64.toNat_add, hrva, Nat.mod_eq_of_lt (by omega)] at hsum
    have hnone : (0 : UInt64).toNat = 0 := rfl
    omega
  · rw [UInt64.add_comm, UInt64.add_sub_cancel, hrva]

/-- A parser whose reads give the bytes of the image wherever the file
backs it. -/
structure ReadsImage (file : MappedFile) (p : Pe) : Prop where
  nonzero : p.base ≠ 0
  headers : file.ntHeaders.sizeOfHeaders ≤ p.size
  read : ∀ rva n, 0 < n → file.Backed rva n →
    p.read (p.base + UInt64.ofNat rva) n = some (bytesAt file.loaded rva n)

/-- The translation of `from_file` reads the bytes of the image. -/
theorem localRead_backed {file : MappedFile} (hwf : file.WellFormed) {base : UInt64}
    (hfit : file.FitsAt base) {rva n : Nat} (hn : 0 < n) (h : file.Backed rva n) :
    localRead file file.sections file.ntHeaders.sizeOfHeaders base (base + UInt64.ofNat rva) n
      = some (bytesAt file.loaded rva n) := by
  have himage := backed_inImage hwf h
  have hfile := hwf.headersInFile
  have hsize := hwf.size
  rcases address_spec hfit (show rva < file.ntHeaders.sizeOfImage by omega) with ⟨hnull, hrva⟩
  have hargs : ¬ (base + UInt64.ofNat rva = 0 ∨ n = 0) := by
    rintro (hzero | hzero)
    · exact hnull hzero
    · omega
  unfold localRead
  simp only [if_neg hargs, hrva]
  rcases h with h | ⟨s, hs, hlow, hend⟩
  · -- In the headers the RVA is the offset.
    have hwrap : add64 rva n = rva + n := Nat.mod_eq_of_lt (by omega)
    rw [if_pos (by omega), hwrap, if_neg (by omega)]
    congr 1
    exact bytesAt_congr fun i hi => (loaded_header (by omega)).symm
  · have hva := (hwf.inImage s hs).1
    have hraw := hwf.rawData s hs
    have hcovers : s.covers rva := by
      rw [covers_iff hwf hs]
      unfold SectionHeader.imageEnd
      omega
    -- No two sections share a byte, so the first that covers the RVA is the one that backs it.
    have hfind : file.sections.find? (fun t => t.covers rva) = some s := by
      cases hres : file.sections.find? (fun t => t.covers rva) with
      | none =>
        have hnot := List.find?_eq_none.mp hres s hs
        exact absurd (decide_eq_true hcovers) hnot
      | some t =>
        have hdec := List.find?_some hres
        have ht : t.covers rva := of_decide_eq_true hdec
        have hmem := List.mem_of_find?_eq_some hres
        rw [section_unique hwf hmem hs rva ((covers_iff hwf hmem rva).mp ht)
          ((covers_iff hwf hs rva).mp hcovers)]
    have hoffset : add64 s.pointerToRawData (rva - s.virtualAddress)
        = s.pointerToRawData + (rva - s.virtualAddress) := Nat.mod_eq_of_lt (by omega)
    have hwrap : add64 (s.pointerToRawData + (rva - s.virtualAddress)) n
        = s.pointerToRawData + (rva - s.virtualAddress) + n := Nat.mod_eq_of_lt (by omega)
    rw [if_neg (by omega), hfind]
    simp only [hoffset, hwrap]
    rw [if_neg (by omega)]
    congr 1
    apply bytesAt_congr
    intro i hi
    have hholds : s.holds (rva + i) := ⟨by omega, by omega⟩
    rw [loaded_section hwf hs hholds]
    congr 1
    omega

/-- The parser of the file reads the image. -/
theorem readsImage_disk {file : MappedFile} (hwf : file.WellFormed) {base : UInt64}
    (hfit : file.FitsAt base) : ReadsImage file (diskPe file base) where
  nonzero := hfit.nonzero
  headers := hwf.headersInFile
  read _ _ hn h := localRead_backed hwf hfit hn h

/-- The parser of the image reads the image. -/
theorem readsImage_live {file : MappedFile} (hwf : file.WellFormed) {base : UInt64}
    (hfit : file.FitsAt base) : ReadsImage file (livePe file base) where
  nonzero := hfit.nonzero
  headers := hwf.headersInImage
  read rva n hn h := by
    have himage := backed_inImage hwf h
    rcases address_spec hfit (show rva < file.ntHeaders.sizeOfImage by omega) with ⟨hnull, hrva⟩
    have hargs : ¬ (base + UInt64.ofNat rva = 0 ∨ n = 0) := by
      rintro (hzero | hzero)
      · exact hnull hzero
      · omega
    show (livePe file base).read (base + UInt64.ofNat rva) n = _
    simp only [livePe, if_neg hargs, hrva, if_pos himage]

/-! ### What both parsers compute -/

/-- The image shows the headers of the file. -/
theorem bytesAt_headers {file : MappedFile} {off n : Nat}
    (h : off + n ≤ file.ntHeaders.sizeOfHeaders) :
    bytesAt file.loaded off n = bytesAt file.view off n :=
  bytesAt_congr fun _ _ => loaded_header (by omega)

/-- What the parsers know of the headers. -/
def MappedFile.parsedHeaders (file : MappedFile) : ParsedHeaders :=
  ⟨file.ntHeaders, file.sectionTable⟩

/-- The sections of an image at `base`. -/
def MappedFile.sectionList (file : MappedFile) (base : UInt64) : List Section :=
  file.sections.map (sectionOf base)

section
variable {file : MappedFile} {p : Pe}

/-- Reading the image, a parser finds the headers of the file. -/
theorem validateAndReadHeaders_eq (hwf : file.WellFormed) (h : ReadsImage file p) :
    validateAndReadHeaders p = some file.parsedHeaders := by
  have hnt := ntHeaders_inHeaders hwf
  have hheaders := h.headers
  have hlfanew : (DosHeader.ofBytes (bytesAt file.view 0 sizeofDosHeader)).lfanew.toNat
      = file.ntOffset := rfl
  have hdosSize : sizeofDosHeader ≤ sizeofNtHeaders := by decide
  -- The image in memory begins with the headers of the file.
  have hdos : p.read p.base sizeofDosHeader = some (bytesAt file.view 0 sizeofDosHeader) := by
    have hread := h.read 0 sizeofDosHeader (by decide) (Or.inl (by omega))
    have hzero : p.base + UInt64.ofNat 0 = p.base := UInt64.add_zero p.base
    rw [hzero, bytesAt_headers (by omega)] at hread
    exact hread
  have hread : p.read (p.base + UInt64.ofNat file.ntOffset) sizeofNtHeaders
      = some (bytesAt file.view file.ntOffset sizeofNtHeaders) := by
    rw [h.read _ _ (by decide) (Or.inl hnt), bytesAt_headers hnt]
  have hsmall : file.ntHeaders.sizeOfHeaders < 2 ^ 32 :=
    field_lt 84 4 (bytesAt file.view file.ntOffset sizeofNtHeaders)
  have hoptional : file.ntHeaders.sizeOfOptionalHeader < 2 ^ 16 :=
    field_lt 20 2 (bytesAt file.view file.ntOffset sizeofNtHeaders)
  -- Neither sum of the section table's offset overflows `size_t`.
  have htable : calculateSectionTableOffset file.ntOffset file.ntHeaders
      = some file.sectionTable := by
    unfold calculateSectionTableOffset sizeMax sizeofSignatureAndFileHeader
    rw [if_neg (by omega), if_neg (by omega)]
    rfl
  have hargs : ¬ (p.base = 0 ∨ p.size < sizeofDosHeader) := by
    rintro (hzero | hlt)
    · exact h.nonzero hzero
    · omega
  have hroom : ¬ (file.ntOffset > p.size ∨ p.size - file.ntOffset < sizeofNtHeaders) := by
    omega
  have hsign : (NtHeaders.ofBytes (bytesAt file.view file.ntOffset sizeofNtHeaders)).signature
      = ntSignature := hwf.signature
  have hcalc : calculateSectionTableOffset file.ntOffset
      (NtHeaders.ofBytes (bytesAt file.view file.ntOffset sizeofNtHeaders))
        = some file.sectionTable := htable
  unfold validateAndReadHeaders
  simp only [if_neg hargs, hdos, Option.bind_eq_bind, Option.bind_some, hwf.dosMagic, hlfanew,
    ne_eq, not_true, if_false, if_neg (Int.not_lt.mpr hwf.lfanew), if_neg hroom, hread, hsign,
    hcalc]
  rfl

/-- A loop whose steps all succeed. -/
theorem mapM_eq_some_map {α β : Type} {f : α → Option β} {g : α → β} {l : List α}
    (h : ∀ a ∈ l, f a = some (g a)) : l.mapM f = some (l.map g) := by
  induction l with
  | nil => rfl
  | cons a l ih =>
    rw [List.mapM_cons, h a List.mem_cons_self, ih fun b hb => h b (List.mem_cons_of_mem a hb)]
    rfl

/-- Reading the image, a parser finds the sections of the file. -/
theorem readSections_eq (hwf : file.WellFormed) (h : ReadsImage file p) :
    readSections p file.parsedHeaders = some (file.sectionList p.base) := by
  have htable := hwf.table
  have hheaders := h.headers
  have hoffset : ¬ file.sectionTable > p.size := by omega
  have hroom : ¬ (file.ntHeaders.numberOfSections > 0 ∧
      file.ntHeaders.numberOfSections * sizeofSectionHeader > p.size - file.sectionTable) := by
    omega
  rw [readSections]
  -- Both bounds checks of the code pass.
  apply (if_neg hoffset).trans
  apply (if_neg hroom).trans
  rw [MappedFile.sectionList, MappedFile.sections, List.map_map]
  apply mapM_eq_some_map
  intro index hindex
  have hin := sectionHeader_inHeaders hwf (List.mem_range.mp hindex)
  show (p.read (p.base + UInt64.ofNat (file.sectionTable + index * sizeofSectionHeader))
    sizeofSectionHeader).bind _ = _
  rw [h.read _ _ (by decide) (Or.inl hin), bytesAt_headers hin]
  rfl

end

/-! ### The CodeView identity -/

/-- The headers show whether there is a debug directory. -/
instance (file : MappedFile) : Decidable file.HasDebug := inferInstanceAs (Decidable (_ ∧ _))

/-- The entry shows whether it names a CodeView record. -/
instance (e : DebugEntry) : Decidable e.NamesCodeview := inferInstanceAs (Decidable (_ ∧ _))

/-- The data of an entry end within the first `size` bytes. -/
def DebugEntry.EndsBy (e : DebugEntry) (size : Nat) : Prop :=
  e.addressOfRawData + e.sizeOfData ≤ size

/-- Two comparisons. -/
instance (e : DebugEntry) (size : Nat) : Decidable (e.EndsBy size) :=
  inferInstanceAs (Decidable (_ ≤ _))

/-- The debug directory ends within the first `size` bytes. -/
def MappedFile.DirectoryEndsBy (file : MappedFile) (size : Nat) : Prop :=
  file.ntHeaders.debugAddress + file.ntHeaders.debugSize ≤ size

/-- One comparison. -/
instance (file : MappedFile) (size : Nat) : Decidable (file.DirectoryEndsBy size) :=
  inferInstanceAs (Decidable (_ ≤ _))

/-- The entry of the debug directory at `rva`. -/
def MappedFile.debugEntry (file : MappedFile) (rva : Nat) : DebugEntry :=
  DebugEntry.ofBytes (bytesAt file.loaded rva sizeofDebugDirectory)

section
variable (filename : List UInt8 → Option (List UInt8)) (file : MappedFile)

/-- What the data of an entry say: an identity, nothing, or an
exception. -/
def verdict (e : DebugEntry) : Option (Option CodeviewInfo) :=
  if e.NamesCodeview then readRsds filename (bytesAt file.loaded e.addressOfRawData e.sizeOfData)
  else some none

/-- The first of the entries whose data say something. -/
def firstVerdict : List DebugEntry → Option (Option CodeviewInfo)
  | [] => some none
  | e :: es =>
    match verdict filename file e with
    | some none => firstVerdict es
    | found => found

/-- The identity that a list of entries gives, if any. -/
def identity (es : List DebugEntry) : Option CodeviewInfo :=
  (firstVerdict filename file es).join

/-- What a parser of `size` bytes finds in the debug directory. -/
def codeviewWithin (size : Nat) : Option (Option CodeviewInfo) :=
  if file.HasDebug ∧ file.DirectoryEndsBy size then
    firstVerdict filename file (file.debugEntries.filter fun e => e.EndsBy size)
  else some none

variable {file} {p : Pe}

/-- An entry counts when its data end within the size of the parser. -/
theorem examineEntry_eq (h : ReadsImage file p) {e : DebugEntry}
    (hbacked : e.NamesCodeview → file.Backed e.addressOfRawData e.sizeOfData) :
    examineEntry filename p e
      = if e.EndsBy p.size then verdict filename file e else some none := by
  by_cases hnames : e.NamesCodeview
  · have hread := h.read e.addressOfRawData e.sizeOfData
      (Nat.lt_of_lt_of_le (by decide) hnames.2.2) (hbacked hnames)
    have hsmall : ¬ e.sizeOfData < sizeofRsdsHeader := Nat.not_lt.mpr hnames.2.2
    rw [examineEntry, if_neg (fun hne => hne hnames.1), if_neg hnames.2.1, if_neg hsmall,
      verdict, if_pos hnames, hread]
    by_cases hends : e.EndsBy p.size
    · rw [if_pos hends, if_neg (by unfold DebugEntry.EndsBy at hends; omega)]
    · rw [if_neg hends, if_pos (by unfold DebugEntry.EndsBy at hends; omega)]
  · rw [verdict, if_neg hnames, ite_self, examineEntry]
    -- One of the three tests of the entry fails.
    by_cases htype : e.type = debugTypeCodeview
    · by_cases haddress : e.addressOfRawData = 0
      · rw [if_neg (fun hne => hne htype), if_pos haddress]
      · have hsmall : e.sizeOfData < sizeofRsdsHeader := by
          rcases Nat.lt_or_ge e.sizeOfData sizeofRsdsHeader with hlt | hge
          · exact hlt
          · exact absurd ⟨htype, haddress, hge⟩ hnames
        rw [if_neg (fun hne => hne htype), if_neg haddress, if_pos hsmall]
    · rw [if_pos htype]

/-- The loop over the debug directory stops at the first entry that
counts. -/
theorem scanEntries_eq (h : ReadsImage file p) {rvas : List Nat}
    (hentries : ∀ rva ∈ rvas, file.Backed rva sizeofDebugDirectory)
    (hdata : ∀ rva ∈ rvas, (file.debugEntry rva).NamesCodeview →
      file.Backed (file.debugEntry rva).addressOfRawData (file.debugEntry rva).sizeOfData) :
    scanEntries filename p rvas
      = firstVerdict filename file
        ((rvas.map file.debugEntry).filter fun e => e.EndsBy p.size) := by
  -- By induction over the entries. The scan goes on past one that names no
  -- CodeView data and ends at the first that does.
  induction rvas with
  | nil => rfl
  | cons rva rvas ih =>
    have hrest := ih (fun r hr => hentries r (List.mem_cons_of_mem rva hr))
      fun r hr => hdata r (List.mem_cons_of_mem rva hr)
    have hread := h.read rva sizeofDebugDirectory (by decide) (hentries rva List.mem_cons_self)
    have hexamine : examineEntry filename p
        (DebugEntry.ofBytes (bytesAt file.loaded rva sizeofDebugDirectory))
          = if (file.debugEntry rva).EndsBy p.size then verdict filename file (file.debugEntry rva)
            else some none :=
      examineEntry_eq filename h (hdata rva List.mem_cons_self)
    unfold scanEntries
    simp only [hread, hexamine, List.map_cons]
    -- An entry whose data is past the mapping is skipped.
    by_cases hends : (file.debugEntry rva).EndsBy p.size
    · simp only [List.filter_cons, hends, decide_true, if_true, firstVerdict]
      cases verdict filename file (file.debugEntry rva) with
      | none => rfl
      | some found =>
        cases found with
        | none => exact hrest
        | some info => rfl
    · simp only [List.filter_cons, hends, decide_false, Bool.false_eq_true, if_false]
      exact hrest

/-- An entry of a backed directory is backed. -/
theorem debugRvas_backed (hdir : file.Backed file.ntHeaders.debugAddress file.ntHeaders.debugSize)
    {rva : Nat} (hrva : rva ∈ file.ntHeaders.debugRvas) :
    file.Backed rva sizeofDebugDirectory := by
  rcases List.mem_map.mp hrva with ⟨index, hindex, rfl⟩
  have hend : index * sizeofDebugDirectory + sizeofDebugDirectory ≤ file.ntHeaders.debugSize := by
    have hlt := List.mem_range.mp hindex
    have hmul := Nat.mul_le_mul_right sizeofDebugDirectory hlt
    have hdiv := Nat.div_mul_le_self file.ntHeaders.debugSize sizeofDebugDirectory
    rw [Nat.succ_mul] at hmul
    omega
  rcases hdir with hdir | ⟨s, hs, hlow, hhigh⟩
  · exact Or.inl (by omega)
  · exact Or.inr ⟨s, hs, by omega, by omega⟩

/-- Reading the image, a parser finds what the debug directory says
within its size. -/
theorem tryExtractCodeviewInfo_eq (hwf : file.WellFormed) (h : ReadsImage file p) :
    tryExtractCodeviewInfo filename p file.ntHeaders = codeviewWithin filename file p.size := by
  unfold tryExtractCodeviewInfo codeviewWithin
  by_cases hdebug : file.HasDebug
  · have habsent : ¬ (file.ntHeaders.debugAddress = 0 ∨
        file.ntHeaders.debugSize < sizeofDebugDirectory) := by
      rintro (hzero | hlt)
      · exact hdebug.1 hzero
      · exact absurd hdebug.2 (Nat.not_le.mpr hlt)
    rw [if_neg habsent]
    -- The code compares with the size that is mapped, which may be less than
    -- the image.
    by_cases hends : file.DirectoryEndsBy p.size
    · have hscan := scanEntries_eq filename h
        (fun rva hrva => debugRvas_backed (hwf.debugDirectory hdebug) hrva)
        fun rva hrva => hwf.debugData hdebug (file.debugEntry rva) (List.mem_map_of_mem hrva)
      rw [if_neg (by unfold MappedFile.DirectoryEndsBy at hends; omega), if_pos ⟨hdebug, hends⟩]
      exact hscan
    · rw [if_pos (by unfold MappedFile.DirectoryEndsBy at hends; omega),
        if_neg (fun hboth => hends hboth.2)]
  · have habsent : file.ntHeaders.debugAddress = 0 ∨
        file.ntHeaders.debugSize < sizeofDebugDirectory := by
      by_contra hnone
      rw [not_or, Nat.not_lt] at hnone
      exact hdebug hnone
    rw [if_pos habsent, if_neg (fun hboth => hdebug hboth.1)]

/-- What a parser that reads the image makes of it. -/
theorem parse_of_readsImage (hwf : file.WellFormed) (h : ReadsImage file p) :
    (parse filename p).sections = file.sectionList p.base ∧
      (parse filename p).codeview = (codeviewWithin filename file p.size).join := by
  unfold parse
  rw [validateAndReadHeaders_eq hwf h]
  simp only [readSections_eq hwf h]
  have hcodeview := tryExtractCodeviewInfo_eq filename hwf h
  rw [show file.parsedHeaders.ntHeaders = file.ntHeaders from rfl, hcodeview]
  cases codeviewWithin filename file p.size with
  | none => exact ⟨rfl, rfl⟩
  | some found => exact ⟨rfl, rfl⟩

/-- Entries that say nothing can be left out. -/
theorem firstVerdict_filter {P : DebugEntry → Prop} [DecidablePred P] {es : List DebugEntry}
    (h : ∀ e ∈ es, e.NamesCodeview → P e) :
    firstVerdict filename file (es.filter fun e => P e) = firstVerdict filename file es := by
  induction es with
  | nil => rfl
  | cons e es ih =>
    have hrest := ih fun f hf => h f (List.mem_cons_of_mem e hf)
    by_cases hkeep : P e
    · simp only [List.filter_cons, hkeep, decide_true, if_true, firstVerdict, hrest]
    · have hsilent : verdict filename file e = some none :=
        if_neg fun hnames => hkeep (h e List.mem_cons_self hnames)
      simp only [List.filter_cons, hkeep, decide_false, Bool.false_eq_true, if_false,
        firstVerdict, hsilent, hrest]

variable (file) in
/-- The size of the file cuts nothing off that the identity depends on:
the debug directory ends within it, and the directory gives the same
identity without the entries whose data do not. A directory that does
not end within it gives no identity. -/
def CodeviewInFile : Prop :=
  file.HasDebug →
    if file.DirectoryEndsBy file.size then
      identity filename file (file.debugEntries.filter fun e => e.EndsBy file.size)
        = identity filename file file.debugEntries
    else identity filename file file.debugEntries = none

/-- In the image nothing is cut off. -/
theorem codeviewWithin_image (hwf : file.WellFormed) :
    codeviewWithin filename file file.ntHeaders.sizeOfImage
      = if file.HasDebug then firstVerdict filename file file.debugEntries else some none := by
  unfold codeviewWithin
  by_cases hdebug : file.HasDebug
  · have hends : file.DirectoryEndsBy file.ntHeaders.sizeOfImage :=
      backed_inImage hwf (hwf.debugDirectory hdebug)
    rw [if_pos ⟨hdebug, hends⟩, if_pos hdebug, firstVerdict_filter]
    intro e he hnames
    exact backed_inImage hwf (hwf.debugData hdebug e he hnames)
  · rw [if_neg hdebug, if_neg fun hboth => hdebug hboth.1]

/-- The sizes find the same identity exactly when the size of the file
cuts none off. -/
theorem codeviewWithin_eq_iff (hwf : file.WellFormed) :
    (codeviewWithin filename file file.size).join
        = (codeviewWithin filename file file.ntHeaders.sizeOfImage).join ↔
      CodeviewInFile filename file := by
  rw [codeviewWithin_image filename hwf, codeviewWithin, CodeviewInFile]
  by_cases hdebug : file.HasDebug
  · rw [if_pos hdebug]
    by_cases hends : file.DirectoryEndsBy file.size
    · rw [if_pos ⟨hdebug, hends⟩, if_pos hends]
      exact ⟨fun h _ => h, fun h => h hdebug⟩
    · rw [if_neg fun hboth => hends hboth.2, if_neg hends]
      exact ⟨fun h _ => h.symm, fun h => (h hdebug).symm⟩
  · rw [if_neg hdebug, if_neg fun hboth => hdebug hboth.1]
    exact ⟨fun _ hpresent => absurd hpresent hdebug, fun _ => rfl⟩

end

/-- The sections are a list, so the one that holds the range can be
searched. -/
instance (file : MappedFile) (rva n : Nat) : Decidable (file.Backed rva n) :=
  inferInstanceAs (Decidable (_ ∨ _))

/-- Two comparisons. -/
instance (s t : SectionHeader) : Decidable (s.Apart t) := inferInstanceAs (Decidable (_ ∨ _))

/-- The name behind the last separator. -/
def lastName (path : List UInt8) : Option (List UInt8) :=
  some (path.reverse.takeWhile fun c => c ≠ 0x5C ∧ c ≠ 0x2F ∧ c ≠ 0x3A).reverse

/-- The first 572 bytes of a file of one section, at `va` in an image of
`sizeOfImage` bytes. The section starts with a debug directory of one
entry and the CodeView data of this entry. -/
def sampleBytes (va sizeOfImage : Nat) : List UInt8 :=
  -- The DOS header, with `e_lfanew` behind it.
  leBytes 2 dosSignature ++ List.replicate 58 0 ++ leBytes 4 64 ++
  -- The signature, the file header and the optional header.
  leBytes 4 ntSignature ++ leBytes 2 0x8664 ++ leBytes 2 1 ++ List.replicate 12 0 ++
  leBytes 2 240 ++ List.replicate 58 0 ++ leBytes 4 sizeOfImage ++ leBytes 4 512 ++
  List.replicate 96 0 ++ leBytes 4 va ++ leBytes 4 28 ++ List.replicate 72 0 ++
  -- The section table.
  [0x2E, 0x72, 0x64, 0x61, 0x74, 0x61, 0, 0] ++ leBytes 4 60 ++ leBytes 4 va ++ leBytes 4 512 ++
  leBytes 4 512 ++ List.replicate 16 0 ++ List.replicate 144 0 ++
  -- The entry and its data.
  List.replicate 12 0 ++ leBytes 4 debugTypeCodeview ++ leBytes 4 32 ++ leBytes 4 (va + 28) ++
  leBytes 4 540 ++ leBytes 4 rsdsSignature ++ List.replicate 16 7 ++ leBytes 4 1 ++
  [0x6B, 0x2E, 0x70, 0x64, 0x62, 0, 0, 0]

/-- The file of `sampleBytes`, 1024 bytes long. -/
def sampleFile (va sizeOfImage : Nat) : MappedFile where
  address := 0x10000
  size := 1024
  view i := (sampleBytes va sizeOfImage).getD i 0

/-- The sample is well-formed with the section right behind the headers. -/
theorem sampleFile_packed : (sampleFile 0x200 0x400).WellFormed := by
  constructor <;> decide +kernel

/-- The sample is well-formed with the section on the second page of the
image. -/
theorem sampleFile_paged : (sampleFile 0x1000 0x2000).WellFormed := by
  constructor <;> decide +kernel

end Revhv.PeParser
