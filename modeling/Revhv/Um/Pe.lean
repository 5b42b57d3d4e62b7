import Mathlib.Algebra.Group.Int.Defs
import Mathlib.Algebra.GroupWithZero.Nat
import Mathlib.Data.List.Basic
import Revhv.Lib.RecordLayout

/-!
# `Revhv.Um.Pe`: the PE parser on a file and on a loaded image

`pe::from_file`, `pe::parse` and what they call (`revhv-um/pe.cpp`), and
the image that the loader builds from a file.

A parser reads through its `read` callback at addresses from `base` on, and
compares offsets with `size`. `pe::from_file` hands it a callback that
translates RVAs to file offsets and the size of the file; on a live kernel
it reads the loaded image, and `size` is the size of the image.

Numbers read from a header are `Nat`s that fit the width of their field.
Sums that the source computes in 32 or 64 bits are reduced where they can
wrap. Symbols are loaded from the CodeView identity alone and are left out.
-/

set_option autoImplicit false

namespace Revhv.PeParser

open Revhv.Lib.RecordLayout

/-! ### Headers -/

/-- `n` bytes of a view. -/
def bytesAt (view : Nat → UInt8) (off n : Nat) : List UInt8 :=
  (List.range n).map fun i => view (off + i)

/-- The little-endian field of `w` bytes at `off`. -/
def field (off w : Nat) (bytes : List UInt8) : Nat := leValue w (bytes.drop off)

/-- `IMAGE_DOS_HEADER`. -/
structure DosHeader where
  magic : Nat
  lfanew : Int

/-- `sizeof(IMAGE_DOS_HEADER)`. -/
def sizeofDosHeader : Nat := 64

/-- `IMAGE_DOS_SIGNATURE`, "MZ". -/
def dosSignature : Nat := 0x5A4D

/-- A DOS header from its bytes. -/
def DosHeader.ofBytes (bytes : List UInt8) : DosHeader where
  magic := field 0 2 bytes
  lfanew := (BitVec.ofNat 32 (field 60 4 bytes)).toInt

/-- `IMAGE_NT_HEADERS`, the 64-bit ones, with the debug entry of the
data directory. -/
structure NtHeaders where
  signature : Nat
  numberOfSections : Nat
  sizeOfOptionalHeader : Nat
  sizeOfImage : Nat
  sizeOfHeaders : Nat
  debugAddress : Nat
  debugSize : Nat

/-- `sizeof(IMAGE_NT_HEADERS)`. -/
def sizeofNtHeaders : Nat := 264

/-- `sizeof(uint32_t) + sizeof(IMAGE_FILE_HEADER)`. -/
def sizeofSignatureAndFileHeader : Nat := 24

/-- `IMAGE_NT_SIGNATURE`, "PE". -/
def ntSignature : Nat := 0x4550

/-- NT headers from their bytes. -/
def NtHeaders.ofBytes (bytes : List UInt8) : NtHeaders where
  signature := field 0 4 bytes
  numberOfSections := field 6 2 bytes
  sizeOfOptionalHeader := field 20 2 bytes
  sizeOfImage := field 80 4 bytes
  sizeOfHeaders := field 84 4 bytes
  debugAddress := field 184 4 bytes
  debugSize := field 188 4 bytes

/-- `IMAGE_SECTION_HEADER`. -/
structure SectionHeader where
  name : List UInt8
  virtualSize : Nat
  virtualAddress : Nat
  sizeOfRawData : Nat
  pointerToRawData : Nat
  deriving DecidableEq

/-- `sizeof(IMAGE_SECTION_HEADER)`. -/
def sizeofSectionHeader : Nat := 40

/-- A section header from its bytes. The name is eight characters, or up
to a NUL. -/
def SectionHeader.ofBytes (bytes : List UInt8) : SectionHeader where
  name := (bytes.take 8).takeWhile (· ≠ 0)
  virtualSize := field 8 4 bytes
  virtualAddress := field 12 4 bytes
  sizeOfRawData := field 16 4 bytes
  pointerToRawData := field 20 4 bytes

/-- `IMAGE_DEBUG_DIRECTORY`. -/
structure DebugEntry where
  type : Nat
  sizeOfData : Nat
  addressOfRawData : Nat

/-- `sizeof(IMAGE_DEBUG_DIRECTORY)`. -/
def sizeofDebugDirectory : Nat := 28

/-- `IMAGE_DEBUG_TYPE_CODEVIEW`. -/
def debugTypeCodeview : Nat := 2

/-- A debug directory entry from its bytes. -/
def DebugEntry.ofBytes (bytes : List UInt8) : DebugEntry where
  type := field 12 4 bytes
  sizeOfData := field 16 4 bytes
  addressOfRawData := field 20 4 bytes

/-! ### The parser -/

/-- `pe::read_fn`: the bytes read, `none` for false. -/
abbrev ReadFn : Type := UInt64 → Nat → Option (List UInt8)

/-- The members of a `pe` that `parse` uses. -/
structure Pe where
  base : UInt64
  size : Nat
  read : ReadFn

/-- `SIZE_MAX`. -/
def sizeMax : Nat := 2 ^ 64 - 1

/-- `parsed_headers`. -/
structure ParsedHeaders where
  ntHeaders : NtHeaders
  sectionTableOffset : Nat

/-- `calculate_section_table_offset`. -/
def calculateSectionTableOffset (ntOffset : Nat) (nt : NtHeaders) : Option Nat :=
  if ntOffset > sizeMax - sizeofSignatureAndFileHeader then none
  else if ntOffset + sizeofSignatureAndFileHeader > sizeMax - nt.sizeOfOptionalHeader then none
  else some (ntOffset + sizeofSignatureAndFileHeader + nt.sizeOfOptionalHeader)

/-- `validate_and_read_headers`, `none` for false and for an exception. -/
def validateAndReadHeaders (p : Pe) : Option ParsedHeaders :=
  if p.base = 0 ∨ p.size < sizeofDosHeader then none
  else do
    let dosBytes ← p.read p.base sizeofDosHeader
    let dos := DosHeader.ofBytes dosBytes
    if dos.magic ≠ dosSignature then none
    -- The offset is a signed field.
    else if dos.lfanew < 0 then none
    else
      let ntOffset := dos.lfanew.toNat
      if ntOffset > p.size ∨ p.size - ntOffset < sizeofNtHeaders then none
      else do
        let ntBytes ← p.read (p.base + UInt64.ofNat ntOffset) sizeofNtHeaders
        let nt := NtHeaders.ofBytes ntBytes
        if nt.signature ≠ ntSignature then none
        else do
          let offset ← calculateSectionTableOffset ntOffset nt
          some ⟨nt, offset⟩

/-- `pe::section`. -/
structure Section where
  name : List UInt8
  va : UInt64
  rva : Nat
  size : Nat
  deriving DecidableEq

/-- The section that `read_sections` makes of a section header. -/
def sectionOf (base : UInt64) (header : SectionHeader) : Section where
  name := header.name
  va := base + UInt64.ofNat header.virtualAddress
  rva := header.virtualAddress
  size := if header.virtualSize ≠ 0 then header.virtualSize else header.sizeOfRawData

/-- `read_sections`, `none` for false and for an exception. -/
def readSections (p : Pe) (headers : ParsedHeaders) : Option (List Section) :=
  -- The number of sections is 16 bits wide, so the size of the table does not wrap.
  if headers.sectionTableOffset > p.size then none
  else if headers.ntHeaders.numberOfSections > 0 ∧
      headers.ntHeaders.numberOfSections * sizeofSectionHeader
        > p.size - headers.sectionTableOffset then none
  else (List.range headers.ntHeaders.numberOfSections).mapM fun index => do
    let bytes ← p.read (p.base +
      UInt64.ofNat (headers.sectionTableOffset + index * sizeofSectionHeader)) sizeofSectionHeader
    some (sectionOf p.base (SectionHeader.ofBytes bytes))

/-- `codeview_info`. -/
structure CodeviewInfo where
  guid : List UInt8
  age : Nat
  pdbPath : List UInt8
  pdbFileName : List UInt8
  deriving DecidableEq

/-- `sizeof(codeview_rsds_header)`. -/
def sizeofRsdsHeader : Nat := 24

/-- "RSDS". -/
def rsdsSignature : Nat := 0x53445352

section
-- `std::filesystem::path::filename` of a path; `none` where the conversion throws.
variable (filename : List UInt8 → Option (List UInt8))

/-- What the bytes of a CodeView record say: `some none` where the loop
goes on to the next entry, `none` where an exception ends the parse. -/
def readRsds (data : List UInt8) : Option (Option CodeviewInfo) :=
  if field 0 4 data ≠ rsdsSignature then some none
  else
    let path := (data.drop sizeofRsdsHeader).takeWhile (· ≠ 0)
    if path.length = 0 ∨ path.length = data.length - sizeofRsdsHeader then some none
    else
      match filename path with
      | none => none
      | some [] => some none
      | some name => some (some ⟨(data.drop 4).take 16, field 20 4 data, path, name⟩)

/-- One round of the loop over the debug directory, on the entry it has
read. -/
def examineEntry (p : Pe) (e : DebugEntry) : Option (Option CodeviewInfo) :=
  if e.type ≠ debugTypeCodeview then some none
  else if e.addressOfRawData = 0 then some none
  else if e.sizeOfData < sizeofRsdsHeader then some none
  else if e.addressOfRawData > p.size ∨ e.sizeOfData > p.size - e.addressOfRawData then some none
  else
    match p.read (p.base + UInt64.ofNat e.addressOfRawData) e.sizeOfData with
    | none => some none
    | some data => readRsds filename data

/-- The loop of `try_extract_codeview_info` over the RVAs of the
entries. -/
def scanEntries (p : Pe) : List Nat → Option (Option CodeviewInfo)
  | [] => some none
  | rva :: rvas =>
    match p.read (p.base + UInt64.ofNat rva) sizeofDebugDirectory with
    | none => none
    | some bytes =>
      match examineEntry filename p (DebugEntry.ofBytes bytes) with
      | some none => scanEntries p rvas
      | found => found

/-- `try_extract_codeview_info`: `some none` for false, `none` for an
exception. -/
def tryExtractCodeviewInfo (p : Pe) (nt : NtHeaders) : Option (Option CodeviewInfo) :=
  if nt.debugAddress = 0 ∨ nt.debugSize < sizeofDebugDirectory then some none
  else if nt.debugAddress > p.size ∨ nt.debugSize > p.size - nt.debugAddress then some none
  else scanEntries filename p ((List.range (nt.debugSize / sizeofDebugDirectory)).map fun index =>
    nt.debugAddress + index * sizeofDebugDirectory)

/-- What `parse` leaves behind: its result, the sections, and the
CodeView identity from which it loads the symbols. -/
structure ParseResult where
  valid : Bool
  sections : List Section
  codeview : Option CodeviewInfo
  deriving DecidableEq

/-- `pe::parse`. -/
def parse (p : Pe) : ParseResult :=
  match validateAndReadHeaders p with
  | none => ⟨false, [], none⟩
  | some headers =>
    match readSections p headers with
    | none => ⟨false, [], none⟩
    | some sections =>
      match tryExtractCodeviewInfo filename p headers.ntHeaders with
      | none => ⟨false, sections, none⟩
      | some codeview => ⟨true, sections, codeview⟩

end

/-! ### From a file -/

/-- A mapped file: the address of its view, its size and its bytes. -/
structure MappedFile where
  address : UInt64
  size : Nat
  view : Nat → UInt8

/-- A sum in a `size_t`. -/
def add64 (a b : Nat) : Nat := (a + b) % 2 ^ 64

/-- A sum in a `uint32_t`. -/
def add32 (a b : Nat) : Nat := (a + b) % 2 ^ 32

/-- The section headers that `from_file` finds, up to the first that is
not in the file. -/
def quickSections (file : MappedFile) (table count : Nat) : List SectionHeader :=
  ((List.range count).map fun i => table + i * sizeofSectionHeader).takeWhile
    (fun off => off + sizeofSectionHeader ≤ file.size) |>.map
    fun off => SectionHeader.ofBytes (bytesAt file.view off sizeofSectionHeader)

/-- The quick parse of `from_file`: the sections and the size of the
headers. `none` stands for an access outside of the view, which a
negative `e_lfanew` leads to. -/
def quickParse (file : MappedFile) : Option (List SectionHeader × Nat) :=
  if file.size < sizeofDosHeader then some ([], 0)
  else
    let dos := DosHeader.ofBytes (bytesAt file.view 0 sizeofDosHeader)
    if dos.magic ≠ dosSignature then some ([], 0)
    else
      -- Here the signed offset is converted to `size_t`, and a negative one is
      -- huge.
      let ntOffset := (dos.lfanew % 2 ^ 64).toNat
      if add64 ntOffset sizeofNtHeaders > file.size then some ([], 0)
      -- The sum wrapped: the reads would leave the view.
      else if ntOffset + sizeofNtHeaders > file.size then none
      else
        let nt := NtHeaders.ofBytes (bytesAt file.view ntOffset sizeofNtHeaders)
        if nt.signature ≠ ntSignature then some ([], 0)
        else some (quickSections file
          (ntOffset + sizeofSignatureAndFileHeader + nt.sizeOfOptionalHeader)
          nt.numberOfSections, nt.sizeOfHeaders)

/-- The section test of `local_read`. -/
def SectionHeader.covers (s : SectionHeader) (rva : Nat) : Prop :=
  s.virtualAddress ≤ rva ∧ rva < add32 s.virtualAddress (max s.virtualSize s.sizeOfRawData)

/-- Two comparisons. -/
instance (s : SectionHeader) (rva : Nat) : Decidable (s.covers rva) :=
  inferInstanceAs (Decidable (_ ∧ _))

/-- `local_read`, the callback of `from_file`. -/
def localRead (file : MappedFile) (sections : List SectionHeader) (headerSize : Nat)
    (virtualBase : UInt64) : ReadFn := fun source size =>
  if source = 0 ∨ size = 0 then none
  else
    let rva := (source - virtualBase).toNat
    if rva < headerSize then
      -- The sums are of 64 bits and may wrap.
      if add64 rva size > file.size then none else some (bytesAt file.view rva size)
    else
      match sections.find? fun s => s.covers rva with
      | some s =>
        let offset := add64 s.pointerToRawData (rva - s.virtualAddress)
        if add64 offset size > file.size then none else some (bytesAt file.view offset size)
      -- An address outside every section is taken as a file offset.
      | none =>
        if add64 rva size ≤ file.size then some (bytesAt file.view rva size) else none

/-- `pe::from_file`, on a file that could be mapped. -/
def fromFile (file : MappedFile) (imageBase : UInt64) : Option Pe :=
  (quickParse file).map fun quick =>
    let base := if imageBase ≠ 0 then imageBase else file.address
    ⟨base, file.size, localRead file quick.1 quick.2 base⟩

/-! ### The loaded image -/

/-- Where the NT headers of a file are. -/
def MappedFile.ntOffset (file : MappedFile) : Nat :=
  (DosHeader.ofBytes (bytesAt file.view 0 sizeofDosHeader)).lfanew.toNat

/-- The NT headers of a file. -/
def MappedFile.ntHeaders (file : MappedFile) : NtHeaders :=
  NtHeaders.ofBytes (bytesAt file.view file.ntOffset sizeofNtHeaders)

/-- Where the section table of a file is. -/
def MappedFile.sectionTable (file : MappedFile) : Nat :=
  file.ntOffset + sizeofSignatureAndFileHeader + file.ntHeaders.sizeOfOptionalHeader

/-- The section headers of a file. -/
def MappedFile.sections (file : MappedFile) : List SectionHeader :=
  (List.range file.ntHeaders.numberOfSections).map fun i =>
    SectionHeader.ofBytes
      (bytesAt file.view (file.sectionTable + i * sizeofSectionHeader) sizeofSectionHeader)

/-- The raw data of a section have a byte for `rva`. -/
def SectionHeader.holds (s : SectionHeader) (rva : Nat) : Prop :=
  s.virtualAddress ≤ rva ∧ rva < s.virtualAddress + s.sizeOfRawData

/-- Two comparisons. -/
instance (s : SectionHeader) (rva : Nat) : Decidable (s.holds rva) :=
  inferInstanceAs (Decidable (_ ∧ _))

/-- The image that the loader builds: the headers and the raw data of
the sections at their RVAs, zeros everywhere else. -/
def MappedFile.loaded (file : MappedFile) (rva : Nat) : UInt8 :=
  if rva < file.ntHeaders.sizeOfHeaders then file.view rva
  else
    match file.sections.find? fun s => s.holds rva with
    | some s => file.view (s.pointerToRawData + (rva - s.virtualAddress))
    | none => 0

/-- A parser of the image loaded at `base`, with the size of the image.
A read succeeds when all of it is in the image. -/
def livePe (file : MappedFile) (base : UInt64) : Pe where
  base := base
  size := file.ntHeaders.sizeOfImage
  read source size :=
    if source = 0 ∨ size = 0 then none
    else if (source - base).toNat + size ≤ file.ntHeaders.sizeOfImage then
      some (bytesAt file.loaded (source - base).toNat size)
    else none

end Revhv.PeParser
