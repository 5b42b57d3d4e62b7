import Revhv.Lib.Query
import Revhv.Um.Pe

/-!
# `Revhv.Um.PeAccess`: what the PE parser reads of a mapped file

The functions of `Revhv.Um.Pe` once more, with their reads as questions, and
the bytes of the mapped view that `from_file` and its callback access. An
access is an offset, as a `size_t`, and a number of bytes.
-/

set_option autoImplicit false

namespace Revhv.PeParser

open Revhv.Lib

/-! ### The parser as a program -/

/-- A program that reads: a question is an address and a number of
bytes. -/
abbrev Reads (α : Type) : Type := Query (UInt64 × Nat) (Option (List UInt8)) α

/-- `read_typed`: a read that throws when it fails. -/
def readTyped (source : UInt64) (size : Nat) : Reads (List UInt8) :=
  .ask (source, size) fun
    | none => .throw
    | some bytes => .done bytes

/-- `validate_and_read_headers`. -/
def validateReads (base : UInt64) (size : Nat) : Reads ParsedHeaders :=
  if base = 0 ∨ size < sizeofDosHeader then .throw
  else (readTyped base sizeofDosHeader).bind fun dosBytes =>
    let dos := DosHeader.ofBytes dosBytes
    if dos.magic ≠ dosSignature then .throw
    else if dos.lfanew < 0 then .throw
    else
      let ntOffset := dos.lfanew.toNat
      if ntOffset > size ∨ size - ntOffset < sizeofNtHeaders then .throw
      else (readTyped (base + UInt64.ofNat ntOffset) sizeofNtHeaders).bind fun ntBytes =>
        let nt := NtHeaders.ofBytes ntBytes
        if nt.signature ≠ ntSignature then .throw
        else
          match calculateSectionTableOffset ntOffset nt with
          | none => .throw
          | some offset => .done ⟨nt, offset⟩

/-- `read_sections`. -/
def sectionReads (base : UInt64) (size : Nat) (headers : ParsedHeaders) : Reads (List Section) :=
  if headers.sectionTableOffset > size then .throw
  else if headers.ntHeaders.numberOfSections > 0 ∧
      headers.ntHeaders.numberOfSections * sizeofSectionHeader
        > size - headers.sectionTableOffset then .throw
  else .each (fun index =>
    (readTyped (base + UInt64.ofNat (headers.sectionTableOffset + index * sizeofSectionHeader))
      sizeofSectionHeader).bind fun bytes =>
        .done (sectionOf base (SectionHeader.ofBytes bytes)))
    (List.range headers.ntHeaders.numberOfSections)

section
variable (filename : List UInt8 → Option (List UInt8))

/-- One round of the loop over the debug directory. -/
def entryReads (base : UInt64) (size : Nat) (e : DebugEntry) : Reads (Option CodeviewInfo) :=
  if e.type ≠ debugTypeCodeview then .done none
  else if e.addressOfRawData = 0 then .done none
  else if e.sizeOfData < sizeofRsdsHeader then .done none
  else if e.addressOfRawData > size ∨ e.sizeOfData > size - e.addressOfRawData then .done none
  else .ask (base + UInt64.ofNat e.addressOfRawData, e.sizeOfData) fun
    | none => .done none
    | some data =>
      match readRsds filename data with
      | none => .throw
      | some found => .done found

/-- The loop of `try_extract_codeview_info`. -/
def scanReads (base : UInt64) (size : Nat) : List Nat → Reads (Option CodeviewInfo)
  | [] => .done none
  | rva :: rvas =>
    (readTyped (base + UInt64.ofNat rva) sizeofDebugDirectory).bind fun bytes =>
      (entryReads filename base size (DebugEntry.ofBytes bytes)).bind fun
        | none => scanReads base size rvas
        | some info => .done (some info)

/-- `try_extract_codeview_info`. -/
def codeviewReads (base : UInt64) (size : Nat) (nt : NtHeaders) : Reads (Option CodeviewInfo) :=
  if nt.debugAddress = 0 ∨ nt.debugSize < sizeofDebugDirectory then .done none
  else if nt.debugAddress > size ∨ nt.debugSize > size - nt.debugAddress then .done none
  else scanReads filename base size
    ((List.range (nt.debugSize / sizeofDebugDirectory)).map fun index =>
      nt.debugAddress + index * sizeofDebugDirectory)

/-- `pe::parse`. -/
def parseReads (base : UInt64) (size : Nat) : Reads ParseResult :=
  (validateReads base size).attempt.bind fun
    | none => .done ⟨false, [], none⟩
    | some headers => (sectionReads base size headers).attempt.bind fun
      | none => .done ⟨false, [], none⟩
      | some sections => (codeviewReads filename base size headers.ntHeaders).attempt.bind fun
        | none => .done ⟨false, sections, none⟩
        | some codeview => .done ⟨true, sections, codeview⟩

end

/-! ### Accesses to the view -/

/-- The access that `local_read` makes, if any. -/
def localAccess (file : MappedFile) (sections : List SectionHeader) (headerSize : Nat)
    (virtualBase source : UInt64) (size : Nat) : Option (Nat × Nat) :=
  if source = 0 ∨ size = 0 then none
  else
    let rva := (source - virtualBase).toNat
    if rva < headerSize then
      if add64 rva size > file.size then none else some (rva, size)
    else
      match sections.find? fun s => s.covers rva with
      | some s =>
        let offset := add64 s.pointerToRawData (rva - s.virtualAddress)
        if add64 offset size > file.size then none else some (offset, size)
      | none => if add64 rva size ≤ file.size then some (rva, size) else none

/-- The accesses to the section table in the quick parse of `from_file`. -/
def tableAccesses (file : MappedFile) (table count : Nat) : List (Nat × Nat) :=
  ((List.range count).map fun i => add64 table (i * sizeofSectionHeader)).takeWhile
    (fun off => add64 off sizeofSectionHeader ≤ file.size) |>.map
    fun off => (off, sizeofSectionHeader)

/-- The accesses of the quick parse of `from_file`, up to the first that
is not in the view: with what it reads there the rest is undefined. -/
def quickAccesses (file : MappedFile) : List (Nat × Nat) :=
  if file.size < sizeofDosHeader then []
  else (0, sizeofDosHeader) ::
    let dos := DosHeader.ofBytes (bytesAt file.view 0 sizeofDosHeader)
    if dos.magic ≠ dosSignature then []
    else
      let ntOffset := (dos.lfanew % 2 ^ 64).toNat
      if add64 ntOffset sizeofNtHeaders > file.size then []
      else (ntOffset, sizeofNtHeaders) ::
        if ntOffset + sizeofNtHeaders > file.size then []
        else
          let nt := NtHeaders.ofBytes (bytesAt file.view ntOffset sizeofNtHeaders)
          if nt.signature ≠ ntSignature then []
          else tableAccesses file
            (add64 ntOffset (sizeofSignatureAndFileHeader + nt.sizeOfOptionalHeader))
            nt.numberOfSections

/-- The accesses of a parse of the object that `from_file` returns. -/
def parseAccesses (filename : List UInt8 → Option (List UInt8)) (file : MappedFile)
    (imageBase : UInt64) : List (Nat × Nat) :=
  match quickParse file, fromFile file imageBase with
  | some quick, some p =>
    ((parseReads filename p.base p.size).asked fun c => p.read c.1 c.2).filterMap fun c =>
      localAccess file quick.1 quick.2 p.base c.1 c.2
  | _, _ => []

end Revhv.PeParser
