import Revhv.Proofs.GuestMemory
import Revhv.Um.Vmemory

/-!
# `Revhv.Proofs.ReadVmemory`: `read_vmemory` is one read byte by byte

* `ofBytes_bytes`: the request arrives as it was filled in.
* `handleVmemRead_spec`: one hypercall, for a request that lies in
  resident memory.
* `readVmemoryLoop_spec`: the loop over the chunks, by induction on the
  rounds. The memory differs from the initial one in the buffer and in
  the request only, so all walks stay as they are.
* `readVmemory_spec`: the whole call.
-/

set_option autoImplicit false

namespace Revhv.Hypercall

open Revhv.Lib Revhv.Memory Revhv.GuestMemory

/-! ### The request -/

/-- A number from its bytes, the lowest first. -/
theorem foldr_bytes {buffer : Bytes} (n : Nat) {a v : Nat}
    (h : ∀ k < n, buffer (a + k) = UInt8.ofNat (v / 256 ^ k)) :
    (List.range n).foldr (fun i acc => (buffer (a + i)).toNat + 256 * acc) 0 = v % 256 ^ n := by
  -- By induction over the width, from the low byte on.
  induction n generalizing a v with
  | zero => exact (Nat.mod_one v).symm
  | succ n ih =>
    have hfirst : (buffer (a + 0)).toNat = v % 256 := by
      rw [h 0 (by omega), Nat.pow_zero, Nat.div_one]
      rfl
    have hrest := @ih (a + 1) (v / 256) fun k hk => by
      rw [Nat.add_assoc, Nat.add_comm 1 k, h (k + 1) (by omega), Nat.pow_succ',
        Nat.div_div_eq_div_mul]
    have hshift : (fun i acc => (buffer (a + (i + 1))).toNat + 256 * acc) =
        fun i acc => (buffer (a + 1 + i)).toNat + 256 * acc := by
      funext i acc
      rw [Nat.add_assoc, Nat.add_comm 1 i]
    rw [List.range_succ_eq_map, List.foldr_cons, List.foldr_map, hfirst]
    show v % 256 + 256 * List.foldr (fun i acc => (buffer (a + (i + 1))).toNat + 256 * acc) 0 _ = _
    rw [hshift, hrest, Nat.pow_succ', Nat.mod_mul]

/-- A 64-bit number from its 8 bytes. -/
theorem uint64At_of_bytes {buffer : Bytes} {a : Nat} (v : UInt64)
    (h : ∀ k < 8, buffer (a + k) = UInt8.ofNat (v.toNat / 256 ^ k)) :
    uint64At buffer a = v.toNat :=
  (foldr_bytes 8 h).trans (Nat.mod_eq_of_lt v.toNat_lt)

namespace VmemRequest

/-- Byte `8 * j + k` of a request is byte `k` of its field `j`. -/
theorem bytes_field (request : VmemRequest) (j : Nat) {k : Nat} (hk : k < 8) :
    request.bytes (8 * j + k) = UInt8.ofNat ((request.field j).toNat / 256 ^ k) := by
  have hdiv : (8 * j + k) / 8 = j := by omega
  have hmod : (8 * j + k) % 8 = k := by omega
  rw [bytes, hdiv, hmod]

/-- The request arrives as it was filled in. -/
theorem ofBytes_bytes {request : VmemRequest} {buffer : Bytes}
    (h : ∀ i < byteSize, buffer i = request.bytes i) : ofBytes buffer = request := by
  have hfield : ∀ j < 4, uint64At buffer (8 * j) = (request.field j).toNat := by
    intro j hj
    refine uint64At_of_bytes (request.field j) fun k hk => ?_
    rw [h (8 * j + k) (by show 8 * j + k < 32; omega), request.bytes_field j hk]
  have h0 : uint64At buffer 0 = request.guestBuffer.toNat := hfield 0 (by decide)
  have h1 : uint64At buffer 8 = request.targetVa.toNat := hfield 1 (by decide)
  have h2 : uint64At buffer 16 = request.size.toNat := hfield 2 (by decide)
  have h3 : uint64At buffer 24 = request.targetCr3.toNat := hfield 3 (by decide)
  rw [ofBytes, h0, h1, h2, h3, UInt64.ofNat_toNat, UInt64.ofNat_toNat, UInt64.ofNat_toNat,
    UInt64.ofNat_toNat]

end VmemRequest

/-! ### One hypercall -/

/-- When the request is in resident memory and the buffer is resident,
the hypercall returns the longest mapped prefix of the range and stores
its bytes in the buffer. -/
theorem handleVmemRead_spec {systemCr3 guestCr3 rdx : Nat} {mem : Bytes} {request : VmemRequest}
    (hrdx : rdx ≠ 0) (hrequestFits : rdx + VmemRequest.byteSize ≤ 2 ^ 64)
    (hrequestWindow : ∀ i < VmemRequest.byteSize, InWindow mem guestCr3 (rdx + i))
    (hrequest : HoldsBytes mem guestCr3 rdx VmemRequest.byteSize request.bytes)
    (hsize : request.size.toNat ≤ maxVmemChunkSize) (hpos : 0 < request.size.toNat)
    (htarget : request.targetVa.toNat ≠ 0)
    (htargetFits : request.targetVa.toNat + request.size.toNat ≤ 2 ^ 64)
    (htargetWindow : ∀ i < request.size.toNat,
      InWindow mem (request.cr3 systemCr3) (request.targetVa.toNat + i))
    (hout : request.guestBuffer.toNat ≠ 0)
    (houtFits : request.guestBuffer.toNat + request.size.toNat ≤ 2 ^ 64)
    (houtWindow : ∀ i < request.size.toNat, InWindow mem guestCr3 (request.guestBuffer.toNat + i))
    (hresident : ∀ i < request.size.toNat,
      (translateIn mem guestCr3 (request.guestBuffer.toNat + i)).isSome)
    (hclear : ∀ i < request.size.toNat,
      ClearOf (Footprint mem guestCr3 request.guestBuffer.toNat request.size.toNat) mem
        (pageDirectory guestCr3) (request.guestBuffer.toNat + i)) :
    let n := mappedLength mem (request.cr3 systemCr3) request.targetVa.toNat request.size.toNat
    ∃ buffer, HoldsBytes mem (request.cr3 systemCr3) request.targetVa.toNat n buffer ∧
      handleVmemRead systemCr3 guestCr3 mem rdx =
        some (storeBytes (translateIn mem guestCr3) request.guestBuffer.toNat buffer mem n, n) := by
  intro n
  have hn : n ≤ request.size.toNat := prefixLength_le _ _
  -- The request is read in full, and it is the one that was filled in.
  have hwhole : mappedLength mem guestCr3 rdx VmemRequest.byteSize = VmemRequest.byteSize := by
    refine prefixLength_eq (Nat.le_refl _) (fun i hi => ?_) (by omega)
    rcases hrequest i hi with ⟨pa, hpa, -⟩
    rw [hpa]
    rfl
  rcases readGuestVirtual_spec zeroBuffer hrdx hrequestFits hrequestWindow with
    ⟨requestBuffer, hreadRequest, hholdsRequest⟩
  rw [hwhole] at hreadRequest hholdsRequest
  have hsame : VmemRequest.ofBytes requestBuffer = request := by
    refine VmemRequest.ofBytes_bytes fun i hi => ?_
    rcases hholdsRequest i hi with ⟨pa, hpa, hbyte⟩
    rcases hrequest i hi with ⟨pa', hpa', hbyte'⟩
    obtain rfl : pa = pa' := Option.some.inj (hpa.symm.trans hpa')
    rw [hbyte, hbyte']
  have hmin : min request.size.toNat maxVmemChunkSize = request.size.toNat := Nat.min_eq_left hsize
  rcases readGuestVirtual_spec zeroBuffer htarget htargetFits htargetWindow with
    ⟨buffer, hread, hholds⟩
  have hread' : readGuestVirtual mem (request.cr3 systemCr3) request.targetVa.toNat zeroBuffer
      request.size.toNat = some (n, buffer) := hread
  refine ⟨buffer, hholds, ?_⟩
  have hne : request.size.toNat ≠ 0 := by omega
  simp only [handleVmemRead, hreadRequest, Option.bind_eq_bind, Option.bind_some, ne_eq,
    not_true_eq_false, if_false, hsame, hmin, if_neg hne, hread']
  by_cases hzero : n = 0
  · rw [hzero]
    rfl
  · -- The buffer is resident, so all of it is written.
    have hall : mappedLength mem guestCr3 request.guestBuffer.toNat n = n :=
      prefixLength_eq (Nat.le_refl _) (fun i hi => hresident i (by omega)) (by omega)
    have hwrite := @writeGuestVirtual_spec mem guestCr3 _ n buffer hout (by omega)
      (fun i hi => houtWindow i (by omega)) fun i hi _ => by
        rw [hall]
        refine (hclear i (by omega)).mono fun a ha => ?_
        rcases ha with ⟨j, hj, htranslate⟩
        exact ⟨j, by omega, htranslate⟩
    rw [hall] at hwrite
    simp only [if_neg hzero, hwrite, Option.bind_some, not_true_eq_false, if_false]
    rfl

end Revhv.Hypercall

namespace Revhv.Um

open Revhv.Lib Revhv.Memory Revhv.GuestMemory Revhv.Hypercall

/-! ### A call of `read_vmemory` -/

/-- The arguments of a call and the process that makes it. -/
structure ReadCall where
  systemCr3 : Nat
  caller : Caller
  targetVa : UInt64
  outBuffer : UInt64
  size : UInt64
  targetCr3 : UInt64

namespace ReadCall

variable (c : ReadCall)

/-- The CR3 that the range belongs to. -/
def rangeCr3 : Nat := if c.targetCr3 ≠ 0 then c.targetCr3.toNat else c.systemCr3

/-- The request for the chunk behind `total` bytes. -/
def request (total : Nat) : VmemRequest :=
  chunkRequest c.targetVa c.outBuffer c.size c.targetCr3 total

/-- The physical addresses of the first `n` bytes of the buffer. -/
def BufferBytes (mem : Bytes) (n : Nat) : Nat → Prop :=
  Footprint mem c.caller.cr3 c.outBuffer.toNat n

/-- The physical addresses of the request. -/
def RequestBytes (mem : Bytes) : Nat → Prop :=
  Footprint mem c.caller.cr3 c.caller.requestVa.toNat VmemRequest.byteSize

/-- What a call changes. -/
def Touched (mem : Bytes) (a : Nat) : Prop :=
  c.BufferBytes mem c.size.toNat a ∨ c.RequestBytes mem a

/-- A range of a process: canonical, without a wrap and without address
0. What its walks meet is in the window, and no walk uses an entry that
the call changes. -/
structure Range (mem : Bytes) (cr3 va n : Nat) : Prop where
  ne : va ≠ 0
  fits : va + n ≤ 2 ^ 64
  canonical : ∀ i < n, Canonical (va + i)
  window : ∀ i < n, InWindow mem cr3 (va + i)
  clear : ∀ i < n, ClearOf (c.Touched mem) mem (pageDirectory cr3) (va + i)

/-- The range that is read, the buffer, and the `request` variable on
the stack of the caller. The buffer and the request are resident, and
are objects of their own. -/
structure Valid (mem : Bytes) : Prop where
  target : c.Range mem c.rangeCr3 c.targetVa.toNat c.size.toNat
  buffer : c.Range mem c.caller.cr3 c.outBuffer.toNat c.size.toNat
  request : c.Range mem c.caller.cr3 c.caller.requestVa.toNat VmemRequest.byteSize
  buffer_resident : ∀ i < c.size.toNat, (translateIn mem c.caller.cr3 (c.outBuffer.toNat + i)).isSome
  request_resident : ∀ i < VmemRequest.byteSize,
    (translateIn mem c.caller.cr3 (c.caller.requestVa.toNat + i)).isSome
  disjoint_target : ∀ a, c.BufferBytes mem c.size.toNat a →
    ¬ Footprint mem c.rangeCr3 c.targetVa.toNat c.size.toNat a
  disjoint_request : ∀ a, c.BufferBytes mem c.size.toNat a → ¬ c.RequestBytes mem a

/-- The memory while byte `i` is read: the caller has filled in the
request for its chunk. -/
def memoryAt (mem : Bytes) (i : Nat) : Bytes :=
  c.caller.storeRequest mem (c.request (i / maxVmemChunkSize * maxVmemChunkSize))

/-- Byte `i` of the range while it is read. -/
def rangeByte (mem : Bytes) (i : Nat) : UInt8 :=
  match translateIn mem c.rangeCr3 (c.targetVa.toNat + i) with
  | none => 0
  | some pa => c.memoryAt mem i pa

/-! ### One round -/

/-- After `total` bytes, `m` is the memory with these bytes in the
buffer, up to the request. -/
structure Progress (mem m : Bytes) (total : Nat) : Prop where
  agree : AgreeOff (c.Touched mem) mem m
  bytes : ∀ a, ¬ c.RequestBytes mem a →
    m a = storeBytes (translateIn mem c.caller.cr3) c.outBuffer.toNat (c.rangeByte mem) mem total a

variable {c} {mem m : Bytes}

/-- Addresses of a range translate as in the initial memory, since no
table of their walks has been touched. -/
theorem Range.translate {cr3 va n : Nat} (h : c.Range mem cr3 va n)
    (hagree : AgreeOff (c.Touched mem) mem m) {i : Nat} (hi : i < n) :
    translateIn m cr3 (va + i) = translateIn mem cr3 (va + i) :=
  (hagree.walk (h.clear i hi)).2.1

/-- Part of a range, in a memory that agrees. -/
theorem Range.window' {cr3 va n : Nat} (h : c.Range mem cr3 va n)
    (hagree : AgreeOff (c.Touched mem) mem m) {i : Nat} (hi : i < n) :
    InWindow m cr3 (va + i) ∧ ClearOf (c.Touched mem) m (pageDirectory cr3) (va + i) :=
  ⟨hagree.inWindow (h.clear i hi) (h.window i hi), hagree.clearOf (h.clear i hi)⟩

/-- The request is filled in through the walks of the initial memory. -/
theorem storeRequest_eq (h : c.Valid mem) (hagree : AgreeOff (c.Touched mem) mem m)
    (request : VmemRequest) :
    c.caller.storeRequest m request =
      storeBytes (translateIn mem c.caller.cr3) c.caller.requestVa.toNat request.bytes m
        VmemRequest.byteSize :=
  storeBytes_translate_congr fun _ hi => h.request.translate hagree hi

/-- Filling in the request changes the request only. -/
theorem agree_storeRequest (h : c.Valid mem) (hagree : AgreeOff (c.Touched mem) mem m)
    (request : VmemRequest) : AgreeOff (c.Touched mem) mem (c.caller.storeRequest m request) := by
  refine hagree.trans fun a ha => ?_
  rw [storeRequest_eq h hagree]
  refine storeBytes_of_not_mem fun i hi htranslate => ha (Or.inr ?_)
  exact ⟨i, hi, htranslate⟩

/-- The request is in memory then: its 32 bytes lie at different offsets
of their pages. -/
theorem holds_request (h : c.Valid mem) (hagree : AgreeOff (c.Touched mem) mem m)
    (request : VmemRequest) :
    HoldsBytes (c.caller.storeRequest m request) c.caller.cr3 c.caller.requestVa.toNat
      VmemRequest.byteSize request.bytes := by
  intro i hi
  rcases Option.isSome_iff_exists.mp (h.request_resident i hi) with ⟨pa, hpa⟩
  have hsame := h.request.translate (agree_storeRequest h hagree request) hi
  refine ⟨pa, hsame.trans hpa, ?_⟩
  rw [storeRequest_eq h hagree]
  refine (storeBytes_of_last hi hpa fun j hij hj hother => ?_).symm
  have hoff := translate_mod hpa
  have hoff' := translate_mod hother
  have hsize : VmemRequest.byteSize = 32 := rfl
  omega

/-- The bytes that a round reads are those of the range. -/
theorem rangeByte_of_holds (h : c.Valid mem) (hagree : AgreeOff (c.Touched mem) mem m)
    {total n i : Nat} {buffer : Bytes} (htotal : total % maxVmemChunkSize = 0)
    (hn : n ≤ maxVmemChunkSize) (hsize : total + n ≤ c.size.toNat) (hi : i < n)
    (hholds : HoldsBytes (c.caller.storeRequest m (c.request total)) c.rangeCr3
      (c.targetVa.toNat + total) n buffer) : buffer i = c.rangeByte mem (total + i) := by
  -- The byte lies in the chunk that begins at `total`.
  have hchunk : (total + i) / maxVmemChunkSize * maxVmemChunkSize = total := by
    have hmax : maxVmemChunkSize = 4096 := rfl
    rw [hmax] at htotal hn ⊢
    omega
  rcases hholds i hi with ⟨pa, hpa, hbyte⟩
  rw [Nat.add_assoc, h.target.translate (agree_storeRequest h hagree _)
    (show total + i < c.size.toNat by omega)] at hpa
  have hrange : c.rangeByte mem (total + i) = c.memoryAt mem (total + i) pa := by
    rw [rangeByte, hpa]
  rw [hrange, hbyte, memoryAt, hchunk, storeRequest_eq h hagree,
    storeRequest_eq h (AgreeOff.refl _ mem)]
  by_cases hrequest : c.RequestBytes mem pa
  · exact storeBytes_of_mem hrequest
  · -- The range does not meet the buffer.
    have hkept : m pa = mem pa := by
      refine hagree pa fun htouched => htouched.elim (fun hbuffer => ?_) hrequest
      exact h.disjoint_target pa hbuffer ⟨total + i, by omega, hpa⟩
    exact storeBytes_mem_congr hkept

/-- How far a chunk is mapped, and how far the range is. -/
theorem mappedLength_chunk {cr3 va size total chunk : Nat}
    (htotal : total ≤ mappedLength mem cr3 va size) (hchunk : total + chunk ≤ size) :
    total + mappedLength mem cr3 (va + total) chunk ≤ mappedLength mem cr3 va size ∧
      (mappedLength mem cr3 (va + total) chunk < chunk →
        mappedLength mem cr3 va size = total + mappedLength mem cr3 (va + total) chunk) := by
  have hle : mappedLength mem cr3 (va + total) chunk ≤ chunk := prefixLength_le _ _
  have hbelow : ∀ i < total + mappedLength mem cr3 (va + total) chunk,
      (translateIn mem cr3 (va + i)).isSome = true := by
    intro i hi
    -- What is mapped from the start is mapped up to the first hole, in this
    -- chunk or in an earlier one.
    by_cases hold : i < total
    · exact prefixLength_below (show i < mappedLength mem cr3 va size by omega)
    · have hnew := prefixLength_below
        (show i - total < mappedLength mem cr3 (va + total) chunk by omega)
      have hva : va + total + (i - total) = va + i := by omega
      rwa [hva] at hnew
  refine ⟨le_prefixLength (by omega) hbelow, fun hlt => ?_⟩
  refine prefixLength_eq (by omega) hbelow fun _ => ?_
  rw [← Nat.add_assoc]
  exact prefixLength_end hlt

/-- The request of a round, in numbers. -/
theorem request_fields (h : c.Valid mem) {total : Nat} (hlt : total < c.size.toNat) :
    (c.request total).guestBuffer.toNat = c.outBuffer.toNat + total ∧
      (c.request total).targetVa.toNat = c.targetVa.toNat + total ∧
      (c.request total).size.toNat = min (c.size.toNat - total) maxVmemChunkSize ∧
      (c.request total).cr3 c.systemCr3 = c.rangeCr3 := by
  have hsize := c.size.toNat_lt
  -- None of the sums overflows, because neither range wraps around.
  have hofNat : (UInt64.ofNat total).toNat = total := UInt64.toNat_ofNat_of_lt' (by
    show total < 2 ^ 64
    omega)
  have hbuffer := h.buffer.fits
  have htarget := h.target.fits
  refine ⟨?_, ?_, ?_, rfl⟩
  · show (c.outBuffer + UInt64.ofNat total).toNat = _
    rw [UInt64.toNat_add, hofNat, Nat.mod_eq_of_lt (by omega)]
  · show (c.targetVa + UInt64.ofNat total).toNat = _
    rw [UInt64.toNat_add, hofNat, Nat.mod_eq_of_lt (by omega)]
  · refine UInt64.toNat_ofNat_of_lt' ?_
    show min (c.size.toNat - total) maxVmemChunkSize < 2 ^ 64
    omega

/-- One round reads the mapped part of its chunk. -/
theorem round_spec (h : c.Valid mem) {total chunk : Nat} (hprogress : c.Progress mem m total)
    (hlt : total < c.size.toNat) (htotal : total % maxVmemChunkSize = 0)
    (hchunk : min (c.size.toNat - total) maxVmemChunkSize = chunk) :
    let n := mappedLength mem c.rangeCr3 (c.targetVa.toNat + total) chunk
    ∃ m', handleVmemRead c.systemCr3 c.caller.cr3 (c.caller.storeRequest m (c.request total))
        c.caller.requestVa.toNat = some (m', n) ∧ c.Progress mem m' (total + n) := by
  intro n
  have hagree := agree_storeRequest h hprogress.agree (c.request total)
  rcases request_fields h hlt with ⟨hguestBuffer, htargetVa, hsize, hcr3⟩
  have hmax : maxVmemChunkSize = 4096 := rfl
  have hn : n ≤ chunk := prefixLength_le _ _
  rw [hchunk] at hsize
  -- The walks of the round, in the memory with the request.
  have hbufferWalk : ∀ i < chunk, InWindow (c.caller.storeRequest m (c.request total))
      c.caller.cr3 (c.outBuffer.toNat + total + i) ∧
        ClearOf (c.Touched mem) (c.caller.storeRequest m (c.request total))
          (pageDirectory c.caller.cr3) (c.outBuffer.toNat + total + i) := by
    intro i hi
    rw [Nat.add_assoc]
    exact h.buffer.window' hagree (by omega)
  have hbufferTranslate : ∀ i < chunk,
      translateIn (c.caller.storeRequest m (c.request total)) c.caller.cr3
          (c.outBuffer.toNat + total + i) =
        translateIn mem c.caller.cr3 (c.outBuffer.toNat + total + i) := by
    intro i hi
    rw [Nat.add_assoc]
    exact h.buffer.translate hagree (by omega)
  have hlength : mappedLength (c.caller.storeRequest m (c.request total)) c.rangeCr3
      (c.targetVa.toNat + total) chunk = n :=
    hagree.mappedLength fun i hi => by
      rw [Nat.add_assoc]
      exact h.target.clear (total + i) (by omega)
  have hcall := @handleVmemRead_spec c.systemCr3 _ _ _ (c.request total) h.request.ne h.request.fits
    (fun i hi => (h.request.window' hagree hi).1) (holds_request h hprogress.agree _)
    (by omega) (by omega)
    (by have := h.target.ne; omega) (by have := h.target.fits; omega)
    (fun i hi => by
      rw [htargetVa, hcr3, Nat.add_assoc]
      exact (h.target.window' hagree (by omega)).1)
    (by have := h.buffer.ne; omega) (by have := h.buffer.fits; omega)
    (fun i hi => by
      rw [hguestBuffer]
      exact (hbufferWalk i (by omega)).1)
    (fun i hi => by
      rw [hguestBuffer, hbufferTranslate i (by omega), Nat.add_assoc]
      exact h.buffer_resident (total + i) (by omega))
    (fun i hi => by
      rw [hguestBuffer, hsize]
      refine (hbufferWalk i (by omega)).2.mono fun a ha => Or.inl ?_
      rcases ha with ⟨j, hj, htranslate⟩
      rw [hbufferTranslate j hj, Nat.add_assoc] at htranslate
      exact ⟨total + j, by omega, htranslate⟩)
  rw [hcr3, htargetVa, hsize, hlength, hguestBuffer] at hcall
  rcases hcall with ⟨buffer, hholds, hresult⟩
  refine ⟨_, hresult, ?_⟩
  have hstore : storeBytes (translateIn (c.caller.storeRequest m (c.request total)) c.caller.cr3)
      (c.outBuffer.toNat + total) buffer (c.caller.storeRequest m (c.request total)) n =
        storeBytes (translateIn mem c.caller.cr3) (c.outBuffer.toNat + total)
          (fun i => c.rangeByte mem (total + i)) (c.caller.storeRequest m (c.request total)) n := by
    rw [storeBytes_translate_congr fun i hi => hbufferTranslate i (by omega)]
    exact storeBytes_congr fun i hi =>
      rangeByte_of_holds h hprogress.agree htotal (by omega) (by omega) hi hholds
  rw [hstore]
  constructor
  · refine hagree.trans fun a ha => storeBytes_of_not_mem fun i hi htranslate => ha (Or.inl ?_)
    rw [Nat.add_assoc] at htranslate
    exact ⟨total + i, by omega, htranslate⟩
  · intro a ha
    rw [storeBytes_add]
    refine storeBytes_mem_congr ?_
    rw [storeRequest_eq h hprogress.agree, ← hprogress.bytes a ha]
    exact storeBytes_of_not_mem fun i hi htranslate => ha ⟨i, hi, htranslate⟩

/-- The loop from `total` bytes on. -/
theorem readVmemoryLoop_spec (h : c.Valid mem) (fuel : Nat) {total : Nat}
    (hprogress : c.Progress mem m total)
    (htotal : total % maxVmemChunkSize = 0 ∨ total = c.size.toNat)
    (hle : total ≤ mappedLength mem c.rangeCr3 c.targetVa.toNat c.size.toNat)
    (hfuel : c.size.toNat ≤ total + fuel) :
    ∃ m', readVmemoryLoop c.systemCr3 c.caller c.targetVa c.outBuffer c.size c.targetCr3 fuel
        total m =
        some (m', mappedLength mem c.rangeCr3 c.targetVa.toNat c.size.toNat) ∧
      c.Progress mem m' (mappedLength mem c.rangeCr3 c.targetVa.toNat c.size.toNat) := by
  have hmapped : mappedLength mem c.rangeCr3 c.targetVa.toNat c.size.toNat ≤ c.size.toNat :=
    prefixLength_le _ _
  -- By induction over the fuel, one chunk a round. Every round but the last is
  -- a whole chunk.
  induction fuel generalizing m total with
  | zero =>
    have hend : mappedLength mem c.rangeCr3 c.targetVa.toNat c.size.toNat = total := by omega
    rw [hend]
    exact ⟨m, rfl, hprogress⟩
  | succ fuel ih =>
    by_cases hlt : total < c.size.toNat
    · have hstart : total % maxVmemChunkSize = 0 := htotal.resolve_right (by omega)
      rcases round_spec h hprogress hlt hstart rfl with ⟨m', hcall, hprogress'⟩
      have hchunkLe : total + min (c.size.toNat - total) maxVmemChunkSize ≤ c.size.toNat := by
        omega
      rcases mappedLength_chunk hle hchunkLe with ⟨hmore, hshort⟩
      have hn : mappedLength mem c.rangeCr3 (c.targetVa.toNat + total)
          (min (c.size.toNat - total) maxVmemChunkSize) ≤
            min (c.size.toNat - total) maxVmemChunkSize := prefixLength_le _ _
      have hcall' : handleVmemRead c.systemCr3 c.caller.cr3 (c.caller.storeRequest m
          (chunkRequest c.targetVa c.outBuffer c.size c.targetCr3 total))
            c.caller.requestVa.toNat = _ := hcall
      have hmax : maxVmemChunkSize = 4096 := rfl
      rw [readVmemoryLoop, if_pos hlt]
      simp only [hcall']
      generalize mappedLength mem c.rangeCr3 (c.targetVa.toNat + total)
        (min (c.size.toNat - total) maxVmemChunkSize) = n at *
      -- The loop ends at a chunk that yields nothing or less than was asked
      -- for.
      by_cases hzero : n = 0
      · have hend := hshort (by omega)
        subst hzero
        rw [hend]
        exact ⟨m', if_pos rfl, hprogress'⟩
      · rw [if_neg hzero]
        by_cases hpart : n < min (c.size.toNat - total) maxVmemChunkSize
        · rw [if_pos hpart, hshort hpart]
          exact ⟨m', rfl, hprogress'⟩
        · -- The whole chunk is mapped: the next round goes on behind it.
          rw [if_neg hpart]
          refine ih hprogress' ?_ hmore (by omega)
          rw [hmax] at hstart hpart hn ⊢
          omega
    · have hend : mappedLength mem c.rangeCr3 c.targetVa.toNat c.size.toNat = total := by omega
      refine ⟨m, ?_, hend ▸ hprogress⟩
      rw [readVmemoryLoop, if_neg hlt, hend]

end ReadCall

/-- A call returns the length `n` of the longest prefix of the range
that the processor could translate. Byte `i < n` of the range, as it was
while it was read, is byte `i` of the buffer, unless a later byte of the
buffer has the same physical address. Only the request is different from
call to call, so elsewhere it is the byte of the initial memory. Nothing
changes but the buffer and the request. -/
theorem readVmemory_spec (c : ReadCall) (mem : Bytes) (h : c.Valid mem) :
    let n := prefixLength (fun i => (processorTranslate (tablesOf mem) (pageDirectory c.rangeCr3)
      (c.targetVa.toNat + i)).isSome) c.size.toNat
    ∃ mem', readVmemory c.systemCr3 c.caller mem c.targetVa c.outBuffer c.size c.targetCr3 =
        some (mem', n) ∧
      (∀ i < n, ∃ pa pb,
        processorTranslate (tablesOf mem) (pageDirectory c.rangeCr3) (c.targetVa.toNat + i) =
            some pa ∧
          processorTranslate (tablesOf mem) (pageDirectory c.caller.cr3) (c.outBuffer.toNat + i) =
            some pb ∧
          ((∀ j, i < j → j < n → processorTranslate (tablesOf mem) (pageDirectory c.caller.cr3)
            (c.outBuffer.toNat + j) ≠ some pb) → mem' pb = c.memoryAt mem i pa) ∧
          (¬ c.RequestBytes mem pa → c.memoryAt mem i pa = mem pa)) ∧
      ∀ a, ¬ c.Touched mem a → mem' a = mem a := by
  intro n
  have hrange : ∀ i < c.size.toNat, processorTranslate (tablesOf mem) (pageDirectory c.rangeCr3)
      (c.targetVa.toNat + i) = translateIn mem c.rangeCr3 (c.targetVa.toNat + i) :=
    fun i hi => if_pos (h.target.canonical i hi)
  have hbuffer : ∀ i < c.size.toNat, processorTranslate (tablesOf mem) (pageDirectory c.caller.cr3)
      (c.outBuffer.toNat + i) = translateIn mem c.caller.cr3 (c.outBuffer.toNat + i) :=
    fun i hi => if_pos (h.buffer.canonical i hi)
  have hnle : n ≤ c.size.toNat := prefixLength_le _ _
  have hmapped : mappedLength mem c.rangeCr3 c.targetVa.toNat c.size.toNat = n := by
    refine prefixLength_eq hnle (fun i hi => ?_) fun hlt => ?_
    · rw [← hrange i (by omega)]
      exact prefixLength_below hi
    · rw [← hrange n hlt]
      exact prefixLength_end hlt
  have hstart : c.Progress mem mem 0 := ⟨AgreeOff.refl _ mem, fun _ _ => rfl⟩
  rcases ReadCall.readVmemoryLoop_spec h c.size.toNat hstart (Or.inl rfl) (Nat.zero_le _)
    (by omega) with ⟨mem', hloop, hprogress⟩
  rw [hmapped] at hloop hprogress
  refine ⟨mem', ?_, fun i hi => ?_, fun a ha => hprogress.agree a ha⟩
  · rw [readVmemory]
    split
    · rename_i hnull
      -- The buffer is not null, so there is nothing to read.
      have hsize : c.size.toNat = 0 := by
        rcases hnull with hout | hsize
        · exact absurd (congrArg UInt64.toNat hout) h.buffer.ne
        · exact congrArg UInt64.toNat hsize
      have hempty : readVmemoryLoop c.systemCr3 c.caller c.targetVa c.outBuffer c.size c.targetCr3
          c.size.toNat 0 mem = some (mem, 0) := by
        rw [hsize]
        rfl
      rw [← hloop, hempty]
    · exact hloop
  · have hsome := prefixLength_below (show i < mappedLength mem c.rangeCr3 c.targetVa.toNat
      c.size.toNat by omega)
    rcases Option.isSome_iff_exists.mp hsome with ⟨pa, hpa⟩
    rcases Option.isSome_iff_exists.mp (h.buffer_resident i (by omega)) with ⟨pb, hpb⟩
    rw [hrange i (by omega), hbuffer i (by omega)]
    refine ⟨pa, pb, hpa, hpb, fun hlast => ?_, fun hrequest => ?_⟩
    · have hown : c.BufferBytes mem c.size.toNat pb := ⟨i, by omega, hpb⟩
      rw [hprogress.bytes pb (h.disjoint_request pb hown),
        storeBytes_of_last hi hpb fun j hij hj => by
          rw [← hbuffer j (by omega)]
          exact hlast j hij hj]
      rw [ReadCall.rangeByte, hpa]
    · rw [ReadCall.memoryAt, ReadCall.storeRequest_eq h (AgreeOff.refl _ mem)]
      exact storeBytes_of_not_mem fun k hk htranslate => hrequest ⟨k, hk, htranslate⟩

/-- A read of 0x2800 bytes at 0x5123 into a buffer at 0x9000, by the
system CR3: three chunks. -/
def directRead : ReadCall := ⟨0x1000, ⟨0x1000, 0xC000⟩, 0x5123, 0x9000, 0x2800, 0⟩

/-- The bytes of the second GB. -/
theorem directMemory_data {a : Nat} (h : 2 ^ 30 ≤ a) : directMemory a = UInt8.ofNat a := by
  have hfar : a ≠ 0x1000 ∧ a ≠ 0x1001 ∧ a ≠ 0x2000 ∧ a ≠ 0x2003 ∧ ¬ a < 2 ^ 30 := by omega
  obtain ⟨h₁, h₂, h₃, h₄, h₅⟩ := hfar
  rw [directMemory, if_neg h₁, if_neg h₂, if_neg h₃, if_neg h₄, if_neg h₅]

/-- The bytes of a range in the second GB. -/
theorem directRead_footprint {va n a : Nat} (hn : va + n ≤ 2 ^ 30)
    (h : Footprint directMemory 0x1000 va n a) : 2 ^ 30 + va ≤ a ∧ a < 2 ^ 30 + va + n := by
  rcases h with ⟨i, hi, htranslate⟩
  have hpa := (directMemory_walk (show va + i < 2 ^ 30 by omega)).2
  have hsome : some (2 ^ 30 + (va + i)) = some a := hpa.symm.trans htranslate
  have := Option.some.inj hsome
  omega

/-- Every range in the first GB is clear of the buffer and the request. -/
theorem directRead_range {va n : Nat} (hva : va ≠ 0) (hn : va + n ≤ 2 ^ 30) :
    directRead.Range directMemory 0x1000 va n where
  ne := hva
  fits := by omega
  canonical i hi := Or.inl (by omega)
  window i hi := directMemory_inWindow (by omega)
  clear i hi := by
    refine directMemory_clearOf (by omega) fun a ha => ?_
    rcases ha with hbuffer | hrequest
    · have := directRead_footprint (show 0x9000 + 0x2800 ≤ 2 ^ 30 by decide) hbuffer
      omega
    · have := directRead_footprint (show 0xC000 + 32 ≤ 2 ^ 30 by decide) hrequest
      omega

/-- The first GB is mapped. -/
theorem directRead_resident {va n i : Nat} (hn : va + n ≤ 2 ^ 30) (hi : i < n) :
    (translateIn directMemory 0x1000 (va + i)).isSome = true := by
  have hpa := (directMemory_walk (show va + i < 2 ^ 30 by omega)).2
  show (translate (tablesOf directMemory) 1 (va + i)).isSome = true
  rw [hpa]
  rfl

/-- The read is a valid one. -/
theorem directRead_valid : directRead.Valid directMemory where
  target := directRead_range (show 0x5123 ≠ 0 by decide) (show 0x5123 + 0x2800 ≤ 2 ^ 30 by decide)
  buffer := directRead_range (show 0x9000 ≠ 0 by decide) (show 0x9000 + 0x2800 ≤ 2 ^ 30 by decide)
  request := directRead_range (show 0xC000 ≠ 0 by decide) (show 0xC000 + 32 ≤ 2 ^ 30 by decide)
  buffer_resident _ hi := directRead_resident (show 0x9000 + 0x2800 ≤ 2 ^ 30 by decide) hi
  request_resident _ hi := directRead_resident (show 0xC000 + 32 ≤ 2 ^ 30 by decide) hi
  disjoint_target a ha hb := by
    have := directRead_footprint (show 0x9000 + 0x2800 ≤ 2 ^ 30 by decide) ha
    have := directRead_footprint (show 0x5123 + 0x2800 ≤ 2 ^ 30 by decide) hb
    omega
  disjoint_request a ha hb := by
    have := directRead_footprint (show 0x9000 + 0x2800 ≤ 2 ^ 30 by decide) ha
    have := directRead_footprint (show 0xC000 + 32 ≤ 2 ^ 30 by decide) hb
    omega

/-- All bytes arrive. -/
theorem readVmemory_direct : ∃ mem',
    readVmemory 0x1000 ⟨0x1000, 0xC000⟩ directMemory 0x5123 0x9000 0x2800 0 =
        some (mem', 0x2800) ∧
      ∀ i < 0x2800, mem' (2 ^ 30 + (0x9000 + i)) = UInt8.ofNat (2 ^ 30 + (0x5123 + i)) := by
  have hat : ∀ i < 0x2800, processorTranslate (tablesOf directMemory) (pageDirectory 0x1000)
      (0x5123 + i) = some (2 ^ 30 + (0x5123 + i)) :=
    fun i hi => directMemory_processor (by omega)
  have hout : ∀ i < 0x2800, processorTranslate (tablesOf directMemory) (pageDirectory 0x1000)
      (0x9000 + i) = some (2 ^ 30 + (0x9000 + i)) :=
    fun i hi => directMemory_processor (by omega)
  have hn : prefixLength (fun i => (processorTranslate (tablesOf directMemory)
      (pageDirectory 0x1000) (0x5123 + i)).isSome) 0x2800 = 0x2800 :=
    prefixLength_eq (Nat.le_refl _) (fun i hi => by rw [hat i hi]; rfl) (by omega)
  rcases readVmemory_spec directRead directMemory directRead_valid with
    ⟨mem', hread, hbytes, -⟩
  have hn' : prefixLength (fun i => (processorTranslate (tablesOf directMemory)
      (pageDirectory directRead.rangeCr3) (directRead.targetVa.toNat + i)).isSome)
        directRead.size.toNat = 0x2800 := hn
  rw [hn'] at hread hbytes
  refine ⟨mem', hread, fun i hi => ?_⟩
  rcases hbytes i hi with ⟨pa, pb, hpa, hpb, hbyte, hsame⟩
  have hpa' : pa = 2 ^ 30 + (0x5123 + i) := Option.some.inj (hpa.symm.trans (hat i hi))
  have hpb' : pb = 2 ^ 30 + (0x9000 + i) := Option.some.inj (hpb.symm.trans (hout i hi))
  -- The range does not meet the request, and no two bytes of the buffer are one.
  have hfar : ¬ directRead.RequestBytes directMemory pa := by
    intro hrequest
    have := directRead_footprint (show 0xC000 + 32 ≤ 2 ^ 30 by decide) hrequest
    omega
  have hlast := hbyte fun j hij hj hsame => by
    have hj' := Option.some.inj ((hout j hj).symm.trans hsame)
    omega
  rw [hsame hfar, hpa', hpb'] at hlast
  rw [hlast]
  exact directMemory_data (by omega)

end Revhv.Um
