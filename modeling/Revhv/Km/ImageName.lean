import Revhv.Km.Onload

/-!
# `Revhv.Km.ImageName`: the name of a loaded image, byte by byte

The buffers behind `Revhv.Km.Onload`: the array `image_name` that
`hk_mm_load_system_image` fills, and the comparison of `names_match_nocase`
with the name of the onload target. An array is the list of its bytes.
-/

set_option autoImplicit false

namespace Revhv.Onload

/-- The size of `image_name`. -/
def imageNameSize : Nat := 512

/-- `onload_target`. Its name is an array of `max_onload_name_length`
bytes; the handlers that write it leave a terminator in it. -/
structure OnloadTarget where
  active : Bool
  name : List UInt8
  size : name.length = maxOnloadNameLength
  terminated : 0 ∈ name

/-- The target at the start: all zero. -/
def OnloadTarget.initial : OnloadTarget where
  active := false
  name := List.replicate maxOnloadNameLength 0
  size := List.length_replicate
  terminated := by decide

/-- `handle_set_onload_target`, for the bytes of a request: the last one
is overwritten. -/
def OnloadTarget.set (driverName : List UInt8) (hsize : driverName.length = maxOnloadNameLength) :
    OnloadTarget where
  active := true
  name := driverName.set (maxOnloadNameLength - 1) 0
  size := by rw [List.length_set, hsize]
  terminated := List.mem_iff_getElem.mpr
    ⟨maxOnloadNameLength - 1, by rw [List.length_set, hsize]; decide, List.getElem_set_self _⟩

/-- `handle_clear_onload_target`. -/
def OnloadTarget.clear (target : OnloadTarget) : OnloadTarget where
  active := false
  name := target.name.set 0 0
  size := by rw [List.length_set, target.size]
  terminated := List.mem_iff_getElem.mpr
    ⟨0, by rw [List.length_set, target.size]; decide, List.getElem_set_self _⟩

/-- The loop that looks for the last backslash, from index `i - 1` down,
and -1 without one. -/
def separatorIndex (buffer : List UInt8) : Nat → Int
  | 0 => -1
  | i + 1 => if buffer[i]? = some 0x5c then i else separatorIndex buffer i

/-- `basename_offset`. -/
def basenameOffset (buffer : List UInt8) : Nat :=
  (separatorIndex buffer buffer.length + 1).toNat % 2 ^ 16

/-- `image_name` after the copy of the basename over its zeros. -/
def imageNameArray (buffer : List UInt8) : List UInt8 :=
  let basename := buffer.drop (basenameOffset buffer)
  basename ++ List.replicate (imageNameSize - basename.length) 0

/-- `names_match_nocase` on two arrays, `none` for a read outside one of
them. -/
def namesMatchArrays : List UInt8 → List UInt8 → Option Bool
  | a :: as, b :: bs =>
    if a ≠ 0 ∧ b ≠ 0 then
      if lowerAscii a ≠ lowerAscii b then some false else namesMatchArrays as bs
    else some (a == b)
  | _, _ => none

/-- What `hk_mm_load_system_image` does with a converted name: the array
it fills, and whether the target is triggered, `none` for a comparison
that leaves an array. -/
structure Loaded where
  imageName : List UInt8
  trigger : Option Bool
deriving DecidableEq

/-- `hk_mm_load_system_image` from the length check to the match, `none`
for a name that is too long. -/
def hkMmLoadSystemImage (target : OnloadTarget) (ansiName : List UInt8) : Option Loaded :=
  if imageNameSize < ansiName.length then none
  else
    let imageName := imageNameArray ansiName
    some ⟨imageName,
      if target.active then namesMatchArrays imageName target.name else some false⟩

end Revhv.Onload
