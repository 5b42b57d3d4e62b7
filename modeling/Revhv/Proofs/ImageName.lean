import Mathlib.Data.List.TakeWhile
import Revhv.Km.ImageName

/-!
# `Revhv.Proofs.ImageName`: the onload match on its buffers

* `namesMatchArrays_eq`: the comparison of two arrays is the comparison of the
  strings in them.
* `imageNameArray_eq`: what the copy leaves in `image_name`.
* `hook_matches_iff`: when the array is terminated and the target is triggered
  by its name only.
* `unterminated_name`: a name for which the array is not terminated.
-/

set_option autoImplicit false

namespace Revhv.Onload

/-! ### The comparison -/

/-- Two strings match when they are equal in lower case. -/
theorem namesMatchNocase_iff (a b : List UInt8) :
    namesMatchNocase a b = true ↔ a.map lowerAscii = b.map lowerAscii := by
  fun_induction namesMatchNocase a b with
  | case1 ca as cb bs hne => simp [hne]
  | case2 ca as cb bs heq ih =>
    rw [not_not] at heq
    rw [List.map_cons, List.map_cons, heq, List.cons.injEq, ih]
    simp
  -- One of the two is at its end.
  | case3 as bs hnot =>
    cases as with
    | nil =>
      cases bs with
      | nil => simp
      | cons cb bs => simp
    | cons ca as =>
      cases bs with
      | nil => simp
      | cons cb bs => exact absurd rfl (hnot ca as cb bs rfl)

/-- The string of an array that starts with a terminator. -/
theorem cString_zero (bytes : List UInt8) : cString (0 :: bytes) = [] := by
  simp [cString]

/-- The string of an array that starts with another byte. -/
theorem cString_cons {c : UInt8} (bytes : List UInt8) (hc : c ≠ 0) :
    cString (c :: bytes) = c :: cString bytes := by
  simp [cString, hc]

/-- On an array with a terminator and one at least as long, the
comparison stays inside both, and compares the strings in them. -/
theorem namesMatchArrays_eq (b : List UInt8) :
    ∀ a : List UInt8, 0 ∈ b → b.length ≤ a.length →
      namesMatchArrays a b = some (namesMatchNocase (cString a) (cString b)) := by
  induction b with
  | nil => intro a hzero _; cases hzero
  | cons cb b ih =>
    intro a hzero hlen
    cases a with
    | nil => simp at hlen
    | cons ca a =>
      by_cases hb : cb = 0
      · -- The end of the terminated array.
        subst hb
        rw [cString_zero, namesMatchArrays, if_neg (fun h => h.2 rfl)]
        -- The bytes match only if the other array ends here too.
        by_cases ha : ca = 0
        · subst ha
          rw [cString_zero]
          rfl
        · rw [cString_cons a ha, beq_false_of_ne ha]
          rfl
      · by_cases ha : ca = 0
        · subst ha
          rw [cString_zero, cString_cons b hb, namesMatchArrays, if_neg (fun h => h.1 rfl),
            beq_false_of_ne (Ne.symm hb)]
          rfl
        · have hmem : 0 ∈ b := by
            rcases List.mem_cons.mp hzero with h | h
            · exact absurd h.symm hb
            · exact h
          have hrest := ih a hmem (by simpa using hlen)
          rw [cString_cons a ha, cString_cons b hb, namesMatchArrays, if_pos ⟨ha, hb⟩,
            namesMatchNocase]
          by_cases hne : lowerAscii ca ≠ lowerAscii cb
          · rw [if_pos hne, if_pos hne]
          · rw [if_neg hne, if_neg hne, hrest]

/-! ### The copy -/

/-- The search from the end stops at the last backslash, or in front of
the buffer. -/
theorem separatorIndex_spec (buffer : List UInt8) (n : Nat) :
    ∃ k ≤ n, separatorIndex buffer n + 1 = k ∧ (∀ i, k ≤ i → i < n → buffer[i]? ≠ some 0x5c)
      ∧ (k = 0 ∨ buffer[k - 1]? = some 0x5c) := by
  induction n with
  | zero => exact ⟨0, Nat.le_refl _, rfl, fun i _ hi => absurd hi (Nat.not_lt_zero i), .inl rfl⟩
  | succ n ih =>
    rw [separatorIndex]
    by_cases hsep : buffer[n]? = some 0x5c
    · rw [if_pos hsep]
      exact ⟨n + 1, Nat.le_refl _, by omega, fun i hk hi => by omega, .inr hsep⟩
    · rw [if_neg hsep]
      -- No separator at `n`, so the answer for the shorter prefix stands.
      rcases ih with ⟨k, hk, hindex, hnone, hlast⟩
      refine ⟨k, by omega, hindex, ?_, hlast⟩
      intro i hki hi
      by_cases hin : i = n
      · rwa [hin]
      · exact hnone i hki (by omega)

/-- The basename is what stands behind the last backslash. -/
theorem drop_basenameOffset {buffer : List UInt8} (hlen : buffer.length ≤ imageNameSize) :
    buffer.drop (basenameOffset buffer) = baseName buffer := by
  rcases separatorIndex_spec buffer buffer.length with ⟨k, hk, hindex, hnone, hlast⟩
  have hoffset : basenameOffset buffer = k := by
    unfold basenameOffset
    unfold imageNameSize at hlen
    rw [hindex, Int.toNat_natCast]
    omega
  -- Nothing behind the offset is a separator, and the byte before it is one.
  have hback : ∀ c ∈ (buffer.drop k).reverse, decide (c ≠ 0x5c) = true := by
    intro c hc
    rw [decide_eq_true_eq]
    rintro rfl
    rcases List.mem_iff_getElem?.mp (List.mem_reverse.mp hc) with ⟨i, hi⟩
    rw [List.getElem?_drop] at hi
    have hlt : k + i < buffer.length := by
      by_contra h
      rw [List.getElem?_eq_none (by omega)] at hi
      cases hi
    exact hnone (k + i) (by omega) hlt hi
  have hfront : (buffer.take k).reverse.takeWhile (fun b => decide (b ≠ 0x5c)) = [] := by
    rcases hlast with rfl | hlast
    · rfl
    · cases hrev : (buffer.take k).reverse with
      | nil => rfl
      | cons c rest =>
        have hc : c = 0x5c := by
          have h : (buffer.take k).getLast? = some c := by
            rw [List.getLast?_eq_head?_reverse, hrev]
            rfl
          have hkpos : 0 < k := by
            by_contra h0
            rw [show k = 0 by omega] at hrev
            cases hrev
          rw [List.getLast?_take, if_neg (by omega), hlast] at h
          simpa [eq_comm] using h
        subst hc
        rfl
  unfold baseName
  rw [hoffset]
  conv => rhs; rw [← List.take_append_drop k buffer]
  rw [List.reverse_append, List.takeWhile_append_of_pos hback, hfront, List.append_nil,
    List.reverse_reverse]

/-- The array holds the basename and zeros up to its end. -/
theorem imageNameArray_eq {buffer : List UInt8} (hlen : buffer.length ≤ imageNameSize) :
    imageNameArray buffer
      = baseName buffer ++ List.replicate (imageNameSize - (baseName buffer).length) 0 := by
  unfold imageNameArray
  rw [drop_basenameOffset hlen]

/-- The basename is not longer than the path. -/
theorem baseName_length_le (path : List UInt8) : (baseName path).length ≤ path.length := by
  unfold baseName
  rw [List.length_reverse]
  have h := (List.takeWhile_sublist (l := path.reverse) fun b => decide (b ≠ 0x5c)).length_le
  rwa [List.length_reverse] at h

/-- The copy fills the array exactly. -/
theorem imageNameArray_length {buffer : List UInt8} (hlen : buffer.length ≤ imageNameSize) :
    (imageNameArray buffer).length = imageNameSize := by
  have h := baseName_length_le buffer
  rw [imageNameArray_eq hlen, List.length_append, List.length_replicate]
  omega

/-- The array has a terminator unless the basename fills it without one. -/
theorem zero_mem_imageNameArray {buffer : List UInt8} (hlen : buffer.length ≤ imageNameSize) :
    0 ∈ imageNameArray buffer
      ↔ ¬ ((baseName buffer).length = imageNameSize ∧ 0 ∉ baseName buffer) := by
  have h := baseName_length_le buffer
  rw [imageNameArray_eq hlen, List.mem_append, List.mem_replicate]
  constructor
  · rintro (hmem | ⟨hne, -⟩) ⟨hfull, hzero⟩
    · exact hzero hmem
    · omega
  · intro hnot
    by_cases hzero : 0 ∈ baseName buffer
    · exact .inl hzero
    · refine .inr ⟨?_, rfl⟩
      intro hroom
      exact hnot ⟨by omega, hzero⟩

/-- The string in the array is the string in the basename. -/
theorem cString_imageNameArray {buffer : List UInt8} (hlen : buffer.length ≤ imageNameSize) :
    cString (imageNameArray buffer) = cString (baseName buffer) := by
  rw [imageNameArray_eq hlen]
  unfold cString
  -- A NUL inside the name ends it before the padding does.
  by_cases hzero : 0 ∈ baseName buffer
  · rw [List.takeWhile_append, if_neg]
    intro hall
    have heq := List.takeWhile_eq_self_iff.mp
      ((List.takeWhile_sublist fun b => decide (b ≠ 0)).eq_of_length hall) 0 hzero
    simp at heq
  · have hall : ∀ c ∈ baseName buffer, decide (c ≠ 0) = true := by
      intro c hc
      rw [decide_eq_true_eq]
      rintro rfl
      exact hzero hc
    rw [List.takeWhile_append_of_pos hall, List.takeWhile_eq_self_iff.mpr hall]
    cases imageNameSize - (baseName buffer).length with
    | zero => simp
    | succ n => simp [List.replicate_succ]

/-! ### The hook -/

/-- What the hook does with a name that it does not skip is right: the
array is terminated, the comparison stays inside both arrays, and the
target is triggered exactly when the basename is the armed name, up to
the case of its letters. -/
def Matches (target : OnloadTarget) (ansiName : List UInt8) : Prop :=
  ∀ loaded, hkMmLoadSystemImage target ansiName = some loaded →
    (loaded.imageName.length = imageNameSize ∧ 0 ∈ loaded.imageName)
      ∧ loaded.trigger.isSome = true
      ∧ (loaded.trigger = some true ↔ target.active = true
          ∧ (baseName ansiName).map lowerAscii = (cString target.name).map lowerAscii)

/-- The lower case of a byte is a terminator only when the byte is. -/
theorem lowerAscii_eq_zero {c : UInt8} (hc : lowerAscii c = 0) : c = 0 := by
  unfold lowerAscii at hc
  split_ifs at hc with hletter
  · rcases hletter with ⟨hlow, hhigh⟩
    have h := congrArg UInt8.toNat hc
    rw [UInt8.le_iff_toNat_le] at hlow hhigh
    have h1 : (0x41 : UInt8).toNat = 65 := rfl
    have h2 : (0x5a : UInt8).toNat = 90 := rfl
    have h3 : (0x20 : UInt8).toNat = 32 := rfl
    have h4 : (0 : UInt8).toNat = 0 := rfl
    rw [UInt8.toNat_add, h3, h4] at h
    omega
  · exact hc

/-- A name with a terminator inside is not a string. -/
theorem map_lower_ne_cString {name bytes : List UInt8} (hzero : 0 ∈ name) :
    name.map lowerAscii ≠ (cString bytes).map lowerAscii := by
  intro h
  have hmem : lowerAscii 0 ∈ (cString bytes).map lowerAscii := by
    rw [← h]
    exact List.mem_map_of_mem hzero
  rcases List.mem_map.mp hmem with ⟨c, hc, hlower⟩
  have hc0 : c = 0 := lowerAscii_eq_zero (hlower.trans rfl)
  have hne := List.mem_takeWhile_imp hc
  simp [hc0] at hne

/-- A name without a terminator inside is its own string. -/
theorem cString_of_notMem {name : List UInt8} (hzero : 0 ∉ name) : cString name = name := by
  refine List.takeWhile_eq_self_iff.mpr ?_
  intro c hc
  rw [decide_eq_true_eq]
  rintro rfl
  exact hzero hc

/-- The hook is right exactly when a name that it does not skip does not
fill the array without a terminator, and has no terminator inside its
basename behind a text that is the armed name. -/
theorem hook_matches_iff (target : OnloadTarget) (ansiName : List UInt8) :
    Matches target ansiName ↔
      (ansiName.length ≤ imageNameSize →
        ¬ ((baseName ansiName).length = imageNameSize ∧ 0 ∉ baseName ansiName)
        ∧ ¬ (0 ∈ baseName ansiName ∧ target.active = true
            ∧ (cString (baseName ansiName)).map lowerAscii
              = (cString target.name).map lowerAscii)) := by
  unfold Matches hkMmLoadSystemImage
  -- A longer path is not compared, so nothing is missed and nothing is matched.
  by_cases hlong : imageNameSize < ansiName.length
  · rw [if_pos hlong]
    constructor
    · intro _ hlen
      omega
    · intro _ loaded hloaded
      cases hloaded
  · have hlen : ansiName.length ≤ imageNameSize := by omega
    rw [if_neg hlong]
    simp only [Option.some.injEq, forall_eq', hlen, true_imp_iff]
    have harray := imageNameArray_length hlen
    have hcompare : namesMatchArrays (imageNameArray ansiName) target.name
        = some (namesMatchNocase (cString (baseName ansiName)) (cString target.name)) := by
      have hsize : target.name.length ≤ (imageNameArray ansiName).length := by
        rw [harray, target.size]
        decide
      rw [namesMatchArrays_eq _ _ target.terminated hsize, cString_imageNameArray hlen]
    rw [hcompare, zero_mem_imageNameArray hlen]
    -- An inactive target matches no image.
    cases hactive : target.active with
    | false => simp [harray]
    | true =>
      simp only [if_true, Option.isSome_some, harray, Option.some.injEq, namesMatchNocase_iff,
        true_and]
      refine and_congr_right fun _ => ?_
      by_cases hzero : 0 ∈ baseName ansiName
      · simp [hzero, map_lower_ne_cString hzero]
      · simp [hzero, cString_of_notMem hzero]

/-- A name of 512 bytes without a backslash fills the array: no
terminator is left. -/
theorem unterminated_name : ¬ ∀ target ansiName, Matches target ansiName := by
  intro hall
  have hlen : (List.replicate imageNameSize 0x61 : List UInt8).length = imageNameSize :=
    List.length_replicate
  have hbase : baseName (List.replicate imageNameSize 0x61) = List.replicate imageNameSize 0x61 := by
    unfold baseName
    rw [List.reverse_replicate, List.takeWhile_replicate, if_pos (by decide), List.reverse_replicate]
  have hloaded : ∀ name : List UInt8, name.length = imageNameSize →
      hkMmLoadSystemImage .initial name = some ⟨imageNameArray name, some false⟩ := by
    intro name hname
    unfold hkMmLoadSystemImage
    rw [if_neg (by omega)]
    rfl
  have h := hall .initial (List.replicate imageNameSize 0x61) _ (hloaded _ hlen)
  refine (zero_mem_imageNameArray (Nat.le_of_eq hlen)).mp h.1.2 ?_
  rw [hbase]
  refine ⟨hlen, ?_⟩
  intro hmem
  exact absurd (List.eq_of_mem_replicate hmem) (by decide)

end Revhv.Onload
