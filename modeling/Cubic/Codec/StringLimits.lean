import Cubic.Codec.BitSetCodec
import Cubic.Lib.Utf8

/-!
# Strings under two limits

A string that was read keeps the limits of the read, and can be read and written under any limits
that it keeps.
-/

namespace Cubic

set_option autoImplicit false

theorem length_utf8Bytes (s : String) : (utf8Bytes s).length = Utf8.size s.toList := by
  rw [← Utf8.utf8ByteSize_ofList, String.ofList_toList]
  rfl

/-- A character takes as many bytes as UTF-16 units, or more. -/
theorem utf16Units_le (s : String) : utf16Units s ≤ (utf8Bytes s).length := by
  rw [length_utf8Bytes]
  unfold utf16Units Utf8.size
  refine List.sum_le_sum fun c _ => ?_
  split
  · exact c.utf8Size_pos
  · rename_i hwide
    have hval : 0xffff < c.val := by
      rw [UInt32.lt_iff_toNat_lt] at hwide ⊢
      exact Nat.le_of_not_lt hwide
    rw [Char.utf8Size_eq_four_iff.mpr hval]
    decide

theorem readString_ok {limits : StringLimits} {s t : CodecReader} {value : String}
    (h : readString limits s = .ok value t) : utf16Units value ≤ limits.maxUtf16Units ∧
      (utf8Bytes value).length ≤ limits.maxEncodedBytes := by
  obtain ⟨length, _, _, h⟩ := Mut.bind_eq_ok.mp h
  split at h
  · cases h
  · rename_i hlength
    obtain ⟨bytes, _, hbytes, h⟩ := Mut.bind_eq_ok.mp h
    cases hutf8 : fromUtf8 bytes with
    | none =>
      rw [hutf8] at h
      cases h
    | some text =>
      rw [hutf8] at h
      dsimp only at h
      split at h
      · cases h
      · rename_i hunits
        cases h
        rw [utf8Bytes_of_fromUtf8 hutf8, (readBytes_eq_ok hbytes).1]
        exact ⟨Nat.not_lt.mp hunits, Nat.not_lt.mp hlength⟩

theorem writeString_eq (limits : StringLimits) {value : String}
    (hunits : utf16Units value ≤ limits.maxUtf16Units)
    (hbytes : (utf8Bytes value).length ≤ limits.maxEncodedBytes)
    (hmax : (utf8Bytes value).length ≤ i32Max) : writeString value limits =
      .ok (writeVarInt (.ofNat (utf8Bytes value).length) ++ utf8Bytes value) := by
  rw [writeString, if_neg (Nat.not_lt.mpr hunits), if_neg (Nat.not_lt.mpr hbytes), writeLength,
    if_pos hmax]
  rfl

end Cubic
