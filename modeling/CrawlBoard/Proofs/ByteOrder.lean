import CrawlBoard.Text.Utf8

namespace CrawlBoard.Utf8

theorem toList_loop (bytes : ByteArray) (start : Nat) (seen : Bytes) :
    ByteArray.toList.loop bytes start seen = seen.reverse ++ bytes.data.toList.drop start := by
  fun_induction ByteArray.toList.loop bytes start seen with
  | case1 start seen inside ih =>
      have bound : start < bytes.data.toList.length := inside
      have byte : bytes.get! start = bytes.data.toList[start] := by
        simp [ByteArray.get!, inside]
      rw [ih, byte, List.reverse_cons, List.append_assoc, List.singleton_append,
        ← List.drop_eq_getElem_cons bound]
  | case2 start seen outside =>
      rw [List.drop_eq_nil_of_le (Nat.le_of_not_lt outside), List.append_nil]

theorem encode_eq_flatMap (text : String) :
    encode text = text.toList.flatMap String.utf8EncodeChar := by
  calc
    encode text = text.toByteArray.data.toList := toList_loop text.toByteArray 0 []
    _ = (text.toList.flatMap String.utf8EncodeChar).toByteArray.data.toList := by
      rw [← String.utf8Encode_toList]
      rfl
    _ = text.toList.flatMap String.utf8EncodeChar := List.toList_data_toByteArray

theorem ofNat_eq_ofNat_iff {first second : Nat} (firstByte : first < 256)
    (secondByte : second < 256) : UInt8.ofNat first = UInt8.ofNat second ↔ first = second := by
  rw [← UInt8.toNat_inj, UInt8.toNat_ofNat_of_lt' firstByte, UInt8.toNat_ofNat_of_lt' secondByte]

theorem ofNat_lt_ofNat_iff {first second : Nat} (firstByte : first < 256)
    (secondByte : second < 256) : UInt8.ofNat first < UInt8.ofNat second ↔ first < second :=
  UInt8.ofNat_lt_iff_lt firstByte secondByte

theorem encodeChar_append_lt {first second : Char} (smaller : first < second)
    (rest others : Bytes) :
    String.utf8EncodeChar first ++ rest < String.utf8EncodeChar second ++ others := by
  have values : first.val.toNat < second.val.toNat := smaller
  have bound : second.val.toNat < 0x110000 := by
    rcases second.valid with low | ⟨_, high⟩
    · exact Nat.lt_trans low (by decide)
    · exact high
  have twice (value : Nat) : value / 4096 = value / 64 / 64 := by omega
  have thrice (value : Nat) : value / 262144 = value / 64 / 64 / 64 := by omega
  -- Either the leads differ, or the numbers of bytes agree and so do all bytes up to one.
  simp only [String.utf8EncodeChar, twice, thrice]
  repeat' split
  all_goals
    simp (disch := omega) only [List.cons_append, List.nil_append, List.cons_lt_cons_iff,
      ofNat_lt_ofNat_iff, ofNat_eq_ofNat_iff]
    omega

theorem flatMap_encodeChar_lt {first second : List Char} (smaller : first < second) :
    first.flatMap String.utf8EncodeChar < second.flatMap String.utf8EncodeChar := by
  induction smaller with
  | @nil head tail =>
      obtain ⟨byte, bytes, encoded⟩ :=
        List.exists_cons_of_ne_nil (String.utf8EncodeChar_ne_nil : String.utf8EncodeChar head ≠ [])
      rw [List.flatMap_nil, List.flatMap_cons, encoded]
      exact List.nil_lt_cons ..
  | @cons head first second _ ih =>
      rw [List.flatMap_cons, List.flatMap_cons]
      exact List.append_left_lt ih
  | rel smaller =>
      rw [List.flatMap_cons, List.flatMap_cons]
      exact encodeChar_append_lt smaller ..

theorem encode_lt_of_lt {first second : String} (smaller : first < second) :
    encode first < encode second := by
  rw [encode_eq_flatMap, encode_eq_flatMap]
  exact flatMap_encodeChar_lt (String.lt_iff.mp smaller)

theorem encode_lt_iff (first second : String) : encode first < encode second ↔ first < second := by
  refine ⟨?_, encode_lt_of_lt⟩
  intro smaller
  refine Std.not_le.mp fun notSmaller => ?_
  by_cases same : first = second
  · exact List.lt_irrefl _ (same ▸ smaller)
  · have greater : second < first :=
      Std.lt_of_le_of_ne notSmaller (Ne.symm same)
    exact List.lt_asymm smaller (encode_lt_of_lt greater)

end CrawlBoard.Utf8
