import CrawlBoard.Proofs.ByteOrder
import CrawlBoard.Proofs.Search

namespace CrawlBoard.Utf8

theorem encode_append (first second : String) :
    encode (first ++ second) = encode first ++ encode second := by
  rw [encode_eq_flatMap, encode_eq_flatMap, encode_eq_flatMap, String.toList_append,
    List.flatMap_append]

theorem encode_ofList (chars : List Char) :
    encode (String.ofList chars) = chars.flatMap String.utf8EncodeChar := by
  rw [encode_eq_flatMap, String.toList_ofList]

theorem decode?_encode (text : String) : decode? (encode text) = some text := by
  have bytes : (⟨(encode text).toArray⟩ : ByteArray) = text.toByteArray := by
    have listed : encode text = text.toByteArray.data.toList := toList_loop text.toByteArray 0 []
    rw [listed]
  unfold decode? String.fromUTF8?
  rw [bytes, dif_pos text.isValidUTF8]
  rfl

theorem encode_injective : Function.Injective encode := by
  intro first second same
  have read := congrArg decode? same
  rw [decode?_encode, decode?_encode] at read
  exact Option.some.inj read

theorem of_ascii (holds : Char → Prop) {char : Char} (ascii : char.toNat < 128)
    (all : ∀ value < 128, holds (Char.ofNat value)) : holds char := by
  have found := all char.toNat ascii
  rwa [Char.ofNat_toNat] at found

theorem of_byte (holds : UInt8 → Prop) (byte : UInt8)
    (all : ∀ value < 256, holds (UInt8.ofNat value)) : holds byte := by
  have found := all byte.toNat byte.toNat_lt
  rwa [UInt8.ofNat_toNat] at found

theorem encodeChar_of_ascii {char : Char} (ascii : char.toNat < 128) :
    String.utf8EncodeChar char = [UInt8.ofNat char.toNat] := by
  have small : char.val.toNat ≤ 127 := Nat.le_of_lt_succ ascii
  simp only [String.utf8EncodeChar, small, if_true]
  rfl

theorem flatMap_encodeChar_of_ascii {chars : List Char} (ascii : ∀ char ∈ chars, char.toNat < 128) :
    chars.flatMap String.utf8EncodeChar = chars.map fun char => UInt8.ofNat char.toNat := by
  induction chars with
  | nil => rfl
  | cons char chars ih =>
      rw [List.flatMap_cons, List.map_cons, encodeChar_of_ascii (ascii char List.mem_cons_self),
        ih fun other member => ascii other (List.mem_cons_of_mem _ member)]
      rfl

theorem encode_of_ascii {text : String} {bytes : Bytes}
    (same : text = String.ofList (bytes.map fun byte => Char.ofNat byte.toNat))
    (ascii : bytes.all (fun byte => byte.toNat < 128) = true) : encode text = bytes := by
  have values : ∀ value < 128, (Char.ofNat value).toNat = value := by decide
  have back (byte : UInt8) (member : byte ∈ bytes) :
      (Char.ofNat byte.toNat).toNat = byte.toNat ∧ byte.toNat < 128 := by
    have low : byte.toNat < 128 := of_decide_eq_true (List.all_eq_true.mp ascii byte member)
    exact ⟨values _ low, low⟩
  rw [same, encode_ofList, flatMap_encodeChar_of_ascii, List.map_map]
  · refine (List.map_congr_left fun byte member => ?_).trans (List.map_id _)
    simp only [Function.comp, (back byte member).1, UInt8.ofNat_toNat, id]
  · intro char member
    obtain ⟨byte, inside, rfl⟩ := List.mem_map.mp member
    rw [(back byte inside).1]
    exact (back byte inside).2

theorem high_of_mem_encodeChar {char : Char} (beyond : 128 ≤ char.toNat) {byte : UInt8}
    (member : byte ∈ String.utf8EncodeChar char) : 128 ≤ byte.toNat := by
  have large : ¬ char.val.toNat ≤ 127 := Nat.not_le.mpr beyond
  simp only [String.utf8EncodeChar, large, if_false] at member
  have bound (value low : Nat) (fits : value + low < 256) (high : 128 ≤ low) :
      128 ≤ (UInt8.ofNat (value + low)).toNat := by
    rw [UInt8.toNat_ofNat_of_lt' fits]
    omega
  split at member
  · simp only [List.mem_cons, List.not_mem_nil, or_false] at member
    rcases member with rfl | rfl <;> exact bound _ _ (by omega) (by decide)
  · split at member
    · simp only [List.mem_cons, List.not_mem_nil, or_false] at member
      rcases member with rfl | rfl | rfl <;> exact bound _ _ (by omega) (by decide)
    · simp only [List.mem_cons, List.not_mem_nil, or_false] at member
      rcases member with rfl | rfl | rfl | rfl <;> exact bound _ _ (by omega) (by decide)

end CrawlBoard.Utf8
