import CrawlBoard.Proofs.Encoding
import CrawlBoard.Url.Escape

namespace CrawlBoard.UrlEscape

def escapeChars : List Char := "%0123456789ABCDEF".toList

theorem mem_escapeChars {byte : UInt8} {char : Char} (member : char ∈ Percent.escape byte) :
    char ∈ escapeChars := by
  have digit : ∀ value < 16, Percent.upperDigit value ∈ escapeChars := by decide
  have bound := byte.toNat_lt
  simp only [Percent.escape, List.mem_cons, List.not_mem_nil, or_false] at member
  rcases member with rfl | rfl | rfl
  · decide
  · exact digit _ (by omega)
  · exact digit _ (by omega)

structure Proper (escaped : UInt8 → Bool) : Prop where
  controls : ∀ byte, control byte = true → escaped byte = true
  settled : ∀ char ∈ escapeChars, escaped (UInt8.ofNat char.toNat) = false

theorem proper_fragment : Proper fragment := ⟨fun _ found => by simp [fragment, found], by decide⟩

theorem proper_path : Proper path :=
  ⟨fun _ found => by simp [path, fragment, found], by decide⟩

theorem proper_user : Proper user :=
  ⟨fun _ found => by simp [user, path, fragment, found], by decide⟩

theorem proper_specialQuery : Proper specialQuery :=
  ⟨fun _ found => by simp [specialQuery, query, found], by decide⟩

def Settled (escaped : UInt8 → Bool) (chars : List Char) : Prop :=
  ∀ char ∈ chars, char.toNat < 128 ∧ escaped (UInt8.ofNat char.toNat) = false

theorem Settled.apply {escaped : UInt8 → Bool} {chars : List Char}
    (settled : Settled escaped chars) : UrlEscape.apply escaped chars = String.ofList chars := by
  have kept (char : Char) (member : char ∈ chars) :
      (if escaped (UInt8.ofNat char.toNat) then Percent.escape (UInt8.ofNat char.toNat)
        else [Char.ofNat (UInt8.ofNat char.toNat).toNat]) = [char] := by
    obtain ⟨ascii, free⟩ := settled char member
    rw [free, UInt8.toNat_ofNat_of_lt' (Nat.lt_trans ascii (by decide)), Char.ofNat_toNat]
    rfl
  rw [UrlEscape.apply, Utf8.encode_ofList,
    Utf8.flatMap_encodeChar_of_ascii fun char member => (settled char member).1, List.flatMap_map,
    List.flatMap_def, List.map_congr_left kept, ← List.flatMap_def, List.flatMap_singleton']

theorem Proper.mem_apply {escaped : UInt8 → Bool} (proper : Proper escaped) {text : List Char}
    {char : Char} (member : char ∈ (UrlEscape.apply escaped text).toList) :
    (char.toNat < 128 ∧ escaped (UInt8.ofNat char.toNat) = false) ∧
      (char ∈ escapeChars ∨ char ∈ text) := by
  rw [UrlEscape.apply, Utf8.encode_ofList, String.toList_ofList, List.mem_flatMap] at member
  obtain ⟨byte, inText, member⟩ := member
  split at member
  · have inEscape := mem_escapeChars member
    have ascii : ∀ char ∈ escapeChars, char.toNat < 128 := by decide
    exact ⟨⟨ascii char inEscape, proper.settled char inEscape⟩, .inl inEscape⟩
  · rename_i free
    obtain rfl := List.mem_singleton.mp member
    obtain ⟨source, inSource, ofSource⟩ := List.mem_flatMap.mp inText
    have noControl : control byte ≠ true := fun found => free (proper.controls byte found)
    have small : byte.toNat < 128 := by
      simp only [control, ne_eq, Bool.or_eq_true, decide_eq_true_eq, not_or, UInt8.not_le] at noControl
      have bound := UInt8.lt_iff_toNat_lt.mp noControl.2
      exact Nat.lt_trans bound (by decide)
    have ascii : source.toNat < 128 := by
      refine Nat.lt_of_not_le fun beyond => ?_
      have high := Utf8.high_of_mem_encodeChar beyond ofSource
      omega
    rw [Utf8.encodeChar_of_ascii ascii, List.mem_singleton] at ofSource
    subst ofSource
    rw [UInt8.toNat_ofNat_of_lt' (Nat.lt_trans ascii (by decide)), Char.ofNat_toNat]
    exact ⟨⟨ascii, by simpa using free⟩, .inr inSource⟩

theorem Proper.settled_apply {escaped : UInt8 → Bool} (proper : Proper escaped) (text : List Char) :
    Settled escaped (UrlEscape.apply escaped text).toList :=
  fun _ member => (proper.mem_apply member).1

theorem apply_ne_nil (escaped : UInt8 → Bool) {text : List Char} (given : text ≠ []) :
    (UrlEscape.apply escaped text).toList ≠ [] := by
  cases text with
  | nil => exact absurd rfl given
  | cons char text =>
      rw [UrlEscape.apply, Utf8.encode_ofList, String.toList_ofList, List.flatMap_cons,
        List.flatMap_append]
      cases shape : String.utf8EncodeChar char with
      | nil => exact absurd shape String.utf8EncodeChar_ne_nil
      | cons byte bytes =>
          rw [List.flatMap_cons]
          split <;> simp [Percent.escape]

end CrawlBoard.UrlEscape
