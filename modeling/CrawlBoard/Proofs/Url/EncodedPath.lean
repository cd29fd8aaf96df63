import CrawlBoard.Proofs.Percent
import CrawlBoard.Proofs.Url.Path

namespace CrawlBoard

namespace Percent

theorem dots_encode (text : String) :
    encode text = "." ∨ encode text = ".." ∨ Url.dots (encode text) = 0 := by
  have chars : (encode text).toList = (Utf8.encode text).flatMap encodeByte := by
    rw [encode, String.toList_ofList, encodeChars]
  have none {others : Utf8.Bytes} (same : (others.flatMap encodeByte).map Char.toLower = []) :
      others.flatMap encodeByte = [] := List.map_eq_nil_iff.mp same
  by_cases listed : (encode text).toList.map Char.toLower ∈ Url.dotTexts.map String.toList
  · rw [chars] at listed
    simp only [Url.dotTexts, List.map_cons, List.map_nil, List.mem_cons, List.not_mem_nil, or_false]
      at listed
    rcases listed with one | escape | two | second | first | both
    · obtain ⟨others, shape, rest⟩ := flatMap_encodeByte_of_dot one
      rw [none rest] at shape
      exact .inl (String.toList_inj.mp (chars.trans shape))
    · exact absurd escape (not_dotEscape _ [])
    · obtain ⟨others, shape, rest⟩ := flatMap_encodeByte_of_dot two
      obtain ⟨last, shape', rest'⟩ := flatMap_encodeByte_of_dot rest
      rw [shape', none rest'] at shape
      exact .inr (.inl (String.toList_inj.mp (chars.trans shape)))
    · obtain ⟨others, -, rest⟩ := flatMap_encodeByte_of_dot second
      exact absurd rest (not_dotEscape _ [])
    · exact absurd first (not_dotEscape _ ['.'])
    · exact absurd both (not_dotEscape _ dotEscape)
  · exact .inr (.inr (Url.dots_eq_zero listed))

theorem settled_of_isEncoded {char : Char} (encoded : isEncoded char = true) :
    (char.toNat < 128 ∧ UrlEscape.path (UInt8.ofNat char.toNat) = false) ∧
      (char.toNat < 128 ∧ UrlEscape.specialQuery (UInt8.ofNat char.toNat) = false) ∧
      Url.isSlash true char = false := by
  have ascii := ascii_of_isEncoded encoded
  have free := Utf8.of_ascii (fun char => isEncoded char = true →
    UrlEscape.path (UInt8.ofNat char.toNat) = false ∧
      UrlEscape.specialQuery (UInt8.ofNat char.toNat) = false ∧ Url.isSlash true char = false) ascii
    (by decide +kernel) encoded
  exact ⟨⟨ascii, free.1⟩, ⟨ascii, free.2.1⟩, free.2.2⟩

theorem clean_encode (text : String) : Url.Clean (encode text) where
  settled _ member := (settled_of_isEncoded (isEncoded_of_mem_encode member)).1
  whole _ member := (settled_of_isEncoded (isEncoded_of_mem_encode member)).2.2

end Percent

namespace Url

theorem intercalate_slash (first : String) (parts : List String) :
    ['/'].intercalate ((first :: parts).map String.toList) = first.toList ++ pathChars parts := by
  induction parts generalizing first with
  | nil => simp [pathChars]
  | cons next parts ih =>
      rw [List.map_cons, List.map_cons, List.intercalate_cons_cons, ← List.map_cons, ih]
      simp [pathChars]

theorem splitOn_pathChars {parts : List String} (clean : ∀ part ∈ parts, Clean part) :
    Search.splitOn '/' (pathChars parts) = [] :: parts.map String.toList := by
  have shape := intercalate_slash "" parts
  rw [String.toList_empty, List.nil_append] at shape
  rw [← shape, Search.splitOn_intercalate _ (by simp)]
  · rfl
  · intro piece present slash
    obtain ⟨part, member, rfl⟩ := List.mem_map.mp present
    rcases List.mem_cons.mp member with rfl | member
    · cases slash
    · exact absurd ((clean part member).whole '/' slash) (by decide)

theorem pathChars_inj {first second : List String} (clean : ∀ part ∈ first, Clean part)
    (alsoClean : ∀ part ∈ second, Clean part) (same : pathChars first = pathChars second) :
    first = second := by
  have pieces := congrArg (Search.splitOn '/') same
  rw [splitOn_pathChars clean, splitOn_pathChars alsoClean] at pieces
  exact (List.map_inj_right fun _ _ => String.toList_inj.mp).mp (List.cons.inj pieces).2

end Url

theorem Percent.toList_encodePath (text : String) :
    (encodePath ("/" ++ text)).toList =
      Url.pathChars
        ((Search.splitOn '/' text.toList).map fun segment => encode (String.ofList segment)) := by
  have cut : Search.splitOn '/' ("/" ++ text).toList = [] :: Search.splitOn '/' text.toList := by
    rw [String.toList_append]
    rfl
  have empty : encode (String.ofList []) = "" := by
    rw [encode, encodeChars, Utf8.encode_ofList]
    rfl
  have shape := Url.intercalate_slash ""
    ((Search.splitOn '/' text.toList).map fun segment => encode (String.ofList segment))
  rw [encodePath, String.toList_intercalate, cut, List.map_cons, empty]
  exact shape

end CrawlBoard
