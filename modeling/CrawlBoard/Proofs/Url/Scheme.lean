import CrawlBoard.Proofs.Url.WebAddress

namespace CrawlBoard.Url

def isSchemeChar (char : Char) : Bool :=
  char.isAlphanum || char = '+' || char = '-' || char = '.'

structure IsScheme (scheme : String) : Prop where
  lower : ∀ char ∈ scheme.toList, isSchemeChar char = true ∧ char.toLower = char
  letter : ∃ first ∈ scheme.toList.head?, first.isAlpha = true

theorem ascii_of_isSchemeChar {char : Char} (inside : isSchemeChar char = true) :
    char.toNat < 128 := by
  unfold isSchemeChar Char.isAlphanum Char.isAlpha Char.isUpper Char.isLower at inside
  simp only [Char.isDigit, Bool.or_eq_true, Bool.and_eq_true, decide_eq_true_eq,
    UInt32.le_iff_toNat_le] at inside
  rcases inside with (((((upper | lower) | digit) | rfl) | rfl) | rfl)
  · exact Nat.lt_of_le_of_lt upper.2 (by decide)
  · exact Nat.lt_of_le_of_lt lower.2 (by decide)
  · exact Nat.lt_of_le_of_lt digit.2 (by decide)
  · decide
  · decide
  · decide

theorem visible_of_isSchemeChar {char : Char} (inside : isSchemeChar char = true) :
    0x20 < char.toNat :=
  Utf8.of_ascii (fun char => isSchemeChar char = true → 0x20 < char.toNat)
    (ascii_of_isSchemeChar inside) (by decide) inside

theorem toLower_of_isSchemeChar {char : Char} (inside : isSchemeChar char = true) :
    isSchemeChar char.toLower = true ∧ char.toLower.toLower = char.toLower ∧
      char.toLower.isAlpha = char.isAlpha :=
  Utf8.of_ascii (fun char => isSchemeChar char = true → isSchemeChar char.toLower = true ∧
      char.toLower.toLower = char.toLower ∧ char.toLower.isAlpha = char.isAlpha)
    (ascii_of_isSchemeChar inside) (by decide) inside

theorem isScheme_of_scheme? {text rest : List Char} {scheme : String}
    (read : scheme? text = some (scheme, rest)) : IsScheme scheme := by
  unfold scheme? at read
  dsimp only at read
  split at read
  · rename_i first name others taken _
    split at read
    · rename_i letter
      cases read
      have inside (char : Char) (member : char ∈ first :: name) : isSchemeChar char = true := by
        have all : (text.takeWhile isSchemeChar).all isSchemeChar = true := List.all_takeWhile
        exact List.all_eq_true.mp all char (taken ▸ member)
      constructor
      · intro char member
        rw [String.toList_ofList] at member
        obtain ⟨source, given, rfl⟩ := List.mem_map.mp member
        have lowered := toLower_of_isSchemeChar (inside source given)
        exact ⟨lowered.1, lowered.2.1⟩
      · refine ⟨first.toLower, by rw [String.toList_ofList]; rfl, ?_⟩
        exact (toLower_of_isSchemeChar (inside first List.mem_cons_self)).2.2.trans letter
    · cases read
  · cases read

theorem isScheme_of_parse [DomainNames] {text : String} {url : Url} (parsed : parse text = .ok url) :
    IsScheme url.scheme := by
  unfold parse at parsed
  split at parsed
  · cases parsed
  · rename_i scheme rest read
    have isScheme := isScheme_of_scheme? read
    split at parsed
    · exact WebAddress.scheme_of_afterSlashes parsed ▸ isScheme
    · split at parsed
      · rename_i isFile
        exact WebAddress.scheme_of_file parsed ▸ isFile ▸ isScheme
      · split at parsed
        · exact WebAddress.scheme_of_afterSlashes parsed ▸ isScheme
        · cases parsed
          exact isScheme

namespace IsScheme

variable {scheme : String} (isScheme : IsScheme scheme)

include isScheme

theorem scheme?_append (rest : List Char) :
    scheme? (scheme.toList ++ ':' :: rest) = some (scheme, rest) := by
  have taken : (scheme.toList ++ ':' :: rest).takeWhile isSchemeChar = scheme.toList := by
    rw [List.takeWhile_append_of_pos fun char member => (isScheme.lower char member).1,
      List.takeWhile_cons_of_neg (by decide), List.append_nil]
  have left : (scheme.toList ++ ':' :: rest).dropWhile isSchemeChar = ':' :: rest := by
    rw [List.dropWhile_append_of_pos fun char member => (isScheme.lower char member).1,
      List.dropWhile_cons_of_neg (by decide)]
  have kept : scheme.toList.map Char.toLower = scheme.toList :=
    (List.map_congr_left fun char member => (isScheme.lower char member).2).trans (List.map_id' _)
  obtain ⟨first, found, letter⟩ := isScheme.letter
  have shape : ∃ name, scheme.toList = first :: name := by
    cases chars : scheme.toList with
    | nil => simp [chars] at found
    | cons other name =>
        rw [chars] at found
        cases found
        exact ⟨name, rfl⟩
  obtain ⟨name, shape⟩ := shape
  unfold isSchemeChar at taken left
  unfold scheme?
  dsimp only
  rw [taken, left]
  rw [shape] at kept ⊢
  simp only [letter, if_true, kept]
  rw [← shape, String.ofList_toList]

theorem clean_append (rest : List Char) :
    ∃ others, clean (scheme.toList ++ ':' :: rest) = scheme.toList ++ ':' :: others := by
  have visible : Visible (scheme.toList ++ [':']) :=
    Visible.append (fun char member => visible_of_isSchemeChar (isScheme.lower char member).1)
      (fun char member => List.mem_singleton.mp member ▸ (by decide))
  have kept := Url.clean_append visible (by simp) rest
  rw [List.append_assoc, List.append_assoc] at kept
  exact ⟨_, kept⟩

theorem scheme_of_parse [DomainNames] {rest : List Char} {url : Url}
    (parsed : parse (String.ofList (scheme.toList ++ ':' :: rest)) = .ok url) :
    url.scheme = scheme := by
  obtain ⟨others, kept⟩ := isScheme.clean_append rest
  simp only [parse, String.toList_ofList, kept, isScheme.scheme?_append] at parsed
  split at parsed
  · exact WebAddress.scheme_of_afterSlashes parsed
  · split at parsed
    · rename_i isFile
      rw [WebAddress.scheme_of_file parsed, isFile]
    · split at parsed
      · exact WebAddress.scheme_of_afterSlashes parsed
      · cases parsed
        rfl

end IsScheme

end CrawlBoard.Url
