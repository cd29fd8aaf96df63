import CrawlBoard.Proofs.Entity

namespace CrawlBoard.Entity

def isMarkup (char : Char) : Bool := "<>\"'".toList.contains char

def htmlEntities : Table :=
  [("lt;".toList, '<'), ("gt;".toList, '>'), ("quot;".toList, '"'), ("#x27;".toList, '\''),
    ("amp;".toList, '&')]

def unescapeHtml (text : String) : String := String.ofList (decode htmlEntities text.toList)

/-- Neither markup nor an ampersand that begins no entity. -/
inductive Escaped : List Char → Prop where
  | nil : Escaped []
  | plain {char : Char} {rest : List Char} (text : isMarkup char = false) (other : char ≠ '&')
      (behind : Escaped rest) : Escaped (char :: rest)
  | entity {named : List Char × Char} {rest : List Char} (known : named ∈ htmlEntities)
      (behind : Escaped rest) : Escaped ('&' :: (named.1 ++ rest))

theorem Escaped.not_markup {text : List Char} (escaped : Escaped text) :
    ∀ char ∈ text, isMarkup char = false := by
  induction escaped with
  | nil => exact fun _ member => nomatch member
  | plain text _ _ ih => exact List.forall_mem_cons.mpr ⟨text, ih⟩
  | entity known _ ih =>
      have name : ∀ named ∈ htmlEntities, ∀ char ∈ named.1, isMarkup char = false := by decide
      exact List.forall_mem_cons.mpr ⟨rfl, List.forall_mem_append.mpr ⟨name _ known, ih⟩⟩

theorem escapeHtmlChar_cases (char : Char) :
    (∃ named ∈ htmlEntities, named.2 = char ∧ escapeHtmlChar char = '&' :: named.1) ∨
      (isMarkup char = false ∧ char ≠ '&' ∧ escapeHtmlChar char = [char]) := by
  unfold escapeHtmlChar
  split
  · exact .inl ⟨("lt;".toList, '<'), by decide, rfl, rfl⟩
  · exact .inl ⟨("gt;".toList, '>'), by decide, rfl, rfl⟩
  · exact .inl ⟨("quot;".toList, '"'), by decide, rfl, rfl⟩
  · exact .inl ⟨("#x27;".toList, '\''), by decide, rfl, rfl⟩
  · exact .inl ⟨("amp;".toList, '&'), by decide, rfl, rfl⟩
  · rename_i notLess notGreater notDouble notSingle notAmpersand
    refine .inr ⟨?_, notAmpersand, rfl⟩
    simpa [isMarkup] using ⟨notLess, notGreater, notDouble, notSingle⟩

theorem escaped_flatMap (chars : List Char) : Escaped (chars.flatMap escapeHtmlChar) := by
  induction chars with
  | nil => exact .nil
  | cons char chars ih =>
      rw [List.flatMap_cons]
      obtain ⟨named, known, -, written⟩ | ⟨text, other, written⟩ := escapeHtmlChar_cases char
      · exact written ▸ .entity known ih
      · exact written ▸ .plain text other ih

theorem escaped_escapeHtml (text : String) : Escaped (escapeHtml text).toList := by
  rw [escapeHtml, String.toList_ofList]
  exact escaped_flatMap text.toList

theorem unescapeHtml_escapeHtml (text : String) : unescapeHtml (escapeHtml text) = text := by
  rw [unescapeHtml, escapeHtml, String.toList_ofList,
    decode_flatMap (by decide) fun char => (escapeHtmlChar_cases char).imp_right And.right,
    String.ofList_toList]

end CrawlBoard.Entity
