import CrawlBoard.Proofs.Search
import CrawlBoard.Text.Entity
import Mathlib.Data.List.Find
/-!
Replacing the five predefined entities one after the other is the same as decoding each of them
once from left to right, so what is escaped comes back.
-/

namespace CrawlBoard.Entity

abbrev Table := List (List Char × Char)

def Table.find? (table : Table) (char : Char) (rest : List Char) : Option (List Char × Char) :=
  if char = '&' then List.find? (fun entity => entity.1.isPrefixOf rest) table else none

/-- One pass from left to right; what has been decoded is not looked at again. -/
def decode (table : Table) : List Char → List Char
  | [] => []
  | char :: rest =>
      match table.find? char rest with
      | some (name, decoded) => decoded :: decode table (rest.drop name.length)
      | none => char :: decode table rest
  termination_by text => text.length
  decreasing_by all_goals simp only [List.length_drop, List.length_cons]; omega

def predefined : Table :=
  [("lt;".toList, '<'), ("gt;".toList, '>'), ("quot;".toList, '"'), ("apos;".toList, '\''),
    ("amp;".toList, '&')]

section Pass

variable {table : Table} {char : Char} {rest : List Char}

theorem decode_of_find {entity : List Char × Char} (found : table.find? char rest = some entity) :
    decode table (char :: rest) = entity.2 :: decode table (rest.drop entity.1.length) := by
  rw [decode, found]

theorem decode_of_none (missing : table.find? char rest = none) :
    decode table (char :: rest) = char :: decode table rest := by
  rw [decode, missing]

theorem decode_nil (text : List Char) : decode [] text = text := by
  induction text with
  | nil => rw [decode]
  | cons char rest ih => rw [decode_of_none (by simp [Table.find?]), ih]

theorem Table.eq_of_find {entity : List Char × Char} (found : table.find? char rest = some entity) :
    char = '&' ∧ entity ∈ table := by
  unfold Table.find? at found
  split at found
  · exact ⟨‹_›, List.mem_of_find?_eq_some found⟩
  · cases found

theorem Table.begins_of_find {entity : List Char × Char}
    (found : table.find? char rest = some entity) : entity.1.isPrefixOf rest = true := by
  unfold Table.find? at found
  split at found
  · have begins := List.find?_some found
    exact begins
  · cases found

theorem Table.find?_append (last : List Char × Char) :
    (table ++ [last]).find? char rest =
      (table.find? char rest).or
        (if char = '&' ∧ last.1.isPrefixOf rest then some last else none) := by
  unfold Table.find?
  by_cases ampersand : char = '&'
  · rw [if_pos ampersand, if_pos ampersand, List.find?_append]
    by_cases begins : last.1.isPrefixOf rest <;> simp [begins, ampersand]
  · rw [if_neg ampersand, if_neg ampersand, if_neg fun both => ampersand both.1]
    rfl

theorem isPrefixOf_decode {name : List Char}
    (apart : ∀ letter ∈ name, letter ≠ '&' ∧ ∀ entity ∈ table, letter ≠ entity.2)
    (text : List Char) :
    name.isPrefixOf (decode table text) = name.isPrefixOf text ∧
      (name.isPrefixOf text = true →
        (decode table text).drop name.length = decode table (text.drop name.length)) := by
  induction name generalizing text with
  | nil => exact ⟨rfl, fun _ => rfl⟩
  | cons letter name ih =>
      have ⟨notAmpersand, notDecoded⟩ := apart letter List.mem_cons_self
      cases text with
      | nil =>
          rw [decode]
          exact ⟨rfl, fun begins => nomatch begins⟩
      | cons char rest =>
          -- What is decoded here begins with an ampersand and ends in a character that the name
          -- lacks.
          cases found : table.find? char rest with
          | some entity =>
              have ⟨ampersand, member⟩ := Table.eq_of_find found
              have otherThanDecoded : (letter == entity.2) = false := by
                simpa using notDecoded entity member
              have otherThanRead : (letter == char) = false := by
                simpa [ampersand] using notAmpersand
              rw [decode_of_find found]
              simp [List.isPrefixOf, otherThanDecoded, otherThanRead]
          | none =>
              have ⟨same, behind⟩ :=
                ih (fun other member => apart other (List.mem_cons_of_mem _ member)) rest
              rw [decode_of_none found]
              simp only [List.isPrefixOf, same, Bool.and_eq_true, List.length_cons,
                List.drop_succ_cons]
              exact ⟨trivial, fun both => behind both.2⟩

theorem replaceAll_decode {name : List Char} {decoded : Char}
    (apart : ∀ letter ∈ name, letter ≠ '&' ∧ ∀ entity ∈ table, letter ≠ entity.2)
    (noAmpersand : ∀ entity ∈ table, entity.2 ≠ '&') (text : List Char) :
    replaceAll '&' name [decoded] (decode table text) = decode (table ++ [(name, decoded)]) text := by
  -- On the length, as an entity that is decoded takes its whole name with it.
  induction length : text.length using Nat.strongRecOn generalizing text with
  | ind count ih =>
    cases text with
    | nil => rw [decode, decode, replaceAll]
    | cons char rest =>
        have shorter (dropped : Nat) := ih (rest.drop dropped).length
          (by rw [← length, List.length_drop, List.length_cons]; omega) _ rfl
        have next : (table ++ [(name, decoded)]).find? char rest = _ := Table.find?_append _
        cases found : table.find? char rest with
        | some entity =>
            obtain ⟨_, member⟩ := Table.eq_of_find found
            rw [found, Option.some_or] at next
            rw [decode_of_find found, decode_of_find next, replaceAll, if_neg, shorter]
            simp [List.isPrefixOf, (noAmpersand entity member).symm]
        | none =>
            obtain ⟨same, behind⟩ := isPrefixOf_decode apart rest
            rw [found, Option.none_or] at next
            rw [decode_of_none found, replaceAll]
            by_cases begins : char = '&' ∧ name.isPrefixOf rest
            · rw [if_pos begins] at next
              rw [decode_of_find next, if_pos (by simp [List.isPrefixOf, begins.1, same, begins.2]),
                behind begins.2, shorter]
              rfl
            · rw [if_neg begins] at next
              rw [decode_of_none next, if_neg]
              · exact congrArg (char :: ·) (shorter 0)
              intro both
              simp only [List.isPrefixOf, same, Bool.and_eq_true, beq_iff_eq] at both
              exact begins ⟨both.1.symm, both.2⟩

theorem isPrefixOf_append_ampersand {name : List Char} (plain : '&' ∉ name)
    (before rest : List Char) :
    name.isPrefixOf (before ++ '&' :: rest) = name.isPrefixOf before := by
  induction name generalizing before with
  | nil => rfl
  | cons letter name ih =>
      obtain ⟨other, plain⟩ := List.ne_and_not_mem_of_not_mem_cons plain
      cases before with
      | nil => simp [List.isPrefixOf, other.symm]
      | cons char before => simp only [List.cons_append, List.isPrefixOf, ih plain]

theorem Table.find?_append_ampersand (plain : ∀ entity ∈ table, '&' ∉ entity.1)
    (before : List Char) : table.find? char (before ++ '&' :: rest) = table.find? char before := by
  unfold Table.find?
  split
  · exact List.find?_congr fun entity member =>
      isPrefixOf_append_ampersand (plain entity member) before rest
  · rfl

/-- What stands in front of an ampersand is decoded by itself. -/
theorem decode_append_ampersand (plain : ∀ entity ∈ table, '&' ∉ entity.1)
    (before rest : List Char) :
    decode table (before ++ '&' :: rest) = decode table before ++ decode table ('&' :: rest) := by
  fun_induction decode table before with
  | case1 => rfl
  | case2 char before name decoded found ih =>
      have begins : name.isPrefixOf before = true := Table.begins_of_find found
      have inside : name.length ≤ before.length :=
        (List.isPrefixOf_iff_prefix.mp begins).length_le
      rw [List.cons_append, decode_of_find ((Table.find?_append_ampersand plain before).trans found),
        List.drop_append_of_le_length inside, ih]
      rfl
  | case3 char before missing ih =>
      rw [List.cons_append,
        decode_of_none ((Table.find?_append_ampersand plain before).trans missing), ih]
      rfl

theorem decode_of_missing {text : List Char}
    (missing : ∀ entity ∈ table, ¬ '&' :: entity.1 <:+: text) : decode table text = text := by
  induction text with
  | nil => rw [decode]
  | cons char rest ih =>
      have none : table.find? char rest = none := by
        refine Option.eq_none_iff_forall_ne_some.mpr fun entity found => ?_
        obtain ⟨ampersand, member⟩ := Table.eq_of_find found
        have begins := List.isPrefixOf_iff_prefix.mp (Table.begins_of_find found)
        subst ampersand
        exact missing entity member ((List.prefix_cons_inj '&').mpr begins).isInfix
      rw [decode_of_none none, ih fun entity member inside =>
        missing entity member (inside.trans (List.suffix_cons char rest).isInfix)]

section Apart

variable (apart : ∀ entity ∈ table, ∀ other ∈ table, other.1 <+: entity.1 → other = entity)
include apart

theorem Table.find?_of_mem {entity : List Char × Char} (known : entity ∈ table)
    (rest : List Char) : table.find? '&' (entity.1 ++ rest) = some entity := by
  cases found : table.find? '&' (entity.1 ++ rest) with
  | none =>
      rw [Table.find?, if_pos rfl] at found
      have missing := List.find?_eq_none.mp found entity known
      exact absurd (List.isPrefixOf_iff_prefix.mpr (List.prefix_append _ _)) missing
  | some other =>
      have member := (Table.eq_of_find found).2
      have begins := List.isPrefixOf_iff_prefix.mp (Table.begins_of_find found)
      rcases List.prefix_or_prefix_of_prefix begins (List.prefix_append _ _) with shorter | longer
      · rw [apart entity known other member shorter]
      · rw [apart other member entity known longer]

theorem decode_of_mem {entity : List Char × Char} (known : entity ∈ table) (rest : List Char) :
    decode table ('&' :: (entity.1 ++ rest)) = entity.2 :: decode table rest := by
  rw [decode_of_find (Table.find?_of_mem apart known rest), List.drop_left]

theorem decode_flatMap {escape : Char → List Char}
    (escapes : ∀ char, (∃ entity ∈ table, entity.2 = char ∧ escape char = '&' :: entity.1) ∨
      (char ≠ '&' ∧ escape char = [char])) (chars : List Char) :
    decode table (chars.flatMap escape) = chars := by
  induction chars with
  | nil => rw [List.flatMap_nil, decode]
  | cons char chars ih =>
      rw [List.flatMap_cons]
      obtain ⟨entity, known, denoted, text⟩ | ⟨other, text⟩ := escapes char
      · rw [text, List.cons_append, decode_of_mem apart known, ih, denoted]
      · rw [text, List.cons_append, List.nil_append, decode_of_none (if_neg other), ih]

end Apart

end Pass

theorem unescapeChars_eq_decode (text : List Char) :
    unescapeChars text = decode predefined text := by
  unfold unescapeChars
  conv => lhs; rw [← decode_nil text]
  rw [replaceAll_decode (by decide) (by decide), replaceAll_decode (by decide) (by decide),
    replaceAll_decode (by decide) (by decide), replaceAll_decode (by decide) (by decide),
    replaceAll_decode (by decide) (by decide)]
  rfl

theorem predefined_apart : ∀ entity ∈ predefined, ∀ other ∈ predefined, other.1 <+: entity.1 →
    other = entity := by
  decide

theorem escapeChar_cases (char : Char) :
    (∃ entity ∈ predefined, entity.2 = char ∧ escapeChar char = '&' :: entity.1) ∨
      (char ≠ '&' ∧ escapeChar char = [char]) := by
  unfold escapeChar
  split
  · exact .inl ⟨("lt;".toList, '<'), by decide, rfl, rfl⟩
  · exact .inl ⟨("gt;".toList, '>'), by decide, rfl, rfl⟩
  · exact .inl ⟨("quot;".toList, '"'), by decide, rfl, rfl⟩
  · exact .inl ⟨("apos;".toList, '\''), by decide, rfl, rfl⟩
  · exact .inl ⟨("amp;".toList, '&'), by decide, rfl, rfl⟩
  · exact .inr ⟨‹_›, rfl⟩

theorem unescape_escape (text : String) : unescape (escape text) = text := by
  rw [unescape, escape, String.toList_ofList, unescapeChars_eq_decode,
    decode_flatMap predefined_apart escapeChar_cases, String.ofList_toList]

def written (entity : List Char × Char) : String := String.ofList ('&' :: entity.1)

theorem toList_unescape (text : String) :
    (unescape text).toList = decode predefined text.toList := by
  rw [unescape, String.toList_ofList, unescapeChars_eq_decode]

theorem unescape_append_written {entity : List Char × Char} (known : entity ∈ predefined)
    (before after : String) : unescape (before ++ written entity ++ after) =
      unescape before ++ String.singleton entity.2 ++ unescape after := by
  have plain : ∀ entity ∈ predefined, '&' ∉ entity.1 := by decide
  apply String.toList_inj.mp
  simp only [String.toList_append, toList_unescape, written, String.toList_ofList,
    String.toList_singleton, List.append_assoc, List.cons_append]
  rw [decode_append_ampersand plain, decode_of_mem predefined_apart known, List.nil_append]

theorem unescape_of_missing {text : String}
    (missing : ∀ entity ∈ predefined, ¬ (written entity).toList <:+: text.toList) :
    unescape text = text := by
  apply String.toList_inj.mp
  rw [toList_unescape]
  refine decode_of_missing fun entity known => ?_
  have absent := missing entity known
  rwa [written, String.toList_ofList] at absent

/-- Five replacements one after the other are one pass from left to right: every occurrence of an
entity, whatever stands around it, is decoded once and apart from the rest, a text without
entities stays as it is, and what has been escaped comes back. -/
theorem entities_decoded_once (text : String) :
    (unescape text).toList = decode predefined text.toList ∧
    (∀ entity ∈ predefined, ∀ after, unescape (text ++ written entity ++ after) =
      unescape text ++ String.singleton entity.2 ++ unescape after) ∧
    ((∀ entity ∈ predefined, ¬ (written entity).toList <:+: text.toList) →
      unescape text = text) ∧
    unescape (escape text) = text :=
  ⟨toList_unescape text, fun _ known after => unescape_append_written known text after,
    unescape_of_missing, unescape_escape text⟩

/-- The entity that appears when an ampersand is decoded is not decoded in turn. -/
theorem uncovered_entity_stays :
    unescape "&amp;lt;" = "&lt;" ∧ unescape "lt;" = "lt;" := by
  have plain : unescape "lt;" = "lt;" :=
    (entities_decoded_once "lt;").2.2.1 (by decide)
  refine ⟨?_, plain⟩
  have once := (entities_decoded_once "").2.1 ("amp;".toList, '&') (by decide) "lt;"
  rw [plain, (entities_decoded_once "").2.2.1 (by decide)] at once
  exact once

end CrawlBoard.Entity
