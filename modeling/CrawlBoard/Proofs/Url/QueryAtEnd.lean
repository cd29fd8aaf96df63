import CrawlBoard.Proofs.Url.WebAddress
/-!
Addresses that end with a query. Nothing that is done to a text before its query is cut off reaches
behind the question mark, so that a query in which nothing has to be escaped is kept.
-/

namespace CrawlBoard.Url

open UrlEscape (Settled)

/-- The first mark of the text is the question mark in front of the query. -/
def EndsWith (query text : List Char) : Prop :=
  ∃ front, text = front ++ '?' :: query ∧ '?' ∉ front ∧ '#' ∉ front

namespace EndsWith

variable {query text : List Char}

theorem dropWhile (ends : EndsWith query text) (drop : Char → Bool) (stops : drop '?' = false) :
    EndsWith query (text.dropWhile drop) := by
  obtain ⟨front, rfl, noQuery, noFragment⟩ := ends
  have fewer : front.dropWhile drop ⊆ front := (List.dropWhile_sublist drop).subset
  refine ⟨front.dropWhile drop, ?_, fun member => noQuery (fewer member),
    fun member => noFragment (fewer member)⟩
  rw [List.dropWhile_append]
  split
  · rename_i all
    rw [List.isEmpty_iff.mp all, List.dropWhile_cons_of_neg (by simp [stops]), List.nil_append]
  · rfl

theorem filter (ends : EndsWith query text) {keep : Char → Bool} (mark : keep '?' = true)
    (kept : ∀ char ∈ query, keep char = true) : EndsWith query (text.filter keep) := by
  obtain ⟨front, rfl, noQuery, noFragment⟩ := ends
  refine ⟨front.filter keep, ?_, fun member => noQuery (List.mem_filter.mp member).1,
    fun member => noFragment (List.mem_filter.mp member).1⟩
  rw [List.filter_append, List.filter_cons_of_pos mark, List.filter_eq_self.mpr kept]

theorem of_cons {char : Char} (ends : EndsWith query (char :: text)) (other : char ≠ '?') :
    EndsWith query text := by
  obtain ⟨front, shape, noQuery, noFragment⟩ := ends
  cases front with
  | nil => exact absurd (List.cons.inj shape).1 other
  | cons first front =>
      rw [List.mem_cons, not_or] at noQuery noFragment
      exact ⟨front, (List.cons.inj shape).2, noQuery.2, noFragment.2⟩

theorem cons {char : Char} (ends : EndsWith query text) (noMark : char ≠ '?' ∧ char ≠ '#') :
    EndsWith query (char :: text) := by
  obtain ⟨front, rfl, noQuery, noFragment⟩ := ends
  refine ⟨char :: front, rfl, ?_, ?_⟩
  · exact fun member => (List.mem_cons.mp member).elim (fun same => noMark.1 same.symm) noQuery
  · exact fun member => (List.mem_cons.mp member).elim (fun same => noMark.2 same.symm) noFragment

theorem clean (ends : EndsWith query text) (visible : Visible query) :
    EndsWith query (Url.clean text) := by
  have shown (char : Char) (member : char ∈ '?' :: query) : 0x20 < char.toNat := by
    rcases List.mem_cons.mp member with rfl | inside
    · decide
    · exact visible char inside
  have front := ends.dropWhile (fun char => decide (char.toNat ≤ 0x20)) (by decide)
  have whole : Search.dropTrailing (fun char => decide (char.toNat ≤ 0x20))
      (text.dropWhile fun char => decide (char.toNat ≤ 0x20)) =
        text.dropWhile fun char => decide (char.toNat ≤ 0x20) := by
    obtain ⟨before, shape, -, -⟩ := front
    apply Search.dropTrailing_of_last
    intro last found
    rw [shape, List.getLast?_append, Option.or_of_isSome (by simp)] at found
    exact decide_eq_false (Nat.not_le.mpr (shown last (List.mem_of_getLast? found)))
  unfold Url.clean
  dsimp only
  rw [whole]
  apply front.filter (by decide)
  intro char member
  have inside := visible char member
  refine decide_eq_true ⟨?_, ?_, ?_⟩ <;> rintro rfl <;> exact absurd inside (by decide)

theorem query?_tail (ends : EndsWith query text) (noHash : '#' ∉ query) :
    (tail text).query? = some query := by
  obtain ⟨front, rfl, noQuery, noFragment⟩ := ends
  have read := @tail_chars front (some query) noQuery noFragment (by simpa using noHash) none
  simp only [marked, List.append_nil] at read
  rw [read]

theorem scheme? (ends : EndsWith query text) {scheme : String} {rest : List Char}
    (found : Url.scheme? text = some (scheme, rest)) : EndsWith query rest := by
  have left := ends.dropWhile
    (fun char => char.isAlphanum || char = '+' || char = '-' || char = '.') (by decide)
  unfold Url.scheme? at found
  dsimp only at found
  split at found
  · rename_i behind
    split at found
    · cases found
      rw [behind] at left
      exact left.of_cons (by decide)
    · cases found
  · cases found

end EndsWith

section Reading

variable {query text : List Char} (ends : EndsWith query text) (noHash : '#' ∉ query)
include ends noHash

theorem query?_withTail (settled : Settled UrlEscape.specialQuery query) (url : Url) (special : Bool) :
    (url.withTail special (tail text)).query? = some (String.ofList query) := by
  have general : Settled UrlEscape.query query := by
    intro char member
    have free := settled char member
    simp only [UrlEscape.specialQuery, Bool.or_eq_false_iff] at free
    exact ⟨free.1, free.2.1⟩
  rw [withTail, ends.query?_tail noHash, Option.map_some]
  cases special with
  | true => exact congrArg some settled.apply
  | false => exact congrArg some general.apply

theorem query?_afterSlashes [DomainNames] (settled : Settled UrlEscape.specialQuery query) {scheme : String}
    {special : Bool} {url : Url} (parsed : afterSlashes scheme special text = .ok url) :
    url.query? = some (String.ofList query) := by
  unfold afterSlashes at parsed
  dsimp only at parsed
  cases read : Url.authority scheme special
      (text.takeWhile fun char => !endsAuthority special char) with
  | error _ =>
      rw [read] at parsed
      cases parsed
  | ok authority =>
      rw [read] at parsed
      cases parsed
      refine query?_withTail (ends.dropWhile _ ?_) noHash settled _ special
      cases special <;> decide

theorem query?_file [DomainNames] (settled : Settled UrlEscape.specialQuery query) {url : Url}
    (parsed : file text = .ok url) : url.query? = some (String.ofList query) := by
  have read {rest : List Char} (behind : EndsWith query rest) (url : Url) :=
    query?_withTail behind noHash settled url true
  unfold file at parsed
  simp only [bind, Except.bind, pure, Except.pure] at parsed
  split at parsed
  · split at parsed
    · rename_i slashes
      rw [Bool.and_eq_true] at slashes
      have noMark {char : Char} (slash : isSlash true char = true) : char ≠ '?' := by
        rintro rfl
        cases slash
      have behind := (ends.of_cons (noMark slashes.1)).of_cons (noMark slashes.2)
      split at parsed
      · cases parsed
        exact read behind _
      · split at parsed
        · cases parsed
          exact read (behind.cons (by decide)) _
        · split at parsed
          · cases parsed
          · cases parsed
            exact read (behind.dropWhile _ (by decide)) _
    · cases parsed
      exact read ends _
  · cases parsed
    exact read ends _

end Reading

variable [DomainNames]

/-- Whatever stands in front of it, a query in which nothing has to be escaped is read as it is. -/
theorem query?_of_parse {front query : String} (noQuery : '?' ∉ front.toList)
    (noFragment : '#' ∉ front.toList) (settled : Settled UrlEscape.specialQuery query.toList)
    {url : Url} (parsed : parse (front ++ "?" ++ query) = .ok url) : url.query? = some query := by
  have noHash : '#' ∉ query.toList := fun hash => absurd (settled '#' hash).2 (by decide)
  have visible := visible_of_settled UrlEscape.proper_specialQuery rfl settled
  have ends : EndsWith query.toList (front ++ "?" ++ query).toList := by
    refine ⟨front.toList, ?_, noQuery, noFragment⟩
    rw [String.toList_append, String.toList_append, List.append_assoc]
    rfl
  rw [← String.ofList_toList (s := query)]
  unfold parse at parsed
  split at parsed
  · cases parsed
  · rename_i scheme rest found
    have behind := (ends.clean visible).scheme? found
    split at parsed
    · exact query?_afterSlashes (behind.dropWhile _ (by decide)) noHash settled parsed
    · split at parsed
      · exact query?_file behind noHash settled parsed
      · split at parsed
        · have address := (behind.of_cons (by decide)).of_cons (by decide)
          exact query?_afterSlashes address noHash settled parsed
        · cases parsed
          exact query?_withTail behind noHash settled _ false

theorem WebAddress.parse_query (address : WebAddress) (noQuery : address.query? = none)
    (noFragment : address.fragment? = none) {query : String}
    (settled : Settled UrlEscape.specialQuery query.toList) :
    parse (address.url.text ++ "?" ++ query) = .ok { address.url with query? := some query } := by
  have visible : ∀ part ∈ some query.toList, Visible part ∧ '#' ∉ part := by
    intro part found
    cases found
    exact ⟨visible_of_settled UrlEscape.proper_specialQuery rfl settled,
      fun hash => absurd (settled '#' hash).2 (by decide)⟩
  have text : (address.url.text ++ "?" ++ query).toList = address.front ++
      (pathChars address.parts ++ (marked '?' (some query.toList) ++ marked '#' none)) := by
    rw [String.toList_append, String.toList_append, address.toList_text, noQuery, noFragment]
    simp [marked]
  have read := address.parse_parts address.given address.clean visible
    (by simp : ∀ fragment ∈ (none : Option (List Char)), Visible fragment)
  rw [← text, String.ofList_toList, address.resolve_parts, Option.map_some, settled.apply,
    String.ofList_toList] at read
  rw [read, WebAddress.url, noFragment]
  rfl

end CrawlBoard.Url
