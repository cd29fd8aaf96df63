import CrawlBoard.Proofs.Url.Authority
import CrawlBoard.Proofs.Url.Path

namespace CrawlBoard.Url

open UrlEscape (Settled)

/-- No blank and no control, so that nothing is dropped before a text is read. -/
def Visible (text : List Char) : Prop := ∀ char ∈ text, 0x20 < char.toNat

theorem Visible.append {front back : List Char} (first : Visible front) (second : Visible back) :
    Visible (front ++ back) :=
  fun char member => (List.mem_append.mp member).elim (first char) (second char)

theorem clean_append {front : List Char} (visible : Visible front) (given : front ≠ [])
    (rest : List Char) : clean (front ++ rest) = front ++
      (Search.dropTrailing (fun char => decide (char.toNat ≤ 0x20)) rest).filter
        fun char => char ≠ '\t' ∧ char ≠ '\n' ∧ char ≠ '\r' := by
  have outer (char : Char) (member : char ∈ front) : decide (char.toNat ≤ 0x20) = false :=
    decide_eq_false (Nat.not_le.mpr (visible char member))
  have whole : front.filter (fun char => char ≠ '\t' ∧ char ≠ '\n' ∧ char ≠ '\r') = front := by
    rw [List.filter_eq_self]
    intro char member
    have shown := visible char member
    refine decide_eq_true ⟨?_, ?_, ?_⟩ <;> rintro rfl <;> exact absurd shown (by decide)
  have first (char : Char) (found : char ∈ (front ++ rest).head?) :
      decide (char.toNat ≤ 0x20) = false := by
    rw [List.head?_append, Option.or_of_isSome (List.isSome_head?.mpr given)] at found
    exact outer char (List.mem_of_head? found)
  unfold clean
  dsimp only
  rw [Search.dropWhile_of_head first,
    Search.dropTrailing_append fun char found => outer char (List.mem_of_getLast? found),
    List.filter_append, whole]

theorem clean_of_visible {text : List Char} (visible : Visible text) : clean text = text := by
  cases text with
  | nil => rfl
  | cons first rest =>
      have kept := clean_append visible (List.cons_ne_nil first rest) []
      simpa [Search.dropTrailing] using kept

theorem visible_of_settled {escaped : UInt8 → Bool} (proper : UrlEscape.Proper escaped)
    (space : escaped 0x20 = true) {text : List Char} (settled : Settled escaped text) :
    Visible text := by
  intro char member
  obtain ⟨ascii, free⟩ := settled char member
  refine Nat.lt_of_not_le fun low => ?_
  have covered : UrlEscape.control (UInt8.ofNat char.toNat) = true ∨ UInt8.ofNat char.toNat = 0x20 :=
    Utf8.of_ascii (fun char => char.toNat ≤ 0x20 →
      UrlEscape.control (UInt8.ofNat char.toNat) = true ∨ UInt8.ofNat char.toNat = 0x20) ascii
      (by decide) low
  rcases covered with control | blank
  · rw [proper.controls _ control] at free
    cases free
  · rw [blank, space] at free
    cases free

theorem visible_pathChars {parts : List String} (clean : ∀ part ∈ parts, Clean part) :
    Visible (pathChars parts) := by
  intro char member
  obtain ⟨part, present, inside⟩ := List.mem_flatMap.mp member
  rcases List.mem_cons.mp inside with rfl | inside
  · decide
  · exact visible_of_settled UrlEscape.proper_path rfl (clean part present).settled char inside

def marked (mark : Char) (part? : Option (List Char)) : List Char :=
  match part? with
  | some part => mark :: part
  | none => []

theorem visible_marked {mark : Char} (shown : 0x20 < mark.toNat) {part? : Option (List Char)}
    (visible : ∀ part ∈ part?, Visible part) : Visible (marked mark part?) := by
  intro char member
  cases part? with
  | none => cases member
  | some part =>
      rcases List.mem_cons.mp member with rfl | inside
      · exact shown
      · exact visible part rfl char inside

theorem map_apply_toList {escaped : UInt8 → Bool} {part? : Option String}
    (settled : ∀ part ∈ part?, Settled escaped part.toList) :
    (part?.map String.toList).map (UrlEscape.apply escaped) = part? := by
  cases part? with
  | none => rfl
  | some part =>
      rw [Option.map_some, Option.map_some, (settled part rfl).apply, String.ofList_toList]

theorem not_mem_pathChars {parts : List String} (clean : ∀ part ∈ parts, Clean part) {mark : Char}
    (escaped : UrlEscape.path (UInt8.ofNat mark.toNat) = true) : mark ∉ pathChars parts := by
  intro member
  obtain ⟨part, present, inside⟩ := List.mem_flatMap.mp member
  rcases List.mem_cons.mp inside with rfl | inside
  · exact absurd escaped (by decide)
  · rw [((clean part present).settled mark inside).2] at escaped
    cases escaped

theorem tail_chars {path : List Char} {query? : Option (List Char)}
    (noQuery : '?' ∉ path) (noFragment : '#' ∉ path) (noHash : ∀ query ∈ query?, '#' ∉ query)
    (fragment? : Option (List Char)) :
    tail (path ++ (marked '?' query? ++ marked '#' fragment?)) = ⟨path, query?, fragment?⟩ := by
  have front : '#' ∉ path ++ marked '?' query? := by
    refine fun member => (List.mem_append.mp member).elim noFragment fun inQuery => ?_
    cases query? with
    | none => cases inQuery
    | some query =>
        rcases List.mem_cons.mp inQuery with mark | inside
        · cases mark
        · exact noHash query rfl inside
  have parted : Search.cut? ['?'] (path ++ marked '?' query?) = query?.map (path, ·) := by
    cases query? with
    | none => rw [marked, List.append_nil, Search.cut?_of_not_mem noQuery, Option.map_none]
    | some query => rw [marked, Search.cut?_singleton noQuery, Option.map_some]
  rw [← List.append_assoc]
  cases fragment? with
  | none =>
      rw [marked, List.append_nil, tail, Search.cut?_of_not_mem front]
      simp only [parted]
      cases query? <;> simp [marked]
  | some fragment =>
      rw [marked, tail, Search.cut?_singleton front]
      simp only [parted]
      cases query? <;> simp [marked]

def Authority.url (authority : Authority) (scheme : String) (path : UrlPath)
    (query? fragment? : Option String) : Url where
  scheme
  username := authority.username
  password? := authority.password?
  host? := some authority.host
  port? := authority.port?
  path
  query?
  fragment?

theorem Authority.toList_authorityText (authority : Authority) (scheme : String) (parts : List String)
    (query? fragment? : Option String) :
    (authority.url scheme (.segments parts) query? fragment?).authorityText.toList =
      '/' :: '/' :: authority.chars := by
  obtain ⟨username, password?, host, port?⟩ := authority
  have user : (if username = "" then "" else username ++ "@").toList =
      if username = "" then [] else username.toList ++ ['@'] := by
    split <;> simp
  cases password? <;> cases port? <;>
    simp [authorityText, userText, portText, Authority.url, chars, userChars, portChars, user]

variable [DomainNames]

/-- A URL of the web in the parts that are read from a text. -/
structure WebAddress where
  scheme : String
  web : scheme = "http" ∨ scheme = "https"
  authority : Authority
  ofWeb : authority.OfWeb scheme
  parts : List String
  given : parts ≠ []
  plain : ∀ part ∈ parts, Plain part
  query? : Option String
  settledQuery : ∀ query ∈ query?, Settled UrlEscape.specialQuery query.toList
  fragment? : Option String
  settledFragment : ∀ fragment ∈ fragment?, Settled UrlEscape.fragment fragment.toList

namespace WebAddress

def url (address : WebAddress) : Url :=
  address.authority.url address.scheme (.segments address.parts) address.query? address.fragment?

theorem exists_of_afterSlashes [LawfulDomainNames] {scheme : String} {text : List Char} {url : Url}
    (web : scheme = "http" ∨ scheme = "https") (parsed : afterSlashes scheme true text = .ok url) :
    ∃ address : WebAddress, address.url = url := by
  unfold afterSlashes at parsed
  dsimp only at parsed
  cases read : Url.authority scheme true (text.takeWhile fun char => !endsAuthority true char) with
  | error _ =>
      rw [read] at parsed
      cases parsed
  | ok authority =>
      rw [read] at parsed
      cases parsed
      generalize tail (text.dropWhile fun char => !endsAuthority true char) = rest
      obtain ⟨parts, path, given, plain⟩ := plain_of_pathAfterHost rest.path
      refine ⟨⟨scheme, web, authority, ofWeb_of_authority read, parts, given, plain,
        rest.query?.map (UrlEscape.apply UrlEscape.specialQuery), ?_,
        rest.fragment?.map (UrlEscape.apply UrlEscape.fragment), ?_⟩, ?_⟩
      · intro query found
        obtain ⟨source, -, rfl⟩ := Option.map_eq_some_iff.mp found
        exact UrlEscape.proper_specialQuery.settled_apply source
      · intro fragment found
        obtain ⟨source, -, rfl⟩ := Option.map_eq_some_iff.mp found
        exact UrlEscape.proper_fragment.settled_apply source
      · rw [url, Authority.url, ← path]
        rfl

theorem scheme_of_afterSlashes {scheme : String} {special : Bool} {text : List Char} {url : Url}
    (parsed : afterSlashes scheme special text = .ok url) : url.scheme = scheme := by
  unfold afterSlashes at parsed
  dsimp only at parsed
  cases read : Url.authority scheme special
      (text.takeWhile fun char => !endsAuthority special char) with
  | error _ =>
      rw [read] at parsed
      cases parsed
  | ok authority =>
      rw [read] at parsed
      cases parsed
      rfl

theorem scheme_of_file {text : List Char} {url : Url} (parsed : file text = .ok url) :
    url.scheme = "file" := by
  unfold file at parsed
  simp only [bind, Except.bind, pure, Except.pure] at parsed
  -- Whatever stands for the host, what is answered is a file.
  repeat' split at parsed
  all_goals
    cases parsed
    try rfl

theorem exists_of_parse [LawfulDomainNames] {text : String} {url : Url}
    (parsed : parse text = .ok url) (isWeb : url.isWeb = true) : ∃ address : WebAddress, address.url = url := by
  have web : url.scheme = "http" ∨ url.scheme = "https" := by
    simpa [Url.isWeb] using isWeb
  have special : isSpecial url.scheme = true := by
    rcases web with known | known <;> rw [known] <;> decide
  unfold parse at parsed
  split at parsed
  · cases parsed
  · split at parsed
    · obtain rfl := scheme_of_afterSlashes parsed
      exact exists_of_afterSlashes web parsed
    · rename_i notSpecial
      split at parsed
      · rw [scheme_of_file parsed] at web
        exact absurd web (by decide)
      · split at parsed
        · obtain rfl := scheme_of_afterSlashes parsed
          exact absurd special notSpecial
        · cases parsed
          exact absurd special notSpecial

variable (address : WebAddress)

def front : List Char := address.scheme.toList ++ (':' :: '/' :: '/' :: address.authority.chars)

theorem ne_slash_of_getLast? {last : Char} (found : last ∈ address.front.getLast?) : last ≠ '/' := by
  have given := List.getLast?_isSome.mpr (chars_ne_nil address.ofWeb)
  have shape : address.front =
      (address.scheme.toList ++ [':', '/', '/']) ++ address.authority.chars := by
    simp [front]
  rw [shape, List.getLast?_append, Option.or_of_isSome given] at found
  rintro rfl
  cases (char_of_authority address.ofWeb (List.mem_of_getLast? found)).2

theorem toList_text : address.url.text.toList = address.front ++
    (pathChars address.parts ++ (marked '?' (address.query?.map String.toList)
      ++ marked '#' (address.fragment?.map String.toList))) := by
  obtain ⟨scheme, _, authority, _, parts, _, _, query?, _, fragment?, _⟩ := address
  have path : (UrlPath.segments parts).text.toList = pathChars parts := toList_text_segments parts
  have query : (authority.url scheme (.segments parts) query? fragment?).queryText.toList =
      marked '?' (query?.map String.toList) := by
    cases query? <;> simp [queryText, Authority.url, marked]
  have fragment : (authority.url scheme (.segments parts) query? fragment?).fragmentText.toList =
      marked '#' (fragment?.map String.toList) := by
    cases fragment? <;> simp [fragmentText, Authority.url, marked]
  simp only [url, text, String.toList_append, authority.toList_authorityText, query, fragment, front,
    List.append_assoc]
  rw [← path]
  rfl

theorem visible_front : Visible address.front := by
  have scheme : Visible address.scheme.toList := by
    unfold Visible
    rcases address.web with known | known <;> rw [known] <;> decide
  have authority : Visible address.authority.chars :=
    fun _ member => (char_of_authority address.ofWeb member).1
  refine scheme.append fun char member => ?_
  simp only [List.mem_cons] at member
  rcases member with rfl | rfl | rfl | member
  · decide
  · decide
  · decide
  · exact authority char member

theorem parse_front {rest : List Char} (visible : Visible rest)
    (ends : ∀ char ∈ rest.head?, endsAuthority true char = true) :
    parse (String.ofList (address.front ++ rest)) = .ok (address.authority.url address.scheme
      (pathAfterHost true (tail rest).path)
      ((tail rest).query?.map (UrlEscape.apply UrlEscape.specialQuery))
      ((tail rest).fragment?.map (UrlEscape.apply UrlEscape.fragment))) := by
  have inside (char : Char) (member : char ∈ address.authority.chars) :
      endsAuthority true char = false := (char_of_authority address.ofWeb member).2
  have shown : scheme? (address.front ++ rest) =
      some (address.scheme, '/' :: '/' :: (address.authority.chars ++ rest)) := by
    unfold front
    rcases address.web with known | known <;> rw [known] <;> rfl
  -- The host is not empty and no slash, so just the two slashes are dropped.
  have slashes : ('/' :: '/' :: (address.authority.chars ++ rest)).dropWhile (isSlash true) =
      address.authority.chars ++ rest := by
    refine (List.dropWhile_cons_of_pos rfl).trans ((List.dropWhile_cons_of_pos rfl).trans ?_)
    refine Search.dropWhile_of_head fun char found => ?_
    rw [List.head?_append, Option.or_of_isSome
      (List.isSome_head?.mpr (chars_ne_nil address.ofWeb))] at found
    have free := inside char (List.mem_of_head? found)
    simp only [endsAuthority, Bool.or_eq_false_iff] at free
    exact free.1.1
  have special : isSpecial address.scheme = true := by
    rcases address.web with known | known <;> rw [known] <;> decide
  have stays (char : Char) (member : char ∈ address.authority.chars) :
      (!endsAuthority true char) = true := by simp [inside char member]
  have stops : rest.takeWhile (fun char => !endsAuthority true char) = [] ∧
      rest.dropWhile (fun char => !endsAuthority true char) = rest := by
    cases rest with
    | nil => exact ⟨rfl, rfl⟩
    | cons first rest => simp [ends first rfl]
  have taken : (address.authority.chars ++ rest).takeWhile (fun char => !endsAuthority true char) =
      address.authority.chars := by
    rw [List.takeWhile_append_of_pos stays, stops.1, List.append_nil]
  have left : (address.authority.chars ++ rest).dropWhile (fun char => !endsAuthority true char) =
      rest := by
    rw [List.dropWhile_append_of_pos stays, stops.2]
  rw [parse, String.toList_ofList, clean_of_visible (address.visible_front.append visible), shown]
  simp only [special, if_true, slashes, afterSlashes, taken, left,
    authority_chars address.ofWeb, bind, Except.bind]
  rfl

theorem parse_parts {parts : List String} (given : parts ≠ []) (clean : ∀ part ∈ parts, Clean part)
    {query? fragment? : Option (List Char)}
    (query : ∀ query ∈ query?, Visible query ∧ '#' ∉ query)
    (fragment : ∀ fragment ∈ fragment?, Visible fragment) :
    parse (String.ofList (address.front
        ++ (pathChars parts ++ (marked '?' query? ++ marked '#' fragment?)))) =
      .ok (address.authority.url address.scheme (.segments (resolve [] parts))
        (query?.map (UrlEscape.apply UrlEscape.specialQuery))
        (fragment?.map (UrlEscape.apply UrlEscape.fragment))) := by
  have visible := (visible_pathChars clean).append <|
    (visible_marked (by decide : 0x20 < '?'.toNat) fun part found => (query part found).1).append
      (visible_marked (by decide : 0x20 < '#'.toNat) fragment)
  have ends (char : Char) (found : char ∈ (pathChars parts
      ++ (marked '?' query? ++ marked '#' fragment?)).head?) : endsAuthority true char = true := by
    obtain ⟨first, parts, rfl⟩ := List.exists_cons_of_ne_nil given
    cases found
    rfl
  have apart := tail_chars (not_mem_pathChars clean rfl) (not_mem_pathChars clean rfl)
    (fun part found => (query part found).2) fragment?
  rw [parse_front address visible ends, apart]
  simp only [pathAfterHost_pathChars given clean]

theorem visible_query : ∀ query ∈ address.query?.map String.toList, Visible query ∧ '#' ∉ query := by
  intro query found
  obtain ⟨source, given, rfl⟩ := Option.map_eq_some_iff.mp found
  have settled := address.settledQuery source given
  exact ⟨visible_of_settled UrlEscape.proper_specialQuery rfl settled,
    fun mark => absurd (settled '#' mark).2 (by decide)⟩

theorem visible_fragment : ∀ fragment ∈ address.fragment?.map String.toList, Visible fragment := by
  intro fragment found
  obtain ⟨source, given, rfl⟩ := Option.map_eq_some_iff.mp found
  exact visible_of_settled UrlEscape.proper_fragment rfl (address.settledFragment source given)

theorem clean (part : String) (member : part ∈ address.parts) : Clean part :=
  (address.plain part member).toClean

theorem resolve_parts : resolve [] address.parts = address.parts :=
  resolve_of_plain (fun part member => (address.plain part member).noDots) []

end WebAddress

end CrawlBoard.Url
