import CrawlBoard.Proofs.Store.CanonicalQuery
import CrawlBoard.Proofs.Url.EncodedPath
import CrawlBoard.Proofs.Url.Scheme
import CrawlBoard.Store.Minio
/-!
What the signature of a request covers, and what is requested: the sent text is read as an address
once more, and path and query may then be others than the signed ones.
-/

namespace CrawlBoard

open UrlEscape (Settled)

def Url.requested (url : Url) : Signature.Request :=
  ⟨"GET", url.hostText?.getD "" ++ url.portText, url.path.text, url.query?.getD ""⟩

theorem Web.get_of_not_web [DomainNames] {text : String}
    (other : ∀ url, Url.parse text = .ok url → url.isWeb = false) :
    ∃ cause, ∀ network headers, Web.get network text headers = .error cause := by
  unfold Web.get
  cases read : Url.parse text with
  | error _ => exact ⟨_, fun _ _ => rfl⟩
  | ok url =>
      simp only [other url read, Bool.not_false, if_true]
      split
      · exact ⟨_, fun _ _ => rfl⟩
      · exact ⟨_, fun _ _ => rfl⟩

namespace MinioStore

/-- The requests that a store makes: for a listing or for an object. -/
inductive Asks (store : MinioStore) : Target → Prop
  | list (query : ListQuery) : Asks store (store.listTarget query)
  | fetch (key : String) : Asks store (store.objectTarget key)

/-- No segment of the path stands for a step. -/
def Target.Direct (target : Target) : Prop :=
  ∀ segment ∈ Search.splitOn '/' target.path.toList, segment ≠ ['.'] ∧ segment ≠ ['.', '.']

instance (target : Target) : Decidable target.Direct :=
  inferInstanceAs (Decidable (∀ segment ∈ Search.splitOn '/' target.path.toList,
    segment ≠ ['.'] ∧ segment ≠ ['.', '.']))

/-- An endpoint that names a server and nothing on it. -/
structure Bare (endpoint : Url) : Prop where
  path : ∀ char ∈ endpoint.path.text.toList, char = '/'
  query : endpoint.query? = none

namespace Target

/-- What the target of every request is like. -/
structure Written (target : Target) (parts : List String) : Prop where
  path : target.path.toList = Url.pathChars parts
  given : parts ≠ []
  clean : ∀ part ∈ parts, Url.Clean part
  steps : ∀ part ∈ parts, part = "." ∨ part = ".." ∨ Url.dots part = 0
  pathInQuery : Settled UrlEscape.specialQuery target.path.toList
  query : Settled UrlEscape.specialQuery target.query.toList

theorem settled_encodePath (path : String) :
    Settled UrlEscape.specialQuery (Percent.encodePath path).toList := by
  intro char member
  rw [Percent.encodePath, String.toList_intercalate] at member
  rcases Search.mem_intercalate member with slash | ⟨piece, present, inside⟩
  · obtain rfl := List.mem_singleton.mp slash
    decide
  · obtain ⟨segment, listed, rfl⟩ := List.mem_map.mp present
    obtain ⟨source, -, rfl⟩ := List.mem_map.mp listed
    exact (Percent.settled_of_isEncoded (Percent.isEncoded_of_mem_encode inside)).2.1

theorem written_path (text query : String) (settled : Settled UrlEscape.specialQuery query.toList) :
    ∃ parts, Written ⟨Percent.encodePath ("/" ++ text), query⟩ parts := by
  refine ⟨_, Percent.toList_encodePath text, ?_, ?_, ?_, settled_encodePath _, settled⟩
  · simp [Search.splitOn_ne_nil]
  · intro part present
    obtain ⟨segment, -, rfl⟩ := List.mem_map.mp present
    exact Percent.clean_encode _
  · intro part present
    obtain ⟨segment, -, rfl⟩ := List.mem_map.mp present
    exact Percent.dots_encode _

theorem exists_written {store : MinioStore} {target : Target} (asked : store.Asks target) :
    ∃ parts, target.Written parts := by
  cases asked with
  | list query => exact written_path store.bucket _ (Signature.written_canonicalQuery _).settled
  | fetch key =>
      have written := written_path (store.bucket ++ "/" ++ key) "" fun _ member => nomatch member
      simpa only [objectTarget, String.append_assoc] using written

theorem Written.direct_iff {target : Target} {parts : List String} (written : target.Written parts) :
    target.Direct ↔ ∀ part ∈ parts, Url.dots part = 0 := by
  have pieces := Url.splitOn_pathChars written.clean
  rw [← written.path] at pieces
  unfold Direct
  rw [pieces]
  constructor
  · intro direct part present
    obtain ⟨notOne, notTwo⟩ := direct _ (List.mem_cons_of_mem _ (List.mem_map_of_mem present))
    rcases written.steps part present with rfl | rfl | none
    · exact absurd rfl notOne
    · exact absurd rfl notTwo
    · exact none
  · intro plain segment present
    rcases List.mem_cons.mp present with rfl | present
    · decide
    · obtain ⟨part, member, rfl⟩ := List.mem_map.mp present
      have none := plain part member
      constructor
      · intro one
        rw [String.toList_inj.mp (one.trans (rfl : _ = ".".toList))] at none
        exact absurd none (by decide +kernel)
      · intro two
        rw [String.toList_inj.mp (two.trans (rfl : _ = "..".toList))] at none
        exact absurd none (by decide +kernel)

def query? (target : Target) : Option String :=
  if target.query.isEmpty then none else some target.query

theorem getD_query? (target : Target) : target.query?.getD "" = target.query := by
  unfold query?
  split
  · rename_i empty
    exact (String.isEmpty_iff.mp empty).symm
  · rfl

theorem Written.settled_query? {target : Target} {parts : List String}
    (written : target.Written parts) :
    ∀ query ∈ target.query?, Settled UrlEscape.specialQuery query.toList := by
  intro query found
  unfold query? at found
  split at found <;> cases found
  exact written.query

theorem Written.visible_query {target : Target} {parts : List String}
    (written : target.Written parts) :
    ∀ query ∈ target.query?.map String.toList, Url.Visible query ∧ '#' ∉ query := by
  intro query found
  obtain ⟨source, given, rfl⟩ := Option.map_eq_some_iff.mp found
  have settled := written.settled_query? source given
  exact ⟨Url.visible_of_settled UrlEscape.proper_specialQuery rfl settled,
    fun mark => absurd (settled '#' mark).2 (by decide)⟩

end Target

theorem dropTrailing_behind {mark : Char} (other : mark ≠ '/') (front text : List Char) :
    Search.dropTrailing (· = '/') (front ++ mark :: text) =
      front ++ mark :: Search.dropTrailing (· = '/') text := by
  have kept : ∀ last ∈ (front ++ [mark]).getLast?, decide (last = '/') = false := by
    simp [other]
  have dropped := Search.dropTrailing_append kept text
  simpa using dropped

def Target.chars (target : Target) : List Char :=
  target.path.toList ++ Url.marked '?' (target.query?.map String.toList)

theorem toList_url (store : MinioStore) (target : Target) :
    (store.url target).toList = store.base.toList ++ target.chars := by
  unfold url Target.chars Target.query?
  rw [String.toList_append, String.toList_append, List.append_assoc]
  split
  · rfl
  · rw [String.toList_append]
    rfl

theorem get_of_not_web [DomainNames] {endpoint : String} {store : MinioStore}
    (parsed : Url.parse endpoint = .ok store.endpoint) (other : store.endpoint.isWeb = false)
    (target : Target) :
    ∃ cause, ∀ network headers, Web.get network (store.url target) headers = .error cause := by
  have isScheme := Url.isScheme_of_parse parsed
  obtain ⟨rest, text⟩ : ∃ rest, store.endpoint.text.toList =
      store.endpoint.scheme.toList ++ ':' :: rest := by
    simp only [Url.text, String.toList_append, List.append_assoc]
    exact ⟨_, rfl⟩
  have sent : store.url target = String.ofList (store.endpoint.scheme.toList
      ++ ':' :: (Search.dropTrailing (· = '/') rest ++ target.chars)) := by
    rw [← String.toList_inj, toList_url, base, String.toList_ofList, String.toList_ofList, text,
      dropTrailing_behind (by decide : ':' ≠ '/'), List.append_assoc, List.cons_append]
  refine Web.get_of_not_web fun url read => ?_
  rw [sent] at read
  have scheme : url.scheme = store.endpoint.scheme := isScheme.scheme_of_parse read
  unfold Url.isWeb at other ⊢
  rw [scheme]
  exact other

/-- A path is left as it is behind another one only if there is no other one, and no step in it. -/
theorem resolve_append_eq_iff {kept parts : List String} (plain : ∀ part ∈ kept, Url.dots part = 0) :
    Url.resolve [] (kept ++ parts) = parts ↔ kept = [] ∧ ∀ part ∈ parts, Url.dots part = 0 := by
  constructor
  · intro left
    have noDots (part : String) (member : part ∈ parts) : Url.dots part = 0 := by
      rw [← left] at member
      rcases Url.mem_resolve member with done | rfl | ⟨-, none⟩
      · cases done
      · exact Url.dots_empty
      · exact none
    have all (part : String) (member : part ∈ kept ++ parts) : Url.dots part = 0 :=
      (List.mem_append.mp member).elim (plain part) (noDots part)
    rw [Url.resolve_of_plain all, List.reverse_nil, List.nil_append] at left
    exact ⟨List.append_left_eq_self.mp left, noDots⟩
  · rintro ⟨rfl, noDots⟩
    exact Url.resolve_of_plain noDots []

section Sending

variable {target : Target} {parts : List String} (written : target.Written parts)

include written in
theorem settled_chars : Settled UrlEscape.specialQuery target.chars := by
  intro char member
  rcases List.mem_append.mp member with path | query
  · exact written.pathInQuery char path
  · cases found : target.query? with
    | none =>
        rw [found] at query
        cases query
    | some text =>
        rw [found] at query
        rcases List.mem_cons.mp query with rfl | inside
        · decide
        · exact written.settled_query? text found char inside

include written in
theorem length_query_lt : target.query.toList.length < target.chars.length := by
  have path : 0 < target.path.toList.length := by
    obtain ⟨first, rest, shape⟩ := List.exists_cons_of_ne_nil written.given
    rw [written.path, shape]
    exact Nat.succ_pos _
  have query : target.query.toList.length ≤
      (Url.marked '?' (target.query?.map String.toList)).length := by
    unfold Target.query?
    split
    · rename_i empty
      simp [String.isEmpty_iff.mp empty]
    · simp [Url.marked]
  rw [Target.chars, List.length_append]
  omega

variable [DomainNames] {store : MinioStore} {address : Url.WebAddress}
  (same : address.url = store.endpoint)

include same in
theorem toList_base : store.base.toList = address.front ++
    Search.dropTrailing (· = '/') (Url.pathChars address.parts
      ++ (Url.marked '?' (address.query?.map String.toList)
        ++ Url.marked '#' (address.fragment?.map String.toList))) := by
  rw [base, ← same, String.toList_ofList, address.toList_text]
  exact Search.dropTrailing_append
    (fun last found => decide_eq_false (address.ne_slash_of_getLast? found)) _

include same written in
/-- Behind an endpoint without query and fragment the target's path is resolved. -/
theorem parse_url_of_path (noQuery : address.query? = none) (noFragment : address.fragment? = none) :
    ∃ kept ⊆ address.parts,
      Search.dropTrailing (· = '/') (Url.pathChars address.parts) = Url.pathChars kept ∧
      Url.parse (store.url target) = .ok (address.authority.url address.scheme
        (.segments (Url.resolve [] (kept ++ parts))) target.query? none) := by
  obtain ⟨kept, within, dropped⟩ := Url.dropTrailing_pathChars address.clean
  have clean (part : String) (member : part ∈ kept ++ parts) : Url.Clean part :=
    (List.mem_append.mp member).elim (fun inside => address.clean part (within inside))
      (written.clean part)
  have text : (store.url target).toList = address.front ++ (Url.pathChars (kept ++ parts)
      ++ (Url.marked '?' (target.query?.map String.toList) ++ Url.marked '#' none)) := by
    have base := toList_base same
    rw [noQuery, noFragment] at base
    simp only [Option.map_none, Url.marked, List.append_nil] at base
    rw [toList_url, base, dropped, Target.chars, written.path]
    simp [Url.pathChars, Url.marked]
  have read := address.parse_parts (by simp [written.given]) clean written.visible_query
    (by simp : ∀ fragment ∈ (none : Option (List Char)), Url.Visible fragment)
  rw [← text, String.ofList_toList, Url.map_apply_toList written.settled_query?] at read
  exact ⟨kept, within, dropped, read⟩

include same written in
theorem parse_url_of_query {query : String} (given : address.query? = some query)
    (noFragment : address.fragment? = none) :
    ∃ sent : List Char, target.query.toList.length < sent.length ∧
      Url.parse (store.url target) = .ok (address.authority.url address.scheme
        (.segments address.parts) (some (String.ofList sent)) none) := by
  let front := Search.dropTrailing (· = '/') query.toList
  have settled : Settled UrlEscape.specialQuery (front ++ target.chars) := fun char member =>
    (List.mem_append.mp member).elim
      (fun inside => address.settledQuery query given char (Search.dropTrailing_subset _ _ inside))
      (settled_chars written char)
  have text : (store.url target).toList = address.front ++ (Url.pathChars address.parts
      ++ (Url.marked '?' (some (front ++ target.chars)) ++ Url.marked '#' none)) := by
    have base := toList_base same
    simp only [given, noFragment, Option.map_some, Option.map_none, Url.marked, List.append_nil,
      dropTrailing_behind (by decide : '?' ≠ '/')] at base
    rw [toList_url, base]
    simp [Url.marked, front]
  have visible : ∀ part ∈ some (front ++ target.chars), Url.Visible part ∧ '#' ∉ part := by
    intro part found
    cases found
    exact ⟨Url.visible_of_settled UrlEscape.proper_specialQuery rfl settled,
      fun mark => absurd (settled '#' mark).2 (by decide)⟩
  have read := address.parse_parts address.given address.clean visible
    (by simp : ∀ fragment ∈ (none : Option (List Char)), Url.Visible fragment)
  rw [← text, String.ofList_toList, address.resolve_parts, Option.map_some, settled.apply] at read
  have length := length_query_lt written
  refine ⟨front ++ target.chars, ?_, read⟩
  rw [List.length_append]
  omega

include same written in
theorem parse_url_of_fragment {fragment : String} (given : address.fragment? = some fragment) :
    ∃ sent : String, Url.parse (store.url target) = .ok (address.authority.url address.scheme
        (.segments address.parts) address.query? (some sent)) := by
  let front := Search.dropTrailing (· = '/') fragment.toList
  have text : (store.url target).toList = address.front ++ (Url.pathChars address.parts
      ++ (Url.marked '?' (address.query?.map String.toList)
        ++ Url.marked '#' (some (front ++ target.chars)))) := by
    have base := toList_base same
    simp only [given, Option.map_some, Url.marked] at base
    rw [← List.append_assoc, dropTrailing_behind (by decide : '#' ≠ '/')] at base
    rw [toList_url, base]
    simp [Url.marked, front]
  have visible : ∀ part ∈ some (front ++ target.chars), Url.Visible part := by
    intro part found
    cases found
    refine Url.Visible.append (fun char inside => ?_)
      (Url.visible_of_settled UrlEscape.proper_specialQuery rfl (settled_chars written))
    exact address.visible_fragment fragment.toList (by rw [given]; rfl) char
      (Search.dropTrailing_subset _ _ inside)
  have read := address.parse_parts address.given address.clean address.visible_query visible
  rw [← text, String.ofList_toList, address.resolve_parts, Url.map_apply_toList address.settledQuery]
    at read
  exact ⟨_, read⟩

include written in
theorem requested_eq_signed_iff {kept : List String} (within : kept ⊆ address.parts)
    (host : store.host = address.url.requested.host) :
    (address.authority.url address.scheme (.segments (Url.resolve [] (kept ++ parts)))
        target.query? none).requested = store.signed target ↔
      kept = [] ∧ ∀ part ∈ parts, Url.dots part = 0 := by
  have clean (part : String) (member : part ∈ Url.resolve [] (kept ++ parts)) : Url.Clean part := by
    rcases Url.mem_resolve member with done | rfl | ⟨inside, -⟩
    · cases done
    · exact Url.plain_empty.toClean
    · exact (List.mem_append.mp inside).elim (fun inside => address.clean part (within inside))
        (written.clean part)
  have plain (part : String) (member : part ∈ kept) : Url.dots part = 0 :=
    (address.plain part (within member)).noDots
  calc
    _ ↔ (UrlPath.segments (Url.resolve [] (kept ++ parts))).text = target.path := by
      rw [signed, host]
      refine ⟨congrArg Signature.Request.path, fun path => ?_⟩
      rw [← path, ← target.getD_query?]
      rfl
    _ ↔ Url.resolve [] (kept ++ parts) = parts := by
      rw [← String.toList_inj, Url.toList_text_segments, written.path]
      exact ⟨Url.pathChars_inj clean written.clean, congrArg Url.pathChars⟩
    _ ↔ kept = [] ∧ ∀ part ∈ parts, Url.dots part = 0 := resolve_append_eq_iff plain

end Sending

theorem bare_iff [DomainNames] (address : Url.WebAddress) :
    Bare address.url ↔ Search.dropTrailing (· = '/') (Url.pathChars address.parts) = [] ∧
      address.query? = none := by
  have path : address.url.path.text.toList = Url.pathChars address.parts :=
    Url.toList_text_segments address.parts
  rw [Search.dropTrailing_eq_nil_iff]
  constructor
  · rintro ⟨slashes, noQuery⟩
    rw [path] at slashes
    exact ⟨fun char member => decide_eq_true (slashes char member), noQuery⟩
  · rintro ⟨slashes, noQuery⟩
    exact ⟨fun char member => of_decide_eq_true (slashes char (path ▸ member)), noQuery⟩

theorem ofEndpoint_ok [DomainNames] {endpoint bucket : String} {credentials : Credentials}
    {store : MinioStore}
    (accepted : ofEndpoint endpoint bucket credentials = .ok store) :
    Url.parse endpoint = .ok store.endpoint ∧ store.host = store.endpoint.requested.host := by
  unfold ofEndpoint at accepted
  split at accepted
  · cases accepted
  · rename_i url parsed
    split at accepted
    · rename_i host named
      cases accepted
      refine ⟨parsed, ?_⟩
      simp only [Url.requested, named, Option.getD_some]
    · cases accepted

theorem signature_names_request_of_web [DomainNames] [LawfulDomainNames] {endpoint : String}
    {store : MinioStore}
    (parsed : Url.parse endpoint = .ok store.endpoint)
    (host : store.host = store.endpoint.requested.host) (web : store.endpoint.isWeb = true)
    {target : Target} (asked : store.Asks target) :
    ∃ sent, Url.parse (store.url target) = .ok sent ∧
      sent.requested.host = (store.signed target).host ∧
      (store.endpoint.fragment? = none →
        (sent.requested = store.signed target ↔ Bare store.endpoint ∧ target.Direct)) ∧
      (store.endpoint.fragment? ≠ none → sent.requested = store.endpoint.requested) := by
  obtain ⟨address, same⟩ := Url.WebAddress.exists_of_parse parsed web
  obtain ⟨parts, written⟩ := Target.exists_written asked
  rw [← same] at host ⊢
  rw [bare_iff, written.direct_iff]
  -- What the target is written behind decides what it becomes: a fragment, a query or a path.
  cases noFragment : address.fragment? with
  | some fragment =>
      obtain ⟨sent, read⟩ := parse_url_of_fragment written same noFragment
      exact ⟨_, read, host.symm, fun none => absurd (noFragment.symm.trans none) (by simp),
        fun _ => rfl⟩
  | none =>
      cases noQuery : address.query? with
      | some query =>
          obtain ⟨sent, longer, read⟩ := parse_url_of_query written same noQuery noFragment
          refine ⟨_, read, host.symm, fun _ => ⟨fun equal => ?_, fun bare => ?_⟩, fun given =>
            absurd noFragment given⟩
          · have query : String.ofList sent = target.query := congrArg Signature.Request.query equal
            rw [← query, String.toList_ofList] at longer
            exact absurd longer (Nat.lt_irrefl _)
          · cases bare.1.2
      | none =>
          obtain ⟨kept, within, dropped, read⟩ := parse_url_of_path written same noQuery noFragment
          have bare : Search.dropTrailing (· = '/') (Url.pathChars address.parts) = [] ↔
              kept = [] := by
            rw [dropped]
            exact Url.pathChars_eq_nil_iff
          refine ⟨_, read, host.symm, fun _ => ?_, fun given => absurd noFragment given⟩
          rw [requested_eq_signed_iff written within host, bare]
          simp

/-- Requests are sent to endpoints of the web alone. There the signature names the server that is
asked. It names what is asked for if and only if the endpoint has neither path nor query and the
target no step; an endpoint with a fragment is itself what is asked for. -/
theorem signature_names_request_iff [DomainNames] [LawfulDomainNames] {endpoint bucket : String}
    {credentials : Credentials} {store : MinioStore}
    (accepted : ofEndpoint endpoint bucket credentials = .ok store)
    {target : Target} (asked : store.Asks target) :
    (store.endpoint.isWeb = false →
      ∃ cause, ∀ network headers, Web.get network (store.url target) headers = .error cause) ∧
    (store.endpoint.isWeb = true →
      ∃ sent, Url.parse (store.url target) = .ok sent ∧
        sent.requested.host = (store.signed target).host ∧
        (store.endpoint.fragment? = none →
          (sent.requested = store.signed target ↔ Bare store.endpoint ∧ target.Direct)) ∧
        (store.endpoint.fragment? ≠ none → sent.requested = store.endpoint.requested)) := by
  obtain ⟨parsed, host⟩ := ofEndpoint_ok accepted
  exact ⟨fun other => get_of_not_web parsed other target,
    fun web => signature_names_request_of_web parsed host web asked⟩

instance {ε α : Type} [DecidableEq α] (outcome : Except ε α) (a : α) :
    Decidable (outcome = .ok a) :=
  match outcome with
  | .ok other => decidable_of_iff (other = a) ⟨congrArg Except.ok, Except.ok.inj⟩
  | .error _ => .isFalse fun same => nomatch same

def localServer : MinioStore where
  endpoint := {
    scheme := "http"
    host? := some (.domain "localhost")
    port? := some 9000
    path := .segments [""] }
  host := "localhost:9000"
  bucket := "b"
  credentials := ⟨"key", "secret", "us-east-1"⟩

abbrev bookNames : DomainNames where
  ascii? name :=
    if name = "bücher.example" ∨ name = "xn--bcher-kva.example" then some "xn--bcher-kva.example"
    else none

theorem lawful_bookNames : @LawfulDomainNames bookNames := by
  have known {name ascii : String} (given : bookNames.ascii? name = some ascii) :
      ascii = "xn--bcher-kva.example" := by
    change (if _ then _ else _) = some ascii at given
    split at given <;> cases given
    rfl
  refine @LawfulDomainNames.mk bookNames (fun given => ?_) fun given => ?_
  · obtain rfl := known given
    exact (by decide : ∀ char ∈ "xn--bcher-kva.example".toList, Host.isNameChar char = true) _
  · obtain rfl := known given
    exact if_pos (.inr rfl)

def bookServer : MinioStore where
  endpoint := { scheme := "https", host? := some (.domain "xn--bcher-kva.example"), path := .segments [""] }
  host := "xn--bcher-kva.example"
  bucket := "b"
  credentials := ⟨"key", "secret", "us-east-1"⟩

theorem dotted_name_is_requested_as_signed :
    let _ : DomainNames := bookNames
    ofEndpoint "https://bücher.example/" "b" bookServer.credentials = .ok bookServer ∧
      bookServer.endpoint.isWeb = true ∧
      ∃ sent, Url.parse (bookServer.url (bookServer.objectTarget "x/.../%2e/ä.json")) = .ok sent ∧
        sent.requested = bookServer.signed (bookServer.objectTarget "x/.../%2e/ä.json") := by
  intro names
  have lawful : LawfulDomainNames := lawful_bookNames
  have accepted : ofEndpoint "https://bücher.example/" "b" bookServer.credentials = .ok bookServer := by
    decide +kernel
  refine ⟨accepted, rfl, ?_⟩
  obtain ⟨sent, read, -, named, -⟩ := (signature_names_request_iff accepted
    (.fetch "x/.../%2e/ä.json")).2 rfl
  exact ⟨sent, read, (named rfl).mpr ⟨⟨by decide +kernel, rfl⟩, by decide +kernel⟩⟩

/-- With a step in its key an object is signed under one path and asked for under another, at a
server on this machine. -/
theorem step_in_key_is_signed_but_not_requested :
    let _ : DomainNames := .plain
    ∃ store, ofEndpoint "http://LOCALHOST:9000" "b" ⟨"key", "secret", "us-east-1"⟩ = .ok store ∧
      (store.signed (store.objectTarget "x/../s.json")).path = "/b/x/../s.json" ∧
      (Url.parse (store.url (store.objectTarget "x/../s.json"))).map (·.requested.path) =
        .ok "/b/s.json" :=
  ⟨localServer, by decide +kernel⟩

end MinioStore

end CrawlBoard
