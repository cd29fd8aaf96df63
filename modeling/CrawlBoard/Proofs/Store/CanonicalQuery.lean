import CrawlBoard.Proofs.QueryText
import CrawlBoard.Proofs.Url.QueryAtEnd
import CrawlBoard.Store.Signature
/-!
Canonical queries. They hold their parameters in an order of their own, so that lists of parameters
have one canonical query exactly when one is a permutation of the other, and as the query of a
request they stay what they are.
-/

namespace CrawlBoard

open UrlEscape (Settled)

theorem QueryText.Written.settled {chars : List Char} (written : Written chars) :
    Settled UrlEscape.specialQuery chars := by
  have free : ∀ char ∈ '%' :: (unreserved ++ hexDigits ++ marks),
      char.toNat < 128 ∧ UrlEscape.specialQuery (UInt8.ofNat char.toNat) = false := by
    decide +kernel
  have kept {char : Char} {rest : List Char} (stands : char ∈ '%' :: (unreserved ++ hexDigits ++ marks))
      (others : Settled UrlEscape.specialQuery rest) :
      Settled UrlEscape.specialQuery (char :: rest) :=
    List.forall_mem_cons.mpr ⟨free char stands, others⟩
  induction written with
  | nil => exact nofun
  | plain unreserved _ ih => exact kept (by simp [unreserved]) ih
  | escape first second _ ih =>
      exact kept (by simp) (kept (by simp [first]) (kept (by simp [second]) ih))
  | mark separates _ ih => exact kept (by simp [separates]) ih

namespace Signature

/-- In the order of the bytes of names and, for one name, of values. -/
def ByteOrdered (first second : String × String) : Prop :=
  Utf8.encode first.1 < Utf8.encode second.1 ∨
    first.1 = second.1 ∧ Utf8.encode first.2 ≤ Utf8.encode second.2

theorem pairLe_iff (first second : String × String) :
    pairLe first second = true ↔ ByteOrdered first second := by
  have values : Utf8.encode first.2 ≤ Utf8.encode second.2 ↔ first.2 ≤ second.2 := by
    rw [← Std.not_lt, Utf8.encode_lt_iff, Std.not_lt]
  simp [pairLe, ByteOrdered, Utf8.encode_lt_iff, values]

theorem pairLe_total (first second : String × String) :
    (pairLe first second || pairLe second first) = true := by
  grind [pairLe]

theorem pairLe_trans (first second third : String × String) (lower : pairLe first second = true)
    (upper : pairLe second third = true) : pairLe first third = true := by
  grind [pairLe]

theorem pairLe_antisymm {first second : String × String} (lower : pairLe first second = true)
    (upper : pairLe second first = true) : first = second := by
  grind [pairLe]

theorem mergeSort_pairLe (parts : List (String × String)) :
    (parts.mergeSort pairLe).Pairwise fun first second => pairLe first second = true :=
  List.pairwise_mergeSort pairLe_trans pairLe_total parts

/-- The parameters in the order that their canonical query has them in. -/
def inOrder (params : List (String × String)) : List (String × String) :=
  params.mergeSort fun first second => pairLe (QueryText.encoded first) (QueryText.encoded second)

theorem map_encoded_inOrder (params : List (String × String)) :
    (inOrder params).map QueryText.encoded = (params.map QueryText.encoded).mergeSort pairLe :=
  List.map_mergeSort fun _ _ _ _ => rfl

theorem canonicalQuery_eq_joined (params : List (String × String)) :
    canonicalQuery params = QueryText.joined ((inOrder params).map QueryText.encoded) := by
  rw [map_encoded_inOrder]
  rfl

theorem inOrder_perm (params : List (String × String)) : (inOrder params).Perm params :=
  List.mergeSort_perm params _

theorem inOrder_eq_of_perm {first second : List (String × String)} (perm : first.Perm second) :
    inOrder first = inOrder second := by
  apply (List.map_inj_right fun _ _ same => QueryText.encoded_injective same).mp
  rw [map_encoded_inOrder, map_encoded_inOrder]
  apply List.Perm.eq_of_pairwise (fun _ _ _ _ => pairLe_antisymm) (mergeSort_pairLe _)
    (mergeSort_pairLe _)
  calc
    ((first.map QueryText.encoded).mergeSort pairLe).Perm (first.map QueryText.encoded) :=
      List.mergeSort_perm _ _
    List.Perm _ (second.map QueryText.encoded) := perm.map _
    List.Perm _ ((second.map QueryText.encoded).mergeSort pairLe) :=
      (List.mergeSort_perm _ _).symm

theorem params?_canonicalQuery (params : List (String × String)) :
    QueryText.params? (canonicalQuery params) = some (inOrder params) := by
  rw [canonicalQuery_eq_joined, QueryText.params?_encoded]

theorem canonicalQuery_eq_iff (first second : List (String × String)) :
    canonicalQuery first = canonicalQuery second ↔ first.Perm second := by
  constructor
  · intro same
    have read := congrArg QueryText.params? same
    rw [params?_canonicalQuery, params?_canonicalQuery] at read
    have ordered : inOrder first = inOrder second := Option.some.inj read
    exact (inOrder_perm first).symm.trans (ordered ▸ inOrder_perm second)
  · intro perm
    rw [canonicalQuery_eq_joined, canonicalQuery_eq_joined, inOrder_eq_of_perm perm]

theorem parts?_canonicalQuery (params : List (String × String)) :
    ∃ parts, QueryText.parts? (canonicalQuery params) = some parts ∧
      parts.Perm (params.map QueryText.encoded) ∧ parts.Pairwise ByteOrdered := by
  refine ⟨(inOrder params).map QueryText.encoded, ?_, (inOrder_perm params).map _, ?_⟩
  · rw [canonicalQuery_eq_joined, QueryText.parts?_encoded]
  · rw [map_encoded_inOrder]
    exact (mergeSort_pairLe _).imp fun lower => (pairLe_iff _ _).mp lower

theorem written_canonicalQuery (params : List (String × String)) :
    QueryText.Written (canonicalQuery params).toList := by
  rw [canonicalQuery_eq_joined]
  exact QueryText.written_joined (inOrder params)

/-- A canonical query holds the given parameters, in the order of their encoded names and values,
and nothing else. It is written without anything that an address would change, so that it is the
query of what is requested with it. -/
theorem canonicalQuery_holds_params [DomainNames] (params : List (String × String)) :
    (∀ others, canonicalQuery others = canonicalQuery params ↔ others.Perm params) ∧
    (∃ parts, QueryText.parts? (canonicalQuery params) = some parts ∧
      parts.Perm (params.map QueryText.encoded) ∧ parts.Pairwise ByteOrdered) ∧
    (∃ read, QueryText.params? (canonicalQuery params) = some read ∧ read.Perm params) ∧
    QueryText.Written (canonicalQuery params).toList ∧
    (∀ front : String, '?' ∉ front.toList → '#' ∉ front.toList →
      ∀ url, Url.parse (front ++ "?" ++ canonicalQuery params) = .ok url →
        url.query? = some (canonicalQuery params)) ∧
    ∀ [LawfulDomainNames] text endpoint, Url.parse text = .ok endpoint →
      endpoint.isWeb = true → endpoint.query? = none → endpoint.fragment? = none →
        Url.parse (endpoint.text ++ "?" ++ canonicalQuery params) =
          .ok { endpoint with query? := some (canonicalQuery params) } := by
  have written := written_canonicalQuery params
  refine ⟨fun others => canonicalQuery_eq_iff others params, parts?_canonicalQuery params,
    ⟨inOrder params, params?_canonicalQuery params, inOrder_perm params⟩, written, ?_, ?_⟩
  · intro front noQuery noFragment url parsed
    exact Url.query?_of_parse noQuery noFragment written.settled parsed
  · intro _ text endpoint parsed web noQuery noFragment
    obtain ⟨address, rfl⟩ := Url.WebAddress.exists_of_parse parsed web
    exact address.parse_query noQuery noFragment written.settled

/-- A name that is repeated, empty or the start of another, and marks in a value. -/
theorem marks_in_values_are_held :
    let _ : DomainNames := .plain
    canonicalQuery [("ab", ""), ("a", "1&b=2"), ("", "é"), ("a", "1&b=2")] =
        canonicalQuery [("a", "1&b=2"), ("", "é"), ("a", "1&b=2"), ("ab", "")] ∧
      canonicalQuery [("ab", ""), ("a", "1&b=2"), ("", "é"), ("a", "1&b=2")] ≠
        canonicalQuery [("ab", ""), ("a", "1"), ("b", "2"), ("", "é"), ("a", "1&b=2")] ∧
      (∃ url, Url.parse ("http://localhost:9000/b" ++ "?" ++ canonicalQuery [("a", "1&b=2")]) =
        .ok url ∧ url.query? = some (canonicalQuery [("a", "1&b=2")])) ∧
      ∃ endpoint, Url.parse "http://localhost:9000" = .ok endpoint ∧
        Url.parse (endpoint.text ++ "?" ++ canonicalQuery [("a", "1&b=2")]) =
          .ok { endpoint with query? := some (canonicalQuery [("a", "1&b=2")]) } := by
  intro names
  have lawful : LawfulDomainNames := DomainNames.lawful_plain
  refine ⟨((canonicalQuery_holds_params _).1 _).mpr (by decide), ?_, ?_, ?_⟩
  · intro same
    exact absurd (((canonicalQuery_holds_params _).1 _).mp same) (by decide)
  · have read : (Url.parse ("http://localhost:9000/b" ++ "?"
        ++ canonicalQuery [("a", "1&b=2")])).isOk = true := by decide +kernel
    cases parsed : Url.parse ("http://localhost:9000/b" ++ "?"
        ++ canonicalQuery [("a", "1&b=2")]) with
    | error _ =>
        rw [parsed] at read
        cases read
    | ok url =>
        exact ⟨url, rfl, (canonicalQuery_holds_params _).2.2.2.2.1 _ (by decide) (by decide) url
          parsed⟩
  · have read : (Url.parse "http://localhost:9000").toOption.map
        (fun url => (url.isWeb, url.query?, url.fragment?)) = some (true, none, none) := by
      decide +kernel
    cases parsed : Url.parse "http://localhost:9000" with
    | error _ =>
        rw [parsed] at read
        cases read
    | ok endpoint =>
        rw [parsed] at read
        injection read with facts
        injection facts with web rest
        injection rest with noQuery noFragment
        exact ⟨endpoint, rfl, (canonicalQuery_holds_params _).2.2.2.2.2 _ endpoint parsed web noQuery
          noFragment⟩

end Signature
end CrawlBoard
