import CrawlBoard.Proofs.Digest
import CrawlBoard.Proofs.Digits
import CrawlBoard.Proofs.Encoding
import CrawlBoard.Store.Signature
/-!
What a signature tells of its request. The texts that are digested and signed can be taken apart
again, so that two requests have one signature only if the digest, or the keyed digest, has one
value for two different messages.
-/

namespace CrawlBoard

open Utf8 (Bytes)

namespace Signature

/-- Every part of the request stands on one line. -/
structure Request.OneLined (request : Request) : Prop where
  method : '\n' ∉ request.method.toList
  host : '\n' ∉ request.host.toList
  path : '\n' ∉ request.path.toList
  query : '\n' ∉ request.query.toList

/-- The message that is digested for a request at a time. -/
def digested (request : Request) (now : Instant) : Bytes :=
  Utf8.encode (canonicalRequest request (stamp now))

/-- The message that is signed for a request at a time. -/
def signed (region : String) (request : Request) (now : Instant) : Bytes :=
  Utf8.encode (stringToSign (stamp now) (scope region (day now))
    (canonicalRequest request (stamp now)))

/-- Two different messages with one value. -/
structure Collision (value : Bytes → Bytes) (first second : Bytes) : Prop where
  differ : first ≠ second
  same : value first = value second

/-! ## Times -/

theorem plain_of_mem_day {instant : Instant} {char : Char} (member : char ∈ (day instant).toList) :
    Digits.isDigit char = true ∨ char = '+' ∨ char = '-' := by
  simp only [day, Rfc3339.yearText, String.toList_append, List.mem_append] at member
  rcases member with (year | month) | dayOfMonth
  · split at year
    · exact .inl (Digits.isDigit_of_mem_pad year)
    · rw [String.toList_append, List.mem_append] at year
      rcases year with sign | digits
      · split at sign <;> simp_all
      · exact .inl (Digits.isDigit_of_mem_pad digits)
  · exact .inl (Digits.isDigit_of_mem_pad month)
  · exact .inl (Digits.isDigit_of_mem_pad dayOfMonth)

theorem plain_of_mem_stamp {instant : Instant} {char : Char}
    (member : char ∈ (stamp instant).toList) :
    Digits.isDigit char = true ∨ char ∈ ['+', '-', 'T', 'Z'] := by
  have digits {number : Nat} (inside : char ∈ (Digits.pad 2 number).toList) :
      Digits.isDigit char = true ∨ char ∈ ['+', '-', 'T', 'Z'] :=
    .inl (Digits.isDigit_of_mem_pad inside)
  simp only [stamp, String.toList_append, List.mem_append] at member
  rcases member with ((((date | mark) | hour) | minute) | second) | mark
  · rcases plain_of_mem_day date with digit | rfl | rfl
    · exact .inl digit
    · exact .inr (by decide)
    · exact .inr (by decide)
  · exact .inr (by simp_all)
  · exact digits hour
  · exact digits minute
  · exact digits second
  · exact .inr (by simp_all)

theorem stamp_oneLined (instant : Instant) : '\n' ∉ (stamp instant).toList :=
  fun member => absurd (plain_of_mem_stamp member) (by decide)

theorem day_eq_of_stamp_eq {early late : Instant} (same : stamp early = stamp late) :
    day early = day late := by
  have cut (instant : Instant) : ∃ clock, Search.cut? ['T'] (stamp instant).toList =
      some ((day instant).toList, clock) := by
    have missing : 'T' ∉ (day instant).toList :=
      fun member => absurd (plain_of_mem_day member) (by decide)
    simp only [stamp, String.toList_append, List.append_assoc]
    exact ⟨_, Search.cut?_singleton missing _⟩
  obtain ⟨_, cutEarly⟩ := cut early
  obtain ⟨_, cutLate⟩ := cut late
  rw [same, cutLate] at cutEarly
  have parts := congrArg Prod.fst (Option.some.inj cutEarly)
  exact String.toList_inj.mp parts.symm

/-! ## Texts -/

theorem framed_inj {front back middle other ending end' : String}
    (length : ending.toList.length = end'.toList.length)
    (same : front ++ middle ++ back ++ ending = front ++ other ++ back ++ end') :
    middle = other ∧ ending = end' := by
  have chars := congrArg String.toList same
  simp only [String.toList_append] at chars
  obtain ⟨beginnings, endings⟩ := List.append_inj' chars length
  refine ⟨?_, String.toList_inj.mp endings⟩
  exact String.toList_inj.mp (List.append_cancel_left (List.append_cancel_right beginnings))

theorem lines_canonicalRequest {request : Request} (lined : request.OneLined) (now : Instant) :
    Search.splitOn '\n' (canonicalRequest request (stamp now)).toList =
      [request.method, request.path, request.query, "host:" ++ request.host,
        "x-amz-content-sha256:" ++ emptyDigest, "x-amz-date:" ++ stamp now, "", signedHeaders,
        emptyDigest].map String.toList := by
  have noBreak : '\n' ∉ emptyDigest.toList := Sha256.not_mem_hex (by decide) _
  have stampLined := stamp_oneLined now
  refine Search.splitOn_joined rfl ?_ (by simp)
  simp [lined.method, lined.path, lined.query, lined.host, noBreak, stampLined, signedHeaders]

theorem digested_eq_iff {first second : Request} (firstLined : first.OneLined)
    (secondLined : second.OneLined) (early late : Instant) :
    digested first early = digested second late ↔ first = second ∧ stamp early = stamp late := by
  constructor
  · intro same
    have lines := congrArg (fun text : String => Search.splitOn '\n' text.toList)
      (Utf8.encode_injective same)
    simp only [lines_canonicalRequest firstLined, lines_canonicalRequest secondLined, List.map_cons,
      List.cons.injEq, String.toList_inj, String.append_right_inj] at lines
    obtain ⟨method, path, query, host, _, stamps, _⟩ := lines
    obtain ⟨_, _, _, _⟩ := first
    obtain ⟨_, _, _, _⟩ := second
    simp_all
  · rintro ⟨rfl, stamps⟩
    rw [digested, digested, stamps]

theorem stringToSign_eq (stamp scope canonical : String) : stringToSign stamp scope canonical =
    algorithm ++ "\n" ++ stamp ++ ("\n" ++ scope ++ "\n") ++ digestHex canonical := by
  simp [stringToSign, String.intercalate_cons_cons, String.append_assoc]

theorem signed_eq_iff (region : String) (first second : Request) {early late : Instant}
    (days : day early = day late) :
    signed region first early = signed region second late ↔ stamp early = stamp late ∧
      Sha256.digest (digested first early) = Sha256.digest (digested second late) := by
  constructor
  · intro same
    have texts := Utf8.encode_injective same
    rw [stringToSign_eq, stringToSign_eq, days] at texts
    have widths : (digestHex (canonicalRequest first (stamp early))).toList.length =
        (digestHex (canonicalRequest second (stamp late))).toList.length := by
      simp only [digestHex, Sha256.length_hex, Sha256.length_digest]
    obtain ⟨stamps, digests⟩ := framed_inj widths texts
    exact ⟨stamps, Sha256.hex_injective digests⟩
  · rintro ⟨stamps, digests⟩
    have texts : digestHex (canonicalRequest first (stamp early)) =
        digestHex (canonicalRequest second (stamp late)) := congrArg Sha256.hex digests
    rw [signed, signed, stringToSign_eq, stringToSign_eq, days, texts, stamps]

variable (credentials : Credentials)

def keyAt (now : Instant) : Bytes :=
  signingKey credentials.secretKey (day now) credentials.region

theorem authorization_eq (request : Request) (now : Instant) :
    (sign credentials request now).authorization =
      algorithm ++ " Credential=" ++ credentials.accessKey ++ "/" ++ day now
        ++ ("/" ++ credentials.region ++ "/" ++ service ++ "/aws4_request" ++ ", SignedHeaders="
          ++ signedHeaders ++ ", Signature=")
        ++ Sha256.hex (Sha256.keyed (keyAt credentials now)
          (signed credentials.region request now)) := by
  simp [sign, scope, signed, keyAt, String.append_assoc]

theorem authorization_eq_iff (first second : Request) (early late : Instant) :
    (sign credentials first early).authorization = (sign credentials second late).authorization ↔
      day early = day late ∧
        Sha256.keyed (keyAt credentials early) (signed credentials.region first early) =
          Sha256.keyed (keyAt credentials late) (signed credentials.region second late) := by
  rw [authorization_eq, authorization_eq]
  constructor
  · intro same
    obtain ⟨days, signatures⟩ := framed_inj
      (by simp only [Sha256.length_hex, Sha256.length_keyed]) same
    exact ⟨days, Sha256.hex_injective signatures⟩
  · rintro ⟨days, signatures⟩
    rw [days, signatures]

/-- Two requests of one line for each part have one authorization exactly if they are the same
request, with the same stamp, or one of two collisions is met: of the messages that are digested for
one stamp, or of the messages that are signed with one day's key. -/
theorem one_signature_one_request {first second : Request} (firstLined : first.OneLined)
    (secondLined : second.OneLined) (early late : Instant) :
    (sign credentials first early).authorization = (sign credentials second late).authorization ↔
      (first = second ∧
        (sign credentials first early).date = (sign credentials second late).date) ∨
      ((sign credentials first early).date = (sign credentials second late).date ∧
        Collision Sha256.digest (digested first early) (digested second late)) ∨
      (keyAt credentials early = keyAt credentials late ∧ day early = day late ∧
        Collision (Sha256.keyed (keyAt credentials early))
          (signed credentials.region first early) (signed credentials.region second late)) := by
  have keys (days : day early = day late) : keyAt credentials early = keyAt credentials late := by
    rw [keyAt, keyAt, days]
  rw [authorization_eq_iff]
  constructor
  · rintro ⟨days, signatures⟩
    rw [← keys days] at signatures
    -- From the outermost text inwards: either it is the same, or two messages collide there.
    by_cases texts : signed credentials.region first early = signed credentials.region second late
    · obtain ⟨stamps, digests⟩ := (signed_eq_iff _ _ _ days).mp texts
      by_cases messages : digested first early = digested second late
      · exact .inl ((digested_eq_iff firstLined secondLined early late).mp messages)
      · exact .inr (.inl ⟨stamps, messages, digests⟩)
    · exact .inr (.inr ⟨keys days, days, texts, signatures⟩)
  · -- With one stamp, the digest is all that is signed of a request.
    have alike (stamps : stamp early = stamp late)
        (digests : Sha256.digest (digested first early) = Sha256.digest (digested second late)) :
        day early = day late ∧
          Sha256.keyed (keyAt credentials early) (signed credentials.region first early) =
            Sha256.keyed (keyAt credentials late) (signed credentials.region second late) := by
      have days := day_eq_of_stamp_eq stamps
      rw [(signed_eq_iff _ _ _ days).mpr ⟨stamps, digests⟩, keys days]
      exact ⟨days, rfl⟩
    rintro (⟨rfl, stamps⟩ | ⟨stamps, collision⟩ | ⟨sameKey, days, collision⟩)
    · exact alike stamps (congrArg Sha256.digest
        ((digested_eq_iff firstLined secondLined early late).mpr ⟨rfl, stamps⟩))
    · exact alike stamps collision.same
    · rw [← sameKey]
      exact ⟨days, collision.same⟩

/-- One request is signed alike within a second, and another only if a collision is met. -/
theorem same_second_same_signature :
    let credentials : Credentials := ⟨"minioadmin", "minioadmin", "us-east-1"⟩
    let first : Request := ⟨"GET", "localhost:9000", "/b", "a=1"⟩
    let second : Request := ⟨"GET", "localhost:9000", "/b/a", ""⟩
    let early : Instant := ⟨1741064767, 0, by decide, by decide, by decide⟩
    let late : Instant := ⟨1741064767, 999999999, by decide, by decide, by decide⟩
    first.OneLined ∧ second.OneLined ∧ early ≠ late ∧
      (sign credentials first early).authorization = (sign credentials first late).authorization ∧
      ((sign credentials first early).authorization =
          (sign credentials second late).authorization →
        Collision Sha256.digest (digested first early) (digested second late) ∨
          Collision (Sha256.keyed (keyAt credentials early))
            (signed credentials.region first early) (signed credentials.region second late)) := by
  intro credentials first second early late
  have firstLined : first.OneLined := ⟨by decide, by decide, by decide, by decide⟩
  have secondLined : second.OneLined := ⟨by decide, by decide, by decide, by decide⟩
  have stamps : stamp early = stamp late := by decide +kernel
  refine ⟨firstLined, secondLined, by decide, ?_, ?_⟩
  · exact (one_signature_one_request credentials firstLined firstLined early late).mpr
      (.inl ⟨rfl, stamps⟩)
  · intro same
    rcases (one_signature_one_request credentials firstLined secondLined early late).mp same with
      ⟨equal, _⟩ | ⟨_, collision⟩ | ⟨_, _, collision⟩
    · exact absurd equal (by decide)
    · exact .inl collision
    · exact .inr collision

example : canonicalRequest ⟨"GET", "h", "/a", "b\nc"⟩ "" =
    canonicalRequest ⟨"GET", "h", "/a\nb", "c"⟩ "" := by decide +kernel

end Signature

end CrawlBoard
