import CrawlBoard.Proofs.Json.Writing
import CrawlBoard.Proofs.Store.GcsListing
import CrawlBoard.Proofs.Store.MinioListing

namespace CrawlBoard

open Xml (Name Attribute Node)

/-- However a page is written for the one store and for the other, both read that page. -/
theorem listing_read_by_both_stores {page : ObjectPage} {xml json : String}
    (given : ∀ token ∈ page.next?, token ≠ "") (asXml : MinioStore.Listing.Writes page xml)
    (asJson : GcsStore.Listing.Writes page json) :
    MinioStore.parsePage xml = .ok page ∧ GcsStore.parsePage json = .ok page :=
  ⟨MinioStore.parsePage_of_writes asXml given, GcsStore.parsePage_of_writes asJson given⟩

namespace MarkedListing

def stamp : Instant := ⟨1746102600, 500000000, by decide, by decide, by decide⟩

def page : ObjectPage where
  entries := [⟨"</Key><KeyCount>\"1\"", some stamp⟩, ⟨"b&amp;c.json", none⟩]
  next? := some "1 < 2 & '3'"

def xml : String :=
  "<?xml version=\"1.0\"?>
<ListBucketResult><Name>a</Name><KeyCount>2</KeyCount><IsTruncated>true</IsTruncated>
<NextContinuationToken>1 &lt; 2 &amp; &apos;3&apos;</NextContinuationToken>
<Contents><Key>&lt;/Key&gt;&lt;KeyCount&gt;&quot;1&quot;</Key>
<LastModified>2025-05-01T14:30:00.5+02:00</LastModified><Size>1</Size></Contents>
<Contents><ETag a='\"'/><Key>b&amp;amp;c.json</Key></Contents></ListBucketResult>"

def json : String :=
  "\x7b
\"kind\": \"storage#objects\",
\"nextPageToken\": \"1 < 2 & '3'\",
\"items\": [
\x7b\"size\": \"1\", \"name\": \"</Key><KeyCount>\\\"1\\\"\", \"updated\": \"2025-05-01 12:30:00.50z\"\x7d,
\x7b\"name\": \"b&amp;c.json\"\x7d
]
\x7d
"

theorem writes_stamp_east : Rfc3339.Writes stamp "2025-05-01T14:30:00.5+02:00" :=
  .style ⟨.east 2 0, 'T', ['5']⟩ ⟨by decide, by decide, by decide, by decide⟩

theorem writes_stamp_utc : Rfc3339.Writes stamp "2025-05-01 12:30:00.50z" :=
  .style ⟨.lowerUtc, ' ', ['5', '0']⟩ ⟨by decide, by decide, by decide, by decide⟩

set_option maxRecDepth 4000 in
open MinioStore.Listing in
theorem writes_xml : Writes page xml := by
  have first : EntryNodes (some "</Key><KeyCount>\"1\"") (some stamp) _ :=
    .key [] _ <| .other (.text "\n") (by decide) <| .updated [] writes_stamp_east <|
    .other (leaf ⟨"Size", by decide, by decide⟩ [] "1") (by decide) .done
  have second : EntryNodes (some "b&amp;c.json") none _ :=
    .other (.empty ⟨"ETag", by decide, by decide⟩
      [⟨⟨"a", by decide, by decide⟩, '\'', "\"", by decide, by decide⟩]) (by decide) <|
    .key [] _ .done
  have inside : PageNodes page.entries (some "true") page.next? _ :=
    .other (leaf ⟨"Name", by decide, by decide⟩ [] "a") (by decide) <|
    .other (leaf ⟨"KeyCount", by decide, by decide⟩ [] "2") (by decide) <|
    .flag [] "true" <| .other (.text "\n") (by decide) <|
    .token [] _ <| .other (.text "\n") (by decide) <|
    .entry [] first <| .other (.text "\n") (by decide) <|
    .entry [] second .done
  have written := Writes.document
    [⟨⟨"version", by decide, by decide⟩, '"', "1.0", by decide, by decide⟩] [] inside (by decide)
  refine (congrArg (Writes page) ?_).mp written
  rfl

def spaced (name : String) (value : Utf8.Bytes) : Json.Member where
  name
  quoted := Json.escaped name
  written := Json.writtenAll_escaped name
  trail := []
  trails := .nil
  lead := [0x20]
  leads := .space
  value

set_option maxRecDepth 4000 in
open GcsStore.Listing in
theorem writes_json : Writes page json := by
  have line : Json.Blanks [0x0A] := by decide
  have quoted (text : String) := Json.Quoted.quotes (Json.writtenAll_escaped text)
  let first : GcsStore.Listing.Item := {
    entry := ⟨"</Key><KeyCount>\"1\"", some stamp⟩
    members := [spaced "size" _, spaced "name" _, spaced "updated" _]
    inside := .other _ (by decide) (.text (quoted "1")) <| .key _ rfl (quoted _) <|
      .updated _ rfl (quoted _) writes_stamp_utc .done
    bytes := _
    listed := .brackets <| .part (.first .nil) <| .part (.comma .nil .space) <|
      .part (.comma .nil .space) <| .done .nil }
  let second : GcsStore.Listing.Item := {
    entry := ⟨"b&amp;c.json", none⟩
    members := [spaced "name" _]
    inside := .key _ rfl (quoted _) .done
    bytes := _
    listed := .brackets <| .part (.first .nil) <| .done .nil }
  have items : Json.ListOf ([first, second].map GcsStore.Listing.Item.bytes) _ :=
    .brackets <| .part (.first line) <| .part (.comma .nil line) <| .done line
  have inside : PageMembers (some [first, second]) page.next?
      [spaced "kind" _, spaced "nextPageToken" _, spaced "items" _] :=
    .other _ (by decide) (.text (quoted "storage#objects")) <| .token _ rfl (quoted _) <|
      .items _ rfl items .done
  exact .document inside rfl .nil (.brackets <| .part (.first line) <| .part (.comma .nil line) <|
    .part (.comma .nil line) <| .done line) line (Utf8.encode_of_ascii rfl rfl)

end MarkedListing

theorem marked_listing_read :
    MinioStore.Listing.Writes MarkedListing.page MarkedListing.xml ∧
      GcsStore.Listing.Writes MarkedListing.page MarkedListing.json ∧
      MinioStore.parsePage MarkedListing.xml = .ok MarkedListing.page ∧
      GcsStore.parsePage MarkedListing.json = .ok MarkedListing.page :=
  have asXml := MarkedListing.writes_xml
  have asJson := MarkedListing.writes_json
  ⟨asXml, asJson, listing_read_by_both_stores (by decide) asXml asJson⟩

end CrawlBoard
