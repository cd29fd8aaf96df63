import CrawlBoard.Proofs.Json.WellFormed
import CrawlBoard.Proofs.Time.Rfc3339
import CrawlBoard.Store.Gcs

namespace CrawlBoard.GcsStore

open Json (Reads Fills Member Quoted ListOf ObjectOf Blanks opens_quoted opens_objectOf)
open Utf8 (Bytes)

namespace Listing

/-- The members of an object: its key and its time, where given, between other members. -/
inductive EntryMembers : Option String → Option Instant → List Member → Prop
  | done : EntryMembers none none []
  | other {key? : Option String} {updated? : Option Instant} {members : List Member}
      (member : Member) (foreign : member.name ∉ ["name", "updated"])
      (value : Json.Value member.value) (others : EntryMembers key? updated? members) :
      EntryMembers key? updated? (member :: members)
  | key {updated? : Option Instant} {members : List Member} {key : String} (member : Member)
      (named : member.name = "name") (quoted : Quoted key member.value)
      (others : EntryMembers none updated? members) :
      EntryMembers (some key) updated? (member :: members)
  | updated {key? : Option String} {members : List Member} {instant : Instant} {text : String}
      (member : Member) (named : member.name = "updated") (quoted : Quoted text member.value)
      (writes : Rfc3339.Writes instant text) (others : EntryMembers key? none members) :
      EntryMembers key? (some instant) (member :: members)

structure Item where
  entry : ObjectEntry
  members : List Member
  inside : EntryMembers (some entry.key) entry.updated? members
  bytes : Bytes
  listed : ObjectOf members bytes

inductive PageMembers : Option (List Item) → Option String → List Member → Prop
  | done : PageMembers none none []
  | other {items? : Option (List Item)} {token? : Option String} {members : List Member}
      (member : Member) (foreign : member.name ∉ ["items", "nextPageToken"])
      (value : Json.Value member.value) (others : PageMembers items? token? members) :
      PageMembers items? token? (member :: members)
  | items {token? : Option String} {members : List Member} {items : List Item} (member : Member)
      (named : member.name = "items") (listed : ListOf (items.map Item.bytes) member.value)
      (others : PageMembers none token? members) :
      PageMembers (some items) token? (member :: members)
  | token {items? : Option (List Item)} {members : List Member} {token : String} (member : Member)
      (named : member.name = "nextPageToken") (quoted : Quoted token member.value)
      (others : PageMembers items? none members) :
      PageMembers items? (some token) (member :: members)

/-- The listing of a page. A page without objects may leave out the list of them. -/
inductive Writes (page : ObjectPage) (text : String) : Prop
  | document {items? : Option (List Item)} {members : List Member} {lead bytes trail : Bytes}
      (inside : PageMembers items? page.next? members)
      (entries : (items?.getD []).map Item.entry = page.entries) (leads : Blanks lead)
      (listed : ObjectOf members bytes) (trails : Blanks trail)
      (encoded : Utf8.encode text = lead ++ (bytes ++ trail)) : Writes page text

end Listing

namespace EntryForm

def Draft.instant? (draft : Draft) : Option Instant :=
  (draft.updated.getD none).bind Rfc3339.parse?

theorem fills {key? : Option String} {updated? : Option Instant} {members : List Member}
    (inside : Listing.EntryMembers key? updated? members) (draft : Draft)
    (unnamed : key?.isSome → draft.name = none) (undated : updated?.isSome → draft.updated = none) :
    ∃ last, Fills shape draft members last ∧ last.name = key?.or draft.name ∧
      last.instant? = updated?.or draft.instant? := by
  induction inside generalizing draft with
  | done => exact ⟨draft, .done draft, rfl, rfl⟩
  | other member foreign value others ih =>
      obtain ⟨last, fills, result⟩ := ih draft unnamed undated
      have unknown : shape.field? member.name = none := by
        simp only [List.mem_cons, List.not_mem_nil, or_false, not_or] at foreign
        simp [shape, Field.text, Ne.symm foreign.1, Ne.symm foreign.2]
      exact ⟨last, .unknown unknown value.passes fills, result⟩
  | @key updated? members key member named quoted others ih =>
      have isOpen : draft.name = none := unnamed rfl
      obtain ⟨last, fills, nameRead, dated⟩ :=
        ih { draft with name := some key } (fun given => nomatch given) undated
      exact ⟨last, .set Field.name (fun draft name => { draft with name := some name })
        (by rw [named]; rfl) (by simp [shape, Draft.has, isOpen]) rfl (Reads.text quoted) fills,
        nameRead, dated⟩
  | @updated key? members instant text member named quoted writes others ih =>
      have isOpen : draft.updated = none := undated rfl
      obtain ⟨last, fills, nameRead, dated⟩ :=
        ih { draft with updated := some (some text) } unnamed fun given => nomatch given
      refine ⟨last, .set Field.updated (fun draft stamp => { draft with updated := some stamp })
        (by rw [named]; rfl) (by simp [shape, Draft.has, isOpen]) rfl
        ((Reads.text quoted).optional (opens_quoted quoted)) fills, nameRead, ?_⟩
      exact dated.trans writes.parse?

end EntryForm

theorem Listing.Item.reads (item : Item) : Reads EntryForm.shape.record item.bytes item.entry := by
  obtain ⟨last, fills, named, dated⟩ :=
    EntryForm.fills item.inside {} (fun _ => rfl) fun _ => rfl
  refine Reads.record fills ?_ item.listed
  have name : last.name = some item.entry.key := named
  have instant : (last.updated.getD none).bind Rfc3339.parse? = item.entry.updated? := by
    rw [← EntryForm.Draft.instant?, dated]
    exact Option.or_none
  simp only [EntryForm.shape, EntryForm.Draft.finish, name, instant]

namespace PageForm

theorem fills {items? : Option (List Listing.Item)} {token? : Option String}
    {members : List Member} (inside : Listing.PageMembers items? token? members)
    (draft : Draft) (unlisted : items?.isSome → draft.items = none)
    (unmarked : token?.isSome → draft.next = none) :
    ∃ last, Fills shape draft members last ∧
      last.items = (items?.map (·.map Listing.Item.entry)).or draft.items ∧
      last.next.getD none = token?.or (draft.next.getD none) := by
  induction inside generalizing draft with
  | done => exact ⟨draft, .done draft, rfl, rfl⟩
  | other member foreign value others ih =>
      obtain ⟨last, fills, result⟩ := ih draft unlisted unmarked
      have unknown : shape.field? member.name = none := by
        simp only [List.mem_cons, List.not_mem_nil, or_false, not_or] at foreign
        simp [shape, Field.text, Ne.symm foreign.1, Ne.symm foreign.2]
      exact ⟨last, .unknown unknown value.passes fills, result⟩
  | @items token? members items member named listed others ih =>
      have isOpen : draft.items = none := unlisted rfl
      have reads := Reads.list Listing.Item.bytes Listing.Item.entry items
        (fun item _ => item.reads) (fun item _ => opens_objectOf item.listed) listed
      obtain ⟨last, fills, result⟩ :=
        ih { draft with items := some (items.map Listing.Item.entry) } (fun given => nomatch given)
          unmarked
      exact ⟨last, .set Field.items
        (fun (draft : Draft) (entries : List ObjectEntry) => { draft with items := some entries })
        (by rw [named]; rfl) (by simp [shape, Draft.has, isOpen]) rfl reads fills, result⟩
  | @token items? members token member named quoted others ih =>
      have isOpen : draft.next = none := unmarked rfl
      obtain ⟨last, fills, result⟩ :=
        ih { draft with next := some (some token) } unlisted fun given => nomatch given
      exact ⟨last, .set Field.next
        (fun (draft : Draft) (token? : Option String) => { draft with next := some token? })
        (by rw [named]; rfl) (by simp [shape, Draft.has, isOpen]) rfl
        ((Reads.text quoted).optional (opens_quoted quoted)) fills, result⟩

end PageForm

theorem parsePage_of_writes {page : ObjectPage} {text : String} (writes : Listing.Writes page text)
    (given : ∀ token ∈ page.next?, token ≠ "") : parsePage text = .ok page := by
  obtain ⟨inside, entries, leads, listed, trails, encoded⟩ := writes
  rename_i items? members lead bytes trail
  obtain ⟨last, fills, itemsRead, marked⟩ :=
    PageForm.fills inside {} (fun _ => rfl) fun _ => rfl
  have items : last.items.getD [] = page.entries := by
    rw [itemsRead, ← entries]
    cases items? <;> rfl
  have next : (last.next.getD none).filter (fun token => !token.isEmpty) = page.next? := by
    rw [marked, Option.getD_none, Option.or_none]
    exact ObjectPage.filter_next? given
  have reads : Reads PageForm.shape.record bytes page :=
    Reads.record fills (by simp only [PageForm.shape, PageForm.Draft.finish, items, next]) listed
  rw [parsePage, encoded, reads.document leads trails]
  rfl

end CrawlBoard.GcsStore
