import CrawlBoard.Proofs.Dashboard.FixedStore
import CrawlBoard.Proofs.Dashboard.ListingTrail
/-!
The listings of a store, each one asked for with the token of the one before. A dashboard opens
them in this order, whatever it is made to do, and shows them all once the last one is ready.
-/

namespace CrawlBoard

namespace FixedStore

/-- Listings from a token on, up to one without a token. -/
inductive Chain (store : FixedStore) (pager : Pager) : Option String → List ObjectPage → Prop
  | last {token? : Option String} {page : ObjectPage}
      (listed : store.list (pager.query token?) = .ok page) (ends : page.next? = none) :
      Chain store pager token? [page]
  | more {token? : Option String} {token : String} {page : ObjectPage} {pages : List ObjectPage}
      (listed : store.list (pager.query token?) = .ok page) (next : page.next? = some token)
      (others : Chain store pager (some token) pages) : Chain store pager token? (page :: pages)

def reportsOf (store : FixedStore) (page : ObjectPage) : List Report :=
  (page.entries.filter ObjectEntry.isReport).filterMap fun entry =>
    (Pager.fetched entry (store.fetch entry.key)).toOption

def reportsIn (store : FixedStore) (pages : List ObjectPage) : List Report :=
  pages.flatMap store.reportsOf

namespace Chain

variable {store : FixedStore} {pager : Pager} {token? : Option String} {pages : List ObjectPage}

theorem ne_nil (chain : store.Chain pager token? pages) : pages ≠ [] := by
  cases chain <;> exact List.cons_ne_nil _ _

theorem trail (chain : store.Chain pager token? pages) :
    Trail (fun token? => store.list (pager.query token?)) token? pages none := by
  induction chain with
  | last listed ends => exact .last listed ends
  | more listed next _ ih => exact .more listed next ih

theorem next?_eq_none_iff (chain : store.Chain pager token? pages) {index : Nat}
    {page : ObjectPage} (found : pages[index]? = some page) :
    page.next? = none ↔ index + 1 = pages.length :=
  (chain.trail.next?_eq_none_iff found).trans (and_iff_left rfl)

end Chain

theorem decided_replies (store : FixedStore) (pager : Pager) :
    (store.replies pager).Decided fun token? => store.list (pager.query token?) where
  listing_iff _ _ _ := Iff.rfl
  fetch _ key := ⟨store.fetch key, fun _ same => congrArg store.fetch same.symm⟩

end FixedStore

theorem flatMap_getElem? {α : Type} (items : List α) :
    (List.range items.length).flatMap (fun index => items[index]?.toList) = items := by
  induction items with
  | nil => rfl
  | cons item items ih =>
      rw [List.length_cons, List.range_succ_eq_map, List.flatMap_cons, List.flatMap_map]
      exact congrArg (item :: ·) ih

namespace Replies.Accounted

open FixedStore (Chain)

variable {store : FixedStore} {pager : Pager} {dashboard : Dashboard} {pages : List ObjectPage}
  (accounted : (store.replies pager).Accounted dashboard) (chain : store.Chain pager none pages)
include accounted chain

theorem listing_in_chain {index : Nat} {page : OpenPage} {next? : Option String}
    (found : dashboard.page? index = some page) (ready : page.status = .ready next?) :
    ∃ listing, pages[index]? = some listing ∧ next? = listing.next? ∧
      (store.replies pager).Recorded page.serial false ⟨.ofListing listing, []⟩ page.items :=
  accounted.ready_on_trail (store.decided_replies pager) chain.trail found ready

theorem reports_of_chain (distinct : ∀ page ∈ pages, (page.entries.map (·.key)).Nodup) {last : Nat}
    {lastPage : OpenPage} (foundLast : dashboard.page? last = some lastPage)
    (complete : lastPage.status = .ready none) : dashboard.reports = store.reportsIn pages := by
  have coherent := accounted.coherent
  have length : dashboard.pages.length = last + 1 :=
    coherent.length_of_last foundLast (by rw [complete]; rfl)
  have whole : last + 1 = pages.length := by
    obtain ⟨listing, inside, ends, _⟩ := accounted.listing_in_chain chain foundLast complete
    exact (chain.next?_eq_none_iff inside).mp ends.symm
  -- Pages before the last one are ready with a token, as the chain of pages demands.
  have shown (index : Nat) (page : OpenPage) (found : dashboard.page? index = some page) :
      page.items.reports = pages[index]?.toList.flatMap store.reportsOf := by
    obtain ⟨next?, ready⟩ : ∃ next?, page.status = .ready next? := by
      by_cases same : index = last
      · obtain rfl : page = lastPage := Option.some.inj (found.symm.trans (same ▸ foundLast))
        exact ⟨none, complete⟩
      · have inside := coherent.lt_of_page found
        obtain ⟨token, ready⟩ := coherent.chained index page found (by omega)
        exact ⟨some token, ready⟩
    obtain ⟨listing, inside, _, recorded⟩ := accounted.listing_in_chain chain found ready
    have nodup : (ListedPage.ofListing listing).keys.Nodup :=
      (distinct listing (List.mem_of_getElem? inside)).sublist (List.filter_sublist.map _)
    rw [inside, Option.toList_some, List.flatMap_singleton, PageItems.reports,
      FixedStore.items_of_recorded nodup recorded, List.filterMap_map]
    exact List.filterMap_congr fun entry _ => store.report?_item entry
  calc
    dashboard.reports
        = (List.range pages.length).flatMap fun index =>
            pages[index]?.toList.flatMap store.reportsOf := by
      rw [← whole, ← length]
      exact coherent.flatMap_pages (fun page => page.items.reports) _ shown
    _ = store.reportsIn pages := by
      rw [← List.flatMap_assoc, flatMap_getElem?]
      rfl

end Replies.Accounted

end CrawlBoard
