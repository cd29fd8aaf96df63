import CrawlBoard.Proofs.Dashboard.Replies
/-!
Stores whose listings are decided by their tokens. What a dashboard shows of one follows the trail of
its listings, up to one without a token or up to a failure.
-/

namespace CrawlBoard

/-- What is known of the answers of such a store if nothing is known of its fetches. -/
def Replies.listedBy (listing : Option String → Except StoreError ObjectPage) : Replies where
  listing _ token? answer := answer = listing token?
  fetch _ _ _ := True

/-- A listing is answered with what the token says, and every fetch can be answered. -/
structure Replies.Decided (replies : Replies)
    (listing : Option String → Except StoreError ObjectPage) : Prop where
  listing_iff (serial : Nat) (token? : Option String) (answer : Except StoreError ObjectPage) :
    replies.listing serial token? answer ↔ answer = listing token?
  fetch (serial : Nat) (key : String) :
    ∃ answer, ∀ entry : ObjectEntry, entry.key = key → replies.fetch serial entry answer

theorem Replies.decided_listedBy (listing : Option String → Except StoreError ObjectPage) :
    (listedBy listing).Decided listing where
  listing_iff _ _ _ := Iff.rfl
  fetch _ key := ⟨.error (.notFound key), fun _ _ => trivial⟩

/-- The listings from a token on: up to one without a token, or up to a failure. -/
inductive Trail (listing : Option String → Except StoreError ObjectPage) :
    Option String → List ObjectPage → Option StoreError → Prop
  | last {token? : Option String} {page : ObjectPage} (listed : listing token? = .ok page)
      (ends : page.next? = none) : Trail listing token? [page] none
  | refused {token? : Option String} {error : StoreError} (refuses : listing token? = .error error) :
      Trail listing token? [] (some error)
  | more {token? : Option String} {token : String} {page : ObjectPage} {pages : List ObjectPage}
      {failure? : Option StoreError} (listed : listing token? = .ok page)
      (next : page.next? = some token) (others : Trail listing (some token) pages failure?) :
      Trail listing token? (page :: pages) failure?

def tokenOf (pages : List ObjectPage) : Nat → Option String
  | 0 => none
  | index + 1 => pages[index]?.bind ObjectPage.next?

namespace Trail

variable {listing : Option String → Except StoreError ObjectPage} {token? : Option String}
  {pages : List ObjectPage} {failure? : Option StoreError}

theorem of_ok (trail : Trail listing token? pages failure?) {page : ObjectPage}
    (listed : listing token? = .ok page) :
    ∃ others, pages = page :: others ∧
      ∀ token, page.next? = some token → Trail listing (some token) others failure? := by
  cases trail with
  | last listedToo ends =>
      obtain rfl := Except.ok.inj (listed.symm.trans listedToo)
      exact ⟨[], rfl, fun token next => absurd (next.symm.trans ends) (Option.some_ne_none token)⟩
  | refused refuses => cases listed.symm.trans refuses
  | more listedToo next others =>
      obtain rfl := Except.ok.inj (listed.symm.trans listedToo)
      refine ⟨_, rfl, fun token nextToo => ?_⟩
      obtain rfl := Option.some.inj (next.symm.trans nextToo)
      exact others

theorem of_error (trail : Trail listing token? pages failure?) {error : StoreError}
    (refuses : listing token? = .error error) : pages = [] ∧ failure? = some error := by
  cases trail with
  | refused refusesToo =>
      obtain rfl := Except.error.inj (refuses.symm.trans refusesToo)
      exact ⟨rfl, rfl⟩
  | last listed => cases refuses.symm.trans listed
  | more listed => cases refuses.symm.trans listed

theorem next?_eq_none_iff (trail : Trail listing token? pages failure?) {index : Nat}
    {page : ObjectPage} (found : pages[index]? = some page) :
    page.next? = none ↔ index + 1 = pages.length ∧ failure? = none := by
  induction trail generalizing index with
  | last _ ends =>
      cases index with
      | zero =>
          obtain rfl := Option.some.inj found
          exact ⟨fun _ => ⟨rfl, rfl⟩, fun _ => ends⟩
      | succ index => cases found
  | refused => cases found
  | @more _ _ _ pages _ _ next others ih =>
      cases index with
      | zero =>
          obtain rfl := Option.some.inj found
          rw [next, List.length_cons]
          refine ⟨fun none => absurd none (Option.some_ne_none _), ?_⟩
          rintro ⟨single, noFailure⟩
          cases others with
          | refused => cases noFailure
          | last => cases single
          | more => cases single
      | succ index =>
          rw [List.length_cons, Nat.add_right_cancel_iff]
          exact ih found

end Trail

namespace Replies.Accounted

variable {replies : Replies} {listing : Option String → Except StoreError ObjectPage}
  {dashboard : Dashboard} {pages : List ObjectPage} {failure? : Option StoreError}
  (accounted : replies.Accounted dashboard) (decided : replies.Decided listing)
  (trail : Trail listing none pages failure?)
include accounted decided trail

theorem trail_of_entrance {index : Nat} {token? : Option String}
    (entrance : dashboard.entrance? index = some token?) :
    Trail listing token? (pages.drop index) failure? ∧ token? = tokenOf pages index ∧
      index ≤ pages.length := by
  induction index generalizing token? with
  | zero =>
      obtain rfl := Option.some.inj entrance
      exact ⟨trail, rfl, Nat.zero_le _⟩
  | succ index ih =>
      obtain ⟨page, token, found, ready, rfl⟩ := (Dashboard.entrance?_succ ..).mp entrance
      have shown := accounted.pages index page found
      simp only [PageAccounted, ready] at shown
      obtain ⟨before?, listed, entered, answered, next, _⟩ := shown
      obtain ⟨others, shape, leads⟩ := (ih entered).1.of_ok ((decided.listing_iff ..).mp answered).symm
      have present : pages[index]? = some listed := by
        have head := congrArg List.head? shape
        rwa [List.head?_drop] at head
      refine ⟨?_, ?_, (List.getElem?_eq_some_iff.mp present).1⟩
      · rw [← List.drop_drop, shape]
        exact leads token next.symm
      · rw [tokenOf, present]
        exact next

theorem ready_on_trail {index : Nat} {page : OpenPage} {next? : Option String}
    (found : dashboard.page? index = some page) (ready : page.status = .ready next?) :
    ∃ listed, pages[index]? = some listed ∧ next? = listed.next? ∧
      replies.Recorded page.serial false ⟨.ofListing listed, []⟩ page.items := by
  have shown := accounted.pages index page found
  simp only [PageAccounted, ready] at shown
  obtain ⟨token?, listed, entrance, answered, same, recorded⟩ := shown
  obtain ⟨rest, -, -⟩ := accounted.trail_of_entrance decided trail entrance
  obtain ⟨others, shape, _⟩ := rest.of_ok ((decided.listing_iff ..).mp answered).symm
  refine ⟨listed, ?_, same, recorded⟩
  have head := congrArg List.head? shape
  rwa [List.head?_drop] at head

theorem failed_on_trail {index : Nat} {page : OpenPage} {message : String}
    (found : dashboard.page? index = some page) (failed : page.status = .failed message) :
    index = pages.length ∧ ∃ error, failure? = some error ∧
      message = dashboard.failureText error := by
  have shown := accounted.pages index page found
  simp only [PageAccounted, failed] at shown
  obtain ⟨-, token?, error, entrance, answered, text⟩ := shown
  obtain ⟨rest, -, inside⟩ := accounted.trail_of_entrance decided trail entrance
  obtain ⟨none, failure⟩ := rest.of_error ((decided.listing_iff ..).mp answered).symm
  exact ⟨Nat.le_antisymm inside (List.drop_eq_nil_iff.mp none), error, failure, text⟩

end Replies.Accounted

end CrawlBoard
