import CrawlBoard.Report.Document
import CrawlBoard.Store.Basic
import CrawlBoard.Text.Blank
import CrawlBoard.Time.Rfc3339

namespace CrawlBoard

structure Pager where
  keyPrefix : String
  pageSize : Nat := 10
  pageSize_pos : 0 < pageSize := by decide

namespace Pager

def ofPrefix (keyPrefix : String) : Pager := { keyPrefix }

/-- A page holds at least one object. -/
def withPageSize (pager : Pager) (size : Nat) : Pager :=
  { pager with pageSize := max size 1, pageSize_pos := Nat.le_max_right .. }

def countLimit : Nat := 1000

def query (pager : Pager) (token? : Option String) : ListQuery :=
  ⟨pager.keyPrefix, pager.pageSize, token?⟩

def countQuery (pager : Pager) (token? : Option String) : ListQuery :=
  ⟨pager.keyPrefix, countLimit, token?⟩

end Pager

structure ListedPage where
  entries : List ObjectEntry
  next? : Option String
  deriving DecidableEq, Repr

namespace ListedPage

def ofListing (page : ObjectPage) : ListedPage := ⟨page.entries.filter ObjectEntry.isReport, page.next?⟩

def keys (page : ListedPage) : List String := page.entries.map (·.key)

end ListedPage

inductive FetchError where
  | store (error : StoreError)
  | emptyBody
  | parse (document : Utf8.Bytes) (failure : Json.Failure)
  deriving DecidableEq, Repr

def FetchError.message : FetchError → String
  | .store error => error.message
  | .emptyBody => "Empty body"
  | .parse document failure => "invalid report JSON: " ++ failure.message document

namespace Pager

def unknownTime : String := "Unknown"

/-- The time of the object itself is preferred to that of the listing. -/
def stamp (fetched? listed? : Option Instant) : String :=
  match fetched? <|> listed? with
  | some instant => Rfc3339.renderMillis instant
  | none => unknownTime

def report (entry : ObjectEntry) (object : StoredObject) : Except FetchError Report :=
  if object.body.all Blank.isAsciiBlank then .error .emptyBody
  else match Report.parse object.body with
    | .error failure => .error (.parse object.body failure)
    | .ok report =>
        .ok { report with lastModified? := some (stamp object.lastModified? entry.updated?) }

def fetched (entry : ObjectEntry) (answer : Except StoreError StoredObject) :
    Except FetchError Report :=
  match answer with
  | .error error => .error (.store error)
  | .ok object => report entry object

def outcome (entry : ObjectEntry) (answer : Except StoreError StoredObject) :
    Except String Report :=
  (fetched entry answer).mapError FetchError.message

end Pager

end CrawlBoard
