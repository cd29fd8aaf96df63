import CrawlBoard.Time.Instant
import CrawlBoard.Web.Client

namespace CrawlBoard

open Utf8 (Bytes)

structure ObjectEntry where
  key : String
  updated? : Option Instant := none
  deriving DecidableEq, Repr

def isReportKey (key : String) : Bool := ".json".toList.isSuffixOf key.toList

def ObjectEntry.isReport (entry : ObjectEntry) : Bool := isReportKey entry.key

structure ObjectPage where
  entries : List ObjectEntry := []
  next? : Option String := none
  deriving DecidableEq, Repr

theorem ObjectPage.filter_next? {page : ObjectPage} (given : ∀ token ∈ page.next?, token ≠ "") :
    page.next?.filter (fun token => !token.isEmpty) = page.next? :=
  Option.ext fun token => Option.mem_filter_iff.trans <|
    and_iff_left_of_imp fun found => by simpa using given token found

structure StoredObject where
  body : Bytes
  lastModified? : Option Instant := none
  deriving DecidableEq, Repr

structure ListQuery where
  keyPrefix : String
  limit : Nat
  token? : Option String := none
  deriving DecidableEq, Repr

inductive StoreError where
  | transport (url : String) (cause : Web.TransportError)
  | status (url : String) (code : Nat)
  | invalidListing (reason : String)
  | endpoint (reason : String)
  | notFound (name : String)
  deriving DecidableEq, Repr

def StoreError.message : StoreError → String
  | .transport url cause => "request to " ++ url ++ " failed: " ++ cause.message
  | .status url code => url ++ " returned HTTP " ++ toString code
  | .invalidListing reason => "invalid listing response: " ++ reason
  | .endpoint reason => "invalid endpoint: " ++ reason
  | .notFound name => "object not found: " ++ name

/-- A call that a store has accepted. It may have to wait for a permit; what it answers is
decided when it goes on. -/
structure Call (σ α : Type) where
  gate? : Option String := none
  unmounts : Bool := false
  answer : σ → Except StoreError α

structure StoreKind (σ : Type) where
  location : σ → String
  list : σ → ListQuery → Call σ ObjectPage × σ
  fetch : σ → String → Call σ StoredObject × σ

def checked (url : String) (response : Web.Response) : Except StoreError Web.Response :=
  if response.status = 404 then .error (.notFound url)
  else if response.succeeded then .ok response
  else .error (.status url response.status)

def request [DomainNames] (network : Web.Network) (url : String) (headers : List (String × String)) :
    Except StoreError Web.Response :=
  match Web.get network url headers with
  | .error cause => .error (.transport url cause)
  | .ok response => checked url response

def bodyText (url : String) (response : Web.Response) : Except StoreError String :=
  response.text.mapError (.transport url)

def bodyBytes (url : String) (response : Web.Response) : Except StoreError Bytes :=
  response.bytes.mapError (.transport url)

end CrawlBoard
