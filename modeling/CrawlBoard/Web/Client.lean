import CrawlBoard.Text.Utf8
import CrawlBoard.Text.Percent
import CrawlBoard.Url.Parser
/-!
Requests over the web. What the network answers is a function, so that everything that depends
on it can be reasoned about.
-/

namespace CrawlBoard.Web

open Utf8 (Bytes)

structure Request where
  url : Url
  headers : List (String × String) := []
  deriving DecidableEq, Repr

structure Response where
  status : Nat
  headers : List (String × Bytes) := []
  /-- The bytes that came; the rest is missing when the response was cut short. -/
  body : Bytes := []
  cut : Bool := false
  deriving DecidableEq, Repr

/-- Nothing when the connection fails. -/
abbrev Network := Request → Option Response

def unreachable : Network := fun _ => none

inductive TransportError where
  | unusable
  | notWeb (url : Url)
  | sending (url : Url)
  | decoding
  deriving DecidableEq, Repr

def TransportError.message : TransportError → String
  | .unusable => "builder error"
  | .notWeb url => "builder error for url (" ++ url.text ++ ")"
  | .sending url => "error sending request for url (" ++ url.text ++ ")"
  | .decoding => "error decoding response body"

/-- User information is sent in a header and not shown; it is kept when it is not text. -/
def hideUser (url : Url) : Url :=
  match Utf8.decode? (Percent.decode (Utf8.encode url.username)) with
  | some _ => url.withoutUser
  | none => url

def get [DomainNames] (network : Network) (text : String) (headers : List (String × String)) :
    Except TransportError Response :=
  match Url.parse text with
  | .error _ => .error .unusable
  | .ok url =>
      if url.hostText?.isNone then .error (.notWeb url)
      else if !url.isWeb then .error (.notWeb (hideUser url))
      else match network ⟨hideUser url, headers⟩ with
        | none => .error (.sending (hideUser url))
        | some response => .ok response

namespace Response

def succeeded (response : Response) : Bool := 200 ≤ response.status && response.status ≤ 299

def header? (response : Response) (name : String) : Option Bytes := response.headers.lookup name

def bytes (response : Response) : Except TransportError Bytes :=
  if response.cut then .error .decoding else .ok response.body

def text (response : Response) : Except TransportError String :=
  response.bytes.map Utf8.textLossy

end Response

end CrawlBoard.Web
