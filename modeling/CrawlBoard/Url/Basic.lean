import CrawlBoard.Text.Digits

namespace CrawlBoard

inductive Host where
  /-- A name; empty for an authority that names no host. -/
  | domain (name : String)
  | ipv4 (address : UInt32)
  | ipv6 (pieces : List UInt16)
  deriving DecidableEq, Repr

inductive UrlPath where
  /-- A path without slashes at its start; nothing can be resolved against it. -/
  | verbatim (text : String)
  | segments (parts : List String)
  deriving DecidableEq, Repr

structure Url where
  scheme : String
  username : String := ""
  password? : Option String := none
  host? : Option Host := none
  /-- Nothing for the port that the scheme has by default. -/
  port? : Option UInt16 := none
  path : UrlPath
  query? : Option String := none
  fragment? : Option String := none
  deriving DecidableEq, Repr

inductive UrlError where
  | emptyHost
  | internationalName
  | invalidPort
  | invalidIpv4
  | invalidIpv6
  | invalidHostCharacter
  | relativeWithoutBase
  deriving DecidableEq, Repr

def UrlError.message : UrlError → String
  | .emptyHost => "empty host"
  | .internationalName => "invalid international domain name"
  | .invalidPort => "invalid port number"
  | .invalidIpv4 => "invalid IPv4 address"
  | .invalidIpv6 => "invalid IPv6 address"
  | .invalidHostCharacter => "invalid domain character"
  | .relativeWithoutBase => "relative URL without a base"

namespace Host

def ipv4Text (address : UInt32) : String :=
  ".".intercalate ([24, 16, 8, 0].map fun (shift : Nat) =>
    toString (address.toNat / Nat.pow 2 shift % 256))

def hexText (value : Nat) : String := String.ofList (Nat.toDigits 16 value)

def longestZeros : List UInt16 → Nat
  | [] => 0
  | piece :: rest => max ((piece :: rest).takeWhile (· = 0)).length (longestZeros rest)

def compressed (zeros : Nat) : List UInt16 → List String × Option (List UInt16)
  | [] => ([], none)
  | piece :: rest =>
      if ((piece :: rest).takeWhile (· = 0)).length = zeros then
        ([], some ((piece :: rest).drop zeros))
      else
        let (before, after) := compressed zeros rest
        (hexText piece.toNat :: before, after)

def ipv6Text (pieces : List UInt16) : String :=
  let zeros := longestZeros pieces
  let join (pieces : List String) : String := ":".intercalate pieces
  if zeros < 2 then join (pieces.map fun piece => hexText piece.toNat)
  else
    let (before, after) := compressed zeros pieces
    join before ++ "::" ++ join ((after.getD []).map fun piece => hexText piece.toNat)

def text : Host → String
  | domain name => name
  | ipv4 address => ipv4Text address
  | ipv6 pieces => "[" ++ ipv6Text pieces ++ "]"

end Host

namespace UrlPath

def text : UrlPath → String
  | verbatim text => text
  | segments parts => String.join (parts.map ("/" ++ ·))

end UrlPath

namespace Url

def hostText? (url : Url) : Option String :=
  (url.host?.map Host.text).filter fun text => !text.isEmpty

def userText (url : Url) : String :=
  match url.password? with
  | some password => url.username ++ ":" ++ password ++ "@"
  | none => if url.username.isEmpty then "" else url.username ++ "@"

def portText (url : Url) : String :=
  match url.port? with
  | some port => ":" ++ toString port.toNat
  | none => ""

/-- Without an authority, a path that starts with two slashes is kept apart from one. -/
def authorityText (url : Url) : String :=
  match url.host?, url.path with
  | some host, _ => "//" ++ url.userText ++ host.text ++ url.portText
  | none, .segments ("" :: _ :: _) => "/."
  | none, _ => ""

def queryText (url : Url) : String :=
  match url.query? with
  | some query => "?" ++ query
  | none => ""

def fragmentText (url : Url) : String :=
  match url.fragment? with
  | some fragment => "#" ++ fragment
  | none => ""

def text (url : Url) : String :=
  url.scheme ++ ":" ++ url.authorityText ++ url.path.text ++ url.queryText ++ url.fragmentText

def withoutUser (url : Url) : Url := { url with username := "", password? := none }

def isWeb (url : Url) : Bool := url.scheme = "http" || url.scheme = "https"

end Url

end CrawlBoard
