import CrawlBoard.Url.Host
/-!
Reading of absolute URLs (WHATWG). Blanks around the text are dropped and so are tabs and line
ends inside it; dot segments of the path are resolved.
-/

namespace CrawlBoard.Url

def isSpecial (scheme : String) : Bool := ["http", "https", "ws", "wss", "ftp"].contains scheme

def defaultPort? : String → Option UInt16
  | "http" | "ws" => some 80
  | "https" | "wss" => some 443
  | "ftp" => some 21
  | _ => none

def clean (text : List Char) : List Char :=
  let outer (char : Char) : Bool := char.toNat ≤ 0x20
  (Search.dropTrailing outer (text.dropWhile outer)).filter fun char =>
    char ≠ '\t' ∧ char ≠ '\n' ∧ char ≠ '\r'

def scheme? (text : List Char) : Option (String × List Char) :=
  let inside (char : Char) : Bool := char.isAlphanum || char = '+' || char = '-' || char = '.'
  match text.takeWhile inside, text.dropWhile inside with
  | first :: name, ':' :: rest =>
      if first.isAlpha then some (String.ofList ((first :: name).map Char.toLower), rest) else none
  | _, _ => none

def isSlash (special : Bool) (char : Char) : Bool := char = '/' || (special && char = '\\')

def endsAuthority (special : Bool) (char : Char) : Bool :=
  isSlash special char || char = '?' || char = '#'

structure Authority where
  username : String := ""
  password? : Option String := none
  host : Host
  port? : Option UInt16 := none

def cutLast? (mark : Char) (text : List Char) : Option (List Char × List Char) :=
  (Search.cut? [mark] text.reverse).map fun (after, before) => (before.reverse, after.reverse)

def userOf (text : List Char) : String × Option String :=
  let escape (part : List Char) : String := UrlEscape.apply UrlEscape.user part
  match Search.cut? [':'] text with
  | none => (escape text, none)
  | some (name, []) => (escape name, none)
  | some (name, password) => (escape name, some (escape password))

/-- The host ends at a colon outside brackets. -/
def hostEnd : Bool → List Char → Nat
  | _, [] => 0
  | inside, char :: rest =>
      if char = ':' ∧ !inside then 0
      else hostEnd (if char = '[' then true else if char = ']' then false else inside) rest + 1

def port (scheme : String) (text : List Char) : Except UrlError (Option UInt16) :=
  match text with
  | [] => .ok none
  | _ :: digits =>
      if digits.all Char.isDigit ∧ Digits.value digits < 65536 then
        let port := UInt16.ofNat (Digits.value digits)
        .ok (if digits = [] ∨ defaultPort? scheme = some port then none else some port)
      else .error .invalidPort

def authority [DomainNames] (scheme : String) (special : Bool) (text : List Char) :
    Except UrlError Authority := do
  let (user, address) := match cutLast? '@' text with
    | some (user, address) => (userOf user, address)
    | none => (("", none), text)
  let (hostText, portText) := address.splitAt (hostEnd false address)
  let host ← if special then Host.special hostText else Host.general hostText
  if host = .domain "" ∧ (portText ≠ [] ∨ user ≠ ("", none)) then throw .emptyHost
  let port? ← port scheme portText
  return ⟨user.1, user.2, host, port?⟩

/-- Escapes of a dot count as dots. -/
def dots (segment : String) : Nat :=
  match segment.map Char.toLower with
  | "." | "%2e" => 1
  | ".." | ".%2e" | "%2e." | "%2e%2e" => 2
  | _ => 0

def isDriveLetter (segment : String) : Bool :=
  match segment.toList with
  | [letter, mark] => letter.isAlpha && (mark = ':' || mark = '|')
  | _ => false

/-- Up one level; a drive letter stays. -/
def parent : List String → List String
  | [] => []
  | last :: above => if isDriveLetter last then last :: above else above

/-- Resolves dot segments; `done` holds the segments so far, the last one first. -/
def resolve (done : List String) : List String → List String
  | [] => done.reverse
  | [last] =>
      match dots last with
      | 0 => (last :: done).reverse
      | 1 => ("" :: done).reverse
      | _ => ("" :: parent done).reverse
  | segment :: rest =>
      match dots segment with
      | 0 => resolve (segment :: done) rest
      | 1 => resolve done rest
      | _ => resolve (parent done) rest

def splitWhere (cuts : Char → Bool) : List Char → List (List Char)
  | [] => [[]]
  | char :: rest =>
      if cuts char then [] :: splitWhere cuts rest
      else match splitWhere cuts rest with
        | [] => [[char]]
        | part :: parts => (char :: part) :: parts

def segments (special : Bool) (text : List Char) : UrlPath :=
  .segments (resolve [] ((splitWhere (isSlash special) text).map (UrlEscape.apply UrlEscape.path)))

def pathAfterHost (special : Bool) (text : List Char) : UrlPath :=
  match text with
  | [] => if special then .segments [""] else .segments []
  | char :: rest => if isSlash special char then segments special rest else segments special text

def pathWithoutHost (text : List Char) : UrlPath :=
  match text with
  | '/' :: rest => segments false rest
  | text => .verbatim (UrlEscape.apply UrlEscape.control text)

structure Tail where
  path : List Char
  query? : Option (List Char)
  fragment? : Option (List Char)

def tail (text : List Char) : Tail :=
  let (front, fragment?) := match Search.cut? ['#'] text with
    | some (front, fragment) => (front, some fragment)
    | none => (text, none)
  match Search.cut? ['?'] front with
  | some (path, query) => ⟨path, some query, fragment?⟩
  | none => ⟨front, none, fragment?⟩

def withTail (url : Url) (special : Bool) (tail : Tail) : Url :=
  { url with
    query? := tail.query?.map
      (UrlEscape.apply (if special then UrlEscape.specialQuery else UrlEscape.query))
    fragment? := tail.fragment?.map (UrlEscape.apply UrlEscape.fragment) }

def afterSlashes [DomainNames] (scheme : String) (special : Bool) (text : List Char) :
    Except UrlError Url := do
  let inside (char : Char) : Bool := !endsAuthority special char
  let authority ← authority scheme special (text.takeWhile inside)
  let tail := tail (text.dropWhile inside)
  let url : Url := {
    scheme
    username := authority.username
    password? := authority.password?
    host? := some authority.host
    port? := authority.port?
    path := pathAfterHost special tail.path }
  return url.withTail special tail

/-- Empty segments at the start are dropped, but not the last segment. -/
def withoutEmpty : List String → List String
  | "" :: second :: rest => withoutEmpty (second :: rest)
  | segments => segments

/-- A local file; its host is left out when it is this machine. -/
def file [DomainNames] (text : List Char) : Except UrlError Url := do
  let inside (char : Char) : Bool := !endsAuthority true char
  let (host, text) ← match text with
    | first :: second :: rest =>
        if isSlash true first && isSlash true second then
          let name := rest.takeWhile inside
          if name = [] then pure (Host.domain "", rest)
          else if isDriveLetter (String.ofList name) then pure (Host.domain "", '/' :: rest)
          else do
            let host ← Host.special name
            pure (if host = .domain "localhost" then .domain "" else host, rest.dropWhile inside)
        else pure (Host.domain "", first :: second :: rest)
    | text => pure (Host.domain "", text)
  let tail := tail text
  let path := match pathAfterHost true tail.path with
    | .segments ("" :: first :: rest) => .segments (withoutEmpty (first :: rest))
    | path => path
  let url : Url := { scheme := "file", host? := some host, path }
  return url.withTail true tail

def parse [DomainNames] (text : String) : Except UrlError Url :=
  match scheme? (clean text.toList) with
  | none => .error .relativeWithoutBase
  | some (scheme, rest) =>
      if isSpecial scheme then afterSlashes scheme true (rest.dropWhile (isSlash true))
      else if scheme = "file" then file rest
      else match rest with
        | '/' :: '/' :: rest => afterSlashes scheme false rest
        | rest =>
            let tail := tail rest
            let url : Url := { scheme, path := pathWithoutHost tail.path }
            .ok (url.withTail false tail)

end CrawlBoard.Url
