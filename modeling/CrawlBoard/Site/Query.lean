import CrawlBoard.Text.Digits
import CrawlBoard.Text.Percent
import CrawlBoard.Text.Search

namespace CrawlBoard

structure PageParams where
  page? : Option Nat := none
  /-- List the page again even if it is open with an error. -/
  reload? : Option Bool := none
  deriving DecidableEq, Repr

namespace PageParams

inductive Fault where
  | page (fault : Digits.ParseError)
  | reload
  | duplicate (name : String)
  deriving DecidableEq, Repr

def Fault.message : Fault → String
  | .page fault => fault.message
  | .reload => "provided string was not `true` or `false`"
  | .duplicate name => "duplicate field `" ++ name ++ "`"

/-- A plus sign is a space; ill-formed bytes are replaced. -/
def unescape (text : List Char) : String :=
  let spaced := text.map fun char => if char = '+' then ' ' else char
  Utf8.textLossy (Percent.decode (Utf8.encode (String.ofList spaced)))

def pairs (query : String) : List (String × String) :=
  ((Search.splitOn '&' query.toList).filter (· ≠ [])).map fun part =>
    match Search.cut? ['='] part with
    | some (name, value) => (unescape name, unescape value)
    | none => (unescape part, "")

def maxPage : Nat := 0xFFFFFFFFFFFFFFFF

def add (params : PageParams) (name value : String) : Except Fault PageParams :=
  match name with
  | "page" =>
      if params.page?.isSome then .error (.duplicate name)
      else ((Digits.parse maxPage value).mapError Fault.page).map fun page =>
        { params with page? := some page }
  | "reload" =>
      if params.reload?.isSome then .error (.duplicate name)
      else match value with
        | "true" => .ok { params with reload? := some true }
        | "false" => .ok { params with reload? := some false }
        | _ => .error .reload
  | _ => .ok params

def parse (query : String) : Except Fault PageParams :=
  (pairs query).foldlM (fun params (name, value) => params.add name value) {}

end PageParams

end CrawlBoard
