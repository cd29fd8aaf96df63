import CrawlBoard.Text.Entity
/-!
HTML in lines. What is written for the page itself stays as it is, what comes from data is
escaped, so data cannot open or close anything.
-/

namespace CrawlBoard

inductive Piece where
  | markup (text : String)
  | text (value : String)
  deriving DecidableEq, Repr

abbrev HtmlLine := List Piece

namespace Html

def render : Piece → String
  | .markup text => text
  | .text value => Entity.escapeHtml value

def renderLine (line : HtmlLine) : String := String.join (line.map render)

def renderLines (lines : List HtmlLine) : String := "\n".intercalate (lines.map renderLine)

def line (depth : Nat) (pieces : List Piece) : HtmlLine :=
  .markup (String.ofList (List.replicate (4 * depth) ' ')) :: pieces

def markup (depth : Nat) (text : String) : HtmlLine := line depth [.markup text]

def blank (depth : Nat) : HtmlLine := line depth []

def option (depth : Nat) (lines : List HtmlLine) : List HtmlLine :=
  blank depth :: (lines ++ [blank depth])

def when (depth : Nat) (condition : Bool) (lines : List HtmlLine) : List HtmlLine :=
  if condition then option depth lines else [blank depth]

def each {α : Type} (depth : Nat) (items : List α) (lines : α → List HtmlLine) : List HtmlLine :=
  blank depth :: items.flatMap fun item => lines item ++ [blank depth]

def number (n : Nat) : Piece := .text (toString n)

end Html

end CrawlBoard
