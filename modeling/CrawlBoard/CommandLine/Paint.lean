import CrawlBoard.Settings.Layer

namespace CrawlBoard

inductive Paint where
  | bold
  | dim
  | italic
  | underline
  | red
  | green
  | yellow
  | cyan
  deriving DecidableEq, Repr

def Paint.code : Paint → String
  | bold => "1"
  | dim => "2"
  | italic => "3"
  | underline => "4"
  | red => "31"
  | green => "32"
  | yellow => "33"
  | cyan => "36"

structure Span where
  paints : List Paint
  text : String
  deriving DecidableEq, Repr

abbrev Line := List Span

def plain (text : String) : Span := ⟨[], text⟩

def Paint.on (paint : Paint) (text : String) : Span := ⟨[paint], text⟩

def Span.render (painted : Bool) (span : Span) : String :=
  if painted ∧ span.paints ≠ [] then
    String.join (span.paints.map fun paint => "\x1b[" ++ paint.code ++ "m") ++ span.text ++ "\x1b[0m"
  else span.text

def Line.render (painted : Bool) (line : Line) : String := String.join (line.map (Span.render painted))

def renderLines (painted : Bool) (lines : List Line) : String :=
  String.join (lines.map fun line => line.render painted ++ "\n")

namespace Environment

def paintsOutput (environment : Environment) : Bool :=
  (environment "CLICOLOR_FORCE").any (· ≠ "0")

/-- Help and complaints about arguments can also be kept plain. -/
def paintsHelp (environment : Environment) : Bool :=
  environment.paintsOutput && (environment "NO_COLOR").all String.isEmpty

end Environment

end CrawlBoard
