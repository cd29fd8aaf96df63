import CrawlBoard.Text.Blank
import CrawlBoard.Text.Entity
import CrawlBoard.Text.Search
/-!
Elements found by scanning for their start tags. Enough for flat, machine-written documents;
names with another namespace prefix are not matched.
-/

namespace CrawlBoard.Xml

structure OpenTag where
  start : Nat
  content : Nat
  deriving DecidableEq, Repr

def endsName (char : Char) : Bool := char == '>' || char == '/' || Blank.isBlank char

/-- Start tags in a text that stands at offset `base`. The first one that is never closed ends the scan. -/
def openTagsFrom (tag : List Char) (base : Nat) : List Char → List OpenTag
  | [] => []
  | first :: rest =>
      match Search.indexOf? ('<' :: tag) (first :: rest) with
      | none => []
      | some offset =>
          let start := base + offset
          let next := start + (tag.length + 1)
          let after := rest.drop (offset + tag.length)
          if after.head?.any endsName then
            match Search.indexOf? ['>'] after with
            | none => []
            | some close => ⟨start, next + close + 1⟩ :: openTagsFrom tag next after
          else openTagsFrom tag next after
  termination_by text => text.length
  decreasing_by all_goals simp only [List.length_drop, List.length_cons]; omega

def openTags (xml tag : String) : List OpenTag := openTagsFrom tag.toList 0 xml.toList

def countElements (xml tag : String) : Nat := (openTags xml tag).length

def OpenTag.selfClosing (xml : List Char) (tag : OpenTag) : Bool :=
  "/>".toList.isSuffixOf ((xml.drop tag.start).take (tag.content - tag.start))

def endTag (tag : String) : List Char := '<' :: '/' :: (tag.toList ++ ['>'])

def OpenTag.inner? (xml : List Char) (name : String) (tag : OpenTag) : Option (List Char) :=
  (Search.cut? (endTag name) (xml.drop tag.content)).map (·.1)

def elementTexts (xml name : String) : List String :=
  (openTags xml name).filterMap fun tag =>
    if tag.selfClosing xml.toList then some ""
    else (tag.inner? xml.toList name).map fun text => Entity.unescape (String.ofList text)

def elementBlocks (xml name : String) : List String :=
  ((openTags xml name).filter fun tag => !tag.selfClosing xml.toList).filterMap fun tag =>
    (tag.inner? xml.toList name).map String.ofList

def firstElementText? (xml name : String) : Option String := (elementTexts xml name).head?

end CrawlBoard.Xml
