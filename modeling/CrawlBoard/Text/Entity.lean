
namespace CrawlBoard.Entity

def replaceAll (head : Char) (tail : List Char) (replacement : List Char) : List Char → List Char
  | [] => []
  | char :: rest =>
      if (head :: tail).isPrefixOf (char :: rest)
      then replacement ++ replaceAll head tail replacement (rest.drop tail.length)
      else char :: replaceAll head tail replacement rest
  termination_by text => text.length
  decreasing_by all_goals simp only [List.length_drop, List.length_cons]; omega

/-- Ampersands last, so that what they uncover is not read again. -/
def unescapeChars (text : List Char) : List Char :=
  replaceAll '&' "amp;".toList ['&']
    (replaceAll '&' "apos;".toList ['\'']
      (replaceAll '&' "quot;".toList ['"']
        (replaceAll '&' "gt;".toList ['>']
          (replaceAll '&' "lt;".toList ['<'] text))))

def unescape (text : String) : String := String.ofList (unescapeChars text.toList)

def escapeChar : Char → List Char
  | '<' => "&lt;".toList
  | '>' => "&gt;".toList
  | '"' => "&quot;".toList
  | '\'' => "&apos;".toList
  | '&' => "&amp;".toList
  | char => [char]

def escape (text : String) : String := String.ofList (text.toList.flatMap escapeChar)

def escapeHtmlChar : Char → List Char
  | '<' => "&lt;".toList
  | '>' => "&gt;".toList
  | '"' => "&quot;".toList
  | '\'' => "&#x27;".toList
  | '&' => "&amp;".toList
  | char => [char]

def escapeHtml (text : String) : String := String.ofList (text.toList.flatMap escapeHtmlChar)

end CrawlBoard.Entity
