import CrawlBoard.Yaml.Parser
/-!
What a YAML scalar stands for. The reader decides which kind it wants: every scalar is a text,
and only plain ones can be null, truth values or numbers.
-/

namespace CrawlBoard.Yaml

def standardTag (name : String) : String := "tag:yaml.org,2002:" ++ name

def isNull (text : String) : Bool := ["~", "null", "Null", "NULL"].contains text

/-- The node, unless it is null. A tag other than that of null makes it something. -/
def present? (node : Yaml) : Option (Option Yaml) :=
  match node with
  | .scalar .plain none text => some (if text.isEmpty || isNull text then none else some node)
  | .scalar .plain (some tag) text =>
      if tag ≠ standardTag "null" then some (some node)
      else if isNull text then some none
      else none
  | node => some (some node)

def text? : Yaml → Option String
  | .scalar _ _ text => some text
  | _ => none

def plainText? (kind : String) : Yaml → Option String
  | .scalar .plain _ text => some text
  | .scalar .literal (some tag) text => if tag = standardTag kind then some text else none
  | _ => none

def bool? (node : Yaml) : Option Bool := do
  let text ← node.plainText? "bool"
  if ["true", "True", "TRUE"].contains text then some true
  else if ["false", "False", "FALSE"].contains text then some false
  else none

def basedNatural? (base : Nat) (digits : Chars) : Option Nat :=
  if digits.isEmpty then none
  else digits.foldlM (fun total char =>
    (Toml.hexValue? [char]).bind fun digit => if digit < base then some (total * base + digit) else none) 0

/-- A decimal number does not start with a needless zero. -/
def naturalOfText? (text : Chars) : Option Nat :=
  let digits := if text.head? = some '+' then text.drop 1 else text
  match digits with
  | '0' :: 'x' :: rest => basedNatural? 16 rest
  | '0' :: 'o' :: rest => basedNatural? 8 rest
  | '0' :: 'b' :: rest => basedNatural? 2 rest
  | '0' :: _ :: _ => none
  | digits => basedNatural? 10 digits

def word64? (node : Yaml) : Option UInt64 := do
  let value ← naturalOfText? (← node.plainText? "int").toList
  if value ≤ 0xFFFFFFFFFFFFFFFF then some (.ofNat value) else none

end CrawlBoard.Yaml
