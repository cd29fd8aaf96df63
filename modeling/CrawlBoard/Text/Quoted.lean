
namespace CrawlBoard.Quoted

/-- Combining marks of the common blocks; they would attach to the quote. -/
def isMark (code : Nat) : Bool :=
  (0x300 ≤ code && code ≤ 0x36F) || (0x483 ≤ code && code ≤ 0x489) || (0x591 ≤ code && code ≤ 0x5BD)
    || (0x610 ≤ code && code ≤ 0x61A) || (0x64B ≤ code && code ≤ 0x65F)
    || (0x1AB0 ≤ code && code ≤ 0x1ACE) || (0x1DC0 ≤ code && code ≤ 0x1DFF)
    || (0x20D0 ≤ code && code ≤ 0x20F0) || (0xFE00 ≤ code && code ≤ 0xFE0F)
    || (0xFE20 ≤ code && code ≤ 0xFE2F) || code == 0x200C || code == 0x3099 || code == 0x309A

def isHidden (code : Nat) : Bool :=
  code < 0x20 || (0x7F ≤ code && code ≤ 0xA0) || code == 0xAD || (0x600 ≤ code && code ≤ 0x605)
    || code == 0x61C || code == 0x6DD || code == 0x70F || code == 0x1680 || code == 0x180E
    || (0x2000 ≤ code && code ≤ 0x200F) || (0x2028 ≤ code && code ≤ 0x202F)
    || (0x205F ≤ code && code ≤ 0x206F) || code == 0x3000 || (0xE000 ≤ code && code ≤ 0xF8FF)
    || code == 0xFEFF || (0xFFF0 ≤ code && code ≤ 0xFFFB) || code % 0x10000 ≥ 0xFFFE
    || 0xE0000 ≤ code

def escapeChar (char : Char) : List Char :=
  match char with
  | '"' => ['\\', '"']
  | '\\' => ['\\', '\\']
  | '\n' => ['\\', 'n']
  | '\r' => ['\\', 'r']
  | '\t' => ['\\', 't']
  | '\x00' => ['\\', '0']
  | _ =>
      if isMark char.toNat || isHidden char.toNat then
        '\\' :: 'u' :: '\x7b' :: (Nat.toDigits 16 char.toNat ++ ['\x7d'])
      else [char]

def render (text : String) : String :=
  String.ofList ('"' :: (text.toList.flatMap escapeChar ++ ['"']))

end CrawlBoard.Quoted
