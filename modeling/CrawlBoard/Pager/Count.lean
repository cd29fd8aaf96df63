import CrawlBoard.Pager.Basic

namespace CrawlBoard

inductive CountPass where
  | asking (token? : Option String) (counted : Nat)
  | waiting (token? : Option String) (counted : Nat)
  /-- Nothing was counted when the pass was cancelled. -/
  | ended (result : Except StoreError (Option Nat))

namespace CountPass

def start : CountPass := asking none 0

def ask (cancelled : Bool) : CountPass → CountPass
  | asking token? counted => if cancelled then ended (.ok none) else waiting token? counted
  | pass => pass

def take (answer : Except StoreError ObjectPage) : CountPass → CountPass
  | waiting _ counted =>
      match answer with
      | .error error => ended (.error error)
      | .ok page =>
          let counted := counted + page.entries.countP ObjectEntry.isReport
          match page.next? with
          | some token => asking (some token) counted
          | none => ended (.ok (some counted))
  | pass => pass

end CountPass

end CrawlBoard
