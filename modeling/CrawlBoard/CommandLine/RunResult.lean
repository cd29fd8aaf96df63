
namespace CrawlBoard

structure RunResult where
  code : Nat := 0
  output : String := ""
  errors : String := ""
  files : List (String × String) := []
  deriving DecidableEq, Repr

def RunResult.failed (message : String) (output : String) : RunResult :=
  { code := 1, output, errors := "Error: " ++ message ++ "\n" }

end CrawlBoard
