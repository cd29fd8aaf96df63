import CrawlBoard.CommandLine.Program
/-!
The command line program. It can reach no network and listen at no address.
-/

namespace CrawlBoard

def fileProblem : IO.Error → String
  | .noFileOrDirectory .. => "No such file or directory (os error 2)"
  | .permissionDenied .. => "Permission denied (os error 13)"
  | .inappropriateType .. => "Is a directory (os error 21)"
  | error => toString error

def readContents (path : String) : IO (Except String Utf8.Bytes) := do
  try return .ok (← IO.FS.readBinFile path).toList
  catch error => return .error (fileProblem error)

def readEnvironment : IO Environment := do
  let contents := ((← readContents "/proc/self/environ").toOption).getD []
  let entries := (Search.splitOn 0 contents).filterMap fun entry =>
    (Search.cut? ['='] (Utf8.textLossy entry).toList).map fun (name, value) =>
      (String.ofList name, String.ofList value)
  return fun name => entries.lookup name

def readFiles (paths : List String) : IO (String → Except String Utf8.Bytes) := do
  let files ← paths.mapM fun path => return (path, ← readContents path)
  return fun path => (files.lookup path).getD (.error "No such file or directory (os error 2)")

def machineOf (environment : Environment) (contentsOf : String → Except String Utf8.Bytes) : Machine where
  environment
  contentsOf
  refusesFile _ := none
  network := Web.unreachable
  now := ⟨0, 0, by decide, by decide, by decide⟩
  refusesAddress _ := some "Operation not supported (os error 95)"
  patience := 100000

def runWords (words : List String) : IO UInt32 := do
  let environment ← readEnvironment
  let start := machineOf environment (← readFiles [Machine.variablesPath])
  let paths := Machine.variablesPath :: start.wantedFiles words
  let result := (machineOf environment (← readFiles paths)).run words
  try
    for (path, contents) in result.files do
      IO.FS.writeFile path contents
    IO.print result.output
    IO.eprint result.errors
    return UInt32.ofNat result.code
  catch error =>
    IO.eprintln ("Error: " ++ fileProblem error)
    return 1

end CrawlBoard

def main (words : List String) : IO UInt32 := CrawlBoard.runWords words
