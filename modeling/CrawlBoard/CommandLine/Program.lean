import CrawlBoard.CommandLine.Arguments
import CrawlBoard.CommandLine.Help
import CrawlBoard.CommandLine.Machine
import CrawlBoard.CommandLine.Pages
import CrawlBoard.Pager.Run
import CrawlBoard.SitemapIndex
import CrawlBoard.Store.Remote

namespace CrawlBoard

namespace Machine

variable [DomainNames]

def kind (machine : Machine) : StoreKind RemoteStore := RemoteStore.kind machine.network machine.now

def paints (machine : Machine) : Bool := machine.environment.paintsOutput

/-! ## Pages -/

def mount (machine : Machine) (settings : Settings) : Except StoreError (Session RemoteStore) :=
  (RemoteStore.ofSettings settings).map fun store =>
    .mount machine.kind store (.ofPrefix settings.keyPrefix) false

def print (machine : Machine) (settings : Settings) (number : Nat) (all : Bool) : RunResult :=
  match number with
  | 0 => .failed "Pages start at 1" ""
  | target + 1 =>
      match machine.mount settings with
      | .error error => .failed error.message ""
      | .ok session => session.print machine.paints machine.patience target all

def checkFiles (machine : Machine) (result : RunResult) : RunResult :=
  match result.files.findSome? fun (path, _) => machine.refusesFile path with
  | some reason => .failed reason ""
  | none => result

def download (machine : Machine) (settings : Settings) (format : ExportFormat)
    (path? : Option String) : RunResult :=
  match machine.mount settings with
  | .error error => .failed error.message ""
  | .ok session => machine.checkFiles (session.download machine.paints machine.patience format path?)

/-! ## Counts -/

def countReports (machine : Machine) (settings : Settings) : Except String Nat := do
  let store ← (RemoteStore.ofSettings settings).mapError StoreError.message
  let pager := Pager.ofPrefix settings.keyPrefix
  match (pager.countFrom machine.kind machine.patience .start { store }).1 with
  | .ended (.ok reports?) => .ok (reports?.getD 0)
  | .ended (.error error) => .error error.message
  | _ => .error WalkError.endless.message

def countSitemaps? (machine : Machine) (settings : Settings) : Option Nat :=
  settings.indexUrl?.bind fun url => (SitemapIndex.probe machine.network false url).toOption.join

def count (machine : Machine) (settings : Settings) : RunResult :=
  match machine.countReports settings with
  | .error message => .failed message ""
  | .ok reports =>
      let summary := match indexSummary? (some reports) (machine.countSitemaps? settings) with
        | some summary => [plain ("  " ++ summary)]
        | none => [plain "  ", Paint.yellow.on "!", plain " Sitemap index total unavailable"]
      { output := renderLines machine.paints
          [[Paint.green.on "✓", plain (" " ++ toString reports ++ " crawl reports")], summary] }

/-! ## Serving -/

def banner (settings : Settings) (address : SocketAddress) : List Line := [
  [Paint.cyan.on "→", plain (" Starting crawl status dashboard at http://" ++ address.text)],
  [plain "  Reading ", Paint.bold.on settings.keyPrefix,
    plain (" from " ++ (if settings.gcp then "GCS" else "MinIO") ++ " bucket "),
    Paint.bold.on settings.bucket],
  [plain "  Press Ctrl+C to stop"]]

/-- Serves until it is interrupted. The store is made before the server listens. -/
def serve (machine : Machine) (settings : Settings) (bind? : Option String) : RunResult :=
  match BindAddress.parse (bind?.getD settings.bind) >>= BindAddress.resolve with
  | .error error => .failed error.message ""
  | .ok address =>
      let output := renderLines machine.paints (banner settings address)
      match RemoteStore.ofSettings settings with
      | .error error => .failed error.message output
      | .ok _ =>
          match machine.refusesAddress address with
          | some reason => .failed reason output
          | none => { output }

/-! ## Runs -/

def perform (machine : Machine) (settings : Settings) : Action → RunResult
  | .serve bind? => machine.serve settings bind?
  | .print page all => machine.print settings page all
  | .download format path? => machine.download settings format path?
  | .count => machine.count settings

/-- Help that was asked for is output; help for want of words is a complaint. -/
def stopped (machine : Machine) : Stop → RunResult :=
  let render := renderLines machine.environment.paintsHelp
  fun
  | .help verb? long => { output := render (Help.lines verb? long) }
  | .helpOnHelp => { output := render Help.linesOnHelp }
  | .version => { output := versionText }
  | .idle => { code := 2, errors := render (Help.lines none false) }
  | .mistake error => { code := 2, errors := render error.lines }

def wantedFiles (machine : Machine) (words : List String) : List String :=
  match Arguments.parse words with
  | .error _ => []
  | .ok invocation => invocation.config?.elim (candidates machine.withVariables.environment) ([·])

def run (machine : Machine) (words : List String) : RunResult :=
  let machine := machine.withVariables
  match Arguments.parse words with
  | .error stop => machine.stopped stop
  | .ok invocation =>
      match machine.settings invocation.config? invocation.flags with
      | .error message => .failed message ""
      | .ok settings => machine.perform settings invocation.action

end Machine

/-- The program carries no tables of names. -/
instance : DomainNames := .plain

end CrawlBoard
