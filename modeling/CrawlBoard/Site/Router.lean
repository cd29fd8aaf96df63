import CrawlBoard.Dashboard.Navigation
import CrawlBoard.Dashboard.Snapshot
import CrawlBoard.Export.Cache
import CrawlBoard.Site.Page
import CrawlBoard.Site.Query
import CrawlBoard.Site.Style
import CrawlBoard.Text.Quoted
/-!
The web site of a dashboard. A request may start loads but never waits for one, so what it
answers depends only on the state it finds.
-/

namespace CrawlBoard

structure SiteRequest where
  method : String
  target : String
  deriving DecidableEq, Repr

structure SiteResponse where
  status : Nat
  contentType? : Option String := none
  disposition? : Option String := none
  allow? : Option String := none
  body : String := ""
  deriving DecidableEq, Repr

def SiteResponse.allowOrigin : String := "*"

structure Site where
  dashboard : Dashboard
  location : String
  indexUrl? : Option String
  cache : ExportCache := {}

inductive Route where
  | board
  | page (segment : String)
  | status
  | exported (format : ExportFormat)
  | style
  | health
  deriving DecidableEq, Repr

def Route.ofPath? (path : String) : Option Route :=
  match path with
  | "/" => some .board
  | "/api/status" => some .status
  | "/export/report.json" => some (.exported .json)
  | "/export/report.jsonld" => some (.exported .linkedData)
  | "/static/style.css" => some .style
  | "/health" => some .health
  | path =>
      let start := "/api/page/".toList
      let segment := path.toList.drop start.length
      if start.isPrefixOf path.toList && segment ≠ [] && !segment.contains '/' then
        some (.page (String.ofList segment))
      else none

def NavigationError.httpStatus : NavigationError → Nat
  | .unreachable _ => 404
  | .atFirstPage => 404
  | .unmounted => 503

namespace Site

def htmlType : String := "text/html; charset=utf-8"

def plainType : String := "text/plain; charset=utf-8"

def jsonType : String := "application/json"

def badRequest (message : String) : SiteResponse :=
  { status := 400, contentType? := some plainType, body := message }

def openPage (site : Site) (page : Nat) (reload : Bool) : Except NavigationError (Snapshot × Site) := do
  let dashboard ← if reload then site.dashboard.navigate page else site.dashboard.visit page
  match dashboard.snapshot page with
  | some snapshot => return (snapshot, { site with dashboard })
  | none => throw (.unreachable page)

def boardOf (site : Site) (page : Nat) (snapshot : Snapshot) : BoardPage where
  page
  label := pageLabel page snapshot.pages?
  error? := snapshot.error?
  cards := snapshot.cards
  prev? := if page = 0 then none else some (page - 1)
  next? := if snapshot.hasNext then some (page + 1) else none
  refresh := snapshot.loading || 0 < snapshot.pending
  counting := snapshot.total = .counting
  summary? := indexSummary? snapshot.total.known? snapshot.sitemaps?
  indexUrl? := site.indexUrl?.filter fun url => !url.isEmpty
  location := site.location

def unavailable (page : Nat) (error : NavigationError) : String :=
  "Page " ++ toString (pageNumber page) ++ " is not available: " ++ error.message

def board (site : Site) (query : String) : SiteResponse × Site :=
  match PageParams.parse query with
  | .error fault => (badRequest ("Failed to deserialize query string: " ++ fault.message), site)
  | .ok params =>
      let page := params.page?.getD 0
      match site.openPage page (params.reload?.getD false) with
      | .error error =>
          ({ status := error.httpStatus, contentType? := some htmlType
             body := Html.renderLines (Html.failurePage (unavailable page error)) }, site)
      | .ok (snapshot, opened) =>
          ({ status := 200, contentType? := some htmlType
             body := Html.renderLines (Html.boardPage (opened.boardOf page snapshot)) }, opened)

def json (status : Nat) (tree : Json.Tree) : SiteResponse :=
  { status, contentType? := some jsonType, body := tree.compact }

def pageOfSegment (segment : String) : Except String Nat :=
  match Utf8.decode? (Percent.decode (Utf8.encode segment)) with
  | none => .error "Invalid URL: Invalid UTF-8 in `page`"
  | some text =>
      (Digits.parse PageParams.maxPage text).mapError fun _ =>
        "Invalid URL: Cannot parse `" ++ Quoted.render text ++ "` to a `u64`"

def page (site : Site) (segment : String) : SiteResponse × Site :=
  match pageOfSegment segment with
  | .error message => (badRequest message, site)
  | .ok page =>
      match site.openPage page false with
      | .error error => (json error.httpStatus (.object [("error", .text error.message)]), site)
      | .ok (snapshot, opened) => (json 200 snapshot.tree, opened)

def disposition : ExportFormat → String
  | .json => "attachment; filename=\"crawl-report.json\""
  | .linkedData => "inline; filename=\"crawl-report.jsonld\""

def exportType : ExportFormat → String
  | .json => jsonType
  | .linkedData => LinkedData.mediaType

def exported (site : Site) (format : ExportFormat) : SiteResponse × Site :=
  let (answer, cache) := site.cache.fetch format site.dashboard.reports
  ({ status := 200, contentType? := some (exportType format)
     disposition? := some (disposition format), body := answer.body }, { site with cache })

def get (site : Site) (route : Route) (query : String) : SiteResponse × Site :=
  match route with
  | .board => site.board query
  | .page segment => site.page segment
  | .status => (json 200 site.dashboard.overview.tree, site)
  | .exported format => site.exported format
  | .style => ({ status := 200, contentType? := some "text/css", body := Style.sheet }, site)
  | .health => ({ status := 200 }, site)

def allowed : String := "GET,HEAD"

def respond (site : Site) (request : SiteRequest) : SiteResponse × Site :=
  let target := request.target.toList.takeWhile (· ≠ '#')
  let (path, query) := (Search.cut? ['?'] target).getD (target, [])
  match Route.ofPath? (String.ofList path), request.method with
  | some route, "GET" => site.get route (String.ofList query)
  | some route, "HEAD" =>
      let (response, site) := site.get route (String.ofList query)
      ({ response with body := "" }, site)
  | some _, "OPTIONS" => ({ status := 200, allow? := some allowed }, site)
  | none, "OPTIONS" => ({ status := 200 }, site)
  | some _, _ => ({ status := 405, allow? := some allowed }, site)
  | none, _ => ({ status := 404 }, site)

end Site

end CrawlBoard
