import CrawlBoard.Page.Card
import CrawlBoard.Site.Html

namespace CrawlBoard

structure BoardPage where
  page : Nat
  label : String
  error? : Option String
  cards : List Card
  prev? : Option Nat
  next? : Option Nat
  refresh : Bool
  counting : Bool
  summary? : Option String
  indexUrl? : Option String
  location : String
  deriving DecidableEq, Repr

namespace Html

def external : String := "\" target=\"_blank\" rel=\"noopener noreferrer\">"

def head (refresh : Option Bool) : List HtmlLine :=
  [markup 0 "<!DOCTYPE html>", markup 0 "<html lang=\"en\">", markup 0 "<head>",
    markup 1 "<meta charset=\"UTF-8\">",
    markup 1 "<meta name=\"viewport\" content=\"width=device-width, initial-scale=1.0\">"]
  ++ refresh.toList.map (fun refresh =>
    if refresh then markup 1 "<meta http-equiv=\"refresh\" content=\"2\">" else blank 1)
  ++ [line 1 [.markup "<title>", .text boardTitle, .markup "</title>"],
    markup 1 "<link rel=\"stylesheet\" href=\"/static/style.css\">",
    markup 0 "</head>"]

def download (path name : String) : HtmlLine :=
  markup 3 ("<a href=\"" ++ path ++ "\" class=\"download-button" ++ external ++ name ++ "</a>")

def header : List HtmlLine := [
  markup 1 "<header class=\"header-row\">",
  markup 2 "<a href=\"https://docs.geoconnex.us\" class=\"logo\">Geoconnex</a>",
  line 2 [.markup "<h1>", .text boardTitle, .markup "</h1>"],
  markup 2 "<div class=\"download-buttons\">",
  download "/export/report.json" "View as JSON",
  download "/export/report.jsonld" "View as JSON-LD",
  markup 2 "</div>",
  markup 1 "</header>"]

def summaryLines (indexUrl? : Option String) (summary : String) : List HtmlLine :=
  let inner := match indexUrl? with
    | none => line 4 [.text summary]
    | some url => line 4 [.markup "<a href=\"", .text url, .markup external, .text summary, .markup "</a>"]
  [markup 3 "<strong>"] ++ option 4 [inner] ++ [markup 3 "</strong>"]

def pageLink (page? : Option Nat) (name : String) : List HtmlLine :=
  option 3 [match page? with
    | some page => line 3 [.markup "<a href=\"/?page=", number page,
        .markup ("\" class=\"page-link\">" ++ name ++ "</a>")]
    | none => markup 3 ("<span class=\"page-link disabled\">" ++ name ++ "</span>")]

def pagination (board : BoardPage) : List HtmlLine :=
  [markup 2 "<nav class=\"pagination\">"]
  ++ pageLink board.prev? "&larr; Previous"
  ++ [line 3 ([.markup "<span class=\"page-label\">", .text board.label]
    ++ (if board.counting then [.markup " (counting reports&hellip;)"] else [])
    ++ [.markup "</span>"])]
  ++ pageLink board.next? "Next &rarr;"
  ++ [markup 2 "</nav>"]

def urlLine (url : String) : List HtmlLine :=
  [line 5 [.markup "<li><a href=\"", .text url, .markup external, .text url, .markup "</a></li>"]]

def urlList (urls : List String) : List HtmlLine :=
  [markup 3 "<details>",
    line 4 [.markup "<summary class=\"success\">Successful URLs (", number urls.length,
      .markup ")</summary>"],
    markup 4 "<ul class=\"url-list\">"]
  ++ each 5 urls urlLine
  ++ [markup 4 "</ul>", markup 3 "</details>"]

def table (titles : List String) (rows : List HtmlLine) : List HtmlLine :=
  [markup 4 "<table class=\"failure-table\">", markup 5 "<thead>", markup 6 "<tr>"]
  ++ titles.map (fun title => markup 7 ("<th>" ++ title ++ "</th>"))
  ++ [markup 6 "</tr>", markup 5 "</thead>", markup 5 "<tbody>"]
  ++ rows
  ++ [markup 5 "</tbody>", markup 4 "</table>"]

def row (linkClass url : String) (cells : List String) : List HtmlLine :=
  [markup 6 "<tr>",
    line 7 [.markup ("<td><a class=\"" ++ linkClass ++ "\" href=\""), .text url,
      .markup (external ++ "Link</a></td>")]]
  ++ cells.map (fun cell => line 7 [.markup "<td>", .text cell, .markup "</td>"])
  ++ [markup 6 "</tr>"]

def failureTable (failures : List FailureRow) : List HtmlLine :=
  [markup 3 "<details>",
    line 4 [.markup "<summary class=\"error-text\">Failures (", number failures.length,
      .markup ")</summary>"]]
  ++ table ["Feature Link", "Status Code", "Error Message", "SHACL Status", "SHACL Error Message"]
    (each 6 failures fun failure => row "failure-link" failure.url
      [failure.status, failure.message, failure.shacl, failure.shaclMessage])
  ++ [markup 3 "</details>"]

def warningTable (warnings : WarningView) : List HtmlLine :=
  [markup 3 "<details class=\"warnings\">",
    line 4 [.markup "<summary class=\"warning-text\">Semantic Warnings (", number warnings.total,
      .markup ")</summary>"],
    line 4 [.markup "<i class=\"brevity-info\">", .text warnings.note, .markup "</i>"]]
  ++ table ["Feature Link", "SHACL Status", "SHACL Error Message"]
    (each 6 warnings.rows fun warning => row "warning-link" warning.url
      [warning.shacl, warning.message])
  ++ [markup 3 "</details>"]

def sourceLine (link : String) : HtmlLine :=
  line 4 [.markup "<br><a href=\"", .text link, .markup (external ++ "Sitemap source</a>")]

def reportLines (report : ReportView) : List HtmlLine :=
  [markup 3 "<div class=\"sitemap-header-row\">",
    line 4 [.markup "<h2>Sitemap: ", .text report.name, .markup "</h2>"],
    line 4 [.markup "<span class=\"muted\">Last Modified: ", .text report.lastModified,
      .markup "</span>"],
    markup 3 "</div>",
    markup 3 "<span class=\"meta\">",
    line 4 [.markup "Sites Harvested: ", number report.sitesHarvested, .markup " / ",
      number report.sitesListed, .markup "<br>"],
    line 4 [.markup "Time to Complete: ", .text report.duration]]
  ++ option 4 (report.sourceLink?.toList.map sourceLine)
  ++ [markup 3 "</span>", []]
  ++ urlList report.urls
  ++ [[]]
  ++ when 3 (!report.failures.isEmpty) (failureTable report.failures)
  ++ [[]]
  ++ option 3 (report.warnings?.toList.flatMap warningTable)
  ++ [[]]

def errorLines (key message : String) : List HtmlLine := [
  line 3 [.markup "<h2>", .text key, .markup "</h2>"],
  line 3 [.markup "<p class=\"error-text\">Error loading report: <i>", .text message,
    .markup "</i></p>"]]

def loadingLines (key : String) : List HtmlLine := [
  line 3 [.markup "<h2 class=\"muted\">", .text key, .markup "</h2>"],
  markup 3 "<p class=\"loading\">Loading crawl status...</p>"]

def cardSection (card : Card) : List HtmlLine :=
  let inner := match card.report?, card.error? with
    | some report, _ => reportLines report
    | none, some message => option 3 (errorLines card.key message)
    | none, none => option 3 (loadingLines card.key)
  [markup 2 "<section class=\"sitemap\">"] ++ option 3 inner ++ [markup 2 "</section>"]

def emptyLine (location : String) : HtmlLine :=
  line 2 [.markup "<p class=\"empty\">No crawl reports found at ", .text location, .markup "</p>"]

def listingError (page : Nat) (message : String) : List HtmlLine := [
  markup 2 "<p class=\"page-error\">",
  line 3 [.text message],
  line 3 [.markup "<a href=\"/?page=", number page, .markup "&amp;reload=true\">Retry</a>"],
  markup 2 "</p>"]

def content (board : BoardPage) : List HtmlLine :=
  match board.error? with
  | some message => listingError board.page message
  | none =>
      when 2 (board.cards.isEmpty && !board.refresh) [emptyLine board.location]
        ++ each 2 board.cards cardSection

def body (board : BoardPage) : List HtmlLine :=
  [markup 0 "<body>"] ++ header
  ++ [[], markup 1 "<main>", markup 2 "<div class=\"brevity-info\">"]
  ++ option 3 (board.summary?.toList.flatMap (summaryLines board.indexUrl?))
  ++ [markup 2 "</div>", []]
  ++ pagination board
  ++ [[]]
  ++ option 2 (content board)
  ++ [markup 1 "</main>", markup 0 "</body>", markup 0 "</html>"]

def boardPage (board : BoardPage) : List HtmlLine := head (some board.refresh) ++ body board

def failurePage (message : String) : List HtmlLine :=
  head none ++ [
    markup 0 "<body>",
    markup 1 "<main>",
    line 2 [.markup "<h1>", .text boardTitle, .markup "</h1>"],
    line 2 [.markup "<p class=\"page-error\">", .text message, .markup "</p>"],
    markup 2 "<p><a href=\"/\">Back to the first page</a></p>",
    markup 1 "</main>", markup 0 "</body>", markup 0 "</html>"]

end Html

end CrawlBoard
