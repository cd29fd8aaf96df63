import CrawlBoard.CommandLine.Paint
import CrawlBoard.Page.Card

namespace CrawlBoard

def FailureRow.lines (row : FailureRow) : List Line :=
  let status := if row.status.isEmpty then "" else "[" ++ row.status ++ "] "
  [plain ("    " ++ status ++ row.url ++ " "), Paint.dim.on row.message]
    :: if row.shaclMessage.isEmpty then []
      else [[plain ("      SHACL " ++ row.shacl ++ ": " ++ row.shaclMessage)]]

def FailureRow.section (rows : List FailureRow) : List Line :=
  if rows.isEmpty then []
  else [plain "  ", Paint.red.on ("Failures (" ++ toString rows.length ++ ")")]
    :: rows.flatMap FailureRow.lines

def WarningView.lines (view : WarningView) : List Line :=
  [plain "  ", Paint.yellow.on ("Semantic Warnings (" ++ toString view.total ++ ")")]
    :: [plain "    ", Paint.italic.on view.note]
    :: view.rows.map fun row => [plain ("    " ++ row.url ++ " " ++ row.shacl ++ ": " ++ row.message)]

def ReportView.lines (view : ReportView) : List Line :=
  [[Paint.green.on "✓", plain " Sitemap: ", Paint.bold.on view.name, plain "  ",
      Paint.dim.on ("Last Modified: " ++ view.lastModified)],
    [plain ("  Sites Harvested: " ++ toString view.sitesHarvested ++ " / " ++ toString view.sitesListed)],
    [plain ("  Time to Complete: " ++ view.duration)]]
  ++ view.sourceLink?.toList.map (fun link => [plain ("  Source: " ++ link)])
  ++ [[plain "  ", Paint.green.on ("Successful URLs (" ++ toString view.urls.length ++ ")")]]
  ++ FailureRow.section view.failures
  ++ view.warnings?.toList.flatMap WarningView.lines

def Card.lines (card : Card) : List Line :=
  (match card.report?, card.error? with
    | some report, _ => report.lines
    | none, some error =>
        [[Paint.red.on "✗", plain " ", Paint.bold.on card.key],
          [plain "  Error loading report: ", Paint.red.on error]]
    | none, none => [[Paint.dim.on "…", plain (" " ++ card.key ++ " (still loading)")]])
  ++ [[]]

end CrawlBoard
