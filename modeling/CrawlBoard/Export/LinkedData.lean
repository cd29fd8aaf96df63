import CrawlBoard.Report.Document

namespace CrawlBoard.LinkedData

open Json (Tree)

def sitemapBase : String := "http://geoconnex.us/sitemap/"

def mediaType : String := "application/ld+json"

def term (id : String) (keys : List (String × String)) : Tree :=
  .object (("@id", .text id) :: keys.map fun (key, value) => (key, .text value))

def context : List (String × Tree) := [
  ("@vocab", .text "https://schema.org/"),
  ("gc", .text "https://geoconnex.us/vocab/crawl#"),
  ("xsd", .text "http://www.w3.org/2001/XMLSchema#"),
  ("SitemapName", .text "name"),
  ("SitemapSourceLink", term "gc:sitemapSource" [("@type", "@id")]),
  ("SuccessfulUrls", term "gc:successfulUrl" [("@type", "@id"), ("@container", "@set")]),
  ("CrawlFailures", term "gc:crawlFailure" [("@container", "@set")]),
  ("Url", term "url" [("@type", "@id")]),
  ("Status", term "gc:httpStatus" [("@type", "xsd:integer")]),
  ("Message", .text "description"),
  ("ShaclStatus", .text "gc:shaclStatus"),
  ("ShaclErrorMessage", .text "gc:shaclMessage"),
  ("ShaclValidationMessage", .text "gc:shaclMessage"),
  ("SecondsToComplete", term "gc:secondsToComplete" [("@type", "xsd:decimal")]),
  ("SitesHarvested", term "gc:sitesHarvested" [("@type", "xsd:integer")]),
  ("SitesInSitemap", term "gc:sitesInSitemap" [("@type", "xsd:integer")]),
  ("WarningStats", .text "gc:warningStats"),
  ("TotalShaclFailures", term "gc:totalShaclFailures" [("@type", "xsd:integer")]),
  ("ShaclWarnings", term "gc:shaclWarning" [("@container", "@set")]),
  ("LastModified", .text "dateModified")]

def template : List (String × Tree) :=
  Json.sortedMembers [] [("@context", .object context), ("@graph", .list [])]

def sitemapId (name : String) : String := sitemapBase ++ name

def node (report : Report) : Tree :=
  .object (Json.insertMember "@id" (.text (sitemapId report.sitemap))
    (Json.sortedMembers [] report.members))

def compose (reports : List Report) : Tree :=
  .object (Json.insertMember "@graph" (.list (reports.map node)) template)

end CrawlBoard.LinkedData
