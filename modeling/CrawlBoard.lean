import CrawlBoard.Main
import CrawlBoard.Proofs.Dashboard.StoredReports
import CrawlBoard.Proofs.Dashboard.Unmount
import CrawlBoard.Proofs.LoadOrder
import CrawlBoard.Site.Router
import CrawlBoard.Proofs.Dashboard.LoadCount
import CrawlBoard.Proofs.Dashboard.PageTotal
import CrawlBoard.Proofs.Json.Quote
import CrawlBoard.Proofs.Json.Numeral
import CrawlBoard.Proofs.Json.Writing
import CrawlBoard.Proofs.ReportText
import CrawlBoard.Proofs.Time.Calendar
import CrawlBoard.Proofs.Time.Rfc3339
import CrawlBoard.Proofs.Entity
import CrawlBoard.Proofs.Search
import CrawlBoard.Proofs.Xml.Scan
import CrawlBoard.Proofs.Xml.Markup
import CrawlBoard.Proofs.Xml.Elements
import CrawlBoard.Proofs.Store.MinioListing
import CrawlBoard.Proofs.Json.Skip
import CrawlBoard.Proofs.Store.GcsListing
import CrawlBoard.Proofs.Store.ListingPages
import CrawlBoard.Proofs.Url.Escape
import CrawlBoard.Proofs.Url.HostName
import CrawlBoard.Proofs.Url.Address
import CrawlBoard.Proofs.Url.HostText
import CrawlBoard.Proofs.Url.Authority
import CrawlBoard.Proofs.Url.Path
import CrawlBoard.Proofs.Url.WebAddress
import CrawlBoard.Proofs.Percent
import CrawlBoard.Proofs.Url.EncodedPath
import CrawlBoard.Proofs.Store.SignedRequests
import CrawlBoard.Proofs.Url.Scheme
import CrawlBoard.Proofs.ItemTable
import CrawlBoard.Proofs.Json.Layout
import CrawlBoard.Proofs.Json.Sorting
import CrawlBoard.Proofs.LinkedData
import CrawlBoard.Proofs.Json.Alike
import CrawlBoard.Proofs.Renderings
import CrawlBoard.Proofs.Dashboard.TokenChain
import CrawlBoard.Proofs.Dashboard.PromptCalls
import CrawlBoard.Proofs.SiteRuns
import CrawlBoard.Proofs.Exports
import CrawlBoard.Proofs.PageFetches
import CrawlBoard.Proofs.RenderingCalls
import CrawlBoard.Proofs.Html.Escape
import CrawlBoard.Proofs.Html.Frame
import CrawlBoard.Proofs.Html.BoardPages
import CrawlBoard.Proofs.Html.BoardShape
import CrawlBoard.Proofs.Html.Sections
import CrawlBoard.Proofs.Json.WellFormed
import CrawlBoard.Proofs.Json.Locality
import CrawlBoard.Proofs.Json.Steady
import CrawlBoard.Proofs.Json.SteadyRecord
import CrawlBoard.Proofs.Json.Restating
import CrawlBoard.Proofs.Json.Repeated
import CrawlBoard.Proofs.ReportRestated
import CrawlBoard.Proofs.QueryText
import CrawlBoard.Proofs.Url.QueryAtEnd
import CrawlBoard.Proofs.Store.CanonicalQuery
import CrawlBoard.Proofs.Segments
import CrawlBoard.Proofs.Store.GcsAddresses
import CrawlBoard.Proofs.CountWalk
import CrawlBoard.Proofs.Dashboard.ListingTrail
import CrawlBoard.Proofs.Dashboard.Walking
import CrawlBoard.Proofs.Dashboard.Turns
import CrawlBoard.Proofs.Dashboard.SessionWalk
import CrawlBoard.Proofs.PrintedPages
import CrawlBoard.Proofs.Dashboard.Phases
import CrawlBoard.Proofs.Digest
import CrawlBoard.Proofs.Store.OneSignature
import CrawlBoard.Proofs.SettingsLayers
import CrawlBoard.Proofs.Time.DayCount
import CrawlBoard.Proofs.ReportStamp
import CrawlBoard.Proofs.BindAddress
import CrawlBoard.Proofs.Xml.Offsets
