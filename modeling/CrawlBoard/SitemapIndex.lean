import CrawlBoard.Web.Client
import CrawlBoard.Xml.Scan

namespace CrawlBoard.SitemapIndex

inductive ProbeError where
  | transport (cause : Web.TransportError)
  | status (code : Nat)
  deriving DecidableEq, Repr

def ProbeError.message : ProbeError → String
  | .transport cause => "request failed: " ++ cause.message
  | .status code => "HTTP " ++ toString code

def countSitemaps (xml : String) : Nat := Xml.countElements xml "sitemap"

/-- Asks for the index; a probe that was cancelled asks for nothing. -/
def probe [DomainNames] (network : Web.Network) (cancelled : Bool) (url : String) :
    Except ProbeError (Option Nat) := do
  if cancelled then return none
  let response ← (Web.get network url []).mapError ProbeError.transport
  if response.succeeded then
    return some (countSitemaps (← response.text.mapError ProbeError.transport))
  else throw (.status response.status)

end CrawlBoard.SitemapIndex
