import CrawlBoard.Store.Basic
import CrawlBoard.Store.Signature
import CrawlBoard.Time.MailDate
import CrawlBoard.Xml.Scan
/-!
A bucket of an S3-compatible server. Every request is signed, listings are XML.
-/

namespace CrawlBoard

open Utf8 (Bytes)

structure MinioStore where
  endpoint : Url
  /-- Host and port as the signature names them. -/
  host : String
  bucket : String
  credentials : Credentials
  deriving DecidableEq, Repr

namespace MinioStore

def ofEndpoint [DomainNames] (endpoint bucket : String) (credentials : Credentials) :
    Except StoreError MinioStore :=
  match Url.parse endpoint with
  | .error fault => .error (.endpoint (endpoint ++ ": " ++ fault.message))
  | .ok url =>
      match url.hostText? with
      | some host => .ok ⟨url, host ++ url.portText, bucket, credentials⟩
      | none => .error (.endpoint url.text)

def base (store : MinioStore) : String :=
  String.ofList (Search.dropTrailing (· = '/') store.endpoint.text.toList)

def location (store : MinioStore) : String := store.base ++ "/" ++ store.bucket

def listParams (query : ListQuery) : List (String × String) :=
  [("list-type", "2"), ("prefix", query.keyPrefix), ("max-keys", toString query.limit)]
    ++ query.token?.toList.map fun token => ("continuation-token", token)

structure Target where
  path : String
  query : String
  deriving DecidableEq, Repr

def listTarget (store : MinioStore) (query : ListQuery) : Target :=
  ⟨Percent.encodePath ("/" ++ store.bucket), Signature.canonicalQuery (listParams query)⟩

def objectTarget (store : MinioStore) (key : String) : Target :=
  ⟨Percent.encodePath ("/" ++ store.bucket ++ "/" ++ key), ""⟩

def url (store : MinioStore) (target : Target) : String :=
  store.base ++ target.path ++ (if target.query.isEmpty then "" else "?" ++ target.query)

def signed (store : MinioStore) (target : Target) : Signature.Request :=
  ⟨"GET", store.host, target.path, target.query⟩

def headers (store : MinioStore) (target : Target) (now : Instant) : List (String × String) :=
  let headers := Signature.sign store.credentials (store.signed target) now
  [("x-amz-date", headers.date), ("x-amz-content-sha256", headers.contentDigest),
    ("authorization", headers.authorization)]

def entry? (block : String) : Option ObjectEntry :=
  (Xml.firstElementText? block "Key").map fun key =>
    ⟨key, (Xml.firstElementText? block "LastModified").bind Rfc3339.parse?⟩

/-- The token counts only when the listing says that it is truncated. -/
def parsePage (xml : String) : Except StoreError ObjectPage :=
  if Search.contains "<ListBucketResult".toList xml.toList then
    let truncated := Xml.firstElementText? xml "IsTruncated" = some "true"
    let token? := (Xml.firstElementText? xml "NextContinuationToken").filter fun token => !token.isEmpty
    .ok ⟨(Xml.elementBlocks xml "Contents").filterMap entry?, if truncated then token? else none⟩
  else .error (.invalidListing "missing ListBucketResult element")

def headerText? (bytes : Bytes) : Option String :=
  if bytes.all fun byte => byte = 0x09 || (0x20 ≤ byte && byte ≤ 0x7E) then Utf8.decode? bytes
  else none

def lastModified? (response : Web.Response) : Option Instant :=
  ((response.header? "last-modified").bind headerText?).bind MailDate.parse?

def list [DomainNames] (network : Web.Network) (now : Instant) (store : MinioStore) (query : ListQuery) :
    Except StoreError ObjectPage := do
  let target := store.listTarget query
  let url := store.url target
  let response ← request network url (store.headers target now)
  parsePage (← bodyText url response)

def fetch [DomainNames] (network : Web.Network) (now : Instant) (store : MinioStore) (key : String) :
    Except StoreError StoredObject := do
  let target := store.objectTarget key
  let url := store.url target
  let response ← request network url (store.headers target now)
  return ⟨← bodyBytes url response, lastModified? response⟩

end MinioStore

end CrawlBoard
