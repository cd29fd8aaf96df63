import CrawlBoard.Digest.Sha256
import CrawlBoard.Text.Percent
import CrawlBoard.Time.Rfc3339

namespace CrawlBoard

structure Credentials where
  accessKey : String
  secretKey : String
  region : String
  deriving DecidableEq, Repr

namespace Signature

open Utf8 (Bytes)

structure Request where
  method : String
  host : String
  path : String
  query : String
  deriving DecidableEq, Repr

structure Headers where
  authorization : String
  date : String
  contentDigest : String
  deriving DecidableEq, Repr

def algorithm : String := "AWS4-HMAC-SHA256"

def service : String := "s3"

def signedHeaders : String := "host;x-amz-content-sha256;x-amz-date"

def pairLe (x y : String × String) : Bool := x.1 < y.1 || (x.1 == y.1 && x.2 ≤ y.2)

/-- Encoded parameters in the order of their encoded names, then values. -/
def canonicalQuery (params : List (String × String)) : String :=
  let encoded := params.map fun (name, value) => (Percent.encode name, Percent.encode value)
  "&".intercalate ((encoded.mergeSort pairLe).map fun (name, value) => name ++ "=" ++ value)

def digestHex (text : String) : String := Sha256.hex (Sha256.digest (Utf8.encode text))

def emptyDigest : String := digestHex ""

def day (instant : Instant) : String :=
  let date := instant.date
  Rfc3339.yearText date.year ++ Digits.pad 2 date.month ++ Digits.pad 2 date.day

def stamp (instant : Instant) : String :=
  day instant ++ "T" ++ Digits.pad 2 instant.hour ++ Digits.pad 2 instant.minute
    ++ Digits.pad 2 instant.second ++ "Z"

def canonicalRequest (request : Request) (stamp : String) : String :=
  "\n".intercalate [request.method, request.path, request.query, "host:" ++ request.host,
    "x-amz-content-sha256:" ++ emptyDigest, "x-amz-date:" ++ stamp, "", signedHeaders, emptyDigest]

def scope (region day : String) : String :=
  day ++ "/" ++ region ++ "/" ++ service ++ "/aws4_request"

def stringToSign (stamp scope canonical : String) : String :=
  "\n".intercalate [algorithm, stamp, scope, digestHex canonical]

def signingKey (secret day region : String) : Bytes :=
  [day, region, service, "aws4_request"].foldl
    (fun key part => Sha256.keyed key (Utf8.encode part)) (Utf8.encode ("AWS4" ++ secret))

def sign (credentials : Credentials) (request : Request) (now : Instant) : Headers :=
  let scope := scope credentials.region (day now)
  let text := stringToSign (stamp now) scope (canonicalRequest request (stamp now))
  let key := signingKey credentials.secretKey (day now) credentials.region
  { authorization := algorithm ++ " Credential=" ++ credentials.accessKey ++ "/" ++ scope
      ++ ", SignedHeaders=" ++ signedHeaders
      ++ ", Signature=" ++ Sha256.hex (Sha256.keyed key (Utf8.encode text))
    date := stamp now
    contentDigest := emptyDigest }

end Signature

end CrawlBoard
