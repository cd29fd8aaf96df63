import CrawlBoard.Store.Signature

namespace CrawlBoard

structure Settings where
  gcp : Bool := false
  gcsBucket : String := "metadata-geoconnex-us"
  localBucket : String := "iow-metadata"
  keyPrefix : String := "metadata/sitemaps"
  gcsBase : String := "https://storage.googleapis.com"
  minioEndpoint : String := "http://localhost:9000"
  minioRegion : String := "us-east-1"
  minioAccessKey : String := "minioadmin"
  minioSecretKey : String := "minioadmin"
  /-- Nothing means that the sitemap index is not looked at. -/
  indexUrl? : Option String := some "https://geoconnex.us/sitemap.xml"
  timeout : UInt64 := 30
  bind : String := "127.0.0.1:3030"
  deriving DecidableEq, Repr

namespace Settings

def bucket (settings : Settings) : String :=
  if settings.gcp then settings.gcsBucket else settings.localBucket

def credentials (settings : Settings) : Credentials :=
  ⟨settings.minioAccessKey, settings.minioSecretKey, settings.minioRegion⟩

end Settings

structure FileSettings where
  gcp? : Option Bool := none
  gcsBucket? : Option String := none
  localBucket? : Option String := none
  keyPrefix? : Option String := none
  minioEndpoint? : Option String := none
  indexUrl? : Option String := none
  timeout? : Option UInt64 := none
  bind? : Option String := none
  deriving DecidableEq, Repr

end CrawlBoard
