import CrawlBoard.Settings.Basic
import CrawlBoard.Text.Blank
/-!
Layers of settings. The file goes over the defaults, the environment over the file, and the
flags of the command line over both.
-/

namespace CrawlBoard

def filled? (text : String) : Option String := if text.isEmpty then none else some text

abbrev Environment := String → Option String

structure Flags where
  gcp : Bool := false
  bucket? : Option String := none
  deriving DecidableEq, Repr

namespace Settings

/-- An empty index URL turns the probe off. -/
def withFile (settings : Settings) (file : FileSettings) : Settings :=
  { settings with
    gcp := file.gcp?.getD settings.gcp
    gcsBucket := file.gcsBucket?.getD settings.gcsBucket
    localBucket := file.localBucket?.getD settings.localBucket
    keyPrefix := file.keyPrefix?.getD settings.keyPrefix
    minioEndpoint := file.minioEndpoint?.getD settings.minioEndpoint
    indexUrl? := match file.indexUrl? with
      | some url => filled? url
      | none => settings.indexUrl?
    timeout := file.timeout?.getD settings.timeout
    bind := file.bind?.getD settings.bind }

def gcpVariable : String := "CRAWL_STATUS_USE_GCP"

def localBucketVariable : String := "CRAWL_STATUS_LOCAL_BUCKET"

def keyPrefixVariable : String := "CRAWL_STATUS_PREFIX"

def minioEndpointVariable : String := "CRAWL_STATUS_MINIO_ENDPOINT"

def indexUrlVariable : String := "CRAWL_STATUS_SITEMAP_INDEX"

/-- Any other text than these means no. -/
def isYes (text : String) : Bool :=
  ["true", "1", "yes", "on"].contains ((Blank.trim text).map Char.toLower)

/-- Empty texts count as unset, except for the index URL, which they turn off. -/
def withEnvironment (settings : Settings) (environment : Environment) : Settings :=
  let given (name : String) : Option String := (environment name).bind filled?
  { settings with
    gcp := ((environment gcpVariable).map isYes).getD settings.gcp
    localBucket := (given localBucketVariable).getD settings.localBucket
    keyPrefix := (given keyPrefixVariable).getD settings.keyPrefix
    minioEndpoint := (given minioEndpointVariable).getD settings.minioEndpoint
    indexUrl? := match environment indexUrlVariable with
      | some url => filled? url
      | none => settings.indexUrl? }

/-- The bucket given is that of the backend selected in the end. -/
def withFlags (settings : Settings) (flags : Flags) : Settings :=
  let selected := { settings with gcp := flags.gcp || settings.gcp }
  match flags.bucket?.bind filled? with
  | none => selected
  | some bucket =>
      if selected.gcp then { selected with gcsBucket := bucket }
      else { selected with localBucket := bucket }

end Settings

end CrawlBoard
