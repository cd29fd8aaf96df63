import CrawlBoard.Settings.Basic
import CrawlBoard.Store.Gcs
import CrawlBoard.Store.Minio

namespace CrawlBoard

inductive RemoteStore where
  | gcs (store : GcsStore)
  | minio (store : MinioStore)
  deriving DecidableEq, Repr

namespace RemoteStore

variable [DomainNames]

def ofSettings (settings : Settings) : Except StoreError RemoteStore :=
  if settings.gcp then .ok (gcs (.ofBase settings.gcsBase settings.bucket))
  else (MinioStore.ofEndpoint settings.minioEndpoint settings.bucket settings.credentials).map minio

def location : RemoteStore → String
  | gcs store => store.location
  | minio store => store.location

def list (network : Web.Network) (now : Instant) (query : ListQuery) :
    RemoteStore → Except StoreError ObjectPage
  | gcs store => store.list network query
  | minio store => store.list network now query

def fetch (network : Web.Network) (now : Instant) (key : String) :
    RemoteStore → Except StoreError StoredObject
  | gcs store => store.fetch network key
  | minio store => store.fetch network now key

def kind (network : Web.Network) (now : Instant) : StoreKind RemoteStore where
  location := location
  list store query := ({ answer := fun _ => store.list network now query }, store)
  fetch store key := ({ answer := fun _ => store.fetch network now key }, store)

end RemoteStore

end CrawlBoard
