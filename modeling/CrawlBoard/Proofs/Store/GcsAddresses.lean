import CrawlBoard.Proofs.Digits
import CrawlBoard.Proofs.QueryText
import CrawlBoard.Proofs.Segments
import CrawlBoard.Store.Gcs

namespace CrawlBoard.GcsStore

/-- How often what separates the parts of an address stands in a text. Of backslashes and of marks
in front of a fragment there are none. -/
structure Separators (text : String) (slashes questions ampersands equals : Nat) : Prop where
  slashes : text.toList.count '/' = slashes
  questions : text.toList.count '?' = questions
  ampersands : text.toList.count '&' = ampersands
  equals : text.toList.count '=' = equals
  noBackslash : '\\' ∉ text.toList
  noFragment : '#' ∉ text.toList

theorem Separators.append {front back : String} {s s' q q' a a' e e' : Nat}
    (first : Separators front s q a e) (second : Separators back s' q' a' e') :
    Separators (front ++ back) (s + s') (q + q') (a + a') (e + e') where
  slashes := by rw [String.toList_append, List.count_append, first.slashes, second.slashes]
  questions := by rw [String.toList_append, List.count_append, first.questions, second.questions]
  ampersands := by rw [String.toList_append, List.count_append, first.ampersands, second.ampersands]
  equals := by rw [String.toList_append, List.count_append, first.equals, second.equals]
  noBackslash := by simp [first.noBackslash, second.noBackslash]
  noFragment := by simp [first.noFragment, second.noFragment]

theorem separators_encode (text : String) : Separators (Percent.encode text) 0 0 0 0 where
  slashes := List.count_eq_zero.mpr (Percent.not_mem_encode (by decide) text)
  questions := List.count_eq_zero.mpr (Percent.not_mem_encode (by decide) text)
  ampersands := List.count_eq_zero.mpr (Percent.not_mem_encode (by decide) text)
  equals := List.count_eq_zero.mpr (Percent.not_mem_encode (by decide) text)
  noBackslash := Percent.not_mem_encode (by decide) text
  noFragment := Percent.not_mem_encode (by decide) text

theorem separators_encodePath (path : String) :
    Separators (Percent.encodePath path) (path.toList.count '/') 0 0 0 where
  slashes := Percent.count_slash_encodePath path
  questions := List.count_eq_zero.mpr (Percent.not_mem_encodePath (by decide) (by decide) path)
  ampersands := List.count_eq_zero.mpr (Percent.not_mem_encodePath (by decide) (by decide) path)
  equals := List.count_eq_zero.mpr (Percent.not_mem_encodePath (by decide) (by decide) path)
  noBackslash := Percent.not_mem_encodePath (by decide) (by decide) path
  noFragment := Percent.not_mem_encodePath (by decide) (by decide) path

theorem separators_part (param : String × String) :
    Separators ((QueryText.encoded param).1 ++ "=" ++ (QueryText.encoded param).2) 0 0 0 1 := by
  have mark : Separators "=" 0 0 0 1 := by constructor <;> decide
  exact ((separators_encode param.1).append mark).append (separators_encode param.2)

theorem separators_joined (param : String × String) (params : List (String × String)) :
    Separators (QueryText.joined ((param :: params).map QueryText.encoded)) 0 0 params.length
      (params.length + 1) := by
  induction params generalizing param with
  | nil =>
      have single : QueryText.joined ([param].map QueryText.encoded) =
          (QueryText.encoded param).1 ++ "=" ++ (QueryText.encoded param).2 := by
        simp [QueryText.joined]
      rw [single]
      exact separators_part param
  | cons next params ih =>
      have mark : Separators "&" 0 0 1 0 := by constructor <;> decide
      have cut : QueryText.joined ((param :: next :: params).map QueryText.encoded) =
          (QueryText.encoded param).1 ++ "=" ++ (QueryText.encoded param).2 ++ "&"
            ++ QueryText.joined ((next :: params).map QueryText.encoded) := by
        simp [QueryText.joined]
      have counted := ((separators_part param).append mark).append (ih next)
      rw [cut]
      simpa only [List.length_cons, Nat.zero_add, Nat.add_comm 1] using counted

def listText (query : ListQuery) : String :=
  QueryText.joined ((listParams query).map QueryText.encoded)

def listRest (bucket : String) (query : ListQuery) : String :=
  "/storage/v1/b/" ++ Percent.encode bucket ++ "/o?" ++ listText query

theorem listUrl_eq (store : GcsStore) (query : ListQuery) :
    store.listUrl query = store.base ++ listRest store.bucket query := by
  have names : Percent.encode "prefix" = "prefix" ∧ Percent.encode "maxResults" = "maxResults" ∧
      Percent.encode "pageToken" = "pageToken" := by
    decide +kernel
  unfold listUrl listRest listText QueryText.joined listParams
  cases query.token? <;> simp [QueryText.encoded, names, String.append_assoc]

theorem params?_listText (query : ListQuery) :
    QueryText.params? (listText query) = some (listParams query) :=
  QueryText.params?_encoded (listParams query)

theorem separators_listRest (bucket : String) (query : ListQuery) :
    Separators (listRest bucket query) 5 1 (1 + query.token?.toList.length)
      (2 + query.token?.toList.length) := by
  have path : Separators "/storage/v1/b/" 4 0 0 0 := by constructor <;> decide
  have mark : Separators "/o?" 1 1 0 0 := by constructor <;> decide
  have params : Separators (listText query) 0 0 (1 + query.token?.toList.length)
      (2 + query.token?.toList.length) := by
    have counted := separators_joined ("prefix", query.keyPrefix)
      (("maxResults", toString query.limit)
        :: query.token?.toList.map fun token => ("pageToken", token))
    rw [List.length_cons, List.length_map, Nat.add_comm, Nat.add_right_comm] at counted
    exact counted
  have counted := ((path.append (separators_encode bucket)).append mark).append params
  simp only [Nat.zero_add] at counted
  exact counted

theorem listParams_inj {first second : ListQuery} :
    listParams first = listParams second ↔ first = second := by
  refine ⟨fun same => ?_, congrArg listParams⟩
  injection same with prefixes rest
  injection rest with limits tokens
  have sameLimit := Digits.toString_injective (congrArg Prod.snd limits)
  have sameToken : first.token? = second.token? := by
    cases given : first.token? <;> cases given' : second.token? <;>
      simp_all
  obtain ⟨keyPrefix, limit, token?⟩ := first
  exact (ListQuery.mk.injEq ..).mpr ⟨congrArg Prod.snd prefixes, sameLimit, sameToken⟩

theorem listText_inj {first second : ListQuery} :
    listText first = listText second ↔ first = second := by
  refine ⟨fun same => listParams_inj.mp ?_, congrArg listText⟩
  have read := congrArg QueryText.params? same
  rw [params?_listText, params?_listText] at read
  exact Option.some.inj read

theorem cut_at_slash {front back front' back' : String} (noSlash : '/' ∉ front.toList)
    (noSlash' : '/' ∉ front'.toList) (same : front ++ "/" ++ back = front' ++ "/" ++ back') :
    front = front' ∧ back = back' := by
  have segments := congrArg Percent.segments same
  rw [Percent.segments_append, Percent.segments_append, Percent.segments_of_not_mem noSlash,
    Percent.segments_of_not_mem noSlash'] at segments
  injection segments with fronts backs
  exact ⟨fronts, Percent.segments_inj.mp backs⟩

theorem listRest_inj {bucket bucket' : String} {query query' : ListQuery} :
    listRest bucket query = listRest bucket' query' ↔ bucket = bucket' ∧ query = query' := by
  have shape (bucket : String) (query : ListQuery) : listRest bucket query =
      "/storage/v1/b/" ++ (Percent.encode bucket ++ "/" ++ ("o?" ++ listText query)) := by
    have marks : "/o?" = "/" ++ "o?" := rfl
    rw [listRest, marks]
    simp only [String.append_assoc]
  constructor
  · intro same
    rw [shape, shape, String.append_right_inj] at same
    obtain ⟨buckets, texts⟩ := cut_at_slash (Percent.not_mem_encode (by decide) bucket)
      (Percent.not_mem_encode (by decide) bucket') same
    exact ⟨Percent.encode_inj.mp buckets, listText_inj.mp (String.append_right_inj _ |>.mp texts)⟩
  · rintro ⟨rfl, rfl⟩
    rfl

def objectText (bucket key : String) : String :=
  Percent.encode bucket ++ "/" ++ Percent.encodePath key

theorem objectUrl_eq (store : GcsStore) (key : String) :
    store.objectUrl key = store.base ++ ("/" ++ objectText store.bucket key) := by
  unfold objectUrl objectText
  simp only [String.append_assoc]

theorem decodedSegments?_objectText (bucket key : String) :
    Percent.decodedSegments? (objectText bucket key) = some (bucket :: Percent.segments key) := by
  have cut : Percent.segments (objectText bucket key) =
      (bucket :: Percent.segments key).map Percent.encode := by
    rw [objectText, Percent.segments_append, Percent.segments_encodePath,
      Percent.segments_of_not_mem (Percent.not_mem_encode (by decide) bucket)]
    rfl
  rw [Percent.decodedSegments?, cut]
  exact Search.mapM_map_of_inverse _ fun segment _ => Percent.decodeText?_encode segment

theorem objectText_inj {bucket bucket' key key' : String} :
    objectText bucket key = objectText bucket' key' ↔ bucket = bucket' ∧ key = key' := by
  constructor
  · intro same
    have read := congrArg Percent.decodedSegments? same
    rw [decodedSegments?_objectText, decodedSegments?_objectText] at read
    injection Option.some.inj read with buckets keys
    exact ⟨buckets, Percent.segments_inj.mp keys⟩
  · rintro ⟨rfl, rfl⟩
    rfl

theorem separators_objectRest (bucket key : String) :
    Separators ("/" ++ objectText bucket key) (2 + key.toList.count '/') 0 0 0 := by
  have slash : Separators "/" 1 0 0 0 := by constructor <;> decide
  have counted := slash.append
    (((separators_encode bucket).append slash).append (separators_encodePath key))
  rwa [Nat.zero_add, ← Nat.add_assoc] at counted

/-- What is asked for is read back from the address: bucket and parameters of a listing, bucket and
key of an object. Nothing in them adds a parameter, a query, a fragment or a segment, so that no two
things that are asked for over one base have one address. -/
theorem addresses_hold_what_is_asked (store : GcsStore) (query : ListQuery) (key : String) :
    (∃ text, store.listUrl query =
        store.base ++ "/storage/v1/b/" ++ Percent.encode store.bucket ++ "/o?" ++ text ∧
      QueryText.params? text =
        some ([("prefix", query.keyPrefix), ("maxResults", toString query.limit)]
          ++ query.token?.toList.map fun token => ("pageToken", token))) ∧
    (∃ text, store.objectUrl key = store.base ++ "/" ++ text ∧
      Percent.decodedSegments? text = some (store.bucket :: Percent.segments key)) ∧
    (∀ text,
      Percent.segments (Percent.encodePath text) = (Percent.segments text).map Percent.encode ∧
      (Percent.encodePath text).toList.count '/' = text.toList.count '/' ∧
      (Percent.decodedSegments? (Percent.encodePath text)).map "/".intercalate = some text) ∧
    (∀ front back, Percent.encodePath (front ++ "/" ++ back) =
      Percent.encodePath front ++ "/" ++ Percent.encodePath back) ∧
    (∀ bucket otherQuery, GcsStore.listUrl ⟨store.base, bucket⟩ otherQuery = store.listUrl query ↔
      bucket = store.bucket ∧ otherQuery = query) ∧
    (∀ bucket otherKey, GcsStore.objectUrl ⟨store.base, bucket⟩ otherKey = store.objectUrl key ↔
      bucket = store.bucket ∧ otherKey = key) ∧
    (∀ bucket, GcsStore.objectUrl ⟨store.base, bucket⟩ key ≠ store.listUrl query) ∧
    (∃ rest, store.listUrl query = store.base ++ rest ∧
      Separators rest 5 1 (1 + query.token?.toList.length) (2 + query.token?.toList.length)) ∧
    ∃ rest, store.objectUrl key = store.base ++ rest ∧
      Separators rest (2 + key.toList.count '/') 0 0 0 := by
  refine ⟨⟨listText query, ?_, params?_listText query⟩, ⟨objectText store.bucket key, ?_,
    decodedSegments?_objectText store.bucket key⟩, fun text => ⟨Percent.segments_encodePath text,
      Percent.count_slash_encodePath text, ?_⟩, Percent.encodePath_append, ?_, ?_, ?_,
    ⟨_, listUrl_eq store query, separators_listRest store.bucket query⟩,
    ⟨_, objectUrl_eq store key, separators_objectRest store.bucket key⟩⟩
  · rw [listUrl_eq, listRest]
    simp only [String.append_assoc]
  · rw [objectUrl_eq, String.append_assoc]
  · rw [Percent.decodedSegments?_encodePath, Option.map_some, Percent.intercalate_segments]
  · intro bucket otherQuery
    rw [listUrl_eq, listUrl_eq, String.append_right_inj]
    exact listRest_inj
  · intro bucket otherKey
    rw [objectUrl_eq, objectUrl_eq, String.append_right_inj, String.append_right_inj]
    exact objectText_inj
  · intro bucket same
    rw [listUrl_eq, objectUrl_eq, String.append_right_inj] at same
    have none := (separators_objectRest bucket key).questions
    rw [same, (separators_listRest store.bucket query).questions] at none
    cases none

end CrawlBoard.GcsStore
