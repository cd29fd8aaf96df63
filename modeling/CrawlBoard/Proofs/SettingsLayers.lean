import CrawlBoard.Proofs.Search
import CrawlBoard.Settings.Layer
import Mathlib.Data.List.TakeWhile
/-!
What layers of settings come to. A layer, wherever it is read from, gives values for some of the
fields, and of each field the last value given counts. A bucket that is named on the command line
goes over all layers, to the backend that they select.
-/

namespace CrawlBoard

/-! ## Texts that mean yes -/

namespace Blank

theorem exists_around_trim (text : String) : ∃ lead trail : List Char,
    text.toList = lead ++ (trim text).toList ++ trail ∧
      ∀ char ∈ lead ++ trail, isBlank char = true := by
  have left : text.toList.takeWhile isBlank ++ trimLeft text.toList = text.toList :=
    List.takeWhile_append_dropWhile
  have right (chars : List Char) :
      trimRight chars ++ (chars.reverse.takeWhile isBlank).reverse = chars := by
    rw [trimRight, ← List.reverse_append, List.takeWhile_append_dropWhile, List.reverse_reverse]
  refine ⟨text.toList.takeWhile isBlank,
    ((trimLeft text.toList).reverse.takeWhile isBlank).reverse, ?_, ?_⟩
  · rw [trim, String.toList_ofList, List.append_assoc, right]
    exact left.symm
  · intro char member
    rcases List.mem_append.mp member with inLead | inTrail
    · exact List.mem_takeWhile_imp inLead
    · exact List.mem_takeWhile_imp (List.mem_reverse.mp inTrail)

theorem trim_around {lead word trail : List Char}
    (blanks : ∀ char ∈ lead ++ trail, isBlank char = true)
    (plain : ∀ char ∈ word, isBlank char = false) :
    trim (String.ofList (lead ++ word ++ trail)) = String.ofList word := by
  have leads : ∀ char ∈ lead, isBlank char = true :=
    fun char member => blanks char (List.mem_append_left _ member)
  have trails : ∀ char ∈ trail, isBlank char = true :=
    fun char member => blanks char (List.mem_append_right _ member)
  rw [trim, String.toList_ofList, trimLeft, List.append_assoc, List.dropWhile_append_of_pos leads]
  cases word with
  | nil => rw [List.nil_append, List.dropWhile_eq_nil_iff.mpr trails]; rfl
  | cons first word =>
      have front : (first :: word ++ trail).dropWhile isBlank = first :: word ++ trail :=
        Search.dropWhile_of_head (by simpa using plain first List.mem_cons_self)
      have kept : ∀ last ∈ (first :: word).getLast?, isBlank last = false :=
        fun last ends => plain last (List.mem_of_getLast? ends)
      have back : trimRight (first :: word ++ trail) = first :: word := by
        have cut := Search.dropTrailing_append kept trail
        rwa [(Search.dropTrailing_eq_nil_iff isBlank trail).mpr trails, List.append_nil] at cut
      rw [front, back]

theorem toLower_of_isBlank {char : Char} (blank : isBlank char = true) : char.toLower = char := by
  refine dif_neg ?_
  rintro ⟨above, below⟩
  have low : 65 ≤ char.toNat := UInt32.le_iff_toNat_le.mp above
  have high : char.toNat ≤ 90 := UInt32.le_iff_toNat_le.mp below
  simp only [isBlank, Bool.or_eq_true, Bool.and_eq_true, decide_eq_true_eq, beq_iff_eq] at blank
  omega

end Blank

namespace Settings

/-- One of four words, in letters of any case, with blanks around it. -/
def Affirms (text : String) : Prop :=
  ∃ lead word trail : List Char, text.toList = lead ++ word ++ trail ∧
    (∀ char ∈ lead ++ trail, Blank.isBlank char = true) ∧
    String.ofList (word.map Char.toLower) ∈ ["true", "1", "yes", "on"]

theorem not_blank_of_lowered {word : List Char}
    (listed : String.ofList (word.map Char.toLower) ∈ ["true", "1", "yes", "on"]) :
    ∀ char ∈ word, Blank.isBlank char = false := by
  intro char member
  have plain : ∀ answer ∈ ["true", "1", "yes", "on"], ∀ letter ∈ answer.toList,
      Blank.isBlank letter = false := by decide
  by_contra blank
  rw [Bool.not_eq_false] at blank
  have lowered : char ∈ (String.ofList (word.map Char.toLower)).toList := by
    rw [String.toList_ofList]
    exact List.mem_map.mpr ⟨char, member, Blank.toLower_of_isBlank blank⟩
  have letter := plain _ listed char lowered
  simp [blank] at letter

theorem isYes_iff (text : String) : isYes text = true ↔ Affirms text := by
  rw [isYes, List.contains_iff_mem]
  constructor
  · intro listed
    obtain ⟨lead, trail, shape, blanks⟩ := Blank.exists_around_trim text
    refine ⟨lead, _, trail, shape, blanks, ?_⟩
    rwa [← String.toList_map, String.ofList_toList]
  · rintro ⟨lead, word, trail, shape, blanks, listed⟩
    have trimmed := Blank.trim_around blanks (not_blank_of_lowered listed)
    rw [← shape, String.ofList_toList] at trimmed
    have lowered : (String.ofList word).map Char.toLower = String.ofList (word.map Char.toLower) :=
      String.toList_inj.mp (by
        rw [String.toList_map, String.toList_ofList, String.toList_ofList])
    rwa [trimmed, lowered]

/-! ## Layers -/

/-- What one layer gives. An index URL that is given may be nothing, which turns the probe off. -/
structure Layer where
  gcp? : Option Bool := none
  gcsBucket? : Option String := none
  localBucket? : Option String := none
  keyPrefix? : Option String := none
  minioEndpoint? : Option String := none
  indexUrl? : Option (Option String) := none
  timeout? : Option UInt64 := none
  bind? : Option String := none

namespace Layer

def ofFile (file : FileSettings) : Layer where
  gcp? := file.gcp?
  gcsBucket? := file.gcsBucket?
  localBucket? := file.localBucket?
  keyPrefix? := file.keyPrefix?
  minioEndpoint? := file.minioEndpoint?
  indexUrl? := file.indexUrl?.map filled?
  timeout? := file.timeout?
  bind? := file.bind?

def ofEnvironment (environment : Environment) : Layer where
  gcp? := (environment gcpVariable).map isYes
  localBucket? := (environment localBucketVariable).bind filled?
  keyPrefix? := (environment keyPrefixVariable).bind filled?
  minioEndpoint? := (environment minioEndpointVariable).bind filled?
  indexUrl? := (environment indexUrlVariable).map filled?

def ofSelection (gcp : Bool) : Layer where
  gcp? := if gcp then some true else none

end Layer

/-- The last value that is given for a field, or what lies below the layers. -/
def lastGiven {value : Type} (field : Layer → Option value) (below : value) (layers : List Layer) :
    value :=
  (layers.reverse.findSome? field).getD below

/-- Settings with layers over them, the last one on top. -/
def under (settings : Settings) (layers : List Layer) : Settings :=
  { settings with
    gcp := lastGiven Layer.gcp? settings.gcp layers
    gcsBucket := lastGiven Layer.gcsBucket? settings.gcsBucket layers
    localBucket := lastGiven Layer.localBucket? settings.localBucket layers
    keyPrefix := lastGiven Layer.keyPrefix? settings.keyPrefix layers
    minioEndpoint := lastGiven Layer.minioEndpoint? settings.minioEndpoint layers
    indexUrl? := lastGiven Layer.indexUrl? settings.indexUrl? layers
    timeout := lastGiven Layer.timeout? settings.timeout layers
    bind := lastGiven Layer.bind? settings.bind layers }

section Fields

variable {value : Type} (field : Layer → Option value) (below : value)

theorem lastGiven_append (first second : List Layer) : lastGiven field below (first ++ second) =
    lastGiven field (lastGiven field below first) second := by
  unfold lastGiven
  rw [List.reverse_append, List.findSome?_append]
  cases second.reverse.findSome? field <;> rfl

theorem lastGiven_singleton (layer : Layer) :
    lastGiven field below [layer] = (field layer).getD below := by
  rw [lastGiven, List.reverse_singleton, List.findSome?_singleton]

theorem lastGiven_twice (layer : Layer) :
    lastGiven field below [layer, layer] = lastGiven field below [layer] := by
  rw [← List.singleton_append, lastGiven_append, lastGiven_singleton, lastGiven_singleton]
  cases field layer <;> rfl

end Fields

theorem under_append (settings : Settings) (first second : List Layer) :
    settings.under (first ++ second) = (settings.under first).under second := by
  simp only [under, lastGiven_append]

theorem under_twice (settings : Settings) (layer : Layer) :
    (settings.under [layer]).under [layer] = settings.under [layer] := by
  rw [← under_append, List.singleton_append]
  simp only [under, lastGiven_twice]

theorem withFile_eq (settings : Settings) (file : FileSettings) :
    settings.withFile file = settings.under [.ofFile file] := by
  simp only [withFile, under, lastGiven_singleton, Layer.ofFile]
  cases file.indexUrl? <;> rfl

theorem withEnvironment_eq (settings : Settings) (environment : Environment) :
    settings.withEnvironment environment = settings.under [.ofEnvironment environment] := by
  simp only [withEnvironment, under, lastGiven_singleton, Layer.ofEnvironment, Option.getD_none]
  cases environment indexUrlVariable <;> rfl

/-! ## The bucket on top -/

def otherBucket (settings : Settings) : String :=
  if settings.gcp then settings.localBucket else settings.gcsBucket

def withBucket (settings : Settings) (bucket : String) : Settings :=
  if settings.gcp then { settings with gcsBucket := bucket }
  else { settings with localBucket := bucket }

section Bucket

variable (settings : Settings) (bucket : String)

theorem bucket_withBucket : (settings.withBucket bucket).bucket = bucket := by
  unfold withBucket
  split <;> simp_all [Settings.bucket]

theorem otherBucket_withBucket :
    (settings.withBucket bucket).otherBucket = settings.otherBucket := by
  unfold withBucket
  split <;> simp_all [otherBucket]

theorem withBucket_keeps : settings.withBucket bucket =
    { settings with
      gcsBucket := (settings.withBucket bucket).gcsBucket
      localBucket := (settings.withBucket bucket).localBucket } := by
  unfold withBucket
  split <;> rfl

end Bucket

theorem withFlags_eq (settings : Settings) (flags : Flags) : settings.withFlags flags =
    match flags.bucket?.bind filled? with
    | none => settings.under [.ofSelection flags.gcp]
    | some bucket => (settings.under [.ofSelection flags.gcp]).withBucket bucket := by
  have selected : { settings with gcp := flags.gcp || settings.gcp } =
      settings.under [.ofSelection flags.gcp] := by
    simp only [under, lastGiven_singleton, Layer.ofSelection, Option.getD_none]
    cases flags.gcp <;> rfl
  rw [withFlags, selected]
  rfl

theorem withFlags_twice (settings : Settings) (flags : Flags) :
    (settings.withFlags flags).withFlags flags = settings.withFlags flags := by
  unfold withFlags
  cases flags.bucket?.bind filled? with
  | none => cases flags.gcp <;> rfl
  | some bucket => cases flags.gcp <;> cases settings.gcp <;> rfl

/-- Before a bucket is named on the command line, each field is what the last layer gives that has a
value for it, and the other fields are those of the base. A bucket that is named is the one of the
backend selected in the end, and nothing else changes. Each layer may as well be applied twice. -/
theorem settings_of_layers (base : Settings) (file : FileSettings) (environment : Environment)
    (flags : Flags) :
    let layered := base.under [.ofFile file, .ofEnvironment environment, .ofSelection flags.gcp]
    let settings := ((base.withFile file).withEnvironment environment).withFlags flags
    (flags.bucket? = none ∨ flags.bucket? = some "" → settings = layered) ∧
    (∀ bucket, flags.bucket? = some bucket → bucket ≠ "" →
      settings.bucket = bucket ∧ settings.otherBucket = layered.otherBucket ∧
      settings =
        { layered with gcsBucket := settings.gcsBucket, localBucket := settings.localBucket }) ∧
    (∀ text, isYes text = true ↔ Affirms text) ∧
    ∀ any : Settings,
      (any.withFile file).withFile file = any.withFile file ∧
      (any.withEnvironment environment).withEnvironment environment =
        any.withEnvironment environment ∧
      (any.withFlags flags).withFlags flags = any.withFlags flags := by
  intro layered settings
  have selected : ((base.withFile file).withEnvironment environment).under
      [.ofSelection flags.gcp] = layered := by
    rw [withFile_eq, withEnvironment_eq, ← under_append, ← under_append]
    rfl
  -- Flags are a layer, too, but for the bucket that goes to the selected backend.
  have laid : settings = match flags.bucket?.bind filled? with
      | none => layered
      | some bucket => layered.withBucket bucket := by
    rw [← selected]
    exact withFlags_eq _ flags
  refine ⟨?_, ?_, isYes_iff, fun any => ⟨?_, ?_, withFlags_twice any flags⟩⟩
  · rintro (missing | empty)
    · rw [laid, missing]; rfl
    · rw [laid, empty]; rfl
  · intro bucket named filled
    have final : settings = layered.withBucket bucket := by
      rw [laid, named, Option.bind_some, filled?, if_neg (by rwa [String.isEmpty_iff])]
    rw [final]
    exact ⟨bucket_withBucket layered bucket, otherBucket_withBucket layered bucket,
      withBucket_keeps layered bucket⟩
  · rw [withFile_eq, withFile_eq, under_twice]
  · rw [withEnvironment_eq, withEnvironment_eq, under_twice]

/-- The environment selects the public bucket, so that is what the name on the command line is for.
The empty prefix that it gives counts for nothing. -/
theorem bucket_named_for_selected_backend :
    let file : FileSettings := { gcp? := some false, keyPrefix? := some "reports" }
    let environment : Environment := fun name =>
      if name = gcpVariable then some " Yes\n" else if name = keyPrefixVariable then some "" else none
    let settings := ((({} : Settings).withFile file).withEnvironment environment).withFlags
      { bucket? := some "named" }
    settings.bucket = "named" ∧ settings.otherBucket = "iow-metadata" ∧ settings.gcp = true ∧
      settings.keyPrefix = "reports" := by
  intro file environment settings
  obtain ⟨-, named, -, -⟩ :=
    settings_of_layers {} file environment { bucket? := some "named" }
  obtain ⟨bucket, other, rest⟩ := named "named" rfl (by decide)
  refine ⟨bucket, other.trans (by decide +kernel), ?_, ?_⟩
  · exact (congrArg Settings.gcp rest).trans (by decide +kernel)
  · exact (congrArg Settings.keyPrefix rest).trans (by decide +kernel)

end Settings

end CrawlBoard
