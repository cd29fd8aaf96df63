import CrawlBoard.Proofs.Percent

namespace CrawlBoard.QueryText

def encoded (param : String × String) : String × String :=
  (Percent.encode param.1, Percent.encode param.2)

def joined (parts : List (String × String)) : String :=
  "&".intercalate (parts.map fun part => part.1 ++ "=" ++ part.2)

def part? (component : List Char) : Option (String × String) :=
  (Search.cut? ['='] component).map fun cut => (String.ofList cut.1, String.ofList cut.2)

def parts? (query : String) : Option (List (String × String)) :=
  if query = "" then some [] else (Search.splitOn '&' query.toList).mapM part?

def decoded? (part : String × String) : Option (String × String) := do
  let name ← Percent.decodeText? part.1.toList
  let value ← Percent.decodeText? part.2.toList
  return (name, value)

/-- The parameters of a query. -/
def params? (query : String) : Option (List (String × String)) :=
  (parts? query).bind (List.mapM decoded?)

/-- A part that can be told from its neighbours. -/
structure Separable (part : String × String) : Prop where
  name : '=' ∉ part.1.toList ∧ '&' ∉ part.1.toList
  value : '&' ∉ part.2.toList

theorem part?_of_separable {part : String × String} (separable : Separable part) :
    part? (part.1 ++ "=" ++ part.2).toList = some part := by
  have chars : (part.1 ++ "=" ++ part.2).toList = part.1.toList ++ '=' :: part.2.toList := by
    simp
  rw [part?, chars, Search.cut?_singleton separable.name.1]
  simp

theorem toList_joined (parts : List (String × String)) :
    (joined parts).toList =
      ['&'].intercalate (parts.map fun part => (part.1 ++ "=" ++ part.2).toList) := by
  rw [joined, String.toList_intercalate, List.map_map]
  rfl

theorem joined_ne_empty {parts : List (String × String)} (given : parts ≠ []) :
    joined parts ≠ "" := by
  obtain ⟨part, rest, rfl⟩ := List.exists_cons_of_ne_nil given
  intro empty
  have inside : '=' ∈ (joined (part :: rest)).toList := by
    rw [toList_joined]
    apply Search.subset_intercalate (List.mem_map.mpr ⟨part, List.mem_cons_self, rfl⟩)
    simp
  rw [empty] at inside
  cases inside

theorem parts?_joined {parts : List (String × String)}
    (separable : ∀ part ∈ parts, Separable part) : parts? (joined parts) = some parts := by
  by_cases given : parts = []
  · subst given
    rfl
  have cut : Search.splitOn '&' (joined parts).toList =
      parts.map fun part => (part.1 ++ "=" ++ part.2).toList := by
    rw [joined, Search.splitOn_joined rfl _ (by simpa using given), List.map_map]
    · rfl
    · intro text present
      obtain ⟨part, member, rfl⟩ := List.mem_map.mp present
      have apart := separable part member
      simp [apart.name.2, apart.value]
  rw [parts?, if_neg (joined_ne_empty given), cut]
  apply Search.mapM_map_of_inverse
  exact fun part member => part?_of_separable (separable part member)

theorem separable_encoded (param : String × String) : Separable (encoded param) where
  name := ⟨Percent.not_mem_encode (by decide) param.1, Percent.not_mem_encode (by decide) param.1⟩
  value := Percent.not_mem_encode (by decide) param.2

theorem decoded?_encoded (param : String × String) : decoded? (encoded param) = some param := by
  simp [decoded?, encoded, Percent.decodeText?_encode]

theorem encoded_injective : Function.Injective encoded := by
  intro first second same
  have read := congrArg decoded? same
  rw [decoded?_encoded, decoded?_encoded] at read
  exact Option.some.inj read

theorem parts?_encoded (params : List (String × String)) :
    parts? (joined (params.map encoded)) = some (params.map encoded) := by
  apply parts?_joined
  intro part member
  obtain ⟨param, -, rfl⟩ := List.mem_map.mp member
  exact separable_encoded param

theorem params?_encoded (params : List (String × String)) :
    params? (joined (params.map encoded)) = some params := by
  rw [params?, parts?_encoded, Option.bind_some]
  exact Search.mapM_map_of_inverse params fun param _ => decoded?_encoded param

def hexDigits : List Char := "0123456789ABCDEF".toList

def unreserved : List Char :=
  "ABCDEFGHIJKLMNOPQRSTUVWXYZabcdefghijklmnopqrstuvwxyz0123456789-_.~".toList

def marks : List Char := ['=', '&']

inductive Written : List Char → Prop
  | nil : Written []
  | plain {char : Char} {rest : List Char} (free : char ∈ unreserved)
      (others : Written rest) : Written (char :: rest)
  | escape {high low : Char} {rest : List Char} (first : high ∈ hexDigits)
      (second : low ∈ hexDigits) (others : Written rest) : Written ('%' :: high :: low :: rest)
  | mark {char : Char} {rest : List Char} (separates : char ∈ marks)
      (others : Written rest) : Written (char :: rest)

theorem Written.append {front back : List Char} (first : Written front) (second : Written back) :
    Written (front ++ back) := by
  induction first with
  | nil => exact second
  | plain free _ ih => exact .plain free ih
  | escape high low _ ih => exact .escape high low ih
  | mark separates _ ih => exact .mark separates ih

theorem written_encodeByte (byte : UInt8) : Written (Percent.encodeByte byte) := by
  unfold Percent.encodeByte
  split
  · rename_i free
    apply Written.plain _ .nil
    exact Utf8.of_byte (fun byte => Percent.unreserved byte = true →
      Char.ofNat byte.toNat ∈ unreserved) byte (by decide +kernel) free
  · have digit : ∀ value < 16, Percent.upperDigit value ∈ hexDigits := by decide
    have bound := byte.toNat_lt
    exact .escape (digit _ (by omega)) (digit _ (by omega)) .nil

theorem written_encode (text : String) : Written (Percent.encode text).toList := by
  rw [Percent.encode, String.toList_ofList, Percent.encodeChars]
  induction Utf8.encode text with
  | nil => exact .nil
  | cons byte bytes ih =>
      rw [List.flatMap_cons]
      exact (written_encodeByte byte).append ih

theorem written_part (param : String × String) :
    Written ((encoded param).1 ++ "=" ++ (encoded param).2).toList := by
  rw [String.toList_append, String.toList_append, List.append_assoc]
  exact (written_encode param.1).append (.mark (by decide) (written_encode param.2))

theorem written_joined (params : List (String × String)) :
    Written (joined (params.map encoded)).toList := by
  rw [toList_joined, List.map_map]
  induction params with
  | nil => exact .nil
  | cons param params ih =>
      cases params with
      | nil =>
          rw [List.map_singleton, List.intercalate_singleton]
          exact written_part param
      | cons next params =>
          rw [List.map_cons, List.map_cons, List.intercalate_cons_cons, List.append_assoc]
          exact (written_part param).append (.mark (by decide) ih)

end CrawlBoard.QueryText
