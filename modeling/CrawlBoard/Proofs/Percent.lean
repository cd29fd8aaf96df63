import CrawlBoard.Proofs.Encoding
import CrawlBoard.Proofs.Search
import CrawlBoard.Text.Percent

namespace CrawlBoard.Percent

def isEncoded (char : Char) : Bool :=
  char = '%' || (char.toNat < 128 && unreserved (UInt8.ofNat char.toNat))

theorem isEncoded_of_mem_encodeByte {byte : UInt8} {char : Char} (member : char ∈ encodeByte byte) :
    isEncoded char = true :=
  Utf8.of_byte (fun byte => ∀ char ∈ encodeByte byte, isEncoded char = true) byte
    (by decide +kernel) char member

theorem isEncoded_of_mem_encode {text : String} {char : Char} (member : char ∈ (encode text).toList) :
    isEncoded char = true := by
  rw [encode, String.toList_ofList, encodeChars] at member
  obtain ⟨byte, -, inside⟩ := List.mem_flatMap.mp member
  exact isEncoded_of_mem_encodeByte inside

theorem not_mem_encode {mark : Char} (special : isEncoded mark = false) (text : String) :
    mark ∉ (encode text).toList := by
  intro member
  rw [isEncoded_of_mem_encode member] at special
  cases special

theorem ascii_of_isEncoded {char : Char} (encoded : isEncoded char = true) : char.toNat < 128 := by
  simp only [isEncoded, Bool.or_eq_true, decide_eq_true_eq, Bool.and_eq_true] at encoded
  rcases encoded with rfl | ⟨ascii, -⟩
  · decide
  · exact ascii

/-- The escape of a dot, once it is in lower case. -/
def dotEscape : List Char := ['%', '2', 'e']

theorem encodeByte_dotEscape (byte : UInt8) :
    ¬ (encodeByte byte).map Char.toLower <+: dotEscape ∧ (encodeByte byte).length ≤ 3 :=
  Utf8.of_byte (fun byte => ¬ (encodeByte byte).map Char.toLower <+: dotEscape ∧
    (encodeByte byte).length ≤ 3) byte (by decide +kernel)

theorem not_dotEscape (bytes : Utf8.Bytes) (rest : List Char) :
    (bytes.flatMap encodeByte).map Char.toLower ≠ dotEscape ++ rest := by
  intro same
  cases bytes with
  | nil => cases same
  | cons byte bytes =>
      obtain ⟨noPart, short⟩ := encodeByte_dotEscape byte
      rw [List.flatMap_cons, List.map_append] at same
      have first : (encodeByte byte).map Char.toLower <+: dotEscape ++ rest :=
        same ▸ List.prefix_append _ _
      refine noPart (List.prefix_of_prefix_length_le first (List.prefix_append _ _) ?_)
      rwa [List.length_map]

theorem flatMap_encodeByte_of_dot {bytes : Utf8.Bytes} {rest : List Char}
    (same : (bytes.flatMap encodeByte).map Char.toLower = '.' :: rest) :
    ∃ others : Utf8.Bytes, bytes.flatMap encodeByte = '.' :: others.flatMap encodeByte ∧
      (others.flatMap encodeByte).map Char.toLower = rest := by
  cases bytes with
  | nil => cases same
  | cons byte bytes =>
      have single : ((encodeByte byte).map Char.toLower).head? = some '.' → encodeByte byte = ['.'] :=
        Utf8.of_byte (fun byte => ((encodeByte byte).map Char.toLower).head? = some '.' →
          encodeByte byte = ['.']) byte (by decide +kernel)
      have some : ((encodeByte byte).map Char.toLower).head?.isSome :=
        Utf8.of_byte (fun byte => ((encodeByte byte).map Char.toLower).head?.isSome) byte
          (by decide +kernel)
      rw [List.flatMap_cons, List.map_append] at same
      have head := congrArg List.head? same
      rw [List.head?_append, Option.or_of_isSome some] at head
      have dot := single head
      refine ⟨bytes, by rw [List.flatMap_cons, dot]; rfl, ?_⟩
      rw [dot] at same
      exact (List.cons.inj same).2

def asciiBytes (chars : List Char) : Utf8.Bytes := chars.map fun char => UInt8.ofNat char.toNat

theorem digitValue?_upperDigit {value : Nat} (digit : value < 16) :
    digitValue? (UInt8.ofNat (upperDigit value).toNat) = some (UInt8.ofNat value) := by
  revert value
  decide

theorem decode_cons_of_ne {byte : UInt8} (plain : byte ≠ 0x25) (rest : Utf8.Bytes) :
    decode (byte :: rest) = byte :: decode rest := by
  rw [decode]
  rintro high low others rfl
  exact absurd rfl plain

theorem decode_of_plain {bytes : Utf8.Bytes} (plain : 0x25 ∉ bytes) : decode bytes = bytes := by
  induction bytes with
  | nil => rfl
  | cons byte rest ih =>
      rw [List.mem_cons, not_or] at plain
      rw [decode_cons_of_ne (Ne.symm plain.1), ih plain.2]

theorem asciiBytes_of_unreserved {byte : UInt8} (free : unreserved byte = true) :
    asciiBytes [Char.ofNat byte.toNat] = [byte] ∧ byte ≠ 0x25 :=
  Utf8.of_byte (fun byte => unreserved byte = true →
    asciiBytes [Char.ofNat byte.toNat] = [byte] ∧ byte ≠ 0x25) byte (by decide +kernel) free

theorem decode_escape (byte : UInt8) (rest : Utf8.Bytes) :
    decode (asciiBytes (escape byte) ++ rest) = byte :: decode rest := by
  have bound := byte.toNat_lt
  have high := digitValue?_upperDigit (by omega : byte.toNat / 16 < 16)
  have low := digitValue?_upperDigit (by omega : byte.toNat % 16 < 16)
  have whole : UInt8.ofNat (byte.toNat / 16) * 16 + UInt8.ofNat (byte.toNat % 16) = byte :=
    Utf8.of_byte (fun byte =>
      UInt8.ofNat (byte.toNat / 16) * 16 + UInt8.ofNat (byte.toNat % 16) = byte) byte (by decide +kernel)
  have bytes : asciiBytes (escape byte) ++ rest =
      0x25 :: UInt8.ofNat (upperDigit (byte.toNat / 16)).toNat ::
        UInt8.ofNat (upperDigit (byte.toNat % 16)).toNat :: rest := rfl
  rw [bytes, decode]
  simp only [high, low, whole]

theorem decode_encodeByte (byte : UInt8) (rest : Utf8.Bytes) :
    decode (asciiBytes (encodeByte byte) ++ rest) = byte :: decode rest := by
  unfold encodeByte
  split
  · rename_i free
    obtain ⟨same, plain⟩ := asciiBytes_of_unreserved free
    rw [same]
    exact decode_cons_of_ne plain rest
  · exact decode_escape byte rest

theorem decode_flatMap_encodeByte (bytes : Utf8.Bytes) :
    decode (asciiBytes (bytes.flatMap encodeByte)) = bytes := by
  induction bytes with
  | nil => rfl
  | cons byte bytes ih =>
      rw [List.flatMap_cons, asciiBytes, List.map_append, ← asciiBytes, ← asciiBytes,
        decode_encodeByte, ih]

def decodeText? (chars : List Char) : Option String :=
  Utf8.decode? (decode (Utf8.encode (String.ofList chars)))

theorem decodeText?_encode (text : String) : decodeText? (encode text).toList = some text := by
  have ascii (char : Char) (member : char ∈ encodeChars text) : char.toNat < 128 :=
    ascii_of_isEncoded (isEncoded_of_mem_encode (by rwa [encode, String.toList_ofList]))
  rw [decodeText?, encode, String.toList_ofList, Utf8.encode_ofList,
    Utf8.flatMap_encodeChar_of_ascii ascii, ← asciiBytes, encodeChars, decode_flatMap_encodeByte,
    Utf8.decode?_encode]

theorem encode_inj {first second : String} : encode first = encode second ↔ first = second := by
  refine ⟨fun same => ?_, congrArg encode⟩
  have read := congrArg (fun text : String => decodeText? text.toList) same
  simp only [decodeText?_encode] at read
  exact Option.some.inj read

end CrawlBoard.Percent
