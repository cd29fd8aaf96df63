import CrawlBoard.Proofs.Percent
import CrawlBoard.Url.Host

namespace CrawlBoard

open Utf8 (Bytes)

namespace Host

def isNameChar (char : Char) : Bool :=
  char.toNat < 128 && !forbidden char && char.toLower == char

theorem isNameChar_iff {char : Char} : isNameChar char = true ↔
    char.toNat < 128 ∧ forbidden char = false ∧ char.toLower = char := by
  simp [isNameChar, and_assoc]

theorem toLower_toLower (char : Char) : char.toLower.toLower = char.toLower := by
  by_cases upper : char.val ≥ 'A'.val ∧ char.val ≤ 'Z'.val
  · have small : char.toNat < 128 := Nat.lt_of_le_of_lt (UInt32.le_iff_toNat_le.mp upper.2) (by decide)
    exact Utf8.of_ascii (fun char => char.toLower.toLower = char.toLower) small (by decide)
  · have same : char.toLower = char := dif_neg upper
    rw [same, same]

theorem isNameChar_of_isPlainName {name : List Char}
    (plain : isPlainName (name.map Char.toLower) = true)
    (free : (name.map Char.toLower).any forbidden = false) :
    ∀ char ∈ name.map Char.toLower, isNameChar char = true := by
  intro char member
  have ascii := List.all_eq_true.mp (Bool.and_eq_true_iff.mp plain).1 char member
  have allowed : forbidden char = false := by simpa using List.any_eq_false.mp free char member
  obtain ⟨source, -, rfl⟩ := List.mem_map.mp member
  exact isNameChar_iff.mpr ⟨of_decide_eq_true ascii, allowed, toLower_toLower source⟩

end Host

/-- What is relied on in the tables of UTS 46: the names that they give are in lower case, without
forbidden characters, and stay as they are. -/
class LawfulDomainNames [DomainNames] : Prop where
  isNameChar {name ascii : String} (given : DomainNames.ascii? name = some ascii) {char : Char}
    (member : char ∈ ascii.toList) : Host.isNameChar char = true
  idempotent {name ascii : String} (given : DomainNames.ascii? name = some ascii) :
    DomainNames.ascii? ascii = some ascii

theorem DomainNames.lawful_plain : @LawfulDomainNames .plain :=
  @LawfulDomainNames.mk .plain (fun given => nomatch given) fun given => nomatch given

namespace Host

variable [DomainNames] {name : List Char}

/-- A name that is its own ASCII form. -/
structure IsAscii (name : List Char) : Prop where
  chars : ∀ char ∈ name, isNameChar char = true
  settled : asciiName? (String.ofList name) = some name

theorem isAscii_of_plain (chars : ∀ char ∈ name, isNameChar char = true)
    (plain : isPlainName name = true) : IsAscii name where
  chars
  settled := by
    have lower : name.map Char.toLower = name :=
      (List.map_congr_left fun char member => (isNameChar_iff.mp (chars char member)).2.2).trans
        (List.map_id' name)
    have free : name.any forbidden = false := List.any_eq_false.mpr fun char member => by
      simp [(isNameChar_iff.mp (chars char member)).2.1]
    simp [asciiName?, lower, plain, free]

theorem isAscii_of_asciiName? [LawfulDomainNames] {text : String}
    (given : asciiName? text = some name) : IsAscii name := by
  unfold asciiName? at given
  dsimp only at given
  split at given
  · rename_i plain
    split at given
    · cases given
    · rename_i free
      cases given
      exact isAscii_of_plain (isNameChar_of_isPlainName plain (by simpa using free)) plain
  · obtain ⟨ascii, found, rfl⟩ := Option.map_eq_some_iff.mp given
    have chars (char : Char) (member : char ∈ ascii.toList) : isNameChar char = true :=
      LawfulDomainNames.isNameChar found member
    by_cases plain : isPlainName ascii.toList = true
    · exact isAscii_of_plain chars plain
    · have lower : ascii.toList.map Char.toLower = ascii.toList :=
        (List.map_congr_left fun char member => (isNameChar_iff.mp (chars char member)).2.2).trans
          (List.map_id' _)
      refine ⟨chars, ?_⟩
      simp [asciiName?, lower, plain, LawfulDomainNames.idempotent found]

theorem ofName_of_isAscii (ascii : IsAscii name) :
    ofName (Utf8.encode (String.ofList name)) =
      if name = [] then .error .emptyHost
      else if endsInNumber name then
        match ipv4? name with
        | some address => .ok (ipv4 address)
        | none => .error .invalidIpv4
      else .ok (domain (String.ofList name)) := by
  have bytes : Percent.decode (Utf8.encode (String.ofList name)) =
      Utf8.encode (String.ofList name) := by
    refine Percent.decode_of_plain fun escape => ?_
    rw [Utf8.encode_ofList, Utf8.flatMap_encodeChar_of_ascii fun char member =>
      (isNameChar_iff.mp (ascii.chars char member)).1] at escape
    obtain ⟨char, member, same⟩ := List.mem_map.mp escape
    obtain ⟨small, free, -⟩ := isNameChar_iff.mp (ascii.chars char member)
    exact Utf8.of_ascii (fun char => forbidden char = false → UInt8.ofNat char.toNat ≠ 0x25) small
      (by decide) free same
  have settled : (Utf8.decode? (Percent.decode (Utf8.encode (String.ofList name)))).bind
      asciiName? = some name := by
    rw [bytes, Utf8.decode?_encode, Option.bind_some, ascii.settled]
  unfold ofName
  generalize (Utf8.decode? _).bind asciiName? = found at settled ⊢
  subst settled
  rfl

theorem isAscii_of_ofName [LawfulDomainNames] {bytes : Bytes} {name : String}
    (read : ofName bytes = .ok (domain name)) :
    IsAscii name.toList ∧ name.toList ≠ [] ∧ endsInNumber name.toList = false := by
  unfold ofName at read
  split at read
  · cases read
  · rename_i ascii found
    obtain ⟨text, -, given⟩ := Option.bind_eq_some_iff.mp found
    split at read
    · cases read
    rename_i notEmpty
    split at read
    · split at read <;> cases read
    rename_i noNumber
    cases read
    rw [String.toList_ofList]
    exact ⟨isAscii_of_asciiName? given, notEmpty, by simpa using noNumber⟩

end Host

end CrawlBoard
