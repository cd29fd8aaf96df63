import CrawlBoard.Proofs.Url.Address
import CrawlBoard.Url.Parser

namespace CrawlBoard.Host

theorem toList_text_ipv6 (pieces : List UInt16) :
    (ipv6 pieces).text.toList = '[' :: ((ipv6Text pieces).toList ++ [']']) := by
  rw [text, String.toList_append, String.toList_append, List.append_assoc]
  rfl

variable [DomainNames]

theorem special_of_isAscii {name : List Char} (ascii : IsAscii name) (given : name ≠ []) :
    special name = ofName (Utf8.encode (String.ofList name)) := by
  unfold special
  split
  · exact absurd rfl given
  · exact absurd (ascii.chars '[' List.mem_cons_self) (by decide)
  · rfl

theorem special_ipv6 {pieces : List UInt16} (eight : pieces.length = 8) :
    special (ipv6 pieces).text.toList = .ok (ipv6 pieces) := by
  rw [toList_text_ipv6, special, ofBrackets, if_pos List.getLast?_concat, List.dropLast_concat,
    ipv6?_ipv6Text eight]

/-- Hosts that a web address can have. -/
inductive OfWeb : Host → Prop
  | domain {name : String} (ascii : IsAscii name.toList) (given : name.toList ≠ [])
      (noNumber : endsInNumber name.toList = false) :
      OfWeb (.domain name)
  | ipv4 (address : UInt32) : OfWeb (.ipv4 address)
  | ipv6 {pieces : List UInt16} (eight : pieces.length = 8) : OfWeb (.ipv6 pieces)

theorem ofWeb_of_ofName [LawfulDomainNames] {bytes : Utf8.Bytes} {host : Host}
    (read : ofName bytes = .ok host) : OfWeb host := by
  cases host with
  | domain name =>
      obtain ⟨ascii, given, noNumber⟩ := isAscii_of_ofName read
      exact .domain ascii given noNumber
  | ipv4 address => exact .ipv4 address
  | ipv6 pieces =>
      unfold ofName at read
      split at read
      · cases read
      split at read
      · cases read
      split at read
      · split at read <;> cases read
      · cases read

theorem ofWeb_of_special [LawfulDomainNames] {chars : List Char} {host : Host}
    (read : special chars = .ok host) :
    OfWeb host := by
  unfold special at read
  split at read
  · cases read
  · unfold ofBrackets at read
    split at read
    · split at read
      · rename_i pieces found
        cases read
        exact .ipv6 (length_of_ipv6? found)
      · cases read
    · cases read
  · exact ofWeb_of_ofName read

namespace OfWeb

variable {host : Host} 

theorem special_text (ofWeb : OfWeb host) : special host.text.toList = .ok host := by
  cases ofWeb with
  | domain ascii given noNumber =>
      rw [text, special_of_isAscii ascii given, ofName_of_isAscii ascii, if_neg given, noNumber,
        String.ofList_toList]
      rfl
  | ipv4 address =>
      have ascii : IsAscii (ipv4Text address).toList :=
        isAscii_of_plain (fun _ => isNameChar_of_mem_ipv4Text) (isPlainName_ipv4Text address)
      have given : (ipv4Text address).toList ≠ [] := by
        intro none
        have last := endsInNumber_ipv4Text address
        rw [none] at last
        cases last
      rw [text, special_of_isAscii ascii given, ofName_of_isAscii ascii, if_neg given,
        endsInNumber_ipv4Text, ipv4?_ipv4Text]
      rfl
  | ipv6 eight => exact special_ipv6 eight

theorem mem_text (ofWeb : OfWeb host) {char : Char} (member : char ∈ host.text.toList) :
    isNameChar char = true ∨ char ∈ [':', '[', ']'] := by
  cases ofWeb with
  | domain ascii given noNumber => exact .inl (ascii.chars char member)
  | ipv4 address => exact .inl (isNameChar_of_mem_ipv4Text member)
  | ipv6 eight =>
      rw [text, String.toList_append, String.toList_append, List.mem_append, List.mem_append]
        at member
      rcases member with (opening | inside) | closing
      · exact .inr (List.mem_singleton.mp opening ▸ by decide)
      · rcases mem_ipv6Text inside with rfl | name
        · exact .inr (by decide)
        · exact .inl name
      · exact .inr (List.mem_singleton.mp closing ▸ by decide)

end OfWeb

omit [DomainNames] in
theorem hostEnd_append (inside : Bool) {front : List Char}
    (noBracket : '[' ∉ front ∧ ']' ∉ front) (noColon : inside = false → ':' ∉ front)
    (rest : List Char) :
    Url.hostEnd inside (front ++ rest) = front.length + Url.hostEnd inside rest := by
  induction front with
  | nil => simp
  | cons char front ih =>
      rw [List.mem_cons, List.mem_cons, not_or, not_or] at noBracket
      have colon : ¬ (char = ':' ∧ (!inside) = true) := by
        rintro ⟨rfl, outside⟩
        exact noColon (by simpa using outside) List.mem_cons_self
      have tail := ih ⟨noBracket.1.2, noBracket.2.2⟩
        fun outside member => noColon outside (List.mem_cons_of_mem _ member)
      rw [List.cons_append, Url.hostEnd, if_neg colon, if_neg (Ne.symm noBracket.1.1),
        if_neg (Ne.symm noBracket.2.1), tail, List.length_cons]
      omega

theorem OfWeb.hostEnd_text {host : Host} (ofWeb : OfWeb host) {rest : List Char}
    (ends : ∀ char ∈ rest.head?, char = ':') :
    Url.hostEnd false (host.text.toList ++ rest) = host.text.toList.length := by
  have stop : Url.hostEnd false rest = 0 := by
    cases rest with
    | nil => rfl
    | cons char rest => rw [Url.hostEnd, if_pos ⟨ends char rfl, rfl⟩]
  have ofName {name : List Char} (chars : ∀ char ∈ name, isNameChar char = true) :
      Url.hostEnd false (name ++ rest) = name.length := by
    have none {char : Char} (mark : isNameChar char = false) : char ∉ name :=
      fun member => by simp [chars char member] at mark
    rw [hostEnd_append false ⟨none (by decide), none (by decide)⟩ (fun _ => none (by decide)), stop]
    rfl
  cases ofWeb with
  | domain ascii given noNumber => exact ofName ascii.chars
  | ipv4 address => exact ofName fun _ => isNameChar_of_mem_ipv4Text
  | @ipv6 pieces eight =>
      have none {char : Char} (mark : isNameChar char = false) (noColon : char ≠ ':') :
          char ∉ (ipv6Text pieces).toList := fun member =>
        (mem_ipv6Text member).elim noColon fun name => by simp [name] at mark
      rw [toList_text_ipv6, List.cons_append, List.append_assoc, Url.hostEnd, if_neg (by decide),
        if_pos rfl, hostEnd_append true ⟨none (by decide) (by decide), none (by decide) (by decide)⟩
          fun outside => absurd outside (by decide)]
      simp [Url.hostEnd, stop]

end CrawlBoard.Host
