import CrawlBoard.CommandLine.BindAddress
import CrawlBoard.Proofs.Digits
import CrawlBoard.Proofs.Search
/-!
Addresses to listen at are told apart by what stands behind their last colon. A host without a
colon is read as it is meant; an IPv6 address is so only if its last group is not a decimal number.
-/

namespace CrawlBoard

namespace Host

section Groups

variable {digits : List Char} {char : Char}

theorem isDigit_of_octet? {value : Nat} (read : octet? digits = some value)
    (member : char ∈ digits) : char.isDigit = true := by
  unfold octet? at read
  split at read
  · rename_i decimal
    exact List.all_eq_true.mp decimal.2.1 char member
  · cases read

theorem isDigit_of_octets (read : ∀ part ∈ Search.splitOn '.' digits, ∃ value, octet? part = some value)
    (member : char ∈ digits) : char = '.' ∨ char.isDigit = true := by
  rw [← Search.intercalate_splitOn '.' digits] at member
  rcases Search.mem_intercalate member with dot | ⟨part, present, inside⟩
  · exact .inl (List.mem_singleton.mp dot)
  · obtain ⟨value, octet⟩ := read part present
    exact .inr (isDigit_of_octet? octet inside)

theorem group_cases {words : List UInt16} (read : tail? digits = some words) :
    (digits.length ≤ 4 ∧ digits ≠ [] ∧ ∀ char ∈ digits, isHexDigit char = true) ∨
      ('.' ∈ digits ∧ ∀ char ∈ digits, char = '.' ∨ char.isDigit = true) := by
  unfold tail? at read
  split at read
  · rename_i single whole
    have same : digits = single := by
      rw [← Search.intercalate_splitOn '.' digits, whole, List.intercalate_singleton]
    obtain ⟨word, found, -⟩ := Option.map_eq_some_iff.mp read
    unfold piece? at found
    split at found
    · rename_i piece
      rw [same]
      exact .inl ⟨piece.2.1, piece.1, List.all_eq_true.mp piece.2.2⟩
    · cases found
  · rename_i a b c d whole
    have parts := Search.length_splitOn '.' digits
    rw [whole] at parts
    have dots : 0 < digits.count '.' := by
      simp only [List.length_cons, List.length_nil] at parts
      omega
    refine .inr ⟨List.count_pos_iff.mp dots, fun char => isDigit_of_octets fun part present => ?_⟩
    simp only [bind, Option.bind_eq_some_iff] at read
    obtain ⟨_, first, _, second, _, third, _, fourth, -⟩ := read
    rw [whole] at present
    simp only [List.mem_cons, List.not_mem_nil, or_false] at present
    rcases present with rfl | rfl | rfl | rfl
    · exact ⟨_, first⟩
    · exact ⟨_, second⟩
    · exact ⟨_, third⟩
    · exact ⟨_, fourth⟩
  · cases read

theorem length_of_tail? {words : List UInt16} (read : tail? digits = some words) :
    words.length ≤ 2 := by
  unfold tail? at read
  split at read
  · obtain ⟨word, -, rfl⟩ := Option.map_eq_some_iff.mp read
    exact Nat.le_succ 1
  · simp only [bind, Option.bind_eq_some_iff] at read
    obtain ⟨_, -, _, -, _, -, _, -, same⟩ := read
    cases same
    exact Nat.le_refl 2
  · cases read

theorem last_of_pieces? {text : List Char} {words : List UInt16}
    (read : pieces? true text = some words) :
    text = [] ∨ (':' ∉ text ∧ tail? text = some words) ∨
      ∃ front last ending, text = front ++ ':' :: last ∧ ':' ∉ last ∧ tail? last = some ending := by
  unfold pieces? at read
  split at read
  · rename_i none
    exact .inl none
  · simp only [bind, Option.bind_eq_some_iff, if_true] at read
    obtain ⟨last, isLast, front, fronts, ending, group, same⟩ := read
    refine .inr ?_
    by_cases member : ':' ∈ text
    · obtain ⟨before, after, rfl, missing⟩ := Search.exists_last member
      rw [Search.splitOn_append, Search.splitOn_of_not_mem missing, List.getLast?_concat] at isLast
      cases isLast
      exact .inr ⟨before, last, ending, rfl, missing, group⟩
    · rw [Search.splitOn_of_not_mem member] at isLast fronts
      cases isLast
      cases fronts
      cases same
      exact .inl ⟨member, group⟩

/-- Behind the last colon of an IPv6 address stands its last group, if one is written there. -/
theorem last_of_ipv6? {text : List Char} {pieces : List UInt16} (read : ipv6? text = some pieces) :
    ∃ front last, text = front ++ ':' :: last ∧ ':' ∉ last ∧
      (last = [] ∨ ∃ ending, tail? last = some ending) := by
  unfold ipv6? at read
  split at read
  · obtain ⟨whole, eight⟩ := Option.filter_eq_some_iff.mp read
    rcases last_of_pieces? whole with rfl | ⟨-, group⟩ |
      ⟨front, last, ending, shape, missing, group⟩
    · cases whole
      cases eight
    · have short := length_of_tail? group
      have eight : pieces.length = 8 := by simpa using eight
      omega
    · exact ⟨front, last, shape, missing, .inr ⟨ending, group⟩⟩
  · rename_i before after cut
    simp only [bind, Option.bind_eq_some_iff] at read
    obtain ⟨_, -, words, ending, -⟩ := read
    have shape := Search.eq_append_of_cut? cut
    rcases last_of_pieces? ending with rfl | ⟨missing, group⟩ |
      ⟨front, last, words, rfl, missing, group⟩
    · exact ⟨before ++ [':'], [], by simpa using shape, List.not_mem_nil, .inl rfl⟩
    · exact ⟨before ++ [':'], after, by simpa using shape, missing, .inr ⟨_, group⟩⟩
    · exact ⟨before ++ (':' :: ':' :: front), last, by simpa using shape, missing, .inr ⟨_, group⟩⟩

end Groups

end Host

namespace BindAddress

theorem port?_eq_some_iff {text : String} {port : UInt16} :
    port? text = some port ↔ Digits.Written port.toNat text := by
  have small : port.toNat ≤ 65535 := Nat.le_of_lt_succ port.toNat_lt
  unfold port?
  constructor
  · intro read
    cases parsed : Digits.parse 65535 text with
    | error error => rw [parsed] at read; cases read
    | ok number =>
        rw [parsed] at read
        cases read
        obtain ⟨written, fits⟩ := Digits.parse_eq_ok_iff.mp parsed
        rwa [UInt16.toNat_ofNat_of_lt' (Nat.lt_succ_of_le fits)]
  · intro written
    rw [Digits.parse_eq_ok_iff.mpr ⟨written, small⟩]
    exact congrArg some UInt16.ofNat_toNat

theorem not_mem_of_written {number : Nat} {text : String} (written : Digits.Written number text) :
    ':' ∉ text.toList := fun member => by
  rcases Digits.mem_of_written written member with plus | digit
  · cases plus
  · cases digit

theorem written_ne_empty {number : Nat} {text : String} (written : Digits.Written number text) :
    text ≠ "" := by
  rintro rfl
  obtain ⟨digits, shape | shape, given, -⟩ := written
  · exact given shape.symm
  · cases shape

theorem parse_of_written {port : UInt16} {text : String}
    (written : Digits.Written port.toNat text) : parse text = .ok ⟨defaultHost, port⟩ := by
  rw [parse, if_neg (by simpa using written_ne_empty written), port?_eq_some_iff.mpr written]

theorem parse_of_single {text : String} (given : text ≠ "")
    (noPort : ∀ port : UInt16, ¬ Digits.Written port.toNat text) (single : ':' ∉ text.toList) :
    parse text = .ok ⟨text, defaultPort⟩ := by
  have none : port? text = none :=
    Option.eq_none_iff_forall_ne_some.mpr fun port found => noPort port (port?_eq_some_iff.mp found)
  rw [parse, if_neg (by simpa using given), none, Search.splitOn_of_not_mem single]
  simp [none]

theorem parse_of_last {front last : String} (missing : ':' ∉ last.toList) :
    parse (front ++ ":" ++ last) = .ok
      (match port? last with
      | some port => ⟨front, port⟩
      | none => ⟨front ++ ":" ++ last, defaultPort⟩) := by
  have chars : (front ++ ":" ++ last).toList = front.toList ++ ':' :: last.toList := by simp
  have noPort : port? (front ++ ":" ++ last) = none :=
    Option.eq_none_iff_forall_ne_some.mpr fun port found =>
      not_mem_of_written (port?_eq_some_iff.mp found) (by rw [chars]; simp)
  have joined : [':'].intercalate (Search.splitOn ':' front.toList) = front.toList :=
    Search.intercalate_splitOn ':' front.toList
  have several : (Search.splitOn ':' front.toList ++ [last.toList]).length ≠ 1 := by
    simp [Search.splitOn_ne_nil]
  rw [parse, if_neg (by simp), noPort, chars, Search.splitOn_append,
    Search.splitOn_of_not_mem missing]
  simp only [List.getLast?_concat, Option.bind_some, String.ofList_toList]
  cases port? last with
  | none => rfl
  | some port => simp only [if_neg several, List.dropLast_concat, joined, String.ofList_toList]

def isNameChar (char : Char) : Bool :=
  char.isAlphanum || char == '-' || char == '_' || char == '.' || 128 ≤ char.toNat

/-- Texts that name a host. More texts than the domain names have such characters. -/
inductive IsHost (text : String) : Prop
  | name (given : text ≠ "") (chars : ∀ char ∈ text.toList, isNameChar char = true)
  | ipv4 (address : Host) (read : ipv4? text.toList = some address)
  | ipv6 (pieces : List UInt16) (read : Host.ipv6? text.toList = some pieces)

/-- Behind the last colon of the text stand decimal digits and nothing else. -/
structure EndsInNumber (text front last : String) : Prop where
  shape : text = front ++ ":" ++ last
  given : last ≠ ""
  decimal : ∀ digit ∈ last.toList, Digits.isDigit digit = true

theorem EndsInNumber.not_mem {text front last : String} (ends : EndsInNumber text front last) :
    ':' ∉ last.toList := fun member => absurd (ends.decimal ':' member) (by decide)

theorem chars_of_ipv4? {text : List Char} {address : Host} (read : ipv4? text = some address)
    {char : Char} (member : char ∈ text) : char = '.' ∨ char.isDigit = true := by
  refine Host.isDigit_of_octets (fun part present => ?_) member
  have octet : Host.octet? part ∈ (Search.splitOn '.' text).map Host.octet? :=
    List.mem_map_of_mem present
  unfold ipv4? at read
  split at read
  · rename_i whole
    rw [whole] at octet
    simp only [List.mem_cons, List.not_mem_nil, or_false] at octet
    rcases octet with found | found | found | found <;> exact ⟨_, found⟩
  · cases read

theorem IsHost.cases {host : String} (isHost : IsHost host) :
    (host ≠ "" ∧ ':' ∉ host.toList) ∨
      ∃ front last, host = front ++ ":" ++ last ∧ ':' ∉ last.toList ∧
        (last.toList = [] ∨ ∃ ending, Host.tail? last.toList = some ending) := by
  cases isHost with
  | name given chars => exact .inl ⟨given, fun member => absurd (chars ':' member) (by decide)⟩
  | ipv4 address read =>
      refine .inl ⟨?_, fun member => ?_⟩
      · rintro rfl
        cases read
      · rcases chars_of_ipv4? read member with dot | digit
        · cases dot
        · cases digit
  | ipv6 pieces read =>
      obtain ⟨front, last, shape, missing, group⟩ := Host.last_of_ipv6? read
      refine .inr ⟨String.ofList front, String.ofList last, ?_, by simpa, by simpa⟩
      rw [← String.toList_inj, shape]
      simp

theorem port?_of_group {last : String} {ending : List UInt16}
    (group : Host.tail? last.toList = some ending) :
    port? last = if ∀ digit ∈ last.toList, Digits.isDigit digit = true
      then some (UInt16.ofNat (Digits.value last.toList)) else none := by
  split
  · rename_i decimal
    rcases Host.group_cases group with ⟨short, given, -⟩ | ⟨dot, -⟩
    · have bound : Digits.value last.toList < 10 ^ 4 :=
        Nat.lt_of_lt_of_le (Digits.value_lt decimal) (Nat.pow_le_pow_right (by decide) short)
      refine port?_eq_some_iff.mpr ⟨last.toList, .inl rfl, given, decimal, ?_⟩
      exact (UInt16.toNat_ofNat_of_lt' (Nat.lt_trans bound (by decide))).symm
    · exact absurd (decimal '.' dot) (by decide)
  · rename_i other
    refine Option.eq_none_iff_forall_ne_some.mpr fun port found => other ?_
    obtain ⟨digits, shape | shape, -, decimal, -⟩ := port?_eq_some_iff.mp found
    · rwa [shape]
    · -- A port may have a sign, which no group has.
      have plus : '+' ∈ last.toList := shape ▸ List.mem_cons_self
      rcases Host.group_cases group with ⟨-, -, hex⟩ | ⟨-, chars⟩
      · exact absurd (hex '+' plus) (by decide)
      · rcases chars '+' plus with dot | digit
        · cases dot
        · cases digit

theorem last_unique {front last front' last' : String}
    (same : front ++ ":" ++ last = front' ++ ":" ++ last') (missing : ':' ∉ last.toList)
    (missing' : ':' ∉ last'.toList) : front = front' ∧ last = last' := by
  have chars : front.toList ++ ':' :: last.toList = front'.toList ++ ':' :: last'.toList := by
    simpa using congrArg String.toList same
  have parts := congrArg (Search.splitOn ':') chars
  rw [Search.splitOn_append, Search.splitOn_append, Search.splitOn_of_not_mem missing,
    Search.splitOn_of_not_mem missing'] at parts
  have lasts : last = last' := by
    simpa [String.toList_inj] using (List.append_inj' parts rfl).2
  subst lasts
  exact ⟨String.toList_inj.mp (List.append_cancel_right chars), rfl⟩

/-- A host is read as it is meant, with the usual port, unless decimal digits stand behind its last
colon: they are taken for a port, also if they are the last group of an IPv6 address. A host without
a colon may have any port behind it, and a port alone is one of the machine itself. -/
theorem hosts_and_ports_told_apart {host : String} (isHost : IsHost host)
    (noPort : ∀ port : UInt16, ¬ Digits.Written port.toNat host) :
    (parse host = .ok ⟨host, 3030⟩ ↔ ¬ ∃ front last, EndsInNumber host front last) ∧
    (∀ front last, EndsInNumber host front last →
      parse host = .ok ⟨front, UInt16.ofNat (Digits.value last.toList)⟩) ∧
    (':' ∉ host.toList → parse host = .ok ⟨host, 3030⟩) ∧
    ∀ port : UInt16, Digits.Written port.toNat (toString port.toNat) ∧
      ∀ text, Digits.Written port.toNat text →
        parse text = .ok ⟨"127.0.0.1", port⟩ ∧
        (':' ∉ host.toList → parse (host ++ ":" ++ text) = .ok ⟨host, port⟩) := by
  have single (free : ':' ∉ host.toList) : parse host = .ok ⟨host, 3030⟩ := by
    rcases isHost.cases with ⟨given, -⟩ | ⟨front, last, rfl, -⟩
    · exact parse_of_single given noPort free
    · exact absurd (by simp) free
  have numbered {front last : String} (ends : EndsInNumber host front last) :
      parse host = .ok ⟨front, UInt16.ofNat (Digits.value last.toList)⟩ := by
    have missing := ends.not_mem
    obtain ⟨shape, given, decimal⟩ := ends
    rcases isHost.cases with ⟨-, free⟩ | ⟨front', last', shape', missing', group⟩
    · exact absurd (by rw [shape]; simp) free
    · obtain ⟨rfl, rfl⟩ := last_unique (shape.symm.trans shape') missing missing'
      rcases group with none | ⟨ending, group⟩
      · exact absurd (String.toList_eq_nil_iff.mp none) given
      · rw [shape, parse_of_last missing, port?_of_group group, if_pos decimal]
  refine ⟨⟨?_, ?_⟩, fun front last => numbered, single, fun port => ⟨?_, fun text written => ⟨?_, ?_⟩⟩⟩
  · -- What is left of the address before the number is shorter than the address.
    rintro whole ⟨front, last, ends⟩
    have same := (numbered ends).symm.trans whole
    have shorter := congrArg String.length ends.shape
    simp only [Except.ok.injEq, BindAddress.mk.injEq] at same
    rw [same.1, String.length_append, String.length_append] at shorter
    have colon : ":".length = 1 := rfl
    omega
  · intro noEnd
    rcases isHost.cases with ⟨-, free⟩ | ⟨front, last, shape, missing, group⟩
    · exact single free
    · have noNumber : port? last = none := by
        by_cases empty : last = ""
        · rw [empty]
          rfl
        · rcases group with nothing | ⟨ending, group⟩
          · exact absurd (String.toList_eq_nil_iff.mp nothing) empty
          · rw [port?_of_group group,
              if_neg fun decimal => noEnd ⟨front, last, shape, empty, decimal⟩]
      rw [shape, parse_of_last missing, noNumber]
      rfl
  · exact Digits.written_toString _
  · exact parse_of_written written
  · intro _
    rw [parse_of_last (not_mem_of_written written), port?_eq_some_iff.mpr written]

/-- A group with a letter is no port, so all of the address is the host; and a port may be written
with a plus sign and zeros. -/
theorem lettered_group_and_signed_port_are_read :
    let address := "fe80::2:1f"
    (IsHost address ∧ (∀ port : UInt16, ¬ Digits.Written port.toNat address) ∧
      parse address = .ok ⟨"fe80::2:1f", 3030⟩) ∧
    IsHost "localhost" ∧ (∀ port : UInt16, ¬ Digits.Written port.toNat "localhost") ∧
      Digits.Written 81 "+081" ∧ parse "localhost:+081" = .ok ⟨"localhost", 81⟩ := by
  intro address
  have addressIsHost : IsHost address :=
    .ipv6 [0xfe80, 0, 0, 0, 0, 0, 2, 0x1f] (by decide +kernel)
  have addressIsNoPort (port : UInt16) : ¬ Digits.Written port.toNat address :=
    fun written => not_mem_of_written written (by decide)
  have nameIsHost : IsHost "localhost" := .name (by decide) (by decide)
  have nameIsNoPort (port : UInt16) : ¬ Digits.Written port.toNat "localhost" := fun written =>
    absurd (Digits.mem_of_written written (by decide : 'l' ∈ "localhost".toList)) (by decide)
  have signed : Digits.Written 81 "+081" := ⟨"081".toList, .inr rfl, by decide, by decide, rfl⟩
  refine ⟨⟨addressIsHost, addressIsNoPort, ?_⟩, nameIsHost, nameIsNoPort, signed, ?_⟩
  · refine (hosts_and_ports_told_apart addressIsHost addressIsNoPort).1.mpr ?_
    rintro ⟨front, last, ends⟩
    have whole : address = "fe80::2" ++ ":" ++ "1f" := by decide
    obtain ⟨-, rfl⟩ := last_unique (ends.shape.symm.trans whole) ends.not_mem (by decide)
    exact absurd (ends.decimal 'f' (by decide)) (by decide)
  · exact (((hosts_and_ports_told_apart nameIsHost nameIsNoPort).2.2.2 81).2 _ signed).2 (by decide)

/-- The last group of this address is a decimal number, so the address is cut in two. -/
theorem address_alone_loses_its_last_group :
    let address := "2001:db8::1:1"
    IsHost address ∧ (∀ port : UInt16, ¬ Digits.Written port.toNat address) ∧
      parse address = .ok ⟨"2001:db8::1", 1⟩ ∧ parse address ≠ .ok ⟨address, 3030⟩ := by
  intro address
  have cut : parse address = .ok ⟨"2001:db8::1", 1⟩ := by
    have whole : address = "2001:db8::1" ++ ":" ++ "1" := by decide
    have port : port? "1" = some 1 := by decide +kernel
    rw [whole, parse_of_last (by decide), port]
  refine ⟨.ipv6 [0x2001, 0xdb8, 0, 0, 0, 0, 1, 1] (by decide +kernel),
    fun port written => not_mem_of_written written (by decide), cut, ?_⟩
  rw [cut]
  simp

end BindAddress

end CrawlBoard
