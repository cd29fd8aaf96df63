import CrawlBoard.Proofs.Digits
import CrawlBoard.Proofs.Url.HostName

namespace CrawlBoard.Host

section Digits

variable {base : Nat} (large : 2 ≤ base) (small : base ≤ 16)

include large in
theorem mem_toDigits {number : Nat} {char : Char} (member : char ∈ Nat.toDigits base number) :
    ∃ digit < base, char = Nat.digitChar digit := by
  induction number using Nat.strongRecOn with
  | ind number ih =>
      rw [Nat.toDigits_eq_if large] at member
      split at member
      · rename_i single
        exact ⟨number, single, List.mem_singleton.mp member⟩
      · rename_i several
        rcases List.mem_append.mp member with front | last
        · exact ih (number / base) (Nat.div_lt_self (by omega) large) front
        · exact ⟨number % base, Nat.mod_lt _ (by omega), List.mem_singleton.mp last⟩

theorem valueIn_append (base : Nat) (digits : List Char) (last : Char) :
    valueIn base (digits ++ [last]) = valueIn base digits * base + digitValue last := by
  simp [valueIn]

include large small in
theorem valueIn_toDigits (number : Nat) : valueIn base (Nat.toDigits base number) = number := by
  have digit : ∀ digit < 16, digitValue (Nat.digitChar digit) = digit := by decide
  induction number using Nat.strongRecOn with
  | ind number ih =>
      rw [Nat.toDigits_eq_if large]
      split
      · rename_i single
        simpa [valueIn] using digit number (by omega)
      · have last := Nat.mod_lt number (by omega : base > 0)
        rw [valueIn_append, ih (number / base) (Nat.div_lt_self (by omega) large),
          digit _ (by omega), Nat.div_add_mod']

end Digits

theorem number?_toDigits (number : Nat) : number? (Nat.toDigits 10 number) = some number := by
  have value : valueIn 10 (Nat.toDigits 10 number) = number :=
    valueIn_toDigits (by decide) (by decide) number
  have decimal : (Nat.toDigits 10 number).all Char.isDigit = true :=
    List.all_eq_true.mpr fun _ => Nat.isDigit_of_mem_toDigits (by decide) (by decide)
  rcases Nat.eq_zero_or_pos number with rfl | positive
  · rfl
  · have noZero := CrawlBoard.Digits.head?_toDigits_ne positive
    cases shape : Nat.toDigits 10 number with
    | nil => exact absurd shape Nat.toDigits_ne_nil
    | cons first rest =>
        rw [shape] at value decimal noZero
        unfold number?
        split
        case h_1 same => cases same
        case h_2 same =>
          cases same
          exact absurd rfl noZero
        case h_3 same =>
          cases same
          exact absurd rfl noZero
        case h_4 same =>
          cases same
          exact absurd rfl noZero
        · rw [if_pos decimal, value]

def octets (address : UInt32) : List Nat :=
  [24, 16, 8, 0].map fun shift => address.toNat / Nat.pow 2 shift % 256

theorem toList_ipv4Text (address : UInt32) :
    (ipv4Text address).toList = ['.'].intercalate ((octets address).map (Nat.toDigits 10)) := by
  have digits (number : Nat) : (toString number).toList = Nat.toDigits 10 number := Nat.toList_repr
  rw [ipv4Text, String.toList_intercalate]
  simp only [octets, List.map_cons, List.map_nil, digits]
  rfl

theorem splitOn_ipv4Text (address : UInt32) :
    Search.splitOn '.' (ipv4Text address).toList = (octets address).map (Nat.toDigits 10) := by
  rw [toList_ipv4Text, Search.splitOn_intercalate]
  · intro digits present dot
    obtain ⟨number, -, rfl⟩ := List.mem_map.mp present
    exact absurd (Nat.isDigit_of_mem_toDigits (by decide) (by decide) dot) (by decide)
  · simp [octets]

theorem labels_ipv4Text (address : UInt32) :
    labels (ipv4Text address).toList = (octets address).map (Nat.toDigits 10) := by
  unfold labels
  rw [splitOn_ipv4Text]
  simp [octets]

theorem endsInNumber_ipv4Text (address : UInt32) :
    endsInNumber (ipv4Text address).toList = true := by
  simp [endsInNumber, labels_ipv4Text, octets, number?_toDigits]

theorem ipv4?_ipv4Text (address : UInt32) : ipv4? (ipv4Text address).toList = some address := by
  have numbers : ((octets address).map (Nat.toDigits 10)).mapM number? = some (octets address) := by
    simp [octets, number?_toDigits]
  have bound := address.toNat_lt
  unfold ipv4?
  rw [labels_ipv4Text, numbers]
  have sum : (address.toNat % 256 + address.toNat / 16777216 % 256 * 16777216
      + address.toNat / 65536 % 256 * 65536 + address.toNat / 256 % 256 * 256) % 4294967296 =
      address.toNat := by omega
  simp [octets, ← UInt32.toNat_inj, sum]
  omega

theorem isNameChar_of_mem_ipv4Text {address : UInt32} {char : Char}
    (member : char ∈ (ipv4Text address).toList) : isNameChar char = true := by
  rw [toList_ipv4Text] at member
  rcases Search.mem_intercalate member with dot | ⟨digits, present, inDigits⟩
  · obtain rfl := List.mem_singleton.mp dot
    decide
  · obtain ⟨number, -, rfl⟩ := List.mem_map.mp present
    obtain ⟨digit, small, rfl⟩ := mem_toDigits (by decide) inDigits
    have all : ∀ digit < 10, isNameChar (Nat.digitChar digit) = true := by decide
    exact all digit small

theorem isPlainName_ipv4Text (address : UInt32) : isPlainName (ipv4Text address).toList = true := by
  refine Bool.and_eq_true_iff.mpr ⟨List.all_eq_true.mpr fun char member => ?_, ?_⟩
  · exact decide_eq_true (isNameChar_iff.mp (isNameChar_of_mem_ipv4Text member)).1
  · rw [splitOn_ipv4Text]
    refine List.all_eq_true.mpr fun label present => ?_
    obtain ⟨number, -, rfl⟩ := List.mem_map.mp present
    cases shape : Nat.toDigits 10 number with
    | nil => rfl
    | cons first rest =>
        have digit := Nat.isDigit_of_mem_toDigits (by decide) (by decide)
          (shape ▸ List.mem_cons_self : first ∈ Nat.toDigits 10 number)
        have other : ('x' == first) = false := by
          refine beq_false_of_ne ?_
          rintro rfl
          cases digit
        simp [List.isPrefixOf, other]

def hex (piece : UInt16) : List Char := Nat.toDigits 16 piece.toNat

theorem mem_hex {piece : UInt16} {char : Char} (member : char ∈ hex piece) :
    isHexDigit char = true ∧ isNameChar char = true ∧ char ≠ '.' := by
  obtain ⟨digit, small, rfl⟩ := mem_toDigits (by decide) member
  have all : ∀ digit < 16, isHexDigit (Nat.digitChar digit) = true ∧
      isNameChar (Nat.digitChar digit) = true ∧ Nat.digitChar digit ≠ '.' := by decide
  exact all digit small

theorem not_mem_hex (piece : UInt16) : ':' ∉ hex piece ∧ '.' ∉ hex piece :=
  ⟨fun colon => absurd (mem_hex colon).1 (by decide), fun dot => (mem_hex dot).2.2 rfl⟩

theorem piece?_hex (piece : UInt16) : piece? (hex piece) = some piece := by
  have short : (hex piece).length ≤ 4 :=
    (Nat.length_toDigits_le_iff (by decide) (by decide)).mpr piece.toNat_lt
  have digits : (hex piece).all isHexDigit = true :=
    List.all_eq_true.mpr fun _ member => (mem_hex member).1
  have value : valueIn 16 (hex piece) = piece.toNat := valueIn_toDigits (by decide) (by decide) _
  rw [piece?, if_pos ⟨Nat.toDigits_ne_nil, short, digits⟩, value, UInt16.ofNat_toNat]

theorem tail?_hex (piece : UInt16) : tail? (hex piece) = some [piece] := by
  unfold tail?
  rw [Search.splitOn_eq, List.splitOn_eq_singleton (not_mem_hex piece).2]
  simp only [piece?_hex, Option.map_some]

def joined (pieces : List UInt16) : List Char := [':'].intercalate (pieces.map hex)

theorem toList_join (pieces : List UInt16) :
    (":".intercalate (pieces.map fun piece => hexText piece.toNat)).toList = joined pieces := by
  rw [String.toList_intercalate, List.map_map]
  simp only [joined, hexText, Function.comp_def, String.toList_ofList]
  rfl

theorem joined_cons_cons (first second : UInt16) (pieces : List UInt16) :
    joined (first :: second :: pieces) = hex first ++ ':' :: joined (second :: pieces) := by
  simp [joined, List.intercalate_cons_cons]

theorem joined_cons (first : UInt16) (pieces : List UInt16) :
    ∃ digit rest, joined (first :: pieces) = digit :: rest ∧ isHexDigit digit = true := by
  cases shape : hex first with
  | nil => exact absurd shape Nat.toDigits_ne_nil
  | cons digit digits =>
      have isHex : isHexDigit digit = true := (mem_hex (shape ▸ List.mem_cons_self)).1
      cases pieces with
      | nil => exact ⟨digit, digits, by simp [joined, shape], isHex⟩
      | cons second pieces =>
          exact ⟨digit, _, by rw [joined_cons_cons, shape, List.cons_append], isHex⟩

theorem pieces?_joined (final : Bool) (pieces : List UInt16) :
    pieces? final (joined pieces) = some pieces := by
  rcases List.eq_nil_or_concat pieces with rfl | ⟨front, last, rfl⟩
  · cases final <;> rfl
  · rw [List.concat_eq_append]
    have given : joined (front ++ [last]) ≠ [] := by
      cases front with
      | nil => 
          obtain ⟨_, _, shape, -⟩ := joined_cons last []
          exact shape ▸ List.cons_ne_nil _ _
      | cons first front =>
          obtain ⟨_, _, shape, -⟩ := joined_cons first (front ++ [last])
          exact shape ▸ List.cons_ne_nil _ _
    have parts : Search.splitOn ':' (joined (front ++ [last])) = (front ++ [last]).map hex := by
      refine Search.splitOn_intercalate (fun digits present => ?_) (by simp)
      obtain ⟨piece, -, rfl⟩ := List.mem_map.mp present
      exact (not_mem_hex piece).1
    have read : (front.map hex).mapM piece? = some front := by
      have each : (fun piece => piece? (hex piece)) = pure := funext piece?_hex
      rw [List.mapM_map]
      exact (congrArg (List.mapM · front) each).trans (List.mapM_pure.trans (by simp))
    unfold pieces?
    rw [if_neg given, parts]
    cases final <;> simp [read, piece?_hex, tail?_hex]

theorem cut?_joined (pieces : List UInt16) (rest : List Char) :
    Search.cut? [':', ':'] (joined pieces ++ rest) =
      (Search.cut? [':', ':'] rest).map fun (before, after) => (joined pieces ++ before, after) := by
  induction pieces with
  | nil => simp [joined]
  | cons first pieces ih =>
      cases pieces with
      | nil => 
          rw [joined, List.map_singleton, List.intercalate_singleton]
          exact Search.cut?_append (not_mem_hex first).1 rest
      | cons second pieces =>
          have single : ([':', ':'] : List Char).isPrefixOf
              (':' :: (joined (second :: pieces) ++ rest)) = false := by
            obtain ⟨digit, digits, shape, isHex⟩ := joined_cons second pieces
            have noColon : ':' ≠ digit := by
              rintro rfl
              cases isHex
            rw [shape]
            simp [List.isPrefixOf, noColon]
          rw [joined_cons_cons, List.append_assoc, Search.cut?_append (not_mem_hex first).1,
            List.cons_append, Search.cut?_of_other single, ih, Option.map_map, Option.map_map]
          simp [Function.comp_def]

theorem compressed_eq {zeros : Nat} (positive : 0 < zeros) {pieces : List UInt16}
    (longest : longestZeros pieces = zeros) :
    ∃ before after, pieces = before ++ (List.replicate zeros 0 ++ after) ∧
      compressed zeros pieces = (before.map fun piece => hexText piece.toNat, some after) := by
  induction pieces with
  | nil => exact absurd longest (Nat.ne_of_lt positive)
  | cons piece rest ih =>
      by_cases here : ((piece :: rest).takeWhile (· = 0)).length = zeros
      · refine ⟨[], (piece :: rest).drop zeros, ?_, by rw [compressed, if_pos here]; rfl⟩
        have run : (piece :: rest).takeWhile (· = 0) = List.replicate zeros 0 := by
          refine List.eq_replicate_iff.mpr ⟨here, fun other member => ?_⟩
          simpa using List.all_eq_true.mp List.all_takeWhile other member
        have parts : (piece :: rest).takeWhile (· = 0) ++ (piece :: rest).dropWhile (· = 0) =
            piece :: rest := List.takeWhile_append_dropWhile
        have left : (piece :: rest).drop zeros = (piece :: rest).dropWhile (· = 0) := by
          have dropped := congrArg (List.drop zeros) parts
          rw [List.drop_left' here] at dropped
          exact dropped.symm
        rw [List.nil_append, ← run, left, parts]
      · rw [longestZeros] at longest
        obtain ⟨before, after, shape, result⟩ := ih (by omega)
        refine ⟨piece :: before, after, by rw [shape, List.cons_append], ?_⟩
        rw [compressed, if_neg here, result]
        rfl

theorem toList_ipv6Text (pieces : List UInt16) :
    (ipv6Text pieces).toList = joined pieces ∨
      ∃ before zeros after, pieces = before ++ (List.replicate zeros 0 ++ after) ∧ 0 < zeros ∧
        (ipv6Text pieces).toList = joined before ++ ':' :: ':' :: joined after := by
  unfold ipv6Text
  dsimp only
  split
  · exact .inl (toList_join pieces)
  · rename_i long
    obtain ⟨before, after, shape, result⟩ :=
      compressed_eq (by omega) (rfl : longestZeros pieces = _)
    refine .inr ⟨before, _, after, shape, by omega, ?_⟩
    rw [result, String.toList_append, String.toList_append, toList_join, Option.getD_some,
      toList_join, List.append_assoc]
    rfl

theorem ipv6?_ipv6Text {pieces : List UInt16} (eight : pieces.length = 8) :
    ipv6? (ipv6Text pieces).toList = some pieces := by
  unfold ipv6?
  rcases toList_ipv6Text pieces with text | ⟨before, zeros, after, shape, positive, text⟩
  · have uncut := cut?_joined pieces []
    rw [List.append_nil] at uncut
    rw [text, uncut]
    change (pieces? true (joined pieces)).filter _ = _
    rw [pieces?_joined, Option.filter_some_pos (by simpa using eight)]
  · have cut := cut?_joined before (':' :: ':' :: joined after)
    rw [Search.cut?_of_begins rfl] at cut
    have missing : 8 - (before.length + after.length) = zeros := by
      have count := congrArg List.length shape
      simp only [List.length_append, List.length_replicate] at count
      omega
    rw [text, cut]
    simp only [Option.map_some, List.append_nil, List.length_cons, List.length_nil,
      List.drop_succ_cons, List.drop_zero, pieces?_joined, bind, Option.bind, missing]
    rw [if_neg (by omega), List.append_assoc, ← shape]

theorem mem_ipv6Text {pieces : List UInt16} {char : Char}
    (member : char ∈ (ipv6Text pieces).toList) : char = ':' ∨ isNameChar char = true := by
  have inJoined {pieces : List UInt16} (member : char ∈ joined pieces) :
      char = ':' ∨ isNameChar char = true := by
    rcases Search.mem_intercalate member with colon | ⟨digits, present, inDigits⟩
    · exact .inl (List.mem_singleton.mp colon)
    · obtain ⟨piece, -, rfl⟩ := List.mem_map.mp present
      exact .inr (mem_hex inDigits).2.1
  rcases toList_ipv6Text pieces with text | ⟨before, _, after, -, -, text⟩
  · exact inJoined (text ▸ member)
  · rw [text, List.mem_append, List.mem_cons, List.mem_cons] at member
    rcases member with front | rfl | rfl | back
    · exact inJoined front
    · exact .inl rfl
    · exact .inl rfl
    · exact inJoined back

theorem length_of_ipv6? {text : List Char} {pieces : List UInt16} (read : ipv6? text = some pieces) :
    pieces.length = 8 := by
  unfold ipv6? at read
  split at read
  · simpa using (Option.mem_filter_iff.mp read).2
  · simp only [bind, Option.bind_eq_some_iff] at read
    obtain ⟨before, -, after, -, read⟩ := read
    split at read
    · cases read
    · cases read
      simp only [List.length_append, List.length_replicate]
      omega

end CrawlBoard.Host
