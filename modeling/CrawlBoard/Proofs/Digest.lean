import CrawlBoard.Digest.Sha256
import CrawlBoard.Proofs.Search

namespace CrawlBoard.Sha256

open Utf8 (Bytes)

theorem length_bytes (chain : Chain) : chain.bytes.length = 32 := by
  simp [Chain.bytes, bigEndian]

theorem length_digest (message : Bytes) : (digest message).length = 32 := length_bytes _

theorem length_keyed (key message : Bytes) : (keyed key message).length = 32 := length_digest _

theorem toList_hex (bytes : Bytes) : (hex bytes).toList =
    bytes.flatMap fun byte => [hexDigit (byte.toNat / 16), hexDigit (byte.toNat % 16)] :=
  String.toList_ofList

theorem length_hex (bytes : Bytes) : (hex bytes).toList.length = bytes.length * 2 := by
  rw [toList_hex]
  induction bytes with
  | nil => rfl
  | cons byte bytes ih =>
      simp only [List.flatMap_cons, List.length_append, ih, List.length_cons, List.length_nil]
      omega

theorem hexDigit_inj : ∀ first < 16, ∀ second < 16, hexDigit first = hexDigit second →
    first = second := by
  decide

theorem hex_injective : Function.Injective hex := by
  intro first second same
  rw [← String.toList_inj, toList_hex, toList_hex] at same
  induction first generalizing second with
  | nil =>
      cases second with
      | nil => rfl
      | cons byte bytes => cases same
  | cons byte bytes ih =>
      cases second with
      | nil => cases same
      | cons other others =>
          simp only [List.flatMap_cons, List.cons_append, List.nil_append, List.cons.injEq] at same
          obtain ⟨high, low, rest⟩ := same
          have bound := byte.toNat_lt
          have boundOther := other.toNat_lt
          have sameHigh := hexDigit_inj _ (by omega) _ (by omega) high
          have sameLow := hexDigit_inj _ (by omega) _ (by omega) low
          have sameByte : byte = other := UInt8.toNat_inj.mp (by omega)
          rw [sameByte, ih rest]

theorem not_mem_hex {char : Char} (other : ∀ value < 16, hexDigit value ≠ char) (bytes : Bytes) :
    char ∉ (hex bytes).toList := by
  rw [toList_hex]
  intro member
  obtain ⟨byte, _, digit⟩ := List.mem_flatMap.mp member
  have bound := byte.toNat_lt
  simp only [List.mem_cons, List.not_mem_nil, or_false] at digit
  rcases digit with high | low
  · exact other _ (by omega) high.symm
  · exact other _ (by omega) low.symm

end CrawlBoard.Sha256
