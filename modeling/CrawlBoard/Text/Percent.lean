import CrawlBoard.Text.Utf8
import CrawlBoard.Text.Search

namespace CrawlBoard.Percent

open Utf8 (Bytes)

def unreserved (byte : UInt8) : Bool :=
  (0x41 ≤ byte && byte ≤ 0x5A) || (0x61 ≤ byte && byte ≤ 0x7A) || (0x30 ≤ byte && byte ≤ 0x39)
    || byte == 0x2D || byte == 0x5F || byte == 0x2E || byte == 0x7E

def upperDigit (value : Nat) : Char :=
  if value < 10 then Char.ofNat (48 + value) else Char.ofNat (55 + value)

def escape (byte : UInt8) : List Char :=
  ['%', upperDigit (byte.toNat / 16), upperDigit (byte.toNat % 16)]

def encodeByte (byte : UInt8) : List Char :=
  if unreserved byte then [Char.ofNat byte.toNat] else escape byte

def encodeChars (text : String) : List Char := (Utf8.encode text).flatMap encodeByte

def encode (text : String) : String := String.ofList (encodeChars text)

/-- Each segment is encoded, the slashes between them are kept. -/
def encodePath (path : String) : String :=
  "/".intercalate ((Search.splitOn '/' path.toList).map fun segment => encode (String.ofList segment))

def digitValue? (byte : UInt8) : Option UInt8 :=
  if 0x30 ≤ byte ∧ byte ≤ 0x39 then some (byte - 0x30)
  else if 0x41 ≤ byte ∧ byte ≤ 0x46 then some (byte - 0x37)
  else if 0x61 ≤ byte ∧ byte ≤ 0x66 then some (byte - 0x57)
  else none

/-- Well-formed escapes are read; a `%` that opens none stands for itself. -/
def decode : Bytes → Bytes
  | [] => []
  | 0x25 :: high :: low :: rest =>
      match digitValue? high, digitValue? low with
      | some h, some l => (h * 16 + l) :: decode rest
      | _, _ => 0x25 :: decode (high :: low :: rest)
  | byte :: rest => byte :: decode rest

end CrawlBoard.Percent
