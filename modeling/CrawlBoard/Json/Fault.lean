import CrawlBoard.Text.Quoted
import CrawlBoard.Text.Real
import CrawlBoard.Text.Utf8
/-!
Why a JSON document is refused, and where: a failure counts the bytes that were left unread.
-/

namespace CrawlBoard.Json

open Utf8 (Bytes)

inductive Number where
  | unsigned (value : Nat)
  | negative (magnitude : Nat)
  | real (value : Float)
  deriving DecidableEq, Repr

inductive Found where
  | null
  | bool (value : Bool)
  | number (value : Number)
  | text (value : String)
  | list
  | object
  deriving DecidableEq, Repr

inductive Fault where
  | endOfList
  | endOfObject
  | endOfString
  | endOfValue
  | expectedColon
  | expectedListCommaOrEnd
  | expectedObjectCommaOrEnd
  | expectedWord
  | expectedValue
  | invalidEscape
  | invalidNumber
  | numberOutOfRange
  | invalidCodePoint
  | controlCharacter
  | keyNotText
  | loneSurrogate
  | trailingComma
  | trailingCharacters
  | cutSurrogate
  | wrongType (found : Found) (expected : String)
  | wrongValue (found : Found) (expected : String)
  | wrongLength (length : Nat) (expected : String)
  | unknownVariant (name : String) (variants : List String)
  | missingField (name : String)
  | duplicateField (name : String)
  deriving DecidableEq, Repr

def Number.text : Number → String
  | .unsigned value => "integer `" ++ toString value ++ "`"
  | .negative magnitude => "integer `-" ++ toString magnitude ++ "`"
  | .real value => "floating point `" ++ Real.shortestText value ++ "`"

def Found.message : Found → String
  | .null => "null"
  | .bool true => "boolean `true`"
  | .bool false => "boolean `false`"
  | .number value => value.text
  | .text value => "string " ++ Quoted.render value
  | .list => "sequence"
  | .object => "map"

def Fault.message : Fault → String
  | .endOfList => "EOF while parsing a list"
  | .endOfObject => "EOF while parsing an object"
  | .endOfString => "EOF while parsing a string"
  | .endOfValue => "EOF while parsing a value"
  | .expectedColon => "expected `:`"
  | .expectedListCommaOrEnd => "expected `,` or `]`"
  | .expectedObjectCommaOrEnd => "expected `,` or `\x7d`"
  | .expectedWord => "expected ident"
  | .expectedValue => "expected value"
  | .invalidEscape => "invalid escape"
  | .invalidNumber => "invalid number"
  | .numberOutOfRange => "number out of range"
  | .invalidCodePoint => "invalid unicode code point"
  | .controlCharacter => "control character (\\u0000-\\u001F) found while parsing a string"
  | .keyNotText => "key must be a string"
  | .loneSurrogate => "lone leading surrogate in hex escape"
  | .trailingComma => "trailing comma"
  | .trailingCharacters => "trailing characters"
  | .cutSurrogate => "unexpected end of hex escape"
  | .wrongType found expected => "invalid type: " ++ found.message ++ ", expected " ++ expected
  | .wrongValue found expected => "invalid value: " ++ found.message ++ ", expected " ++ expected
  | .wrongLength length expected => "invalid length " ++ toString length ++ ", expected " ++ expected
  | .unknownVariant name variants =>
      "unknown variant `" ++ name ++ "`, expected one of "
        ++ ", ".intercalate (variants.map fun variant => "`" ++ variant ++ "`")
  | .missingField name => "missing field `" ++ name ++ "`"
  | .duplicateField name => "duplicate field `" ++ name ++ "`"

structure Failure where
  fault : Fault
  left : Nat
  deriving DecidableEq, Repr

def fail {α : Type} (fault : Fault) (rest : Bytes) : Except Failure α := .error ⟨fault, rest.length⟩

def failAt {α : Type} (fault : Fault) (rest : Bytes) : Except Failure α :=
  .error ⟨fault, rest.length - 1⟩

structure Position where
  line : Nat
  column : Nat
  deriving DecidableEq, Repr

/-- Lines count from 1; the column is the number of bytes read of the line. -/
def Position.after (read : Bytes) : Position :=
  ⟨1 + read.count 0x0A, (read.reverse.takeWhile (· != 0x0A)).length⟩

def Failure.position (document : Bytes) (failure : Failure) : Position :=
  Position.after (document.take (document.length - failure.left))

def Failure.message (document : Bytes) (failure : Failure) : String :=
  let position := failure.position document
  failure.fault.message ++ " at line " ++ toString position.line
    ++ " column " ++ toString position.column

end CrawlBoard.Json
