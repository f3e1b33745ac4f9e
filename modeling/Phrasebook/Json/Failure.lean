import Phrasebook.Decimal.Layout
import Phrasebook.Text.Bytes
import Phrasebook.Text.Quoted

namespace Phrasebook.Json

open Phrasebook.Decimal
open Phrasebook.Text

inductive Found where
  | null
  | bool (b : Bool)
  | natural (n : Nat)
  | negative (n : Nat)
  | float (x : Float)
  | string (text : List Char)
  | sequence
  | map

inductive Reason where
  | unfinishedList
  | unfinishedObject
  | unfinishedString
  | unfinishedValue
  | expectedColon
  | expectedCommaOrBracket
  | expectedCommaOrBrace
  | expectedWord
  | expectedValue
  | invalidEscape
  | invalidNumber
  | numberOutOfRange
  | controlCharacter
  | nameNotString
  | loneSurrogate
  | unpairedSurrogate
  | trailingComma
  | trailingCharacters
  | tooDeep
  | wrongType (found : Found) (expected : String)
  | missingField (name : String)
  | duplicateField (name : String)
  | tooFewFields (count : Nat) (expected : String)
  | unknownVariant (name : List Char) (expected : String)
  | noVariant (type : String)

def Found.name : Found → String
  | .null => "null"
  | .bool true => "boolean `true`"
  | .bool false => "boolean `false`"
  | .natural n => "integer `" ++ numeral n ++ "`"
  | .negative n => "integer `-" ++ numeral n ++ "`"
  | .float x => "floating point `" ++ Layout.compact.float x ++ "`"
  | .string text => "string " ++ String.ofList (quoted text)
  | .sequence => "sequence"
  | .map => "map"

def Reason.message : Reason → String
  | .unfinishedList => "EOF while parsing a list"
  | .unfinishedObject => "EOF while parsing an object"
  | .unfinishedString => "EOF while parsing a string"
  | .unfinishedValue => "EOF while parsing a value"
  | .expectedColon => "expected `:`"
  | .expectedCommaOrBracket => "expected `,` or `]`"
  | .expectedCommaOrBrace => "expected `,` or `\x7d`"
  | .expectedWord => "expected ident"
  | .expectedValue => "expected value"
  | .invalidEscape => "invalid escape"
  | .invalidNumber => "invalid number"
  | .numberOutOfRange => "number out of range"
  | .controlCharacter =>
      "control character (\\u0000-\\u001F) found while parsing a string"
  | .nameNotString => "key must be a string"
  | .loneSurrogate => "lone leading surrogate in hex escape"
  | .unpairedSurrogate => "unexpected end of hex escape"
  | .trailingComma => "trailing comma"
  | .trailingCharacters => "trailing characters"
  | .tooDeep => "recursion limit exceeded"
  | .wrongType found expected => "invalid type: " ++ found.name ++ ", expected " ++ expected
  | .missingField name => "missing field `" ++ name ++ "`"
  | .duplicateField name => "duplicate field `" ++ name ++ "`"
  | .tooFewFields count expected =>
      "invalid length " ++ numeral count ++ ", expected " ++ expected
  | .unknownVariant name expected =>
      "unknown variant `" ++ String.ofList name ++ "`, expected " ++ expected
  | .noVariant type => "data did not match any variant of untagged enum " ++ type

/-- A reader fails at a place: a number of bytes into the rest of the text. A failure of meaning,
found only once a whole value was read, is pending until the value's container has been left. -/
inductive Failure where
  | placed (reason : Reason) (rest : List Char) (bytes : Nat)
  | pending (reason : Reason) (rest : List Char)

abbrev Outcome (α : Type) := Except Failure (α × List Char)

def Failure.reason : Failure → Reason
  | .placed reason _ _ => reason
  | .pending reason _ => reason

/-- Lines count from one; the column is the number of bytes read of the line. -/
structure Position where
  line : Nat
  column : Nat
deriving DecidableEq

/-- The position after some bytes of a text, which need not end with a character. -/
def Position.advance : Position → Nat → List Char → Position
  | p, _, [] => p
  | p, bytes, c :: rest =>
      if bytes = 0 then p
      else if c = '\n' then Position.advance ⟨p.line + 1, 0⟩ (bytes - 1) rest
      else if c.utf8Size ≤ bytes then
        Position.advance ⟨p.line, p.column + c.utf8Size⟩ (bytes - c.utf8Size) rest
      else ⟨p.line, p.column + bytes⟩

def Failure.position (source : List Char) (failure : Failure) : Position :=
  let (rest, bytes) :=
    match failure with
    | .placed _ rest bytes => (rest, bytes)
    | .pending _ rest => (rest, 0)
  Position.advance ⟨1, 0⟩ (byteCount source - byteCount rest + bytes) source

def Failure.message (source : List Char) (failure : Failure) : String :=
  let p := failure.position source
  failure.reason.message ++ " at line " ++ numeral p.line ++ " column " ++
    numeral p.column

end Phrasebook.Json
