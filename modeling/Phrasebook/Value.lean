import Phrasebook.Decimal.Layout
import Phrasebook.Decimal.Reader
import Phrasebook.Table
import Phrasebook.Text.Trim

namespace Phrasebook

open Phrasebook.Decimal
open Phrasebook.Text

inductive Value where
  | number (n : Int64)
  | float (x : Float)
  | text (s : String)

namespace Value

/-- A count too large for a signed word is kept as a float. -/
def ofCount (n : UInt64) : Value :=
  if n ≤ Int64.maxValue.toUInt64 then .number n.toInt64 else .float n.toFloat

def integerText (n : Int) : List Char :=
  if n < 0 then '-' :: digitText n.natAbs else digitText n.natAbs

def display : Value → String
  | .number n => String.ofList (integerText n.toInt)
  | .float x => Layout.plain.float x
  | .text s => s

def asNumber? : Value → Option Float
  | .number n => some (.ofModel (.ofInt64 n))
  | .float x => some x
  | .text _ => none

def asText? : Value → Option String
  | .text s => some s
  | _ => none

def isText : Value → Bool
  | .text _ => true
  | _ => false

/-- The number that a call takes this value for: text is read as a number, and only a finite number
will do. -/
def toNumber? (value : Value) : Option Float :=
  let number? :=
    match value with
    | .text s => readFloat? (trim s.toList)
    | other => other.asNumber?
  number?.filter Float.isFinite

/-- Arguments are texts and finite numbers. -/
def isArgument : Value → Bool
  | .float x => x.isFinite
  | _ => true

end Value

abbrev Arguments := Table Value

end Phrasebook
