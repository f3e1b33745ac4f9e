import Phrasebook.Entry.Pseudo
import Phrasebook.Json.Value

namespace Phrasebook

inductive Direction where
  | leftToRight
  | rightToLeft
deriving DecidableEq

def Direction.name : Direction → String
  | .leftToRight => "ltr"
  | .rightToLeft => "rtl"

def Pseudo.direction : Pseudo → Direction
  | .accented => .leftToRight
  | .flipped => .rightToLeft

structure Language where
  code : String
  direction : Direction
deriving DecidableEq

namespace Language

def rightToLeftCodes : List String :=
  ["ar", "he", "fa", "ps", "ur"]

def isSeparator (c : Char) : Bool :=
  c = '-' || c = '_'

/-- The part of a code that tells the script's direction. -/
def primary (code : String) : String :=
  String.ofList (code.toList.takeWhile (!isSeparator ·))

def directionOf (code : String) : Direction :=
  match Pseudo.ofCode? code with
  | some pseudo => pseudo.direction
  | none =>
      if rightToLeftCodes.contains (primary code) then .rightToLeft else .leftToRight

def ofCode (code : String) : Language where
  code := code
  direction := directionOf code

def toJson (language : Language) : Json.Value :=
  .object [("code", .string language.code), ("direction", .string language.direction.name)]

end Language

end Phrasebook
