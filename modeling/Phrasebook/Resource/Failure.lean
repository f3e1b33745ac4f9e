import Phrasebook.Decimal.Layout

namespace Phrasebook

open Phrasebook.Decimal

inductive ParseFailure where
  | malformed (line column : Nat) (message : String)
  | nestedAttribute (line : Nat) (name : String)
  | malformedIndex (line : Nat) (text : String)
deriving DecidableEq

namespace ParseFailure

def line : ParseFailure → Nat
  | .malformed line _ _ => line
  | .nestedAttribute line _ => line
  | .malformedIndex line _ => line

/-- Zero where the failure concerns a whole line. -/
def column : ParseFailure → Nat
  | .malformed _ column _ => column
  | .nestedAttribute _ _ => 0
  | .malformedIndex _ _ => 0

def message : ParseFailure → String
  | .malformed line column message =>
      "syntax error at " ++ numeral line ++ ":" ++ numeral column ++ ": " ++ message
  | .nestedAttribute line name =>
      "line " ++ numeral line ++ ": nested attributes are not supported in '" ++ name ++ "'"
  | .malformedIndex line text =>
      "line " ++ numeral line ++ ": malformed index '" ++ text ++ "'"

end ParseFailure

end Phrasebook
