import Phrasebook.Decimal.Layout
import Phrasebook.Evaluation.Suggestion

namespace Phrasebook

open Phrasebook.Decimal

def maxPlaceables : Nat := 100

/-- Text of this many characters no longer fits into a placeable. -/
def maxPlaceableLength : Nat := 2500

/-- A value fault keeps the text that could be made and the first failure in it; an index fault
keeps what was wrong with a selector. -/
inductive Fault where
  | unknownReference (name : String)
  | invalidArgument (name : String)
  | notAFunction (name : String)
  | wrongArity (name : String) (expected got : Nat)
  | notANumber (name value : String)
  | missingValue (id : String)
  | cyclic (chain : List String)
  | tooDeep
  | placeableTooLong (length : Nat)
  | tooManyPlaceables (count : Nat)
  | missingVariant (key : String) (available suggestions : List String)
  | value (salvage : String) (source : Fault)
  | index (source : Fault)
deriving DecidableEq

namespace Fault

inductive Kind where
  | runtime
  | value
  | index
deriving DecidableEq

def Kind.name : Kind → String
  | .runtime => "Runtime"
  | .value => "Value"
  | .index => "Index"

def kind : Fault → Kind
  | .value _ _ => .value
  | .index _ => .index
  | _ => .runtime

def salvage? : Fault → Option String
  | .value salvage _ => some salvage
  | _ => none

def asIndex : Fault → Fault
  | .index source => .index source
  | fault => .index fault

/-- Cycles and limits end a whole pattern, other faults only their placeable. -/
def endsPattern : Fault → Bool
  | .cyclic _ => true
  | .tooDeep => true
  | .placeableTooLong _ => true
  | .tooManyPlaceables _ => true
  | _ => false

def commaSeparated (names : List String) : String :=
  String.intercalate ", " names

def suggestionText (suggestions : List String) : String :=
  if suggestions.isEmpty then ""
  else "; did you mean: " ++ commaSeparated suggestions ++ "?"

def message : Fault → String
  | .unknownReference name => "unknown reference: '" ++ name ++ "'"
  | .invalidArgument name => "argument '" ++ name ++ "' must be a string or a finite number"
  | .notAFunction name => "'" ++ name ++ "' is not a macro"
  | .wrongArity name expected got =>
      "macro '" ++ name ++ "' expects " ++ numeral expected ++ " argument(s), got " ++ numeral got
  | .notANumber name text => "macro '" ++ name ++ "' expects a number, got '" ++ text ++ "'"
  | .missingValue id => "entry '" ++ id ++ "' has no value"
  | .cyclic chain => "cyclic reference detected: " ++ String.intercalate " -> " chain
  | .tooDeep => "maximum recursion depth exceeded"
  | .placeableTooLong length =>
      "too many characters in placeable (" ++ numeral length ++ ", max allowed is " ++
        numeral maxPlaceableLength ++ ")"
  | .tooManyPlaceables count =>
      "too many placeables (" ++ numeral count ++ ", max allowed is " ++ numeral maxPlaceables ++
        ")"
  | .missingVariant key available suggestions =>
      "missing variant '" ++ key ++ "', available: " ++ commaSeparated available ++
        suggestionText suggestions
  | .value _ source => "value error: " ++ source.message
  | .index source => "index error: " ++ source.message

end Fault

end Phrasebook
