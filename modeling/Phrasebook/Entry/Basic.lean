import Phrasebook.Table

namespace Phrasebook

/-- A reference names a function, an argument or an entry. A pattern joins its parts, where literals
stand for themselves and all else is a placeable. A selection has branches by key. -/
inductive Expression where
  | literal (text : String)
  | reference (name : String)
  | pattern (parts : List Expression)
  | selection (branches : List (String × Expression)) (default? : Option String)
  | call (callee : Expression) (arguments : List Expression)

/-- The key of the branch taken when no other is. -/
def defaultKey (default? : Option String) : String :=
  default?.getD "other"

namespace Expression

def literal? : Expression → Option String
  | .literal text => some text
  | _ => none

def placeableCount (parts : List Expression) : Nat :=
  parts.countP fun part => part.literal?.isNone

mutual

/-- The expression in the form it would be written in. -/
def source : Expression → String
  | .literal text => "\"" ++ text ++ "\""
  | .reference name => name
  | .pattern parts => sourceOfParts parts
  | .selection branches _ =>
      "\x7b " ++ String.intercalate ", " (branches.map Prod.fst) ++ " \x7d"
  | .call callee arguments =>
      callee.source ++ "(" ++ String.intercalate ", " (sources arguments) ++ ")"

def sourceOfParts : List Expression → String
  | [] => ""
  | .literal text :: parts => text ++ sourceOfParts parts
  | part :: parts => "\x7b\x7b " ++ part.source ++ " \x7d\x7d" ++ sourceOfParts parts

def sources : List Expression → List String
  | [] => []
  | expression :: rest => expression.source :: sources rest

end

/-- How a part of a pattern is written when it is not evaluated. -/
def placeableSource (part : Expression) : String :=
  "\x7b\x7b " ++ part.source ++ " \x7d\x7d"

mutual

def mapLiterals (change : String → String) : Expression → Expression
  | .literal text => .literal (change text)
  | .reference name => .reference name
  | .pattern parts => .pattern (mapParts change parts)
  | .selection branches default? => .selection (mapBranches change branches) default?
  | .call callee arguments => .call callee arguments

def mapParts (change : String → String) : List Expression → List Expression
  | [] => []
  | part :: parts => part.mapLiterals change :: mapParts change parts

def mapBranches (change : String → String) :
    List (String × Expression) → List (String × Expression)
  | [] => []
  | (key, branch) :: branches =>
      (key, branch.mapLiterals change) :: mapBranches change branches

end

end Expression

/-- What is evaluated: the value of an entry or of an attribute, with one selector for every level
of selections. An entry that only carries attributes has no value. -/
inductive Phrase where
  | bare (text : String)
  | complex (value? : Option Expression) (index : List Expression)

namespace Phrase

def hasValue : Phrase → Bool
  | .bare _ => true
  | .complex value? _ => value?.isSome

def mapLiterals (change : String → String) : Phrase → Phrase
  | .bare text => .bare (change text)
  | .complex value? index => .complex (value?.map (·.mapLiterals change)) index

end Phrase

structure Entry where
  phrase : Phrase
  attributes : Table Phrase := []

def Entry.mapLiterals (change : String → String) (entry : Entry) : Entry where
  phrase := entry.phrase.mapLiterals change
  attributes := entry.attributes.mapValues (·.mapLiterals change)

abbrev Entries := Table Entry

def Entries.mapLiterals (change : String → String) (entries : Entries) : Entries :=
  Table.mapValues (·.mapLiterals change) entries

end Phrasebook
