import Phrasebook.Json.Skip
import Phrasebook.Language.Basic

namespace Phrasebook.Language

open Phrasebook.Json

def directionChoice : String := "`ltr` or `rtl`"

def directionNamed? (name : List Char) : Option Direction :=
  [Direction.leftToRight, .rightToLeft].find? fun direction => direction.name.toList = name

def readDirectionName (text : List Char) : Except Failure (Direction × List Char) := do
  let (name, rest) ← readChars text
  match directionNamed? name with
  | some direction => .ok (direction, rest)
  | none => .error (.placed (.unknownVariant name directionChoice) rest 0)

def readDirectionKey (text : List Char) : Except Failure (Direction × List Char) :=
  match skipSpace text with
  | [] => .error (.placed .unfinishedObject [] 0)
  | '"' :: rest => readDirectionName rest
  | rest => .error (.placed .nameNotString rest 1)

/-- A direction is named by a string, or by the only member of an object, whose value is `null`. -/
def readDirection (levels : Nat) (text : List Char) : Except Failure (Direction × List Char) :=
  match skipSpace text with
  | [] => .error (.placed .unfinishedValue [] 0)
  | '"' :: rest => readDirectionName rest
  | '{' :: rest =>
      if levels = 0 then .error (.placed .tooDeep ('{' :: rest) 1)
      else do
        let (direction, rest) ← readDirectionKey rest
        let rest ← readColon rest
        match skipSpace rest with
        | 'n' :: rest =>
            match skipSpace (← readWord ['u', 'l', 'l'] rest) with
            | '}' :: rest => .ok (direction, rest)
            | [] => .error (.placed .unfinishedObject [] 0)
            | rest => .error (.placed .expectedValue rest 0)
        | rest => .error (mismatch "unit" rest)
  | rest => .error (.placed .expectedValue rest 1)

structure Fields where
  code? : Option String := none
  direction? : Option Direction := none

def Fields.finish (fields : Fields) (rest : List Char) : Outcome Language :=
  match fields.code?, fields.direction? with
  | none, _ => .error (.pending (.missingField "code") rest)
  | some _, none => .error (.pending (.missingField "direction") rest)
  | some code, some direction => .ok (⟨code, direction⟩, rest)

def Fields.read (levels : Nat) (name : String) (fields : Fields) (text : List Char) :
    Except Failure (Fields × List Char) :=
  if name = "code" then
    if fields.code?.isSome then .error (.pending (.duplicateField name) text)
    else do
      let (code, rest) ← readString (← readColon text)
      .ok ({ fields with code? := some code }, rest)
  else if name = "direction" then
    if fields.direction?.isSome then .error (.pending (.duplicateField name) text)
    else do
      let (direction, rest) ← readDirection levels (← readColon text)
      .ok ({ fields with direction? := some direction }, rest)
  else do
    .ok (fields, ← skipValue (← readColon text))

def readLanguageMembers (levels : Nat) :
    (steps : Nat) → (first : Bool) → Fields → List Char → Except Failure (Language × List Char)
  | 0, _, _, text => .error (.placed .unfinishedObject text 0)
  | steps + 1, first, fields, text => do
      match ← nextName first text with
      | (none, text) => fields.finish text
      | (some name, text) =>
          let (fields, text) ← fields.read levels name text
          readLanguageMembers levels steps false fields text

def expectedFields : String := "struct Language with 2 elements"

def readLanguageItems (levels : Nat) (text : List Char) :
    Except Failure (Language × List Char) := do
  let (more, text) ← nextItem true text
  if !more then
    .error (.pending (.tooFewFields 0 expectedFields) text)
  else
    let (code, text) ← readString text
    let (more, text) ← nextItem false text
    if !more then
      .error (.pending (.tooFewFields 1 expectedFields) text)
    else
      let (direction, text) ← readDirection levels text
      .ok (⟨code, direction⟩, text)

def readLanguage (levels : Nat) (text : List Char) : Outcome Language :=
  match skipSpace text with
  | [] => .error (.placed .unfinishedValue [] 0)
  | '[' :: rest => close listEnd (readLanguageItems (levels - 1) rest)
  | '{' :: rest =>
      close objectEnd (readLanguageMembers (levels - 1) (rest.length + 1) true {} rest)
  | rest => .error (mismatch "struct Language" rest)

def ofJson (text : String) : Except Failure Language :=
  readWhole (readLanguage nestingLimit) text.toList

end Phrasebook.Language
