import Phrasebook.Json.Number
import Phrasebook.Json.Text

namespace Phrasebook.Json

def isSpace (c : Char) : Bool :=
  c = ' ' || c = '\n' || c = '\t' || c = '\r'

def skipSpace (text : List Char) : List Char :=
  text.dropWhile isSpace

/-- How many lists and objects may be open at once. -/
def nestingLimit : Nat := 127

/-- What a container's end is looked for with: the place reached, and what is wrong there. -/
abbrev Closing := List Char → List Char × Option Reason

def listEnd : Closing := fun text =>
  match skipSpace text with
  | [] => ([], some .unfinishedList)
  | ']' :: rest => (rest, none)
  | ',' :: rest =>
      match skipSpace rest with
      | ']' :: rest => (']' :: rest, some .trailingComma)
      | rest => (rest, some .trailingCharacters)
  | rest => (rest, some .trailingCharacters)

def objectEnd : Closing := fun text =>
  match skipSpace text with
  | [] => ([], some .unfinishedObject)
  | '}' :: rest => (rest, none)
  | ',' :: rest => (',' :: rest, some .trailingComma)
  | rest => (rest, some .trailingCharacters)

/-- Leaves a container. Its end is looked for even behind a failure; a pending failure takes the
place so reached. -/
def close (closing : Closing) : Outcome α → Outcome α
  | .ok (a, text) =>
      match closing text with
      | (rest, none) => .ok (a, rest)
      | (rest, some reason) => .error (.placed reason rest 1)
  | .error (.placed reason rest bytes) => .error (.placed reason rest bytes)
  | .error (.pending reason text) => .error (.placed reason (closing text).1 0)

def readWord : List Char → List Char → Except Failure (List Char)
  | [], text => .ok text
  | _ :: _, [] => .error (.placed .unfinishedValue [] 0)
  | expected :: word, c :: rest =>
      if c = expected then readWord word rest
      else .error (.placed .expectedWord (c :: rest) 1)

/-- A value that is no list or object, if the text starts like one. -/
def readScalar? : List Char → Option (Outcome Value)
  | 'n' :: rest => some ((readWord ['u', 'l', 'l'] rest).map (.null, ·))
  | 't' :: rest => some ((readWord ['r', 'u', 'e'] rest).map (.bool true, ·))
  | 'f' :: rest => some ((readWord ['a', 'l', 's', 'e'] rest).map (.bool false, ·))
  | '"' :: rest =>
      some ((readChars rest).map fun read => (.string (String.ofList read.1), read.2))
  | '-' :: rest => some ((readNumber true rest).map fun read => (.number read.1, read.2))
  | c :: rest =>
      if c.isDigit then
        some ((readNumber false (c :: rest)).map fun read => (.number read.1, read.2))
      else none
  | [] => none

def Value.found : Value → Found
  | .null => .null
  | .bool b => .bool b
  | .number (.natural n) => .natural n
  | .number (.negative n) => .negative n
  | .number (.float x) => .float x
  | .string s => .string s.toList
  | .array _ => .sequence
  | .object _ => .map

/-- The failure of a text, not starting with a space, that should have held another kind of value.
A scalar is read to be named, a list or object is not. -/
def mismatch (expected : String) (text : List Char) : Failure :=
  match readScalar? text with
  | some (.ok (value, rest)) => .placed (.wrongType value.found expected) rest 0
  | some (.error failure) => failure
  | none =>
      match text with
      | [] => .placed .unfinishedValue [] 0
      | '[' :: rest => .placed (.wrongType .sequence expected) ('[' :: rest) 0
      | '{' :: rest => .placed (.wrongType .map expected) ('{' :: rest) 0
      | rest => .placed .expectedValue rest 1

def readString (text : List Char) : Except Failure (String × List Char) :=
  match skipSpace text with
  | '"' :: rest => (readChars rest).map fun read => (String.ofList read.1, read.2)
  | rest => .error (mismatch "a string" rest)

/-- Stands at the next item of a list, or at the list's end, which it leaves unread. -/
def nextItem (first : Bool) (text : List Char) : Outcome Bool :=
  match skipSpace text with
  | [] => .error (.placed .unfinishedList [] 0)
  | ']' :: rest => .ok (false, ']' :: rest)
  | c :: rest =>
      if first then .ok (true, c :: rest)
      else if c = ',' then
        match skipSpace rest with
        | [] => .error (.placed .unfinishedValue [] 0)
        | ']' :: rest => .error (.placed .trailingComma (']' :: rest) 1)
        | rest => .ok (true, rest)
      else .error (.placed .expectedCommaOrBracket (c :: rest) 1)

/-- Reads the next member's name, or stands at the object's end, which it leaves unread. -/
def nextName (first : Bool) (text : List Char) : Outcome (Option String) :=
  match skipSpace text with
  | [] => .error (.placed .unfinishedObject [] 0)
  | '}' :: rest => .ok (none, '}' :: rest)
  | c :: rest =>
      if first then
        if c = '"' then
          (readChars rest).map fun read => (some (String.ofList read.1), read.2)
        else .error (.placed .nameNotString (c :: rest) 1)
      else if c = ',' then
        match skipSpace rest with
        | [] => .error (.placed .unfinishedValue [] 0)
        | '"' :: rest =>
            (readChars rest).map fun read => (some (String.ofList read.1), read.2)
        | '}' :: rest => .error (.placed .trailingComma ('}' :: rest) 1)
        | rest => .error (.placed .nameNotString rest 1)
      else .error (.placed .expectedCommaOrBrace (c :: rest) 1)

def readColon (text : List Char) : Except Failure (List Char) :=
  match skipSpace text with
  | [] => .error (.placed .unfinishedObject [] 0)
  | ':' :: rest => .ok rest
  | rest => .error (.placed .expectedColon rest 1)

/-- The items of a list up to its end; `steps` bounds their number. -/
def readItems (item : List Char → Outcome α) :
    (steps : Nat) → (first : Bool) → List Char → Except Failure (List α × List Char)
  | 0, _, text => .error (.placed .unfinishedList text 0)
  | steps + 1, first, text => do
      let (more, text) ← nextItem first text
      if more then
        let (a, text) ← item text
        let (items, text) ← readItems item steps false text
        .ok (a :: items, text)
      else
        .ok ([], text)

def readMembers (value : List Char → Outcome α) :
    (steps : Nat) → (first : Bool) → List Char → Except Failure (List (String × α) × List Char)
  | 0, _, text => .error (.placed .unfinishedObject text 0)
  | steps + 1, first, text => do
      match ← nextName first text with
      | (none, text) => .ok ([], text)
      | (some name, text) =>
          let (a, text) ← value (← readColon text)
          let (members, text) ← readMembers value steps false text
          .ok ((name, a) :: members, text)

/-- A list of anything, with `levels` left for what it holds and itself. -/
def readList (item : Nat → List Char → Outcome α) (levels : Nat) (text : List Char) :
    Except Failure (List α × List Char) :=
  match skipSpace text with
  | '[' :: rest =>
      match levels with
      | 0 => .error (.placed .tooDeep ('[' :: rest) 1)
      | levels + 1 => close listEnd (readItems (item levels) (rest.length + 1) true rest)
  | rest => .error (mismatch "a sequence" rest)

def readObject (value : Nat → List Char → Outcome α) (levels : Nat) (text : List Char) :
    Except Failure (List (String × α) × List Char) :=
  match skipSpace text with
  | '{' :: rest =>
      match levels with
      | 0 => .error (.placed .tooDeep ('{' :: rest) 1)
      | levels + 1 => close objectEnd (readMembers (value levels) (rest.length + 1) true rest)
  | rest => .error (mismatch "a map" rest)

def readValue : (levels : Nat) → List Char → Outcome Value
  | levels, text =>
      match skipSpace text with
      | '[' :: rest =>
          match levels with
          | 0 => .error (.placed .tooDeep ('[' :: rest) 1)
          | levels + 1 =>
              (close listEnd (readItems (readValue levels) (rest.length + 1) true rest)).map
                fun read => (.array read.1, read.2)
      | '{' :: rest =>
          match levels with
          | 0 => .error (.placed .tooDeep ('{' :: rest) 1)
          | levels + 1 =>
              (close objectEnd (readMembers (readValue levels) (rest.length + 1) true rest)).map
                fun read => (.object read.1, read.2)
      | [] => .error (.placed .unfinishedValue [] 0)
      | rest =>
          match readScalar? rest with
          | some outcome => outcome
          | none => .error (.placed .expectedValue rest 1)

def readEnd (text : List Char) : Except Failure Unit :=
  match skipSpace text with
  | [] => .ok ()
  | rest => .error (.placed .trailingCharacters rest 1)

def readWhole (reader : List Char → Outcome α) (text : List Char) : Except Failure α := do
  let (a, rest) ← reader text
  readEnd rest
  return a

def Value.read (text : List Char) : Except Failure Value :=
  readWhole (readValue nestingLimit) text

end Phrasebook.Json
