import Phrasebook.Json.Reader

/-! Passing over values that nobody will see. -/

namespace Phrasebook.Json

def skipScalar? : List Char → Option (Except Failure (List Char))
  | 'n' :: rest => some (readWord ['u', 'l', 'l'] rest)
  | 't' :: rest => some (readWord ['r', 'u', 'e'] rest)
  | 'f' :: rest => some (readWord ['a', 'l', 's', 'e'] rest)
  | '"' :: rest => some (skipChars rest)
  | '-' :: rest => some (skipNumber rest)
  | c :: rest => if c.isDigit then some (skipNumber (c :: rest)) else none
  | [] => none

/-- What follows an item: a comma and another one, or the end of the list. -/
def skipItems (item : List Char → Except Failure (List Char)) :
    Nat → List Char → Except Failure (List Char)
  | 0, text => .error (.placed .unfinishedList text 0)
  | steps + 1, text => do
      match skipSpace (← item text) with
      | [] => .error (.placed .unfinishedList [] 0)
      | ']' :: rest => .ok rest
      | ',' :: rest => skipItems item steps rest
      | rest => .error (.placed .expectedCommaOrBracket rest 1)

def skipName (text : List Char) : Except Failure (List Char) :=
  match skipSpace text with
  | [] => .error (.placed .unfinishedObject [] 0)
  | '"' :: rest => skipChars rest
  | rest => .error (.placed .nameNotString rest 1)

def skipMembers (value : List Char → Except Failure (List Char)) :
    Nat → List Char → Except Failure (List Char)
  | 0, text => .error (.placed .unfinishedObject text 0)
  | steps + 1, text => do
      match skipSpace (← value (← readColon (← skipName text))) with
      | [] => .error (.placed .unfinishedObject [] 0)
      | '}' :: rest => .ok rest
      | ',' :: rest => skipMembers value steps rest
      | rest => .error (.placed .expectedCommaOrBrace rest 1)

def skipValueWithin : Nat → List Char → Except Failure (List Char)
  | 0, text => .error (.placed .unfinishedValue text 0)
  | steps + 1, text =>
      match skipSpace text with
      | [] => .error (.placed .unfinishedValue [] 0)
      | '[' :: rest =>
          match skipSpace rest with
          | [] => .error (.placed .unfinishedList [] 0)
          | ']' :: rest => .ok rest
          | rest => skipItems (skipValueWithin steps) (rest.length + 1) rest
      | '{' :: rest =>
          match skipSpace rest with
          | [] => .error (.placed .unfinishedObject [] 0)
          | '}' :: rest => .ok rest
          | rest => skipMembers (skipValueWithin steps) (rest.length + 1) rest
      | rest =>
          match skipScalar? rest with
          | some outcome => outcome
          | none => .error (.placed .expectedValue rest 1)

def skipValue (text : List Char) : Except Failure (List Char) :=
  skipValueWithin (text.length + 1) text

end Phrasebook.Json
