import Phrasebook.Json.Skip
import Phrasebook.Node.Interchange
import Phrasebook.Resource.Failure

namespace Phrasebook.Resource

open Phrasebook.Json

/-- What `null` leaves out, or a value of the given kind. -/
def readOptional (reader : List Char → Outcome α) (text : List Char) : Outcome (Option α) :=
  match skipSpace text with
  | 'n' :: rest => (readWord ['u', 'l', 'l'] rest).map (none, ·)
  | rest => (reader rest).map fun read => (some read.1, read.2)

/-- A whole value is read before it is asked what it stands for. -/
def readAs (type : String) (interpret? : Json.Value → Option α) (levels : Nat) (text : List Char) :
    Except Failure (α × List Char) := do
  let (value, rest) ← readValue levels text
  match interpret? value with
  | some a => .ok (a, rest)
  | none => .error (.pending (.noVariant type) rest)

def readNode : Nat → List Char → Outcome Node :=
  readAs "Node" Node.ofJson?

def readAttribute : Nat → List Char → Outcome AttributeNode :=
  readAs "AttributeNode" AttributeNode.ofJson?

def readAttributes (levels : Nat) (text : List Char) : Outcome (Table AttributeNode) :=
  (readObject readAttribute levels text).map fun read => (Table.ofList read.1, read.2)

structure EntryFields where
  id? : Option String := none
  value? : Option (Option Node) := none
  index? : Option (Option (List Node)) := none
  attributes? : Option (Table AttributeNode) := none

def EntryFields.finish (fields : EntryFields) (rest : List Char) : Outcome EntryNode :=
  match fields.id? with
  | none => .error (.pending (.missingField "id") rest)
  | some id =>
      .ok ({ id := id, value? := fields.value?.join, index? := fields.index?.join,
             attributes := fields.attributes?.getD [] }, rest)

def readField (field : String) (given : Option α) (reader : List Char → Outcome α)
    (text : List Char) : Except Failure (α × List Char) :=
  match given with
  | some _ => .error (.pending (.duplicateField field) text)
  | none => do reader (← readColon text)

def EntryFields.read (levels : Nat) (name : String) (fields : EntryFields) (text : List Char) :
    Outcome EntryFields :=
  if name = "id" then
    (readField name fields.id? readString text).map fun read =>
      ({ fields with id? := some read.1 }, read.2)
  else if name = "value" then
    (readField name fields.value? (readOptional (readNode levels)) text).map fun read =>
      ({ fields with value? := some read.1 }, read.2)
  else if name = "index" then
    (readField name fields.index? (readOptional (readList readNode levels)) text).map
      fun read => ({ fields with index? := some read.1 }, read.2)
  else if name = "attrs" then
    (readField name fields.attributes? (readAttributes levels) text).map fun read =>
      ({ fields with attributes? := some read.1 }, read.2)
  else
    (readColon text >>= skipValue).map (fields, ·)

def readEntryMembers (levels : Nat) :
    (steps : Nat) → (first : Bool) → EntryFields → List Char →
      Except Failure (EntryNode × List Char)
  | 0, _, _, text => .error (.placed .unfinishedObject text 0)
  | steps + 1, first, fields, text => do
      match ← nextName first text with
      | (none, text) => fields.finish text
      | (some name, text) =>
          let (fields, text) ← fields.read levels name text
          readEntryMembers levels steps false fields text

/-- The next field of an entry given as a list; where the list ends, what it stands for then. -/
def readListed (reader : List Char → Outcome α) (missing : α) (text : List Char) :
    Except Failure (α × List Char) := do
  let (more, text) ← nextItem false text
  if more then reader text else .ok (missing, text)

def readEntryItems (levels : Nat) (text : List Char) :
    Except Failure (EntryNode × List Char) := do
  let (more, text) ← nextItem true text
  if more then
    let (id, text) ← readString text
    let (value, text) ← readListed (readOptional (readNode levels)) none text
    let (index, text) ← readListed (readOptional (readList readNode levels)) none text
    let (attributes, text) ← readListed (readAttributes levels) [] text
    .ok (⟨id, value, index, attributes⟩, text)
  else
    .error (.pending (.tooFewFields 0 "struct EntryNode with 4 elements") text)

def readEntry (levels : Nat) (text : List Char) : Outcome EntryNode :=
  match skipSpace text with
  | '[' :: rest =>
      match levels with
      | 0 => .error (.placed .tooDeep ('[' :: rest) 1)
      | levels + 1 => close listEnd (readEntryItems levels rest)
  | '{' :: rest =>
      match levels with
      | 0 => .error (.placed .tooDeep ('{' :: rest) 1)
      | levels + 1 =>
          close objectEnd (readEntryMembers levels (rest.length + 1) true {} rest)
  | rest => .error (mismatch "struct EntryNode" rest)

def readEntries (text : List Char) : Except Failure (List EntryNode) :=
  readWhole (readList readEntry nestingLimit) text

def ParseFailure.ofJson (source : List Char) (failure : Failure) : ParseFailure :=
  let position := failure.position source
  .malformed position.line position.column (failure.message source)

def parseInterchange (source : String) : Except ParseFailure (List EntryNode) :=
  (readEntries source.toList).mapError (ParseFailure.ofJson source.toList)

end Phrasebook.Resource
