import Phrasebook.Resource.Escape
import Phrasebook.Resource.LogicalLine

namespace Phrasebook.Resource

open Phrasebook.Text
open Phrasebook.Unicode

structure Assignment where
  line : Nat
  name : List Char
  member? : Option (List Char)
  value : List Char
deriving DecidableEq

def isNameEnd (c : Char) : Bool :=
  c = '[' || c = '=' || isWhiteSpace c

/-- A member in brackets, if one stands here in full. -/
def readMember : List Char → Option (List Char) × List Char
  | '[' :: rest =>
      match rest.dropWhile (· ≠ ']') with
      | ']' :: after => (some (rest.takeWhile (· ≠ ']')), after)
      | _ => (none, '[' :: rest)
  | text => (none, text)

def readValue? (text : List Char) : Option (List Char) :=
  match trimStart text with
  | '=' :: rest =>
      match trimStart rest with
      | [] => none
      | value => some value
  | _ => none

def Assignment.ofLine? (line : LogicalLine) : Option Assignment :=
  let text := trimStart line.text
  if text.head? = some '#' then none
  else
    let name := text.takeWhile (!isNameEnd ·)
    let (member?, rest) := readMember (text.dropWhile (!isNameEnd ·))
    if name = [] then none
    else (readValue? rest).map fun value => ⟨line.number, name, member?, unescape value⟩

def assignments (source : List Char) : List Assignment :=
  (logicalLines source).filterMap Assignment.ofLine?

end Phrasebook.Resource
