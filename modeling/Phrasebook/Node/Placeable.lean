import Phrasebook.Node.Basic
import Phrasebook.Unicode.Alphanumeric
import Phrasebook.Text.Trim

namespace Phrasebook

open Phrasebook.Text
open Phrasebook.Unicode

namespace Placeable

def isNameChar (c : Char) : Bool :=
  isAlphanumeric c || c = '_' || c = '-'

def readName? (text : List Char) : Option (String × List Char) :=
  match text.takeWhile isNameChar with
  | [] => none
  | name => some (String.ofList name, text.dropWhile isNameChar)

/-- The arguments after the first, each behind a comma; `steps` bounds their number. A comma that
no argument follows is left unread. -/
def readArguments (argument? : List Char → Option (Node × List Char)) :
    (steps : Nat) → List Char → List Node × List Char
  | 0, text => ([], text)
  | steps + 1, text =>
      match trimStart text with
      | ',' :: rest =>
          match argument? (trimStart rest) with
          | some (node, rest) =>
              let (nodes, rest) := readArguments argument? steps rest
              (node :: nodes, rest)
          | none => ([], text)
      | _ => ([], text)

def readCall? (argument? : List Char → Option (Node × List Char)) :
    List Char → Option (List Node × List Char)
  | '(' :: rest =>
      let inner := trimStart rest
      let (nodes, rest) :=
        match argument? inner with
        | some (node, rest) =>
            let (nodes, rest) := readArguments argument? rest.length rest
            (node :: nodes, rest)
        | none => ([], inner)
      match trimStart rest with
      | ')' :: rest => some (nodes, rest)
      | _ => none
  | _ => none

def readExpressionWithin : (depth : Nat) → List Char → Option (Node × List Char)
  | 0, _ => none
  | depth + 1, text =>
      match readName? text with
      | none => none
      | some (name, rest) =>
          match readCall? (readExpressionWithin depth) rest with
          | some (arguments, rest) => some (.call (.identifier name) arguments, rest)
          | none => some (.identifier name, rest)

def readExpression? (text : List Char) : Option (Node × List Char) :=
  readExpressionWithin (text.length + 1) text

def read? : List Char → Option (Node × List Char)
  | '{' :: '{' :: rest =>
      match readExpression? (trimStart rest) with
      | none => none
      | some (node, rest) =>
          match trimStart rest with
          | '}' :: '}' :: rest => some (node, rest)
          | _ => none
  | _ => none

/-- A part of a text: one literal character, or a placeable. -/
inductive Part where
  | literal (c : Char)
  | placeable (node : Node)

def partsWithin : (steps : Nat) → List Char → List Part
  | 0, _ => []
  | _ + 1, [] => []
  | steps + 1, c :: rest =>
      match read? (c :: rest) with
      | some (node, rest) => .placeable node :: partsWithin steps rest
      | none => .literal c :: partsWithin steps rest

/-- The leftmost placeables of a text and the characters between them. -/
def parts (text : List Char) : List Part :=
  partsWithin text.length text

def join : List Part → List Node
  | [] => []
  | .placeable node :: rest => node :: join rest
  | .literal c :: rest =>
      match join rest with
      | .raw text :: nodes => .raw (String.ofList (c :: text.toList)) :: nodes
      | nodes => .raw (String.singleton c) :: nodes

/-- Two opening braces next to each other. -/
def hasBraces : List Char → Bool
  | '{' :: '{' :: _ => true
  | _ :: rest => hasBraces rest
  | [] => false

end Placeable

open Placeable

def splitPlaceables (text : String) : List Node :=
  join (parts text.toList)

/-- A text without a pair of opening braces is not searched. -/
def hasPlaceables (text : String) : Bool :=
  hasBraces text.toList && (splitPlaceables text).any fun node => !node.isRaw

/-- A text that is one expression from end to end, apart from white space around it. -/
def Node.ofExpression? (text : List Char) : Option Node :=
  match readExpression? (trim text) with
  | some (node, []) => some node
  | _ => none

end Phrasebook
