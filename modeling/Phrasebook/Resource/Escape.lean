import Phrasebook.Text.Hex

/-! Backslash escapes in the values of a line resource. -/

namespace Phrasebook.Resource

open Phrasebook.Text

def plainEscape? (c : Char) : Option Char :=
  match c with
  | 'n' => some '\n'
  | 'r' => some '\r'
  | 't' => some '\t'
  | 'b' => some '\x08'
  | 'f' => some '\x0c'
  | '\\' => some '\\'
  | '{' => some '{'
  | '}' => some '}'
  | '"' => some '"'
  | '\'' => some '\''
  | _ => none

/-- The hexadecimal digits that an escape by code takes: at most four, as many as there are. -/
def codeDigits (text : List Char) : List Char :=
  (text.take 4).takeWhile isHexDigit

def codeChar? (digits : List Char) : Option Char :=
  if digits = [] then none else scalar? (hexNumber digits)

/-- What the text behind a backslash stands for together with it, and the rest. -/
def readEscape : List Char → List Char × List Char
  | [] => (['\\'], [])
  | 'u' :: rest =>
      let digits := codeDigits rest
      let after := rest.drop digits.length
      match codeChar? digits with
      | some c => ([c], after)
      | none => ('\\' :: 'u' :: digits, after)
  | c :: rest =>
      match plainEscape? c with
      | some escaped => ([escaped], rest)
      | none => (['\\', c], rest)

def unescapeWithin : (steps : Nat) → List Char → List Char
  | 0, _ => []
  | _ + 1, [] => []
  | steps + 1, c :: rest =>
      if c = '\\' then
        let (chars, rest) := readEscape rest
        chars ++ unescapeWithin steps rest
      else c :: unescapeWithin steps rest

def unescape (text : List Char) : List Char :=
  unescapeWithin text.length text

end Phrasebook.Resource
