import Phrasebook.Decimal.Layout

namespace Phrasebook.Json

open Phrasebook.Decimal

/-- Whole numbers of at most 64 bits are kept exact; every other number is a float. A negative
number holds its absolute value. -/
inductive Number where
  | natural (n : Nat)
  | negative (n : Nat)
  | float (x : Float)

/-- Members stand in the order written, repeated names included. -/
inductive Value where
  | null
  | bool (b : Bool)
  | number (n : Number)
  | string (s : String)
  | array (items : List Value)
  | object (members : List (String × Value))

def Number.print : Number → List Char
  | .natural n => digitText n
  | .negative n => '-' :: digitText n
  | .float x => (Layout.compact.float x).toList

def printChar (c : Char) : List Char :=
  if c = '"' then ['\\', '"']
  else if c = '\\' then ['\\', '\\']
  else if c = '\x08' then ['\\', 'b']
  else if c = '\x0c' then ['\\', 'f']
  else if c = '\n' then ['\\', 'n']
  else if c = '\r' then ['\\', 'r']
  else if c = '\t' then ['\\', 't']
  else if c.toNat < 0x20 then
    ['\\', 'u', '0', '0', Nat.digitChar (c.toNat / 16), Nat.digitChar (c.toNat % 16)]
  else [c]

def printString (s : String) : List Char :=
  '"' :: (s.toList.flatMap printChar ++ ['"'])

mutual

def Value.print : Value → List Char
  | .null => ['n', 'u', 'l', 'l']
  | .bool true => ['t', 'r', 'u', 'e']
  | .bool false => ['f', 'a', 'l', 's', 'e']
  | .number n => n.print
  | .string s => printString s
  | .array [] => ['[', ']']
  | .array (item :: items) => '[' :: (item.print ++ printItems items)
  | .object [] => ['{', '}']
  | .object ((name, value) :: members) =>
      '{' :: (printString name ++ ':' :: (value.print ++ printMembers members))

def printItems : List Value → List Char
  | [] => [']']
  | item :: items => ',' :: (item.print ++ printItems items)

def printMembers : List (String × Value) → List Char
  | [] => ['}']
  | (name, value) :: members =>
      ',' :: (printString name ++ ':' :: (value.print ++ printMembers members))

end

def Value.text (value : Value) : String :=
  String.ofList value.print

def Value.find? : Value → String → Option Value
  | .object members, name => members.lookup name
  | _, _ => none

end Phrasebook.Json
