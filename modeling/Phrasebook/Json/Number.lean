import Phrasebook.Json.Value
import Phrasebook.Json.Failure
import Phrasebook.Decimal.Reader

/-! JSON numbers, from behind an optional minus sign. -/

namespace Phrasebook.Json

open Phrasebook.Decimal

/-- Takes digits while the significand fits, and returns it with the digits left. -/
def gather (significand : Nat) : List Char → Nat × List Char
  | [] => (significand, [])
  | c :: digits =>
      let next := 10 * significand + (c.toNat - '0'.toNat)
      if next < UInt64.size then gather next digits else (significand, c :: digits)

def powerOfTen (n : Nat) : Float :=
  Float.ofScientific 1 false n

/-- Multiplies or divides by a power of ten, in steps of at most 308 places. -/
def scale : (steps : Nat) → Float → Int → Option Float
  | 0, x, _ => some x
  | steps + 1, x, exponent =>
      if exponent.natAbs ≤ 308 then
        if 0 ≤ exponent then
          let y := x * powerOfTen exponent.natAbs
          if y.isInf then none else some y
        else some (x / powerOfTen exponent.natAbs)
      else if x == 0 then some x
      else if 0 ≤ exponent then none
      else scale steps (x / powerOfTen 308) (exponent + 308)

/-- The float of a significand and an exponent, with the text that follows its digits. -/
def floatOf (negative : Bool) (significand : Nat) (exponent : Int) (rest : List Char) :
    Outcome Number :=
  match scale 8 (nearestFloat significand 0) exponent with
  | some x => .ok (.float (if negative then -x else x), rest)
  | none => .error (.placed .numberOutOfRange rest 0)

/-- Exponents are signed words of 32 bits. -/
def exponentLimit : Nat := 0x80000000

/-- The digits of an exponent while it fits, and the digits left. -/
def gatherExponent (exponent : Nat) : List Char → Nat × List Char
  | [] => (exponent, [])
  | c :: digits =>
      let next := 10 * exponent + (c.toNat - '0'.toNat)
      if next < exponentLimit then gatherExponent next digits else (exponent, c :: digits)

def readExponent (negative : Bool) (significand : Nat) (places : Int) (text : List Char) :
    Outcome Number :=
  let (below, text) := splitSign text
  let digits := text.takeWhile Char.isDigit
  let rest := text.dropWhile Char.isDigit
  match digits, rest with
  | [], [] => .error (.placed .unfinishedValue [] 0)
  | [], rest => .error (.placed .invalidNumber rest 1)
  | digits, rest =>
      match gatherExponent 0 digits with
      | (exponent, []) =>
          floatOf negative significand (if below then places - exponent else places + exponent)
            rest
      | (_, _ :: more) =>
          if significand ≠ 0 ∧ !below then
            .error (.placed .numberOutOfRange (more ++ rest) 0)
          else
            .ok (.float (if negative then -0 else 0), rest)

def readExponentOrEnd (negative : Bool) (significand : Nat) (places : Int) :
    List Char → Outcome Number
  | c :: rest =>
      if c = 'e' ∨ c = 'E' then readExponent negative significand places rest
      else floatOf negative significand places (c :: rest)
  | [] => floatOf negative significand places []

def readFraction (negative : Bool) (significand : Nat) (places : Int) (text : List Char) :
    Outcome Number :=
  let digits := text.takeWhile Char.isDigit
  let rest := text.dropWhile Char.isDigit
  match digits, rest with
  | [], [] => .error (.placed .unfinishedValue [] 0)
  | [], rest => .error (.placed .invalidNumber rest 1)
  | digits, rest =>
      let (significand, left) := gather significand digits
      let taken := digits.length - left.length
      readExponentOrEnd negative significand (places - taken) rest

def negativeLimit : Nat := 0x8000000000000000

def wholeNumber (negative : Bool) (n : Nat) : Number :=
  if !negative then .natural n
  else if n = 0 ∨ negativeLimit < n then .float (-nearestFloat n 0)
  else .negative n

def readNumber (negative : Bool) (text : List Char) : Outcome Number :=
  let digits := text.takeWhile Char.isDigit
  let rest := text.dropWhile Char.isDigit
  match digits with
  | [] =>
      match rest with
      | [] => .error (.placed .unfinishedValue [] 0)
      | rest => .error (.placed .invalidNumber rest 1)
  | '0' :: digit :: more => .error (.placed .invalidNumber (digit :: more ++ rest) 1)
  | digits =>
      let (significand, left) := gather 0 digits
      match rest with
      | '.' :: rest => readFraction negative significand left.length rest
      | c :: more =>
          if c = 'e' ∨ c = 'E' then readExponent negative significand left.length more
          else if left = [] then .ok (wholeNumber negative significand, rest)
          else floatOf negative significand left.length rest
      | [] =>
          if left = [] then .ok (wholeNumber negative significand, [])
          else floatOf negative significand left.length []

/-- A number that nobody will see: its form is checked and its size is not. -/
def skipDigits (text : List Char) : List Char :=
  text.dropWhile Char.isDigit

def skipExponent (text : List Char) : Except Failure (List Char) :=
  match (splitSign text).2 with
  | [] => .error (.placed .invalidNumber [] 0)
  | c :: rest =>
      if c.isDigit then .ok (skipDigits rest) else .error (.placed .invalidNumber (c :: rest) 1)

def skipExponentOrEnd : List Char → Except Failure (List Char)
  | c :: rest => if c = 'e' ∨ c = 'E' then skipExponent rest else .ok (c :: rest)
  | [] => .ok []

def skipFraction : List Char → Except Failure (List Char)
  | c :: rest =>
      if c.isDigit then skipExponentOrEnd (skipDigits rest)
      else .error (.placed .invalidNumber (c :: rest) 1)
  | [] => .error (.placed .invalidNumber [] 1)

def skipNumber : List Char → Except Failure (List Char)
  | [] => .error (.placed .invalidNumber [] 0)
  | c :: rest =>
      if !c.isDigit then .error (.placed .invalidNumber (c :: rest) 1)
      else
        let rest := if c = '0' then rest else skipDigits rest
        match rest with
        | '.' :: rest => skipFraction rest
        | d :: rest =>
            if d.isDigit then .error (.placed .invalidNumber (d :: rest) 1)
            else skipExponentOrEnd (d :: rest)
        | [] => .ok []

end Phrasebook.Json
