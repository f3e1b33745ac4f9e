import Phrasebook.Json.Failure
import Phrasebook.Text.Hex

/-! JSON strings, from behind the opening quote. -/

namespace Phrasebook.Json

open Phrasebook.Text

/-- Four hexadecimal digits. Four bytes are taken before they are looked at. -/
def readHex (text : List Char) : Outcome Nat :=
  let digits := text.take 4
  if digits.length = 4 ∧ digits.all isHexDigit then
    .ok (hexNumber digits, text.drop 4)
  else if byteCount text < 4 then
    .error (.placed .unfinishedString [] 0)
  else
    .error (.placed .invalidEscape text 4)

def isHighSurrogate (n : Nat) : Bool :=
  0xD800 ≤ n && n ≤ 0xDBFF

def isLowSurrogate (n : Nat) : Bool :=
  0xDC00 ≤ n && n ≤ 0xDFFF

def joinSurrogates (high low : Nat) : Char :=
  Char.ofNat ((high - 0xD800) * 0x400 + (low - 0xDC00) + 0x10000)

/-- One required character of the escape that must follow a high surrogate. -/
def readPairing (expected : Char) : List Char → Outcome Unit
  | [] => .error (.placed .unfinishedString [] 0)
  | c :: rest =>
      if c = expected then .ok ((), rest)
      else .error (.placed .unpairedSurrogate (c :: rest) 1)

/-- The character of an escape by code, from behind its `u`. -/
def readCode (text : List Char) : Except Failure (Char × List Char) := do
  let (code, rest) ← readHex text
  if isLowSurrogate code then
    .error (.placed .loneSurrogate rest 0)
  else if isHighSurrogate code then
    let (_, rest) ← readPairing '\\' rest
    let (_, rest) ← readPairing 'u' rest
    let (low, rest) ← readHex rest
    if isLowSurrogate low then
      .ok (joinSurrogates code low, rest)
    else
      .error (.placed .loneSurrogate rest 0)
  else
    .ok (Char.ofNat code, rest)

def shortEscape? (c : Char) : Option Char :=
  match c with
  | '"' => some '"'
  | '\\' => some '\\'
  | '/' => some '/'
  | 'b' => some '\x08'
  | 'f' => some '\x0c'
  | 'n' => some '\n'
  | 'r' => some '\r'
  | 't' => some '\t'
  | _ => none

def readEscape : List Char → Outcome Char
  | [] => .error (.placed .unfinishedString [] 0)
  | c :: rest =>
      match shortEscape? c with
      | some escaped => .ok (escaped, rest)
      | none =>
          if c = 'u' then readCode rest
          else .error (.placed .invalidEscape (c :: rest) 1)

def readCharsWithin : Nat → List Char → Except Failure (List Char × List Char)
  | 0, text => .error (.placed .unfinishedString text 0)
  | _ + 1, [] => .error (.placed .unfinishedString [] 0)
  | steps + 1, c :: rest => do
      if c = '"' then
        .ok ([], rest)
      else if c = '\\' then
        let (escaped, rest) ← readEscape rest
        let (chars, rest) ← readCharsWithin steps rest
        .ok (escaped :: chars, rest)
      else if c.toNat < 0x20 then
        .error (.placed .controlCharacter (c :: rest) 1)
      else
        let (chars, rest) ← readCharsWithin steps rest
        .ok (c :: chars, rest)

def readChars (text : List Char) : Outcome (List Char) :=
  readCharsWithin (text.length + 1) text

def skipEscape : List Char → Except Failure (List Char)
  | [] => .error (.placed .unfinishedString [] 0)
  | c :: rest =>
      if (shortEscape? c).isSome then .ok rest
      else if c = 'u' then (readHex rest).map Prod.snd
      else .error (.placed .invalidEscape (c :: rest) 1)

def skipCharsWithin : Nat → List Char → Except Failure (List Char)
  | 0, text => .error (.placed .unfinishedString text 0)
  | _ + 1, [] => .error (.placed .unfinishedString [] 0)
  | steps + 1, c :: rest => do
      if c = '"' then
        .ok rest
      else if c = '\\' then
        skipCharsWithin steps (← skipEscape rest)
      else if c.toNat < 0x20 then
        .error (.placed .controlCharacter (c :: rest) 0)
      else
        skipCharsWithin steps rest

def skipChars (text : List Char) : Except Failure (List Char) :=
  skipCharsWithin (text.length + 1) text

end Phrasebook.Json
