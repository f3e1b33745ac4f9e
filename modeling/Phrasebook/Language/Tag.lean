import Phrasebook.Text.Bytes
import Phrasebook.Text.Split

namespace Phrasebook

open Phrasebook.Text

structure Tag where
  language : String
  script? : Option String := none
  region? : Option String := none
deriving DecidableEq, Repr

namespace Tag

abbrev Subtag := List Char

def sized (low high : Nat) (subtag : Subtag) : Bool :=
  low ≤ subtag.length && subtag.length ≤ high

def isWord (low high : Nat) (subtag : Subtag) : Bool :=
  sized low high subtag && subtag.all Char.isAlphanum

def isLanguage (subtag : Subtag) : Bool :=
  sized 2 3 subtag && subtag.all Char.isAlpha

def isScript (subtag : Subtag) : Bool :=
  sized 4 4 subtag && subtag.all Char.isAlpha

def isRegion (subtag : Subtag) : Bool :=
  sized 2 2 subtag && subtag.all Char.isAlpha || sized 3 3 subtag && subtag.all Char.isDigit

def isVariant (subtag : Subtag) : Bool :=
  isWord 5 8 subtag || isWord 4 4 subtag && (subtag.head?.any Char.isDigit)

def isKeyword : Subtag → Bool
  | [first, second] => first.isAlphanum && second.isAlpha
  | _ => false

def isField : Subtag → Bool
  | [first, second] => first.isAlpha && second.isDigit
  | _ => false

def take? (kind : Subtag → Bool) : List Subtag → Option Subtag × List Subtag
  | [] => (none, [])
  | subtag :: rest => if kind subtag then (some subtag, rest) else (none, subtag :: rest)

/-- The language, script, region and variants at the front, and the subtags behind them. No variant
may be repeated. -/
def readIdentifier? (subtags : List Subtag) : Option (Tag × List Subtag) :=
  match take? isLanguage subtags with
  | (none, _) => none
  | (some language, rest) =>
      let (script?, rest) := take? isScript rest
      let (region?, rest) := take? isRegion rest
      if (rest.takeWhile isVariant).Nodup then
        some (⟨String.ofList language, script?.map String.ofList, region?.map String.ofList⟩,
          rest.dropWhile isVariant)
      else none

/-- Keywords, each with any number of values: how many there are, and what follows them. -/
def readKeywords : (steps : Nat) → List Subtag → Nat × List Subtag
  | steps + 1, subtag :: rest =>
      if isKeyword subtag then
        let (count, rest) := readKeywords steps (rest.dropWhile (isWord 3 8))
        (count + 1, rest)
      else (0, subtag :: rest)
  | _, rest => (0, rest)

def readFields? : (steps : Nat) → List Subtag → Option (Nat × List Subtag)
  | steps + 1, subtag :: rest =>
      if isField subtag then
        match rest with
        | value :: rest =>
            if isWord 3 8 value then
              (readFields? steps (rest.dropWhile (isWord 3 8))).map fun read =>
                (read.1 + 1, read.2)
            else none
        | [] => none
      else some (0, subtag :: rest)
  | _, rest => some (0, rest)

def readUnicode? (subtags : List Subtag) : Option (List Subtag) :=
  let attributes := subtags.takeWhile (isWord 3 8)
  let (count, rest) := readKeywords subtags.length (subtags.dropWhile (isWord 3 8))
  if attributes = [] ∧ count = 0 then none else some rest

def readTransform? (subtags : List Subtag) : Option (List Subtag) :=
  if subtags.head?.any isLanguage then
    match readIdentifier? subtags with
    | none => none
    | some (_, rest) => (readFields? rest.length rest).map Prod.snd
  else
    match readFields? subtags.length subtags with
    | some (_ + 1, rest) => some rest
    | _ => none

/-- What any other extension carries: two to eight bytes, of which nothing else is asked. -/
def isCarried (subtag : Subtag) : Bool :=
  2 ≤ byteCount subtag && byteCount subtag ≤ 8

/-- The subtags of any other extension. Those that are no words mean nothing, and at least one is
a word. -/
def readOther? (subtags : List Subtag) : Option (List Subtag) :=
  if (subtags.takeWhile isCarried).any (isWord 2 8) then some (subtags.dropWhile isCarried)
  else none

/-- Private use takes everything that is left. -/
def isPrivateUse (subtags : List Subtag) : Bool :=
  !subtags.isEmpty && subtags.all (isWord 1 8)

/-- Whether the subtags are extensions, none of them introduced twice. -/
def areExtensions : (steps : Nat) → (seen : List Subtag) → List Subtag → Bool
  | _, _, [] => true
  | 0, _, _ :: _ => false
  | steps + 1, seen, subtag :: rest =>
      if !isWord 1 1 subtag || seen.contains subtag then false
      else if subtag = ['x'] then isPrivateUse rest
      else
        let rest? :=
          if subtag = ['u'] then readUnicode? rest
          else if subtag = ['t'] then readTransform? rest
          else readOther? rest
        match rest? with
        | none => false
        | some rest => areExtensions steps (subtag :: seen) rest

def read? (text : List Char) : Option Tag :=
  match readIdentifier? (split '-' (text.map Char.toLower)) with
  | none => none
  | some (tag, rest) => if areExtensions rest.length [] rest then some tag else none

end Tag

def hyphenated (text : List Char) : List Char :=
  text.map fun c => if c = '_' then '-' else c

end Phrasebook
