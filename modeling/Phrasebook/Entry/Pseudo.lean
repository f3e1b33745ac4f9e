import Phrasebook.Entry.Basic

namespace Phrasebook

inductive Pseudo where
  | accented
  | flipped
deriving DecidableEq

namespace Pseudo

def code : Pseudo → String
  | .accented => "qps-ploc"
  | .flipped => "qps-plocm"

def ofCode? (code : String) : Option Pseudo :=
  if code = Pseudo.accented.code then some .accented
  else if code = Pseudo.flipped.code then some .flipped
  else none

inductive Segment where
  | text (chars : List Char)
  | markup (chars : List Char)
deriving DecidableEq

def Segment.chars : Segment → List Char
  | .text chars => chars
  | .markup chars => chars

/-- A body of at least one character, and the rest behind the character that ends it. -/
def readBody? (inBody : Char → Bool) (ending : Char) (text : List Char) :
    Option (List Char × List Char) :=
  match text.takeWhile inBody, text.dropWhile inBody with
  | [], _ => none
  | body, c :: rest => if c = ending then some (body, rest) else none
  | _, [] => none

def isReferenceChar (c : Char) : Bool :=
  c.isAlphanum || c = '#'

def readMarkup? : List Char → Option (List Char × List Char)
  | [] => none
  | c :: rest =>
      if c = '<' then
        (readBody? (· ≠ '>') '>' rest).map fun read => ('<' :: (read.1 ++ ['>']), read.2)
      else if c = '&' then
        (readBody? isReferenceChar ';' rest).map fun read => ('&' :: (read.1 ++ [';']), read.2)
      else none

def opensMarkup (c : Char) : Bool :=
  c = '<' || c = '&'

/-- The segments of a text. A character that could open markup and does not is a segment of its
own. -/
def segmentsWithin : (steps : Nat) → List Char → List Segment
  | 0, _ => []
  | _ + 1, [] => []
  | steps + 1, c :: rest =>
      match readMarkup? (c :: rest) with
      | some (markup, rest) => .markup markup :: segmentsWithin steps rest
      | none =>
          if opensMarkup c then .text [c] :: segmentsWithin steps rest
          else
            .text (c :: rest.takeWhile (!opensMarkup ·)) ::
              segmentsWithin steps (rest.dropWhile (!opensMarkup ·))

def segments (text : List Char) : List Segment :=
  segmentsWithin text.length text

structure Alphabet where
  upper : List Char
  lower : List Char

def Alphabet.letter (alphabet : Alphabet) (c : Char) : Char :=
  if c.isUpper then alphabet.upper.getD (c.toNat - 'A'.toNat) c
  else if c.isLower then alphabet.lower.getD (c.toNat - 'a'.toNat) c
  else c

def accents : Alphabet where
  upper :=
    ['Ȧ', 'Ɓ', 'Ƈ', 'Ḓ', 'Ḗ', 'Ƒ', 'Ɠ', 'Ħ', 'Ī', 'Ĵ', 'Ķ', 'Ŀ', 'Ḿ',
     'Ƞ', 'Ǿ', 'Ƥ', 'Ɋ', 'Ř', 'Ş', 'Ŧ', 'Ŭ', 'Ṽ', 'Ẇ', 'Ẋ', 'Ẏ', 'Ẑ']
  lower :=
    ['ȧ', 'ƀ', 'ƈ', 'ḓ', 'ḗ', 'ƒ', 'ɠ', 'ħ', 'ī', 'ĵ', 'ķ', 'ŀ', 'ḿ',
     'ƞ', 'ǿ', 'ƥ', 'ɋ', 'ř', 'ş', 'ŧ', 'ŭ', 'ṽ', 'ẇ', 'ẋ', 'ẏ', 'ẑ']

def flips : Alphabet where
  upper :=
    ['∀', 'Ԑ', 'Ↄ', 'ᗡ', 'Ǝ', 'Ⅎ', '⅁', 'H', 'I', 'ſ', 'Ӽ', '˥', 'W',
     'N', 'O', 'Ԁ', 'Ò', 'ᴚ', 'S', '⊥', '∩', 'Ʌ', 'M', 'X', '⅄', 'Z']
  lower :=
    ['ɐ', 'q', 'ɔ', 'p', 'ǝ', 'ɟ', 'ƃ', 'ɥ', 'ı', 'ɾ', 'ʞ', 'ʅ', 'ɯ',
     'u', 'o', 'd', 'b', 'ɹ', 's', 'ʇ', 'n', 'ʌ', 'ʍ', 'x', 'ʎ', 'z']

def isVowel (c : Char) : Bool :=
  ['a', 'e', 'i', 'o', 'u'].contains c.toLower

def accentChar (c : Char) : List Char :=
  let letter := accents.letter c
  if isVowel c then [letter, letter] else [letter]

def accent (text : List Char) : List Char :=
  text.flatMap accentChar

def isWordChar (c : Char) : Bool :=
  c.isAlphanum || c = '_'

/-- The override and the mark that ends it. -/
def overrideMark : Char := '\u202e'

def popMark : Char := '\u202c'

/-- Words stand between the marks. -/
def flipFrom : (inWord : Bool) → List Char → List Char
  | inWord, [] => if inWord then [popMark] else []
  | inWord, c :: rest =>
      let marks :=
        if isWordChar c && !inWord then [overrideMark]
        else if !isWordChar c && inWord then [popMark]
        else []
      marks ++ flips.letter c :: flipFrom (isWordChar c) rest

def flip (text : List Char) : List Char :=
  flipFrom false text

def disguiseText (pseudo : Pseudo) (text : List Char) : List Char :=
  match pseudo with
  | .accented => accent text
  | .flipped => flip text

def disguiseSegment (pseudo : Pseudo) : Segment → List Char
  | .text chars => pseudo.disguiseText chars
  | .markup chars => chars

def disguiseChars (pseudo : Pseudo) (text : List Char) : List Char :=
  (segments text).flatMap pseudo.disguiseSegment

def disguise (pseudo : Pseudo) (text : String) : String :=
  String.ofList (pseudo.disguiseChars text.toList)

def transform (pseudo : Pseudo) (entries : Entries) : Entries :=
  Entries.mapLiterals pseudo.disguise entries

end Pseudo

end Phrasebook
