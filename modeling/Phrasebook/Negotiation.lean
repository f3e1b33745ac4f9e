import Phrasebook.Entry.Pseudo
import Phrasebook.Language.Tag
import Phrasebook.Text.Trim

namespace Phrasebook

open Phrasebook.Text

inductive RequestFailure where
  | notRequested
  | invalidLanguage (tag : String)
  | noLanguages
deriving DecidableEq

def RequestFailure.message : RequestFailure → String
  | .notRequested => "no languages have been requested for this context"
  | .invalidLanguage tag => "invalid language tag '" ++ tag ++ "'"
  | .noLanguages => "at least one language must be requested"

namespace Negotiation

def normalForm (tag : String) : String :=
  String.ofList ((hyphenated (trim tag.toList)).map Char.toLower)

def SameTag (left right : String) : Prop :=
  normalForm left = normalForm right

instance (left right : String) : Decidable (SameTag left right) :=
  inferInstanceAs (Decidable (normalForm left = normalForm right))

def isWellFormed (tag : String) : Bool :=
  (Tag.read? (normalForm tag).toList).isSome

def primarySubtag (tag : String) : String :=
  String.ofList ((normalForm tag).toList.takeWhile (· ≠ '-'))

/-- A fallback shares the primary subtag; a language spelled as a pseudo-locale is none. -/
def isFallback (tag other : String) : Bool :=
  (Pseudo.ofCode? other).isNone && primarySubtag other = primarySubtag tag

/-- Pseudo-locales are always available; otherwise an equal tag is better than a fallback. -/
def bestMatch? (available : List String) (tag : String) : Option String :=
  match Pseudo.ofCode? (normalForm tag) with
  | some pseudo => some pseudo.code
  | none =>
      (available.find? fun other => SameTag other tag).or (available.find? (isFallback tag))

def extend (chain : List String) (language : String) : List String :=
  if chain.any fun other => SameTag other language then chain else chain ++ [language]

/-- Adds the match of every requested tag, up to the first that is not well-formed. -/
def matchAll (available : List String) :
    List String → List String → Except RequestFailure (List String)
  | chain, [] => .ok chain
  | chain, tag :: rest =>
      if isWellFormed tag then
        match bestMatch? available tag with
        | some language => matchAll available (extend chain language) rest
        | none => matchAll available chain rest
      else .error (.invalidLanguage tag)

end Negotiation

open Negotiation in
/-- The matches of the requested tags, the first of equal ones only; the default language stands
behind them unless it is among them. -/
def negotiate (default : String) (available requested : List String) :
    Except RequestFailure (List String) :=
  if requested = [] then .error .noLanguages
  else (matchAll available [] requested).map fun chain => extend chain default

end Phrasebook
