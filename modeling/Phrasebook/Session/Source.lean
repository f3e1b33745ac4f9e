import Phrasebook.Entry.Compile
import Phrasebook.Resource.Registry

namespace Phrasebook

open Phrasebook.Decimal

structure Key where
  resource : String
  language : String
deriving DecidableEq

inductive FetchFailure where
  | notFound (key : Key)
  | io (message : String)
  | other (message : String)
deriving DecidableEq

def FetchFailure.message : FetchFailure → String
  | .notFound key => "resource '" ++ key.resource ++ "' not found for '" ++ key.language ++ "'"
  | .io message => message
  | .other message => message

/-- The texts held in memory, the failures that stand in for some of them, and what comes of any
other key. -/
structure Sources where
  texts : List (Key × String) := []
  failures : List (Key × FetchFailure) := []
  elsewhere : Key → Except FetchFailure String := fun key => .error (.notFound key)

namespace Sources

def without (key : Key) (pairs : List (Key × α)) : List (Key × α) :=
  pairs.filter fun pair => pair.1 ≠ key

/-- A text takes the place of a failure. -/
def setText (sources : Sources) (key : Key) (text : String) : Sources :=
  { sources with
    texts := (key, text) :: without key sources.texts
    failures := without key sources.failures }

/-- A failure hides the text of its key. -/
def setFailure (sources : Sources) (key : Key) (failure : FetchFailure) : Sources :=
  { sources with failures := (key, failure) :: without key sources.failures }

def fetch (sources : Sources) (key : Key) : Except FetchFailure String :=
  match sources.failures.lookup key, sources.texts.lookup key with
  | some failure, _ => .error failure
  | none, some text => .ok text
  | none, none => sources.elsewhere key

end Sources

inductive LoadFailure where
  | fetch (key : Key) (source : FetchFailure)
  | parse (resource : String) (source : ParseFailure)
  | unknownFormat (resource : String)
deriving DecidableEq

namespace LoadFailure

def resource : LoadFailure → String
  | .fetch key _ => key.resource
  | .parse resource _ => resource
  | .unknownFormat resource => resource

def message : LoadFailure → String
  | .fetch key source =>
      "failed to fetch '" ++ key.resource ++ "' for '" ++ key.language ++ "': " ++ source.message
  | .parse resource source =>
      resource ++ ":" ++ numeral source.line ++ ":" ++ numeral source.column ++ ": " ++
        source.message
  | .unknownFormat resource =>
      "no parser for '" ++ resource ++ "' (extension '" ++ Resource.extensionOf resource ++ "')"

end LoadFailure

/-- What a load ends in. A failure is kept like a success. -/
abbrev Loaded := Except LoadFailure Entries

def Loaded.ofFetched (parser : Resource.Parser) (key : Key) :
    Except FetchFailure String → Loaded
  | .error failure => .error (.fetch key failure)
  | .ok text =>
      match parser text with
      | .error failure => .error (.parse key.resource failure)
      | .ok nodes => .ok (.ofNodes nodes)

end Phrasebook
