import Phrasebook.Evaluation.Scope
import Phrasebook.Language.Basic
import Phrasebook.Session.Diagnostic
import Phrasebook.Session.Source

namespace Phrasebook

structure Locale where
  language : Language
  pluralLanguage : String
  resources : List (String × Loaded)

/-- What came of looking for the value of an entry in one language. -/
inductive Attempt where
  | missing
  | valueless
  | done (text : String)
  | failed (fault : Fault)

namespace Locale

def code (locale : Locale) : String :=
  locale.language.code

def entryIn? (id : String) (loaded : Loaded) : Option Entry :=
  match loaded with
  | .ok entries => entries.find? id
  | .error _ => none

def entry? (locale : Locale) (id : String) : Option Entry :=
  locale.resources.findSome? fun resource => entryIn? id resource.2

def scope (locale : Locale) (arguments : Arguments) : Scope where
  phrase? id := (locale.entry? id).map Entry.phrase
  arguments := arguments
  language := locale.pluralLanguage

def text (locale : Locale) (arguments : Arguments) (id : String) (phrase : Phrase) :
    Except Fault String :=
  ((locale.scope arguments).formatFresh id phrase).map Value.display

def attempt (locale : Locale) (arguments : Arguments) (id : String) : Attempt :=
  match locale.entry? id with
  | none => .missing
  | some entry =>
      if entry.phrase.hasValue then
        match locale.text arguments id entry.phrase with
        | .ok text => .done text
        | .error fault => .failed fault
      else .valueless

def attributeId (id name : String) : String :=
  id ++ "." ++ name

/-- What every attribute of an entry evaluates to, in the order of their names. -/
def attributeTexts (locale : Locale) (arguments : Arguments) (id : String) :
    Table (Except Fault String) :=
  match locale.entry? id with
  | none => []
  | some entry =>
      entry.attributes.map fun named =>
        (named.1, locale.text arguments (attributeId id named.1) named.2)

def attributes (locale : Locale) (arguments : Arguments) (id : String) : Table String :=
  (locale.attributeTexts arguments id).filterMap fun named =>
    match named.2 with
    | .ok text => some (named.1, text)
    | .error _ => none

def attributeReports (locale : Locale) (arguments : Arguments) (id : String) :
    List Diagnostic :=
  (locale.attributeTexts arguments id).filterMap fun named =>
    match named.2 with
    | .ok _ => none
    | .error fault => some (.ofFault locale.code (attributeId id named.1) fault)

end Locale

end Phrasebook
