import Phrasebook.Negotiation
import Phrasebook.Session.Environment
import Phrasebook.Session.Locale

/-! Contexts: a list of resources seen through a chain of languages. -/

namespace Phrasebook

structure Link where
  language : Language
  locale? : Option Locale := none

structure Context where
  resources : List String
  chain : List Link := []

inductive Progress where
  | unrequested
  | fetching
  | ready
deriving DecidableEq

def Progress.name : Progress → String
  | .unrequested => "Unrequested"
  | .fetching => "Fetching"
  | .ready => "Ready"

structure Found where
  value? : Option String
  locale? : Option Locale

/-- A value that was asked for, and the language it is in; a name in brackets is in none. -/
structure Rendering where
  value : String
  language? : Option String
deriving DecidableEq

/-- A value with its attributes. An entry that only has attributes has no value. -/
structure Entity where
  value? : Option String
  attributes : Table String
  language? : Option String
deriving DecidableEq

def bracketed (id : String) : String :=
  "[" ++ id ++ "]"

namespace Link

def buildLocale (link : Link) (env : Environment) (resources : List String) (store : Store) :
    Locale × Store :=
  let (loaded, store) := env.resources link.language.code resources store
  (⟨link.language, env.pluralLanguage link.language.code, loaded⟩, store)

/-- The locale of a link, built now if it was not. -/
def locale (link : Link) (env : Environment) (resources : List String) (store : Store) :
    Locale × Store :=
  match link.locale? with
  | some locale => (locale, store)
  | none => link.buildLocale env resources store

end Link

/-- What the salvage of a walk is after a fault in some locale: the first one stays. -/
def salvaged (salvage? : Option Found) (locale : Locale) (fault : Fault) : Option Found :=
  salvage?.or (fault.salvage?.map fun text => ⟨some text, some locale⟩)

inductive Verdict where
  | ends (found : Found)
  | passes (salvage? : Option Found) (report : Diagnostic)

/-- Text of a faulty value is kept as salvage, for the case that no language does better. Where an
entry need not have a value, one without ends the walk, but salvage is preferred to it. -/
def Locale.judge (locale : Locale) (arguments : Arguments) (id : String) (needsValue : Bool)
    (salvage? : Option Found) : Verdict :=
  match locale.attempt arguments id with
  | .missing => .passes salvage? ⟨locale.code, .notFound id⟩
  | .valueless =>
      if needsValue then .passes salvage? (.ofFault locale.code id (.missingValue id))
      else .ends (salvage?.getD ⟨none, some locale⟩)
  | .done text => .ends ⟨some text, some locale⟩
  | .failed fault =>
      .passes (salvaged salvage? locale fault) (.ofFault locale.code id fault)

def walk (env : Environment) (resources : List String) (arguments : Arguments) (id : String)
    (needsValue : Bool) : Option Found → List Link → Store → Found × List Link × Store
  | salvage?, [], store => (salvage?.getD ⟨none, none⟩, [], store)
  | salvage?, link :: links, store =>
      let (locale, store) := link.locale env resources store
      let built : Link := { link with locale? := some locale }
      match locale.judge arguments id needsValue salvage? with
      | .ends found => (found, built :: links, store)
      | .passes salvage? detail =>
          let (found, links, store) :=
            walk env resources arguments id needsValue salvage? links (store.report detail)
          (found, built :: links, store)

namespace Context

def languages (context : Context) : List Language :=
  context.chain.map Link.language

def progress (context : Context) : Progress :=
  match context.chain with
  | [] => .unrequested
  | link :: _ => if link.locale?.isSome then .ready else .fetching

/-- Asking again replaces the chain and the locales built for it. -/
def request (context : Context) (env : Environment) (requested : List String) :
    Except RequestFailure Context :=
  (negotiate env.defaultLanguage env.available requested).map fun chain =>
    { context with chain := chain.map fun code => { language := .ofCode code } }

def ready (context : Context) (env : Environment) (store : Store) :
    Except RequestFailure Unit × Context × Store :=
  match context.chain with
  | [] => (.error .notRequested, context, store)
  | link :: links =>
      let (locale, store) := link.locale env context.resources store
      (.ok (), { context with chain := { link with locale? := some locale } :: links }, store)

def find (context : Context) (env : Environment) (arguments : Arguments) (id : String)
    (needsValue : Bool) (store : Store) : Except RequestFailure Found × Context × Store :=
  match context.chain with
  | [] => (.error .notRequested, context, store)
  | chain =>
      let (found, chain, store) :=
        walk env context.resources arguments id needsValue none chain store
      (.ok found, { context with chain := chain }, store)

def renderingOf (id : String) (found : Found) : Rendering where
  value := found.value?.getD (bracketed id)
  language? := found.locale?.map Locale.code

def resolveValue (context : Context) (env : Environment) (id : String) (arguments : Arguments)
    (store : Store) : Except RequestFailure Rendering × Context × Store :=
  let (found, context, store) := context.find env arguments id true store
  (found.map (renderingOf id), context, store)

/-- Attributes come from the locale that gave the value; those that fail are reported. -/
def entityOf (id : String) (arguments : Arguments) (found : Found) : Entity × List Diagnostic :=
  match found.locale? with
  | none => (⟨some (bracketed id), [], none⟩, [])
  | some locale =>
      (⟨found.value?, locale.attributes arguments id, some locale.code⟩,
        locale.attributeReports arguments id)

def resolveEntity (context : Context) (env : Environment) (id : String) (arguments : Arguments)
    (store : Store) : Except RequestFailure Entity × Context × Store :=
  match context.find env arguments id false store with
  | (.error failure, context, store) => (.error failure, context, store)
  | (.ok found, context, store) =>
      let (entity, reports) := entityOf id arguments found
      (.ok entity, context, store.reportAll reports)

def resolveValues (context : Context) (env : Environment) :
    List (String × Arguments) → Store →
      Except RequestFailure (List Rendering) × Context × Store
  | [], store => (.ok [], context, store)
  | (id, arguments) :: requests, store =>
      match context.resolveValue env id arguments store with
      | (.error failure, context, store) => (.error failure, context, store)
      | (.ok rendering, context, store) =>
          let (rest, context, store) := context.resolveValues env requests store
          (rest.map (rendering :: ·), context, store)

end Context

end Phrasebook
