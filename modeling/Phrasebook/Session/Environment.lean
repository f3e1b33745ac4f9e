import Phrasebook.Entry.Pseudo
import Phrasebook.Session.Diagnostic
import Phrasebook.Session.Source

/-! Loading resources through a cache. -/

namespace Phrasebook

structure Environment where
  defaultLanguage : String
  available : List String
  registry : Resource.Registry

/-- The sources with everything loaded from them so far. `fetches`, `loads` and `reports` tell what
was fetched, loaded through the cache and reported since they were last cleared. The store is
`stalled` once a load waits for its own slot: there is no outcome of that load, nor of anything that
comes behind it. -/
structure Store where
  sources : Sources := {}
  cache : List (Key × Loaded) := []
  fetches : List Key := []
  loads : List (Key × Loaded) := []
  reports : List Diagnostic := []
  stalled : Bool := false

namespace Store

def loaded? (store : Store) (key : Key) : Option Loaded :=
  store.cache.lookup key

def keep (store : Store) (key : Key) (loaded : Loaded) : Store :=
  { store with cache := (key, loaded) :: store.cache }

def noteLoad (store : Store) (key : Key) (loaded : Loaded) : Store :=
  { store with loads := store.loads ++ [(key, loaded)] }

def report (store : Store) (diagnostic : Diagnostic) : Store :=
  { store with reports := store.reports ++ [diagnostic] }

def reportAll (store : Store) (diagnostics : List Diagnostic) : Store :=
  { store with reports := store.reports ++ diagnostics }

def invalidate (store : Store) : Store :=
  { store with cache := [] }

def cleared (store : Store) : Store :=
  { store with fetches := [], loads := [], reports := [] }

/-- A load waits for a slot, which has no end if the slot is its own. -/
def awaiting (store : Store) (own : Bool) : Store :=
  { store with stalled := store.stalled || own }

def fetch (store : Store) (key : Key) : Except FetchFailure String × Store :=
  (store.sources.fetch key, { store with fetches := store.fetches ++ [key] })

def cached (store : Store) (key : Key) (load : Store → Loaded × Store) : Loaded × Store :=
  match store.loaded? key with
  | some loaded => (loaded, store.noteLoad key loaded)
  | none =>
      let (loaded, store) := load store
      (loaded, (store.keep key loaded).noteLoad key loaded)

end Store

def Diagnostic.ofLoaded (key : Key) : Loaded → List Diagnostic
  | .ok _ => []
  | .error failure => [⟨key.language, .load failure.resource failure.message⟩]

namespace Environment

/-- The strategy of a pseudo-locale that is not shipped under its code. -/
def derivedPseudo? (env : Environment) (language : String) : Option Pseudo :=
  if env.available.contains language then none else Pseudo.ofCode? language

/-- The language whose plural rules hold; those of the default language in what is made from it. -/
def pluralLanguage (env : Environment) (language : String) : String :=
  if (env.derivedPseudo? language).isSome then env.defaultLanguage else language

/-- Fetches and parses a resource. Without a parser nothing is fetched. -/
def fetchAndParse (env : Environment) (key : Key) (store : Store) : Loaded × Store :=
  match env.registry.parserFor? key.resource with
  | none => (.error (.unknownFormat key.resource), store)
  | some parser =>
      let (fetched, store) := store.fetch key
      (.ofFetched parser key fetched, store)

def load (env : Environment) (key : Key) (store : Store) : Loaded × Store :=
  let (loaded, store) := env.fetchAndParse key store
  (loaded, store.reportAll (Diagnostic.ofLoaded key loaded))

def shipped (env : Environment) (key : Key) (store : Store) : Loaded × Store :=
  store.cached key (env.load key)

/-- Makes a resource from that of the default language. Where this is the language it is made for,
the slot that is waited for is the one that is being filled. -/
def loadPseudo (env : Environment) (pseudo : Pseudo) (key : Key) (store : Store) : Loaded × Store :=
  let basis : Key := ⟨key.resource, env.defaultLanguage⟩
  let (loaded, store) := env.shipped basis store
  (loaded.map pseudo.transform, store.awaiting (basis = key))

/-- A resource in a language. It counts only if the store is not stalled by it. -/
def resource (env : Environment) (key : Key) (store : Store) : Loaded × Store :=
  match env.derivedPseudo? key.language with
  | some pseudo => store.cached key (env.loadPseudo pseudo key)
  | none => env.shipped key store

def resources (env : Environment) (language : String) :
    List String → Store → List (String × Loaded) × Store
  | [], store => ([], store)
  | name :: names, store =>
      let (loaded, store) := env.resource ⟨name, language⟩ store
      let (others, store) := env.resources language names store
      ((name, loaded) :: others, store)

end Environment

end Phrasebook
