import Phrasebook.Session.Context

/-! Sessions: an environment with its contexts, driven step by step. -/

namespace Phrasebook

inductive Query where
  | ready (context : String)
  | value (context id : String) (arguments : Arguments)
  | entity (context id : String) (arguments : Arguments)
  | values (context : String) (requests : List (String × Arguments))

inductive SourceChange where
  | text (key : Key) (text : String)
  | failure (key : Key) (failure : FetchFailure)

inductive Step where
  | context (name : String) (resources : List String)
  | drop (name : String)
  | request (context : String) (languages : List String)
  | query (query : Query)
  | parallel (queries : List Query)
  | info (context : String)
  | invalidate
  | source (change : SourceChange)
  | resource (key : Key)
  | pluralLanguage (language : String)
  | environment
  | subscribe
  | drain

inductive Reply where
  | nothing
  | noContext (name : String)
  | existed (existed : Bool)
  | progress (progress : Progress)
  | failed (failure : RequestFailure)
  | languages (languages : List Language)
  | rendering (rendering : Rendering)
  | entity (entity : Entity)
  | renderings (renderings : List Rendering)
  | info (progress : Progress) (resources : List String) (languages : List Language)
  | all (replies : List Reply)
  | count (count : Nat)
  | loaded (loaded : Loaded)
  | language (language : String)
  | environment (default : String) (available : List String)

/-- What a step answers, what was fetched and loaded for it and what its receiver was told. -/
structure Report where
  reply : Reply
  fetches : List Key
  loads : List (Key × Loaded)
  notices? : Option (List Notice)
  progress? : Option Progress

structure Session where
  env : Environment
  store : Store
  channel : Channel
  contexts : Table Context := []
  manualDrain : Bool := false

def SourceChange.apply (change : SourceChange) (sources : Sources) : Sources :=
  match change with
  | .text key content => sources.setText key content
  | .failure key reason => sources.setFailure key reason

def Query.context : Query → String
  | .ready name => name
  | .value name _ _ => name
  | .entity name _ _ => name
  | .values name _ => name

def Reply.ofResult (reply : α → Reply) : Except RequestFailure α → Reply
  | .ok a => reply a
  | .error failure => .failed failure

def Query.ask (query : Query) (env : Environment) (context : Context) (store : Store) :
    Reply × Context × Store :=
  match query with
  | .ready _ =>
      let (result, context, store) := context.ready env store
      (.ofResult (fun _ => .nothing) result, context, store)
  | .value _ id arguments =>
      let (result, context, store) := context.resolveValue env id arguments store
      (.ofResult .rendering result, context, store)
  | .entity _ id arguments =>
      let (result, context, store) := context.resolveEntity env id arguments store
      (.ofResult .entity result, context, store)
  | .values _ requests =>
      let (result, context, store) := context.resolveValues env requests store
      (.ofResult .renderings result, context, store)

namespace Session

def context? (session : Session) (name : String) : Option Context :=
  session.contexts.find? name

def setContext (session : Session) (name : String) (context : Context) : Session :=
  { session with contexts := Table.insert name context session.contexts }

def ask (session : Session) (query : Query) : Reply × Session :=
  match session.context? query.context with
  | none => (.noContext query.context, session)
  | some context =>
      let (reply, context, store) := query.ask session.env context session.store
      (reply, { session.setContext query.context context with store := store })

/-- Queries made together are answered in their order. -/
def askAll (session : Session) : List Query → List Reply × Session
  | [] => ([], session)
  | query :: queries =>
      let (reply, session) := session.ask query
      let (replies, session) := session.askAll queries
      (reply :: replies, session)

def request (session : Session) (name : String) (languages : List String) : Reply × Session :=
  match session.context? name with
  | none => (.noContext name, session)
  | some context =>
      match context.request session.env languages with
      | .error failure => (.failed failure, session)
      | .ok context => (.languages context.languages, session.setContext name context)

def perform (session : Session) : Step → Reply × Session
  | .context name resources =>
      let context : Context := { resources := resources }
      (.progress context.progress, session.setContext name context)
  | .drop name =>
      (.existed (session.context? name).isSome,
        { session with contexts := Table.erase name session.contexts })
  | .request name languages => session.request name languages
  | .query query => session.ask query
  | .parallel queries =>
      let (replies, session) := session.askAll queries
      (.all replies, session)
  | .info name =>
      match session.context? name with
      | none => (.noContext name, session)
      | some context =>
          (.info context.progress context.resources context.languages, session)
  | .invalidate => (.nothing, { session with store := session.store.invalidate })
  | .source change =>
      let sources := change.apply session.store.sources
      (.count sources.texts.length,
        { session with store := { session.store with sources := sources } })
  | .resource key =>
      let (loaded, store) := session.env.resource key session.store
      (.loaded loaded, { session with store := store })
  | .pluralLanguage language => (.language (session.env.pluralLanguage language), session)
  | .environment =>
      (.environment session.env.defaultLanguage session.env.available, session)
  | .subscribe => (.nothing, { session with channel := session.channel.drained })
  | .drain => (.nothing, session)

def contextOf? : Step → Option String
  | .context name _ => some name
  | .drop name => some name
  | .request name _ => some name
  | .query query => some query.context
  | .info name => some name
  | _ => none

/-- Whether the receiver takes its notices after a step. -/
def drains (session : Session) : Step → Bool
  | .drain => true
  | _ => !session.manualDrain

def step (session : Session) (step : Step) : Report × Session :=
  let (reply, after) := session.perform step
  let channel := after.channel.sendAll after.store.reports
  let takes := session.drains step
  let report : Report :=
    { reply := reply
      fetches := after.store.fetches
      loads := after.store.loads
      notices? := if takes then some channel.notices else none
      progress? := ((contextOf? step).bind after.context?).map Context.progress }
  (report,
    { after with
      store := after.store.cleared
      channel := if takes then channel.drained else channel })

def run (session : Session) : List Step → List Report × Session
  | [] => ([], session)
  | first :: rest =>
      let (report, session) := session.step first
      let (reports, session) := session.run rest
      (report :: reports, session)

/-- What comes of a call: nothing while a load waits for itself. -/
def outcome? (call : α × Session) : Option (α × Session) :=
  if call.2.store.stalled then none else some call

def step? (session : Session) (step : Step) : Option (Report × Session) :=
  outcome? (session.step step)

def run? (session : Session) : List Step → Option (List Report × Session)
  | [] => some ([], session)
  | first :: rest => do
      let (report, session) ← session.step? first
      let (reports, session) ← session.run? rest
      return (report :: reports, session)

/-- A session before its first step, with a receiver for its diagnostics. -/
def opened (env : Environment) (sources : Sources) (capacity : Nat) (manualDrain : Bool) :
    Session where
  env := env
  store := { sources := sources }
  channel := .ofCapacity capacity
  manualDrain := manualDrain

def start (env : Environment) (changes : List SourceChange) (capacity : Nat)
    (manualDrain : Bool) : Session :=
  opened env (changes.foldl (fun sources change => change.apply sources) {}) capacity manualDrain

end Session

end Phrasebook
