import Mathlib.Data.List.Forall2
import Phrasebook.Proofs.Session.Slots
import Phrasebook.Proofs.Session.Walk
import Phrasebook.Session.Step

/-! What every query upholds, in the store and in the locales that the contexts keep. -/

namespace Phrasebook

/-- What a context was made and asked for. It stays as it is while the context answers. -/
structure Plan where
  resources : List String
  languages : List Language
deriving DecidableEq

def Context.plan (context : Context) : Plan where
  resources := context.resources
  languages := context.languages

def Link.Holds (Fit : List String → Language → Locale → Prop) (resources : List String)
    (link : Link) : Prop :=
  ∀ locale, link.locale? = some locale → Fit resources link.language locale

def Context.Holds (Fit : List String → Language → Locale → Prop) (context : Context) : Prop :=
  ∀ link ∈ context.chain, link.Holds Fit context.resources

structure Upkeep (env : Environment) (Sound : Store → Prop)
    (Fit : List String → Language → Locale → Prop) : Prop where
  reported {store : Store} (diagnostics : List Diagnostic) (sound : Sound store) :
    Sound (store.reportAll diagnostics)
  loaded {store : Store} (key : Key) (sound : Sound store) : Sound (env.resource key store).2
  built {store : Store} (link : Link) (resources : List String) (sound : Sound store) :
    Fit resources link.language (link.buildLocale env resources store).1

structure Upheld (Sound : Store → Prop) (Fit : List String → Language → Locale → Prop)
    (before : Context) (after : Context × Store) : Prop where
  plan : after.1.plan = before.plan
  holds : after.1.Holds Fit
  sound : Sound after.2

structure Session.Holds (Sound : Store → Prop) (Fit : List String → Language → Locale → Prop)
    (session : Session) : Prop where
  sound : Sound session.store
  holds : ∀ name context, session.context? name = some context → context.Holds Fit

namespace Upkeep

variable {env : Environment} {Sound : Store → Prop}
  {Fit : List String → Language → Locale → Prop} (upkeep : Upkeep env Sound Fit)
  {store : Store} {context : Context}

include upkeep

theorem resources (language : String) (names : List String) (sound : Sound store) :
    Sound (env.resources language names store).2 := by
  induction names generalizing store with
  | nil => exact sound
  | cons name names ih => exact ih (upkeep.loaded ⟨name, language⟩ sound)

theorem locale {link : Link} {resources : List String} (sound : Sound store)
    (holds : link.Holds Fit resources) :
    Fit resources link.language (link.locale env resources store).1 ∧
      Sound (link.locale env resources store).2 := by
  cases built : link.locale? with
  | some kept =>
      simp only [Link.locale, built]
      exact ⟨holds kept built, sound⟩
  | none =>
      simp only [Link.locale, built]
      exact ⟨upkeep.built link resources sound,
        upkeep.resources link.language.code resources sound⟩

theorem walk {resources : List String} {arguments : Arguments} {id : String} {needsValue : Bool}
    {salvage? : Option Found} {links : List Link} (sound : Sound store)
    (holds : ∀ link ∈ links, link.Holds Fit resources) :
    (∀ link ∈ (walk env resources arguments id needsValue salvage? links store).2.1,
        link.Holds Fit resources) ∧
      Sound (walk env resources arguments id needsValue salvage? links store).2.2 := by
  induction links generalizing salvage? store with
  | nil => exact ⟨holds, sound⟩
  | cons link links ih =>
      obtain ⟨here, later⟩ := List.forall_mem_cons.mp holds
      obtain ⟨fit, soundAfter⟩ := upkeep.locale sound here
      have kept : Link.Holds Fit resources
          { link with locale? := some (link.locale env resources store).1 } := by
        rintro locale ⟨⟩
        exact fit
      simp only [Phrasebook.walk]
      cases (link.locale env resources store).1.judge arguments id needsValue salvage? with
      | ends found => exact ⟨List.forall_mem_cons.mpr ⟨kept, later⟩, soundAfter⟩
      | passes salvage? detail =>
          obtain ⟨keptLater, soundAtEnd⟩ := ih (upkeep.reported [detail] soundAfter) later
          exact ⟨List.forall_mem_cons.mpr ⟨kept, keptLater⟩, soundAtEnd⟩

theorem ready (sound : Sound store) (holds : context.Holds Fit) :
    Upheld Sound Fit context (context.ready env store).2 := by
  obtain ⟨resources, chain⟩ := context
  cases chain with
  | nil => exact ⟨rfl, holds, sound⟩
  | cons link links =>
      obtain ⟨here, later⟩ := List.forall_mem_cons.mp holds
      obtain ⟨fit, soundAfter⟩ := upkeep.locale sound here
      refine ⟨rfl, List.forall_mem_cons.mpr ⟨?_, later⟩, soundAfter⟩
      rintro locale ⟨⟩
      exact fit

theorem find {arguments : Arguments} {id : String} (needsValue : Bool) (sound : Sound store)
    (holds : context.Holds Fit) :
    Upheld Sound Fit context (context.find env arguments id needsValue store).2 := by
  obtain ⟨resources, chain⟩ := context
  cases chain with
  | nil => exact ⟨rfl, holds, sound⟩
  | cons link links =>
      obtain ⟨kept, soundAfter⟩ := upkeep.walk sound holds
      refine ⟨?_, kept, soundAfter⟩
      simp only [Context.find, Context.plan, Context.languages, walk_links, Link.fill_languages]

theorem resolveValue {id : String} {arguments : Arguments} (sound : Sound store)
    (holds : context.Holds Fit) :
    Upheld Sound Fit context (context.resolveValue env id arguments store).2 :=
  upkeep.find true sound holds

theorem resolveEntity {id : String} {arguments : Arguments} (sound : Sound store)
    (holds : context.Holds Fit) :
    Upheld Sound Fit context (context.resolveEntity env id arguments store).2 := by
  have upheld : Upheld Sound Fit context (context.find env arguments id false store).2 :=
    upkeep.find false sound holds
  unfold Context.resolveEntity
  generalize context.find env arguments id false store = outcome at upheld ⊢
  obtain ⟨_ | found, after, storeAfter⟩ := outcome
  · exact upheld
  · exact ⟨upheld.plan, upheld.holds, upkeep.reported _ upheld.sound⟩

theorem resolveValues (requests : List (String × Arguments)) (sound : Sound store)
    (holds : context.Holds Fit) :
    Upheld Sound Fit context (context.resolveValues env requests store).2 := by
  induction requests generalizing context store with
  | nil => exact ⟨rfl, holds, sound⟩
  | cons request requests ih =>
      obtain ⟨id, arguments⟩ := request
      have upheld : Upheld Sound Fit context (context.resolveValue env id arguments store).2 :=
        upkeep.resolveValue sound holds
      unfold Context.resolveValues
      generalize context.resolveValue env id arguments store = outcome at upheld ⊢
      obtain ⟨_ | rendering, after, storeAfter⟩ := outcome
      · exact upheld
      · have later := ih upheld.sound upheld.holds
        exact ⟨later.plan.trans upheld.plan, later.holds, later.sound⟩

theorem ask {query : Query} (sound : Sound store) (holds : context.Holds Fit) :
    Upheld Sound Fit context (query.ask env context store).2 := by
  cases query with
  | ready name => exact upkeep.ready sound holds
  | value name id arguments => exact upkeep.resolveValue sound holds
  | entity name id arguments => exact upkeep.resolveEntity sound holds
  | values name requests => exact upkeep.resolveValues requests sound holds

end Upkeep

/-- The locales that a context has or would be given. -/
theorem Upkeep.locales_fit {env : Environment} {Sound : Store → Prop}
    {Fit : List String → Language → Locale → Prop} {store : Store} {context : Context}
    (upkeep : Upkeep env Sound Fit) (sound : Sound store) (holds : context.Holds Fit) :
    List.Forall₂ (Fit context.resources) context.languages (context.locales env store) := by
  obtain ⟨resources, links⟩ := context
  simp only [Context.locales, Context.languages]
  induction links generalizing store with
  | nil => exact .nil
  | cons link links ih =>
      obtain ⟨here, later⟩ := List.forall_mem_cons.mp holds
      obtain ⟨fit, soundAfter⟩ := upkeep.locale sound here
      exact .cons fit (ih soundAfter later)

theorem Upkeep.locales {β : Type} {view : Locale → β} {expected : List String → Language → β}
    {env : Environment} {Sound : Store → Prop} {store : Store} {context : Context}
    (upkeep : Upkeep env Sound fun resources language locale =>
      view locale = expected resources language)
    (sound : Sound store)
    (holds : context.Holds fun resources language locale =>
      view locale = expected resources language) :
    (context.locales env store).map view = context.languages.map (expected context.resources) := by
  have fit := upkeep.locales_fit sound holds
  rw [← List.forall₂_eq_eq_eq, List.forall₂_map_left_iff, List.forall₂_map_right_iff]
  exact fit.flip

namespace Session

variable {session : Session}

theorem context?_setContext (session : Session) (name other : String) (context : Context) :
    (session.setContext name context).context? other =
      if other = name then some context else session.context? other :=
  Table.find?_insert name other context session.contexts

theorem context?_setContext_self (session : Session) (name : String) (context : Context) :
    (session.setContext name context).context? name = some context :=
  Table.find?_insert_self name context session.contexts

theorem Holds.setContext {Sound : Store → Prop} {Fit : List String → Language → Locale → Prop}
    {name : String} {context : Context} (sessionHolds : session.Holds Sound Fit)
    (contextHolds : context.Holds Fit) : (session.setContext name context).Holds Sound Fit := by
  refine ⟨sessionHolds.sound, ?_⟩
  intro other found known
  rw [context?_setContext] at known
  split at known
  · cases known
    exact contextHolds
  · exact sessionHolds.holds other found known

theorem Holds.withStore {Sound : Store → Prop} {Fit : List String → Language → Locale → Prop}
    {store : Store} (sessionHolds : session.Holds Sound Fit) (sound : Sound store) :
    Session.Holds Sound Fit { session with store := store } :=
  ⟨sound, sessionHolds.holds⟩

theorem ask_of_known {query : Query} {context : Context}
    (known : session.context? query.context = some context) :
    session.ask query =
      ((query.ask session.env context session.store).1,
        { session.setContext query.context (query.ask session.env context session.store).2.1 with
          store := (query.ask session.env context session.store).2.2 }) := by
  simp only [ask, known]

theorem ask_env (session : Session) (query : Query) :
    (session.ask query).2.env = session.env := by
  cases known : session.context? query.context with
  | none => simp only [ask, known]
  | some context =>
      rw [ask_of_known known]
      rfl

theorem askAll_env (session : Session) (queries : List Query) :
    (session.askAll queries).2.env = session.env := by
  induction queries generalizing session with
  | nil => rfl
  | cons query queries ih => exact (ih (session.ask query).2).trans (ask_env session query)

theorem request_env (session : Session) (name : String) (languages : List String) :
    (session.request name languages).2.env = session.env := by
  unfold request
  cases session.context? name with
  | none => rfl
  | some context =>
      simp only
      cases context.request session.env languages <;> rfl

theorem perform_env (session : Session) (step : Step) :
    (session.perform step).2.env = session.env := by
  cases step with
  | request name languages => exact request_env session name languages
  | query query => exact ask_env session query
  | parallel queries => exact askAll_env session queries
  | info name =>
      simp only [perform]
      cases session.context? name <;> rfl
  | _ => rfl

theorem step_env (session : Session) (step : Step) :
    (session.step step).2.env = session.env :=
  perform_env session step

end Session

theorem Context.request_holds {Fit : List String → Language → Locale → Prop} {env : Environment}
    {context after : Context} {requested : List String}
    (accepted : context.request env requested = .ok after) : after.Holds Fit := by
  unfold Context.request at accepted
  cases negotiated : negotiate env.defaultLanguage env.available requested with
  | error failure => simp [negotiated, Except.map] at accepted
  | ok codes =>
      simp only [negotiated, Except.map, Except.ok.injEq] at accepted
      subst accepted
      intro link member locale built
      obtain ⟨code, -, rfl⟩ := List.mem_map.mp member
      cases built

namespace Upkeep

variable {session : Session} {Sound : Store → Prop}
  {Fit : List String → Language → Locale → Prop} (upkeep : Upkeep session.env Sound Fit)

include upkeep

theorem session_ask (query : Query) (holds : session.Holds Sound Fit) :
    (session.ask query).2.Holds Sound Fit := by
  unfold Session.ask
  cases known : session.context? query.context with
  | none => exact holds
  | some context =>
      have upheld : Upheld Sound Fit context (query.ask session.env context session.store).2 :=
        upkeep.ask holds.sound (holds.holds _ _ known)
      exact (holds.setContext upheld.holds).withStore upheld.sound

theorem session_askAll (queries : List Query) (holds : session.Holds Sound Fit) :
    (session.askAll queries).2.Holds Sound Fit := by
  induction queries generalizing session with
  | nil => exact holds
  | cons query queries ih =>
      have upkeepAfter : Upkeep (session.ask query).2.env Sound Fit := by
        rw [Session.ask_env]
        exact upkeep
      exact ih upkeepAfter (upkeep.session_ask query holds)

/-- Only changing the sources and forgetting what was loaded have to be looked at apart. -/
theorem perform (step : Step) (holds : session.Holds Sound Fit)
    (invalidated : step = .invalidate → Sound session.store.invalidate)
    (changed : ∀ change, step = .source change →
      Sound { session.store with sources := change.apply session.store.sources }) :
    (session.perform step).2.Holds Sound Fit := by
  cases step with
  | context name resources => exact holds.setContext nofun
  | drop name =>
      refine ⟨holds.sound, ?_⟩
      intro other context known
      simp only [Session.perform, Session.context?, Table.find?_erase] at known
      split at known
      · cases known
      · exact holds.holds other context known
  | request name languages =>
      simp only [Session.perform, Session.request]
      cases session.context? name with
      | none => exact holds
      | some context =>
          simp only
          cases accepted : context.request session.env languages with
          | error failure => exact holds
          | ok after => exact holds.setContext (Context.request_holds accepted)
  | query query => exact upkeep.session_ask query holds
  | parallel queries => exact upkeep.session_askAll queries holds
  | info name =>
      simp only [Session.perform]
      cases session.context? name <;> exact holds
  | invalidate => exact holds.withStore (invalidated rfl)
  | source change => exact holds.withStore (changed change rfl)
  | resource key => exact holds.withStore (upkeep.loaded key holds.sound)
  | pluralLanguage language => exact holds
  | environment => exact holds
  | subscribe => exact ⟨holds.sound, holds.holds⟩
  | drain => exact holds

end Upkeep

namespace Session

inductive Reachable : Session → Prop
  | opened (env : Environment) (sources : Sources) (capacity : Nat) (manualDrain : Bool) :
      Reachable (.opened env sources capacity manualDrain)
  | step {session : Session} (step : Step) (reached : Reachable session) :
      Reachable (session.step step).2

theorem Reachable.run {session : Session} (reached : session.Reachable) (steps : List Step) :
    (session.run steps).2.Reachable := by
  induction steps generalizing session with
  | nil => exact reached
  | cons step steps ih => exact ih (.step step reached)

theorem Reachable.cleared {session : Session} (reached : session.Reachable) :
    session.store.cleared = session.store := by
  cases reached <;> rfl

theorem opened_holds {Sound : Store → Prop} {Fit : List String → Language → Locale → Prop}
    {env : Environment} {sources : Sources} (capacity : Nat) (manualDrain : Bool)
    (sound : Sound { sources := sources }) :
    (opened env sources capacity manualDrain).Holds Sound Fit :=
  ⟨sound, nofun⟩

/-- What holds of a store without cached loads, whatever else is changed in it, and is upheld by
queries, holds of every session with its locales. -/
theorem Reachable.upheld {Sound : Environment → Store → Prop}
    {Fit : List String → Language → Locale → Prop} (upkeep : ∀ env, Upkeep env (Sound env) Fit)
    (fresh : ∀ env (store : Store), store.cache = [] → Sound env store)
    (cached : ∀ env (store other : Store), other.cache = store.cache → Sound env store →
      Sound env other)
    {session : Session} (reached : session.Reachable) :
    session.Holds (Sound session.env) Fit := by
  induction reached with
  | opened env sources capacity manualDrain =>
      exact opened_holds capacity manualDrain (fresh env _ rfl)
  | @step session step _ ih =>
      have after := (upkeep session.env).perform step ih (fun _ => fresh _ _ rfl)
        (fun _ _ => cached _ session.store _ rfl ih.sound)
      rw [step_env]
      exact ⟨cached _ (session.perform step).2.store _ rfl after.sound, after.holds⟩

theorem Reachable.holds {Fit : List String → Language → Locale → Prop}
    (built : ∀ (env : Environment) (store : Store) (link : Link) (resources : List String),
      Fit resources link.language (link.buildLocale env resources store).1)
    {session : Session} (reached : session.Reachable) : session.Holds (fun _ => True) Fit :=
  have upkeep : ∀ env, Upkeep env (fun _ => True) Fit := fun env =>
    ⟨fun _ _ => trivial, fun _ _ => trivial, fun link resources _ => built env _ link resources⟩
  reached.upheld upkeep (fun _ _ _ => trivial) fun _ _ _ _ _ => trivial

end Session

/-- In the language of its place, and with a slot for each resource. -/
def Locale.Suits (resources : List String) (language : Language) (locale : Locale) : Prop :=
  locale.language = language ∧ locale.resources.map Prod.fst = resources

theorem Locale.suits_upkeep (env : Environment) : Upkeep env (fun _ => True) Locale.Suits where
  reported _ _ := trivial
  loaded _ _ := trivial
  built {store} link resources _ := by
    have slots : (link.buildLocale env resources store).1.resources =
        (env.resources link.language.code resources store).1 := rfl
    refine ⟨rfl, ?_⟩
    rw [slots, env.resources_eq, List.map_map]
    exact List.map_id resources

namespace Session

variable {session : Session} {name : String} {context : Context}

theorem Reachable.suits (reached : session.Reachable) :
    session.Holds (fun _ => True) Locale.Suits :=
  reached.holds fun env _ link resources => (Locale.suits_upkeep env).built link resources trivial

theorem Holds.locales_languages (holds : session.Holds (fun _ => True) Locale.Suits)
    (known : session.context? name = some context) :
    (context.locales session.env session.store).map Locale.language = context.languages := by
  have fits : List.Forall₂ (Locale.Suits context.resources) context.languages
      (context.locales session.env session.store) :=
    (Locale.suits_upkeep session.env).locales_fit trivial (holds.holds name context known)
  rw [← List.forall₂_eq_eq_eq, List.forall₂_map_left_iff]
  exact List.Forall₂.flip (fits.imp fun _ _ suits => suits.1)

theorem Reachable.locales_languages (reached : session.Reachable)
    (known : session.context? name = some context) :
    (context.locales session.env session.store).map Locale.language = context.languages :=
  reached.suits.locales_languages known

end Session

/-- A leaflet of plain lines that there is in the default language only. -/
def Environment.leaflet : Environment where
  defaultLanguage := "en"
  available := ["de", "en"]
  registry := [("txt", Resource.parseLines)]

def Sources.leaflet : Sources where
  texts := [(⟨"leaflet.txt", "en"⟩, "Open\nDear \x7b\x7b you \x7d\x7d")]

end Phrasebook
