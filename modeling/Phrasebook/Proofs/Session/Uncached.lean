import Phrasebook.Proofs.Session.Upkeep

/-! Sessions without a cache: every call reads all it needs straight from the sources. -/

namespace Phrasebook

/-- A resource straight from the sources, made from that of the default language for a pseudo-locale
that is not shipped. -/
def Environment.direct (env : Environment) (sources : Sources) (key : Key) : Loaded :=
  match env.derivedPseudo? key.language with
  | none => env.read sources key
  | some pseudo => (env.read sources ⟨key.resource, env.defaultLanguage⟩).map pseudo.transform

def Locale.direct (env : Environment) (sources : Sources) (resources : List String)
    (language : Language) : Locale where
  language := language
  pluralLanguage := env.pluralLanguage language.code
  resources := resources.map fun name => (name, env.direct sources ⟨name, language.code⟩)

def Locale.IsDirect (env : Environment) (sources : Sources) (resources : List String)
    (language : Language) (locale : Locale) : Prop :=
  locale = Locale.direct env sources resources language

/-- What is kept is what the sources give. -/
structure Store.Faithful (env : Environment) (sources : Sources) (store : Store) : Prop where
  unchanged : store.sources = sources
  kept : ∀ key loaded, store.loaded? key = some loaded → loaded = env.direct sources key

namespace Store.Faithful

variable {env : Environment} {sources : Sources} {store after : Store} {key : Key}

theorem extend (faithful : store.Faithful env sources) (sameSources : after.sources = store.sources)
    (cached : after.cache = (key, env.direct sources key) :: store.cache) :
    after.Faithful env sources := by
  refine ⟨sameSources.trans faithful.unchanged, ?_⟩
  intro other loaded found
  simp only [loaded?, cached, List.lookup_cons] at found
  split at found
  · rename_i same
    cases found
    rw [eq_of_beq same]
  · exact faithful.kept other loaded found

theorem afterReading (plain : env.derivedPseudo? key.language = none)
    (faithful : store.Faithful env sources) :
    env.read store.sources key = env.direct sources key ∧
      (env.afterReading key store).Faithful env sources := by
  have direct : env.read store.sources key = env.direct sources key := by
    simp [Environment.direct, plain, faithful.unchanged]
  exact ⟨direct, faithful.extend rfl (by rw [← direct]; rfl)⟩

theorem noteLoad (faithful : store.Faithful env sources) {loaded : Loaded}
    (found : store.loaded? key = some loaded) :
    loaded = env.direct sources key ∧ (store.noteLoad key loaded).Faithful env sources :=
  ⟨faithful.kept key loaded found, faithful.unchanged, faithful.kept⟩

theorem shipped (plain : env.derivedPseudo? key.language = none)
    (faithful : store.Faithful env sources) :
    (env.shipped key store).1 = env.direct sources key ∧
      (env.shipped key store).2.Faithful env sources := by
  obtain ⟨loaded, found, same⟩ | ⟨-, same⟩ := env.shipped_cases key store
  · rw [same]
    exact faithful.noteLoad found
  · rw [same]
    exact faithful.afterReading plain

theorem resource (shippedDefault : env.derivedPseudo? env.defaultLanguage = none)
    (faithful : store.Faithful env sources) (key : Key) :
    (env.resource key store).1 = env.direct sources key ∧
      (env.resource key store).2.Faithful env sources := by
  obtain ⟨loaded, found, same⟩ | ⟨plain, -, same⟩ | ⟨pseudo, derived, -, same⟩ :=
    env.resource_cases key store
  · rw [same]
    exact faithful.noteLoad found
  · rw [same]
    exact faithful.afterReading plain
  · have basePlain : env.derivedPseudo? (env.basis key).language = none :=
      Environment.derivedPseudo?_pluralLanguage shippedDefault key.language
    obtain ⟨base, faithfulAfter⟩ := faithful.shipped basePlain
    have direct : env.direct sources key =
        (env.shipped (env.basis key) store).1.map pseudo.transform := by
      rw [base, Environment.basis_of_derived derived]
      simp only [Environment.direct, derived, shippedDefault]
    rw [same, ← direct]
    exact ⟨rfl, faithfulAfter.extend rfl rfl⟩

theorem resources (shippedDefault : env.derivedPseudo? env.defaultLanguage = none)
    (faithful : store.Faithful env sources) (language : String) (names : List String) :
    (env.resources language names store).1 =
      names.map fun name => (name, env.direct sources ⟨name, language⟩) := by
  induction names generalizing store with
  | nil => rfl
  | cons name names ih =>
      obtain ⟨direct, faithfulAfter⟩ := faithful.resource shippedDefault ⟨name, language⟩
      simp only [Environment.resources, List.map_cons, direct, ih faithfulAfter]

theorem upkeep (shippedDefault : env.derivedPseudo? env.defaultLanguage = none)
    (sources : Sources) :
    Upkeep env (Store.Faithful env sources) (Locale.IsDirect env sources) where
  reported _ faithful := ⟨faithful.unchanged, faithful.kept⟩
  loaded key faithful := (faithful.resource shippedDefault key).2
  built link resources faithful := by
    simp only [Locale.IsDirect, Link.buildLocale, Locale.direct,
      faithful.resources shippedDefault link.language.code resources]

end Store.Faithful

namespace Plan

variable (plan : Plan) (env : Environment) (sources : Sources)

def locales : List Locale :=
  plan.languages.map (Locale.direct env sources plan.resources)

def find (arguments : Arguments) (id : String) (needsValue : Bool) :
    Except RequestFailure Found :=
  if plan.languages = [] then .error .notRequested
  else .ok (search arguments id needsValue none (plan.locales env sources))

def ready : Except RequestFailure Unit :=
  if plan.languages = [] then .error .notRequested else .ok ()

def value (id : String) (arguments : Arguments) : Except RequestFailure Rendering :=
  (plan.find env sources arguments id true).map (Context.renderingOf id)

def entity (id : String) (arguments : Arguments) : Except RequestFailure Entity :=
  (plan.find env sources arguments id false).map fun found =>
    (Context.entityOf id arguments found).1

def values : List (String × Arguments) → Except RequestFailure (List Rendering)
  | [] => .ok []
  | (id, arguments) :: requests =>
      match plan.value env sources id arguments with
      | .error failure => .error failure
      | .ok rendering => (values requests).map (rendering :: ·)

def answer : Query → Reply
  | .ready _ => .ofResult (fun _ => .nothing) plan.ready
  | .value _ id arguments => .ofResult .rendering (plan.value env sources id arguments)
  | .entity _ id arguments => .ofResult .entity (plan.entity env sources id arguments)
  | .values _ requests => .ofResult .renderings (plan.values env sources requests)

end Plan

section Answer

variable {env : Environment} {sources : Sources}
  (shippedDefault : env.derivedPseudo? env.defaultLanguage = none)
  {context : Context} {store : Store}

include shippedDefault

namespace Context

theorem locales_direct (faithful : store.Faithful env sources)
    (holds : context.Holds (Locale.IsDirect env sources)) :
    context.locales env store = context.plan.locales env sources := by
  have viewed : (context.locales env store).map id = context.plan.locales env sources :=
    Upkeep.locales (Store.Faithful.upkeep shippedDefault sources) faithful holds
  simpa using viewed

theorem find_direct (arguments : Arguments) (id : String) (needsValue : Bool)
    (faithful : store.Faithful env sources)
    (holds : context.Holds (Locale.IsDirect env sources)) :
    (context.find env arguments id needsValue store).1 =
      context.plan.find env sources arguments id needsValue := by
  by_cases unrequested : context.chain = []
  · obtain ⟨resources, chain⟩ := context
    cases unrequested
    rfl
  · have languages : context.plan.languages ≠ [] := by
      simpa [plan, Context.languages] using unrequested
    rw [find_of_requested unrequested, locales_direct shippedDefault faithful holds, Plan.find,
      if_neg languages]

theorem resolveValue_direct (id : String) (arguments : Arguments)
    (faithful : store.Faithful env sources)
    (holds : context.Holds (Locale.IsDirect env sources)) :
    (context.resolveValue env id arguments store).1 =
      context.plan.value env sources id arguments :=
  congrArg (Except.map (renderingOf id))
    (find_direct shippedDefault arguments id true faithful holds)

theorem resolveEntity_direct (id : String) (arguments : Arguments)
    (faithful : store.Faithful env sources)
    (holds : context.Holds (Locale.IsDirect env sources)) :
    (context.resolveEntity env id arguments store).1 =
      context.plan.entity env sources id arguments := by
  unfold resolveEntity Plan.entity
  rw [← find_direct shippedDefault arguments id false faithful holds]
  rcases context.find env arguments id false store with ⟨_ | found, after, storeAfter⟩ <;> rfl

theorem resolveValues_direct (requests : List (String × Arguments))
    (faithful : store.Faithful env sources)
    (holds : context.Holds (Locale.IsDirect env sources)) :
    (context.resolveValues env requests store).1 =
      context.plan.values env sources requests := by
  induction requests generalizing context store with
  | nil => rfl
  | cons request requests ih =>
      obtain ⟨id, arguments⟩ := request
      have upheld : Upheld (Store.Faithful env sources) (Locale.IsDirect env sources) context
          (context.resolveValue env id arguments store).2 :=
        (Store.Faithful.upkeep shippedDefault sources).resolveValue faithful holds
      have first := resolveValue_direct shippedDefault id arguments faithful holds
      unfold resolveValues Plan.values
      rw [← first]
      generalize context.resolveValue env id arguments store = outcome at upheld ⊢
      obtain ⟨_ | rendering, after, storeAfter⟩ := outcome
      · rfl
      · have rest := ih upheld.sound upheld.holds
        rw [upheld.plan] at rest
        simp only [rest]

end Context

theorem Query.ask_direct (query : Query) (faithful : store.Faithful env sources)
    (holds : context.Holds (Locale.IsDirect env sources)) :
    (query.ask env context store).1 = context.plan.answer env sources query := by
  cases query with
  | ready name =>
      obtain ⟨resources, chain⟩ := context
      cases chain <;> rfl
  | value name id arguments =>
      exact congrArg (Reply.ofResult .rendering)
        (Context.resolveValue_direct shippedDefault id arguments faithful holds)
  | entity name id arguments =>
      exact congrArg (Reply.ofResult .entity)
        (Context.resolveEntity_direct shippedDefault id arguments faithful holds)
  | values name requests =>
      exact congrArg (Reply.ofResult .renderings)
        (Context.resolveValues_direct shippedDefault requests faithful holds)

end Answer

/-- Steps that leave the sources as they are and do not ask what has been built. -/
def Step.Steady : Step → Prop
  | .source _ => False
  | .info _ => False
  | _ => True

/-- A session that keeps no more than what its contexts were asked for. -/
structure Uncached where
  env : Environment
  sources : Sources
  plans : Table Plan := []

namespace Uncached

def plan? (uncached : Uncached) (name : String) : Option Plan :=
  uncached.plans.find? name

def setPlan (uncached : Uncached) (name : String) (plan : Plan) : Uncached :=
  { uncached with plans := Table.insert name plan uncached.plans }

def ask (uncached : Uncached) (query : Query) : Reply :=
  match uncached.plan? query.context with
  | none => .noContext query.context
  | some plan => plan.answer uncached.env uncached.sources query

def request (uncached : Uncached) (name : String) (requested : List String) : Reply × Uncached :=
  match uncached.plan? name with
  | none => (.noContext name, uncached)
  | some plan =>
      match negotiate uncached.env.defaultLanguage uncached.env.available requested with
      | .error failure => (.failed failure, uncached)
      | .ok codes =>
          let languages := codes.map Language.ofCode
          (.languages languages, uncached.setPlan name { plan with languages := languages })

/-- Only asked of steady steps. -/
def perform (uncached : Uncached) : Step → Reply × Uncached
  | .context name resources => (.progress .unrequested, uncached.setPlan name ⟨resources, []⟩)
  | .drop name =>
      (.existed (uncached.plan? name).isSome,
        { uncached with plans := Table.erase name uncached.plans })
  | .request name languages => uncached.request name languages
  | .query query => (uncached.ask query, uncached)
  | .parallel queries => (.all (queries.map uncached.ask), uncached)
  | .resource key => (.loaded (uncached.env.direct uncached.sources key), uncached)
  | .pluralLanguage language => (.language (uncached.env.pluralLanguage language), uncached)
  | .environment =>
      (.environment uncached.env.defaultLanguage uncached.env.available, uncached)
  | _ => (.nothing, uncached)

def run (uncached : Uncached) : List Step → List Reply × Uncached
  | [] => ([], uncached)
  | first :: rest =>
      let (reply, uncached) := uncached.perform first
      let (replies, uncached) := uncached.run rest
      (reply :: replies, uncached)

def SamePlans (uncached : Uncached) (session : Session) : Prop :=
  ∀ name, (session.context? name).map Context.plan = uncached.plan? name

structure Mirrored (uncached : Uncached) (session : Session) : Prop where
  env : session.env = uncached.env
  plans : uncached.SamePlans session
  holds : session.Holds (Store.Faithful uncached.env uncached.sources)
    (Locale.IsDirect uncached.env uncached.sources)

theorem plan?_setPlan (uncached : Uncached) (name other : String) (plan : Plan) :
    (uncached.setPlan name plan).plan? other =
      if other = name then some plan else uncached.plan? other :=
  Table.find?_insert name other plan uncached.plans

section Mirrored

variable {uncached : Uncached} {session : Session}

theorem Mirrored.opened (env : Environment) (sources : Sources) (capacity : Nat)
    (manualDrain : Bool) :
    Mirrored { env := env, sources := sources }
      (.opened env sources capacity manualDrain) :=
  ⟨rfl, fun _ => rfl, Session.opened_holds capacity manualDrain ⟨rfl, nofun⟩⟩

theorem SamePlans.setContext (same : uncached.SamePlans session) (name : String)
    (context : Context) :
    (uncached.setPlan name context.plan).SamePlans (session.setContext name context) := by
  intro other
  rw [Session.context?_setContext, plan?_setPlan, ← same other]
  split <;> rfl

theorem SamePlans.exchange (same : uncached.SamePlans session) {name : String} {context : Context}
    (known : uncached.plan? name = some context.plan) :
    uncached.SamePlans (session.setContext name context) := by
  intro other
  rw [same.setContext name context other, plan?_setPlan]
  split
  · rename_i here
    rw [here, known]
  · rfl

variable (shippedDefault : uncached.env.derivedPseudo? uncached.env.defaultLanguage = none)

include shippedDefault

theorem Mirrored.ask (mirrored : uncached.Mirrored session) (query : Query) :
    (session.ask query).1 = uncached.ask query ∧ uncached.Mirrored (session.ask query).2 := by
  have plan := mirrored.plans query.context
  cases known : session.context? query.context with
  | none =>
      rw [known] at plan
      simp only [Session.ask, known, Uncached.ask, ← plan, Option.map_none]
      exact ⟨trivial, mirrored⟩
  | some context =>
      rw [known] at plan
      have sound := mirrored.holds.sound
      have holds := mirrored.holds.holds _ _ known
      have upheld : Upheld (Store.Faithful uncached.env uncached.sources)
          (Locale.IsDirect uncached.env uncached.sources) context
          (query.ask uncached.env context session.store).2 :=
        (Store.Faithful.upkeep shippedDefault uncached.sources).ask sound holds
      rw [Session.ask_of_known known, mirrored.env, query.ask_direct shippedDefault sound holds]
      simp only [Uncached.ask, ← plan, Option.map_some]
      have known : uncached.plan? query.context =
          some (query.ask uncached.env context session.store).2.1.plan := by
        rw [← plan, upheld.plan]
        rfl
      exact ⟨trivial, mirrored.env, mirrored.plans.exchange known,
        (mirrored.holds.setContext upheld.holds).withStore upheld.sound⟩

theorem Mirrored.askAll (mirrored : uncached.Mirrored session) (queries : List Query) :
    (session.askAll queries).1 = queries.map uncached.ask ∧
      uncached.Mirrored (session.askAll queries).2 := by
  induction queries generalizing session with
  | nil => exact ⟨rfl, mirrored⟩
  | cons query queries ih =>
      obtain ⟨reply, mirroredAfter⟩ := mirrored.ask shippedDefault query
      obtain ⟨replies, mirroredAtEnd⟩ := ih mirroredAfter
      exact ⟨by simp only [Session.askAll, List.map_cons, reply, replies], mirroredAtEnd⟩

omit shippedDefault in
theorem Mirrored.request (mirrored : uncached.Mirrored session) (name : String)
    (requested : List String) :
    (session.request name requested).1 = (uncached.request name requested).1 ∧
      (uncached.request name requested).2.Mirrored (session.request name requested).2 := by
  have plan := mirrored.plans name
  cases known : session.context? name with
  | none =>
      rw [known] at plan
      simp only [Session.request, Uncached.request, known, ← plan, Option.map_none]
      exact ⟨trivial, mirrored⟩
  | some context =>
      rw [known] at plan
      cases negotiated :
          negotiate uncached.env.defaultLanguage uncached.env.available requested with
      | error failure =>
          have refused : context.request session.env requested = .error failure := by
            rw [mirrored.env, Context.request, negotiated]
            rfl
          simp only [Session.request, Uncached.request, known, ← plan, Option.map_some, refused,
            negotiated]
          exact ⟨trivial, mirrored⟩
      | ok codes =>
          let after : Context :=
            { context with chain := codes.map fun code => { language := .ofCode code } }
          have accepted : context.request session.env requested = .ok after := by
            rw [mirrored.env, Context.request, negotiated]
            rfl
          have languages : after.languages = codes.map Language.ofCode := by
            simp [after, Context.languages]
          have planAfter :
              after.plan = { context.plan with languages := codes.map Language.ofCode } :=
            congrArg (Plan.mk context.resources) languages
          simp only [Session.request, Uncached.request, known, ← plan, Option.map_some, accepted,
            negotiated, languages, ← planAfter]
          exact ⟨trivial, mirrored.env, mirrored.plans.setContext name after,
            mirrored.holds.setContext (Context.request_holds accepted)⟩

theorem Mirrored.perform (mirrored : uncached.Mirrored session) (step : Step)
    (steady : step.Steady) :
    (session.perform step).1 = (uncached.perform step).1 ∧
      (uncached.perform step).2.Mirrored (session.perform step).2 := by
  have upkeep : Upkeep session.env (Store.Faithful uncached.env uncached.sources)
      (Locale.IsDirect uncached.env uncached.sources) := by
    rw [mirrored.env]
    exact Store.Faithful.upkeep shippedDefault uncached.sources
  have holds : (session.perform step).2.Holds (Store.Faithful uncached.env uncached.sources)
      (Locale.IsDirect uncached.env uncached.sources) := by
    refine upkeep.perform step mirrored.holds ?_ ?_
    · exact fun _ => ⟨mirrored.holds.sound.unchanged, nofun⟩
    · rintro change rfl
      exact steady.elim
  cases step with
  | context name resources =>
      exact ⟨rfl, mirrored.env, mirrored.plans.setContext name { resources := resources }, holds⟩
  | drop name =>
      refine ⟨?_, mirrored.env, ?_, holds⟩
      · simp only [Session.perform, Uncached.perform, ← mirrored.plans name, Option.isSome_map]
      · intro other
        simp only [Session.perform, Uncached.perform, Session.context?, plan?, Table.find?_erase]
        split
        · rfl
        · exact mirrored.plans other
  | request name requested => exact mirrored.request name requested
  | query query => exact mirrored.ask shippedDefault query
  | parallel queries =>
      obtain ⟨replies, mirroredAfter⟩ := mirrored.askAll shippedDefault queries
      exact ⟨congrArg Reply.all replies, mirroredAfter⟩
  | info name => exact steady.elim
  | invalidate => exact ⟨rfl, mirrored.env, mirrored.plans, holds⟩
  | source change => exact steady.elim
  | resource key =>
      obtain ⟨direct, -⟩ := mirrored.holds.sound.resource shippedDefault key
      refine ⟨?_, mirrored.env, mirrored.plans, holds⟩
      simp only [Session.perform, Uncached.perform, mirrored.env, direct]
  | pluralLanguage language =>
      simp only [Session.perform, Uncached.perform, mirrored.env]
      exact ⟨trivial, mirrored⟩
  | environment =>
      simp only [Session.perform, Uncached.perform, mirrored.env]
      exact ⟨trivial, mirrored⟩
  | subscribe => exact ⟨rfl, mirrored.env, mirrored.plans, holds⟩
  | drain => exact ⟨rfl, mirrored⟩

omit shippedDefault in
theorem perform_env (uncached : Uncached) (step : Step) :
    (uncached.perform step).2.env = uncached.env ∧
      (uncached.perform step).2.sources = uncached.sources := by
  cases step with
  | request name requested =>
      simp only [perform, request]
      cases uncached.plan? name with
      | none => exact ⟨rfl, rfl⟩
      | some plan =>
          simp only
          cases negotiate uncached.env.defaultLanguage uncached.env.available requested <;>
            exact ⟨rfl, rfl⟩
  | _ => exact ⟨rfl, rfl⟩

omit shippedDefault in
theorem run_env (uncached : Uncached) (steps : List Step) :
    (uncached.run steps).2.env = uncached.env ∧
      (uncached.run steps).2.sources = uncached.sources := by
  induction steps generalizing uncached with
  | nil => exact ⟨rfl, rfl⟩
  | cons step steps ih =>
      obtain ⟨firstEnv, firstSources⟩ := perform_env uncached step
      obtain ⟨laterEnv, laterSources⟩ := ih (uncached.perform step).2
      exact ⟨laterEnv.trans firstEnv, laterSources.trans firstSources⟩

theorem Mirrored.run (mirrored : uncached.Mirrored session) (steps : List Step)
    (steady : ∀ step ∈ steps, step.Steady) :
    (session.run steps).1.map Report.reply = (uncached.run steps).1 ∧
      (uncached.run steps).2.Mirrored (session.run steps).2 := by
  induction steps generalizing uncached session with
  | nil => exact ⟨rfl, mirrored⟩
  | cons step steps ih =>
      obtain ⟨here, later⟩ := List.forall_mem_cons.mp steady
      obtain ⟨reply, after⟩ := mirrored.perform shippedDefault step here
      have shippedAfter : (uncached.perform step).2.env.derivedPseudo?
          (uncached.perform step).2.env.defaultLanguage = none := by
        rw [(perform_env uncached step).1]
        exact shippedDefault
      have mirroredAfter : (uncached.perform step).2.Mirrored (session.step step).2 :=
        ⟨after.env, after.plans, ⟨after.holds.sound.unchanged, after.holds.sound.kept⟩,
          after.holds.holds⟩
      obtain ⟨replies, atEnd⟩ := ih shippedAfter mirroredAfter later
      exact ⟨List.cons_eq_cons.mpr ⟨reply, replies⟩, atEnd⟩

end Mirrored

end Uncached

end Phrasebook
