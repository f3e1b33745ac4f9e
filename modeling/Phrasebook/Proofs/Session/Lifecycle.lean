import Phrasebook.Proofs.Negotiation.Chain
import Phrasebook.Proofs.Session.Entity
import Phrasebook.Proofs.Session.Repetition

namespace Phrasebook

theorem Link.drop_fill (links : List Link) {locales : List Locale} {count : Nat}
    (short : locales.length ≤ count) : (fill links locales).drop count = links.drop count := by
  induction links generalizing locales count with
  | nil => cases locales <;> rfl
  | cons link links ih =>
      cases locales with
      | nil => rw [fill_nil]
      | cons locale locales =>
          cases count with
          | zero => cases short
          | succ count => exact ih (Nat.le_of_succ_le_succ short)

namespace Context

variable {context : Context} {count : Nat}

/-- A context whose first locales are built, so many and no others. -/
structure BuiltTo (count : Nat) (context : Context) : Prop where
  within : count ≤ context.chain.length
  built : ∀ link ∈ context.chain.take count, link.locale?.isSome
  unbuilt : ∀ link ∈ context.chain.drop count, link.locale? = none

theorem builtTo_zero (unbuilt : ∀ link ∈ context.chain, link.locale? = none) :
    context.BuiltTo 0 :=
  ⟨Nat.zero_le _, by simp, unbuilt⟩

theorem BuiltTo.filled (builtTo : context.BuiltTo count) (env : Environment) (store : Store)
    {more : Nat} (within : more ≤ context.chain.length) :
    (context.filled env store more).BuiltTo (max count more) where
  within := by
    rw [Context.filled, Link.length_fill]
    exact Nat.max_le.mpr ⟨builtTo.within, within⟩
  built := by
    rcases Nat.le_total count more with le | le
    · rw [Nat.max_eq_right le]
      exact Link.builtFirst_fill _ _ more (Link.length_locales _ _)
    · rw [Nat.max_eq_left le]
      exact Link.BuiltFirst.grows builtTo.built (filled_grows more).chain
  unbuilt := by
    rw [Context.filled, Link.drop_fill]
    · intro link member
      have behind := List.drop_sublist_drop_left context.chain (Nat.le_max_left count more)
      exact builtTo.unbuilt link (behind.subset member)
    · exact Nat.le_trans (List.length_take_le _ _) (Nat.le_max_right count more)

theorem request_ok {env : Environment} {requested : List String} {after : Context}
    (accepted : context.request env requested = .ok after) :
    after.chain ≠ [] ∧ after.resources = context.resources ∧ after.BuiltTo 0 := by
  unfold request at accepted
  cases negotiated : negotiate env.defaultLanguage env.available requested with
  | error failure => simp [negotiated, Except.map] at accepted
  | ok codes =>
      simp only [negotiated, Except.map, Except.ok.injEq] at accepted
      subst accepted
      refine ⟨by simpa using negotiate_ne_nil negotiated, rfl, builtTo_zero ?_⟩
      intro link member
      obtain ⟨code, -, rfl⟩ := List.mem_map.mp member
      rfl

end Context

namespace Query

variable {locales : List Locale}

/-- How many languages are looked at until one ends the search. -/
def lookedAt (locales : List Locale) (ends : Locale → Bool) : Nat :=
  min locales.length ((locales.takeWhile (!ends ·)).length + 1)

/-- How many languages of its context a query looks at. -/
def visits (locales : List Locale) : Query → Nat
  | .ready _ => 1
  | .value _ id arguments =>
      lookedAt locales fun locale => (locale.evaluated? arguments id).isSome
  | .entity _ id arguments => lookedAt locales (Locale.settles · arguments id)
  | .values _ requests =>
      (requests.map fun request => lookedAt locales fun locale =>
        (locale.evaluated? request.2 request.1).isSome).foldr max 0

theorem length_visited_value (arguments : Arguments) (id : String) :
    (visited arguments id true none locales).length =
      lookedAt locales fun locale => (locale.evaluated? arguments id).isSome := by
  rw [visited_value, List.length_take, lookedAt, Nat.min_comm]
  simp

theorem length_visited_entity (arguments : Arguments) (id : String) :
    (visited arguments id false none locales).length =
      lookedAt locales (Locale.settles · arguments id) := by
  rw [visited_eq, List.length_take, lookedAt, Nat.min_comm]
  simp only [Locale.passes_entity]

theorem reach_eq_visits (query : Query) : query.reach locales = query.visits locales := by
  cases query with
  | ready name => rfl
  | value name id arguments => exact length_visited_value arguments id
  | entity name id arguments => exact length_visited_entity arguments id
  | values name requests => simp only [reach, visits, length_visited_value, List.foldr_map]

theorem visits_le (query : Query) (requested : locales ≠ []) :
    query.visits locales ≤ locales.length := by
  cases query with
  | ready name => exact List.length_pos_iff.mpr requested
  | value name id arguments => exact Nat.min_le_left _ _
  | entity name id arguments => exact Nat.min_le_left _ _
  | values name requests =>
      simp only [visits]
      induction requests with
      | nil => exact Nat.zero_le _
      | cons request requests ih => exact Nat.max_le.mpr ⟨Nat.min_le_left _ _, ih⟩

theorem visits_of_answered {query : Query} {env : Environment} {resources : List String}
    {store : Store} (answered : (query.ask env ⟨resources, []⟩ store).1 ≠ .failed .notRequested) :
    query.visits [] = 0 := by
  cases query with
  | ready name => exact absurd rfl answered
  | value name id arguments => exact Nat.zero_min _
  | entity name id arguments => exact Nat.zero_min _
  | values name requests =>
      cases requests with
      | nil => rfl
      | cons request requests => exact absurd rfl answered

theorem ask_ne_failed (query : Query) {context : Context} (requested : context.chain ≠ [])
    (env : Environment) (store : Store) (failure : RequestFailure) :
    (query.ask env context store).1 ≠ .failed failure := by
  obtain ⟨after, asked, -⟩ := query.ask_after requested env store
  rw [asked]
  intro failed
  cases query <;> cases failed

theorem ask_refused {query : Query} {env : Environment} {context : Context} {store : Store}
    (refused : (query.ask env context store).1 = .failed .notRequested) :
    (query.ask env context store).2 = (context, store) := by
  by_cases requested : context.chain = []
  · obtain ⟨resources, chain⟩ := context
    obtain rfl := requested
    obtain ⟨reply, asked⟩ := query.ask_unrequested env resources
    rw [asked]
  · exact absurd refused (query.ask_ne_failed requested env store _)

/-- Any other builds the languages it looks at, unless they are built. -/
theorem ask_answered {query : Query} {env : Environment} {context : Context} {store : Store}
    {count : Nat} (builtTo : context.BuiltTo count)
    (answered : (query.ask env context store).1 ≠ .failed .notRequested) :
    (query.ask env context store).2.1.plan = context.plan ∧
      (query.ask env context store).2.1.BuiltTo
        (max count (query.visits (context.locales env store))) := by
  by_cases requested : context.chain = []
  · obtain ⟨resources, chain⟩ := context
    obtain rfl := requested
    have none := visits_of_answered answered
    obtain ⟨reply, asked⟩ := query.ask_unrequested env resources
    rw [asked, show Context.locales ⟨resources, []⟩ env store = [] from rfl, none, Nat.max_zero]
    exact ⟨rfl, builtTo⟩
  · obtain ⟨after, asked, now⟩ := query.ask_after requested env store
    have long : (context.locales env store).length = context.chain.length :=
      Link.length_locales context.chain store
    have within : query.visits (context.locales env store) ≤ context.chain.length :=
      long ▸ query.visits_le
        (List.ne_nil_of_length_pos (long ▸ List.length_pos_iff.mpr requested))
    rw [asked, now.filled, query.reach_eq_visits]
    refine ⟨?_, builtTo.filled env store within⟩
    simp only [Context.plan, Context.languages, Context.filled, Link.fill_languages]

end Query

namespace Session

variable {session later : Session} {name : String}

/-- The contexts that a session can come to have. -/
inductive Contexts (env : Environment) : Table Context → Prop
  | empty : Contexts env []
  | created {contexts : Table Context} (name : String) (resources : List String)
      (given : Contexts env contexts) :
      Contexts env (Table.insert name { resources := resources } contexts)
  | dropped {contexts : Table Context} (name : String) (given : Contexts env contexts) :
      Contexts env (Table.erase name contexts)
  | requested {contexts : Table Context} (name : String) {context after : Context}
      {languages : List String} (accepted : context.request env languages = .ok after)
      (given : Contexts env contexts) : Contexts env (Table.insert name after contexts)
  | asked {contexts : Table Context} (query : Query) (store : Store) {context : Context}
      (known : contexts.find? query.context = some context) (given : Contexts env contexts) :
      Contexts env (Table.insert query.context (query.ask env context store).2.1 contexts)

theorem contexts_ask (given : Contexts session.env session.contexts) (query : Query) :
    Contexts session.env (session.ask query).2.contexts := by
  cases known : session.context? query.context with
  | none =>
      simp only [ask, known]
      exact given
  | some context =>
      rw [ask_of_known known]
      exact .asked query session.store known given

theorem contexts_askAll (given : Contexts session.env session.contexts) (queries : List Query) :
    Contexts session.env (session.askAll queries).2.contexts := by
  induction queries generalizing session with
  | nil => exact given
  | cons query queries ih =>
      have after := contexts_ask given query
      rw [← ask_env session query] at after ⊢
      exact ih after

theorem contexts_perform (given : Contexts session.env session.contexts) (step : Step) :
    Contexts session.env (session.perform step).2.contexts := by
  cases step with
  | context other resources => exact .created other resources given
  | drop other => exact .dropped other given
  | request other languages =>
      simp only [perform, request]
      cases session.context? other with
      | none => exact given
      | some context =>
          dsimp only
          cases accepted : context.request session.env languages with
          | error failure => exact given
          | ok after => exact .requested other accepted given
  | query query => exact contexts_ask given query
  | parallel queries => exact contexts_askAll given queries
  | info other =>
      simp only [perform]
      cases session.context? other <;> exact given
  | _ => exact given

theorem Reachable.contexts (reached : session.Reachable) :
    Contexts session.env session.contexts := by
  induction reached with
  | opened env sources capacity manualDrain => exact .empty
  | @step session step _ ih =>
      rw [step_env]
      exact contexts_perform ih step

theorem Contexts.ascending {env : Environment} {contexts : Table Context}
    (given : Contexts env contexts) : contexts.Ascending := by
  induction given with
  | empty => exact .nil
  | created name resources _ ih => exact ih.insert name _
  | dropped name _ ih => exact ih.erase name
  | requested name _ _ ih => exact ih.insert name _
  | asked query store _ _ ih => exact ih.insert query.context _

theorem Contexts.builtTo {env : Environment} {contexts : Table Context}
    (given : Contexts env contexts) {name : String} {context : Context}
    (known : contexts.find? name = some context) : ∃ count, context.BuiltTo count := by
  induction given generalizing name context with
  | empty => cases known
  | created other resources _ ih =>
      rw [Table.find?_insert] at known
      split at known
      · cases known
        exact ⟨0, Context.builtTo_zero fun _ member => absurd member List.not_mem_nil⟩
      · exact ih known
  | dropped other _ ih =>
      rw [Table.find?_erase] at known
      split at known
      · cases known
      · exact ih known
  | requested other accepted _ ih =>
      rw [Table.find?_insert] at known
      split at known
      · cases known
        exact ⟨0, (Context.request_ok accepted).2.2⟩
      · exact ih known
  | @asked _ query store before knownBefore _ ih =>
      rw [Table.find?_insert] at known
      split at known
      · cases known
        obtain ⟨count, builtTo⟩ := ih knownBefore
        by_cases refused : (query.ask env before store).1 = .failed .notRequested
        · rw [Query.ask_refused refused]
          exact ⟨count, builtTo⟩
        · exact ⟨_, (Query.ask_answered builtTo refused).2⟩
      · exact ih known

/-! When languages have been requested of a context. -/

end Session

namespace Session

variable {session later : Session} {name : String} {step : Step}

theorem ask_refused (given : Contexts session.env session.contexts) {query : Query}
    (refused : (session.ask query).1 = .failed .notRequested) :
    (session.ask query).2 = session := by
  cases known : session.context? query.context with
  | none => simp only [ask, known]
  | some context =>
      rw [ask_of_known known] at refused ⊢
      -- The context is written back as it was, and its table is in order.
      simp only [Query.ask_refused refused, setContext, given.ascending.insert_of_find? known]

theorem ask_answered {context : Context} {count : Nat} {query : Query}
    (known : session.context? query.context = some context) (builtTo : context.BuiltTo count)
    (answered : (session.ask query).1 ≠ .failed .notRequested) :
    ∃ after, (session.ask query).2.context? query.context = some after ∧
      after.plan = context.plan ∧
      after.BuiltTo
        (max count (query.visits (context.locales session.env session.store))) := by
  rw [ask_of_known known] at answered ⊢
  exact ⟨_, context?_setContext_self _ _ _, Query.ask_answered builtTo answered⟩

/-- The leaflet with its first language built. -/
def unfolded : Session :=
  ((leaflet ["de"]).askAll [.ready "front"]).2

end Session

end Phrasebook
