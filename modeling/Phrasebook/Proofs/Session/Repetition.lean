import Phrasebook.Proofs.Session.Asking

namespace Phrasebook

/-- Whether a context stays when a step is taken. One created under its name takes its place, but
requests that fail leave it as it was. -/
def Step.Keeps (env : Environment) (name : String) : Step → Prop
  | .context other _ => other ≠ name
  | .drop other => other ≠ name
  | .request other languages =>
      other = name →
        ∃ failure, negotiate env.defaultLanguage env.available languages = .error failure
  | _ => True

namespace Session

variable {session later last : Session} {name : String}

/-- A context stays, maybe with more of it built. -/
structure Keeps (name : String) (session later : Session) : Prop where
  env : later.env = session.env
  known : ∀ context, session.context? name = some context →
    ∃ grown, later.context? name = some grown ∧ context.Grows grown
  unknown : session.context? name = none → later.context? name = none

theorem Keeps.of_same (env : later.env = session.env)
    (same : later.context? name = session.context? name) : Keeps name session later where
  env := env
  known context known := ⟨context, same.trans known, .refl context⟩
  unknown unknown := same.trans unknown

theorem Keeps.refl (name : String) (session : Session) : Keeps name session session :=
  .of_same rfl rfl

theorem Keeps.trans (first : Keeps name session later) (second : Keeps name later last) :
    Keeps name session last where
  env := second.env.trans first.env
  known context known := by
    obtain ⟨grown, knownLater, grows⟩ := first.known context known
    obtain ⟨most, knownLast, growsOn⟩ := second.known grown knownLater
    exact ⟨most, knownLast, grows.trans growsOn⟩
  unknown unknown := second.unknown (first.unknown unknown)

theorem keeps_setContext (session : Session) {other : String} (differ : other ≠ name)
    (context : Context) : Keeps name session (session.setContext other context) := by
  refine .of_same rfl ?_
  rw [context?_setContext, if_neg differ.symm]

theorem keeps_ask (name : String) (session : Session) (query : Query) :
    Keeps name session (session.ask query).2 := by
  cases asked : session.context? query.context with
  | none =>
      simp only [ask, asked]
      exact .refl name session
  | some context =>
      rw [ask_of_known asked]
      by_cases here : query.context = name
      · subst here
        refine ⟨rfl, ?_, fun unknown => ?_⟩
        · intro known same
          obtain rfl := Option.some.inj (asked.symm.trans same)
          refine ⟨_, ?_, query.ask_grows session.env context session.store⟩
          exact context?_setContext_self _ _ _
        · rw [asked] at unknown
          cases unknown
      · exact .trans (keeps_setContext session here _) (.of_same rfl rfl)

theorem keeps_askAll (name : String) (session : Session) (queries : List Query) :
    Keeps name session (session.askAll queries).2 := by
  induction queries generalizing session with
  | nil => exact .refl name session
  | cons query queries ih => exact (keeps_ask name session query).trans (ih (session.ask query).2)

theorem keeps_request (session : Session) {other : String} {languages : List String}
    (keeps : (Step.request other languages).Keeps session.env name) :
    Keeps name session (session.request other languages).2 := by
  unfold request
  cases session.context? other with
  | none => exact .refl name session
  | some context =>
      by_cases here : other = name
      · obtain ⟨failure, refused⟩ := keeps here
        simp only [Context.request, refused]
        exact .refl name session
      · dsimp only
        cases context.request session.env languages with
        | error failure => exact .refl name session
        | ok context => exact keeps_setContext session here context

theorem keeps_perform (session : Session) {step : Step} (keeps : step.Keeps session.env name) :
    Keeps name session (session.perform step).2 := by
  cases step with
  | context other resources => exact keeps_setContext session keeps _
  | drop other =>
      refine .of_same rfl ?_
      simp only [perform, context?, Table.find?_erase]
      exact if_neg (Ne.symm keeps)
  | request other languages => exact keeps_request session keeps
  | query query => exact keeps_ask name session query
  | parallel queries => exact keeps_askAll name session queries
  | info other =>
      simp only [perform]
      cases session.context? other <;> exact .refl name session
  | _ => exact .of_same rfl rfl

theorem keeps_step (session : Session) {step : Step} (keeps : step.Keeps session.env name) :
    Keeps name session (session.step step).2 :=
  .trans (keeps_perform session keeps) (.of_same rfl rfl)

theorem keeps_run (session : Session) {steps : List Step}
    (keeps : ∀ step ∈ steps, step.Keeps session.env name) :
    Keeps name session (session.run steps).2 := by
  induction steps generalizing session with
  | nil => exact .refl name session
  | cons step steps ih =>
      obtain ⟨here, rest⟩ := List.forall_mem_cons.mp keeps
      refine (keeps_step session here).trans (ih (session.step step).2 ?_)
      rwa [step_env]

/-- However a session goes on that keeps its context, the query is answered so, and nothing is
fetched for it. -/
def Settled (session : Session) (query : Query) (reply : Reply) : Prop :=
  ∀ later, Keeps query.context session later →
    (later.ask query).1 = reply ∧ (later.ask query).2.store.fetches = later.store.fetches

theorem Settled.keeps {query : Query} {reply : Reply} (settled : session.Settled query reply)
    (keeps : Keeps query.context session later) : later.Settled query reply :=
  fun last keepsOn => settled last (keeps.trans keepsOn)

theorem Settled.reply_eq {query : Query} {reply : Reply} (settled : session.Settled query reply) :
    reply = (session.ask query).1 :=
  (settled session (.refl _ session)).1.symm

theorem ask_settled (session : Session) (query : Query) :
    (session.ask query).2.Settled query (session.ask query).1 := by
  intro later keeps
  cases asked : session.context? query.context with
  | none =>
      simp only [ask, asked] at keeps ⊢
      rw [keeps.unknown asked]
      exact ⟨rfl, rfl⟩
  | some context =>
      rw [ask_of_known asked] at keeps ⊢
      obtain ⟨grown, known, grows⟩ :=
        keeps.known _ (context?_setContext_self _ _ _)
      have again := query.ask_settled session.env context session.store grown grows later.store
      have sameEnv : later.env = session.env := keeps.env
      rw [ask_of_known known, sameEnv]
      exact again

theorem askAll_settled (session : Session) (queries : List Query) :
    List.Forall₂ (session.askAll queries).2.Settled queries (session.askAll queries).1 := by
  induction queries generalizing session with
  | nil => exact .nil
  | cons query queries ih =>
      exact .cons ((ask_settled session query).keeps (keeps_askAll _ _ queries))
        (ih (session.ask query).2)

theorem replies_of_settled {session : Session} {queries : List Query} {replies : List Reply}
    (settled : List.Forall₂ session.Settled queries replies) :
    replies = queries.map (fun query => (session.ask query).1) ∧
      ∀ query ∈ queries, session.Settled query (session.ask query).1 := by
  induction settled with
  | nil => exact ⟨rfl, nofun⟩
  | cons here _ ih =>
      have reply := here.reply_eq
      exact ⟨congrArg₂ _ reply ih.1, List.forall_mem_cons.mpr ⟨reply ▸ here, ih.2⟩⟩

theorem askAll_of_settled {session : Session} {queries : List Query} {answer : Query → Reply}
    (settled : ∀ query ∈ queries, session.Settled query (answer query)) :
    (session.askAll queries).1 = queries.map answer ∧
      (session.askAll queries).2.store.fetches = session.store.fetches := by
  induction queries generalizing session with
  | nil => exact ⟨rfl, rfl⟩
  | cons query queries ih =>
      obtain ⟨here, rest⟩ := List.forall_mem_cons.mp settled
      obtain ⟨reply, fetches⟩ := here session (.refl _ session)
      obtain ⟨replies, fetchesAfter⟩ := ih fun later member =>
        (rest later member).keeps (keeps_ask _ session query)
      refine ⟨?_, fetchesAfter.trans fetches⟩
      rw [List.map_cons, ← reply, ← replies]
      rfl

end Session

/-- Queries that are made alone or together. -/
inductive Inquiry where
  | alone (query : Query)
  | together (queries : List Query)

namespace Inquiry

def queries : Inquiry → List Query
  | .alone query => [query]
  | .together queries => queries

def step : Inquiry → Step
  | .alone query => .query query
  | .together queries => .parallel queries

def reply (answer : Query → Reply) : Inquiry → Reply
  | .alone query => answer query
  | .together queries => .all (queries.map answer)

end Inquiry

namespace Session

theorem step_settled (session : Session) (inquiry : Inquiry) :
    ∃ answer : Query → Reply,
      (session.step inquiry.step).1.reply = inquiry.reply answer ∧
        ∀ query ∈ inquiry.queries,
          (session.step inquiry.step).2.Settled query (answer query) := by
  refine ⟨fun query => ((session.step inquiry.step).2.ask query).1, ?_⟩
  cases inquiry with
  | alone query =>
      have settled : (session.step (.query query)).2.Settled query (session.ask query).1 :=
        (ask_settled session query).keeps (.of_same rfl rfl)
      have reply := settled.reply_eq
      rw [reply] at settled
      exact ⟨reply, List.forall_mem_singleton.mpr settled⟩
  | together queries =>
      have settled : List.Forall₂ (session.step (.parallel queries)).2.Settled queries
          (session.askAll queries).1 :=
        (askAll_settled session queries).imp fun _ _ settled => settled.keeps (.of_same rfl rfl)
      obtain ⟨replies, each⟩ := replies_of_settled settled
      exact ⟨congrArg Reply.all replies, each⟩

theorem step_of_settled {session : Session} {inquiry : Inquiry} {answer : Query → Reply}
    (settled : ∀ query ∈ inquiry.queries, session.Settled query (answer query)) :
    (session.step inquiry.step).1.reply = inquiry.reply answer ∧
      (session.step inquiry.step).1.fetches = session.store.fetches := by
  cases inquiry with
  | alone query => exact settled query List.mem_cons_self session (.refl _ session)
  | together queries =>
      obtain ⟨replies, fetches⟩ := askAll_of_settled settled
      exact ⟨congrArg Reply.all replies, fetches⟩

theorem run_fetches {session : Session} (clear : session.store.fetches = []) (steps : List Step) :
    (session.run steps).2.store.fetches = [] := by
  induction steps generalizing session with
  | nil => exact clear
  | cons step steps ih => exact ih rfl

/-- What was answered once is answered in the same way again, and without a fetch, after any steps
that keep the contexts it was asked of, and whether it is asked alone or with others. -/
theorem reads_repeatable (session : Session) (first again : Inquiry) (steps : List Step)
    (asked : ∀ query ∈ again.queries, query ∈ first.queries)
    (keeps : ∀ query ∈ again.queries, ∀ step ∈ steps, step.Keeps session.env query.context) :
    ∃ answer : Query → Reply,
      (session.step first.step).1.reply = first.reply answer ∧
      (((session.step first.step).2.run steps).2.step again.step).1.reply = again.reply answer ∧
      (((session.step first.step).2.run steps).2.step again.step).1.fetches = [] := by
  obtain ⟨answer, replied, settled⟩ := session.step_settled first
  have still : ∀ query ∈ again.queries,
      ((session.step first.step).2.run steps).2.Settled query (answer query) := by
    intro query member
    refine (settled query (asked query member)).keeps (keeps_run _ fun step among => ?_)
    rw [step_env]
    exact keeps query member step among
  obtain ⟨repliedAgain, fetches⟩ := step_of_settled still
  exact ⟨answer, replied, repliedAgain, fetches.trans (run_fetches rfl steps)⟩

theorem reply_value {session : Session} {name : String} {context : Context}
    (known : session.context? name = some context) (requested : context.chain ≠ [])
    (id : String) (arguments : Arguments) :
    (session.step (.query (.value name id arguments))).1.reply =
      .rendering (Context.renderingOf id
        (search arguments id true none (context.locales session.env session.store))) :=
  congrArg Prod.fst (ask_value known requested id arguments)

theorem reads_repeatable_leaflet :
    let line : Query := .value "front" "line1" []
    let steps : List Step :=
      [.source (.text ⟨"leaflet.txt", "en"⟩ "Closed"), .invalidate,
        .context "back" ["leaflet.txt"], .request "back" ["en"],
        .query (.value "back" "line0" []), .query (.ready "front")]
    let first : Inquiry := .alone line
    let again : Inquiry := .together [line, line]
    (∀ query ∈ again.queries, query ∈ first.queries) ∧
    (∀ query ∈ again.queries, ∀ step ∈ steps, step.Keeps (leaflet ["de"]).env query.context) ∧
    ∃ rendering : Rendering, rendering = ⟨"Dear \x7b\x7b you \x7d\x7d", some "en"⟩ ∧
      ((leaflet ["de"]).step first.step).1.reply = .rendering rendering ∧
      ((((leaflet ["de"]).step first.step).2.run steps).2.step again.step).1.reply =
        .all [.rendering rendering, .rendering rendering] ∧
      ((((leaflet ["de"]).step first.step).2.run steps).2.step again.step).1.fetches = [] := by
  have known := leaflet_front ["de"] (by decide +kernel)
  have requested : (leafletFront ["de"]).chain ≠ [] := List.ne_nil_of_length_pos (by decide +kernel)
  have value : Context.renderingOf "line1" (search [] "line1" true none
      ((leafletFront ["de"]).locales (leaflet ["de"]).env (leaflet ["de"]).store)) =
        ⟨"Dear \x7b\x7b you \x7d\x7d", some "en"⟩ := by decide +kernel
  -- Only what is known of the session is needed from here on.
  generalize leaflet ["de"] = session at known value ⊢
  intro line steps first again
  have asked : ∀ query ∈ again.queries, query ∈ first.queries := by
    simp [again, first, Inquiry.queries]
  have keeps : ∀ query ∈ again.queries, ∀ step ∈ steps, step.Keeps session.env query.context := by
    simp [again, Inquiry.queries, line, steps, Step.Keeps, Query.context]
  obtain ⟨answer, replied, repliedAgain, fetches⟩ :=
    reads_repeatable session first again steps asked keeps
  have rendered : (session.step first.step).1.reply = _ := reply_value known requested "line1" []
  have answered : answer line = _ := replied.symm.trans rendered
  have both : again.reply answer = .all [answer line, answer line] := rfl
  rw [value] at answered rendered
  rw [both, answered] at repliedAgain
  exact ⟨asked, keeps, _, rfl, rendered, repliedAgain, fetches⟩

end Session

end Phrasebook
