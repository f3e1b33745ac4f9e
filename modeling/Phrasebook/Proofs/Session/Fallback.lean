import Phrasebook.Proofs.Session.Stalling

namespace Phrasebook

def Attempt.outcome? : Attempt → Option (Except Fault String)
  | .done text => some (.ok text)
  | .failed fault => some (.error fault)
  | _ => none

namespace Locale

variable (locale : Locale) (arguments : Arguments) (id : String)

def evaluated? : Option Rendering :=
  match locale.attempt arguments id with
  | .done text => some ⟨text, some locale.code⟩
  | _ => none

def remnant? : Option Rendering :=
  match locale.attempt arguments id with
  | .failed (.value salvage _) => some ⟨salvage, some locale.code⟩
  | _ => none

/-- A rendering is of an entry of a resource that loaded: its value, or what is left of it. -/
structure Renders (rendering : Rendering) : Prop where
  language : rendering.language? = some locale.code
  entry : ∃ name entries entry, (name, .ok entries) ∈ locale.resources ∧
    entries.find? id = some entry ∧
      (locale.text arguments id entry.phrase = .ok rendering.value ∨
        ∃ source, locale.text arguments id entry.phrase = .error (.value rendering.value source))

variable {locale arguments id}

theorem entry?_loaded {entry : Entry} (known : locale.entry? id = some entry) :
    ∃ name entries, (name, .ok entries) ∈ locale.resources ∧ entries.find? id = some entry := by
  obtain ⟨⟨name, loaded⟩, member, inLoaded⟩ := List.exists_of_findSome?_eq_some known
  cases loaded with
  | error failure => cases inLoaded
  | ok entries => exact ⟨name, entries, member, inLoaded⟩

theorem attempt_outcome {outcome : Except Fault String}
    (attempted : (locale.attempt arguments id).outcome? = some outcome) :
    ∃ entry, locale.entry? id = some entry ∧
      locale.text arguments id entry.phrase = outcome := by
  unfold attempt at attempted
  cases known : locale.entry? id with
  | none => simp [known, Attempt.outcome?] at attempted
  | some entry =>
      refine ⟨entry, rfl, ?_⟩
      simp only [known] at attempted
      split at attempted
      · cases evaluation : locale.text arguments id entry.phrase <;>
          simpa [evaluation, Attempt.outcome?] using attempted
      · cases attempted

theorem Renders.of_outcome {rendering : Rendering} {outcome : Except Fault String}
    (attempted : (locale.attempt arguments id).outcome? = some outcome)
    (language : rendering.language? = some locale.code)
    (text : outcome = .ok rendering.value ∨
      ∃ source, outcome = .error (.value rendering.value source)) :
    locale.Renders arguments id rendering := by
  obtain ⟨entry, known, rfl⟩ := attempt_outcome attempted
  obtain ⟨name, entries, member, found⟩ := entry?_loaded known
  exact ⟨language, name, entries, entry, member, found, text⟩

theorem evaluated?_renders {rendering : Rendering}
    (evaluated : locale.evaluated? arguments id = some rendering) :
    locale.Renders arguments id rendering := by
  unfold evaluated? at evaluated
  cases attempted : locale.attempt arguments id with
  | done text =>
      simp only [attempted, Option.some.injEq] at evaluated
      subst evaluated
      exact .of_outcome (by rw [attempted, Attempt.outcome?]) rfl (.inl rfl)
  | _ => simp [attempted] at evaluated

theorem remnant?_renders {rendering : Rendering}
    (left : locale.remnant? arguments id = some rendering) :
    locale.Renders arguments id rendering := by
  unfold remnant? at left
  split at left
  · rename_i salvage source attempted
    cases left
    exact .of_outcome (by rw [attempted, Attempt.outcome?]) rfl (.inr ⟨source, rfl⟩)
  · cases left

theorem passes_value (locale : Locale) (arguments : Arguments) (id : String) :
    locale.passes arguments id true = (locale.evaluated? arguments id).isNone := by
  simp only [passes, evaluated?]
  cases locale.attempt arguments id <;> rfl

theorem judge_value (salvage? : Option Found) :
    (∃ text, locale.evaluated? arguments id = some ⟨text, some locale.code⟩ ∧
      locale.judge arguments id true salvage? = .ends ⟨some text, some locale⟩) ∨
    (∃ salvageAfter? detail, locale.evaluated? arguments id = none ∧
      locale.judge arguments id true salvage? = .passes salvageAfter? detail ∧
      salvageAfter?.map (Context.renderingOf id) =
        (salvage?.map (Context.renderingOf id)).or (locale.remnant? arguments id)) := by
  simp only [evaluated?, remnant?, judge]
  cases locale.attempt arguments id with
  | missing => exact .inr ⟨salvage?, _, rfl, rfl, (Option.or_none).symm⟩
  | valueless => exact .inr ⟨salvage?, _, rfl, rfl, (Option.or_none).symm⟩
  | done text => exact .inl ⟨text, rfl, rfl⟩
  | failed fault =>
      refine .inr ⟨salvaged salvage? locale fault, _, rfl, rfl, ?_⟩
      cases salvage? <;> cases fault <;> rfl

end Locale

section Value

variable {arguments : Arguments} {id : String}

theorem renderingOf_search (salvage? : Option Found) (locales : List Locale) :
    Context.renderingOf id (search arguments id true salvage? locales) =
      ((locales.findSome? (Locale.evaluated? · arguments id)).or
        ((salvage?.map (Context.renderingOf id)).or
          (locales.findSome? (Locale.remnant? · arguments id)))).getD ⟨bracketed id, none⟩ := by
  induction locales generalizing salvage? with
  | nil => cases salvage? <;> rfl
  | cons locale locales ih =>
      simp only [search, List.findSome?_cons]
      obtain ⟨text, evaluated, ends⟩ | ⟨salvageAfter?, detail, fails, passes, salvage⟩ :=
        locale.judge_value salvage?
      · rw [ends, evaluated]
        rfl
      · rw [passes, fails]
        simp only [ih, salvage]
        cases salvage?.map (Context.renderingOf id) <;>
          cases locale.remnant? arguments id <;> rfl

theorem visited_value (salvage? : Option Found) (locales : List Locale) :
    visited arguments id true salvage? locales =
      locales.take
        ((locales.takeWhile fun locale => (locale.evaluated? arguments id).isNone).length + 1) := by
  simp only [visited_eq, Locale.passes_value]

end Value

namespace Session

theorem ask_value {session : Session} {name : String} {context : Context}
    (known : session.context? name = some context) (requested : context.chain ≠ [])
    (id : String) (arguments : Arguments) :
    session.ask (.value name id arguments) =
      (.rendering (Context.renderingOf id
        (search arguments id true none (context.locales session.env session.store))),
        { session.setContext name
            { context with
              chain := Link.fill context.chain
                (visited arguments id true none (context.locales session.env session.store)) } with
          store := (walk session.env context.resources arguments id true none context.chain
            session.store).2.2 }) := by
  rw [ask_of_known (show session.context? (Query.value name id arguments).context = some context
    from known)]
  simp only [Query.ask, Query.context, Context.resolveValue, Context.find_of_requested requested]
  rfl

theorem stalled_value {session : Session} (based : Store.Based session.env session.store)
    {name : String} {context : Context} (known : session.context? name = some context)
    (requested : context.chain ≠ []) (id : String) (arguments : Arguments) :
    (session.ask (.value name id arguments)).2.store.stalled = true ↔
      session.store.stalled = true ∨
        context.Waits session.env session.store
          (((context.locales session.env session.store).takeWhile fun locale =>
            (locale.evaluated? arguments id).isNone).length + 1) := by
  have stalled := context.walk_stalled based arguments id true
  simp only [Locale.passes_value] at stalled
  rw [ask_value known requested]
  exact stalled

/-- The value is that of the first language in which the entry evaluates, else what is left of it in
the first language that has salvage, else the name in brackets. Only the languages up to that one
are built, and only those of them that were not built are fetched in; for a pseudo-locale that is
not shipped this is the default language. There is no outcome where the default language is such a
pseudo-locale itself and has to be built. -/
theorem value_from_first_language {session : Session} (reached : session.Reached)
    {name : String} {context : Context} (known : session.context? name = some context)
    (requested : context.chain ≠ []) (id : String) (arguments : Arguments) :
    let locales := context.locales session.env session.store
    let visited := (locales.takeWhile fun locale =>
      (locale.evaluated? arguments id).isNone).length + 1
    let outcome? := session.step? (.query (.value name id arguments))
    locales.map Locale.language = context.languages ∧
    (outcome? = none ↔ context.Waits session.env session.store visited) ∧
    ∀ report after, outcome? = some (report, after) →
      (∃ rendering, report.reply = .rendering rendering ∧
        rendering =
          ((locales.findSome? (Locale.evaluated? · arguments id)).or
            (locales.findSome? (Locale.remnant? · arguments id))).getD ⟨bracketed id, none⟩ ∧
        (rendering = ⟨bracketed id, none⟩ ∨
          ∃ locale ∈ locales, locale.Renders arguments id rendering)) ∧
      after.context? name =
        some { context with chain := Link.fill context.chain (locales.take visited) } ∧
      ∀ key ∈ report.fetches, key.resource ∈ context.resources ∧
        ∃ link ∈ context.chain.take visited, link.locale? = none ∧
          if (session.env.derivedPseudo? link.language.code).isSome then
            key.language = session.env.defaultLanguage
          else key.language = link.language.code := by
  intro locales visited outcome?
  have reachable := reached.reachable
  refine ⟨reachable.locales_languages known, ?_, ?_⟩
  · have stalled := stalled_value reachable.based.sound known requested id arguments
    rw [or_iff_right (by simp [reached.live])] at stalled
    exact outcome?_eq_none.trans stalled
  intro report after stepped
  obtain ⟨reply, fetches, contexts⟩ := step?_query_eq_some stepped
  rw [ask_value known requested] at reply fetches contexts
  rw [renderingOf_search] at reply
  obtain ⟨newFetches, walked, ofVisited⟩ :=
    @walk_fetches session.env context.resources arguments id true none context.chain session.store
  refine ⟨⟨_, reply, rfl, ?_⟩, ?_, ?_⟩
  · cases evaluated : locales.findSome? (Locale.evaluated? · arguments id) with
    | some rendering =>
        obtain ⟨locale, member, evaluates⟩ := List.exists_of_findSome?_eq_some evaluated
        exact .inr ⟨locale, member, Locale.evaluated?_renders evaluates⟩
    | none =>
        cases left : locales.findSome? (Locale.remnant? · arguments id) with
        | some rendering =>
            obtain ⟨locale, member, leaves⟩ := List.exists_of_findSome?_eq_some left
            exact .inr ⟨locale, member, Locale.remnant?_renders leaves⟩
        | none => exact .inl rfl
  · rw [context?, contexts, ← visited_value]
    exact context?_setContext_self session name _
  · intro key member
    rw [fetches, walked, congrArg Store.fetches reachable.cleared.symm] at member
    obtain ⟨listed, link, inTake, unbuilt, inLanguage⟩ := ofVisited key member
    refine ⟨listed, link, ?_, unbuilt, ?_⟩
    · rw [visited_value] at inTake
      exact List.take_subset_take_left _ (List.length_take_le _ _) inTake
    · rw [inLanguage]
      unfold Environment.pluralLanguage
      split <;> rfl

def leaflet (languages : List String) : Session :=
  ((opened .leaflet .leaflet 64 false).run
    [.context "front" ["leaflet.txt"], .request "front" languages]).2

def leafletFront (languages : List String) : Context :=
  ((leaflet languages).context? "front").getD { resources := [] }

theorem leaflet_reached (languages : List String) : (leaflet languages).Reached := by
  have shipped : Environment.leaflet.derivedPseudo? Environment.leaflet.defaultLanguage = none := by
    decide +kernel
  exact ((Reached.opened .leaflet .leaflet 64 false).run (run?_of_shipped shipped rfl _)).1

theorem leaflet_front (languages : List String)
    (present : ((leaflet languages).context? "front").isSome) :
    (leaflet languages).context? "front" = some (leafletFront languages) := by
  obtain ⟨context, known⟩ := Option.isSome_iff_exists.mp present
  simp [leafletFront, known]

theorem value_of_leaflet :
    (leaflet ["de"]).Reached ∧
    (leaflet ["de"]).context? "front" = some (leafletFront ["de"]) ∧
    (leafletFront ["de"]).chain ≠ [] ∧
    ∃ report after,
      (leaflet ["de"]).step? (.query (.value "front" "line1" [])) = some (report, after) ∧
      report.reply = .rendering ⟨"Dear \x7b\x7b you \x7d\x7d", some "en"⟩ := by
  have reached := leaflet_reached ["de"]
  have known := leaflet_front ["de"] (by decide +kernel)
  have requested : (leafletFront ["de"]).chain ≠ [] := List.ne_nil_of_length_pos (by decide +kernel)
  have stepped : (leaflet ["de"]).step? (.query (.value "front" "line1" [])) = some _ :=
    outcome?_eq_some.mpr ⟨by decide +kernel, rfl⟩
  obtain ⟨-, -, outcomes⟩ := value_from_first_language reached known requested "line1" []
  obtain ⟨⟨rendering, reply, value, -⟩, -⟩ := outcomes _ _ stepped
  refine ⟨reached, known, requested, _, _, stepped, reply.trans (congrArg Reply.rendering ?_)⟩
  exact value.trans (by decide +kernel)

/-- A leaflet whose default language is a pseudo-locale that is not shipped. -/
def mirror : Session :=
  ((opened
    { defaultLanguage := "qps-ploc"
      available := []
      registry := [("txt", Resource.parseLines)] } .leaflet 64 false).run
    [.context "front" ["leaflet.txt"], .request "front" ["en"]]).2

theorem mirror_reached : mirror.Reached := by
  have live : mirror.store.stalled = false := by decide +kernel
  exact ((Reached.opened _ _ _ _).run (run?_of_live live)).1

/-- A value in a pseudo-locale that is not shipped takes a fetch in the default language, which may
stand behind it in the chain. If it is the default language itself, there is no value. -/
theorem value_fetches_behind_winner :
    (¬ ∀ (session : Session) (name : String) (context : Context) (id : String)
      (arguments : Arguments), session.Reached → session.context? name = some context →
        context.chain ≠ [] →
        let visited := ((context.locales session.env session.store).takeWhile fun locale =>
          (locale.evaluated? arguments id).isNone).length + 1
        ∀ report after, session.step? (.query (.value name id arguments)) = some (report, after) →
          ∀ key ∈ report.fetches, ∀ language ∈ context.languages.drop visited,
            key.language ≠ language.code) ∧
    ¬ ∀ (session : Session) (name : String) (context : Context) (id : String)
      (arguments : Arguments), session.Reached → session.context? name = some context →
        context.chain ≠ [] → session.step? (.query (.value name id arguments)) ≠ none := by
  refine ⟨fun never => ?_, fun always => ?_⟩
  · have known := leaflet_front ["qps-ploc"] (by decide +kernel)
    have requested : (leafletFront ["qps-ploc"]).chain ≠ [] :=
      List.ne_nil_of_length_pos (by decide +kernel)
    have stepped : (leaflet ["qps-ploc"]).step? (.query (.value "front" "line0" [])) = some _ :=
      outcome?_eq_some.mpr ⟨by decide +kernel, rfl⟩
    have notBehind := never _ "front" _ "line0" [] (leaflet_reached ["qps-ploc"]) known requested
      _ _ stepped
    exact absurd notBehind (by decide +kernel)
  · have chained : (mirror.context? "front").any (·.chain.length = 1) := by decide +kernel
    obtain ⟨context, known, long⟩ := (Option.any_eq_true _ _).mp chained
    have requested : context.chain ≠ [] :=
      List.ne_nil_of_length_pos (of_decide_eq_true long ▸ Nat.one_pos)
    exact always mirror "front" context "line0" [] mirror_reached known requested
      (outcome?_eq_none.mpr (by decide +kernel))

end Session

end Phrasebook
