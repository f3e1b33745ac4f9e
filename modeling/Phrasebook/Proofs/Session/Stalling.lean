import Phrasebook.Proofs.Session.Upkeep

/-! Which loads wait for themselves, and so which calls have an outcome. -/

namespace Phrasebook

namespace Environment

theorem shipped_stalled (env : Environment) (key : Key) (store : Store) :
    (env.shipped key store).2.stalled = store.stalled := by
  obtain ⟨loaded, -, same⟩ | ⟨-, same⟩ := env.shipped_cases key store <;>
    · rw [same]
      rfl

theorem resource_stalled (env : Environment) (key : Key) (store : Store) :
    (env.resource key store).2.stalled = true ↔
      store.stalled = true ∨
        ((env.derivedPseudo? key.language).isSome ∧ key.language = env.defaultLanguage ∧
          store.loaded? key = none) := by
  obtain ⟨loaded, found, same⟩ | ⟨plain, -, same⟩ | ⟨pseudo, derived, fresh, same⟩ :=
    env.resource_cases key store
  · rw [same, found]
    exact (or_iff_left (by simp)).symm
  · rw [same, plain]
    exact (or_iff_left (by simp)).symm
  · have waits : (env.resource key store).2.stalled =
        ((env.shipped (env.basis key) store).2.stalled || decide (env.basis key = key)) := by
      rw [same]
      rfl
    have own : env.basis key = key ↔ key.language = env.defaultLanguage := by
      rw [basis_of_derived derived]
      constructor
      · intro equal
        exact (congrArg Key.language equal).symm
      · intro equal
        rw [← equal]
    rw [waits, shipped_stalled, Bool.or_eq_true, decide_eq_true_eq, own, derived]
    simp [fresh]

theorem resources_stalled (env : Environment) (language : String) (names : List String)
    (store : Store) :
    (env.resources language names store).2.stalled = true ↔
      store.stalled = true ∨
        ((env.derivedPseudo? language).isSome ∧ language = env.defaultLanguage ∧
          ∃ name ∈ names, store.loaded? ⟨name, language⟩ = none) := by
  induction names generalizing store with
  | nil => simp [resources]
  | cons name names ih =>
      rw [resources, ih, resource_stalled, List.exists_mem_cons_iff]
      cases found : store.loaded? ⟨name, language⟩ with
      | none =>
          -- The first of them waits already, whatever comes behind it.
          constructor
          · rintro ((stalled | ⟨derived, own, -⟩) | ⟨derived, own, -⟩)
            · exact .inl stalled
            · exact .inr ⟨derived, own, .inl rfl⟩
            · exact .inr ⟨derived, own, .inl rfl⟩
          · rintro (stalled | ⟨derived, own, -⟩)
            · exact .inl (.inl stalled)
            · exact .inl (.inr ⟨derived, own, rfl⟩)
      | some loaded =>
          rw [resource_of_kept found]
          simp [Store.loaded?, Store.noteLoad]

end Environment

/-- What is kept has been made from what is kept. -/
def Store.Based (env : Environment) (store : Store) : Prop :=
  ∀ key, (store.loaded? key).isSome → (store.loaded? (env.basis key)).isSome

namespace Store.Based

variable {env : Environment} {store after : Store} {key : Key} {loaded : Loaded}

theorem of_empty (empty : store.cache = []) : Based env store := by
  intro key kept
  rw [Store.loaded?, empty] at kept
  cases kept

theorem congr (based : Based env store) (cache : after.cache = store.cache) : Based env after := by
  intro key kept
  rw [Store.loaded?_of_cache_eq cache] at kept ⊢
  exact based key kept

theorem keep (based : Based env store) (cached : after.cache = (key, loaded) :: store.cache)
    (base : (after.loaded? (env.basis key)).isSome) : Based env after := by
  intro other kept
  by_cases same : other = key
  · rw [same]
    exact base
  · rw [loaded?_of_cached cached, if_neg same] at kept
    rw [loaded?_of_cached cached]
    split
    · rfl
    · exact based other kept

theorem shipped (based : Based env store) (own : env.basis key = key) :
    Based env (env.shipped key store).2 := by
  have kept := env.shipped_keeps key store
  obtain ⟨loaded, -, same⟩ | ⟨-, same⟩ := env.shipped_cases key store
  · rw [same]
    exact based.congr rfl
  · rw [same] at kept ⊢
    exact based.keep rfl (by rw [own, kept]; rfl)

theorem resource (based : Based env store) (key : Key) : Based env (env.resource key store).2 := by
  obtain ⟨loaded, -, same⟩ | ⟨plain, -, -⟩ | ⟨pseudo, -, -, same⟩ := env.resource_cases key store
  · rw [same]
    exact based.congr rfl
  · rw [Environment.resource_eq_shipped plain]
    exact based.shipped (Environment.basis_eq_self plain)
  · have base := env.shipped_keeps (env.basis key) store
    rw [same]
    refine (based.shipped (env.basis_basis key)).keep rfl ?_
    rw [loaded?_of_cached rfl]
    split
    · rfl
    · exact Option.isSome_of_eq_some base

theorem upkeep (env : Environment) : Upkeep env (Based env) fun _ _ _ => True where
  reported _ based := based.congr rfl
  loaded key based := based.resource key
  built _ _ _ := trivial

theorem locale (based : Based env store) (link : Link) (resources : List String) :
    Based env (link.locale env resources store).2 := by
  have holds : link.Holds (fun _ _ _ => True) resources := fun _ _ => trivial
  exact ((upkeep env).locale based holds).2

end Store.Based

namespace Link

/-- Whether a link is still to be given a locale, and one that is made from the default language. -/
def isDerived (env : Environment) (link : Link) : Bool :=
  link.locale?.isNone && (env.derivedPseudo? link.language.code).isSome

/-- To build these locales is to wait for ever. The first of them that is made from the default
language is in that language itself, and there is a resource of which nothing is kept in it. -/
def Waits (env : Environment) (resources : List String) (store : Store) (links : List Link) :
    Prop :=
  ∃ link, links.find? (isDerived env) = some link ∧ link.language.code = env.defaultLanguage ∧
    ∃ name ∈ resources, store.loaded? ⟨name, env.defaultLanguage⟩ = none

variable {env : Environment} {resources : List String} {store after : Store} {link : Link}
  {links : List Link}

theorem not_waits_nil : ¬ Waits env resources store [] := by
  rintro ⟨link, found, -⟩
  cases found

theorem waits_cons_of_not_derived (other : link.isDerived env = false) :
    Waits env resources store (link :: links) ↔ Waits env resources store links := by
  simp only [Waits, List.find?_cons, other]

theorem waits_cons_of_derived (derived : link.isDerived env = true) :
    Waits env resources store (link :: links) ↔
      link.language.code = env.defaultLanguage ∧
        ∃ name ∈ resources, store.loaded? ⟨name, env.defaultLanguage⟩ = none := by
  simp only [Waits, List.find?_cons, derived, Option.some.injEq, exists_eq_left']

theorem Waits.append (waits : Waits env resources store links) (more : List Link) :
    Waits env resources store (links ++ more) := by
  obtain ⟨link, found, waiting⟩ := waits
  exact ⟨link, by rw [List.find?_append, found, Option.some_or], waiting⟩

theorem Waits.take_mono {count more : Nat} (waits : Waits env resources store (links.take count))
    (le : count ≤ more) : Waits env resources store (links.take more) := by
  obtain ⟨rest, split⟩ := List.take_prefix_take_left le
  rw [← split]
  exact waits.append rest

theorem not_waits_of_shipped (shipped : env.derivedPseudo? env.defaultLanguage = none) :
    ¬ Waits env resources store links := by
  rintro ⟨link, found, inDefault, -⟩
  have derived := List.find?_some found
  simp [isDerived, inDefault, shipped] at derived

theorem waits_congr
    (same : ∀ name ∈ resources, after.loaded? ⟨name, env.defaultLanguage⟩ =
      store.loaded? ⟨name, env.defaultLanguage⟩) :
    Waits env resources after links ↔ Waits env resources store links := by
  have missing : (∃ name ∈ resources, after.loaded? ⟨name, env.defaultLanguage⟩ = none) ↔
      ∃ name ∈ resources, store.loaded? ⟨name, env.defaultLanguage⟩ = none :=
    exists_congr fun name => and_congr_right fun listed => by rw [same name listed]
  simp only [Waits, missing]

theorem locale_stalled (link : Link) (store : Store) :
    (link.locale env resources store).2.stalled = true ↔
      store.stalled = true ∨ Waits env resources store [link] := by
  cases built : link.locale? with
  | some kept =>
      have other : link.isDerived env = false := by simp [isDerived, built]
      simp only [locale, built, waits_cons_of_not_derived other, not_waits_nil, or_false]
  | none =>
      have stalled := env.resources_stalled link.language.code resources store
      simp only [locale, built, buildLocale]
      rw [stalled]
      cases derived : env.derivedPseudo? link.language.code with
      | none =>
          have other : link.isDerived env = false := by simp [isDerived, derived]
          simp [waits_cons_of_not_derived other, not_waits_nil]
      | some pseudo =>
          have derived : link.isDerived env = true := by simp [isDerived, built, derived]
          rw [waits_cons_of_derived derived]
          refine or_congr_right ((and_iff_right rfl).trans (and_congr_right ?_))
          intro inDefault
          rw [inDefault]

/-- What waits behind a locale that is built waited before. -/
theorem waits_locale (based : Store.Based env store) (link : Link) (links : List Link)
    (ends : ¬ Waits env resources store [link]) :
    Waits env resources (link.locale env resources store).2 links ↔
      Waits env resources store (link :: links) := by
  cases built : link.locale? with
  | some kept =>
      have other : link.isDerived env = false := by simp [isDerived, built]
      simp only [locale, built, waits_cons_of_not_derived other]
  | none =>
      simp only [locale, built, buildLocale]
      cases derived : env.derivedPseudo? link.language.code with
      | none =>
          have other : link.isDerived env = false := by simp [isDerived, derived]
          rw [waits_cons_of_not_derived other]
          by_cases shipped : env.derivedPseudo? env.defaultLanguage = none
          · exact iff_of_false (not_waits_of_shipped shipped) (not_waits_of_shipped shipped)
          · refine waits_congr ?_
            intro name listed
            have differ : (⟨name, env.defaultLanguage⟩ : Key) ≠ ⟨name, link.language.code⟩ := by
              intro same
              rw [(Key.mk.inj same).2, derived] at shipped
              exact shipped rfl
            rw [env.resources_loaded?, if_pos listed, Environment.resource_eq_shipped derived,
              Environment.shipped_loaded? differ]
      | some pseudo =>
          have isDerived : link.isDerived env = true := by simp [isDerived, built, derived]
          rw [waits_cons_of_derived isDerived] at ends ⊢
          refine iff_of_false ?_ ends
          -- Whatever the language, what it is made from is kept from here on.
          rintro ⟨-, -, -, name, listed, missing⟩
          have kept := based.resource ⟨name, link.language.code⟩ ⟨name, link.language.code⟩
            (by rw [env.resource_keeps]; rfl)
          rw [Environment.basis_of_derived derived] at kept
          rw [env.resources_loaded?, if_pos listed] at missing
          rw [missing] at kept
          cases kept

/-- Links and a store after the locales of so many links were needed. -/
structure Advances (env : Environment) (resources : List String) (links : List Link)
    (store : Store) (count : Nat) (linksAfter : List Link) (after : Store) : Prop where
  stalled : after.stalled = true ↔
    store.stalled = true ∨ Waits env resources store (links.take count)
  waits : ¬ Waits env resources store (links.take count) → ∀ more,
    (Waits env resources after (linksAfter.take more) ↔
      Waits env resources store (links.take (max count more)))

namespace Advances

variable {linksAfter linksLast : List Link} {last : Store} {count more : Nat}

theorem refl (env : Environment) (resources : List String) (links : List Link) (store : Store) :
    Advances env resources links store 0 links store where
  stalled := by simp [not_waits_nil]
  waits _ more := by rw [Nat.zero_max]

theorem trans (first : Advances env resources links store count linksAfter after)
    (second : Advances env resources linksAfter after more linksLast last) :
    Advances env resources links store (max count more) linksLast last := by
  by_cases waits : Waits env resources store (links.take count)
  · have still := waits.take_mono (Nat.le_max_left count more)
    refine ⟨?_, fun ends => absurd still ends⟩
    rw [second.stalled, first.stalled]
    simp [waits, still]
  · refine ⟨?_, ?_⟩
    · rw [second.stalled, first.stalled, first.waits waits]
      simp [waits]
    · intro ends most
      rw [second.waits (mt (first.waits waits more).mp ends), first.waits waits, Nat.max_assoc]

theorem reported (advances : Advances env resources links store count linksAfter after)
    (diagnostics : List Diagnostic) :
    Advances env resources links store count linksAfter (after.reportAll diagnostics) where
  stalled := advances.stalled
  waits := advances.waits

theorem cons (based : Store.Based env store) {locale : Locale}
    (advances : Advances env resources links (link.locale env resources store).2 count linksAfter
      after) :
    Advances env resources (link :: links) store (count + 1)
      ({ link with locale? := some locale } :: linksAfter) after := by
  have stalled := advances.stalled
  rw [locale_stalled] at stalled
  refine ⟨?_, ?_⟩
  · rw [stalled, List.take_succ_cons]
    by_cases here : Waits env resources store [link]
    · have whole := here.append (links.take count)
      simp only [List.cons_append, List.nil_append] at whole
      simp [here, whole]
    · rw [waits_locale based link _ here]
      simp [here]
  · rw [List.take_succ_cons]
    intro ends more
    have here : ¬ Waits env resources store [link] := fun waits => ends (waits.append _)
    cases more with
    | zero =>
        rw [List.take_zero, Nat.max_zero, List.take_succ_cons]
        exact iff_of_false not_waits_nil ends
    | succ more =>
        have other : isDerived env { link with locale? := some locale } = false := rfl
        rw [← waits_locale based link _ here] at ends
        rw [List.take_succ_cons, waits_cons_of_not_derived other, advances.waits ends,
          waits_locale based link _ here, Nat.succ_max_succ, List.take_succ_cons]

end Advances

end Link

theorem walk_advances {env : Environment} {resources : List String} {arguments : Arguments}
    {id : String} {needsValue : Bool} (salvage? : Option Found) (links : List Link) {store : Store}
    (based : Store.Based env store) :
    let outcome := walk env resources arguments id needsValue salvage? links store
    Link.Advances env resources links store
      (visited arguments id needsValue salvage? (Link.locales env resources links store)).length
      outcome.2.1 outcome.2.2 := by
  induction links generalizing salvage? store with
  | nil => exact .refl env resources [] store
  | cons link links ih =>
      simp only [walk, Link.locales, visited]
      cases (link.locale env resources store).1.judge arguments id needsValue salvage? with
      | ends found => exact .cons based (.refl env resources links _)
      | passes salvage? detail =>
          have basedAfter : Store.Based env ((link.locale env resources store).2.report detail) :=
            (based.locale link resources).congr rfl
          have later := ih salvage? basedAfter
          rw [Link.locales_report] at later
          exact .cons based ⟨later.stalled, later.waits⟩

/-- To build the first locales of a context, so many of them, is to wait for ever. -/
def Context.Waits (context : Context) (env : Environment) (store : Store) (count : Nat) : Prop :=
  Link.Waits env context.resources store (context.chain.take count)

theorem Context.walk_stalled (context : Context) {env : Environment} {store : Store}
    (based : Store.Based env store) (arguments : Arguments) (id : String) (needsValue : Bool) :
    (walk env context.resources arguments id needsValue none context.chain store).2.2.stalled =
        true ↔
      store.stalled = true ∨
        context.Waits env store
          (((context.locales env store).takeWhile
            (Locale.passes · arguments id needsValue)).length + 1) := by
  have advances := @walk_advances env context.resources arguments id needsValue none context.chain
    store based
  rw [advances.stalled, visited_eq, List.length_take, Link.length_locales,
    ← List.take_eq_take_min]
  rfl

namespace Session

variable {session : Session}

theorem outcome?_eq_none {call : α × Session} :
    outcome? call = none ↔ call.2.store.stalled = true := by
  simp [outcome?]

theorem outcome?_eq_some {call outcome : α × Session} :
    outcome? call = some outcome ↔ call.2.store.stalled = false ∧ call = outcome := by
  simp [outcome?]

theorem step?_query_eq_some {query : Query} {report : Report} {after : Session}
    (stepped : session.step? (.query query) = some (report, after)) :
    report.reply = (session.ask query).1 ∧
      report.fetches = (session.ask query).2.store.fetches ∧
      after.contexts = (session.ask query).2.contexts := by
  obtain ⟨-, same⟩ := outcome?_eq_some.mp stepped
  obtain ⟨rfl, rfl⟩ := Prod.mk.inj same
  exact ⟨rfl, rfl, rfl⟩

theorem Reachable.based (reached : session.Reachable) :
    session.Holds (Store.Based session.env) fun _ _ _ => True :=
  reached.upheld Store.Based.upkeep (fun _ _ => .of_empty) fun _ _ _ cache based =>
    based.congr cache

theorem stalled_upkeep (env : Environment) :
    Upkeep env (fun store => store.stalled = true) fun _ _ _ => True where
  reported _ stalled := stalled
  loaded {store} key stalled := (env.resource_stalled key store).mpr (.inl stalled)
  built _ _ _ := trivial

/-- Where the default language is not made from another, every load comes to an end. -/
theorem live_upkeep {env : Environment} (shipped : env.derivedPseudo? env.defaultLanguage = none) :
    Upkeep env (fun store => store.stalled = false) fun _ _ _ => True where
  reported _ live := live
  loaded {store} key live := by
    rw [← Bool.not_eq_true, env.resource_stalled]
    rintro (stalled | ⟨derived, inDefault, -⟩)
    · rw [live] at stalled
      cases stalled
    · rw [inDefault, shipped] at derived
      cases derived
  built _ _ _ := trivial

theorem step_stalled {stalled : Bool}
    (upkeep : Upkeep session.env (fun store => store.stalled = stalled) fun _ _ _ => True)
    (before : session.store.stalled = stalled) (step : Step) :
    (session.step step).2.store.stalled = stalled := by
  have holds : session.Holds (fun store => store.stalled = stalled) fun _ _ _ => True :=
    ⟨before, fun _ _ _ _ _ _ _ => trivial⟩
  exact (upkeep.perform step holds (fun _ => before) fun _ _ => before).sound

theorem run_stalled {stalled : Bool}
    (upkeep : Upkeep session.env (fun store => store.stalled = stalled) fun _ _ _ => True)
    (before : session.store.stalled = stalled) (steps : List Step) :
    (session.run steps).2.store.stalled = stalled := by
  induction steps generalizing session with
  | nil => exact before
  | cons step steps ih =>
      have upkeepAfter : Upkeep (session.step step).2.env
          (fun store => store.stalled = stalled) fun _ _ _ => True := by
        rw [step_env]
        exact upkeep
      exact ih upkeepAfter (step_stalled upkeep before step)

/-- There is an outcome of a run if nothing waits at its end: what waits once waits for ever. -/
theorem run?_of_live {steps : List Step} (live : (session.run steps).2.store.stalled = false) :
    session.run? steps = some (session.run steps) := by
  induction steps generalizing session with
  | nil => rfl
  | cons step steps ih =>
      have liveAfter : (session.step step).2.store.stalled = false := by
        rw [← Bool.not_eq_true]
        intro stalled
        have still := run_stalled (stalled_upkeep _) stalled steps
        exact Bool.false_ne_true (live.symm.trans still)
      have stepped : session.step? step = some (session.step step) :=
        outcome?_eq_some.mpr ⟨liveAfter, rfl⟩
      have ran := @ih (session.step step).2 live
      rw [run?, stepped]
      simp only [Option.bind_eq_bind, Option.bind_some, ran, Option.pure_def, run]

theorem run?_of_shipped (shipped : session.env.derivedPseudo? session.env.defaultLanguage = none)
    (live : session.store.stalled = false) (steps : List Step) :
    session.run? steps = some (session.run steps) :=
  run?_of_live (run_stalled (live_upkeep shipped) live steps)

/-- Sessions that are come to by steps of which each has an outcome. -/
inductive Reached : Session → Prop
  | opened (env : Environment) (sources : Sources) (capacity : Nat) (manualDrain : Bool) :
      Reached (.opened env sources capacity manualDrain)
  | step {session after : Session} {step : Step} {report : Report} (reached : Reached session)
      (stepped : session.step? step = some (report, after)) : Reached after

theorem Reached.live (reached : session.Reached) : session.store.stalled = false := by
  cases reached with
  | opened env sources capacity manualDrain => rfl
  | step _ stepped =>
      obtain ⟨live, same⟩ := outcome?_eq_some.mp stepped
      rwa [same] at live

theorem Reached.reachable (reached : session.Reached) : session.Reachable := by
  induction reached with
  | opened env sources capacity manualDrain => exact .opened env sources capacity manualDrain
  | @step session after step report _ stepped ih =>
      have reachable := Reachable.step step ih
      rwa [(outcome?_eq_some.mp stepped).2] at reachable

theorem Reached.run {steps : List Step} {reports : List Report} {after : Session}
    (reached : session.Reached) (ran : session.run? steps = some (reports, after)) :
    after.Reached ∧ session.run steps = (reports, after) := by
  induction steps generalizing session reports with
  | nil =>
      cases ran
      exact ⟨reached, rfl⟩
  | cons step steps ih =>
      simp only [run?, Option.bind_eq_bind, Option.bind_eq_some_iff, Option.pure_def,
        Option.some.injEq, Prod.mk.injEq] at ran
      obtain ⟨⟨report, next⟩, stepped, ⟨others, last⟩, ranLater, rfl, rfl⟩ := ran
      obtain ⟨reachedLast, same⟩ := ih (.step reached stepped) ranLater
      refine ⟨reachedLast, ?_⟩
      simp only [Session.run, (outcome?_eq_some.mp stepped).2, same]

end Session

end Phrasebook
