import Phrasebook.Proofs.Session.Upkeep

namespace Phrasebook

/-- What may be fetched: a resource with a parser, in a language that is not made from another. -/
structure Environment.Fetchable (env : Environment) (key : Key) : Prop where
  parsed : (env.registry.parserFor? key.resource).isSome
  plain : env.derivedPseudo? key.language = none

theorem Environment.Fetchable.available {env : Environment} {key : Key}
    (fetchable : env.Fetchable key) (isPseudo : (Pseudo.ofCode? key.language).isSome) :
    key.language ∈ env.available := by
  have plain := fetchable.plain
  unfold Environment.derivedPseudo? at plain
  split at plain
  · rename_i listed
    exact List.contains_iff_mem.mp listed
  · rw [plain] at isPseudo
    cases isPseudo

/-- Fetches and loads that lead from one store to another. -/
structure Store.Course (env : Environment) (before : Store) (fetches : List Key)
    (loads : List (Key × Loaded)) (after : Store) : Prop where
  kept : ∀ key loaded, before.loaded? key = some loaded → after.loaded? key = some loaded
  distinct : fetches.Nodup
  fresh : ∀ key ∈ fetches, before.loaded? key = none
  settled : ∀ key ∈ fetches, (after.loaded? key).isSome
  fetchable : ∀ key ∈ fetches, env.Fetchable key
  given : ∀ load ∈ loads, after.loaded? load.1 = some load.2

namespace Store.Course

variable {env : Environment} {before middle after : Store} {fetches moreFetches : List Key}
  {loads moreLoads : List (Key × Loaded)}

theorem refl (store : Store) : Course env store [] [] store :=
  ⟨fun _ _ found => found, .nil, nofun, nofun, nofun, nofun⟩

theorem trans (first : Course env before fetches loads middle)
    (second : Course env middle moreFetches moreLoads after) :
    Course env before (fetches ++ moreFetches) (loads ++ moreLoads) after := by
  refine ⟨?_, ?_, ?_, ?_, ?_, ?_⟩
  · exact fun key loaded found => second.kept key loaded (first.kept key loaded found)
  · refine List.nodup_append.mpr ⟨first.distinct, second.distinct, ?_⟩
    rintro key early _ late rfl
    have settled := first.settled key early
    rw [second.fresh key late] at settled
    cases settled
  · refine List.forall_mem_append.mpr ⟨first.fresh, ?_⟩
    intro key late
    cases found : before.loaded? key with
    | none => rfl
    | some loaded =>
        have kept := first.kept key loaded found
        rw [second.fresh key late] at kept
        cases kept
  · refine List.forall_mem_append.mpr ⟨?_, second.settled⟩
    intro key early
    obtain ⟨loaded, found⟩ := Option.isSome_iff_exists.mp (first.settled key early)
    rw [second.kept key loaded found]
    rfl
  · exact List.forall_mem_append.mpr ⟨first.fetchable, second.fetchable⟩
  · refine List.forall_mem_append.mpr ⟨?_, second.given⟩
    exact fun load early => second.kept load.1 load.2 (first.given load early)

theorem congr {store : Store} (course : Course env before fetches loads after)
    (cache : store.cache = after.cache) : Course env before fetches loads store := by
  have same : ∀ key, store.loaded? key = after.loaded? key := Store.loaded?_of_cache_eq cache
  refine ⟨?_, course.distinct, course.fresh, ?_, course.fetchable, ?_⟩
  · exact fun key loaded found => (same key).trans (course.kept key loaded found)
  · exact fun key member => (congrArg Option.isSome (same key)).trans (course.settled key member)
  · exact fun load member => (same load.1).trans (course.given load member)

theorem given_unique (course : Course env before fetches loads after) {key : Key}
    {first second : Loaded} (one : (key, first) ∈ loads) (other : (key, second) ∈ loads) :
    first = second := by
  have oneKept := course.given _ one
  rw [course.given _ other] at oneKept
  exact (Option.some.inj oneKept).symm

end Store.Course

/-- A store has come from another on some course, with all of it noted. -/
def Store.Grows (env : Environment) (before after : Store) : Prop :=
  ∃ fetches loads, after.fetches = before.fetches ++ fetches ∧
    after.loads = before.loads ++ loads ∧ Store.Course env before fetches loads after

namespace Store.Grows

variable {env : Environment} {before middle after store : Store} {key : Key} {loaded : Loaded}

theorem refl (store : Store) : Grows env store store :=
  ⟨[], [], (List.append_nil _).symm, (List.append_nil _).symm, .refl store⟩

theorem trans (first : Grows env before middle) (second : Grows env middle after) :
    Grows env before after := by
  obtain ⟨fetches, loads, fetched, noted, course⟩ := first
  obtain ⟨moreFetches, moreLoads, fetchedAfter, notedAfter, courseAfter⟩ := second
  refine ⟨fetches ++ moreFetches, loads ++ moreLoads, ?_, ?_, course.trans courseAfter⟩
  · rw [fetchedAfter, fetched, List.append_assoc]
  · rw [notedAfter, noted, List.append_assoc]

theorem congr (grows : Grows env before after) (fetches : store.fetches = after.fetches)
    (loads : store.loads = after.loads) (cache : store.cache = after.cache) :
    Grows env before store := by
  obtain ⟨newFetches, newLoads, fetched, noted, course⟩ := grows
  exact ⟨newFetches, newLoads, fetches.trans fetched, loads.trans noted, course.congr cache⟩

theorem noteLoad (found : store.loaded? key = some loaded) :
    Grows env store (store.noteLoad key loaded) := by
  refine ⟨[], [(key, loaded)], (List.append_nil _).symm, rfl, ?_⟩
  refine ⟨fun _ _ kept => kept, .nil, nofun, nofun, nofun, ?_⟩
  rintro load member
  cases List.mem_singleton.mp member
  exact found

theorem keep {fetches : List Key} (fresh : store.loaded? key = none)
    (fetched : after.fetches = store.fetches ++ fetches) (distinct : fetches.Nodup)
    (fetchable : ∀ other ∈ fetches, other = key ∧ env.Fetchable other)
    (noted : after.loads = store.loads ++ [(key, loaded)])
    (cached : after.cache = (key, loaded) :: store.cache) : Grows env store after := by
  have found : after.loaded? key = some loaded := by
    simp [Store.loaded?, cached]
  refine ⟨fetches, [(key, loaded)], fetched, noted, ?_⟩
  refine ⟨?_, distinct, ?_, ?_, ?_, ?_⟩
  · exact fun _ _ kept => Store.loaded?_of_fresh fresh cached kept
  · intro other member
    rw [(fetchable other member).1]
    exact fresh
  · intro other member
    rw [(fetchable other member).1, found]
    rfl
  · exact fun other member => (fetchable other member).2
  · rintro load member
    cases List.mem_singleton.mp member
    exact found

theorem afterReading (plain : env.derivedPseudo? key.language = none)
    (fresh : store.loaded? key = none) : Grows env store (env.afterReading key store) := by
  refine keep fresh rfl ?_ ?_ rfl rfl
  · unfold Environment.fetchesFor
    split
    · exact .nil
    · exact List.pairwise_singleton _ key
  · intro other member
    obtain ⟨rfl, parsed⟩ := Environment.eq_of_mem_fetchesFor member
    exact ⟨rfl, parsed, plain⟩

theorem shipped (plain : env.derivedPseudo? key.language = none) (store : Store) :
    Grows env store (env.shipped key store).2 := by
  obtain ⟨loaded, found, same⟩ | ⟨fresh, same⟩ := env.shipped_cases key store
  · rw [same]
    exact noteLoad found
  · rw [same]
    exact afterReading plain fresh

theorem resource (shippedDefault : env.derivedPseudo? env.defaultLanguage = none) (key : Key)
    (store : Store) : Grows env store (env.resource key store).2 := by
  obtain ⟨loaded, found, same⟩ | ⟨plain, fresh, same⟩ | ⟨pseudo, derived, fresh, same⟩ :=
    env.resource_cases key store
  · rw [same]
    exact noteLoad found
  · rw [same]
    exact afterReading plain fresh
  · have basePlain : env.derivedPseudo? (env.basis key).language = none :=
      Environment.derivedPseudo?_pluralLanguage shippedDefault key.language
    have differ : key ≠ env.basis key := (Environment.basis_ne shippedDefault derived).symm
    have freshAfter : (env.shipped (env.basis key) store).2.loaded? key = none :=
      (Environment.shipped_loaded? differ store).trans fresh
    rw [same]
    exact (shipped basePlain store).trans
      (keep freshAfter (List.append_nil _).symm .nil nofun rfl rfl)

theorem upkeep (shippedDefault : env.derivedPseudo? env.defaultLanguage = none) (start : Store) :
    Upkeep env (Grows env start) fun _ _ _ => True where
  reported _ grows := grows.congr rfl rfl rfl
  loaded key grows := grows.trans (resource shippedDefault key _)
  built _ _ _ := trivial

end Store.Grows

namespace Session

variable {session : Session}

theorem perform_grows
    (shippedDefault : session.env.derivedPseudo? session.env.defaultLanguage = none) (step : Step)
    (uninterrupted : step ≠ .invalidate) :
    Store.Grows session.env session.store (session.perform step).2.store := by
  have upkeep := Store.Grows.upkeep shippedDefault session.store
  have start : session.Holds (Store.Grows session.env session.store) fun _ _ _ => True :=
    ⟨.refl session.store, fun _ _ _ _ _ _ _ => trivial⟩
  refine (upkeep.perform step start ?_ ?_).sound
  · exact fun invalidates => absurd invalidates uninterrupted
  · exact fun change _ => (Store.Grows.refl session.store).congr rfl rfl rfl

theorem step_course (clear : session.store.cleared = session.store)
    (shippedDefault : session.env.derivedPseudo? session.env.defaultLanguage = none) (step : Step)
    (uninterrupted : step ≠ .invalidate) :
    Store.Course session.env session.store (session.step step).1.fetches
      (session.step step).1.loads (session.step step).2.store := by
  obtain ⟨fetches, loads, fetched, noted, course⟩ := perform_grows shippedDefault step uninterrupted
  have noFetches : session.store.fetches = [] := congrArg Store.fetches clear.symm
  have noLoads : session.store.loads = [] := congrArg Store.loads clear.symm
  have reportedFetches : (session.step step).1.fetches = fetches := by
    rw [noFetches] at fetched
    exact fetched
  have reportedLoads : (session.step step).1.loads = loads := by
    rw [noLoads] at noted
    exact noted
  rw [reportedFetches, reportedLoads]
  exact course.congr rfl

theorem run_course (clear : session.store.cleared = session.store)
    (shippedDefault : session.env.derivedPseudo? session.env.defaultLanguage = none)
    (span : List Step) (uninterrupted : ∀ step ∈ span, step ≠ .invalidate) :
    Store.Course session.env session.store ((session.run span).1.flatMap Report.fetches)
      ((session.run span).1.flatMap Report.loads) (session.run span).2.store := by
  induction span generalizing session with
  | nil => exact .refl session.store
  | cons step span ih =>
      obtain ⟨here, later⟩ := List.forall_mem_cons.mp uninterrupted
      have first := step_course clear shippedDefault step here
      have sameEnv : (session.step step).2.env = session.env := step_env session step
      have shippedAfter : (session.step step).2.env.derivedPseudo?
          (session.step step).2.env.defaultLanguage = none := by
        rw [sameEnv]
        exact shippedDefault
      have rest := ih rfl shippedAfter later
      rw [sameEnv] at rest
      exact first.trans rest

theorem step_fetchable (clear : session.store.cleared = session.store)
    (shippedDefault : session.env.derivedPseudo? session.env.defaultLanguage = none) (step : Step)
    (key : Key) (fetched : key ∈ (session.step step).1.fetches) : session.env.Fetchable key := by
  by_cases interrupted : step = .invalidate
  · subst interrupted
    have noFetches : session.store.fetches = [] := congrArg Store.fetches clear.symm
    have none : (session.step .invalidate).1.fetches = [] := noFetches
    rw [none] at fetched
    cases fetched
  · exact (step_course clear shippedDefault step interrupted).fetchable key fetched

theorem run_env (session : Session) (steps : List Step) :
    (session.run steps).2.env = session.env := by
  induction steps generalizing session with
  | nil => rfl
  | cons step steps ih => exact (ih (session.step step).2).trans (step_env session step)

/-- Without an invalidation in between no key is fetched twice, and all loads of a key give the
same, whatever becomes of the sources; what a resource is asked for and what a locale is built of
are such loads. Only what has a parser is ever fetched, and never under the code of a pseudo-locale
that is not shipped. -/
theorem fetched_once (env : Environment) (sources : Sources) (capacity : Nat) (manualDrain : Bool)
    (shippedDefault : env.derivedPseudo? env.defaultLanguage = none) (before : List Step) :
    let session := ((opened env sources capacity manualDrain).run before).2
    (∀ span : List Step, (∀ step ∈ span, step ≠ .invalidate) →
      ((session.run span).1.flatMap Report.fetches).Nodup ∧
      ∀ key first second, (key, first) ∈ (session.run span).1.flatMap Report.loads →
        (key, second) ∈ (session.run span).1.flatMap Report.loads → first = second) ∧
    (∀ key, ∃ loaded, (session.step (.resource key)).1.reply = .loaded loaded ∧
      (key, loaded) ∈ (session.step (.resource key)).1.loads) ∧
    (∀ language names, ∀ slot ∈ (env.resources language names session.store).1,
      (⟨slot.1, language⟩, slot.2) ∈ (env.resources language names session.store).2.loads) ∧
    ∀ step, ∀ key ∈ (session.step step).1.fetches,
      (env.registry.parserFor? key.resource).isSome ∧
        ((Pseudo.ofCode? key.language).isSome → key.language ∈ env.available) := by
  intro session
  have reached : session.Reachable := (Reachable.opened env sources capacity manualDrain).run before
  have sameEnv : session.env = env := run_env _ before
  have shippedHere : session.env.derivedPseudo? session.env.defaultLanguage = none := by
    rw [sameEnv]
    exact shippedDefault
  refine ⟨?_, ?_, ?_, ?_⟩
  · intro span uninterrupted
    have course := run_course reached.cleared shippedHere span uninterrupted
    exact ⟨course.distinct, fun key first second => course.given_unique⟩
  · intro key
    obtain ⟨earlier, noted⟩ := @Environment.resource_loads session.env key session.store
    refine ⟨(session.env.resource key session.store).1, rfl, ?_⟩
    have loads : (session.step (.resource key)).1.loads =
        (session.env.resource key session.store).2.loads := rfl
    rw [loads, noted]
    exact List.mem_append_right _ List.mem_cons_self
  · intro language names slot member
    obtain ⟨noted, loads, slots⟩ := @Environment.resources_loads env language names session.store
    rw [loads]
    exact List.mem_append_right _ (slots slot member)
  · intro step key fetched
    have fetchable := step_fetchable reached.cleared shippedHere step key fetched
    rw [sameEnv] at fetchable
    exact ⟨fetchable.parsed, fetchable.available⟩

theorem fetched_once_leaflet :
    Environment.leaflet.derivedPseudo? "en" = none ∧
    (((opened .leaflet .leaflet 64 false).run
      [.resource ⟨"leaflet.txt", "qps-ploc"⟩, .source (.text ⟨"leaflet.txt", "en"⟩ "Closed"),
        .resource ⟨"leaflet.txt", "en"⟩, .resource ⟨"leaflet.txt", "qps-ploc"⟩,
        .resource ⟨"leaflet", "en"⟩]).1.flatMap Report.fetches).Nodup := by
  have shippedDefault : Environment.leaflet.derivedPseudo? "en" = none := by decide +kernel
  refine ⟨shippedDefault, ?_⟩
  obtain ⟨span, -⟩ := fetched_once .leaflet .leaflet 64 false shippedDefault []
  exact (span _ (by simp)).1

end Session

end Phrasebook
