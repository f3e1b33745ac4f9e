import Mathlib.Data.List.Forall2
import Mathlib.Data.List.Nodup
import Phrasebook.Proofs.Session.Batch
import Phrasebook.Proofs.Session.DerivedSlots
import Phrasebook.Proofs.Session.Remarks
import Phrasebook.Proofs.Session.Span

namespace Phrasebook

namespace Diagnostic

/-- What failed to load, if that is what the diagnostic tells of. -/
def failedKey? (diagnostic : Diagnostic) : Option Key :=
  match diagnostic.detail with
  | .load resource _ => some ⟨resource, diagnostic.language⟩
  | _ => none

def failedKeys (sent : List Diagnostic) : List Key :=
  sent.filterMap failedKey?

theorem failedKeys_append (first second : List Diagnostic) :
    failedKeys (first ++ second) = failedKeys first ++ failedKeys second :=
  List.filterMap_append

theorem failedKey?_of_not_isLoad {diagnostic : Diagnostic} (noLoad : diagnostic.isLoad = false) :
    diagnostic.failedKey? = none := by
  obtain ⟨language, detail⟩ := diagnostic
  cases detail with
  | load resource message => cases noLoad
  | _ => rfl

theorem failedKeys_of_not_isLoad {sent : List Diagnostic}
    (noLoads : ∀ diagnostic ∈ sent, diagnostic.isLoad = false) : failedKeys sent = [] :=
  List.filterMap_eq_nil_iff.mpr fun diagnostic member =>
    failedKey?_of_not_isLoad (noLoads diagnostic member)

end Diagnostic

theorem Loaded.failure_resource {parser : Resource.Parser} {key : Key}
    {fetched : Except FetchFailure String} {failure : LoadFailure}
    (failed : Loaded.ofFetched parser key fetched = .error failure) :
    failure.resource = key.resource := by
  cases fetched with
  | error reason =>
      cases failed
      rfl
  | ok text =>
      simp only [Loaded.ofFetched] at failed
      cases parsed : parser text <;> rw [parsed] at failed <;> cases failed
      rfl

theorem Environment.resource_of_read {env : Environment} {sources : Sources} {key : Key}
    {failure : LoadFailure} (failed : env.read sources key = .error failure) :
    failure.resource = key.resource := by
  unfold Environment.read at failed
  split at failed
  · cases failed
    rfl
  · exact Loaded.failure_resource failed

theorem Environment.readReports_eq (env : Environment) (sources : Sources) (key : Key) :
    env.readReports sources key =
      match env.read sources key with
      | .ok _ => []
      | .error failure => [⟨key.language, .load key.resource failure.message⟩] := by
  unfold Environment.readReports
  cases read : env.read sources key with
  | ok entries => rfl
  | error failure => simp only [Diagnostic.ofLoaded, resource_of_read read]

theorem Diagnostic.failedKeys_reads (env : Environment) (sources : Sources) (reads : List Key) :
    failedKeys (reads.flatMap (env.readReports sources)) =
      reads.filter fun key => !(env.read sources key).isOk := by
  induction reads with
  | nil => rfl
  | cons key reads ih =>
      rw [List.flatMap_cons, failedKeys_append, ih, env.readReports_eq, List.filter_cons]
      cases env.read sources key <;> rfl

namespace Store

/-- It was to be had in its own language and could not be loaded. -/
def Failed (env : Environment) (store : Store) (key : Key) (failure : LoadFailure) : Prop :=
  env.derivedPseudo? key.language = none ∧ store.loaded? key = some (.error failure)

/-- What is sent on the way from one store to another tells of each new failure once, and of no
other. -/
structure Announces (env : Environment) (before : Store) (sent : List Diagnostic) (after : Store) :
    Prop where
  kept : ∀ key loaded, before.loaded? key = some loaded → after.loaded? key = some loaded
  distinct : (Diagnostic.failedKeys sent).Nodup
  told : ∀ key, key ∈ Diagnostic.failedKeys sent ↔
    before.loaded? key = none ∧ ∃ failure, after.Failed env key failure
  worded : ∀ diagnostic ∈ sent, ∀ key, diagnostic.failedKey? = some key →
    ∃ failure, after.Failed env key failure ∧
      diagnostic = ⟨key.language, .load key.resource failure.message⟩

namespace Announces

variable {env : Environment} {before middle after : Store} {sent more : List Diagnostic}

theorem silent (nothing : sent = []) (cache : after.cache = before.cache) :
    Announces env before sent after := by
  have same : ∀ key, after.loaded? key = before.loaded? key := loaded?_of_cache_eq cache
  subst nothing
  refine ⟨fun key loaded found => (same key).trans found, .nil, ?_, nofun⟩
  intro key
  constructor
  · intro member
    cases member
  · rintro ⟨fresh, failure, -, failed⟩
    rw [same, fresh] at failed
    cases failed

theorem congr {store : Store} (announces : Announces env before sent after)
    (cache : store.cache = after.cache) : Announces env before sent store := by
  have same : store.loaded? = after.loaded? := funext (loaded?_of_cache_eq cache)
  obtain ⟨kept, distinct, told, worded⟩ := announces
  simp only [Failed, ← same] at kept told worded
  exact ⟨kept, distinct, told, worded⟩

theorem fresh_at_start (announces : Announces env before sent after) {key : Key}
    (fresh : after.loaded? key = none) : before.loaded? key = none := by
  cases known : before.loaded? key with
  | none => rfl
  | some loaded =>
      rw [announces.kept key loaded known] at fresh
      cases fresh

theorem trans (first : Announces env before sent middle)
    (second : Announces env middle more after) :
    Announces env before (sent ++ more) after := by
  have stays {key : Key} {failure : LoadFailure} (failed : middle.Failed env key failure) :
      after.Failed env key failure :=
    ⟨failed.1, second.kept key _ failed.2⟩
  refine ⟨?_, ?_, ?_, ?_⟩
  · exact fun key loaded known => second.kept key loaded (first.kept key loaded known)
  · rw [Diagnostic.failedKeys_append]
    refine List.nodup_append.mpr ⟨first.distinct, second.distinct, ?_⟩
    rintro key early _ late rfl
    obtain ⟨-, failure, -, known⟩ := (first.told key).mp early
    rw [((second.told key).mp late).1] at known
    cases known
  · intro key
    rw [Diagnostic.failedKeys_append, List.mem_append, first.told, second.told]
    constructor
    · rintro (⟨fresh, failure, failed⟩ | ⟨fresh, failed⟩)
      · exact ⟨fresh, failure, stays failed⟩
      · exact ⟨first.fresh_at_start fresh, failed⟩
    · rintro ⟨fresh, failure, plain, failed⟩
      -- A failure that is there at the end was there in the middle, or has come since.
      cases known : middle.loaded? key with
      | none => exact .inr ⟨rfl, failure, plain, failed⟩
      | some loaded =>
          obtain rfl : loaded = .error failure := by
            rw [second.kept key loaded known] at failed
            exact Option.some.inj failed
          exact .inl ⟨fresh, failure, plain, known⟩
  · intro diagnostic member key tells
    rcases List.mem_append.mp member with early | late
    · obtain ⟨failure, failed, worded⟩ := first.worded diagnostic early key tells
      exact ⟨failure, stays failed, worded⟩
    · exact second.worded diagnostic late key tells

end Announces

section Gains

variable {env : Environment} {start store : Store} {wanted : Key → Prop}
  {details : List Diagnostic} {key : Key}
  (shippedDefault : env.derivedPseudo? env.defaultLanguage = none)

include shippedDefault

theorem Gains.of_read (gains : Gains env start wanted details store)
    (read : env.Reads start wanted key) :
    env.derivedPseudo? key.language = none ∧ start.loaded? key = none ∧
      store.loaded? key = some (env.read start.sources key) := by
  obtain ⟨asked, -, readFor⟩ := id read
  have plain : env.derivedPseudo? key.language = none := by
    rw [← readFor.basis]
    exact Gains.plain_basis shippedDefault asked
  refine ⟨plain, readFor.fresh, (gains.kept key _).mpr ⟨?_, .inr (.inr read)⟩⟩
  rw [Environment.resource_of_plain plain readFor.fresh]

omit shippedDefault in
theorem Gains.read_of_new (gains : Gains env start wanted details store)
    (plain : env.derivedPseudo? key.language = none) (fresh : start.loaded? key = none)
    (present : (store.loaded? key).isSome) : env.Reads start wanted key := by
  obtain ⟨loaded, known⟩ := Option.isSome_iff_exists.mp present
  obtain ⟨-, kept | wants | read⟩ := (gains.kept key loaded).mp known
  · rw [fresh] at kept
    cases kept
  · exact ⟨key, wants, fresh, Environment.basis_eq_self plain, fresh⟩
  · exact read

theorem Gains.announces (gains : Gains env start wanted details store)
    (quiet : start.reports = []) (noLoads : ∀ remark ∈ details, remark.isLoad = false) :
    Announces env start store.reports store := by
  obtain ⟨reads, distinct, reads_iff, read⟩ := gains.read
  have reports := read.reports
  rw [quiet, List.nil_append] at reports
  have failed : (Diagnostic.failedKeys store.reports).Perm
      (reads.filter fun key => !(env.read start.sources key).isOk) := by
    have told := reports.filterMap Diagnostic.failedKey?
    rwa [List.filterMap_append, ← Diagnostic.failedKeys, ← Diagnostic.failedKeys,
      ← Diagnostic.failedKeys, Diagnostic.failedKeys_of_not_isLoad noLoads, List.append_nil,
      Diagnostic.failedKeys_reads] at told
  refine ⟨fun key loaded known => gains.kept_of_start known, ?_, ?_, ?_⟩
  · exact failed.nodup_iff.mpr (distinct.filter _)
  · intro key
    rw [failed.mem_iff, List.mem_filter, reads_iff]
    constructor
    · rintro ⟨isRead, fails⟩
      obtain ⟨plain, fresh, known⟩ := gains.of_read shippedDefault isRead
      refine ⟨fresh, ?_⟩
      cases came : env.read start.sources key with
      | ok entries =>
          rw [came] at fails
          cases fails
      | error failure => exact ⟨failure, plain, came ▸ known⟩
    · rintro ⟨fresh, failure, plain, known⟩
      have isRead := gains.read_of_new plain fresh (by rw [known]; rfl)
      obtain ⟨-, -, came⟩ := gains.of_read shippedDefault isRead
      refine ⟨isRead, ?_⟩
      rw [Option.some.inj (came.symm.trans known)]
      rfl
  · intro diagnostic member key tells
    rcases List.mem_append.mp (reports.mem_iff.mp member) with loaded | detail
    · obtain ⟨other, among, reported⟩ := List.mem_flatMap.mp loaded
      obtain ⟨plain, -, known⟩ := gains.of_read shippedDefault ((reads_iff other).mp among)
      rw [env.readReports_eq] at reported
      cases came : env.read start.sources other with
      | ok entries =>
          rw [came] at reported
          cases reported
      | error failure =>
          rw [came] at reported known
          obtain rfl := List.mem_singleton.mp reported
          obtain rfl : other = key := Option.some.inj tells
          exact ⟨failure, ⟨plain, known⟩, rfl⟩
    · rw [Diagnostic.failedKey?_of_not_isLoad (noLoads diagnostic detail)] at tells
      cases tells

end Gains

/-- Whatever has been kept since was loaded, and that is noted. -/
def NotedSince (start store : Store) : Prop :=
  ∀ key loaded, store.loaded? key = some loaded →
    start.loaded? key = some loaded ∨ (key, loaded) ∈ store.loads

namespace NotedSince

variable {start store after : Store} {key : Key} {loaded : Loaded}

theorem congr (noted : NotedSince start store) (cache : after.cache = store.cache)
    (loads : after.loads = store.loads) : NotedSince start after := by
  intro key loaded known
  rw [loads]
  exact noted key loaded ((loaded?_of_cache_eq cache key).symm.trans known)

theorem noteLoad (noted : NotedSince start store) (key : Key) (loaded : Loaded) :
    NotedSince start (store.noteLoad key loaded) :=
  fun other found known => (noted other found known).imp_right (List.mem_append_left _)

theorem keep (noted : NotedSince start store)
    (cached : after.cache = (key, loaded) :: store.cache)
    (loads : after.loads = store.loads ++ [(key, loaded)]) : NotedSince start after := by
  intro other found known
  rw [loaded?_of_cached cached] at known
  rw [loads]
  split at known
  · rename_i same
    subst same
    cases known
    exact .inr (List.mem_append_right _ List.mem_cons_self)
  · exact (noted other found known).imp_right (List.mem_append_left _)

theorem shipped (noted : NotedSince start store) (env : Environment) (key : Key) :
    NotedSince start (env.shipped key store).2 := by
  obtain ⟨loaded, -, same⟩ | ⟨-, same⟩ := env.shipped_cases key store
  · rw [same]
    exact noted.noteLoad key loaded
  · rw [same]
    exact noted.keep rfl rfl

theorem resource (noted : NotedSince start store) (env : Environment) (key : Key) :
    NotedSince start (env.resource key store).2 := by
  obtain ⟨loaded, -, same⟩ | ⟨plain, -, -⟩ | ⟨pseudo, -, -, same⟩ := env.resource_cases key store
  · rw [same]
    exact noted.noteLoad key loaded
  · rw [Environment.resource_eq_shipped plain]
    exact noted.shipped env key
  · rw [same]
    exact (noted.shipped env (env.basis key)).keep rfl rfl

theorem upkeep (env : Environment) (start : Store) :
    Upkeep env (NotedSince start) fun _ _ _ => True where
  reported _ noted := noted.congr rfl rfl
  loaded key noted := noted.resource env key
  built _ _ _ := trivial

end NotedSince

end Store

section Remarks

variable {arguments : Arguments} {id : String} {locales : List Locale}

theorem remarks_not_isLoad {needsValue : Bool} {salvage? : Option Found} {remark : Diagnostic}
    (member : remark ∈ remarks arguments id needsValue salvage? locales) :
    remark.isLoad = false := by
  have passed : List.Forall₂
      (fun remark locale => remark.isLoad = false ∧ locale.Passed arguments id remark)
      (remarks arguments id needsValue salvage? locales)
      (locales.takeWhile (Locale.passes · arguments id needsValue)) :=
    (remarks_passed needsValue salvage? locales).flip.imp
      fun _ _ passed => ⟨passed.not_isLoad, passed⟩
  exact ((List.forall₂_and_left _ _).mp passed).1 remark member

theorem Query.remarks_not_isLoad {query : Query} {remark : Diagnostic}
    (member : remark ∈ query.remarks locales) : remark.isLoad = false := by
  cases query with
  | ready name => cases member
  | value name id arguments => exact Phrasebook.remarks_not_isLoad member
  | entity name id arguments =>
      rcases List.mem_append.mp member with onLanguage | onAttribute
      · exact Phrasebook.remarks_not_isLoad onLanguage
      · rw [(Session.entityOf_reported arguments id locales).2] at onAttribute
        cases reported : reported? arguments id locales with
        | none =>
            rw [reported] at onAttribute
            cases onAttribute
        | some locale =>
            rw [reported] at onAttribute
            exact Locale.attributeReports_not_isLoad onAttribute
  | values name requests =>
      obtain ⟨request, -, remarked⟩ := List.mem_flatMap.mp member
      exact Phrasebook.remarks_not_isLoad remarked

end Remarks

namespace Session

/-- What a step sends to whoever listens. -/
def sent (session : Session) (step : Step) : List Diagnostic :=
  (session.perform step).2.store.reports

def sentIn (session : Session) : List Step → List Diagnostic
  | [] => []
  | step :: span => session.sent step ++ (session.step step).2.sentIn span

variable {session : Session}

theorem request_store (session : Session) (name : String) (languages : List String) :
    (session.request name languages).2.store = session.store := by
  unfold request
  cases session.context? name with
  | none => rfl
  | some context =>
      simp only
      cases context.request session.env languages <;> rfl

theorem info_store (session : Session) (name : String) :
    (session.perform (.info name)).2.store = session.store := by
  simp only [perform]
  cases session.context? name <;> rfl

section Span

variable (clear : session.store.cleared = session.store)
  (shippedDefault : session.env.derivedPseudo? session.env.defaultLanguage = none)

include clear shippedDefault

theorem askAll_announces (queries : List Query) :
    Store.Announces session.env session.store (session.askAll queries).2.store.reports
      (session.askAll queries).2.store := by
  obtain ⟨-, onward⟩ := (Onward.refl session).askAll shippedDefault queries
  refine onward.gains.announces shippedDefault (congrArg Store.reports clear.symm) ?_
  intro remark member
  obtain ⟨query, -, remarked⟩ := List.mem_flatMap.mp member
  exact Query.remarks_not_isLoad remarked

theorem perform_announces (step : Step) (uninterrupted : step ≠ .invalidate) :
    Store.Announces session.env session.store (session.sent step)
      (session.perform step).2.store := by
  have quiet : session.store.reports = [] := congrArg Store.reports clear.symm
  have unchanged (same : (session.perform step).2.store = session.store) :
      Store.Announces session.env session.store (session.sent step)
        (session.perform step).2.store := by
    rw [sent, same]
    exact .silent quiet rfl
  cases step with
  | query query => exact askAll_announces clear shippedDefault [query]
  | parallel queries => exact askAll_announces clear shippedDefault queries
  | resource key =>
      exact ((Store.Gains.refl session.env session.store).resource shippedDefault key).announces
        shippedDefault quiet nofun
  | request name languages => exact unchanged (session.request_store name languages)
  | info name => exact unchanged (session.info_store name)
  | source change => exact .silent quiet rfl
  | invalidate => exact absurd rfl uninterrupted
  | context name resources => exact unchanged rfl
  | drop name => exact unchanged rfl
  | pluralLanguage language => exact unchanged rfl
  | environment => exact unchanged rfl
  | subscribe => exact unchanged rfl
  | drain => exact unchanged rfl

theorem run_announces (span : List Step) (uninterrupted : ∀ step ∈ span, step ≠ .invalidate) :
    Store.Announces session.env session.store (session.sentIn span)
      (session.run span).2.store := by
  induction span generalizing session with
  | nil => exact .silent rfl rfl
  | cons step span ih =>
      obtain ⟨here, later⟩ := List.forall_mem_cons.mp uninterrupted
      have first : Store.Announces session.env session.store (session.sent step)
          (session.step step).2.store :=
        (perform_announces clear shippedDefault step here).congr rfl
      have sameEnv : (session.step step).2.env = session.env := step_env session step
      have shippedAfter : (session.step step).2.env.derivedPseudo?
          (session.step step).2.env.defaultLanguage = none := by
        rw [sameEnv]
        exact shippedDefault
      have rest := ih rfl shippedAfter later
      rw [sameEnv] at rest
      exact first.trans rest

end Span

theorem step_noted (session : Session) (step : Step) {key : Key} {loaded : Loaded}
    (known : (session.step step).2.store.loaded? key = some loaded) :
    session.store.loaded? key = some loaded ∨ (key, loaded) ∈ (session.step step).1.loads := by
  have start : session.Holds (Store.NotedSince session.store) fun _ _ _ => True :=
    ⟨fun _ _ known => .inl known, fun _ _ _ _ _ _ _ => trivial⟩
  have after := (Store.NotedSince.upkeep session.env session.store).perform step start
    (fun _ _ _ known => by cases known)
    (fun _ _ => start.sound.congr rfl rfl)
  exact after.sound key loaded known

theorem run_noted (session : Session) (steps : List Step) {key : Key} {loaded : Loaded}
    (known : (session.run steps).2.store.loaded? key = some loaded) :
    session.store.loaded? key = some loaded ∨
      (key, loaded) ∈ (session.run steps).1.flatMap Report.loads := by
  induction steps generalizing session with
  | nil => exact .inl known
  | cons step steps ih =>
      rcases ih (session.step step).2 known with middle | later
      · exact (session.step_noted step middle).imp_right (List.mem_append_left _)
      · exact .inr (List.mem_append_right _ later)

theorem run_append (session : Session) (first second : List Step) :
    (session.run (first ++ second)).2 = ((session.run first).2.run second).2 := by
  induction first generalizing session with
  | nil => rfl
  | cons step first ih => exact ih (session.step step).2

/-- A session that has just begun, or has just forgotten what it had loaded. -/
structure Fresh (session : Session) : Prop where
  reached : session.Reachable
  empty : session.store.cache = []

theorem fresh_run (env : Environment) (sources : Sources) (capacity : Nat) (manualDrain : Bool)
    {before : List Step} (ends : before = [] ∨ before.getLast? = some .invalidate) :
    ((opened env sources capacity manualDrain).run before).2.Fresh := by
  refine ⟨(Reachable.opened env sources capacity manualDrain).run before, ?_⟩
  rcases ends with rfl | last
  · rfl
  · obtain ⟨earlier, rfl⟩ := List.getLast?_eq_some_iff.mp last
    rw [run_append]
    rfl

namespace Fresh

variable (fresh : session.Fresh)
  (shippedDefault : session.env.derivedPseudo? session.env.defaultLanguage = none)
  {span : List Step} (uninterrupted : ∀ step ∈ span, step ≠ .invalidate) {key : Key}

include fresh

theorem loaded?_eq_none (key : Key) : session.store.loaded? key = none := by
  rw [Store.loaded?, fresh.empty]
  rfl

include shippedDefault uninterrupted

theorem loaded?_iff_loads {loaded : Loaded} :
    (session.run span).2.store.loaded? key = some loaded ↔
      (key, loaded) ∈ (session.run span).1.flatMap Report.loads := by
  have course := run_course fresh.reached.cleared shippedDefault span uninterrupted
  refine ⟨fun known => ?_, course.given (key, loaded)⟩
  refine (session.run_noted span known).resolve_left ?_
  rw [fresh.loaded?_eq_none]
  exact nofun

theorem mem_failedKeys_iff :
    key ∈ Diagnostic.failedKeys (session.sentIn span) ↔
      session.env.derivedPseudo? key.language = none ∧
        ∃ failure, (key, .error failure) ∈ (session.run span).1.flatMap Report.loads := by
  have announces := run_announces fresh.reached.cleared shippedDefault span uninterrupted
  rw [announces.told]
  simp only [fresh.loaded?_eq_none, Store.Failed, true_and, exists_and_left,
    fresh.loaded?_iff_loads shippedDefault uninterrupted]

theorem count_failedKeys {failure : LoadFailure}
    (plain : session.env.derivedPseudo? key.language = none)
    (failed : (key, .error failure) ∈ (session.run span).1.flatMap Report.loads) :
    (Diagnostic.failedKeys (session.sentIn span)).count key = 1 := by
  have announces := run_announces fresh.reached.cleared shippedDefault span uninterrupted
  apply List.count_eq_one_of_mem announces.distinct
  exact (fresh.mem_failedKeys_iff shippedDefault uninterrupted).mpr ⟨plain, failure, failed⟩

/-- What fails for a pseudo-locale that is not shipped has failed for the default language. -/
theorem basis_failed {pseudo : Pseudo} {failure : LoadFailure}
    (derived : session.env.derivedPseudo? key.language = some pseudo)
    (failed : (key, .error failure) ∈ (session.run span).1.flatMap Report.loads) :
    (⟨key.resource, session.env.defaultLanguage⟩, .error failure) ∈
      (session.run span).1.flatMap Report.loads := by
  have sameEnv : (session.run span).2.env = session.env := run_env session span
  have derives : Store.Derives session.env (session.run span).2.store := by
    have atEnd := (fresh.reached.run span).derives (by rw [sameEnv]; exact shippedDefault)
    rw [sameEnv] at atEnd
    exact atEnd.sound
  have known := (fresh.loaded?_iff_loads shippedDefault uninterrupted).mpr failed
  obtain ⟨base, knownBase, same⟩ := derives key pseudo _ derived known
  rw [Environment.basis_of_derived derived,
    fresh.loaded?_iff_loads shippedDefault uninterrupted] at knownBase
  cases base with
  | ok entries => cases same
  | error reason =>
      cases same
      exact knownBase

end Fresh

/-- In a span in which nothing is forgotten, and which begins with nothing kept, one diagnostic is
sent for each resource and language that were loaded and failed, and none for others. None is sent
under the code of a pseudo-locale that is not shipped: what fails for it has failed for the default
language, and is told of there, once. -/
theorem load_failures_told_once (env : Environment) (sources : Sources) (capacity : Nat)
    (manualDrain : Bool) (shippedDefault : env.derivedPseudo? env.defaultLanguage = none)
    (before span : List Step) (fresh : before = [] ∨ before.getLast? = some .invalidate)
    (uninterrupted : ∀ step ∈ span, step ≠ .invalidate) :
    let session := ((opened env sources capacity manualDrain).run before).2
    let loads := (session.run span).1.flatMap Report.loads
    let told := Diagnostic.failedKeys (session.sentIn span)
    (∀ key, env.derivedPseudo? key.language = none →
      (∃ failure, (key, .error failure) ∈ loads) ∧ told.count key = 1 ∨
      (∀ failure, (key, .error failure) ∉ loads) ∧ told.count key = 0) ∧
    (∀ key, (Pseudo.ofCode? key.language).isSome → key.language ∉ env.available →
      told.count key = 0 ∧
      ∀ failure, (key, .error failure) ∈ loads →
        (⟨key.resource, env.defaultLanguage⟩, .error failure) ∈ loads ∧
        told.count ⟨key.resource, env.defaultLanguage⟩ = 1) ∧
    ∀ diagnostic ∈ session.sentIn span, ∀ key, diagnostic.failedKey? = some key →
      ∃ failure, (key, .error failure) ∈ loads ∧
        diagnostic = ⟨key.language, .load key.resource failure.message⟩ := by
  intro session loads told
  have begun : session.Fresh := fresh_run env sources capacity manualDrain fresh
  have sameEnv : session.env = env := run_env _ before
  rw [← sameEnv] at shippedDefault ⊢
  have told_iff (key : Key) : key ∈ told ↔
      session.env.derivedPseudo? key.language = none ∧ ∃ failure, (key, .error failure) ∈ loads :=
    begun.mem_failedKeys_iff shippedDefault uninterrupted
  have announces := run_announces begun.reached.cleared shippedDefault span uninterrupted
  refine ⟨?_, ?_, ?_⟩
  · intro key plain
    by_cases failed : ∃ failure, (key, .error failure) ∈ loads
    · obtain ⟨failure, member⟩ := failed
      exact .inl ⟨⟨failure, member⟩,
        begun.count_failedKeys shippedDefault uninterrupted plain member⟩
    · refine .inr ⟨fun failure member => failed ⟨failure, member⟩, List.count_eq_zero.mpr ?_⟩
      exact fun member => failed ((told_iff key).mp member).2
  · intro key isPseudo unshipped
    obtain ⟨pseudo, isPseudo⟩ := Option.isSome_iff_exists.mp isPseudo
    have derived : session.env.derivedPseudo? key.language = some pseudo :=
      Environment.derivedPseudo?_eq_some_iff.mpr ⟨isPseudo, unshipped⟩
    refine ⟨List.count_eq_zero.mpr ?_, ?_⟩
    · intro member
      rw [((told_iff key).mp member).1] at derived
      cases derived
    · intro failure failed
      have inDefault := begun.basis_failed shippedDefault uninterrupted derived failed
      exact ⟨inDefault,
        begun.count_failedKeys shippedDefault uninterrupted shippedDefault inDefault⟩
  · intro diagnostic member key tells
    obtain ⟨failure, ⟨-, known⟩, worded⟩ := announces.worded diagnostic member key tells
    exact ⟨failure, (begun.loaded?_iff_loads shippedDefault uninterrupted).mp known, worded⟩

/-- A poster that is not there, needed for two contexts and in a pseudo-locale, with a text for it
that comes too late. -/
def posterSpan : List Step :=
  [.context "front" ["poster.txt"], .context "back" ["poster.txt", "leaflet.txt"],
    .request "front" ["qps-ploc"], .request "back" ["qps-ploc"],
    .parallel [.value "front" "line0" [], .value "back" "line0" []],
    .source (.text ⟨"poster.txt", "en"⟩ "Tonight"), .resource ⟨"poster.txt", "en"⟩]

theorem load_failures_of_poster :
    let before : List Step := [.resource ⟨"poster.txt", "en"⟩, .invalidate]
    let session := ((opened .leaflet .leaflet 64 false).run before).2
    let told := Diagnostic.failedKeys (session.sentIn posterSpan)
    Environment.leaflet.derivedPseudo? "en" = none ∧ before.getLast? = some .invalidate ∧
    (∀ step ∈ posterSpan, step ≠ .invalidate) ∧
    told.count ⟨"poster.txt", "en"⟩ = 1 ∧ told.count ⟨"poster.txt", "qps-ploc"⟩ = 0 := by
  intro before session told
  have shippedDefault : Environment.leaflet.derivedPseudo? "en" = none := by decide +kernel
  have isPseudo : (Pseudo.ofCode? "qps-ploc").isSome := by decide +kernel
  have unshipped : "qps-ploc" ∉ Environment.leaflet.available := by decide +kernel
  have uninterrupted : ∀ step ∈ posterSpan, step ≠ .invalidate := by simp [posterSpan]
  have fails : ((session.run posterSpan).1.flatMap Report.loads).any
      fun load => load.1 = ⟨"poster.txt", "qps-ploc"⟩ && !load.2.isOk := by
    decide +kernel
  obtain ⟨-, derived, -⟩ := load_failures_told_once .leaflet .leaflet 64 false shippedDefault before
    posterSpan (.inr rfl) uninterrupted
  obtain ⟨⟨key, failure | entries⟩, member, failed⟩ := List.any_eq_true.mp fails
  · obtain rfl : key = ⟨"poster.txt", "qps-ploc"⟩ := by
      simpa [Except.isOk, Except.toBool] using failed
    obtain ⟨unheard, inEnglish⟩ := derived ⟨"poster.txt", "qps-ploc"⟩ isPseudo unshipped
    exact ⟨shippedDefault, rfl, uninterrupted, (inEnglish failure member).2, unheard⟩
  · simp [Except.isOk, Except.toBool] at failed

end Session

end Phrasebook
