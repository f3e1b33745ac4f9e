import Phrasebook.Session.Environment

namespace Phrasebook

def Store.quiet (store : Store) : Store :=
  { store with reports := [] }

theorem Store.quiet_eq_iff {left right : Store} :
    left.quiet = right.quiet ↔ ∃ reports, right = { left with reports := reports } := by
  constructor
  · intro alike
    refine ⟨right.reports, ?_⟩
    cases left
    cases right
    simp only [Store.quiet, Store.mk.injEq] at alike ⊢
    simp [alike]
  · rintro ⟨reports, rfl⟩
    rfl

@[simp] theorem Store.quiet_reportAll (store : Store) (diagnostics : List Diagnostic) :
    (store.reportAll diagnostics).quiet = store.quiet := rfl

theorem Store.loaded?_keep_of_ne {key other : Key} (differ : other ≠ key) (store : Store)
    (loaded : Loaded) : (store.keep key loaded).loaded? other = store.loaded? other := by
  simp [Store.loaded?, Store.keep, List.lookup_cons, beq_eq_false_iff_ne.mpr differ]

theorem Store.loaded?_of_cached {store after : Store} {key : Key} {loaded : Loaded}
    (cached : after.cache = (key, loaded) :: store.cache) (other : Key) :
    after.loaded? other = if other = key then some loaded else store.loaded? other := by
  by_cases same : other = key
  · simp [loaded?, cached, same]
  · simp [loaded?, cached, List.lookup_cons, same, beq_eq_false_iff_ne.mpr same]

theorem Store.loaded?_of_cache_eq {store after : Store} (cache : after.cache = store.cache)
    (key : Key) : after.loaded? key = store.loaded? key :=
  congrArg (List.lookup key) cache

theorem Store.loaded?_of_fresh {store after : Store} {key other : Key} {loaded found : Loaded}
    (fresh : store.loaded? key = none) (cached : after.cache = (key, loaded) :: store.cache)
    (known : store.loaded? other = some found) : after.loaded? other = some found := by
  have differ : other ≠ key := by
    rintro rfl
    rw [fresh] at known
    cases known
  rw [loaded?_of_cached cached, if_neg differ, known]

namespace Environment

variable (env : Environment)

def read (sources : Sources) (key : Key) : Loaded :=
  match env.registry.parserFor? key.resource with
  | none => .error (.unknownFormat key.resource)
  | some parser => .ofFetched parser key (sources.fetch key)

def fetchesFor (key : Key) : List Key :=
  match env.registry.parserFor? key.resource with
  | none => []
  | some _ => [key]

/-- The key that is fetched when a key has to be loaded. -/
def basis (key : Key) : Key :=
  ⟨key.resource, env.pluralLanguage key.language⟩

def afterReading (key : Key) (store : Store) : Store where
  sources := store.sources
  cache := (key, env.read store.sources key) :: store.cache
  fetches := store.fetches ++ env.fetchesFor key
  loads := store.loads ++ [(key, env.read store.sources key)]
  reports := store.reports ++ Diagnostic.ofLoaded key (env.read store.sources key)
  stalled := store.stalled

def afterDeriving (key : Key) (loaded : Loaded) (store : Store) : Store :=
  ((store.awaiting (env.basis key = key)).keep key loaded).noteLoad key loaded

variable {env}
variable {key : Key} {loaded : Loaded} {store : Store}

theorem derivedPseudo?_pluralLanguage (shipped : env.derivedPseudo? env.defaultLanguage = none)
    (language : String) : env.derivedPseudo? (env.pluralLanguage language) = none := by
  simp only [pluralLanguage]
  split
  · exact shipped
  · rename_i plain
    exact Option.not_isSome_iff_eq_none.mp plain

theorem basis_eq_self (plain : env.derivedPseudo? key.language = none) : env.basis key = key := by
  simp [basis, pluralLanguage, plain]

theorem basis_of_derived {pseudo : Pseudo}
    (derived : env.derivedPseudo? key.language = some pseudo) :
    env.basis key = ⟨key.resource, env.defaultLanguage⟩ := by
  simp [basis, pluralLanguage, derived]

theorem basis_basis (env : Environment) (key : Key) :
    env.basis (env.basis key) = env.basis key := by
  unfold basis pluralLanguage
  split
  · rw [ite_self]
  · rfl

theorem basis_ne (shippedDefault : env.derivedPseudo? env.defaultLanguage = none) {pseudo : Pseudo}
    (derived : env.derivedPseudo? key.language = some pseudo) : env.basis key ≠ key := by
  intro same
  have plain : env.derivedPseudo? (env.basis key).language = none :=
    derivedPseudo?_pluralLanguage shippedDefault key.language
  rw [same, derived] at plain
  cases plain

theorem eq_of_mem_fetchesFor {fetched : Key} (member : fetched ∈ env.fetchesFor key) :
    fetched = key ∧ (env.registry.parserFor? key.resource).isSome := by
  unfold fetchesFor at member
  cases parser : env.registry.parserFor? key.resource with
  | none => simp [parser] at member
  | some _ => simpa [parser] using member

theorem fetchAndParse_eq :
    env.fetchAndParse key store =
      (env.read store.sources key,
        { store with fetches := store.fetches ++ env.fetchesFor key }) := by
  unfold fetchAndParse read fetchesFor
  cases env.registry.parserFor? key.resource with
  | none => simp
  | some parser => rfl

theorem shipped_of_kept (kept : store.loaded? key = some loaded) :
    env.shipped key store = (loaded, store.noteLoad key loaded) := by
  simp [shipped, Store.cached, kept]

theorem shipped_of_fresh (fresh : store.loaded? key = none) :
    env.shipped key store = (env.read store.sources key, env.afterReading key store) := by
  simp only [shipped, Store.cached, fresh, load, fetchAndParse_eq]
  rfl

theorem shipped_cases (env : Environment) (key : Key) (store : Store) :
    (∃ loaded, store.loaded? key = some loaded ∧
      env.shipped key store = (loaded, store.noteLoad key loaded)) ∨
    (store.loaded? key = none ∧
      env.shipped key store = (env.read store.sources key, env.afterReading key store)) := by
  cases found : store.loaded? key with
  | some loaded => exact .inl ⟨loaded, rfl, shipped_of_kept found⟩
  | none => exact .inr ⟨rfl, shipped_of_fresh found⟩

theorem shipped_keeps (env : Environment) (key : Key) (store : Store) :
    (env.shipped key store).2.loaded? key = some (env.shipped key store).1 := by
  obtain ⟨loaded, found, same⟩ | ⟨-, same⟩ := env.shipped_cases key store
  · rw [same]
    exact found
  · rw [same, Store.loaded?_of_cached rfl, if_pos rfl]

theorem resource_of_kept (kept : store.loaded? key = some loaded) :
    env.resource key store = (loaded, store.noteLoad key loaded) := by
  cases derived : env.derivedPseudo? key.language with
  | none => simp [resource, derived, shipped_of_kept kept]
  | some pseudo => simp [resource, derived, Store.cached, kept]

theorem resource_eq_shipped (plain : env.derivedPseudo? key.language = none) (store : Store) :
    env.resource key store = env.shipped key store := by
  simp [resource, plain]

theorem resource_of_plain (plain : env.derivedPseudo? key.language = none)
    (fresh : store.loaded? key = none) :
    env.resource key store = (env.read store.sources key, env.afterReading key store) := by
  simp [resource, plain, shipped_of_fresh fresh]

theorem resource_of_derived {pseudo : Pseudo}
    (derived : env.derivedPseudo? key.language = some pseudo) (fresh : store.loaded? key = none) :
    env.resource key store =
      (((env.shipped (env.basis key) store).1.map pseudo.transform),
        env.afterDeriving key ((env.shipped (env.basis key) store).1.map pseudo.transform)
          (env.shipped (env.basis key) store).2) := by
  simp [resource, derived, Store.cached, fresh, loadPseudo, afterDeriving, basis_of_derived derived]

/-- All that a load can do. -/
theorem resource_cases (env : Environment) (key : Key) (store : Store) :
    (∃ loaded, store.loaded? key = some loaded ∧
      env.resource key store = (loaded, store.noteLoad key loaded)) ∨
    (env.derivedPseudo? key.language = none ∧ store.loaded? key = none ∧
      env.resource key store = (env.read store.sources key, env.afterReading key store)) ∨
    (∃ pseudo, env.derivedPseudo? key.language = some pseudo ∧ store.loaded? key = none ∧
      env.resource key store =
        (((env.shipped (env.basis key) store).1.map pseudo.transform),
          env.afterDeriving key ((env.shipped (env.basis key) store).1.map pseudo.transform)
            (env.shipped (env.basis key) store).2)) := by
  cases found : store.loaded? key with
  | some loaded => exact .inl ⟨loaded, rfl, resource_of_kept found⟩
  | none =>
      cases derived : env.derivedPseudo? key.language with
      | none => exact .inr (.inl ⟨rfl, rfl, resource_of_plain derived found⟩)
      | some pseudo => exact .inr (.inr ⟨pseudo, rfl, rfl, resource_of_derived derived found⟩)

section Quiet

variable {left right : Store} (alike : left.quiet = right.quiet)

include alike

theorem loaded?_congr (key : Key) : right.loaded? key = left.loaded? key := by
  have same : right.quiet.loaded? key = left.quiet.loaded? key := by rw [alike]
  exact same

theorem shipped_quiet (key : Key) :
    (env.shipped key left).1 = (env.shipped key right).1 ∧
      (env.shipped key left).2.quiet = (env.shipped key right).2.quiet := by
  obtain ⟨loaded, found, same⟩ | ⟨fresh, same⟩ := env.shipped_cases key left
  · rw [same, shipped_of_kept ((loaded?_congr alike key).trans found)]
    exact ⟨rfl, congrArg (Store.noteLoad · key loaded) alike⟩
  · rw [same, shipped_of_fresh ((loaded?_congr alike key).trans fresh)]
    obtain ⟨reports, rfl⟩ := Store.quiet_eq_iff.mp alike
    exact ⟨rfl, rfl⟩

theorem resource_quiet (key : Key) :
    (env.resource key left).1 = (env.resource key right).1 ∧
      (env.resource key left).2.quiet = (env.resource key right).2.quiet := by
  obtain ⟨loaded, found, same⟩ | ⟨plain, fresh, same⟩ | ⟨pseudo, derived, fresh, same⟩ :=
    env.resource_cases key left
  · rw [same, resource_of_kept ((loaded?_congr alike key).trans found)]
    exact ⟨rfl, congrArg (Store.noteLoad · key loaded) alike⟩
  · rw [same, resource_of_plain plain ((loaded?_congr alike key).trans fresh)]
    obtain ⟨reports, rfl⟩ := Store.quiet_eq_iff.mp alike
    exact ⟨rfl, rfl⟩
  · obtain ⟨sameBase, alikeAfter⟩ := @shipped_quiet env left right alike (env.basis key)
    rw [same, resource_of_derived derived ((loaded?_congr alike key).trans fresh), sameBase]
    exact ⟨rfl, congrArg (env.afterDeriving key _) alikeAfter⟩

theorem resources_quiet (language : String) (names : List String) :
    (env.resources language names left).1 = (env.resources language names right).1 ∧
      (env.resources language names left).2.quiet =
        (env.resources language names right).2.quiet := by
  induction names generalizing left right with
  | nil => exact ⟨rfl, alike⟩
  | cons name names ih =>
      obtain ⟨sameLoaded, alikeAfter⟩ := resource_quiet alike ⟨name, language⟩
      obtain ⟨sameOthers, alikeAtEnd⟩ := ih alikeAfter
      simp only [resources]
      exact ⟨by rw [sameLoaded, sameOthers], alikeAtEnd⟩

end Quiet

theorem shipped_loaded? {other : Key} (differ : other ≠ key) (store : Store) :
    (env.shipped key store).2.loaded? other = store.loaded? other := by
  obtain ⟨loaded, -, same⟩ | ⟨-, same⟩ := env.shipped_cases key store
  · rw [same]
    rfl
  · rw [same]
    exact Store.loaded?_keep_of_ne differ store _

theorem shipped_fetches (key : Key) (store : Store) :
    ∃ fetches, (env.shipped key store).2.fetches = store.fetches ++ fetches ∧
      ∀ fetched ∈ fetches, fetched = key ∧ (env.registry.parserFor? key.resource).isSome := by
  obtain ⟨loaded, -, same⟩ | ⟨-, same⟩ := env.shipped_cases key store
  · rw [same]
    exact ⟨[], (List.append_nil _).symm, nofun⟩
  · rw [same]
    exact ⟨env.fetchesFor key, rfl, fun _ member => eq_of_mem_fetchesFor member⟩

theorem resource_fetches (key : Key) (store : Store) :
    ∃ fetches, (env.resource key store).2.fetches = store.fetches ++ fetches ∧
      ∀ fetched ∈ fetches,
        fetched = env.basis key ∧ (env.registry.parserFor? key.resource).isSome := by
  obtain ⟨loaded, -, same⟩ | ⟨plain, -, same⟩ | ⟨pseudo, -, -, same⟩ := env.resource_cases key store
  · rw [same]
    exact ⟨[], (List.append_nil _).symm, nofun⟩
  · rw [same, basis_eq_self plain]
    exact ⟨env.fetchesFor key, rfl, fun _ member => eq_of_mem_fetchesFor member⟩
  · rw [same]
    exact shipped_fetches (env.basis key) store

theorem shipped_loads (key : Key) (store : Store) :
    (env.shipped key store).2.loads = store.loads ++ [(key, (env.shipped key store).1)] := by
  obtain ⟨loaded, -, same⟩ | ⟨-, same⟩ := env.shipped_cases key store <;>
    · rw [same]
      rfl

theorem resource_loads (key : Key) (store : Store) :
    ∃ earlier, (env.resource key store).2.loads =
      store.loads ++ earlier ++ [(key, (env.resource key store).1)] := by
  obtain ⟨loaded, -, same⟩ | ⟨-, -, same⟩ | ⟨pseudo, -, -, same⟩ := env.resource_cases key store
  · rw [same]
    exact ⟨[], by rw [List.append_nil]; rfl⟩
  · rw [same]
    exact ⟨[], by rw [List.append_nil]; rfl⟩
  · rw [same]
    refine ⟨[(env.basis key, (env.shipped (env.basis key) store).1)], ?_⟩
    rw [← shipped_loads]
    rfl

theorem resources_loads (language : String) (names : List String) (store : Store) :
    ∃ noted, (env.resources language names store).2.loads = store.loads ++ noted ∧
      ∀ slot ∈ (env.resources language names store).1, (⟨slot.1, language⟩, slot.2) ∈ noted := by
  induction names generalizing store with
  | nil => exact ⟨[], (List.append_nil _).symm, nofun⟩
  | cons name names ih =>
      obtain ⟨earlier, first⟩ := @resource_loads env ⟨name, language⟩ store
      obtain ⟨noted, later, slots⟩ := ih (env.resource ⟨name, language⟩ store).2
      refine ⟨earlier ++ [(⟨name, language⟩, (env.resource ⟨name, language⟩ store).1)] ++ noted,
        ?_, ?_⟩
      · simp only [resources, later, first, List.append_assoc]
      · rintro slot member
        rcases List.mem_cons.mp member with rfl | member
        · exact List.mem_append_left _ (List.mem_append_right _ List.mem_cons_self)
        · exact List.mem_append_right _ (slots slot member)

end Environment

/-- A store comes from another by reports and by loads of wanted keys. -/
inductive Store.Loading (env : Environment) (wanted : Key → Prop) (start : Store) : Store → Prop
  | refl : Loading env wanted start start
  | report {store : Store} (diagnostics : List Diagnostic)
      (loading : Loading env wanted start store) :
      Loading env wanted start (store.reportAll diagnostics)
  | load {store : Store} {key : Key} (wants : wanted key)
      (loading : Loading env wanted start store) :
      Loading env wanted start (env.resource key store).2

namespace Store.Loading

variable {env : Environment} {wanted : Key → Prop} {start middle store : Store}

theorem trans (first : Loading env wanted start middle) (second : Loading env wanted middle store) :
    Loading env wanted start store := by
  induction second with
  | refl => exact first
  | report diagnostics _ ih => exact .report diagnostics ih
  | load wants _ ih => exact .load wants ih

theorem mono {accepted : Key → Prop} (wider : ∀ key, wanted key → accepted key)
    (loading : Loading env wanted start store) : Loading env accepted start store := by
  induction loading with
  | refl => exact .refl
  | report diagnostics _ ih => exact .report diagnostics ih
  | load wants _ ih => exact .load (wider _ wants) ih

theorem resources {language : String} {names : List String}
    (wants : ∀ name ∈ names, wanted ⟨name, language⟩) (store : Store) :
    Loading env wanted store (env.resources language names store).2 := by
  induction names generalizing store with
  | nil => exact .refl
  | cons name names ih =>
      have first : Loading env wanted store (env.resource ⟨name, language⟩ store).2 :=
        .load (wants name List.mem_cons_self) .refl
      exact first.trans (ih (fun other member => wants other (List.mem_cons_of_mem _ member)) _)

theorem fetches (loading : Loading env wanted start store) :
    ∃ fetches, store.fetches = start.fetches ++ fetches ∧
      ∀ fetched ∈ fetches, ∃ key, wanted key ∧ fetched = env.basis key := by
  induction loading with
  | refl => exact ⟨[], (List.append_nil _).symm, nofun⟩
  | report _ _ ih => exact ih
  | @load store key wants _ ih =>
      obtain ⟨earlier, before, based⟩ := ih
      obtain ⟨later, after, basedOnKey⟩ := Environment.resource_fetches key store
      refine ⟨earlier ++ later, by rw [after, before, List.append_assoc], ?_⟩
      intro fetched member
      rcases List.mem_append.mp member with early | late
      · exact based fetched early
      · exact ⟨key, wants, (basedOnKey fetched late).1⟩

end Store.Loading

end Phrasebook
