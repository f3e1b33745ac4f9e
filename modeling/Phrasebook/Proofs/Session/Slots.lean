import Phrasebook.Proofs.Session.Loading

/-! What the resources of a locale are loaded as. -/

namespace Phrasebook

/-- Stores from which the resources of some names are loaded alike. -/
structure Store.AgreeOn (wanted : String → Prop) (left right : Store) : Prop where
  sources : right.sources = left.sources
  loaded : ∀ key, wanted key.resource → right.loaded? key = left.loaded? key

namespace Store.AgreeOn

variable {wanted : String → Prop} {left middle right : Store}

theorem refl (wanted : String → Prop) (store : Store) : AgreeOn wanted store store :=
  ⟨rfl, fun _ _ => rfl⟩

theorem trans (first : AgreeOn wanted left middle) (second : AgreeOn wanted middle right) :
    AgreeOn wanted left right where
  sources := second.sources.trans first.sources
  loaded key wants := (second.loaded key wants).trans (first.loaded key wants)

theorem noteLoads (agree : AgreeOn wanted left right) (key : Key) (loaded : Loaded) :
    AgreeOn wanted (left.noteLoad key loaded) (right.noteLoad key loaded) :=
  ⟨agree.sources, agree.loaded⟩

theorem extend (agree : AgreeOn wanted left right) {leftAfter rightAfter : Store} {key : Key}
    {loaded : Loaded} (leftSources : leftAfter.sources = left.sources)
    (rightSources : rightAfter.sources = right.sources)
    (leftCache : leftAfter.cache = (key, loaded) :: left.cache)
    (rightCache : rightAfter.cache = (key, loaded) :: right.cache) :
    AgreeOn wanted leftAfter rightAfter where
  sources := by rw [rightSources, leftSources, agree.sources]
  loaded other wants := by
    rw [Store.loaded?_of_cached rightCache, Store.loaded?_of_cached leftCache,
      agree.loaded other wants]

theorem shipped (agree : AgreeOn wanted left right) (env : Environment) (key : Key)
    (wants : wanted key.resource) :
    (env.shipped key left).1 = (env.shipped key right).1 ∧
      AgreeOn wanted (env.shipped key left).2 (env.shipped key right).2 := by
  obtain ⟨loaded, kept, same⟩ | ⟨fresh, same⟩ := env.shipped_cases key left
  · rw [same, Environment.shipped_of_kept ((agree.loaded key wants).trans kept)]
    exact ⟨rfl, agree.noteLoads key loaded⟩
  · rw [same, Environment.shipped_of_fresh ((agree.loaded key wants).trans fresh), agree.sources]
    refine ⟨rfl, agree.extend rfl rfl rfl ?_⟩
    rw [← agree.sources]
    rfl

theorem resource (agree : AgreeOn wanted left right) (env : Environment) (key : Key)
    (wants : wanted key.resource) :
    (env.resource key left).1 = (env.resource key right).1 ∧
      AgreeOn wanted (env.resource key left).2 (env.resource key right).2 := by
  obtain ⟨loaded, kept, same⟩ | ⟨plain, fresh, same⟩ | ⟨pseudo, derived, fresh, same⟩ :=
    env.resource_cases key left
  · rw [same, Environment.resource_of_kept ((agree.loaded key wants).trans kept)]
    exact ⟨rfl, agree.noteLoads key loaded⟩
  · rw [Environment.resource_eq_shipped plain, Environment.resource_eq_shipped plain]
    exact agree.shipped env key wants
  · obtain ⟨base, after⟩ := agree.shipped env (env.basis key) wants
    rw [same, Environment.resource_of_derived derived ((agree.loaded key wants).trans fresh), base]
    exact ⟨rfl, after.extend rfl rfl rfl rfl⟩

theorem shipped_apart (env : Environment) (key : Key) (apart : ¬ wanted key.resource)
    (store : Store) : AgreeOn wanted store (env.shipped key store).2 where
  sources := by
    obtain ⟨loaded, -, same⟩ | ⟨-, same⟩ := env.shipped_cases key store <;>
      · rw [same]
        rfl
  loaded other wants := by
    refine Environment.shipped_loaded? ?_ store
    rintro rfl
    exact apart wants

theorem resource_apart (env : Environment) (key : Key) (apart : ¬ wanted key.resource)
    (store : Store) : AgreeOn wanted store (env.resource key store).2 := by
  obtain ⟨loaded, -, same⟩ | ⟨plain, -, -⟩ | ⟨pseudo, -, -, same⟩ := env.resource_cases key store
  · rw [same]
    exact ⟨rfl, fun _ _ => rfl⟩
  · rw [Environment.resource_eq_shipped plain]
    exact shipped_apart env key apart store
  · rw [same]
    refine (shipped_apart env (env.basis key) apart store).trans ⟨rfl, ?_⟩
    intro other wants
    refine Store.loaded?_keep_of_ne ?_ _ _
    rintro rfl
    exact apart wants

end Store.AgreeOn

namespace Environment

variable (env : Environment)

theorem resource_keeps (key : Key) (store : Store) :
    (env.resource key store).2.loaded? key = some (env.resource key store).1 := by
  have kept : ∀ (earlier : Store) (loaded : Loaded),
      (earlier.keep key loaded).loaded? key = some loaded := by
    intro earlier loaded
    rw [Store.loaded?_of_cached rfl, if_pos rfl]
  obtain ⟨loaded, found, same⟩ | ⟨-, -, same⟩ | ⟨pseudo, -, -, same⟩ := env.resource_cases key store
  · rw [same]
    exact found
  · rw [same]
    exact kept store _
  · rw [same]
    exact kept _ _

theorem resource_resource (key : Key) (store : Store) :
    env.resource key (env.resource key store).2 =
      ((env.resource key store).1,
        (env.resource key store).2.noteLoad key (env.resource key store).1) :=
  resource_of_kept (env.resource_keeps key store)

theorem resource_after (language name other : String) (store : Store) :
    (env.resource ⟨other, language⟩ (env.resource ⟨name, language⟩ store).2).1 =
        (env.resource ⟨other, language⟩ store).1 ∧
      ∀ key : Key, key.resource = other →
        (env.resource ⟨other, language⟩ (env.resource ⟨name, language⟩ store).2).2.loaded? key =
          (env.resource ⟨other, language⟩ store).2.loaded? key := by
  by_cases same : other = name
  · subst same
    rw [resource_resource]
    exact ⟨rfl, fun _ _ => rfl⟩
  · have apart : Store.AgreeOn (· = other) store (env.resource ⟨name, language⟩ store).2 :=
      .resource_apart env _ (fun meets => same meets.symm) store
    obtain ⟨loaded, after⟩ := apart.resource env ⟨other, language⟩ rfl
    exact ⟨loaded.symm, after.loaded⟩

/-- Each resource of a list is loaded as it would be loaded first. -/
theorem resources_eq (language : String) (names : List String) (store : Store) :
    (env.resources language names store).1 =
      names.map fun name => (name, (env.resource ⟨name, language⟩ store).1) := by
  induction names generalizing store with
  | nil => rfl
  | cons name names ih =>
      simp only [resources, ih, List.map_cons, (env.resource_after language name _ store).1]

theorem resources_loaded? (language : String) (names : List String) (store : Store) (key : Key) :
    (env.resources language names store).2.loaded? key =
      if key.resource ∈ names then (env.resource ⟨key.resource, language⟩ store).2.loaded? key
      else store.loaded? key := by
  induction names generalizing store with
  | nil => rfl
  | cons name names ih =>
      rw [resources, ih]
      -- A resource that is loaded is answered from the cache from then on; any other is as before.
      by_cases same : key.resource = name
      · rw [(env.resource_after language name key.resource store).2 key rfl]
        simp [same]
      · have apart :
            Store.AgreeOn (· = key.resource) store (env.resource ⟨name, language⟩ store).2 :=
          .resource_apart env _ (fun meets => same meets.symm) store
        rw [(env.resource_after language name key.resource store).2 key rfl, apart.loaded key rfl]
        simp only [List.mem_cons, same, false_or]

theorem resources_sources (language : String) (names : List String) (store : Store) :
    (env.resources language names store).2.sources = store.sources := by
  induction names generalizing store with
  | nil => rfl
  | cons name names ih =>
      rw [resources, ih]
      have apart : Store.AgreeOn (fun _ => False) store (env.resource ⟨name, language⟩ store).2 :=
        .resource_apart env _ id store
      exact apart.sources

end Environment

theorem Store.AgreeOn.resources {env : Environment} {wanted : String → Prop} {left right : Store}
    (agree : AgreeOn wanted left right) {names others : List String}
    (same : ∀ name, wanted name → (name ∈ names ↔ name ∈ others)) (language : String) :
    AgreeOn wanted (env.resources language names left).2
      (env.resources language others right).2 where
  sources := by rw [env.resources_sources, env.resources_sources, agree.sources]
  loaded key wants := by
    have listed := same key.resource wants
    rw [env.resources_loaded?, env.resources_loaded?]
    by_cases among : key.resource ∈ names
    · rw [if_pos among, if_pos (listed.mp among)]
      exact (agree.resource env ⟨key.resource, language⟩ wants).2.loaded key wants
    · rw [if_neg among, if_neg (mt listed.mpr among)]
      exact agree.loaded key wants

end Phrasebook
