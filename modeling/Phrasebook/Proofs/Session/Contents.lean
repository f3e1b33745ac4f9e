import Phrasebook.Proofs.Session.Upkeep

namespace Phrasebook

/-- What holds of all that is read and of what pseudo-locales make of it. -/
structure Loaded.Pervades (Good : Loaded → Prop) : Prop where
  read (env : Environment) (sources : Sources) (key : Key) : Good (env.read sources key)
  transformed (pseudo : Pseudo) {loaded : Loaded} (good : Good loaded) :
    Good (loaded.map pseudo.transform)

def Store.AllLoaded (Good : Loaded → Prop) (store : Store) : Prop :=
  ∀ key loaded, store.loaded? key = some loaded → Good loaded

def Locale.AllLoaded (Good : Loaded → Prop) (locale : Locale) : Prop :=
  ∀ slot ∈ locale.resources, Good slot.2

theorem Store.AllLoaded.of_cached {Good : Loaded → Prop} {store after : Store} {key : Key}
    {loaded : Loaded} (all : store.AllLoaded Good) (good : Good loaded)
    (cached : after.cache = (key, loaded) :: store.cache) : after.AllLoaded Good := by
  intro other found kept
  rw [loaded?_of_cached cached] at kept
  split at kept
  · cases kept
    exact good
  · exact all other found kept

namespace Loaded.Pervades

variable {Good : Loaded → Prop} (pervades : Pervades Good) {store : Store}

include pervades

theorem shipped (env : Environment) (key : Key) (all : store.AllLoaded Good) :
    Good (env.shipped key store).1 ∧ (env.shipped key store).2.AllLoaded Good := by
  obtain ⟨loaded, kept, same⟩ | ⟨-, same⟩ := env.shipped_cases key store
  · rw [same]
    exact ⟨all key loaded kept, all⟩
  · rw [same]
    have good := pervades.read env store.sources key
    exact ⟨good, all.of_cached good rfl⟩

theorem resource (env : Environment) (key : Key) (all : store.AllLoaded Good) :
    Good (env.resource key store).1 ∧ (env.resource key store).2.AllLoaded Good := by
  obtain ⟨loaded, kept, same⟩ | ⟨plain, -, -⟩ | ⟨pseudo, -, -, same⟩ := env.resource_cases key store
  · rw [same]
    exact ⟨all key loaded kept, all⟩
  · rw [Environment.resource_eq_shipped plain]
    exact pervades.shipped env key all
  · obtain ⟨base, after⟩ := pervades.shipped env (env.basis key) all
    rw [same]
    have good := pervades.transformed pseudo base
    exact ⟨good, after.of_cached good rfl⟩

theorem upkeep (env : Environment) :
    Upkeep env (Store.AllLoaded Good) fun _ _ locale => locale.AllLoaded Good where
  reported _ all := all
  loaded key all := (pervades.resource env key all).2
  built {store} link resources all := by
    intro slot member
    have slots : (link.buildLocale env resources store).1.resources =
        (env.resources link.language.code resources store).1 := rfl
    rw [slots, env.resources_eq] at member
    obtain ⟨name, -, rfl⟩ := List.mem_map.mp member
    exact (pervades.resource env ⟨name, link.language.code⟩ all).1

theorem locales {env : Environment} {context : Context} (all : store.AllLoaded Good)
    (holds : context.Holds fun _ _ locale => locale.AllLoaded Good) :
    ∀ locale ∈ context.locales env store, locale.AllLoaded Good := by
  have fits := (pervades.upkeep env).locales_fit all holds
  have both := fits.flip.imp fun _ _ good => And.intro good trivial
  exact ((List.forall₂_and_left _ _).mp both).1

theorem reachable {session : Session} (reached : session.Reachable) :
    session.Holds (Store.AllLoaded Good) fun _ _ locale => locale.AllLoaded Good := by
  refine reached.upheld pervades.upkeep ?_ ?_
  · intro _ store empty key loaded kept
    rw [Store.loaded?, empty] at kept
    cases kept
  · intro _ store other same all key loaded kept
    refine all key loaded ?_
    rw [Store.loaded?, ← same]
    exact kept

end Loaded.Pervades

theorem Environment.read_ok {env : Environment} {sources : Sources} {key : Key}
    {entries : Entries} (read : env.read sources key = .ok entries) :
    ∃ nodes, entries = .ofNodes nodes := by
  unfold Environment.read at read
  split at read
  · cases read
  · rename_i parser _
    unfold Loaded.ofFetched at read
    split at read
    · cases read
    · rename_i text _
      cases parsed : parser text with
      | error failure => simp [parsed] at read
      | ok nodes =>
          simp only [parsed, Except.ok.injEq] at read
          exact ⟨nodes, read.symm⟩

/-- Something holds of the attributes of every entry. -/
def Loaded.EachAttributes (Good : Table Phrase → Prop) (loaded : Loaded) : Prop :=
  ∀ entries, loaded = .ok entries → ∀ named ∈ entries, Good named.2.attributes

theorem Loaded.attributes_pervade {Good : Table Phrase → Prop}
    (compiled : ∀ node : EntryNode, Good node.compile.attributes)
    (disguised : ∀ change attributes, Good attributes →
      Good (attributes.mapValues (·.mapLiterals change))) :
    Pervades (Loaded.EachAttributes Good) where
  read env sources key := by
    intro entries read named member
    obtain ⟨nodes, rfl⟩ := Environment.read_ok read
    obtain ⟨node, -, rfl⟩ := List.mem_map.mp (Table.mem_ofList member)
    exact compiled node
  transformed pseudo {loaded} good := by
    intro entries transformed named member
    cases loaded with
    | error failure => cases transformed
    | ok basis =>
        cases transformed
        obtain ⟨before, present, rfl⟩ := List.mem_map.mp member
        exact disguised pseudo.disguise _ (good basis rfl before present)

theorem Locale.AllLoaded.attributes {Good : Table Phrase → Prop} {locale : Locale}
    (all : locale.AllLoaded (Loaded.EachAttributes Good)) {id : String} {entry : Entry}
    (known : locale.entry? id = some entry) : Good entry.attributes := by
  obtain ⟨⟨name, loaded⟩, member, inLoaded⟩ := List.exists_of_findSome?_eq_some known
  cases loaded with
  | error failure => cases inLoaded
  | ok entries => exact all _ member entries rfl _ (Table.mem_of_find? inLoaded)

end Phrasebook
