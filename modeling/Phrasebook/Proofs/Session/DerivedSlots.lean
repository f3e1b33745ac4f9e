import Phrasebook.Proofs.Session.Upkeep

namespace Phrasebook

namespace Environment

variable {env : Environment}

theorem derivedPseudo?_eq_some_iff {language : String} {pseudo : Pseudo} :
    env.derivedPseudo? language = some pseudo ↔
      Pseudo.ofCode? language = some pseudo ∧ language ∉ env.available := by
  unfold derivedPseudo?
  split
  · rename_i listed
    simp [List.contains_iff_mem.mp listed]
  · rename_i unlisted
    simp [mt List.contains_iff_mem.mpr unlisted]

end Environment

/-- Whatever is kept under the code of a pseudo-locale that is not shipped has been made from what
is kept under the default language. -/
def Store.Derives (env : Environment) (store : Store) : Prop :=
  ∀ key pseudo made, env.derivedPseudo? key.language = some pseudo →
    store.loaded? key = some made →
    ∃ base, store.loaded? (env.basis key) = some base ∧ made = base.map pseudo.transform

namespace Store.Derives

variable {env : Environment} {store after : Store} {key : Key} {loaded : Loaded}

theorem of_empty (empty : store.cache = []) : Derives env store := by
  intro key pseudo made _ found
  rw [Store.loaded?, empty] at found
  cases found

theorem congr (derives : Derives env store) (cache : after.cache = store.cache) :
    Derives env after := by
  intro key pseudo made derived found
  rw [Store.loaded?_of_cache_eq cache] at found ⊢
  exact derives key pseudo made derived found

theorem keep (derives : Derives env store) (fresh : store.loaded? key = none)
    (cached : after.cache = (key, loaded) :: store.cache)
    (made : ∀ pseudo, env.derivedPseudo? key.language = some pseudo →
      ∃ base, store.loaded? (env.basis key) = some base ∧ loaded = base.map pseudo.transform) :
    Derives env after := by
  intro other pseudo slot derived found
  rw [loaded?_of_cached cached] at found
  split at found
  · rename_i same
    subst same
    cases found
    obtain ⟨base, known, same⟩ := made pseudo derived
    exact ⟨base, loaded?_of_fresh fresh cached known, same⟩
  · obtain ⟨base, known, same⟩ := derives other pseudo slot derived found
    exact ⟨base, loaded?_of_fresh fresh cached known, same⟩

theorem shipped (derives : Derives env store) (plain : env.derivedPseudo? key.language = none) :
    Derives env (env.shipped key store).2 := by
  obtain ⟨loaded, -, same⟩ | ⟨fresh, same⟩ := env.shipped_cases key store
  · rw [same]
    exact derives.congr rfl
  · rw [same]
    refine derives.keep fresh rfl ?_
    intro pseudo derived
    rw [plain] at derived
    cases derived

variable (shippedDefault : env.derivedPseudo? env.defaultLanguage = none)

include shippedDefault

theorem resource (derives : Derives env store) (key : Key) :
    Derives env (env.resource key store).2 := by
  have plainBasis : env.derivedPseudo? (env.basis key).language = none :=
    Environment.derivedPseudo?_pluralLanguage shippedDefault key.language
  obtain ⟨loaded, -, same⟩ | ⟨plain, -, -⟩ | ⟨pseudo, derived, fresh, same⟩ :=
    env.resource_cases key store
  · rw [same]
    exact derives.congr rfl
  · rw [Environment.resource_eq_shipped plain]
    exact derives.shipped plain
  · have differ : key ≠ env.basis key := (Environment.basis_ne shippedDefault derived).symm
    rw [same]
    refine (derives.shipped plainBasis).keep
      ((Environment.shipped_loaded? differ store).trans fresh) rfl ?_
    intro other otherDerived
    obtain rfl : pseudo = other := Option.some.inj (derived.symm.trans otherDerived)
    exact ⟨_, env.shipped_keeps (env.basis key) store, rfl⟩

theorem loading {wanted : Key → Prop} (derives : Derives env store)
    (loading : Store.Loading env wanted store after) : Derives env after := by
  induction loading with
  | refl => exact derives
  | report diagnostics _ ih => exact ih.congr rfl
  | load _ _ ih => exact ih.resource shippedDefault _

theorem upkeep : Upkeep env (Derives env) fun _ _ _ => True where
  reported _ derives := derives.congr rfl
  loaded key derives := derives.resource shippedDefault key
  built _ _ _ := trivial

end Store.Derives

namespace Session

variable {session : Session}

theorem Reachable.derives (reached : session.Reachable)
    (shippedDefault : session.env.derivedPseudo? session.env.defaultLanguage = none) :
    session.Holds (Store.Derives session.env) fun _ _ _ => True := by
  induction reached with
  | opened env sources capacity manualDrain =>
      exact opened_holds capacity manualDrain (.of_empty rfl)
  | @step session step _ ih =>
      rw [step_env] at shippedDefault ⊢
      have before := ih shippedDefault
      have after := (Store.Derives.upkeep shippedDefault).perform step before
        (fun _ => .of_empty rfl) (fun _ _ => before.sound.congr rfl)
      exact ⟨after.sound.congr rfl, after.holds⟩

/-- Where a resource is settled under the code of a pseudo-locale that is not shipped, it is settled
under the default language too, and both slots hold the same failure, or the one holds the entries
of the other as the pseudo-locale changes them. It holds after every step, after some of the queries
of a step and at every point of loading for the next one, whatever has become of the sources. -/
theorem pseudo_slots_agree (reached : session.Reachable)
    (shippedDefault : session.env.derivedPseudo? session.env.defaultLanguage = none)
    (earlier : List Query) {store : Store}
    (loading : Store.Loading session.env (fun _ => True) (session.askAll earlier).2.store store)
    {resource language : String} {pseudo : Pseudo} {made : Loaded}
    (isPseudo : Pseudo.ofCode? language = some pseudo)
    (unshipped : language ∉ session.env.available)
    (settled : store.loaded? ⟨resource, language⟩ = some made) :
    (∃ failure,
      store.loaded? ⟨resource, session.env.defaultLanguage⟩ = some (.error failure) ∧
      made = .error failure) ∨
    ∃ entries,
      store.loaded? ⟨resource, session.env.defaultLanguage⟩ = some (.ok entries) ∧
      made = .ok (pseudo.transform entries) := by
  have derives : Store.Derives session.env store :=
    ((Store.Derives.upkeep shippedDefault).session_askAll earlier
      (reached.derives shippedDefault)).sound.loading shippedDefault loading
  have derived : session.env.derivedPseudo? language = some pseudo :=
    Environment.derivedPseudo?_eq_some_iff.mpr ⟨isPseudo, unshipped⟩
  obtain ⟨base, known, same⟩ := derives ⟨resource, language⟩ pseudo made derived settled
  rw [Environment.basis_of_derived derived] at known
  cases base with
  | error failure => exact .inl ⟨failure, known, same⟩
  | ok entries => exact .inr ⟨entries, known, same⟩

/-- A leaflet that is loaded for a pseudo-locale before its text changes and then cannot be had. -/
def changedLeaflet : Session :=
  ((opened .leaflet .leaflet 64 false).run
    [.resource ⟨"leaflet.txt", "qps-ploc"⟩, .source (.text ⟨"leaflet.txt", "en"⟩ "Closed"),
      .source (.failure ⟨"leaflet.txt", "en"⟩ (.io "gone")),
      .resource ⟨"leaflet.txt", "en"⟩]).2

theorem pseudo_slots_of_changed_leaflet :
    changedLeaflet.Reachable ∧
    changedLeaflet.env.derivedPseudo? changedLeaflet.env.defaultLanguage = none ∧
    "qps-ploc" ∉ changedLeaflet.env.available ∧
    ∃ pseudo entries, Pseudo.ofCode? "qps-ploc" = some pseudo ∧
      changedLeaflet.store.loaded? ⟨"leaflet.txt", "en"⟩ = some (.ok entries) ∧
      changedLeaflet.store.loaded? ⟨"leaflet.txt", "qps-ploc"⟩ =
        some (.ok (pseudo.transform entries)) := by
  have reached : changedLeaflet.Reachable := (Reachable.opened _ _ _ _).run _
  have shippedDefault :
      changedLeaflet.env.derivedPseudo? changedLeaflet.env.defaultLanguage = none := by
    decide +kernel
  have unshipped : "qps-ploc" ∉ changedLeaflet.env.available := by decide +kernel
  have isPseudo : (Pseudo.ofCode? "qps-ploc").isSome := by decide +kernel
  have kept : ((changedLeaflet.store.loaded? ⟨"leaflet.txt", "qps-ploc"⟩).any Except.isOk) := by
    decide +kernel
  have inEnglish : changedLeaflet.env.defaultLanguage = "en" := by decide +kernel
  generalize changedLeaflet = session at *
  obtain ⟨pseudo, isPseudo⟩ := Option.isSome_iff_exists.mp isPseudo
  obtain ⟨made, settled, works⟩ := (Option.any_eq_true _ _).mp kept
  refine ⟨reached, shippedDefault, unshipped, pseudo, ?_⟩
  obtain ⟨failure, -, rfl⟩ | ⟨entries, base, rfl⟩ :=
    pseudo_slots_agree reached shippedDefault [] .refl isPseudo unshipped settled
  · cases works
  · rw [inEnglish] at base
    exact ⟨entries, isPseudo, base, settled⟩

end Session

end Phrasebook
