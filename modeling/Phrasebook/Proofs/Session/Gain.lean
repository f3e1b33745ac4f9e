import Phrasebook.Proofs.Session.Loading

/-! What a store gains by loads, told by which keys were wanted. -/

namespace Phrasebook

/-- Where a wanted key is not kept, its basis is read, if that is not kept either. -/
structure Environment.ReadFor (env : Environment) (start : Store) (asked key : Key) : Prop where
  missing : start.loaded? asked = none
  basis : env.basis asked = key
  fresh : start.loaded? key = none

def Environment.Reads (env : Environment) (start : Store) (wanted : Key → Prop) (key : Key) :
    Prop :=
  ∃ asked, wanted asked ∧ env.ReadFor start asked key

theorem Environment.reads_or (env : Environment) (start : Store) (wanted : Key → Prop)
    (asked key : Key) :
    env.Reads start (fun other => wanted other ∨ other = asked) key ↔
      env.Reads start wanted key ∨ env.ReadFor start asked key := by
  constructor
  · rintro ⟨other, wants | rfl, readFor⟩
    · exact .inl ⟨other, wants, readFor⟩
    · exact .inr readFor
  · rintro (⟨other, wants, readFor⟩ | readFor)
    · exact ⟨other, .inl wants, readFor⟩
    · exact ⟨asked, .inr rfl, readFor⟩

def Environment.readReports (env : Environment) (sources : Sources) (key : Key) :
    List Diagnostic :=
  Diagnostic.ofLoaded key (env.read sources key)

/-- What was fetched and reported since, apart from other diagnostics: every read key once. -/
structure Store.Read (env : Environment) (start : Store) (reads : List Key)
    (details : List Diagnostic) (store : Store) : Prop where
  fetches : store.fetches.Perm (start.fetches ++ reads.flatMap env.fetchesFor)
  reports : store.reports.Perm
    (start.reports ++ reads.flatMap (env.readReports start.sources) ++ details)

structure Store.Gains (env : Environment) (start : Store) (wanted : Key → Prop)
    (details : List Diagnostic) (store : Store) : Prop where
  sources : store.sources = start.sources
  kept : ∀ key loaded, store.loaded? key = some loaded ↔
    loaded = (env.resource key start).1 ∧
      ((start.loaded? key).isSome ∨ wanted key ∨ env.Reads start wanted key)
  read : ∃ reads : List Key, reads.Nodup ∧ (∀ key, key ∈ reads ↔ env.Reads start wanted key) ∧
    Store.Read env start reads details store

/-- Stores that differ in nothing but the order of what happened. -/
structure Store.Alike (left right : Store) : Prop where
  sources : left.sources = right.sources
  kept : ∀ key, left.loaded? key = right.loaded? key
  fetches : left.fetches.Perm right.fetches
  reports : left.reports.Perm right.reports

theorem Store.Read.afterReading {env : Environment} {start store : Store} {reads : List Key}
    {details : List Diagnostic} (read : Read env start reads details store)
    (sources : store.sources = start.sources) (key : Key) :
    Read env start (reads ++ [key]) details (env.afterReading key store) := by
  refine ⟨?_, ?_⟩
  · have fetches : (env.afterReading key store).fetches = store.fetches ++ env.fetchesFor key := rfl
    rw [fetches, List.flatMap_append, List.flatMap_singleton, ← List.append_assoc]
    exact read.fetches.append_right (env.fetchesFor key)
  · have reports : (env.afterReading key store).reports =
        store.reports ++ env.readReports start.sources key := by
      rw [← sources]
      rfl
    rw [reports, List.flatMap_append, List.flatMap_singleton]
    refine (read.reports.append_right _).trans ?_
    simp only [List.append_assoc]
    exact ((List.perm_append_comm.append_left _).append_left _)

namespace Store.Gains

variable {env : Environment} {start store other : Store} {wanted : Key → Prop}
  {details : List Diagnostic} {key : Key} {loaded : Loaded}

theorem alike {otherDetails : List Diagnostic} (gains : Gains env start wanted details store)
    (otherGains : Gains env start wanted otherDetails other) (same : details.Perm otherDetails) :
    Store.Alike store other := by
  obtain ⟨reads, distinct, reads_iff, read⟩ := gains.read
  obtain ⟨otherReads, otherDistinct, otherReads_iff, otherRead⟩ := otherGains.read
  have sameReads : reads.Perm otherReads := by
    apply (List.perm_ext_iff_of_nodup distinct otherDistinct).mpr
    intro key
    rw [reads_iff, otherReads_iff]
  refine ⟨gains.sources.trans otherGains.sources.symm, ?_, ?_, ?_⟩
  · intro key
    apply Option.ext
    intro loaded
    rw [gains.kept, otherGains.kept]
  · calc
      store.fetches.Perm (start.fetches ++ reads.flatMap env.fetchesFor) := read.fetches
      List.Perm _ (start.fetches ++ otherReads.flatMap env.fetchesFor) :=
        (sameReads.flatMap_right _).append_left _
      List.Perm _ other.fetches := otherRead.fetches.symm
  · calc
      store.reports.Perm
          (start.reports ++ reads.flatMap (env.readReports start.sources) ++ details) :=
        read.reports
      List.Perm _
          (start.reports ++ otherReads.flatMap (env.readReports start.sources) ++ otherDetails) :=
        ((sameReads.flatMap_right _).append_left _).append same
      List.Perm _ other.reports := otherRead.reports.symm

theorem refl (env : Environment) (start : Store) : Gains env start (fun _ => False) [] start := by
  have nothing : ∀ key, ¬ env.Reads start (fun _ => False) key := fun _ ⟨_, wanted, _⟩ => wanted
  refine ⟨rfl, ?_, [], .nil, ?_, by simp, by simp⟩
  · intro key loaded
    simp only [nothing, or_false]
    constructor
    · intro found
      simp [Environment.resource_of_kept found, found]
    · rintro ⟨rfl, found⟩
      obtain ⟨loaded, found⟩ := Option.isSome_iff_exists.mp found
      simp [Environment.resource_of_kept found, found]
  · intro key
    simp [nothing]

theorem congr {accepted : Key → Prop} (gains : Gains env start wanted details store)
    (same : ∀ key, wanted key ↔ accepted key) : Gains env start accepted details store := by
  obtain rfl : wanted = accepted := funext fun key => propext (same key)
  exact gains

theorem reported (gains : Gains env start wanted details store) (more : List Diagnostic) :
    Gains env start wanted (details ++ more) (store.reportAll more) := by
  obtain ⟨reads, distinct, reads_iff, read⟩ := gains.read
  refine ⟨gains.sources, gains.kept, reads, distinct, reads_iff, read.fetches, ?_⟩
  rw [← List.append_assoc]
  exact read.reports.append_right more

theorem reordered {others : List Diagnostic} (gains : Gains env start wanted details store)
    (same : details.Perm others) : Gains env start wanted others store := by
  obtain ⟨reads, distinct, reads_iff, read⟩ := gains.read
  exact ⟨gains.sources, gains.kept, reads, distinct, reads_iff, read.fetches,
    read.reports.trans (same.append_left _)⟩

theorem kept_of_start (gains : Gains env start wanted details store)
    (kept : start.loaded? key = some loaded) : store.loaded? key = some loaded := by
  apply (gains.kept key loaded).mpr
  simp [Environment.resource_of_kept kept, kept]

theorem fresh_at_start (gains : Gains env start wanted details store)
    (fresh : store.loaded? key = none) : start.loaded? key = none := by
  cases kept : start.loaded? key with
  | none => rfl
  | some loaded =>
      rw [gains.kept_of_start kept] at fresh
      cases fresh

theorem answer_of_plain (gains : Gains env start wanted details store)
    (plain : env.derivedPseudo? key.language = none) :
    (env.resource key store).1 = (env.resource key start).1 := by
  cases found : store.loaded? key with
  | some loaded =>
      rw [Environment.resource_of_kept found]
      exact ((gains.kept key loaded).mp found).1
  | none =>
      rw [Environment.resource_of_plain plain found,
        Environment.resource_of_plain plain (gains.fresh_at_start found), gains.sources]

theorem absorb (gains : Gains env start wanted details store)
    (found : store.loaded? key = some loaded) :
    Gains env start (fun other => wanted other ∨ other = key) details store := by
  have present := ((gains.kept key loaded).mp found).2
  have readForKey : ∀ other, env.ReadFor start key other → env.Reads start wanted other := by
    intro other readFor
    rcases present with kept | wants | ⟨asked, wants, earlier⟩
    · rw [readFor.missing] at kept
      cases kept
    · exact ⟨key, wants, readFor⟩
    · refine ⟨asked, wants, earlier.missing, ?_, readFor.fresh⟩
      rw [← readFor.basis, ← earlier.basis, env.basis_basis]
  have reads : ∀ other, env.Reads start (fun other => wanted other ∨ other = key) other ↔
      env.Reads start wanted other := by
    intro other
    rw [env.reads_or]
    exact or_iff_left_of_imp (readForKey other)
  refine ⟨gains.sources, ?_, ?_⟩
  · intro other otherLoaded
    rw [gains.kept, reads]
    by_cases same : other = key
    · subst same
      simp [present]
    · simp [same]
  · obtain ⟨keys, distinct, keys_iff, read⟩ := gains.read
    exact ⟨keys, distinct, fun other => (keys_iff other).trans (reads other).symm, read⟩

theorem relabel (gains : Gains env start wanted details store)
    (sources : other.sources = store.sources) (cache : other.cache = store.cache)
    (fetches : other.fetches = store.fetches) (reports : other.reports = store.reports) :
    Gains env start wanted details other := by
  obtain ⟨keys, distinct, keys_iff, read⟩ := gains.read
  refine ⟨sources.trans gains.sources, ?_, keys, distinct, keys_iff, ?_, ?_⟩
  · intro key loaded
    rw [← gains.kept]
    simp [Store.loaded?, cache]
  · exact fetches ▸ read.fetches
  · exact reports ▸ read.reports

theorem afterReading (gains : Gains env start wanted details store)
    (plain : env.derivedPseudo? key.language = none) (fresh : store.loaded? key = none) :
    Gains env start (fun other => wanted other ∨ other = key) details
      (env.afterReading key store) := by
  have freshAtStart := gains.fresh_at_start fresh
  have readForKey : ∀ other, env.ReadFor start key other ↔ other = key := by
    intro other
    constructor
    · exact fun readFor => readFor.basis.symm.trans (Environment.basis_eq_self plain)
    · rintro rfl
      exact ⟨freshAtStart, Environment.basis_eq_self plain, freshAtStart⟩
  obtain ⟨keys, distinct, keys_iff, read⟩ := gains.read
  have cached : (env.afterReading key store).cache =
      (key, (env.resource key start).1) :: store.cache := by
    rw [Environment.resource_of_plain plain freshAtStart, ← gains.sources]
    rfl
  refine ⟨gains.sources, ?_, keys ++ [key], ?_, ?_, read.afterReading gains.sources key⟩
  · intro other loaded
    rw [Store.loaded?_of_cached cached, env.reads_or, readForKey]
    split
    · rename_i same
      subst same
      simp [@eq_comm _ loaded]
    · rename_i differ
      simp [gains.kept, differ]
  · refine List.nodup_append.mpr ⟨distinct, List.pairwise_singleton _ key, ?_⟩
    rintro other member _ last rfl
    obtain rfl := List.mem_singleton.mp last
    have kept := (gains.kept other _).mpr ⟨rfl, .inr (.inr ((keys_iff other).mp member))⟩
    rw [fresh] at kept
    cases kept
  · intro other
    rw [env.reads_or, readForKey, ← keys_iff]
    simp

theorem shipped (gains : Gains env start wanted details store)
    (plain : env.derivedPseudo? key.language = none) :
    Gains env start (fun other => wanted other ∨ other = key) details
      (env.shipped key store).2 := by
  obtain ⟨loaded, found, same⟩ | ⟨fresh, same⟩ := env.shipped_cases key store
  · rw [same]
    exact (gains.absorb found).relabel rfl rfl rfl rfl
  · rw [same]
    exact gains.afterReading plain fresh

/-- To want a key made from another is to want that one, and to keep what is made. -/
theorem afterDeriving
    (gains : Gains env start (fun other => wanted other ∨ other = env.basis key) details store)
    (fresh : start.loaded? key = none) :
    Gains env start (fun other => wanted other ∨ other = key) details
      (env.afterDeriving key (env.resource key start).1 store) := by
  have readForBasis : ∀ other, env.ReadFor start (env.basis key) other ↔
      env.ReadFor start key other := by
    intro other
    constructor
    · intro readFor
      exact ⟨fresh, (env.basis_basis key).symm.trans readFor.basis, readFor.fresh⟩
    · rintro ⟨-, rfl, freshBasis⟩
      exact ⟨freshBasis, env.basis_basis key, freshBasis⟩
  have basisKept : ∀ other, other = env.basis key →
      (start.loaded? other).isSome ∨ env.ReadFor start key other := by
    rintro other rfl
    cases kept : start.loaded? (env.basis key) with
    | some loaded => exact .inl rfl
    | none => exact .inr ⟨fresh, rfl, kept⟩
  have cached : (env.afterDeriving key (env.resource key start).1 store).cache =
      (key, (env.resource key start).1) :: store.cache := rfl
  obtain ⟨keys, distinct, keys_iff, read⟩ := gains.read
  refine ⟨gains.sources, ?_, keys, distinct, ?_, read.fetches, read.reports⟩
  · intro other loaded
    rw [Store.loaded?_of_cached cached, env.reads_or]
    split
    · rename_i same
      subst same
      simp [@eq_comm _ loaded]
    · rename_i differ
      have known := basisKept other
      rw [gains.kept, env.reads_or, readForBasis]
      simp only [differ, or_false]
      grind
  · intro other
    rw [keys_iff, env.reads_or, env.reads_or, readForBasis]

section Loads

variable (shippedDefault : env.derivedPseudo? env.defaultLanguage = none)

include shippedDefault

theorem plain_basis (asked : Key) : env.derivedPseudo? (env.basis asked).language = none :=
  Environment.derivedPseudo?_pluralLanguage shippedDefault asked.language

/-- What has been loaded does not change what any load gives. -/
theorem answer (gains : Gains env start wanted details store) (key : Key) :
    (env.resource key store).1 = (env.resource key start).1 := by
  cases found : store.loaded? key with
  | some loaded =>
      rw [Environment.resource_of_kept found]
      exact ((gains.kept key loaded).mp found).1
  | none =>
      cases derived : env.derivedPseudo? key.language with
      | none => exact gains.answer_of_plain derived
      | some pseudo =>
          have basis := gains.answer_of_plain (plain_basis shippedDefault key)
          rw [Environment.resource_of_derived derived found,
            Environment.resource_of_derived derived (gains.fresh_at_start found),
            ← Environment.resource_eq_shipped (plain_basis shippedDefault key),
            ← Environment.resource_eq_shipped (plain_basis shippedDefault key), basis]

theorem resource (gains : Gains env start wanted details store) (key : Key) :
    Gains env start (fun other => wanted other ∨ other = key) details
      (env.resource key store).2 := by
  have answered := gains.answer shippedDefault key
  obtain ⟨loaded, found, same⟩ | ⟨plain, fresh, same⟩ | ⟨pseudo, derived, fresh, same⟩ :=
    env.resource_cases key store
  · rw [same]
    exact (gains.absorb found).relabel rfl rfl rfl rfl
  · rw [same]
    exact gains.afterReading plain fresh
  · have based := gains.shipped (plain_basis shippedDefault key)
    have made : (env.shipped (env.basis key) store).1.map pseudo.transform =
        (env.resource key start).1 := by
      rw [← answered, same]
    rw [same, made]
    exact based.afterDeriving (gains.fresh_at_start fresh)

theorem resources (gains : Gains env start wanted details store) (language : String)
    (names : List String) :
    (env.resources language names store).1 =
        names.map (fun name => (name, (env.resource ⟨name, language⟩ start).1)) ∧
      Gains env start (fun key => wanted key ∨ key.resource ∈ names ∧ key.language = language)
        details (env.resources language names store).2 := by
  induction names generalizing store wanted with
  | nil => exact ⟨rfl, gains.congr (by simp)⟩
  | cons name names ih =>
      obtain ⟨others, gainsAtEnd⟩ := ih (gains.resource shippedDefault ⟨name, language⟩)
      refine ⟨?_, gainsAtEnd.congr ?_⟩
      · simp only [Environment.resources, List.map_cons, others,
          gains.answer shippedDefault ⟨name, language⟩]
      · rintro ⟨resource, inLanguage⟩
        simp only [Key.mk.injEq, List.mem_cons, or_and_right, or_assoc]

end Loads

end Store.Gains

end Phrasebook
