import Phrasebook.Proofs.Session.Loading
import Phrasebook.Session.Context

namespace Phrasebook

namespace Link

variable (env : Environment) (resources : List String)

def locales : List Link → Store → List Locale
  | [], _ => []
  | link :: links, store =>
      (link.locale env resources store).1 ::
        locales links (link.locale env resources store).2

def fill : List Link → List Locale → List Link
  | link :: links, locale :: locales => { link with locale? := some locale } :: fill links locales
  | links, _ => links

@[simp] theorem fill_nil (links : List Link) : fill links [] = links := by
  cases links <;> rfl

theorem fill_languages (links : List Link) (locales : List Locale) :
    (fill links locales).map language = links.map language := by
  induction links generalizing locales with
  | nil => rfl
  | cons link links ih =>
      cases locales with
      | nil => rfl
      | cons locale locales => simp [fill, ih]

variable {env resources}

@[simp] theorem length_locales (links : List Link) (store : Store) :
    (locales env resources links store).length = links.length := by
  induction links generalizing store with
  | nil => rfl
  | cons link links ih => simp [locales, ih]

theorem locale_quiet {left right : Store} (alike : left.quiet = right.quiet) (link : Link) :
    (link.locale env resources left).1 = (link.locale env resources right).1 ∧
      (link.locale env resources left).2.quiet = (link.locale env resources right).2.quiet := by
  cases built : link.locale? with
  | some kept =>
      simp only [locale, built]
      exact ⟨trivial, alike⟩
  | none =>
      obtain ⟨sameLoaded, alikeAfter⟩ :=
        @Environment.resources_quiet env _ _ alike link.language.code resources
      simp only [locale, built, buildLocale]
      exact ⟨by rw [sameLoaded], alikeAfter⟩

theorem locales_quiet (links : List Link) {left right : Store} (alike : left.quiet = right.quiet) :
    locales env resources links left = locales env resources links right := by
  induction links generalizing left right with
  | nil => rfl
  | cons link links ih =>
      obtain ⟨same, alikeAfter⟩ := @locale_quiet env resources _ _ alike link
      simp only [locales]
      rw [same, ih alikeAfter]

theorem locales_report (links : List Link) (store : Store) (detail : Diagnostic) :
    locales env resources links (store.report detail) = locales env resources links store :=
  locales_quiet links (Store.quiet_reportAll store [detail])

theorem locale_loading {wanted : Key → Prop} (link : Link)
    (wants : link.locale? = none → ∀ name ∈ resources, wanted ⟨name, link.language.code⟩)
    (store : Store) :
    Store.Loading env wanted store (link.locale env resources store).2 := by
  cases built : link.locale? with
  | some kept =>
      simp only [locale, built]
      exact .refl
  | none =>
      simp only [locale, built, buildLocale]
      exact .resources (wants built) store

end Link

namespace Locale

variable (locale : Locale) (arguments : Arguments) (id : String) (needsValue : Bool)

def passes : Bool :=
  match locale.attempt arguments id with
  | .missing => true
  | .valueless => needsValue
  | .done _ => false
  | .failed _ => true

theorem judge_cases (salvage? : Option Found) :
    (locale.passes arguments id needsValue = false ∧
      ∃ found, locale.judge arguments id needsValue salvage? = .ends found) ∨
    (locale.passes arguments id needsValue = true ∧
      ∃ after? remark, locale.judge arguments id needsValue salvage? = .passes after? remark) := by
  simp only [passes, judge]
  cases locale.attempt arguments id with
  | missing => exact .inr ⟨rfl, _, _, rfl⟩
  | valueless =>
      cases needsValue with
      | false => exact .inl ⟨rfl, _, rfl⟩
      | true => exact .inr ⟨rfl, _, _, rfl⟩
  | done text => exact .inl ⟨rfl, _, rfl⟩
  | failed fault => exact .inr ⟨rfl, _, _, rfl⟩

end Locale

section Search

variable (arguments : Arguments) (id : String) (needsValue : Bool)

def search : Option Found → List Locale → Found
  | salvage?, [] => salvage?.getD ⟨none, none⟩
  | salvage?, locale :: locales =>
      match locale.judge arguments id needsValue salvage? with
      | .ends found => found
      | .passes salvage? _ => search salvage? locales

/-- The locales it looks at. -/
def visited : Option Found → List Locale → List Locale
  | _, [] => []
  | salvage?, locale :: locales =>
      match locale.judge arguments id needsValue salvage? with
      | .ends _ => [locale]
      | .passes salvage? _ => locale :: visited salvage? locales

/-- What it reports of the locales it passes. -/
def remarks : Option Found → List Locale → List Diagnostic
  | _, [] => []
  | salvage?, locale :: locales =>
      match locale.judge arguments id needsValue salvage? with
      | .ends _ => []
      | .passes salvage? detail => detail :: remarks salvage? locales

/-- It looks at the locales that it passes and at the one behind them. -/
theorem visited_eq (salvage? : Option Found) (locales : List Locale) :
    visited arguments id needsValue salvage? locales =
      locales.take
        ((locales.takeWhile (Locale.passes · arguments id needsValue)).length + 1) := by
  induction locales generalizing salvage? with
  | nil => rfl
  | cons locale locales ih =>
      obtain ⟨stops, found, ends⟩ | ⟨passes, after?, remark, judged⟩ :=
        locale.judge_cases arguments id needsValue salvage?
      · simp [visited, ends, stops]
      · simp [visited, judged, passes, ih]

theorem visited_eq_take (salvage? : Option Found) (locales : List Locale) :
    visited arguments id needsValue salvage? locales =
      locales.take (visited arguments id needsValue salvage? locales).length := by
  induction locales generalizing salvage? with
  | nil => rfl
  | cons locale locales ih =>
      simp only [visited]
      cases locale.judge arguments id needsValue salvage? with
      | ends found => rfl
      | passes salvage? detail =>
          simp only [List.length_cons, List.take_succ_cons]
          exact congrArg (locale :: ·) (ih salvage?)

end Search

section Walk

variable {env : Environment} {resources : List String} {arguments : Arguments} {id : String}
  {needsValue : Bool}

theorem walk_found (salvage? : Option Found) (links : List Link) (store : Store) :
    (walk env resources arguments id needsValue salvage? links store).1 =
      search arguments id needsValue salvage? (Link.locales env resources links store) := by
  induction links generalizing salvage? store with
  | nil => rfl
  | cons link links ih =>
      simp only [walk, Link.locales, search]
      cases (link.locale env resources store).1.judge arguments id needsValue salvage? with
      | ends found => rfl
      | passes salvage? detail =>
          simp only [ih]
          rw [Link.locales_report]

theorem walk_links (salvage? : Option Found) (links : List Link) (store : Store) :
    (walk env resources arguments id needsValue salvage? links store).2.1 =
      Link.fill links
        (visited arguments id needsValue salvage? (Link.locales env resources links store)) := by
  induction links generalizing salvage? store with
  | nil => rfl
  | cons link links ih =>
      simp only [walk, Link.locales, visited]
      cases (link.locale env resources store).1.judge arguments id needsValue salvage? with
      | ends found => simp [Link.fill]
      | passes salvage? detail =>
          simp only [ih, Link.fill]
          rw [Link.locales_report]

/-- A walk loads only for the links it visits, and only if they have no locale yet. -/
theorem walk_loading (salvage? : Option Found) (links : List Link) (store : Store) :
    Store.Loading env
      (fun key => key.resource ∈ resources ∧
        ∃ link ∈ links.take
            (visited arguments id needsValue salvage?
              (Link.locales env resources links store)).length,
          link.locale? = none ∧ key.language = link.language.code)
      store (walk env resources arguments id needsValue salvage? links store).2.2 := by
  induction links generalizing salvage? store with
  | nil => exact .refl
  | cons link links ih =>
      simp only [walk, Link.locales, visited]
      cases (link.locale env resources store).1.judge arguments id needsValue salvage? with
      | ends found =>
          refine Link.locale_loading link ?_ store
          intro unbuilt name listed
          exact ⟨listed, link, by simp, unbuilt, rfl⟩
      | passes salvage? detail =>
          have built : Store.Loading env
              (fun key => key.resource ∈ resources ∧
                link.locale? = none ∧ key.language = link.language.code)
              store (link.locale env resources store).2 :=
            Link.locale_loading link (fun unbuilt name listed => ⟨listed, unbuilt, rfl⟩) store
          have rest := ih salvage? ((link.locale env resources store).2.report detail)
          rw [Link.locales_report] at rest
          refine ((built.mono ?_).trans (.report [detail] .refl)).trans (rest.mono ?_)
          · rintro key ⟨listed, unbuilt, inLanguage⟩
            exact ⟨listed, link, by simp, unbuilt, inLanguage⟩
          · rintro key ⟨listed, later, visitedLater, unbuilt, inLanguage⟩
            exact ⟨listed, later, by simp [visitedLater], unbuilt, inLanguage⟩

theorem walk_fetches (salvage? : Option Found) (links : List Link) (store : Store) :
    ∃ fetches,
      (walk env resources arguments id needsValue salvage? links store).2.2.fetches =
        store.fetches ++ fetches ∧
      ∀ fetched ∈ fetches, fetched.resource ∈ resources ∧
        ∃ link ∈ links.take
            (visited arguments id needsValue salvage?
              (Link.locales env resources links store)).length,
          link.locale? = none ∧
            fetched.language = env.pluralLanguage link.language.code := by
  have loading : Store.Loading env _ store
      (walk env resources arguments id needsValue salvage? links store).2.2 :=
    walk_loading salvage? links store
  obtain ⟨fetches, after, based⟩ := loading.fetches
  refine ⟨fetches, after, ?_⟩
  intro fetched member
  obtain ⟨key, ⟨listed, link, inTake, unbuilt, inLanguage⟩, rfl⟩ := based fetched member
  exact ⟨listed, link, inTake, unbuilt, congrArg env.pluralLanguage inLanguage⟩

end Walk

namespace Context

/-- The locales of a context: those that are kept, and those that would be built for the rest. -/
def locales (context : Context) (env : Environment) (store : Store) : List Locale :=
  Link.locales env context.resources context.chain store

theorem find_of_requested {context : Context} (requested : context.chain ≠ [])
    (env : Environment) (arguments : Arguments) (id : String) (needsValue : Bool) (store : Store) :
    context.find env arguments id needsValue store =
      (.ok (search arguments id needsValue none (context.locales env store)),
        { context with
          chain := Link.fill context.chain
            (visited arguments id needsValue none (context.locales env store)) },
        (walk env context.resources arguments id needsValue none context.chain store).2.2) := by
  obtain ⟨resources, chain⟩ := context
  cases chain with
  | nil => exact absurd rfl requested
  | cons link links => simp only [find, locales, walk_found, walk_links]

end Context

end Phrasebook
