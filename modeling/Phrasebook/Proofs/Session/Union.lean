import Phrasebook.Proofs.Session.Asking
import Phrasebook.Proofs.Session.Slots

namespace Phrasebook

namespace Table

def overlay (table other : Table α) : Table α :=
  table.foldr (fun entry all => insert entry.1 entry.2 all) other

@[simp] theorem find?_overlay (table other : Table α) (name : String) :
    (table.overlay other).find? name = (table.find? name).or (other.find? name) := by
  induction table with
  | nil => rfl
  | cons entry rest ih =>
      have unfolded : overlay (entry :: rest) other =
          insert entry.1 entry.2 (overlay rest other) := rfl
      rw [unfolded, find?_insert, find?_cons, ih]
      split <;> rfl

end Table

namespace Locale

/-- The entries of all resources that loaded. -/
def union (locale : Locale) : Entries :=
  locale.resources.foldr
    (fun slot entries =>
      match slot.2 with
      | .ok first => Table.overlay first entries
      | .error _ => entries) []

/-- The locale with one resource for all. -/
def united (one : String) (locale : Locale) : Locale :=
  { locale with resources := [(one, .ok locale.union)] }

theorem find?_union (locale : Locale) (id : String) :
    locale.union.find? id = locale.entry? id := by
  unfold union entry?
  induction locale.resources with
  | nil => rfl
  | cons slot slots ih =>
      obtain ⟨name, loaded⟩ := slot
      cases loaded with
      | error failure => exact ih
      | ok entries =>
          rw [List.foldr_cons, List.findSome?_cons]
          simp only [Table.find?_overlay, ih, entryIn?]
          cases entries.find? id <;> rfl

/-- Locales of a language that have the same entries. -/
structure Alike (left right : Locale) : Prop where
  language : right.language = left.language
  pluralLanguage : right.pluralLanguage = left.pluralLanguage
  entry? : right.entry? = left.entry?

theorem united_alike (one : String) (locale : Locale) : locale.Alike (locale.united one) where
  language := rfl
  pluralLanguage := rfl
  entry? := by
    funext id
    have single : Locale.entry? (locale.united one) id = locale.union.find? id := by
      unfold united Locale.entry?
      rw [List.findSome?_singleton]
      rfl
    rw [single, find?_union]

namespace Alike

variable {left right : Locale} (alike : left.Alike right) (arguments : Arguments) (id : String)

include alike

theorem code : right.code = left.code :=
  congrArg Language.code alike.language

theorem text : right.text arguments = left.text arguments := by
  have scopes : right.scope arguments = left.scope arguments := by
    simp only [scope, alike.entry?, alike.pluralLanguage]
  funext id phrase
  simp only [Locale.text, scopes]

theorem attempt : right.attempt arguments id = left.attempt arguments id := by
  simp only [Locale.attempt, alike.entry?, alike.text arguments]

theorem attributes : right.attributes arguments id = left.attributes arguments id := by
  simp only [Locale.attributes, attributeTexts, alike.entry?, alike.text arguments]

end Alike

end Locale

/-- What was found in locales that are alike. -/
structure Found.Alike (left right : Found) : Prop where
  value? : right.value? = left.value?
  locale? : Option.Rel Locale.Alike left.locale? right.locale?

inductive Verdict.Alike : Verdict → Verdict → Prop
  | ends {left right : Found} (found : left.Alike right) : Alike (.ends left) (.ends right)
  | passes {left right : Option Found} (salvage? : Option.Rel Found.Alike left right)
      (report other : Diagnostic) : Alike (.passes left report) (.passes right other)

theorem Locale.Alike.judge {left right : Locale} (alike : left.Alike right) (arguments : Arguments)
    (id : String) (needsValue : Bool) {salvage? other? : Option Found}
    (salvages : Option.Rel Found.Alike salvage? other?) :
    Verdict.Alike (left.judge arguments id needsValue salvage?)
      (right.judge arguments id needsValue other?) := by
  have here : Option.Rel Locale.Alike (some left) (some right) := .some alike
  unfold Locale.judge
  rw [alike.attempt]
  cases left.attempt arguments id with
  | missing => exact .passes salvages _ _
  | valueless =>
      cases needsValue with
      | true => exact .passes salvages _ _
      | false =>
          refine .ends ?_
          cases salvages with
          | none => exact ⟨rfl, here⟩
          | some found => exact found
  | done text => exact .ends ⟨rfl, here⟩
  | failed fault =>
      refine .passes ?_ _ _
      unfold salvaged
      cases salvages with
      | some found => exact .some found
      | none =>
          cases fault.salvage? with
          | none => exact .none
          | some text => exact .some ⟨rfl, here⟩

namespace Found.Alike

variable {left right : Found} (alike : left.Alike right)

include alike

theorem renderingOf (id : String) : Context.renderingOf id right = Context.renderingOf id left := by
  obtain ⟨value?, locale?⟩ := left
  obtain ⟨_, other?⟩ := right
  obtain ⟨rfl, locales⟩ := alike
  cases locales with
  | none => rfl
  | some here => simp only [Context.renderingOf, Option.map_some, here.code]

theorem entityOf (id : String) (arguments : Arguments) :
    (Context.entityOf id arguments right).1 = (Context.entityOf id arguments left).1 := by
  obtain ⟨value?, locale?⟩ := left
  obtain ⟨_, other?⟩ := right
  obtain ⟨rfl, locales⟩ := alike
  cases locales with
  | none => rfl
  | some here => simp only [Context.entityOf, here.code, here.attributes]

end Found.Alike

section Search

variable {locales others : List Locale} (alike : List.Forall₂ Locale.Alike locales others)

include alike

theorem search_alike (arguments : Arguments) (id : String) (needsValue : Bool)
    {salvage? other? : Option Found} (salvages : Option.Rel Found.Alike salvage? other?) :
    Found.Alike (search arguments id needsValue salvage? locales)
      (search arguments id needsValue other? others) := by
  induction alike generalizing salvage? other? with
  | nil =>
      cases salvages with
      | none => exact ⟨rfl, .none⟩
      | some found => exact found
  | @cons left right locales others here _ ih =>
      have verdicts := here.judge arguments id needsValue salvages
      rw [search, search]
      generalize left.judge arguments id needsValue salvage? = verdict at verdicts
      generalize right.judge arguments id needsValue other? = verdict' at verdicts
      cases verdicts with
      | ends found => exact found
      | passes salvages report other => exact ih salvages

/-- A query cannot tell locales apart that are alike. -/
theorem Query.answer_alike (query : Query) : query.answer others = query.answer locales := by
  cases query with
  | ready name => rfl
  | value name id arguments =>
      have found := search_alike alike arguments id true .none
      rw [answer, answer, found.renderingOf]
  | entity name id arguments =>
      have found := search_alike alike arguments id false .none
      rw [answer, answer, found.entityOf]
  | values name requests =>
      refine congrArg Reply.renderings (List.map_congr_left fun request _ => ?_)
      exact (search_alike alike request.2 request.1 true .none).renderingOf request.1

end Search

theorem Query.ask_alike (query : Query) {env : Environment} {context : Context} {store : Store}
    {otherEnv : Environment} {other : Context} {otherStore : Store}
    (alike : List.Forall₂ Locale.Alike (context.locales env store)
      (other.locales otherEnv otherStore)) :
    (query.ask otherEnv other otherStore).1 = (query.ask env context store).1 := by
  have length := alike.length_eq
  rw [Context.locales, Context.locales, Link.length_locales, Link.length_locales] at length
  by_cases requested : context.chain = []
  · obtain ⟨resources, chain⟩ := context
    obtain ⟨otherResources, otherChain⟩ := other
    obtain rfl : chain = [] := requested
    obtain rfl : otherChain = [] := List.length_eq_zero_iff.mp length.symm
    cases query with
    | values name requests => cases requests <;> rfl
    | _ => rfl
  · have otherRequested : other.chain ≠ [] := by
      intro empty
      rw [empty] at length
      exact requested (List.length_eq_zero_iff.mp length)
    obtain ⟨after, asked, -⟩ := query.ask_after requested env store
    obtain ⟨otherAfter, otherAsked, -⟩ := query.ask_after otherRequested otherEnv otherStore
    rw [asked, otherAsked]
    exact query.answer_alike alike

theorem findSome?_insert {f : α → Option β} {a : α} {front back : List α}
    (idle : f a = none ∨ a ∈ front) :
    (front ++ a :: back).findSome? f = (front ++ back).findSome? f := by
  rw [List.findSome?_append, List.findSome?_append, List.findSome?_cons]
  rcases idle with none | repeated
  · rw [none]
  · cases found : front.findSome? f with
    | some b => rfl
    | none => rw [List.findSome?_eq_none_iff.mp found a repeated]

/-- The other locale lacks a resource that failed or that stands before it as well. -/
structure Locale.Spares (locale other : Locale) : Prop where
  language : other.language = locale.language
  pluralLanguage : other.pluralLanguage = locale.pluralLanguage
  resources : ∃ front slot back, locale.resources = front ++ slot :: back ∧
    other.resources = front ++ back ∧ ((∃ failure, slot.2 = .error failure) ∨ slot ∈ front)

theorem Locale.Spares.alike {locale other : Locale} (spares : locale.Spares other) :
    locale.Alike other where
  language := spares.language
  pluralLanguage := spares.pluralLanguage
  entry? := by
    obtain ⟨front, slot, back, long, short, idle⟩ := spares.resources
    funext id
    unfold entry?
    rw [long, short, findSome?_insert]
    refine idle.imp_left ?_
    rintro ⟨failure, failed⟩
    rw [failed]
    rfl

/-- Of two links both are built or neither is. -/
structure Link.Spares (link other : Link) : Prop where
  language : other.language = link.language
  locale? : Option.Rel Locale.Spares link.locale? other.locale?

section Insert

variable {env : Environment} {front back : List String} {extra : String} {store other : Store}
  (agree : Store.AgreeOn (· ∈ front ++ back) store other)

include agree

theorem Link.buildLocale_insert (link : Link)
    (idle : extra ∈ front ∨ ∀ loaded,
      (extra, loaded) ∈ (link.buildLocale env (front ++ extra :: back) store).1.resources →
        ∃ failure, loaded = .error failure) :
    (link.buildLocale env (front ++ extra :: back) store).1.Alike
        (link.buildLocale env (front ++ back) other).1 ∧
      Store.AgreeOn (· ∈ front ++ back)
        (link.buildLocale env (front ++ extra :: back) store).2
        (link.buildLocale env (front ++ back) other).2 := by
  let slot : String → String × Loaded := fun name =>
    (name, (env.resource ⟨name, link.language.code⟩ store).1)
  have long : (link.buildLocale env (front ++ extra :: back) store).1.resources =
      front.map slot ++ slot extra :: back.map slot := by
    simp only [buildLocale, env.resources_eq, List.map_append, List.map_cons, slot]
  have short : (link.buildLocale env (front ++ back) other).1.resources =
      front.map slot ++ back.map slot := by
    rw [← List.map_append]
    refine (env.resources_eq _ _ other).trans (List.map_congr_left fun name member => ?_)
    exact congrArg (name, ·) (agree.resource env ⟨name, link.language.code⟩ member).1.symm
  refine ⟨⟨rfl, rfl, ?_⟩, agree.resources (fun name among => ?_) link.language.code⟩
  · funext id
    unfold Locale.entry?
    rw [short, long]
    refine (findSome?_insert ?_).symm
    rcases idle with repeated | failed
    · -- Loaded again, it is what it was before.
      exact .inr (List.mem_map_of_mem repeated)
    · rw [long] at failed
      obtain ⟨failure, failed⟩ := failed (slot extra).2 (by simp [slot])
      exact .inl (by rw [failed]; rfl)
  · refine iff_of_true ?_ among
    simp only [List.mem_append, List.mem_cons] at among ⊢
    exact among.imp_right .inr

theorem Link.locales_insert {links others : List Link}
    (spare : List.Forall₂ Link.Spares links others)
    (idle : extra ∈ front ∨ ∀ locale ∈ locales env (front ++ extra :: back) links store,
      ∀ loaded, (extra, loaded) ∈ locale.resources → ∃ failure, loaded = .error failure) :
    List.Forall₂ Locale.Alike (locales env (front ++ extra :: back) links store)
      (locales env (front ++ back) others other) := by
  induction spare generalizing store other with
  | nil => exact .nil
  | @cons link after links others here _ ih =>
      simp only [locales] at idle ⊢
      suffices built : (link.locale env (front ++ extra :: back) store).1.Alike
            (after.locale env (front ++ back) other).1 ∧
          Store.AgreeOn (· ∈ front ++ back) (link.locale env (front ++ extra :: back) store).2
            (after.locale env (front ++ back) other).2 by
        refine .cons built.1 (ih built.2 (idle.imp_right fun failed locale member => ?_))
        exact failed locale (List.mem_cons_of_mem _ member)
      obtain ⟨language, spared⟩ := here
      obtain ⟨_, link?⟩ := link
      obtain ⟨language', after?⟩ := after
      obtain rfl : language' = _ := language
      cases spared with
      | none =>
          exact buildLocale_insert agree ⟨language', none⟩
            (idle.imp_right fun failed => failed _ List.mem_cons_self)
      | some spares => exact ⟨spares.alike, agree⟩

end Insert

/-- Every answer is that of a single resource with the entries of all that loaded, each entry from
the first that has it. So one more resource that failed, or that is there already, is not noticed.
-/
theorem locale_as_one_map (query : Query) (env : Environment) (context : Context) (store : Store) :
    (∀ (one : String) (otherEnv : Environment) (single : Context) (otherStore : Store),
      single.locales otherEnv otherStore = (context.locales env store).map (Locale.united one) →
      (query.ask otherEnv single otherStore).1 = (query.ask env context store).1) ∧
    (∀ (front back : List String) (extra : String) (other : Context) (otherStore : Store),
      context.resources = front ++ extra :: back → other.resources = front ++ back →
      List.Forall₂ Link.Spares context.chain other.chain →
      Store.AgreeOn (· ∈ front ++ back) store otherStore →
      (extra ∈ front ∨ ∀ locale ∈ context.locales env store, ∀ loaded,
        (extra, loaded) ∈ locale.resources → ∃ failure, loaded = .error failure) →
      (query.ask env other otherStore).1 = (query.ask env context store).1) := by
  constructor
  · intro one otherEnv single otherStore united
    refine query.ask_alike ?_
    rw [united, List.forall₂_map_right_iff]
    exact List.forall₂_same.mpr fun locale _ => locale.united_alike one
  · intro front back extra other otherStore long short spare agree idle
    refine query.ask_alike ?_
    obtain ⟨resources, chain⟩ := context
    obtain ⟨otherResources, otherChain⟩ := other
    obtain rfl : resources = _ := long
    obtain rfl : otherResources = _ := short
    exact Link.locales_insert agree spare idle

/-- Bulletins in one language. -/
def bulletin (resources : List String) : Context where
  resources := resources
  chain := [{ language := .ofCode "en" }]

def Environment.bulletin : Environment where
  defaultLanguage := "en"
  available := ["en"]
  registry := [("txt", Resource.parseLines)]

def Store.bulletin : Store where
  sources :=
    { texts :=
        [(⟨"front.txt", "en"⟩, "Open"), (⟨"back.txt", "en"⟩, "Shut\nSoon"),
          (⟨"all.txt", "en"⟩, "Open\nSoon")] }

theorem locale_as_one_map_bulletin :
    let query : Query := .value "front" "line1" []
    let context := bulletin ["front.txt", "lost.txt", "back.txt"]
    let locales := context.locales .bulletin .bulletin
    (bulletin ["all.txt"]).locales .bulletin .bulletin = locales.map (Locale.united "all.txt") ∧
    (∀ locale ∈ locales, ∀ loaded, ("lost.txt", loaded) ∈ locale.resources →
      ∃ failure, loaded = .error failure) ∧
    (query.ask .bulletin context .bulletin).1 = .rendering ⟨"Soon", some "en"⟩ ∧
    (query.ask .bulletin (bulletin ["all.txt"]) .bulletin).1 =
      (query.ask .bulletin context .bulletin).1 ∧
    (query.ask .bulletin (bulletin ["front.txt", "back.txt"]) .bulletin).1 =
      (query.ask .bulletin context .bulletin).1 := by
  intro query context locales
  have united : (bulletin ["all.txt"]).locales .bulletin .bulletin =
      locales.map (Locale.united "all.txt") := rfl
  have failed : ∀ locale ∈ locales, ∀ loaded, ("lost.txt", loaded) ∈ locale.resources →
      ∃ failure, loaded = .error failure := by
    have checked : ∀ locale ∈ locales, ∀ slot ∈ locale.resources,
        slot.1 = "lost.txt" → slot.2.isOk = false := by decide +kernel
    intro locale member loaded slot
    have isError := checked locale member ("lost.txt", loaded) slot rfl
    cases loaded with
    | ok entries => cases isError
    | error failure => exact ⟨failure, rfl⟩
  obtain ⟨single, spared⟩ := locale_as_one_map query .bulletin context .bulletin
  refine ⟨united, failed, rfl, single "all.txt" _ _ _ united, ?_⟩
  refine spared ["front.txt"] ["back.txt"] "lost.txt" _ _ rfl rfl ?_ (.refl _ _) (.inr failed)
  exact .cons ⟨rfl, .none⟩ .nil

end Phrasebook
