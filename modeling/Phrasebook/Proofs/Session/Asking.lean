import Mathlib.Data.List.Forall2
import Phrasebook.Proofs.Session.Batch
import Phrasebook.Proofs.Session.Stalling

namespace Phrasebook

namespace Link

variable {env : Environment} {resources : List String}

/-- A link has at least as much built as another. -/
structure Grows (link later : Link) : Prop where
  language : later.language = link.language
  built : ∀ locale, link.locale? = some locale → later.locale? = some locale

theorem Grows.refl (link : Link) : link.Grows link :=
  ⟨rfl, fun _ built => built⟩

theorem Grows.trans {link later last : Link} (first : link.Grows later)
    (second : later.Grows last) : link.Grows last where
  language := second.language.trans first.language
  built locale built := second.built locale (first.built locale built)

@[simp] theorem length_fill (links : List Link) (locales : List Locale) :
    (fill links locales).length = links.length := by
  induction links generalizing locales with
  | nil => rfl
  | cons link links ih =>
      cases locales with
      | nil => rfl
      | cons locale locales => simp [fill, ih]

theorem fill_fill (links : List Link) (locales : List Locale) (count more : Nat) :
    fill (fill links (locales.take count)) (locales.take more) =
      fill links (locales.take (max count more)) := by
  induction links generalizing locales count more with
  | nil => rfl
  | cons link links ih =>
      cases locales with
      | nil => simp
      | cons locale locales =>
          cases count with
          | zero => simp
          | succ count =>
              cases more with
              | zero => simp
              | succ more =>
                  simp only [List.take_succ_cons, fill, ih, Nat.succ_max_succ]

theorem locale_of_built {link : Link} {locale : Locale} (built : link.locale? = some locale)
    (store : Store) : link.locale env resources store = (locale, store) := by
  simp [Link.locale, built]

theorem fill_grows (links : List Link) (store : Store) (count : Nat) :
    List.Forall₂ Grows links (fill links ((locales env resources links store).take count)) := by
  induction links generalizing store count with
  | nil => exact .nil
  | cons link links ih =>
      cases count with
      | zero =>
          rw [List.take_zero, fill_nil]
          exact List.forall₂_same.mpr fun link _ => .refl link
      | succ count =>
          refine .cons ⟨rfl, fun locale built => ?_⟩ (ih _ count)
          rw [locale_of_built built]

def BuiltFirst (count : Nat) (links : List Link) : Prop :=
  ∀ link ∈ links.take count, link.locale?.isSome

theorem BuiltFirst.mono {count fewer : Nat} {links : List Link} (built : BuiltFirst count links)
    (le : fewer ≤ count) : BuiltFirst fewer links :=
  fun link member => built link (List.take_subset_take_left links le member)

theorem builtFirst_zero (links : List Link) : BuiltFirst 0 links := by
  simp [BuiltFirst]

theorem builtFirst_cons {count : Nat} {link : Link} {links : List Link} :
    BuiltFirst (count + 1) (link :: links) ↔
      (∃ locale, link.locale? = some locale) ∧ BuiltFirst count links := by
  simp only [BuiltFirst, List.take_succ_cons, List.forall_mem_cons, Option.isSome_iff_exists]

theorem builtFirst_fill (links : List Link) (locales : List Locale) (count : Nat)
    (long : locales.length = links.length) :
    BuiltFirst count (fill links (locales.take count)) := by
  induction links generalizing locales count with
  | nil => simp [BuiltFirst, fill]
  | cons link links ih =>
      cases locales with
      | nil => cases long
      | cons locale locales =>
          cases count with
          | zero => exact builtFirst_zero _
          | succ count =>
              exact builtFirst_cons.mpr ⟨⟨locale, rfl⟩, ih locales count (Nat.succ.inj long)⟩

theorem Grows.all_trans {links later last : List Link} (first : List.Forall₂ Grows links later)
    (second : List.Forall₂ Grows later last) : List.Forall₂ Grows links last := by
  induction first generalizing last with
  | nil => exact second
  | cons here _ ih =>
      cases second with
      | cons next rest => exact .cons (here.trans next) (ih rest)

theorem BuiltFirst.grows {count : Nat} {links later : List Link} (built : BuiltFirst count links)
    (grows : List.Forall₂ Grows links later) : BuiltFirst count later := by
  induction grows generalizing count with
  | nil => exact built
  | cons here _ ih =>
      cases count with
      | zero => exact builtFirst_zero _
      | succ count =>
          obtain ⟨⟨locale, first⟩, rest⟩ := builtFirst_cons.mp built
          exact builtFirst_cons.mpr ⟨⟨locale, here.built locale first⟩, ih rest⟩

theorem locales_take_of_grows {count : Nat} {links later : List Link}
    (grows : List.Forall₂ Grows links later) (built : BuiltFirst count links)
    (store other : Store) :
    (locales env resources later other).take count =
      (locales env resources links store).take count := by
  induction grows generalizing count store other with
  | nil => rfl
  | cons here _ ih =>
      cases count with
      | zero => rfl
      | succ count =>
          obtain ⟨⟨locale, first⟩, rest⟩ := builtFirst_cons.mp built
          simp only [locales, List.take_succ_cons, locale_of_built first,
            locale_of_built (here.built locale first), ih rest store other]

end Link

section Search

variable {arguments : Arguments} {id : String} {needsValue : Bool}

/-- Beyond what it looks at, a search cannot tell locales apart. -/
theorem search_congr {salvage? : Option Found} {locales others : List Locale}
    (long : others.length = locales.length)
    (alike : others.take (visited arguments id needsValue salvage? locales).length =
      locales.take (visited arguments id needsValue salvage? locales).length) :
    search arguments id needsValue salvage? others =
        search arguments id needsValue salvage? locales ∧
      visited arguments id needsValue salvage? others =
        visited arguments id needsValue salvage? locales := by
  induction locales generalizing others salvage? with
  | nil =>
      obtain rfl := List.length_eq_zero_iff.mp long
      exact ⟨rfl, rfl⟩
  | cons locale locales ih =>
      cases others with
      | nil => cases long
      | cons other others =>
          have same : other = locale := by
            simp only [visited] at alike
            split at alike <;> simp_all
          subst same
          simp only [search, visited] at alike ⊢
          split at alike
          · exact ⟨rfl, rfl⟩
          · rw [List.length_cons, List.take_succ_cons, List.take_succ_cons] at alike
            obtain ⟨found, looked⟩ := ih (Nat.succ.inj long) (List.cons.inj alike).2
            exact ⟨found, congrArg _ looked⟩

theorem walk_locales (env : Environment) (resources : List String) (arguments : Arguments)
    (id : String) (needsValue : Bool) (salvage? : Option Found) (links : List Link)
    (store : Store) :
    let after := walk env resources arguments id needsValue salvage? links store
    Link.locales env resources after.2.1 after.2.2 = Link.locales env resources links store := by
  induction links generalizing salvage? store with
  | nil => rfl
  | cons link links ih =>
      simp only [walk]
      cases (link.locale env resources store).1.judge arguments id needsValue salvage? with
      | ends found => rfl
      | passes salvage? detail =>
          have later := ih salvage? ((link.locale env resources store).2.report detail)
          rw [Link.locales_report] at later
          exact congrArg (_ :: ·) later

end Search

namespace Context

variable {env : Environment} {context : Context} {store : Store}

/-- A context has the same languages as another and at least as much built. -/
structure Grows (context later : Context) : Prop where
  resources : later.resources = context.resources
  chain : List.Forall₂ Link.Grows context.chain later.chain

theorem Grows.refl (context : Context) : context.Grows context :=
  ⟨rfl, List.forall₂_same.mpr fun link _ => .refl link⟩

theorem Grows.trans {later last : Context} (first : context.Grows later)
    (second : later.Grows last) : context.Grows last :=
  ⟨second.resources.trans first.resources, Link.Grows.all_trans first.chain second.chain⟩

theorem Grows.locales_take {later : Context} {count : Nat} (grows : context.Grows later)
    (built : Link.BuiltFirst count context.chain) (env : Environment) (store other : Store) :
    (later.locales env other).take count = (context.locales env store).take count := by
  rw [locales, grows.resources]
  exact Link.locales_take_of_grows grows.chain built store other

def filled (context : Context) (env : Environment) (store : Store) (count : Nat) : Context :=
  { context with chain := Link.fill context.chain ((context.locales env store).take count) }

theorem filled_grows (count : Nat) : context.Grows (context.filled env store count) :=
  ⟨rfl, Link.fill_grows context.chain store count⟩

/-- A context and a store after a query that looked at so many locales. -/
structure After (context : Context) (env : Environment) (store : Store) (count : Nat)
    (after : Context × Store) : Prop where
  filled : after.1 = context.filled env store count
  locales : after.1.locales env after.2 = context.locales env store
  fetches : Link.BuiltFirst count context.chain → after.2.fetches = store.fetches
  based : Store.Based env store → Store.Based env after.2
  advances : Store.Based env store →
    Link.Advances env context.resources context.chain store count after.1.chain after.2

theorem After.refl (context : Context) (env : Environment) (store : Store) :
    After context env store 0 (context, store) where
  filled := by rw [Context.filled, List.take_zero, Link.fill_nil]
  locales := rfl
  fetches _ := rfl
  based := id
  advances _ := .refl env context.resources context.chain store

theorem After.trans {count more : Nat} {after last : Context × Store}
    (first : After context env store count after) (second : After after.1 env after.2 more last) :
    After context env store (max count more) last := by
  have grows : context.Grows after.1 := first.filled ▸ filled_grows count
  refine ⟨?_, second.locales.trans first.locales, fun built => ?_, second.based ∘ first.based,
    fun based => ?_⟩
  · rw [second.filled, Context.filled, first.locales, first.filled]
    simp only [Context.filled, Link.fill_fill]
  · have before := built.mono (Nat.le_max_left count more)
    have later := (built.mono (Nat.le_max_right count more)).grows grows.chain
    rw [second.fetches later, first.fetches before]
  · have advances := second.advances (first.based based)
    rw [grows.resources] at advances
    exact (first.advances based).trans advances

theorem After.reported {count : Nat} {after : Context × Store}
    (now : After context env store count after) (details : List Diagnostic) :
    After context env store count (after.1, after.2.reportAll details) where
  filled := now.filled
  locales := by
    rw [← now.locales]
    exact Link.locales_quiet _ (Store.quiet_reportAll after.2 details)
  fetches := now.fetches
  based based := (now.based based).congr rfl
  advances based := (now.advances based).reported details

theorem ready_after (requested : context.chain ≠ []) (env : Environment) (store : Store) :
    ∃ after, context.ready env store = (.ok (), after) ∧ After context env store 1 after := by
  obtain ⟨resources, chain⟩ := context
  cases chain with
  | nil => exact absurd rfl requested
  | cons link links =>
      refine ⟨_, rfl, ?_, rfl, fun built => ?_, fun based => based.locale link resources,
        fun based => .cons based (.refl env resources links _)⟩
      · simp only [filled, Context.locales, Link.locales, List.take_succ_cons, List.take_zero,
          Link.fill, Link.fill_nil]
        rfl
      · obtain ⟨locale, here⟩ := Option.isSome_iff_exists.mp (built link List.mem_cons_self)
        have kept := @Link.locale_of_built env resources link locale here store
        exact congrArg (fun outcome => outcome.2.fetches) kept

theorem find_after (requested : context.chain ≠ []) (env : Environment) (store : Store)
    (arguments : Arguments) (id : String) (needsValue : Bool) :
    let locales := context.locales env store
    ∃ after, context.find env arguments id needsValue store =
        (.ok (search arguments id needsValue none locales), after) ∧
      After context env store (visited arguments id needsValue none locales).length after := by
  intro locales
  refine ⟨_, find_of_requested requested env arguments id needsValue store, ?_, ?_, fun built => ?_,
    fun based => ?_, fun based => ?_⟩
  · rw [Context.filled]
    exact congrArg (fun locales => { context with chain := Link.fill context.chain locales })
      (visited_eq_take arguments id needsValue none locales)
  · have same := walk_locales env context.resources arguments id needsValue none context.chain store
    dsimp only at same
    rw [walk_links] at same
    exact same
  · obtain ⟨fetches, after, ofVisited⟩ :=
      @walk_fetches env context.resources arguments id needsValue none context.chain store
    cases fetches with
    | nil => rw [after, List.append_nil]
    | cons key fetches =>
        obtain ⟨-, link, inTake, unbuilt, -⟩ := ofVisited key List.mem_cons_self
        have here := built link inTake
        rw [unbuilt] at here
        cases here
  · have holds : ∀ link ∈ context.chain, link.Holds (fun _ _ _ => True) context.resources :=
      fun _ _ _ _ => trivial
    exact ((Store.Based.upkeep env).walk based holds).2
  · have advances := @walk_advances env context.resources arguments id needsValue none context.chain
      store based
    simp only [walk_links] at advances
    exact advances

theorem resolveValues_after (requested : context.chain ≠ []) (env : Environment) (store : Store)
    (requests : List (String × Arguments)) :
    let locales := context.locales env store
    ∃ after, context.resolveValues env requests store =
        (.ok (requests.map fun request =>
          renderingOf request.1 (search request.2 request.1 true none locales)), after) ∧
      After context env store
        (requests.foldr (fun request count =>
          max (visited request.2 request.1 true none locales).length count) 0) after := by
  induction requests generalizing context store with
  | nil => exact ⟨_, rfl, .refl context env store⟩
  | cons request requests ih =>
      obtain ⟨id, arguments⟩ := request
      obtain ⟨after, found, first⟩ := find_after requested env store arguments id true
      have still : after.1.chain ≠ [] := by
        rw [first.filled, filled]
        refine List.ne_nil_of_length_pos ?_
        rw [Link.length_fill]
        exact List.length_pos_iff.mpr requested
      obtain ⟨last, resolved, later⟩ := ih still after.2
      rw [first.locales] at resolved later
      refine ⟨last, ?_, first.trans later⟩
      simp only [resolveValues, resolveValue, found, Except.map, resolved]
      rfl

end Context

/-- A query answers from the locales of its context. -/
theorem Query.ask_after (query : Query) {context : Context} (requested : context.chain ≠ [])
    (env : Environment) (store : Store) :
    let locales := context.locales env store
    ∃ after, query.ask env context store = (query.answer locales, after) ∧
      Context.After context env store (query.reach locales) after := by
  cases query with
  | ready name =>
      obtain ⟨after, ready, now⟩ := Context.ready_after requested env store
      refine ⟨after, ?_, now⟩
      simp only [ask, ready]
      rfl
  | value name id arguments =>
      obtain ⟨after, found, now⟩ := Context.find_after requested env store arguments id true
      refine ⟨after, ?_, now⟩
      simp only [ask, Context.resolveValue, found]
      rfl
  | entity name id arguments =>
      obtain ⟨after, found, now⟩ := Context.find_after requested env store arguments id false
      let given := search arguments id false none (context.locales env store)
      refine ⟨_, ?_, now.reported (Context.entityOf id arguments given).2⟩
      simp only [ask, Context.resolveEntity, found]
      rfl
  | values name requests =>
      obtain ⟨after, resolved, now⟩ := Context.resolveValues_after requested env store requests
      refine ⟨after, ?_, now⟩
      simp only [ask, resolved]
      rfl

theorem take_eq_of_le {others locales : List Locale} {count fewer : Nat}
    (alike : others.take count = locales.take count) (le : fewer ≤ count) :
    others.take fewer = locales.take fewer := by
  have taken := congrArg (List.take fewer) alike
  rwa [List.take_take, List.take_take, Nat.min_eq_left le] at taken

theorem Query.answer_congr {locales others : List Locale} (query : Query)
    (long : others.length = locales.length)
    (alike : others.take (query.reach locales) = locales.take (query.reach locales)) :
    query.answer others = query.answer locales ∧ query.reach others = query.reach locales := by
  cases query with
  | ready name => exact ⟨rfl, rfl⟩
  | value name id arguments =>
      obtain ⟨found, looked⟩ := search_congr long alike
      exact ⟨by simp only [answer, found], by simp only [reach, looked]⟩
  | entity name id arguments =>
      obtain ⟨found, looked⟩ := search_congr long alike
      exact ⟨by simp only [answer, found], by simp only [reach, looked]⟩
  | values name requests =>
      induction requests with
      | nil => exact ⟨rfl, rfl⟩
      | cons request requests ih =>
          obtain ⟨id, arguments⟩ := request
          have here : others.take (visited arguments id true none locales).length =
              locales.take (visited arguments id true none locales).length :=
            take_eq_of_le alike (Nat.le_max_left _ _)
          obtain ⟨found, looked⟩ := search_congr long here
          obtain ⟨later, reached⟩ := ih (take_eq_of_le alike (Nat.le_max_right _ _))
          simp only [answer, reach, List.map_cons, List.foldr_cons, found, looked,
            Reply.renderings.injEq] at later reached ⊢
          exact ⟨by rw [later], by rw [reached]⟩

/-- However much more of the context is built, the query is answered so, and nothing is fetched. -/
def Query.Settled (query : Query) (env : Environment) (context : Context) (reply : Reply) : Prop :=
  ∀ later, context.Grows later → ∀ store,
    (query.ask env later store).1 = reply ∧
      (query.ask env later store).2.2.fetches = store.fetches

section Ask

variable (query : Query) (env : Environment) (context : Context) (store : Store)

theorem Query.ask_grows : context.Grows (query.ask env context store).2.1 := by
  by_cases requested : context.chain = []
  · obtain ⟨resources, chain⟩ := context
    obtain rfl := requested
    obtain ⟨reply, asked⟩ := query.ask_unrequested env resources
    rw [asked store]
    exact .refl _
  · obtain ⟨after, asked, now⟩ := query.ask_after requested env store
    rw [asked, now.filled]
    exact Context.filled_grows _

theorem Query.ask_settled :
    query.Settled env (query.ask env context store).2.1 (query.ask env context store).1 := by
  intro later grows again
  by_cases requested : context.chain = []
  · obtain ⟨resources, chain⟩ := context
    obtain rfl := requested
    obtain ⟨reply, asked⟩ := query.ask_unrequested env resources
    rw [asked store] at grows ⊢
    obtain ⟨resources, chain⟩ := later
    obtain ⟨rfl, chains⟩ := grows
    cases chains
    rw [asked again]
    exact ⟨rfl, rfl⟩
  · obtain ⟨after, asked, now⟩ := query.ask_after requested env store
    rw [asked] at grows ⊢
    -- All that it looked at is built by now, so the same locales stand there in any store.
    have built : Link.BuiltFirst (query.reach (context.locales env store)) after.1.chain := by
      rw [now.filled]
      exact Link.builtFirst_fill _ _ _ (Link.length_locales _ _)
    have length : later.chain.length = context.chain.length := by
      rw [← grows.chain.length_eq, now.filled, Context.filled, Link.length_fill]
    have long : (later.locales env again).length = (context.locales env store).length := by
      rw [Context.locales, Context.locales, Link.length_locales, Link.length_locales, length]
    have alike : (later.locales env again).take (query.reach (context.locales env store)) =
        (context.locales env store).take (query.reach (context.locales env store)) := by
      rw [grows.locales_take built env after.2 again, now.locales]
    obtain ⟨same, reached⟩ := query.answer_congr long alike
    have still : later.chain ≠ [] := by
      intro empty
      rw [empty] at length
      exact requested (List.length_eq_zero_iff.mp length.symm)
    obtain ⟨last, reasked, done⟩ := query.ask_after still env again
    rw [reasked]
    refine ⟨same, done.fetches ?_⟩
    rw [reached]
    exact built.grows grows.chain

end Ask

end Phrasebook
