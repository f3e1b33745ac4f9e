import Phrasebook.Proofs.Session.Fallback
import Phrasebook.Proofs.Session.Settling

namespace Phrasebook

namespace Query

variable (locales : List Locale)

/-- What a query answers where languages were requested, given their locales. -/
def answer : Query → Reply
  | .ready _ => .nothing
  | .value _ id arguments =>
      .rendering (Context.renderingOf id (search arguments id true none locales))
  | .entity _ id arguments =>
      .entity (Context.entityOf id arguments (search arguments id false none locales)).1
  | .values _ requests =>
      .renderings (requests.map fun request =>
        Context.renderingOf request.1 (search request.2 request.1 true none locales))

def remarks : Query → List Diagnostic
  | .ready _ => []
  | .value _ id arguments => Phrasebook.remarks arguments id true none locales
  | .entity _ id arguments =>
      Phrasebook.remarks arguments id false none locales ++
        (Context.entityOf id arguments (search arguments id false none locales)).2
  | .values _ requests =>
      requests.flatMap fun request => Phrasebook.remarks request.2 request.1 true none locales

def reach : Query → Nat
  | .ready _ => 1
  | .value _ id arguments => (visited arguments id true none locales).length
  | .entity _ id arguments => (visited arguments id false none locales).length
  | .values _ requests =>
      requests.foldr (fun request count =>
        max (visited request.2 request.1 true none locales).length count) 0

theorem remarks_nil (query : Query) : query.remarks [] = [] := by
  cases query with
  | values name requests => simp [remarks, Phrasebook.remarks]
  | _ => rfl

theorem ask_unrequested (query : Query) (env : Environment) (resources : List String) :
    ∃ reply, ∀ store, query.ask env ⟨resources, []⟩ store = (reply, ⟨resources, []⟩, store) := by
  cases query with
  | values name requests => cases requests <;> exact ⟨_, fun _ => rfl⟩
  | _ => exact ⟨_, fun _ => rfl⟩

end Query

def Context.settleFirst (context : Context) (env : Environment) (start : Store) (count : Nat) :
    Context :=
  { context with chain := Link.settleFirst env context.resources start count context.chain }

def Context.WantsFirst (context : Context) (count : Nat) : Key → Prop :=
  Link.WantsFirst context.resources count context.chain

/-- A context as it was at the start, but for locales settled since, with the store by then. -/
structure Context.Onward (env : Environment) (start : Store) (context : Context) (count : Nat)
    (wanted : Key → Prop) (details : List Diagnostic) (now : Context × Store) : Prop where
  settled : now.1 = context.settleFirst env start count
  gains : Store.Gains env start wanted details now.2
  covered : ∀ key, context.WantsFirst count key → wanted key

namespace Context.Onward

variable {env : Environment} {start : Store} {context : Context} {count : Nat}
  {wanted : Key → Prop} {details : List Diagnostic} {now : Context × Store}

theorem refl (env : Environment) (start : Store) (context : Context) :
    Onward env start context 0 (fun _ => False) [] (context, start) :=
  ⟨by simp [settleFirst], .refl env start, by simp [WantsFirst, Link.WantsFirst]⟩

theorem covered_max (onward : Onward env start context count wanted details now) (more : Nat)
    (key : Key) (wants : context.WantsFirst (max more count) key) :
    wanted key ∨ context.WantsFirst more key := by
  rcases (Link.wantsFirst_max more count context.chain key).mp wants with added | before
  · exact .inr added
  · exact .inl (onward.covered key before)

theorem congr {otherCount : Nat} {accepted : Key → Prop} {others : List Diagnostic}
    (onward : Onward env start context count wanted details now) (sameCount : count = otherCount)
    (sameKeys : ∀ key, wanted key ↔ accepted key) (sameDetails : details = others) :
    Onward env start context otherCount accepted others now := by
  subst sameCount sameDetails
  exact ⟨onward.settled, onward.gains.congr sameKeys,
    fun key wants => (sameKeys key).mp (onward.covered key wants)⟩

variable (shippedDefault : env.derivedPseudo? env.defaultLanguage = none)

include shippedDefault

theorem locales (onward : Onward env start context count wanted details now) :
    now.1.locales env now.2 = context.locales env start := by
  rw [onward.settled, Context.locales, Context.locales,
    Link.locales_settled shippedDefault onward.gains,
    Link.locales_settled shippedDefault (.refl env start)]
  exact Link.map_settled_settleFirst count context.chain

theorem find (onward : Onward env start context count wanted details now)
    (requested : context.chain ≠ []) (arguments : Arguments) (id : String) (needsValue : Bool) :
    let locales := context.locales env start
    let more := (visited arguments id needsValue none locales).length
    ∃ after, now.1.find env arguments id needsValue now.2 =
        (.ok (search arguments id needsValue none locales), after) ∧
      Onward env start context (max more count)
        (fun key => wanted key ∨ context.WantsFirst more key)
        (details ++ Phrasebook.remarks arguments id needsValue none locales) after := by
  intro locales more
  have localesNow : now.1.locales env now.2 = locales := onward.locales shippedDefault
  have settled : locales = context.chain.map (Link.settled env context.resources start) :=
    Link.locales_settled shippedDefault (.refl env start) context.resources context.chain
  have coveredAfter := onward.covered_max more
  obtain ⟨nowContext, store⟩ := now
  obtain ⟨same, gains, covered⟩ := onward
  simp only at same gains localesNow
  subst same
  have requestedNow : (context.settleFirst env start count).chain ≠ [] :=
    Link.settleFirst_ne_nil count requested
  have filled : Link.fill (context.settleFirst env start count).chain (locales.take more) =
      Link.settleFirst env context.resources start (max more count) context.chain := by
    rw [settled, ← Link.map_settled_settleFirst count, settleFirst, Link.fill_settled,
      Link.settleFirst_settleFirst]
  have found := Context.find_of_requested requestedNow env arguments id needsValue store
  rw [localesNow, visited_eq_take, filled] at found
  have walked := walk_gains shippedDefault gains covered arguments id needsValue none
  rw [← settled] at walked
  exact ⟨_, found, rfl, walked, coveredAfter⟩

theorem resolveEntity (onward : Onward env start context count wanted details now)
    (requested : context.chain ≠ []) (id : String) (arguments : Arguments) :
    let locales := context.locales env start
    let more := (visited arguments id false none locales).length
    let entity := Context.entityOf id arguments (search arguments id false none locales)
    ∃ after, now.1.resolveEntity env id arguments now.2 = (.ok entity.1, after) ∧
      Onward env start context (max more count)
        (fun key => wanted key ∨ context.WantsFirst more key)
        (details ++ (Phrasebook.remarks arguments id false none locales ++ entity.2)) after := by
  intro locales more entity
  obtain ⟨after, found, onwardAfter⟩ := onward.find shippedDefault requested arguments id false
  refine ⟨(after.1, after.2.reportAll entity.2), ?_, onwardAfter.settled, ?_, onwardAfter.covered⟩
  · rw [Context.resolveEntity, found]
  · rw [← List.append_assoc]
    exact onwardAfter.gains.reported entity.2

theorem resolveValues (onward : Onward env start context count wanted details now)
    (requested : context.chain ≠ []) (name : String) (requests : List (String × Arguments)) :
    let locales := context.locales env start
    let more := (Query.values name requests).reach locales
    ∃ after, now.1.resolveValues env requests now.2 =
        (.ok (requests.map fun request =>
          Context.renderingOf request.1 (search request.2 request.1 true none locales)), after) ∧
      Onward env start context (max more count)
        (fun key => wanted key ∨ context.WantsFirst more key)
        (details ++ (Query.values name requests).remarks locales) after := by
  intro locales more
  induction requests generalizing now count wanted details with
  | nil =>
      refine ⟨now, rfl, onward.congr (Nat.zero_max count).symm ?_ (List.append_nil _).symm⟩
      simp [more, Query.reach, WantsFirst, Link.WantsFirst]
  | cons request requests ih =>
      obtain ⟨id, arguments⟩ := request
      obtain ⟨after, found, onwardAfter⟩ := onward.find shippedDefault requested arguments id true
      obtain ⟨atEnd, rest, onwardAtEnd⟩ := ih onwardAfter
      refine ⟨atEnd, ?_, onwardAtEnd.congr ?_ ?_ (List.append_assoc _ _ _)⟩
      · simp only [Context.resolveValues, Context.resolveValue, found, Except.map, rest,
          List.map_cons]
        rfl
      · rw [← Nat.max_assoc, Nat.max_comm (Query.reach _ _)]
        rfl
      · intro key
        rw [or_assoc]
        exact or_congr_right (Link.wantsFirst_max _ _ context.chain key).symm

theorem ready (onward : Onward env start context count wanted details now)
    (requested : context.chain ≠ []) :
    ∃ after, now.1.ready env now.2 = (.ok (), after) ∧
      Onward env start context (max 1 count)
        (fun key => wanted key ∨ context.WantsFirst 1 key) details after := by
  obtain ⟨resources, chain⟩ := context
  obtain ⟨nowContext, store⟩ := now
  have coveredAfter := onward.covered_max 1
  obtain ⟨same, gains, covered⟩ := onward
  simp only at same gains
  subst same
  cases chain with
  | nil => exact absurd rfl requested
  | cons link links =>
      obtain ⟨now, split, settles, here, gainsHere⟩ :=
        Link.settleFirst_cons_gains shippedDefault gains count link links covered
      have first : link.settle env resources start ::
            Link.settleFirst env resources start (count - 1) links =
          Link.settleFirst env resources start (max 1 count) (link :: links) := by
        cases count with
        | zero => simp
        | succ count => simp
      have asked : (settleFirst ⟨resources, link :: links⟩ env start count).ready env store =
          (.ok (), ⟨resources, Link.settleFirst env resources start (max 1 count) (link :: links)⟩,
            (now.locale env resources store).2) := by
        simp only [settleFirst, split, Context.ready, here, settles, first]
      exact ⟨_, asked, rfl, gainsHere.congr (by simp [WantsFirst, Link.WantsFirst]), coveredAfter⟩

theorem ask_requested (onward : Onward env start context count wanted details now)
    (requested : context.chain ≠ []) (query : Query) :
    let locales := context.locales env start
    ∃ after, query.ask env now.1 now.2 = (query.answer locales, after) ∧
      Onward env start context (max (query.reach locales) count)
        (fun key => wanted key ∨ context.WantsFirst (query.reach locales) key)
        (details ++ query.remarks locales) after := by
  intro locales
  cases query with
  | ready name =>
      obtain ⟨after, asked, onwardAfter⟩ := onward.ready shippedDefault requested
      refine ⟨after, ?_, onwardAfter.congr rfl (fun _ => Iff.rfl) (List.append_nil details).symm⟩
      simp only [Query.ask, asked]
      rfl
  | value name id arguments =>
      obtain ⟨after, asked, onwardAfter⟩ := onward.find shippedDefault requested arguments id true
      refine ⟨after, ?_, onwardAfter⟩
      simp only [Query.ask, Context.resolveValue, asked]
      rfl
  | entity name id arguments =>
      obtain ⟨after, asked, onwardAfter⟩ :=
        onward.resolveEntity shippedDefault requested id arguments
      refine ⟨after, ?_, onwardAfter⟩
      simp only [Query.ask, asked]
      rfl
  | values name requests =>
      obtain ⟨after, asked, onwardAfter⟩ :=
        onward.resolveValues shippedDefault requested name requests
      refine ⟨after, ?_, onwardAfter⟩
      simp only [Query.ask, asked]
      rfl

/-- A query answers what was settled at the start, whatever has been settled since. -/
theorem ask (onward : Onward env start context count wanted details now) (query : Query) :
    let locales := context.locales env start
    (query.ask env now.1 now.2).1 = (query.ask env context start).1 ∧
      Onward env start context (max (query.reach locales) count)
        (fun key => wanted key ∨ context.WantsFirst (query.reach locales) key)
        (details ++ query.remarks locales) (query.ask env now.1 now.2).2 := by
  intro locales
  by_cases requested : context.chain = []
  · obtain ⟨resources, chain⟩ := context
    obtain ⟨nowContext, store⟩ := now
    cases requested
    obtain ⟨same, gains, covered⟩ := onward
    have unchanged : nowContext = ⟨resources, []⟩ := by simpa [settleFirst] using same
    subst unchanged
    obtain ⟨reply, asked⟩ := query.ask_unrequested env resources
    have nothing : query.remarks locales = [] := query.remarks_nil
    rw [asked, asked, nothing, List.append_nil]
    refine ⟨rfl, same.trans (by simp [settleFirst]), gains.congr ?_, ?_⟩
    · simp [WantsFirst, Link.WantsFirst]
    · simp [WantsFirst, Link.WantsFirst]
  · obtain ⟨after, asked, onwardAfter⟩ := onward.ask_requested shippedDefault requested query
    obtain ⟨afterStart, askedAtStart, -⟩ :=
      (refl env start context).ask_requested shippedDefault requested query
    rw [askedAtStart, asked]
    exact ⟨rfl, onwardAfter⟩

end Context.Onward

namespace Session

/-- The locales that a query of a context walks along. -/
def localesOf (session : Session) (name : String) : List Locale :=
  match session.context? name with
  | none => []
  | some context => context.locales session.env session.store

def reach (session : Session) (name : String) (queries : List Query) : Nat :=
  queries.foldr (fun query count =>
    if query.context = name then max (query.reach (session.localesOf name)) count else count) 0

def remarks (session : Session) (queries : List Query) : List Diagnostic :=
  queries.flatMap fun query => query.remarks (session.localesOf query.context)

def Wants (session : Session) (queries : List Query) (key : Key) : Prop :=
  ∃ query ∈ queries, ∃ context, session.context? query.context = some context ∧
    context.WantsFirst (query.reach (session.localesOf query.context)) key

/-- A session as it was at the start, but for what some queries have settled since. -/
structure Onward (start : Session) (asked : List Query) (now : Session) : Prop where
  env : now.env = start.env
  contexts : ∀ name, now.context? name =
    (start.context? name).map fun context =>
      context.settleFirst start.env start.store (start.reach name asked)
  gains : Store.Gains start.env start.store (start.Wants asked) (start.remarks asked) now.store

section Reach

variable {start : Session} {context : Context}

theorem localesOf_known {name : String} (known : start.context? name = some context) :
    start.localesOf name = context.locales start.env start.store := by
  simp only [localesOf, known]

theorem reach_perm {left right : List Query} (same : left.Perm right) (name : String) :
    start.reach name left = start.reach name right := by
  refine same.foldr_eq' ?_ 0
  intro first _ second _ count
  split <;> split <;> omega

theorem wants_cons (query : Query) (asked : List Query) (key : Key) :
    start.Wants (query :: asked) key ↔
      start.Wants asked key ∨ ∃ context, start.context? query.context = some context ∧
        context.WantsFirst (query.reach (start.localesOf query.context)) key := by
  simp only [Wants, List.mem_cons, or_and_right, exists_or, exists_eq_left]
  exact or_comm

theorem wants_of_reach {name : String} (known : start.context? name = some context)
    (asked : List Query) (key : Key)
    (wants : context.WantsFirst (start.reach name asked) key) : start.Wants asked key := by
  induction asked with
  | nil => simp [reach, Context.WantsFirst, Link.WantsFirst] at wants
  | cons query asked ih =>
      rw [wants_cons]
      by_cases same : query.context = name
      · subst same
        simp only [reach, List.foldr_cons, if_pos] at wants
        rcases (Link.wantsFirst_max _ _ context.chain key).mp wants with added | before
        · exact .inr ⟨context, known, added⟩
        · exact .inl (ih before)
      · simp only [reach, List.foldr_cons, if_neg same] at wants
        exact .inl (ih wants)

end Reach

namespace Onward

variable {start now : Session} {asked : List Query}

theorem refl (start : Session) : Onward start [] start := by
  refine ⟨rfl, ?_, (Store.Gains.refl start.env start.store).congr (by simp [Wants])⟩
  intro name
  cases start.context? name with
  | none => rfl
  | some context => simp [reach, Context.settleFirst]

/-- What some queries have settled does not depend on their order. -/
theorem alike {others : List Query} {other : Session} (onward : Onward start asked now)
    (otherOnward : Onward start others other) (same : asked.Perm others) :
    (∀ name, now.context? name = other.context? name) ∧ Store.Alike now.store other.store := by
  refine ⟨?_, ?_⟩
  · intro name
    rw [onward.contexts, otherOnward.contexts, reach_perm same]
  · have wants : ∀ key, start.Wants asked key ↔ start.Wants others key := by
      intro key
      simp only [Wants, same.mem_iff]
    exact (onward.gains.congr wants).alike otherOnward.gains (same.flatMap_right _)

variable (shippedDefault : start.env.derivedPseudo? start.env.defaultLanguage = none)

include shippedDefault

theorem ask (onward : Onward start asked now) (query : Query) :
    (now.ask query).1 = (start.ask query).1 ∧
      Onward start (query :: asked) (now.ask query).2 := by
  obtain ⟨env, contexts, gains⟩ := onward
  have wants : ∀ key, start.Wants (query :: asked) key ↔ _ := wants_cons query asked
  cases known : start.context? query.context with
  | none =>
      have knownNow : now.context? query.context = none := by rw [contexts, known]; rfl
      have nothing : start.remarks (query :: asked) = start.remarks asked := by
        simp [remarks, localesOf, known, Query.remarks_nil]
      simp only [Session.ask, known, knownNow]
      refine ⟨trivial, env, ?_, ?_⟩
      · intro name
        rw [contexts]
        by_cases same : query.context = name
        · subst same
          rw [known]
          rfl
        · simp only [reach, List.foldr_cons, if_neg same]
      · rw [nothing]
        exact gains.congr fun key => by simp [wants, known]
  | some context =>
      have knownNow := contexts query.context
      rw [known] at knownNow
      have before : Context.Onward start.env start.store context
          (start.reach query.context asked) (start.Wants asked) (start.remarks asked)
          (context.settleFirst start.env start.store (start.reach query.context asked),
            now.store) :=
        ⟨rfl, gains, wants_of_reach known asked⟩
      obtain ⟨reply, settled, gainsAfter, -⟩ := before.ask shippedDefault query
      rw [ask_of_known knownNow, ask_of_known known, env]
      refine ⟨reply, env, ?_, ?_⟩
      · intro name
        refine (context?_setContext now query.context name _).trans ?_
        rw [contexts, settled]
        by_cases same : name = query.context
        · subst same
          simp [known, reach, localesOf_known known]
        · simp [same, Ne.symm same, reach]
      · refine (gainsAfter.reordered List.perm_append_comm).congr ?_ |>.reordered ?_
        · intro key
          simp [wants, known, localesOf_known known]
        · simp [remarks, localesOf_known known]

theorem askAll (onward : Onward start asked now) (queries : List Query) :
    (now.askAll queries).1 = queries.map (fun query => (start.ask query).1) ∧
      Onward start (queries.reverse ++ asked) (now.askAll queries).2 := by
  induction queries generalizing now asked with
  | nil => exact ⟨rfl, onward⟩
  | cons query queries ih =>
      obtain ⟨reply, onwardAfter⟩ := onward.ask shippedDefault query
      obtain ⟨replies, onwardAtEnd⟩ := ih onwardAfter
      refine ⟨?_, ?_⟩
      · simp only [Session.askAll, reply, replies, List.map_cons]
      · simpa [Session.askAll] using onwardAtEnd

end Onward

/-- Every query of a batch answers what it answers alone. In another order the batch fetches and
reports the same, as often, and leaves the same loaded and the same locales built. -/
theorem batch_order_irrelevant (session : Session) (queries reordered : List Query)
    (shippedDefault : session.env.derivedPseudo? session.env.defaultLanguage = none)
    (same : queries.Perm reordered) :
    let left := session.askAll queries
    let right := session.askAll reordered
    left.1 = queries.map (fun query => (session.ask query).1) ∧
    right.1 = reordered.map (fun query => (session.ask query).1) ∧
    left.2.store.fetches.Perm right.2.store.fetches ∧
    left.2.store.reports.Perm right.2.store.reports ∧
    (∀ key, left.2.store.loaded? key = right.2.store.loaded? key) ∧
    ∀ name, left.2.context? name = right.2.context? name := by
  intro left right
  obtain ⟨replies, onward⟩ := (Onward.refl session).askAll shippedDefault queries
  obtain ⟨otherReplies, otherOnward⟩ := (Onward.refl session).askAll shippedDefault reordered
  have sameAsked : (queries.reverse ++ []).Perm (reordered.reverse ++ []) := by
    simpa using (queries.reverse_perm.trans same).trans reordered.reverse_perm.symm
  obtain ⟨contexts, alike⟩ := onward.alike otherOnward sameAsked
  exact ⟨replies, otherReplies, alike.fetches, alike.reports, alike.kept, contexts⟩

theorem batch_of_leaflet :
    let queries : List Query :=
      [.value "front" "line0" [], .ready "front", .entity "front" "line9" []]
    let reordered : List Query :=
      [.ready "front", .entity "front" "line9" [], .value "front" "line0" []]
    (leaflet ["qps-ploc"]).env.derivedPseudo? (leaflet ["qps-ploc"]).env.defaultLanguage = none ∧
    queries.Perm reordered ∧
    ((leaflet ["qps-ploc"]).askAll queries).2.store.fetches.Perm
      ((leaflet ["qps-ploc"]).askAll reordered).2.store.fetches ∧
    ((leaflet ["qps-ploc"]).askAll queries).2.store.reports.Perm
      ((leaflet ["qps-ploc"]).askAll reordered).2.store.reports := by
  intro queries reordered
  have shippedDefault :
      (leaflet ["qps-ploc"]).env.derivedPseudo? (leaflet ["qps-ploc"]).env.defaultLanguage =
        none := by
    decide +kernel
  have same : queries.Perm reordered :=
    (List.Perm.swap _ _ _).trans ((List.Perm.swap _ _ []).cons _)
  obtain ⟨-, -, fetches, reports, -⟩ :=
    batch_order_irrelevant (leaflet ["qps-ploc"]) queries reordered shippedDefault same
  exact ⟨shippedDefault, same, fetches, reports⟩

end Session

end Phrasebook
