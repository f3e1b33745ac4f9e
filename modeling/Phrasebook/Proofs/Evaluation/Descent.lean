import Phrasebook.Proofs.Evaluation.Assembly
import Phrasebook.Proofs.Evaluation.Counts
import Phrasebook.Proofs.Evaluation.Trail

namespace Phrasebook

theorem Fault.asIndex_eq (fault : Fault) :
    fault.asIndex = if fault.kind = .index then fault else .index fault := by
  cases fault <;> rfl

namespace Expression

/-- Induction into all that is evaluated with the index: not into calls. -/
@[elab_as_elim]
theorem indexed_induction {motive : Expression → Prop}
    (literal : ∀ text, motive (.literal text))
    (reference : ∀ name, motive (.reference name))
    (pattern : ∀ parts, (∀ part ∈ parts, motive part) → motive (.pattern parts))
    (selection : ∀ branches default?, (∀ named ∈ branches, motive named.2) →
      motive (.selection branches default?))
    (call : ∀ callee arguments, motive (.call callee arguments))
    (expression : Expression) : motive expression :=
  @Expression.rec motive (fun parts => ∀ part ∈ parts, motive part)
    (fun branches => ∀ named ∈ branches, motive named.2) (fun named => motive named.2)
    literal reference pattern selection (fun callee arguments _ _ => call callee arguments)
    nofun (fun _ _ part parts => List.forall_mem_cons.mpr ⟨part, parts⟩)
    nofun (fun _ _ named branches => List.forall_mem_cons.mpr ⟨named, branches⟩)
    (fun _ _ branch => branch) expression

theorem assembled_congr {outcome other : Expression → Except Fault String}
    {parts : List Expression}
    (same : ∀ before part after, parts = before ++ part :: after →
      (∀ fault ∈ faults outcome before, fault.endsPattern = false) →
      outcome part = other part) :
    assembled outcome parts = assembled other parts := by
  induction parts with
  | nil => rfl
  | cons part parts ih =>
      have own : outcome part = other part := same [] part parts rfl nofun
      have piece : part.piece outcome = part.piece other := by rw [piece, piece, own]
      have fault : part.fault? outcome = part.fault? other := by rw [fault?, fault?, own]
      have first : assembled outcome [part] = assembled other [part] := by
        rw [assembled_singleton, assembled_singleton, piece, fault]
      rw [← List.singleton_append, ← join_assembled, ← join_assembled, ← first]
      cases ending : (part.fault? outcome).filter Fault.endsPattern with
      | some fault =>
          rw [assembled_singleton, ending]
          rfl
      | none =>
          rw [ih]
          intro before next after split unended
          refine same (part :: before) next after (by rw [split, List.cons_append]) ?_
          intro fault failed
          cases found : part.fault? outcome with
          | none =>
              rw [faults, List.filterMap_cons_none found] at failed
              exact unended fault failed
          | some head =>
              rw [faults, List.filterMap_cons_some found] at failed
              rcases List.mem_cons.mp failed with rfl | failed
              · rw [found, Option.filter_eq_none_iff] at ending
                exact Bool.eq_false_iff.mpr (ending fault rfl)
              · exact unended fault failed

end Expression

namespace Scope

variable (scope : Scope) (stack : CallStack) (index : List Expression)

/-- What a selector gives for a key on a stack. -/
def selectorKey (selector : Expression) (keys : List String) : Except Fault String :=
  selector.selector (scope.answer (scope.outcome stack)) scope.language keys

/-- The key for a selection with so many others around it, if the index goes so far. -/
def keyAt (depth : Nat) (keys : List String) : Except Fault (Option String) :=
  match index[depth]? with
  | none => .ok none
  | some selector => (scope.selectorKey stack selector keys).map some

/-- The branch that a selection takes: that of its key or, if there is none, that of its default. -/
inductive Takes (depth : Nat) (branches : List (String × Expression)) (default? : Option String)
    (branch : Expression) : Prop
  | chosen {key : String}
      (selected : scope.keyAt stack index depth (branches.map Prod.fst) = .ok (some key))
      (found : Table.find? branches key = some branch)
  | fallback {key? : Option String}
      (selected : scope.keyAt stack index depth (branches.map Prod.fst) = .ok key?)
      (absent : ∀ key ∈ key?, key ∉ branches.map Prod.fst)
      (found : Table.find? branches (defaultKey default?) = some branch)

/-- What comes of an expression with so many selections around it. -/
inductive Descends : Nat → Expression → Except Fault Value → Prop
  | leaf {depth : Nat} {expression : Expression}
      (plain : ∀ branches default?, expression ≠ .selection branches default?) :
      Descends depth expression (scope.evaluate (scope.outcome stack) index depth expression)
  | into {depth : Nat} {branches : List (String × Expression)} {default? : Option String}
      {branch : Expression} {outcome : Except Fault Value}
      (taken : scope.Takes stack index depth branches default? branch)
      (after : Descends (depth + 1) branch outcome) :
      Descends depth (.selection branches default?) outcome
  | failed {depth : Nat} {branches : List (String × Expression)} {default? : Option String}
      {fault : Fault}
      (failed : scope.keyAt stack index depth (branches.map Prod.fst) = .error fault) :
      Descends depth (.selection branches default?)
        (.error (if fault.kind = .index then fault else .index fault))
  | missing {depth : Nat} {branches : List (String × Expression)} {default? : Option String}
      {key? : Option String}
      (selected : scope.keyAt stack index depth (branches.map Prod.fst) = .ok key?)
      (absent : ∀ key ∈ key?, key ∉ branches.map Prod.fst)
      (no_default : defaultKey default? ∉ branches.map Prod.fst) :
      Descends depth (.selection branches default?)
        (.error (noVariant (key?.getD (defaultKey default?)) (branches.map Prod.fst)))

/-- The places of the index that are asked for an expression with so many selections around it. The
parts of a pattern are evaluated until a fault ends it, all with the same selections around them. -/
inductive Consults : Nat → Expression → Nat → Prop
  | here {depth : Nat} {branches : List (String × Expression)} {default? : Option String} :
      Consults depth (.selection branches default?) depth
  | into {depth level : Nat} {branches : List (String × Expression)} {default? : Option String}
      {branch : Expression} (taken : scope.Takes stack index depth branches default? branch)
      (after : Consults (depth + 1) branch level) :
      Consults depth (.selection branches default?) level
  | part {depth level : Nat} {before after : List Expression} {part : Expression}
      (few : Expression.placeableCount (before ++ part :: after) ≤ maxPlaceables)
      (unended : ∀ fault ∈
        Expression.faults (scope.place (scope.outcome stack) index depth) before,
        fault.endsPattern = false)
      (within : Consults depth part level) :
      Consults depth (.pattern (before ++ part :: after)) level

variable {scope stack index} {depth : Nat} {branches : List (String × Expression)}
  {default? : Option String}

theorem keyAt_congr {others : List Expression} (same : others[depth]? = index[depth]?)
    (keys : List String) :
    scope.keyAt stack others depth keys = scope.keyAt stack index depth keys := by
  rw [keyAt, keyAt, same]

theorem Takes.mem {branch : Expression}
    (taken : scope.Takes stack index depth branches default? branch) :
    ∃ named ∈ branches, named.2 = branch := by
  cases taken with
  | chosen _ found => exact ⟨_, Table.mem_of_find? found, rfl⟩
  | fallback _ _ found => exact ⟨_, Table.mem_of_find? found, rfl⟩

theorem Takes.congr {others : List Expression} {branch : Expression}
    (same : others[depth]? = index[depth]?)
    (taken : scope.Takes stack index depth branches default? branch) :
    scope.Takes stack others depth branches default? branch := by
  cases taken with
  | chosen selected found => exact .chosen (by rw [keyAt_congr same, selected]) found
  | fallback selected absent found =>
      exact .fallback (by rw [keyAt_congr same, selected]) absent found

variable (scope stack index depth branches default?)

theorem selectedKey?_eq (keys : List String) :
    selectedKey? (((index.drop depth).map
      (Expression.selector (scope.answer (scope.outcome stack)) scope.language)).head?) keys =
      indexed (scope.keyAt stack index depth keys) := by
  rw [List.head?_map, List.head?_drop, keyAt]
  cases index[depth]? with
  | none => rfl
  | some selector =>
      change indexed (scope.selectorKey stack selector keys) >>= _ =
        indexed ((scope.selectorKey stack selector keys).map some)
      cases scope.selectorKey stack selector keys <;> rfl

/-- A selection leaves what is behind its own place in the index to its branch. -/
theorem evaluate_selection :
    scope.evaluate (scope.outcome stack) index depth (.selection branches default?) =
      indexed (scope.keyAt stack index depth (branches.map Prod.fst)) >>= fun key? =>
        match (key?.bind (Table.find? branches)).or
            (Table.find? branches (defaultKey default?)) with
        | some branch => scope.evaluate (scope.outcome stack) index (depth + 1) branch
        | none => .error (noVariant (key?.getD (defaultKey default?)) (branches.map Prod.fst)) := by
  rw [evaluate, Expression.format, selectedKey?_eq]
  congr 1
  funext key?
  dsimp only
  rw [formatBranch?_eq, formatBranch?_eq, Option.bind_some, ← Option.map_or, ← List.map_tail,
    List.tail_drop]
  cases (key?.bind (Table.find? branches)).or (Table.find? branches (defaultKey default?)) <;> rfl

variable {scope stack index depth branches default?}

theorem evaluate_of_failed {fault : Fault}
    (failed : scope.keyAt stack index depth (branches.map Prod.fst) = .error fault) :
    scope.evaluate (scope.outcome stack) index depth (.selection branches default?) =
      .error fault.asIndex := by
  rw [evaluate_selection, failed]
  rfl

theorem find?_of_absent {key? : Option String}
    (absent : ∀ key ∈ key?, key ∉ branches.map Prod.fst) :
    key?.bind (Table.find? branches) = none := by
  cases key? with
  | none => rfl
  | some key => exact Table.find?_eq_none_iff.mpr (absent key rfl)

theorem evaluate_of_takes {branch : Expression}
    (taken : scope.Takes stack index depth branches default? branch) :
    scope.evaluate (scope.outcome stack) index depth (.selection branches default?) =
      scope.evaluate (scope.outcome stack) index (depth + 1) branch := by
  rw [evaluate_selection]
  cases taken with
  | chosen selected found =>
      rw [selected]
      change (match ((Table.find? branches _).or _) with | some _ => _ | none => _) = _
      rw [found]
      rfl
  | fallback selected absent found =>
      rw [selected]
      change (match ((_ : Option Expression).or _) with | some _ => _ | none => _) = _
      rw [find?_of_absent absent, found]
      rfl

theorem evaluate_of_missing {key? : Option String}
    (selected : scope.keyAt stack index depth (branches.map Prod.fst) = .ok key?)
    (absent : ∀ key ∈ key?, key ∉ branches.map Prod.fst)
    (no_default : defaultKey default? ∉ branches.map Prod.fst) :
    scope.evaluate (scope.outcome stack) index depth (.selection branches default?) =
      .error (noVariant (key?.getD (defaultKey default?)) (branches.map Prod.fst)) := by
  rw [evaluate_selection, selected]
  change (match ((_ : Option Expression).or _) with | some _ => _ | none => _) = _
  rw [find?_of_absent absent, Table.find?_eq_none_iff.mpr no_default]
  rfl

theorem selection_cases (scope : Scope) (stack : CallStack) (index : List Expression)
    (depth : Nat) (branches : List (String × Expression)) (default? : Option String) :
    (∃ fault, scope.keyAt stack index depth (branches.map Prod.fst) = .error fault) ∨
      (∃ branch, scope.Takes stack index depth branches default? branch) ∨
      ∃ key?, scope.keyAt stack index depth (branches.map Prod.fst) = .ok key? ∧
        (∀ key ∈ key?, key ∉ branches.map Prod.fst) ∧
        defaultKey default? ∉ branches.map Prod.fst := by
  cases selected : scope.keyAt stack index depth (branches.map Prod.fst) with
  | error fault => exact .inl ⟨fault, rfl⟩
  | ok key? =>
      cases own : key?.bind (Table.find? branches) with
      | some branch =>
          obtain ⟨key, rfl, found⟩ := Option.bind_eq_some_iff.mp own
          exact .inr (.inl ⟨branch, .chosen selected found⟩)
      | none =>
          have absent : ∀ key ∈ key?, key ∉ branches.map Prod.fst := by
            rintro key rfl
            exact Table.find?_eq_none_iff.mp own
          cases found : Table.find? branches (defaultKey default?) with
          | some branch => exact .inr (.inl ⟨branch, .fallback selected absent found⟩)
          | none => exact .inr (.inr ⟨key?, rfl, absent, Table.find?_eq_none_iff.mp found⟩)

theorem descends_iff {expression : Expression} {outcome : Except Fault Value} :
    scope.Descends stack index depth expression outcome ↔
      scope.evaluate (scope.outcome stack) index depth expression = outcome := by
  constructor
  · intro descends
    induction descends with
    | leaf _ => rfl
    | into taken _ ih => rw [evaluate_of_takes taken, ih]
    | failed failed => rw [evaluate_of_failed failed, Fault.asIndex_eq]
    | missing selected absent no_default => exact evaluate_of_missing selected absent no_default
  · rintro rfl
    induction expression using Expression.indexed_induction generalizing depth with
    | selection branches default? ih =>
        obtain ⟨fault, failed⟩ | ⟨branch, taken⟩ | ⟨key?, selected, absent, no_default⟩ :=
          scope.selection_cases stack index depth branches default?
        · rw [evaluate_of_failed failed, Fault.asIndex_eq]
          exact .failed failed
        · obtain ⟨named, among, rfl⟩ := taken.mem
          rw [evaluate_of_takes taken]
          exact .into taken (ih named among)
        · rw [evaluate_of_missing selected absent no_default]
          exact .missing selected absent no_default
    | literal _ => exact .leaf nofun
    | reference _ => exact .leaf nofun
    | pattern _ _ => exact .leaf nofun
    | call _ _ => exact .leaf nofun

/-- Nothing depends on the places of the index that are not asked. -/
theorem evaluate_congr_index {others : List Expression} {expression : Expression}
    (agree : ∀ level, scope.Consults stack index depth expression level →
      others[level]? = index[level]?) :
    scope.evaluate (scope.outcome stack) others depth expression =
      scope.evaluate (scope.outcome stack) index depth expression := by
  induction expression using Expression.indexed_induction generalizing depth with
  | literal _ => rfl
  | reference _ => rfl
  | call callee arguments => rw [evaluate, evaluate, Expression.format, Expression.format]
  | selection branches default? ih =>
      have same := agree depth .here
      obtain ⟨fault, failed⟩ | ⟨branch, taken⟩ | ⟨key?, selected, absent, no_default⟩ :=
        scope.selection_cases stack index depth branches default?
      · rw [evaluate_of_failed failed, evaluate_of_failed (keyAt_congr same _ ▸ failed)]
      · obtain ⟨named, among, rfl⟩ := taken.mem
        rw [evaluate_of_takes taken, evaluate_of_takes (taken.congr same)]
        exact ih named among fun level after => agree level (.into taken after)
      · rw [evaluate_of_missing selected absent no_default,
          evaluate_of_missing (keyAt_congr same _ ▸ selected) absent no_default]
  | pattern parts ih =>
      rw [evaluate_pattern, evaluate_pattern]
      split
      · rfl
      · rename_i many
        refine congrArg finish (Expression.assembled_congr ?_).symm
        rintro before part after rfl unended
        have within := ih part (List.mem_append_right _ List.mem_cons_self)
          fun level consulted => agree level (.part (Nat.le_of_not_lt many) unended consulted)
        rw [place_eq, place_eq, within]

theorem selectorKey_evaluated (scope : Scope) (stack : CallStack) (keys : List String)
    {selector : Expression} (plain : ∀ callee arguments, selector ≠ .call callee arguments) :
    scope.selectorKey stack selector keys =
      (scope.evaluate (scope.outcome stack) [] 0 selector).map Value.display := by
  have own : scope.selectorKey stack selector keys =
      scope.evaluate (scope.outcome stack) [] 0 selector >>= fun value => .ok value.display := by
    cases selector with
    | call callee arguments => exact absurd rfl (plain callee arguments)
    | _ => rfl
  rw [own]
  cases scope.evaluate (scope.outcome stack) [] 0 selector <;> rfl

theorem selectorKey_plural {argument : Expression} {value : Value} {x : Float}
    (evaluated : scope.evaluate (scope.outcome stack) [] 0 argument = .ok value)
    (read : value.toNumber? = some x) (keys : List String) :
    scope.selectorKey stack (.call (.reference "plural") [argument]) keys =
      .ok ((Call.reading value x).key scope.language keys) := by
  have call : Call.ofArgument .plural value = .ok (Call.reading value x) := by
    rw [Call.ofArgument, read]
    rfl
  have made : Expression.formatCall (scope.answer (scope.outcome stack)) scope.language
      (.reference "plural") [argument] = .ok (Call.reading value x) := by
    rw [Expression.formatCall]
    change scope.evaluate (scope.outcome stack) [] 0 argument >>=
      (fun value => MonadExcept.ofExcept (Call.ofArgument .plural value)) = _
    rw [evaluated, ← call]
    exact ofExcept_eq _
  rw [selectorKey, Expression.selector, made]
  rfl

end Scope

/-- Evaluation goes down from one selection to the next. One with so many others around it takes the
branch of the key that the selector at this place gives, or else its default branch; with a default
branch, it always takes one, unless the selector fails. Places of the index that no selection asks
can hold anything. A selector is evaluated without an index, to the key that it displays as; a
call of `plural` gives zero, one and two their own keys where these are there, and to all
other numbers their categories. -/
theorem selections_follow_index (scope : Scope) (stack : CallStack) (index : List Expression) :
    let evaluate := scope.evaluate (scope.outcome stack)
    let key := scope.selectorKey stack
    (∀ before id value, before.push id = .ok stack →
      (scope.format before id (.complex (some value) index)).1 = evaluate index 0 value) ∧
    (∀ depth expression outcome, scope.Descends stack index depth expression outcome ↔
      evaluate index depth expression = outcome) ∧
    (∀ depth branches default?, defaultKey default? ∈ branches.map Prod.fst →
      (∃ fault, scope.keyAt stack index depth (branches.map Prod.fst) = .error fault) ∨
        ∃ branch, scope.Takes stack index depth branches default? branch) ∧
    (∀ others depth expression,
      (∀ level, scope.Consults stack index depth expression level →
        others[level]? = index[level]?) →
      evaluate others depth expression = evaluate index depth expression) ∧
    (∀ selector keys, (∀ callee arguments, selector ≠ .call callee arguments) →
      key selector keys = (evaluate [] 0 selector).map Value.display) ∧
    ∀ argument value x keys, evaluate [] 0 argument = .ok value → value.toNumber? = some x →
      ∃ word, key (.call (.reference "plural") [argument]) keys = .ok word ∧
        (∀ k exact, (k, exact) ∈ exactKeys → value.isCount k = true → exact ∈ keys →
          word = exact) ∧
        ((∀ k exact, (k, exact) ∈ exactKeys → value.isCount k = true → exact ∉ keys) →
          word = (Plural.category scope.language x).name) := by
  intro evaluate key
  refine ⟨?_, fun _ _ _ => Scope.descends_iff, ?_, fun _ _ _ => Scope.evaluate_congr_index,
    fun _ keys => scope.selectorKey_evaluated stack keys, ?_⟩
  · intro before id value pushed
    exact scope.outcome_of_pushed pushed value index
  · intro depth branches default? present
    obtain failed | taken | ⟨key?, -, -, no_default⟩ :=
      scope.selection_cases stack index depth branches default?
    · exact .inl failed
    · exact .inr taken
    · exact absurd present no_default
  · intro argument value x keys evaluated read
    refine ⟨_, Scope.selectorKey_plural evaluated read keys, ?_, ?_⟩
    · exact fun _ _ named count present => Call.key_of_count read _ named count present
    · exact Call.key_of_no_count read _

theorem selections_follow_index_cat :
    let numbers := [("one", Expression.literal "cat"), ("other", .literal "cats")]
    let forms := [("nominative", Expression.selection numbers none), ("other", .literal "cat-")]
    let value := Expression.selection forms none
    let index := [.reference "case", .call (.reference "plural") [.reference "count"]]
    let scope := Scope.ofEntries [] [("case", .text "nominative"), ("count", .number 1)] "en"
    let stack := (CallStack.empty 1).entered "cat"
    (CallStack.empty 1).push "cat" = .ok stack ∧
      (scope.format (.empty 1) "cat" (.complex (some value) index)).1 = .ok (.text "cat") ∧
      scope.evaluate (scope.outcome stack) (index ++ [.reference "nowhere"]) 0 value =
        .ok (.text "cat") := by
  intro numbers forms value index scope stack
  have pushed : (CallStack.empty 1).push "cat" = .ok stack := rfl
  obtain ⟨formatted, descends, -, unasked, -, plural⟩ := selections_follow_index scope stack index
  -- One is a number with a key of its own, which is there.
  obtain ⟨word, given, exact, -⟩ :=
    plural (.reference "count") (.number 1) _ ["one", "other"] rfl rfl
  obtain rfl : word = "one" := exact 1 "one" (by decide) rfl (by decide)
  have nominative : scope.Takes stack index 0 forms none (.selection numbers none) :=
    .chosen rfl rfl
  have one : scope.Takes stack index 1 numbers none (.literal "cat") :=
    .chosen (congrArg (Except.map some) given) rfl
  have result := (descends 0 value _).mp (.into nominative (.into one (.leaf nofun)))
  refine ⟨pushed, (formatted _ _ value pushed).trans result, (unasked _ 0 value ?_).trans result⟩
  intro level asked
  change scope.Consults stack index 0 (.selection forms none) level at asked
  cases asked with
  | here => rfl
  | into taken after =>
      obtain ⟨named, among, rfl⟩ := taken.mem
      rcases List.mem_cons.mp among with rfl | among
      · cases after with
        | here => rfl
        | into taken after =>
            obtain ⟨named, among, rfl⟩ := taken.mem
            rcases List.mem_cons.mp among with rfl | among
            · cases after
            · cases List.mem_singleton.mp among
              cases after
      · cases List.mem_singleton.mp among
        cases after

end Phrasebook
