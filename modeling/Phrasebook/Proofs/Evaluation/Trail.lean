import Mathlib.Data.List.Forall2
import Phrasebook.Proofs.Evaluation.Restoration

/-! How an evaluation came to its value. -/

namespace Phrasebook

open MonadExcept (ofExcept)

def Value.fits (value : Value) : Bool :=
  value.placed.isOk

/-- What was evaluated, with the trails of all that was evaluated for it. A choice has the selector
that was asked and the key of the branch that was taken. -/
inductive Trail where
  | literal (text : String)
  | argument (value : Value)
  | entry (name : String) (trail : Trail)
  | pattern (parts : List Trail)
  | choice (selector? : Option Trail) (key : String) (taken : Trail)
  | call (argument : Trail) (word : String)

namespace Trail

mutual

def value : Trail → Value
  | .literal text => .text text
  | .argument value => value
  | .entry _ trail => trail.value
  | .pattern parts => .text (joined parts)
  | .choice _ _ taken => taken.value
  | .call _ word => .text word

def joined : List Trail → String
  | [] => ""
  | .literal text :: parts => text ++ joined parts
  | part :: parts => isolate part.value.display ++ joined parts

end

def literal? : Trail → Option String
  | .literal text => some text
  | _ => none

/-- Literals of any length fit into a pattern, but not every placeable does. -/
def fits : Trail → Bool
  | .literal _ => true
  | trail => trail.value.fits

theorem joined_placeable {part : Trail} (placeable : part.literal? = none) (parts : List Trail) :
    joined (part :: parts) = isolate part.value.display ++ joined parts := by
  cases part with
  | literal text => cases placeable
  | _ => rfl

theorem fits_placeable {part : Trail} (placeable : part.literal? = none) :
    part.fits = part.value.fits := by
  cases part with
  | literal text => cases placeable
  | _ => rfl

end Trail

/-- The key of the branch that is taken, which is the selected one if there is such a branch. -/
def takenKey (key? : Option String) (default : String) (keys : List String) : String :=
  (key?.filter keys.contains).getD default

/-- How a selector comes to its key among the given ones. -/
abbrev TrailSelector := List String → Option Trail

def selectedTrail? (selector? : Option TrailSelector) (keys : List String) :
    Option (Option Trail) :=
  match selector? with
  | none => some none
  | some selector => (selector keys).map some

namespace Expression

mutual

/-- The trail of an expression, given those of all references. -/
def trail? (answer : String → Option Trail) (language : String) :
    (selectors : List TrailSelector) → Expression → Option Trail
  | _, .literal text => some (.literal text)
  | _, .reference name => answer name
  | selectors, .pattern parts =>
      if maxPlaceables < placeableCount parts then none
      else (partTrails? answer language selectors parts).map .pattern
  | selectors, .selection branches default? => do
      let keys := branches.map Prod.fst
      let selector? ← selectedTrail? selectors.head? keys
      let key := takenKey (selector?.map (·.value.display)) (defaultKey default?) keys
      let taken ← branchTrail? answer language selectors.tail key branches
      some (.choice selector? key taken)
  | _, .call callee arguments => do
      let (made, argument) ← callTrail? answer language callee arguments
      some (.call argument (made.word language))

def partTrails? (answer : String → Option Trail) (language : String)
    (selectors : List TrailSelector) : List Expression → Option (List Trail)
  | [] => some []
  | part :: parts =>
      ((part.trail? answer language selectors).filter Trail.fits).bind fun trail =>
        (partTrails? answer language selectors parts).map (trail :: ·)

def branchTrail? (answer : String → Option Trail) (language : String)
    (selectors : List TrailSelector) (key : String) : List (String × Expression) → Option Trail
  | [] => none
  | (other, branch) :: branches =>
      if key = other then branch.trail? answer language selectors
      else branchTrail? answer language selectors key branches

def callTrail? (answer : String → Option Trail) (language : String) (callee : Expression) :
    List Expression → Option (Call × Trail)
  | [argument] => do
      let function ← (Function.ofCallee callee).toOption
      let trail ← argument.trail? answer language []
      let made ← (Call.ofArgument function trail.value).toOption
      some (made, trail)
  | _ => none

end

/-- A call that selects leaves the trail of its argument, with the key for a word. -/
def selectorTrail? (answer : String → Option Trail) (language : String) :
    Expression → TrailSelector
  | .call callee arguments => fun keys => do
      let (made, argument) ← callTrail? answer language callee arguments
      some (.call argument (made.key language keys))
  | expression => fun _ => expression.trail? answer language []

end Expression

namespace Scope

def answerTrail? (scope : Scope) (enter : String → Phrase → Option Trail) (name : String) :
    Option Trail :=
  match Function.ofName? name with
  | some _ => none
  | none =>
      match scope.arguments.find? name with
      | some value => if value.isArgument then some (.argument value) else none
      | none =>
          match scope.phrase? name with
          | some phrase => (enter name phrase).map (.entry name)
          | none => none

def valueTrail? (scope : Scope) (enter : String → Phrase → Option Trail) (value : Expression)
    (index : List Expression) : Option Trail :=
  let answer := scope.answerTrail? enter
  value.trail? answer scope.language (index.map (Expression.selectorTrail? answer scope.language))

def trailWithin? (scope : Scope) : (room : Nat) → CallStack → String → Phrase → Option Trail
  | _, _, _, .bare text => some (.literal text)
  | _, _, _, .complex none _ => none
  | 0, _, _, .complex (some _) _ => none
  | room + 1, stack, id, .complex (some value) index =>
      match stack.push id with
      | .error _ => none
      | .ok entered => scope.valueTrail? (scope.trailWithin? room entered) value index

/-- How an entry comes to its value on a stack. -/
def trail? (scope : Scope) (stack : CallStack) (id : String) (phrase : Phrase) : Option Trail :=
  scope.trailWithin? stack.room stack id phrase

end Scope

theorem toOption_bind (outcome : Except Fault α) (f : α → Except Fault β) :
    (outcome >>= f).toOption = outcome.toOption.bind fun a => (f a).toOption := by
  cases outcome <;> rfl

theorem toOption_indexed (outcome : Except Fault α) :
    (indexed outcome).toOption = outcome.toOption := by
  cases outcome <;> rfl

@[simp] theorem ofExcept_eq (outcome : Except Fault α) : ofExcept outcome = outcome := by
  cases outcome <;> rfl

def faultless? : Except Fault Assembly → Option String
  | .ok ⟨text, none⟩ => some text
  | _ => none

theorem faultless?_join (front rest : Except Fault Assembly) :
    faultless? (join front rest) =
      (faultless? front).bind fun text => (faultless? rest).map (text ++ ·) := by
  match front, rest with
  | .error _, _ => rfl
  | .ok ⟨_, some _⟩, .error _ => rfl
  | .ok ⟨_, some _⟩, .ok _ => rfl
  | .ok ⟨_, none⟩, .error _ => rfl
  | .ok ⟨_, none⟩, .ok ⟨_, some _⟩ => rfl
  | .ok ⟨_, none⟩, .ok ⟨_, none⟩ => rfl

theorem toOption_finish (assembled : Except Fault Assembly) :
    (finish assembled).toOption = (faultless? assembled).map Value.text := by
  match assembled with
  | .error _ => rfl
  | .ok ⟨_, some _⟩ => rfl
  | .ok ⟨_, none⟩ => rfl

theorem faultless?_literal {part : Expression} {text : String}
    (literal : part.literal? = some text) (evaluated : Except Fault Value) :
    faultless? (assemble part evaluated) = some text := by
  rw [assemble, literal]
  rfl

theorem faultless?_placeable {part : Expression} (placeable : part.literal? = none)
    (evaluated : Except Fault Value) :
    faultless? (assemble part evaluated) =
      (evaluated.toOption.filter Value.fits).map fun value => isolate value.display := by
  rw [assemble, placeable]
  cases evaluated with
  | error fault =>
      change faultless? (if fault.endsPattern then .error fault else .ok (.ofFault part fault)) = _
      split <;> rfl
  | ok value =>
      change faultless? (tryCatch (ofExcept value.placed >>= fun text => _) _) = _
      rcases value.placed_cases with placed | placed
      · have unfit : value.fits = false := by
          rw [Value.fits, placed]
          rfl
        rw [Except.toOption, Option.filter_some_neg unfit, placed]
        rfl
      · have fit : value.fits = true := by
          rw [Value.fits, placed]
          rfl
        rw [Except.toOption, Option.filter_some_pos fit, placed]
        rfl

/-- Every reference has a trail exactly if it has a value. -/
structure Trail.Answers (answer : Answer (Except Fault)) (trails : String → Option Trail) :
    Prop where
  value : ∀ name, (answer name).toOption = (trails name).map Trail.value
  placeable : ∀ name trail, trails name = some trail → trail.literal? = none

def Trail.Selects (selector : Selector (Except Fault)) (trails : TrailSelector) : Prop :=
  ∀ keys, (selector keys).toOption = (trails keys).map (·.value.display)

theorem formatBranch?_eq (answer : Answer (Except Fault)) (language : String)
    (selectors : List (Selector (Except Fault))) (key? : Option String)
    (branches : List (String × Expression)) :
    Expression.formatBranch? answer language selectors key? branches =
      (key?.bind (Table.find? branches)).map (·.format answer language selectors) := by
  induction branches with
  | nil => cases key? <;> rfl
  | cons named branches ih =>
      rw [Expression.formatBranch?, ih]
      cases key? with
      | none => exact if_neg nofun
      | some key =>
          rw [Option.bind_some, Option.bind_some, Table.find?_cons]
          simp only [Option.some.injEq]
          split <;> rfl

theorem formatBranch?_eq_none (answer : Answer (Except Fault)) (language : String)
    (selectors : List (Selector (Except Fault))) (key? : Option String)
    {branches : List (String × Expression)}
    (absent : ∀ key, key? = some key → key ∉ branches.map Prod.fst) :
    Expression.formatBranch? answer language selectors key? branches = none := by
  rw [formatBranch?_eq, Option.map_eq_none_iff, Option.bind_eq_none_iff]
  exact fun key same => Table.find?_eq_none_iff.mpr (absent key same)

theorem formatBranch?_isSome (answer : Answer (Except Fault)) (language : String)
    (selectors : List (Selector (Except Fault))) {key : String}
    {branches : List (String × Expression)} (present : key ∈ branches.map Prod.fst) :
    ∃ evaluated,
      Expression.formatBranch? answer language selectors (some key) branches = some evaluated := by
  rw [formatBranch?_eq, Option.bind_some]
  cases found : Table.find? branches key with
  | none => exact absurd present (Table.find?_eq_none_iff.mp found)
  | some branch => exact ⟨_, rfl⟩

theorem formatBranch?_taken (answer : Answer (Except Fault)) (language : String)
    (selectors : List (Selector (Except Fault))) (key? : Option String) (default : String)
    (branches : List (String × Expression)) :
    (Expression.formatBranch? answer language selectors key? branches).or
        (Expression.formatBranch? answer language selectors (some default) branches) =
      Expression.formatBranch? answer language selectors
        (some (takenKey key? default (branches.map Prod.fst))) branches := by
  match key? with
  | none =>
      rw [formatBranch?_eq_none answer language selectors none nofun]
      rfl
  | some key =>
      by_cases present : key ∈ branches.map Prod.fst
      · obtain ⟨evaluated, found⟩ := formatBranch?_isSome answer language selectors present
        rw [takenKey, Option.filter_some_pos (List.contains_iff_mem.mpr present), found]
        exact found.symm
      · rw [takenKey, Option.filter_some_neg (by simpa using present),
          formatBranch?_eq_none answer language selectors (some key)]
        · rfl
        · rintro _ ⟨⟩
          exact present

namespace Expression

variable {answer : Answer (Except Fault)} {trails : String → Option Trail} {language : String}

theorem literal?_trail? (answers : Trail.Answers answer trails) {others : List TrailSelector}
    {expression : Expression} {trail : Trail}
    (left : expression.trail? trails language others = some trail) :
    trail.literal? = expression.literal? := by
  cases expression with
  | literal text =>
      obtain rfl := Option.some.inj left
      rfl
  | reference name => exact answers.placeable name trail left
  | pattern parts =>
      simp only [trail?] at left
      split at left
      · cases left
      · obtain ⟨parts, -, rfl⟩ := Option.map_eq_some_iff.mp left
        rfl
  | selection branches default? =>
      simp only [trail?, Option.bind_eq_bind, Option.bind_eq_some_iff] at left
      obtain ⟨selector?, -, taken, -, same⟩ := left
      obtain rfl := Option.some.inj same
      rfl
  | call callee arguments =>
      simp only [trail?, Option.bind_eq_bind, Option.bind_eq_some_iff] at left
      obtain ⟨made, -, same⟩ := left
      obtain rfl := Option.some.inj same
      rfl

theorem selectedKey?_trail? {selectors : List (Selector (Except Fault))}
    {others : List TrailSelector} (selected : List.Forall₂ Trail.Selects selectors others)
    (keys : List String) :
    (selectedKey? selectors.head? keys).toOption =
      (selectedTrail? others.head? keys).map fun selector? =>
        selector?.map (·.value.display) := by
  cases selected with
  | nil => rfl
  | @cons selector trails _ _ selects _ =>
      simp only [List.head?_cons, selectedKey?, selectedTrail?, toOption_bind, toOption_indexed,
        selects keys]
      cases trails keys <;> rfl

theorem faultless?_part (answers : Trail.Answers answer trails) {others : List TrailSelector}
    {part : Expression} {evaluated : Except Fault Value}
    (value : evaluated.toOption = (part.trail? trails language others).map Trail.value)
    {rest : Except Fault Assembly} {later? : Option (List Trail)}
    (later : faultless? rest = later?.map Trail.joined) :
    faultless? (join (assemble part evaluated) rest) =
      (((part.trail? trails language others).filter Trail.fits).bind fun trail =>
        later?.map (trail :: ·)).map Trail.joined := by
  rw [faultless?_join, later]
  cases kind : part.literal? with
  | some text =>
      cases part with
      | literal other =>
          obtain rfl := Option.some.inj kind
          rw [faultless?_literal rfl, trail?]
          cases later? <;> rfl
      | _ => cases kind
  | none =>
      rw [faultless?_placeable kind, value]
      cases left : part.trail? trails language others with
      | none => rfl
      | some trail =>
          have placeable : trail.literal? = none := (literal?_trail? answers left).trans kind
          simp only [Option.map_some, Option.filter_some, Trail.fits_placeable placeable]
          split
          · cases later? <;> simp [Trail.joined_placeable placeable]
          · rfl

mutual

/-- An expression has a value exactly if it has a trail, and it is that of the trail. -/
theorem trail?_value (answers : Trail.Answers answer trails)
    {selectors : List (Selector (Except Fault))} {others : List TrailSelector}
    (selected : List.Forall₂ Trail.Selects selectors others) :
    (expression : Expression) →
      (expression.format answer language selectors).toOption =
        (expression.trail? trails language others).map Trail.value
  | .literal text => rfl
  | .reference name => answers.value name
  | .pattern parts => by
      simp only [format, trail?]
      split
      · rfl
      · rw [toOption_finish, partTrails?_joined answers selected parts, Option.map_map,
          Option.map_map]
        rfl
  | .selection branches default? => by
      simp only [format, trail?, toOption_bind, selectedKey?_trail? selected,
        formatBranch?_taken, Option.bind_eq_bind]
      cases selectedTrail? others.head? (branches.map Prod.fst) with
      | none => rfl
      | some selector? =>
          simp only [Option.map_some, Option.bind_some]
          have tails : List.Forall₂ Trail.Selects selectors.tail others.tail := by
            cases selected with
            | nil => exact .nil
            | cons _ later => exact later
          rw [branchTrail?_value answers tails]
          cases branchTrail? trails language others.tail _ branches <;> rfl
  | .call callee arguments => by
      simp only [format, trail?, toOption_bind, callTrail?_call answers, Option.bind_eq_bind]
      cases callTrail? trails language callee arguments <;> rfl

theorem partTrails?_joined (answers : Trail.Answers answer trails)
    {selectors : List (Selector (Except Fault))} {others : List TrailSelector}
    (selected : List.Forall₂ Trail.Selects selectors others) :
    (parts : List Expression) →
      faultless? (formatParts answer language selectors parts) =
        (partTrails? trails language others parts).map Trail.joined
  | [] => rfl
  | part :: parts =>
      faultless?_part answers (trail?_value answers selected part)
        (partTrails?_joined answers selected parts)

theorem branchTrail?_value (answers : Trail.Answers answer trails)
    {selectors : List (Selector (Except Fault))} {others : List TrailSelector}
    (selected : List.Forall₂ Trail.Selects selectors others) (key : String) (fault : Fault) :
    (branches : List (String × Expression)) →
      ((formatBranch? answer language selectors (some key) branches).getD (throw fault)).toOption =
        (branchTrail? trails language others key branches).map Trail.value
  | [] => rfl
  | (other, branch) :: branches => by
      simp only [formatBranch?, branchTrail?, Option.some.injEq]
      split
      · exact trail?_value answers selected branch
      · exact branchTrail?_value answers selected key fault branches

theorem callTrail?_call (answers : Trail.Answers answer trails) (callee : Expression) :
    (arguments : List Expression) →
      (formatCall answer language callee arguments).toOption =
        (callTrail? trails language callee arguments).map Prod.fst
  | [argument] => by
      simp only [formatCall, callTrail?, toOption_bind, ofExcept_eq, Option.bind_eq_bind,
        trail?_value answers .nil argument]
      cases (Function.ofCallee callee).toOption with
      | none => rfl
      | some function =>
          cases argument.trail? trails language [] with
          | none => rfl
          | some trail =>
              simp only [Option.bind_some, Option.map_some]
              cases (Call.ofArgument function trail.value).toOption <;> rfl
  | [] => by
      simp only [formatCall, callTrail?, toOption_bind, ofExcept_eq]
      cases Function.ofCallee callee <;> rfl
  | _ :: _ :: _ => by
      simp only [formatCall, callTrail?, toOption_bind, ofExcept_eq]
      cases Function.ofCallee callee <;> rfl

end

theorem selectorTrail?_selects (answers : Trail.Answers answer trails) (expression : Expression) :
    Trail.Selects (expression.selector answer language)
      (expression.selectorTrail? trails language) := by
  intro keys
  cases expression with
  | call callee arguments =>
      simp only [selector, selectorTrail?, toOption_bind, callTrail?_call answers,
        Option.bind_eq_bind]
      cases callTrail? trails language callee arguments <;> rfl
  | _ =>
      simp only [selector, selectorTrail?, toOption_bind, trail?_value answers .nil]
      cases trail? trails language [] _ <;> rfl

end Expression

namespace Scope

variable (scope : Scope)

theorem answerTrail?_answers {enter : String → Phrase → Except Fault Value}
    {other : String → Phrase → Option Trail}
    (entered : ∀ name phrase, (enter name phrase).toOption = (other name phrase).map Trail.value) :
    Trail.Answers (scope.answer enter) (scope.answerTrail? other) where
  value name := by
    unfold answer answerTrail?
    cases Function.ofName? name with
    | some function => rfl
    | none =>
        cases scope.arguments.find? name with
        | some value =>
            dsimp only
            split <;> rfl
        | none =>
            cases scope.phrase? name with
            | none => rfl
            | some phrase =>
                dsimp only
                rw [entered, Option.map_map]
                rfl
  placeable name trail left := by
    unfold answerTrail? at left
    cases kind : Function.ofName? name with
    | some function => simp [kind] at left
    | none =>
        cases argument : scope.arguments.find? name with
        | some value =>
            simp only [kind, argument, Option.ite_none_right_eq_some, Option.some.injEq] at left
            rw [← left.2]
            rfl
        | none =>
            cases phrase : scope.phrase? name with
            | none => simp [kind, argument, phrase] at left
            | some phrase =>
                simp only [kind, argument, phrase, Option.map_eq_some_iff] at left
                obtain ⟨inner, -, rfl⟩ := left
                rfl

theorem valueTrail?_value {enter : String → Phrase → Except Fault Value}
    {other : String → Phrase → Option Trail}
    (entered : ∀ name phrase, (enter name phrase).toOption = (other name phrase).map Trail.value)
    (value : Expression) (index : List Expression) :
    (scope.formatValue enter value index).toOption =
      (scope.valueTrail? other value index).map Trail.value := by
  have answers := scope.answerTrail?_answers entered
  refine Expression.trail?_value answers ?_ value
  rw [List.forall₂_map_left_iff, List.forall₂_map_right_iff]
  exact List.forall₂_same.mpr fun expression _ =>
    Expression.selectorTrail?_selects answers expression

@[simp] theorem trail?_bare (stack : CallStack) (id text : String) :
    scope.trail? stack id (.bare text) = some (.literal text) := by
  unfold trail?
  cases stack.room <;> rfl

@[simp] theorem trail?_valueless (stack : CallStack) (id : String) (index : List Expression) :
    scope.trail? stack id (.complex none index) = none := by
  unfold trail?
  cases stack.room <;> rfl

theorem trail?_of_pushed {stack entered : CallStack} {id : String}
    (pushed : stack.push id = .ok entered) (value : Expression) (index : List Expression) :
    scope.trail? stack id (.complex (some value) index) =
      scope.valueTrail? (scope.trail? entered) value index := by
  have room := CallStack.room_of_pushed pushed
  have same : scope.trail? entered = scope.trailWithin? entered.room entered := rfl
  rw [trail?, room, trailWithin?, pushed, same]

theorem trail?_of_refused {stack : CallStack} {id : String} {fault : Fault}
    (refused : stack.push id = .error fault) (value : Expression) (index : List Expression) :
    scope.trail? stack id (.complex (some value) index) = none := by
  unfold trail?
  cases stack.room with
  | zero => rfl
  | succ room => rw [trailWithin?, refused]

/-- An entry has a value exactly if it has a trail, and it is that of the trail. -/
theorem trail?_value (stack : CallStack) (id : String) (phrase : Phrase) :
    (scope.outcome stack id phrase).toOption =
      (scope.trail? stack id phrase).map Trail.value := by
  induction stack using CallStack.opening_induction generalizing id phrase with
  | step stack ih =>
      match phrase with
      | .bare text =>
          rw [outcome_bare, trail?_bare]
          rfl
      | .complex none index =>
          rw [outcome_valueless, trail?_valueless]
          rfl
      | .complex (some value) index =>
          cases pushed : stack.push id with
          | error fault =>
              rw [scope.outcome_of_refused pushed, scope.trail?_of_refused pushed]
              rfl
          | ok entered =>
              rw [scope.outcome_of_pushed pushed, scope.trail?_of_pushed pushed]
              exact scope.valueTrail?_value (ih id entered pushed) value index

theorem outcome_eq_ok_iff {stack : CallStack} {id : String} {phrase : Phrase} {value : Value} :
    scope.outcome stack id phrase = .ok value ↔
      ∃ trail, scope.trail? stack id phrase = some trail ∧ trail.value = value := by
  have agree := scope.trail?_value stack id phrase
  rw [← Option.map_eq_some_iff, ← agree]
  cases scope.outcome stack id phrase <;> simp [Except.toOption]

end Scope

end Phrasebook
