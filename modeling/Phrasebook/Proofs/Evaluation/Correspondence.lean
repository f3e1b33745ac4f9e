import Phrasebook.Evaluation.Scope

/-! One evaluation in two effects. -/

namespace Phrasebook

open MonadExcept (ofExcept)

namespace Expression

mutual

/-- The names that an expression refers to, in whatever part of it. -/
def names : Expression → List String
  | .literal _ => []
  | .reference name => [name]
  | .pattern parts => namesOfAll parts
  | .selection branches _ => namesOfBranches branches
  | .call callee arguments => callee.names ++ namesOfAll arguments

def namesOfAll : List Expression → List String
  | [] => []
  | expression :: rest => expression.names ++ namesOfAll rest

def namesOfBranches : List (String × Expression) → List String
  | [] => []
  | (_, branch) :: branches => branch.names ++ namesOfBranches branches

end

end Expression

/-- What can be wrong with a reference, a call, a selection or a pattern by itself. -/
inductive Fault.Raised : Fault → Prop
  | unknownReference (name : String) : Raised (.unknownReference name)
  | invalidArgument (name : String) : Raised (.invalidArgument name)
  | notAFunction (name : String) : Raised (.notAFunction name)
  | wrongArity (name : String) (expected got : Nat) : Raised (.wrongArity name expected got)
  | notANumber (name value : String) : Raised (.notANumber name value)
  | tooManyPlaceables (count : Nat) : Raised (.tooManyPlaceables count)
  | noVariant (key : String) (keys : List String) : Raised (noVariant key keys)

/-- A relation between the computations of two effects that is kept by the ways in which evaluation
puts them together. Assembled parts have a relation of their own. -/
structure Correspondence (m n : Type → Type) [Monad m] [MonadExcept Fault m] [Monad n]
    [MonadExcept Fault n] where
  Rel : {α : Type} → m α → n α → Prop
  Parts : m Assembly → n Assembly → Prop
  rel_pure : ∀ {α : Type} (a : α), Rel (pure a : m α) (pure a : n α)
  rel_raise : ∀ {α : Type} {fault : Fault}, fault.Raised →
    Rel (throw fault : m α) (throw fault : n α)
  rel_bind : ∀ {α β : Type} {left : m α} {right : n α} {f : α → m β} {g : α → n β},
    Rel left right → (∀ a, Rel (f a) (g a)) → Rel (left >>= f) (right >>= g)
  rel_indexed : ∀ {α : Type} {left : m α} {right : n α},
    Rel left right → Rel (indexed left) (indexed right)
  parts_nil : Parts (pure (.ofText "")) (pure (.ofText ""))
  parts_assemble : ∀ (part : Expression) {left : m Value} {right : n Value},
    Rel left right → Parts (assemble part left) (assemble part right)
  parts_join : ∀ {left left' : m Assembly} {right right' : n Assembly},
    Parts left right → Parts left' right' → Parts (join left left') (join right right')
  rel_finish : ∀ {left : m Assembly} {right : n Assembly},
    Parts left right → Rel (finish left) (finish right)

namespace Correspondence

variable {m n : Type → Type} [Monad m] [MonadExcept Fault m] [Monad n] [MonadExcept Fault n]

/-- A relation that faults keep whatever they are, and whatever is done when they are caught. -/
def uniform (Rel : {α : Type} → m α → n α → Prop)
    (rel_pure : ∀ {α : Type} (a : α), Rel (pure a : m α) (pure a : n α))
    (rel_throw : ∀ {α : Type} (fault : Fault), Rel (throw fault : m α) (throw fault : n α))
    (rel_bind : ∀ {α β : Type} {left : m α} {right : n α} {f : α → m β} {g : α → n β},
      Rel left right → (∀ a, Rel (f a) (g a)) → Rel (left >>= f) (right >>= g))
    (rel_tryCatch : ∀ {α : Type} {left : m α} {right : n α}
      {f : Fault → m α} {g : Fault → n α}, Rel left right →
        (∀ fault, Rel (f fault) (g fault)) → Rel (tryCatch left f) (tryCatch right g)) :
    Correspondence m n :=
  have rel_ofExcept {α : Type} (outcome : Except Fault α) :
      Rel (ofExcept outcome : m α) (ofExcept outcome : n α) := by
    cases outcome with
    | ok a => exact rel_pure a
    | error fault => exact rel_throw fault
  { Rel := Rel
    Parts := Rel
    rel_pure := rel_pure
    rel_raise := fun _ => rel_throw _
    rel_bind := rel_bind
    rel_indexed := fun related => rel_tryCatch related fun fault => rel_throw _
    parts_nil := rel_pure _
    parts_assemble := by
      intro part left right related
      unfold assemble
      split
      · exact rel_pure _
      · refine rel_tryCatch (rel_bind related fun value => ?_) fun fault => ?_
        · exact rel_bind (rel_ofExcept value.placed) fun text => rel_pure _
        · split
          · exact rel_throw fault
          · exact rel_pure _
    parts_join := fun front rest => rel_bind front fun _ => rel_bind rest fun _ => rel_pure _
    rel_finish := fun parts => rel_bind parts fun assembly => rel_ofExcept assembly.finish }

def same : Correspondence m m :=
  .uniform (fun left right => left = right) (fun _ => rfl) (fun _ => rfl)
    (by
      rintro α β left _ f g rfl continued
      rw [funext continued])
    (by
      rintro α left _ f g rfl handled
      rw [funext handled])

variable (c : Correspondence m n)

theorem rel_ofCallee (callee : Expression) :
    c.Rel (ofExcept (Function.ofCallee callee) : m Function)
      (ofExcept (Function.ofCallee callee) : n Function) := by
  cases callee with
  | reference name =>
      cases found : Function.ofName? name with
      | some function =>
          rw [Function.ofCallee, found]
          exact c.rel_pure function
      | none =>
          rw [Function.ofCallee, found]
          exact c.rel_raise (.notAFunction _)
  | _ => exact c.rel_raise (.notAFunction _)

theorem rel_ofArgument (function : Function) (argument : Value) :
    c.Rel (ofExcept (Call.ofArgument function argument) : m Call)
      (ofExcept (Call.ofArgument function argument) : n Call) := by
  unfold Call.ofArgument
  split
  · exact c.rel_pure _
  · exact c.rel_raise (.notANumber _ _)

theorem rel_selectedKey? {left? : Option (Selector m)} {right? : Option (Selector n)}
    (related : Option.Rel (fun left right => ∀ keys, c.Rel (left keys) (right keys)) left? right?)
    (keys : List String) :
    c.Rel (selectedKey? left? keys) (selectedKey? right? keys) := by
  cases related with
  | none => exact c.rel_pure _
  | some selected => exact c.rel_bind (c.rel_indexed (selected keys)) fun key => c.rel_pure _

theorem rel_or {left left' : Option (m α)} {right right' : Option (n α)}
    (first : Option.Rel c.Rel left right) (second : Option.Rel c.Rel left' right') :
    Option.Rel c.Rel (left.or left') (right.or right') := by
  cases first with
  | none => simpa using second
  | some related => exact .some related

theorem rel_getD {left? : Option (m α)} {right? : Option (n α)} {left : m α} {right : n α}
    (related? : Option.Rel c.Rel left? right?) (related : c.Rel left right) :
    c.Rel (left?.getD left) (right?.getD right) := by
  cases related? with
  | none => exact related
  | some chosen => exact chosen

section Expression

variable {answer : Answer m} {other : Answer n} (language : String)

def Selectors (answer : Answer m) (other : Answer n) (language : String)
    (index : List Expression) : Prop :=
  ∀ expression ∈ index, ∀ keys,
    c.Rel (expression.selector answer language keys) (expression.selector other language keys)

variable {c language} in
theorem Selectors.tail {index : List Expression}
    (related : c.Selectors answer other language index) :
    c.Selectors answer other language index.tail :=
  fun expression member => related expression (List.mem_of_mem_tail member)

variable {c language} in
theorem Selectors.head? {index : List Expression}
    (related : c.Selectors answer other language index) :
    Option.Rel (fun left right => ∀ keys, c.Rel (left keys) (right keys))
      (index.map (Expression.selector answer language)).head?
      (index.map (Expression.selector other language)).head? := by
  cases index with
  | nil => exact .none
  | cons first rest => exact .some (related first (by simp))

def Answers (answer : Answer m) (other : Answer n) (names : List String) : Prop :=
  ∀ name ∈ names, c.Rel (answer name) (other name)

variable {c} in
theorem Answers.append_iff {first others : List String} :
    c.Answers answer other (first ++ others) ↔
      c.Answers answer other first ∧ c.Answers answer other others :=
  List.forall_mem_append

mutual

/-- Whatever is evaluated corresponds when the answers to the names in it do. -/
theorem rel_format (index : List Expression)
    (selected : c.Selectors answer other language index) :
    (expression : Expression) → c.Answers answer other expression.names →
    c.Rel (expression.format answer language (index.map (Expression.selector answer language)))
      (expression.format other language (index.map (Expression.selector other language)))
  | .literal text, _ => c.rel_pure _
  | .reference name, answers => by
      simp only [Expression.format]
      exact answers name (List.mem_singleton_self name)
  | .pattern parts, answers => by
      simp only [Expression.format]
      split
      · exact c.rel_raise (.tooManyPlaceables _)
      · exact c.rel_finish (rel_formatParts index selected parts answers)
  | .selection branches default?, answers => by
      simp only [Expression.format]
      refine c.rel_bind (c.rel_selectedKey? selected.head? _) fun key? => ?_
      have chosen := rel_formatBranch? index.tail selected.tail key? branches answers
      have fallback :=
        rel_formatBranch? index.tail selected.tail (some (defaultKey default?)) branches answers
      rw [List.map_tail, List.map_tail] at chosen fallback
      exact c.rel_getD (c.rel_or chosen fallback) (c.rel_raise (.noVariant _ _))
  | .call callee arguments, answers => by
      simp only [Expression.format]
      exact c.rel_bind (rel_formatCall callee arguments (Answers.append_iff.mp answers).2)
        fun call => c.rel_pure _

theorem rel_formatParts (index : List Expression)
    (selected : c.Selectors answer other language index) :
    (parts : List Expression) → c.Answers answer other (Expression.namesOfAll parts) →
    c.Parts
      (Expression.formatParts answer language (index.map (Expression.selector answer language))
        parts)
      (Expression.formatParts other language (index.map (Expression.selector other language))
        parts)
  | [], _ => c.parts_nil
  | part :: parts, answers =>
      have both := Answers.append_iff.mp answers
      c.parts_join (c.parts_assemble part (rel_format index selected part both.1))
        (rel_formatParts index selected parts both.2)

theorem rel_formatBranch? (index : List Expression)
    (selected : c.Selectors answer other language index) (key? : Option String) :
    (branches : List (String × Expression)) →
    c.Answers answer other (Expression.namesOfBranches branches) →
    Option.Rel c.Rel
      (Expression.formatBranch? answer language (index.map (Expression.selector answer language))
        key? branches)
      (Expression.formatBranch? other language (index.map (Expression.selector other language))
        key? branches)
  | [], _ => .none
  | (key, branch) :: branches, answers => by
      have both := Answers.append_iff.mp answers
      simp only [Expression.formatBranch?]
      split
      · exact .some (rel_format index selected branch both.1)
      · exact rel_formatBranch? index selected key? branches both.2

theorem rel_formatCall (callee : Expression) :
    (arguments : List Expression) →
    c.Answers answer other (Expression.namesOfAll arguments) →
    c.Rel (Expression.formatCall answer language callee arguments)
      (Expression.formatCall other language callee arguments)
  | [argument], answers => by
      simp only [Expression.formatCall]
      refine c.rel_bind (c.rel_ofCallee callee) fun function => ?_
      refine c.rel_bind (rel_format [] (by simp [Selectors]) argument ?_) fun value => ?_
      · exact (Answers.append_iff.mp answers).1
      · exact c.rel_ofArgument function value
  | [], _ =>
      c.rel_bind (c.rel_ofCallee callee) fun function => c.rel_raise (.wrongArity _ _ _)
  | _ :: _ :: _, _ =>
      c.rel_bind (c.rel_ofCallee callee) fun function => c.rel_raise (.wrongArity _ _ _)

end

theorem rel_selector (expression : Expression) (answers : c.Answers answer other expression.names)
    (keys : List String) :
    c.Rel (expression.selector answer language keys)
      (expression.selector other language keys) := by
  cases expression with
  | call callee arguments =>
      have ofArguments := (Answers.append_iff.mp answers).2
      exact c.rel_bind (c.rel_formatCall language callee arguments ofArguments) fun call =>
        c.rel_pure _
  | _ =>
      exact c.rel_bind (c.rel_format language [] (by simp [Selectors]) _ answers) fun value =>
        c.rel_pure _

theorem rel_formatIndexed (index : List Expression) (expression : Expression)
    (answers : c.Answers answer other (expression.names ++ index.flatMap Expression.names)) :
    c.Rel (expression.formatIndexed answer language index)
      (expression.formatIndexed other language index) := by
  obtain ⟨ofValue, ofIndex⟩ := Answers.append_iff.mp answers
  refine c.rel_format language index (fun selected member keys => ?_) expression ofValue
  refine c.rel_selector language selected (fun name occurs => ?_) keys
  exact ofIndex name (List.mem_flatMap.mpr ⟨selected, member, occurs⟩)

end Expression

/-- Two scopes answer alike to a name that has the same argument in both. Only if it names neither
this nor a function does its phrase matter, which is then to be entered alike. -/
theorem rel_answer_unshadowed {left right : Scope} {enter : String → Phrase → m Value}
    {other : String → Phrase → n Value} {name : String}
    (arguments : left.arguments.find? name = right.arguments.find? name)
    (phrases : Function.ofName? name = none → left.arguments.find? name = none →
      Option.Rel (fun phrase phrase' => c.Rel (enter name phrase) (other name phrase'))
        (left.phrase? name) (right.phrase? name)) :
    c.Rel (left.answer enter name) (right.answer other name) := by
  unfold Scope.answer
  cases function : Function.ofName? name with
  | some function => exact c.rel_raise (.wrongArity _ _ _)
  | none =>
      rw [← arguments]
      cases argument : left.arguments.find? name with
      | some argument =>
          dsimp only
          split
          · exact c.rel_pure _
          · exact c.rel_raise (.invalidArgument name)
      | none =>
          have related := phrases function argument
          generalize left.phrase? name = phrase?, right.phrase? name = other? at related ⊢
          cases related with
          | some entered => exact entered
          | none => exact c.rel_raise (.unknownReference name)

theorem rel_answer {left right : Scope} {enter : String → Phrase → m Value}
    {other : String → Phrase → n Value} {name : String}
    (arguments : left.arguments.find? name = right.arguments.find? name)
    (phrases : Option.Rel (fun phrase phrase' => c.Rel (enter name phrase) (other name phrase'))
      (left.phrase? name) (right.phrase? name)) :
    c.Rel (left.answer enter name) (right.answer other name) :=
  c.rel_answer_unshadowed arguments fun _ _ => phrases

theorem rel_formatValue (scope : Scope) {enter : String → Phrase → m Value}
    {other : String → Phrase → n Value}
    (entered : ∀ name phrase, scope.phrase? name = some phrase →
      c.Rel (enter name phrase) (other name phrase))
    (value : Expression) (index : List Expression) :
    c.Rel (scope.formatValue enter value index) (scope.formatValue other value index) := by
  refine c.rel_formatIndexed scope.language index value fun name _ => c.rel_answer rfl ?_
  cases known : scope.phrase? name with
  | some phrase => exact .some (entered name phrase known)
  | none => exact .none

end Correspondence

end Phrasebook
