import Phrasebook.Proofs.Evaluation.Restoration

namespace Phrasebook

open MonadExcept (ofExcept)

namespace Expression

section Outcome

variable (outcome : Expression → Except Fault String)

/-- What a part adds to the text: a literal itself, a placeable its text or, if it failed, the form
it is written in. -/
def piece (part : Expression) : String :=
  match part.literal?, outcome part with
  | some text, _ => text
  | none, .ok text => isolate text
  | none, .error _ => part.placeableSource

def fault? (part : Expression) : Option Fault :=
  match part.literal?, outcome part with
  | none, .error fault => some fault
  | _, _ => none

def assembledText (parts : List Expression) : String :=
  String.join (parts.map (piece outcome))

def faults (parts : List Expression) : List Fault :=
  parts.filterMap (fault? outcome)

/-- The parts put together, unless some fault ends the pattern; then the first that does. -/
def assembled (parts : List Expression) : Except Fault Assembly :=
  match (faults outcome parts).find? Fault.endsPattern with
  | some fault => .error fault
  | none => .ok ⟨assembledText outcome parts, (faults outcome parts).head?⟩

theorem part_cases (part : Expression) :
    (∃ text, part.literal? = some text ∧ part.piece outcome = text ∧ part.fault? outcome = none) ∨
      (∃ text, part.literal? = none ∧ outcome part = .ok text ∧
        part.piece outcome = isolate text ∧ part.fault? outcome = none) ∨
      ∃ fault, part.literal? = none ∧ outcome part = .error fault ∧
        part.piece outcome = part.placeableSource ∧ part.fault? outcome = some fault := by
  unfold piece fault?
  cases part.literal? with
  | some text => exact .inl ⟨text, rfl, rfl, rfl⟩
  | none =>
      cases outcome part with
      | ok text => exact .inr (.inl ⟨text, rfl, rfl, rfl, rfl⟩)
      | error fault => exact .inr (.inr ⟨fault, rfl, rfl, rfl, rfl⟩)

theorem mem_faults {parts : List Expression} {fault : Fault}
    (failed : fault ∈ faults outcome parts) :
    ∃ part ∈ parts, outcome part = .error fault := by
  obtain ⟨part, member, found⟩ := List.mem_filterMap.mp failed
  obtain ⟨text, -, -, unfailed⟩ | ⟨text, -, -, -, unfailed⟩ | ⟨other, -, failed, -, faulty⟩ :=
    part.part_cases outcome
  · rw [unfailed] at found
    cases found
  · rw [unfailed] at found
    cases found
  · rw [faulty] at found
    cases found
    exact ⟨part, member, failed⟩

theorem assembled_singleton (part : Expression) :
    assembled outcome [part] =
      match (part.fault? outcome).filter Fault.endsPattern with
      | some fault => .error fault
      | none => .ok ⟨part.piece outcome, part.fault? outcome⟩ := by
  cases failed : part.fault? outcome with
  | none => simp [assembled, assembledText, faults, failed]
  | some fault =>
      by_cases ends : fault.endsPattern <;>
        simp [assembled, assembledText, faults, failed, ends, Option.filter]

/-- The first fault that ends the pattern is its fault. Failing that, the first fault of all is kept
beside the text. -/
theorem finish_assembled (parts : List Expression) :
    finish (assembled outcome parts) =
      match (faults outcome parts).find? Fault.endsPattern, (faults outcome parts).head? with
      | some fault, _ => .error fault
      | none, some source => .error (.value (assembledText outcome parts) source)
      | none, none => .ok (.text (assembledText outcome parts)) := by
  rw [assembled]
  cases (faults outcome parts).find? Fault.endsPattern with
  | some fault => rfl
  | none =>
      change ofExcept (Assembly.finish ⟨_, (faults outcome parts).head?⟩) = _
      cases (faults outcome parts).head? <;> rfl

theorem join_assembled (front rest : List Expression) :
    join (assembled outcome front) (assembled outcome rest) =
      assembled outcome (front ++ rest) := by
  simp only [assembled, assembledText, faults, List.filterMap_append, List.find?_append,
    List.head?_append, List.map_append, String.join_append]
  cases (front.filterMap (fault? outcome)).find? Fault.endsPattern with
  | some fault => rfl
  | none =>
      rw [Option.none_or]
      cases (rest.filterMap (fault? outcome)).find? Fault.endsPattern <;> rfl

end Outcome

theorem assemblePlaceable_eq (part : Expression) (evaluated : Except Fault Value) :
    assemblePlaceable part evaluated =
      match evaluated >>= Value.placed with
      | .ok text => .ok (.ofText (isolate text))
      | .error fault => if fault.endsPattern then .error fault else .ok (.ofFault part fault) := by
  cases evaluated with
  | error fault => rfl
  | ok value =>
      have placed : Except.ok value >>= Value.placed = value.placed := rfl
      rw [placed]
      change tryCatch (ofExcept value.placed >>= _) _ = _
      cases value.placed <;> rfl

variable {outcome : Expression → Except Fault String}

theorem assemble_part {part : Expression} {evaluated : Except Fault Value}
    (own : outcome part = evaluated >>= Value.placed) :
    assemble part evaluated = assembled outcome [part] := by
  rw [assembled_singleton, assemble]
  obtain ⟨text, literal, piece, unfailed⟩ | ⟨text, placeable, placed, piece, unfailed⟩ |
    ⟨fault, placeable, failed, piece, faulty⟩ := part_cases outcome part
  · rw [literal, piece, unfailed]
    rfl
  · rw [placeable, piece, unfailed]
    dsimp only
    rw [assemblePlaceable_eq, ← own, placed]
    rfl
  · rw [placeable, piece, faulty]
    dsimp only
    rw [assemblePlaceable_eq, ← own, failed, Option.filter_some]
    by_cases ends : fault.endsPattern
    · simp [ends]
    · simp [ends, Assembly.ofFault]

/-- Parts are put together from what each of them is by itself. -/
theorem formatParts_eq {answer : Answer (Except Fault)} {language : String}
    {selectors : List (Selector (Except Fault))}
    (own : ∀ part, outcome part = part.format answer language selectors >>= Value.placed)
    (parts : List Expression) :
    formatParts answer language selectors parts = assembled outcome parts := by
  induction parts with
  | nil => rfl
  | cons part parts ih =>
      rw [formatParts, ih, assemble_part (own part), join_assembled, List.singleton_append]

end Expression

namespace Scope

section Generic

variable {m : Type → Type} [Monad m] [MonadExcept Fault m] (scope : Scope)
  (enter : String → Phrase → m Value) (index : List Expression) (depth : Nat)

/-- Evaluation of what stands within so many selections of an entry. -/
def evaluate (expression : Expression) : m Value :=
  let answer := scope.answer enter
  expression.format answer scope.language
    ((index.drop depth).map (Expression.selector answer scope.language))

def place (part : Expression) : m String := do
  let value ← scope.evaluate enter index depth part
  ofExcept value.placed

theorem formatValue_eq (value : Expression) :
    scope.formatValue enter value index = scope.evaluate enter index 0 value := rfl

end Generic

variable (scope : Scope) (stack : CallStack) (index : List Expression) (depth : Nat)

theorem evaluate_restores (expression : Expression) :
    scope.evaluate (scope.formatWithin stack.room) index depth expression stack =
      (scope.evaluate (scope.outcome stack) index depth expression, stack) := by
  let restoring := Correspondence.restoring stack
  have answers : ∀ name,
      restoring.Rel (scope.answer (scope.formatWithin stack.room) name)
        (scope.answer (scope.outcome stack) name) := by
    intro name
    refine restoring.rel_answer rfl ?_
    cases known : scope.phrase? name with
    | none => exact .none
    | some phrase => exact .some (Prod.ext rfl (scope.format_restores stack name phrase))
  refine restoring.rel_format scope.language (index.drop depth) ?_ expression fun name _ =>
    answers name
  exact fun selector _ =>
    restoring.rel_selector scope.language selector fun name _ => answers name

theorem place_restores (part : Expression) :
    scope.place (scope.formatWithin stack.room) index depth part stack =
      (scope.place (scope.outcome stack) index depth part, stack) := by
  rw [place, place, Visit.bind_apply, evaluate_restores]
  cases scope.evaluate (scope.outcome stack) index depth part with
  | error fault => rfl
  | ok value =>
      change (ofExcept value.placed : Visit String) stack = (ofExcept value.placed, stack)
      cases value.placed <;> rfl

theorem place_eq (part : Expression) :
    scope.place (scope.outcome stack) index depth part =
      scope.evaluate (scope.outcome stack) index depth part >>= Value.placed := by
  rw [place]
  cases scope.evaluate (scope.outcome stack) index depth part with
  | error fault => rfl
  | ok value =>
      change ofExcept value.placed = value.placed
      cases value.placed <;> rfl

theorem evaluate_pattern (parts : List Expression) :
    scope.evaluate (scope.outcome stack) index depth (.pattern parts) =
      if maxPlaceables < Expression.placeableCount parts then
        .error (.tooManyPlaceables (Expression.placeableCount parts))
      else
        finish (Expression.assembled (scope.place (scope.outcome stack) index depth) parts) := by
  rw [evaluate, Expression.format, Expression.formatParts_eq (scope.place_eq stack index depth)]
  split <;> rfl

end Scope

/-- What a pattern comes to is told by what its placeables come to, each by itself on the stack as
it was before the pattern. The first fault that ends the pattern is its fault, even behind others.
If there is none, the first fault is kept beside the whole text, in which the placeables that failed
stand as they are written. -/
theorem pattern_assembled (scope : Scope) (stack : CallStack) (index : List Expression)
    (depth : Nat) (parts : List Expression) :
    let enter := scope.formatWithin stack.room
    let outcome := fun part => (scope.place enter index depth part stack).1
    let faults := Expression.faults outcome parts
    let text := Expression.assembledText outcome parts
    scope.evaluate enter index depth (.pattern parts) stack =
      (if maxPlaceables < Expression.placeableCount parts then
        .error (.tooManyPlaceables (Expression.placeableCount parts))
      else
        match faults.find? Fault.endsPattern, faults.head? with
        | some fault, _ => .error fault
        | none, some source => .error (.value text source)
        | none, none => .ok (.text text), stack) := by
  intro enter outcome faults text
  have own : scope.place (scope.outcome stack) index depth = outcome :=
    funext fun part => congrArg Prod.fst (scope.place_restores stack index depth part).symm
  rw [scope.evaluate_restores, scope.evaluate_pattern, own]
  refine congrArg (·, stack) ?_
  split
  · rfl
  · exact Expression.finish_assembled outcome parts

end Phrasebook
