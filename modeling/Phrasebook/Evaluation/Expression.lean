import Phrasebook.Evaluation.Function

/-! Evaluating an expression in any effect, given an answer for every reference. -/

namespace Phrasebook

open MonadExcept (ofExcept)

variable {m : Type → Type} [Monad m] [MonadExcept Fault m]

abbrev Answer (m : Type → Type) := String → m Value

abbrev Selector (m : Type → Type) := List String → m String

def firstStrongIsolate : String := "\u2068"

def popDirectionalIsolate : String := "\u2069"

/-- The text of a placeable, kept apart from the direction of the text around it. -/
def isolate (text : String) : String :=
  firstStrongIsolate ++ text ++ popDirectionalIsolate

def Value.placed (value : Value) : Except Fault String :=
  if value.isText && maxPlaceableLength ≤ value.display.length then
    .error (.placeableTooLong value.display.length)
  else .ok value.display

theorem Value.placed_cases (value : Value) :
    value.placed = .error (.placeableTooLong value.display.length) ∨
      value.placed = .ok value.display := by
  unfold Value.placed
  split
  · exact .inl rfl
  · exact .inr rfl

/-- The text of some parts of a pattern and the first fault in them. -/
structure Assembly where
  text : String
  fault? : Option Fault

namespace Assembly

def ofText (text : String) : Assembly where
  text := text
  fault? := none

/-- A placeable that failed is written as it stands. -/
def ofFault (part : Expression) (fault : Fault) : Assembly where
  text := part.placeableSource
  fault? := some fault

def append (front rest : Assembly) : Assembly where
  text := front.text ++ rest.text
  fault? := front.fault?.or rest.fault?

def finish (assembly : Assembly) : Except Fault Value :=
  match assembly.fault? with
  | some source => .error (.value assembly.text source)
  | none => .ok (.text assembly.text)

end Assembly

/-- A placeable within its pattern, given its evaluation. Faults that end the pattern stay faults.
-/
def assemblePlaceable (part : Expression) (evaluated : m Value) : m Assembly :=
  tryCatch
    (do
      let value ← evaluated
      let text ← ofExcept value.placed
      pure (.ofText (isolate text)))
    fun fault => if fault.endsPattern then throw fault else pure (.ofFault part fault)

def assemble (part : Expression) (evaluated : m Value) : m Assembly :=
  match part.literal? with
  | some text => pure (.ofText text)
  | none => assemblePlaceable part evaluated

def join (front rest : m Assembly) : m Assembly := do
  let front ← front
  let rest ← rest
  pure (front.append rest)

def finish (assembled : m Assembly) : m Value := do
  let assembly ← assembled
  ofExcept assembly.finish

/-- A fault of a selector is one of the index. -/
def indexed (evaluated : m α) : m α :=
  tryCatch evaluated fun fault => throw fault.asIndex

def selectedKey? (selector? : Option (Selector m)) (keys : List String) : m (Option String) :=
  match selector? with
  | none => pure none
  | some selector => do
      let key ← indexed (selector keys)
      pure (some key)

def noVariant (key : String) (keys : List String) : Fault :=
  .index (.missingVariant key keys (suggestions key keys))

namespace Expression

mutual

def format (answer : Answer m) (language : String) :
    (selectors : List (Selector m)) → Expression → m Value
  | _, .literal text => pure (.text text)
  | _, .reference name => answer name
  | selectors, .pattern parts =>
      if maxPlaceables < placeableCount parts then
        throw (.tooManyPlaceables (placeableCount parts))
      else finish (formatParts answer language selectors parts)
  | selectors, .selection branches default? => do
      let key? ← selectedKey? selectors.head? (branches.map Prod.fst)
      let chosen? := formatBranch? answer language selectors.tail key? branches
      let default := defaultKey default?
      let fallback? := formatBranch? answer language selectors.tail (some default) branches
      (chosen?.or fallback?).getD (throw (noVariant (key?.getD default) (branches.map Prod.fst)))
  | _, .call callee arguments => do
      let call ← formatCall answer language callee arguments
      pure (.text (call.word language))

def formatParts (answer : Answer m) (language : String) (selectors : List (Selector m)) :
    List Expression → m Assembly
  | [] => pure (.ofText "")
  | part :: parts =>
      join (assemble part (part.format answer language selectors))
        (formatParts answer language selectors parts)

def formatBranch? (answer : Answer m) (language : String) (selectors : List (Selector m))
    (key? : Option String) : List (String × Expression) → Option (m Value)
  | [] => none
  | (key, branch) :: branches =>
      if key? = some key then some (branch.format answer language selectors)
      else formatBranch? answer language selectors key? branches

def formatCall (answer : Answer m) (language : String) (callee : Expression) :
    List Expression → m Call
  | [argument] => do
      let function ← ofExcept (Function.ofCallee callee)
      let value ← argument.format answer language []
      ofExcept (Call.ofArgument function value)
  | arguments => do
      let function ← ofExcept (Function.ofCallee callee)
      throw (.wrongArity function.name function.arity arguments.length)

end

/-- An expression as a selector. Calls know the keys they choose from; any other expression is
evaluated, and its text is the key. -/
def selector (answer : Answer m) (language : String) : Expression → Selector m
  | .call callee arguments => fun keys => do
      let call ← formatCall answer language callee arguments
      pure (call.key language keys)
  | expression => fun _ => do
      let value ← expression.format answer language []
      pure value.display

def formatIndexed (answer : Answer m) (language : String) (index : List Expression)
    (expression : Expression) : m Value :=
  expression.format answer language (index.map (selector answer language))

end Expression

end Phrasebook
