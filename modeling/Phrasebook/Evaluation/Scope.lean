import Phrasebook.Evaluation.CallStack
import Phrasebook.Evaluation.Expression

namespace Phrasebook

/-- What references can mean, and the language whose plural rules hold. -/
structure Scope where
  phrase? : String → Option Phrase
  arguments : Arguments
  language : String

namespace Scope

variable {m : Type → Type} [Monad m] [MonadExcept Fault m]

def ofEntries (entries : Entries) (arguments : Arguments) (language : String) : Scope where
  phrase? id := (entries.find? id).map Entry.phrase
  arguments := arguments
  language := language

/-- The answer to a reference; `enter` evaluates an entry. -/
def answer (scope : Scope) (enter : String → Phrase → m Value) : Answer m := fun name =>
  match Function.ofName? name with
  | some function => throw (.wrongArity function.name function.arity 0)
  | none =>
      match scope.arguments.find? name with
      | some value => if value.isArgument then pure value else throw (.invalidArgument name)
      | none =>
          match scope.phrase? name with
          | some phrase => enter name phrase
          | none => throw (.unknownReference name)

/-- Evaluation of the value of an entry, with `enter` for the entries it refers to. -/
def formatValue (scope : Scope) (enter : String → Phrase → m Value) (value : Expression)
    (index : List Expression) : m Value :=
  value.formatIndexed (scope.answer enter) scope.language index

/-- Evaluation on a stack with so much room left. -/
def formatWithin (scope : Scope) : (room : Nat) → String → Phrase → Visit Value
  | _, _, .bare text => pure (.text text)
  | _, id, .complex none _ => throw (.missingValue id)
  | 0, _, .complex (some _) _ => throw .tooDeep
  | room + 1, id, .complex (some value) index =>
      Visit.within id (scope.formatValue (scope.formatWithin room) value index)

def format (scope : Scope) (stack : CallStack) (id : String) (phrase : Phrase) :
    Except Fault Value × CallStack :=
  scope.formatWithin stack.room id phrase stack

def formatFresh (scope : Scope) (id : String) (phrase : Phrase) : Except Fault Value :=
  (scope.format (.empty CallStack.defaultLimit) id phrase).1

end Scope

end Phrasebook
