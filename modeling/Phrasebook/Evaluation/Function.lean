import Phrasebook.Entry.Basic
import Phrasebook.Evaluation.Fault
import Phrasebook.Plural.Languages
import Phrasebook.Value

namespace Phrasebook

inductive Function where
  | plural
deriving DecidableEq

namespace Function

def name : Function → String
  | .plural => "plural"

def ofName? (name : String) : Option Function :=
  if name = Function.plural.name then some .plural else none

def arity : Function → Nat
  | .plural => 1

def category (function : Function) (language : String) (x : Float) : Plural.Category :=
  match function with
  | .plural => Plural.category language x

/-- The key that the numbers zero, one and two have beside their category. -/
def exactKey? (function : Function) (x : Float) : Option String :=
  match function with
  | .plural =>
      if x == 0 then some "zero"
      else if x == 1 then some "one"
      else if x == 2 then some "two"
      else none

def ofCallee : Expression → Except Fault Function
  | .reference name =>
      match ofName? name with
      | some function => .ok function
      | none => .error (.notAFunction name)
  | callee => .error (.notAFunction callee.source)

end Function

/-- A function with the number it is called for. It is exact when the argument was a number, not a
text read as one. -/
structure Call where
  function : Function
  number : Float
  exact : Bool

namespace Call

def ofArgument (function : Function) (argument : Value) : Except Fault Call :=
  match argument.toNumber? with
  | some x => .ok ⟨function, x, argument.asNumber?.isSome⟩
  | none => .error (.notANumber function.name argument.display)

def word (call : Call) (language : String) : String :=
  (call.function.category language call.number).name

/-- The key among the given ones that the call selects: the exact one if it is there. -/
def key (call : Call) (language : String) (keys : List String) : String :=
  match if call.exact then call.function.exactKey? call.number else none with
  | some exact => if keys.contains exact then exact else call.word language
  | none => call.word language

end Call

end Phrasebook
