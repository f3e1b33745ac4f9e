import Phrasebook.Decimal.Shortest

namespace Phrasebook.Plural

open Phrasebook.Decimal

/-- The integer part, the number of fraction digits, and the fraction as a whole number. The
shortest form has no trailing zeros, so the operands with and without them agree. -/
structure Operands where
  integer : Nat
  places : Nat
  fraction : Nat
deriving DecidableEq, Repr

/-- An integer part that no 64 bits can hold is replaced by the greatest signed word. -/
def Operands.ofFigure (d : Figure) : Operands :=
  let places := (-d.exponent).toNat
  let integer := d.digits * Nat.pow 10 d.exponent.toNat / Nat.pow 10 places
  if UInt64.size ≤ integer then ⟨Int64.maxValue.toNatClampNeg, 0, 0⟩
  else ⟨integer, places, d.digits % Nat.pow 10 places⟩

def Operands.ofFloat? (x : Float) : Option Operands :=
  match Binary.ofFloat x with
  | .finite _ m => some (.ofFigure (m.shortest .up))
  | _ => none

def Operands.whole (o : Operands) (condition : Nat → Bool) : Bool :=
  o.places = 0 && condition o.integer

end Phrasebook.Plural
