import Phrasebook.Decimal.Binary

/-! The shortest decimal that reads back, sought on the grids of decimals from coarse to fine. -/

namespace Phrasebook.Decimal

structure Figure where
  digits : Nat
  exponent : Int
deriving DecidableEq, Repr

inductive Tie where
  | up
  | even
deriving DecidableEq

def Tie.choose (tie : Tie) (below : Nat) : Nat :=
  match tie with
  | .up => below + 1
  | .even => if below % 2 = 0 then below else below + 1

/-- A magnitude against the grid of one power of ten: `step` is the width of the grid and `scale`
that of a quarter of the magnitude's last place, in a common unit. -/
structure Grid where
  step : Nat
  scale : Nat

def Magnitude.grid (m : Magnitude) (exponent : Int) : Grid where
  step := Nat.pow 10 exponent.toNat * Nat.pow 2 (2 - m.exponent).toNat
  scale := Nat.pow 2 (m.exponent - 2).toNat * Nat.pow 10 (-exponent).toNat

/-- Whether the grid point rounds to the magnitude. The ends of the interval do so exactly when the
mantissa is even. -/
def Magnitude.admits (m : Magnitude) (grid : Grid) (digits : Nat) : Bool :=
  let point := digits * grid.step
  let low := (4 * m.mantissa - if m.narrow then 1 else 2) * grid.scale
  let high := (4 * m.mantissa + 2) * grid.scale
  if m.mantissa % 2 = 0 then low ≤ point && point ≤ high else low < point && point < high

def Magnitude.onGrid? (m : Magnitude) (tie : Tie) (exponent : Int) : Option Figure :=
  let grid := m.grid exponent
  let value := 4 * m.mantissa * grid.scale
  let below := value / grid.step
  let above := below + 1
  match m.admits grid below, m.admits grid above with
  | false, false => none
  | true, false => some ⟨below, exponent⟩
  | false, true => some ⟨above, exponent⟩
  | true, true =>
      let down := value - below * grid.step
      let up := above * grid.step - value
      if down < up then some ⟨below, exponent⟩
      else if up < down then some ⟨above, exponent⟩
      else some ⟨tie.choose below, exponent⟩

def Magnitude.search (m : Magnitude) (tie : Tie) : (grids : Nat) → (exponent : Int) → Figure
  | 0, exponent => ⟨0, exponent⟩
  | grids + 1, exponent =>
      match m.onGrid? tie exponent with
      | some figure => figure
      | none => m.search tie grids (exponent - 1)

/-- A power of ten above the magnitude; `30103 / 100000` is a little more than the logarithm of two
to the base ten. -/
def Magnitude.ceiling (m : Magnitude) : Int :=
  (m.exponent + m.mantissa.log2 + 1) * 30103 / 100000 + 2

/-- Seventeen digits always suffice, so the search ends within a few grids more. -/
def Magnitude.shortest (m : Magnitude) (tie : Tie) : Figure :=
  if m.mantissa = 0 then ⟨0, 0⟩ else m.search tie 24 m.ceiling

end Phrasebook.Decimal
