/-! The parts of a binary floating-point number, read from its 64 bits. -/

namespace Phrasebook.Decimal

/-- The number `mantissa · 2 ^ exponent`. It is narrow when the next number below lies half as far
away as the next one above, as at the start of each binade but the first. -/
structure Magnitude where
  mantissa : Nat
  exponent : Int
  narrow : Bool
deriving DecidableEq

inductive Binary where
  | nan
  | infinite (negative : Bool)
  | finite (negative : Bool) (magnitude : Magnitude)
deriving DecidableEq

/-- One bit for the sign, 11 for the exponent and 52 for the fraction, from the top. -/
def signUnit : Nat := 0x8000000000000000

def exponentUnit : Nat := 0x10000000000000

def exponentCount : Nat := 0x800

def Binary.ofBits (bits : Nat) : Binary :=
  let negative : Bool := bits / signUnit % 2 = 1
  let exponent : Nat := bits / exponentUnit % exponentCount
  let fraction := bits % exponentUnit
  if exponent + 1 = exponentCount then
    if fraction = 0 then .infinite negative else .nan
  else if exponent = 0 then
    .finite negative ⟨fraction, -1074, false⟩
  else
    .finite negative
      ⟨exponentUnit + fraction, (exponent : Int) - 1075, fraction = 0 && exponent ≠ 1⟩

def Binary.ofFloat (x : Float) : Binary :=
  .ofBits x.toBits.toNat

end Phrasebook.Decimal
