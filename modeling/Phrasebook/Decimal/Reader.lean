namespace Phrasebook.Decimal

inductive Numeral where
  | finite (negative : Bool) (digits : Nat) (exponent : Int)
  | infinite (negative : Bool)
  | nan
deriving DecidableEq

def natural (digits : List Char) : Nat :=
  digits.foldl (fun n c => 10 * n + (c.toNat - '0'.toNat)) 0

def splitSign : List Char → Bool × List Char
  | '-' :: rest => (true, rest)
  | '+' :: rest => (false, rest)
  | rest => (false, rest)

/-- The exponent that a text ends in; an empty text has exponent zero. -/
def exponent? : List Char → Option Int
  | [] => some 0
  | c :: rest =>
      if c = 'e' ∨ c = 'E' then
        let (negative, digits) := splitSign rest
        if digits ≠ [] ∧ digits.all Char.isDigit then
          some (if negative then -natural digits else natural digits)
        else none
      else none

def unsigned? (negative : Bool) (text : List Char) : Option Numeral :=
  let whole := text.takeWhile Char.isDigit
  let (fraction, tail) :=
    match text.dropWhile Char.isDigit with
    | '.' :: rest => (rest.takeWhile Char.isDigit, rest.dropWhile Char.isDigit)
    | rest => ([], rest)
  if whole = [] ∧ fraction = [] then none
  else (exponent? tail).map fun e =>
    .finite negative (natural (whole ++ fraction)) (e - fraction.length)

def named? (negative : Bool) (text : List Char) : Option Numeral :=
  let word := String.ofList (text.map Char.toLower)
  if word = "inf" ∨ word = "infinity" then some (.infinite negative)
  else if word = "nan" then some .nan
  else none

def Numeral.read? (text : List Char) : Option Numeral :=
  let (negative, rest) := splitSign text
  (unsigned? negative rest).or (named? negative rest)

/-- The power of ten just above a nonzero numeral decides early whether it can be represented at
all, so that no large power has to be computed for one that cannot. -/
def leadingPlace (digits : Nat) (exponent : Int) : Int :=
  (Nat.toDigits 10 digits).length + exponent

def nearestFloat (digits : Nat) (exponent : Int) : Float :=
  if digits = 0 ∨ leadingPlace digits exponent < -400 then 0
  else if 400 < leadingPlace digits exponent then 1 / 0
  else Float.ofScientific digits (exponent < 0) exponent.natAbs

def nearestFloat32 (digits : Nat) (exponent : Int) : Float32 :=
  if digits = 0 ∨ leadingPlace digits exponent < -100 then 0
  else if 100 < leadingPlace digits exponent then 1 / 0
  else Float32.ofScientific digits (exponent < 0) exponent.natAbs

def Numeral.toFloat : Numeral → Float
  | .finite negative digits exponent =>
      if negative then -nearestFloat digits exponent else nearestFloat digits exponent
  | .infinite negative => if negative then -(1 / 0) else 1 / 0
  | .nan => 0 / 0

/-- The nearest number of single precision, widened. -/
def Numeral.toFloat32 : Numeral → Float
  | .finite negative digits exponent =>
      let x := (nearestFloat32 digits exponent).toFloat
      if negative then -x else x
  | .infinite negative => if negative then -(1 / 0) else 1 / 0
  | .nan => 0 / 0

def readFloat? (text : List Char) : Option Float :=
  (Numeral.read? text).map Numeral.toFloat

end Phrasebook.Decimal
