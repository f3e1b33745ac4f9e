import Phrasebook.Decimal.Shortest

namespace Phrasebook.Decimal

/-- How a decimal is set. `positional` is asked for the number of places before the point (zero or
less for a number below one tenth); without it the number is set with an exponent. A `pointed`
layout marks whole numbers by `.0`. `tie` decides between two shortest decimals equally near. -/
structure Layout where
  positional : Int → Bool
  pointed : Bool
  tie : Tie

def Layout.plain : Layout where
  positional _ := true
  pointed := false
  tie := .up

/-- Positional from 0.00001 up to 16 places, always with a point; beyond that with an exponent that
bears its sign. -/
def Layout.compact : Layout where
  positional places := -5 < places && places ≤ 16
  pointed := true
  tie := .even

def digitText (n : Nat) : List Char :=
  Nat.toDigits 10 n

def numeral (n : Nat) : String :=
  String.ofList (digitText n)

def Figure.places (d : Figure) : Int :=
  (digitText d.digits).length + d.exponent

def Layout.positionalText (layout : Layout) (d : Figure) : List Char :=
  let digits := digitText d.digits
  if 0 ≤ d.exponent then
    digits ++ List.replicate d.exponent.toNat '0' ++ (if layout.pointed then ['.', '0'] else [])
  else
    let fraction := (-d.exponent).toNat
    if fraction < digits.length then
      digits.take (digits.length - fraction) ++ '.' :: digits.drop (digits.length - fraction)
    else
      ['0', '.'] ++ List.replicate (fraction - digits.length) '0' ++ digits

def exponentText (n : Int) : List Char :=
  (if n < 0 then '-' else '+') :: digitText n.natAbs

def scientificText (d : Figure) : List Char :=
  let lead :=
    match digitText d.digits with
    | [] => []
    | [digit] => [digit]
    | digit :: fraction => digit :: '.' :: fraction
  lead ++ 'e' :: exponentText (d.places - 1)

def Layout.figure (layout : Layout) (d : Figure) : List Char :=
  if layout.positional d.places then layout.positionalText d else scientificText d

def signed (negative : Bool) (text : List Char) : List Char :=
  if negative then '-' :: text else text

def Layout.binary (layout : Layout) : Binary → List Char
  | .nan => ['N', 'a', 'N']
  | .infinite negative => signed negative ['i', 'n', 'f']
  | .finite negative m => signed negative (layout.figure (m.shortest layout.tie))

def Layout.float (layout : Layout) (x : Float) : String :=
  String.ofList (layout.binary (.ofFloat x))

end Phrasebook.Decimal
