import Phrasebook.Plural.Category
import Phrasebook.Plural.Operands

/-! Cardinal plural rules: a condition for every category but `other`. -/

namespace Phrasebook.Plural

abbrev Condition := Operands → Bool

def never : Condition := fun _ => false

structure Rules where
  zero : Condition := never
  one : Condition := never
  two : Condition := never
  few : Condition := never
  many : Condition := never

def Rules.category (rules : Rules) (o : Operands) : Category :=
  if rules.zero o then .zero
  else if rules.one o then .one
  else if rules.two o then .two
  else if rules.few o then .few
  else if rules.many o then .many
  else .other

def between (low high n : Nat) : Bool :=
  low ≤ n && n ≤ high

def isWhole (n : Nat) : Condition := fun o =>
  o.whole (· = n)

def belowTwo : Condition := fun o =>
  o.integer ≤ 1

def wholeMillions : Condition := fun o =>
  o.whole fun n => n ≠ 0 && n % 1000000 = 0

def endsInOne (n : Nat) : Bool :=
  n % 10 = 1 && n % 100 ≠ 11

def endsInFew (n : Nat) : Bool :=
  between 2 4 (n % 10) && !between 12 14 (n % 100)

def endsInMany (n : Nat) : Bool :=
  n % 10 = 0 || between 5 9 (n % 10) || between 11 14 (n % 100)

def oneForZero : Rules where
  one o := o.integer = 0 || isWhole 1 o

def oneBelowTwo : Rules where
  one := belowTwo

def oneBelowTwoManyMillions : Rules where
  one := belowTwo
  many := wholeMillions

def oneWhole : Rules where
  one := isWhole 1

def oneWholeManyMillions : Rules where
  one := isWhole 1
  many := wholeMillions

def oneWholeOrZero : Rules where
  one o := o.whole (· ≤ 1)

def hebrew : Rules where
  one o := isWhole 1 o || o.integer = 0 && o.places ≠ 0
  two := isWhole 2

def czech : Rules where
  one := isWhole 1
  few o := o.whole (between 2 4)
  many o := o.places ≠ 0

def romanian : Rules where
  one := isWhole 1
  few o := o.places ≠ 0 || o.whole fun n => n = 0 || n ≠ 1 && between 1 19 (n % 100)

def polish : Rules where
  one := isWhole 1
  few o := o.whole endsInFew
  many o := o.whole fun n =>
    n ≠ 1 && n % 10 ≤ 1 || between 5 9 (n % 10) || between 12 14 (n % 100)

def breton : Rules where
  one o := o.whole fun n => n % 10 = 1 && !([11, 71, 91].contains (n % 100))
  two o := o.whole fun n => n % 10 = 2 && !([12, 72, 92].contains (n % 100))
  few o := o.whole fun n =>
    [3, 4, 9].contains (n % 10) &&
      !(between 10 19 (n % 100) || between 70 79 (n % 100) || between 90 99 (n % 100))
  many := wholeMillions

def lithuanian : Rules where
  one o := o.whole fun n => n % 10 = 1 && !between 11 19 (n % 100)
  few o := o.whole fun n => between 2 9 (n % 10) && !between 11 19 (n % 100)
  many o := o.fraction ≠ 0

def belarusian : Rules where
  one o := o.whole endsInOne
  few o := o.whole endsInFew
  many o := o.whole endsInMany

def sinhala : Rules where
  one o := o.whole (· ≤ 1) || o.integer = 0 && o.fraction = 1

def danish : Rules where
  one o := isWhole 1 o || o.fraction ≠ 0 && o.integer ≤ 1

def gaelic : Rules where
  one o := o.whole [1, 11].contains
  two o := o.whole [2, 12].contains
  few o := o.whole fun n => between 3 10 n || between 13 19 n

def oneTwoWhole : Rules where
  one := isWhole 1
  two := isWhole 2

def maltese : Rules where
  one := isWhole 1
  two := isWhole 2
  few o := o.whole fun n => n = 0 || between 3 10 (n % 100)
  many o := o.whole fun n => between 11 19 (n % 100)

def irish : Rules where
  one := isWhole 1
  two := isWhole 2
  few o := o.whole (between 3 6)
  many o := o.whole (between 7 10)

def icelandic : Rules where
  one o := o.fraction = 0 && endsInOne o.integer || endsInOne o.fraction

def macedonian : Rules where
  one o := o.whole endsInOne || endsInOne o.fraction

def serbian : Rules where
  one o := o.whole endsInOne || endsInOne o.fraction
  few o := o.whole endsInFew || endsInFew o.fraction

def russian : Rules where
  one o := o.whole endsInOne
  few o := o.whole endsInFew
  many o := o.whole endsInMany

def sorbian : Rules where
  one o := o.whole (· % 100 = 1) || o.fraction % 100 = 1
  two o := o.whole (· % 100 = 2) || o.fraction % 100 = 2
  few o := (o.whole fun n => between 3 4 (n % 100)) || between 3 4 (o.fraction % 100)

def slovenian : Rules where
  one o := o.whole (· % 100 = 1)
  two o := o.whole (· % 100 = 2)
  few o := (o.whole fun n => between 3 4 (n % 100)) || o.places ≠ 0

def filipino : Rules where
  one o :=
    (o.whole fun n => between 1 3 n || !([4, 6, 9].contains (n % 10))) ||
      o.places ≠ 0 && !([4, 6, 9].contains (o.fraction % 10))

def latvian : Rules where
  zero o :=
    (o.whole fun n => n % 10 = 0 || between 11 19 (n % 100)) ||
      o.places = 2 && between 11 19 (o.fraction % 100)
  one o :=
    o.whole endsInOne || o.places = 2 && endsInOne o.fraction ||
      o.places ≠ 2 && o.fraction % 10 = 1

def zeroOneWhole : Rules where
  zero := isWhole 0
  one := isWhole 1

def arabic : Rules where
  zero := isWhole 0
  one := isWhole 1
  two := isWhole 2
  few o := o.whole fun n => between 3 10 (n % 100)
  many o := o.whole fun n => between 11 99 (n % 100)

def welsh : Rules where
  zero := isWhole 0
  one := isWhole 1
  two := isWhole 2
  few := isWhole 3
  many := isWhole 6

end Phrasebook.Plural
