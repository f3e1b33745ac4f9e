import Phrasebook.Text.Distance

namespace Phrasebook

open Phrasebook.Text

def reach (name : String) : Nat :=
  if 3 < name.length then 2 else 1

def suggestionOrder (left right : Nat × String) : Bool :=
  left.1 < right.1 || left.1 = right.1 && left.2 ≤ right.2

def candidates (name : String) (available : List String) : List (Nat × String) :=
  (available.map fun other => (distance name.toList other.toList, other)).filter fun scored =>
    0 < scored.1 && scored.1 ≤ reach name

/-- At most three suggestions, nearest first, then in the order of their texts. -/
def suggestions (name : String) (available : List String) : List String :=
  (((candidates name available).mergeSort suggestionOrder).take 3).map Prod.snd

end Phrasebook
