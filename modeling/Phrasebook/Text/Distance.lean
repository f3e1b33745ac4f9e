/-! Edit distance, computed row by row. -/

namespace Phrasebook.Text

def emptyRow (source : List α) : List Nat :=
  (List.range (source.length + 1)).reverse

def extendRow [DecidableEq α] (target : α) : List α → List Nat → List Nat
  | [], row => row.map (· + 1)
  | c :: source, here :: row =>
      let below := extendRow target source row
      let diagonal := row.headD 0
      let entry :=
        if c = target then diagonal
        else min (min here (below.headD 0)) diagonal + 1
      entry :: below
  | _ :: _, [] => []

def distanceRow [DecidableEq α] (source : List α) : List α → List Nat
  | [] => emptyRow source
  | c :: target => extendRow c source (distanceRow source target)

def distance [DecidableEq α] (source target : List α) : Nat :=
  (distanceRow source target).headD 0

end Phrasebook.Text
