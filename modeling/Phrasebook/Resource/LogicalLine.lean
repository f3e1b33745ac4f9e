import Phrasebook.Text.Lines
import Phrasebook.Text.Trim

/-! Logical lines, each with the number of the physical line it starts on. -/

namespace Phrasebook.Resource

open Phrasebook.Text

structure LogicalLine where
  number : Nat
  text : List Char
deriving DecidableEq

def continues (line : List Char) : Bool :=
  (line.reverse.takeWhile (· = '\\')).length % 2 = 1

/-- Joins a line that ends in an odd number of backslashes with the next one, whose outer white
space is dropped. -/
def joinLines (start next : Nat) (current : List Char) : List (List Char) → List LogicalLine
  | [] => [⟨start, current⟩]
  | line :: rest =>
      if continues current then
        joinLines start (next + 1) (current.dropLast ++ trim line) rest
      else
        ⟨start, current⟩ :: joinLines next (next + 1) line rest

def joinAll : List (List Char) → List LogicalLine
  | [] => []
  | line :: rest => joinLines 1 2 line rest

def logicalLines (source : List Char) : List LogicalLine :=
  joinAll (lines source)

end Phrasebook.Resource
