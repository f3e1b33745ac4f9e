import Phrasebook.Text.Span
import Phrasebook.Unicode.WhiteSpace

namespace Phrasebook.Text

open Phrasebook.Unicode

def trimStart (text : List Char) : List Char :=
  text.dropWhile isWhiteSpace

def trimEnd (text : List Char) : List Char :=
  (trimStart text.reverse).reverse

def trim (text : List Char) : List Char :=
  trimEnd (trimStart text)

theorem trimStart_cons (c : Char) (text : List Char) :
    trimStart (c :: text) =
      if isWhiteSpace c then trimStart text else c :: text := by
  simp only [trimStart, List.dropWhile_cons]

theorem trimStart_of_stops {text : List Char} (solid : Stops isWhiteSpace text) :
    trimStart text = text :=
  @dropWhile_span _ [] text nofun solid

/-- Nothing is left to trim at the end. -/
theorem stops_reverse_trim (text : List Char) : Stops isWhiteSpace (trim text).reverse := by
  rw [trim, trimEnd, List.reverse_reverse]
  exact stops_dropWhile isWhiteSpace _

theorem trim_of_stops {text : List Char} (starts : Stops isWhiteSpace text)
    (ends : Stops isWhiteSpace text.reverse) : trim text = text := by
  rw [trim, trimStart_of_stops starts, trimEnd, trimStart_of_stops ends, List.reverse_reverse]

end Phrasebook.Text
