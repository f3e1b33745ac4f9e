namespace Phrasebook.Text

/-- A carriage return only ends a line together with the line feed behind it. -/
def lines : List Char → List (List Char)
  | [] => []
  | '\n' :: rest => [] :: lines rest
  | '\r' :: '\n' :: rest => [] :: lines rest
  | c :: rest =>
      match lines rest with
      | [] => [[c]]
      | line :: others => (c :: line) :: others

@[simp] theorem lines_newline (rest : List Char) :
    lines ('\n' :: rest) = [] :: lines rest := by
  simp [lines]

@[simp] theorem lines_return_newline (rest : List Char) :
    lines ('\r' :: '\n' :: rest) = [] :: lines rest := by
  simp [lines]

theorem lines_line {line : List Char} (noFeed : '\n' ∉ line) (noReturn : '\r' ∉ line.getLast?)
    (rest : List Char) : lines (line ++ '\n' :: rest) = line :: lines rest := by
  induction line with
  | nil => simp
  | cons c line ih =>
      have notFeed : c ≠ '\n' := fun same => noFeed (same ▸ List.mem_cons_self)
      have laterFeed : '\n' ∉ line := fun member => noFeed (List.mem_cons_of_mem c member)
      cases line with
      | nil =>
          have notReturn : c ≠ '\r' := by simpa using noReturn
          simp [lines, notReturn]
      | cons d line =>
          have notPair : d ≠ '\n' := fun same => laterFeed (same ▸ List.mem_cons_self)
          have later := ih laterFeed (by simpa using noReturn)
          rw [List.cons_append] at later ⊢
          rw [List.cons_append, lines, later]
          · exact notFeed
          · intro _ _ same
            exact notPair (List.cons.inj same).1

end Phrasebook.Text
