import Phrasebook.Text.Lines

/-! The pieces that a text falls into, its physical lines, each with the end that it has. -/

namespace Phrasebook.Text

/-- A text cut behind each of its line feeds. -/
def pieces : List Char → List (List Char)
  | [] => []
  | c :: rest =>
      if c = '\n' then [c] :: pieces rest
      else
        match pieces rest with
        | [] => [[c]]
        | piece :: others => (c :: piece) :: others

def lineOf : List Char → List Char
  | [] => []
  | ['\n'] => []
  | ['\r', '\n'] => []
  | c :: rest => c :: lineOf rest

/-- Pieces as a text falls into. Only the last one can lack its line feed. -/
inductive Pieced : List (List Char) → Prop
  | nil : Pieced []
  | last {piece : List Char} (open_ : '\n' ∉ piece) (nonempty : piece ≠ []) : Pieced [piece]
  | cons {front : List Char} {others : List (List Char)} (open_ : '\n' ∉ front)
      (rest : Pieced others) : Pieced ((front ++ ['\n']) :: others)

variable {text front : List Char} {ps qs : List (List Char)}

theorem pieces_append (open_ : '\n' ∉ front) (rest : List Char) :
    pieces (front ++ '\n' :: rest) = (front ++ ['\n']) :: pieces rest := by
  induction front with
  | nil => simp [pieces]
  | cons c front ih =>
      obtain ⟨notFeed, later⟩ := List.ne_and_not_mem_of_not_mem_cons open_
      rw [List.cons_append, pieces, if_neg (Ne.symm notFeed), ih later]
      rfl

theorem pieces_open (open_ : '\n' ∉ front) (nonempty : front ≠ []) : pieces front = [front] := by
  induction front with
  | nil => exact absurd rfl nonempty
  | cons c front ih =>
      obtain ⟨notFeed, later⟩ := List.ne_and_not_mem_of_not_mem_cons open_
      rw [pieces, if_neg (Ne.symm notFeed)]
      cases front with
      | nil => rfl
      | cons d front => rw [ih later (List.cons_ne_nil d front)]

/-- A text is empty, or a line without an end, or goes on behind the end of its first line. -/
theorem text_induction {motive : List Char → Prop} (nil : motive [])
    (last : ∀ front, '\n' ∉ front → front ≠ [] → motive front)
    (cons : ∀ front rest, '\n' ∉ front → motive rest → motive (front ++ '\n' :: rest))
    (text : List Char) : motive text := by
  by_cases feed : '\n' ∈ text
  · obtain ⟨front, rest, split, open_⟩ := List.eq_append_cons_of_mem feed
    rw [split]
    exact cons front rest open_ (text_induction nil last cons rest)
  · by_cases empty : text = []
    · exact empty ▸ nil
    · exact last text feed empty
termination_by text.length
decreasing_by
  rw [split, List.length_append, List.length_cons]
  omega

theorem pieced_pieces (text : List Char) : Pieced (pieces text) := by
  induction text using text_induction with
  | nil => exact .nil
  | last front open_ nonempty =>
      rw [pieces_open open_ nonempty]
      exact .last open_ nonempty
  | cons front rest open_ ih =>
      rw [pieces_append open_]
      exact .cons open_ ih

@[simp] theorem flatten_pieces (text : List Char) : (pieces text).flatten = text := by
  induction text using text_induction with
  | nil => rfl
  | last front open_ nonempty =>
      rw [pieces_open open_ nonempty]
      exact List.flatten_singleton
  | cons front rest open_ ih =>
      rw [pieces_append open_, List.flatten_cons, ih]
      simp

theorem Pieced.pieces_flatten (pieced : Pieced ps) : pieces ps.flatten = ps := by
  induction pieced with
  | nil => rfl
  | last open_ nonempty => rw [List.flatten_singleton, pieces_open open_ nonempty]
  | cons open_ _ ih =>
      rw [List.flatten_cons, List.append_assoc, List.singleton_append, pieces_append open_, ih]

theorem Pieced.sublist (pieced : Pieced ps) (part : qs.Sublist ps) : Pieced qs := by
  induction pieced generalizing qs with
  | nil =>
      rw [List.sublist_nil.mp part]
      exact .nil
  | last open_ nonempty =>
      rcases List.sublist_cons_iff.mp part with without | ⟨others, rfl, withOthers⟩
      · rw [List.sublist_nil.mp without]
        exact .nil
      · rw [List.sublist_nil.mp withOthers]
        exact .last open_ nonempty
  | cons open_ _ ih =>
      rcases List.sublist_cons_iff.mp part with without | ⟨others, rfl, withOthers⟩
      · exact ih without
      · exact .cons open_ (ih withOthers)

theorem Pieced.insert (pieced : Pieced (ps ++ qs)) (between : qs ≠ []) (open_ : '\n' ∉ front) :
    Pieced (ps ++ (front ++ ['\n']) :: qs) := by
  induction ps with
  | nil => exact .cons open_ pieced
  | cons piece ps ih =>
      generalize whole : piece :: ps ++ qs = all at pieced
      cases pieced with
      | nil => cases whole
      | last _ _ =>
          have alone := (List.cons.inj whole).2
          exact absurd (List.append_eq_nil_iff.mp alone).2 between
      | cons openPiece rest =>
          obtain ⟨rfl, rfl⟩ := List.cons.inj whole
          exact .cons openPiece (ih rest)

theorem lineOf_cons {c : Char} {piece : List Char} (notFeed : c ≠ '\n')
    (notReturn : c = '\r' → piece ≠ ['\n']) : lineOf (c :: piece) = c :: lineOf piece := by
  rw [lineOf]
  · exact fun same => absurd same notFeed
  · simpa using notReturn

theorem lines_eq_map_pieces (text : List Char) : lines text = (pieces text).map lineOf := by
  induction text using lines.induct with
  | case1 => rfl
  | case2 rest ih => simp [pieces, lineOf, ih]
  | case3 rest ih => simp [pieces, lineOf, ih]
  | case4 c rest notFeed notReturn ended ih =>
      have nothing : pieces rest = [] := List.map_eq_nil_iff.mp (ih.symm.trans ended)
      have single : lineOf [c] = [c] := lineOf_cons notFeed nofun
      rw [lines, ended, pieces, if_neg notFeed, nothing]
      · simp [single]
      · exact notFeed
      · exact notReturn
  | case5 c rest notFeed notReturn line others more ih =>
      obtain ⟨piece, later, cut, same, map⟩ := List.map_eq_cons_iff.mp (ih.symm.trans more)
      -- A carriage return would be dropped if the piece were the line feed alone.
      have joined : lineOf (c :: piece) = c :: lineOf piece := by
        apply lineOf_cons notFeed
        rintro isReturn rfl
        have split := flatten_pieces rest
        rw [cut, List.flatten_cons] at split
        exact notReturn _ isReturn split.symm
      rw [lines, more, pieces, if_neg notFeed, cut]
      · simp [joined, same, map]
      · exact notFeed
      · exact notReturn

end Phrasebook.Text
