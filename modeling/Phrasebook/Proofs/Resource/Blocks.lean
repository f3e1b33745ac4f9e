import Mathlib.Data.List.Flatten
import Phrasebook.Proofs.Text.Pieces
import Phrasebook.Resource.Assignment

/-! Logical lines as blocks of physical ones. -/

namespace Phrasebook.Resource

open Phrasebook.Text

/-- The pieces of a text that make one logical line. -/
structure Block where
  first : List Char
  further : List (List Char) := []

namespace Block

def pieces (block : Block) : List (List Char) :=
  block.first :: block.further

def source (block : Block) : List Char :=
  block.pieces.flatten

def text (block : Block) : List Char :=
  block.further.foldl (fun text piece => text.dropLast ++ trim (lineOf piece))
    (lineOf block.first)

def add (block : Block) (piece : List Char) : Block :=
  ⟨block.first, block.further ++ [piece]⟩

theorem pieces_add (block : Block) (piece : List Char) :
    (block.add piece).pieces = block.pieces ++ [piece] := rfl

theorem text_add (block : Block) (piece : List Char) :
    (block.add piece).text = block.text.dropLast ++ trim (lineOf piece) := by
  simp [text, add]

/-- Every piece but the last goes on in the next one. -/
inductive Joined : Block → Prop
  | single (piece : List Char) : Joined ⟨piece, []⟩
  | add {block : Block} (joined : Joined block) (goesOn : continues block.text = true)
      (piece : List Char) : Joined (block.add piece)

end Block

/-- Every block but the last is complete. -/
inductive Gathered : List Block → Prop
  | nil : Gathered []
  | last {block : Block} (joined : block.Joined) : Gathered [block]
  | cons {block : Block} {others : List Block} (joined : block.Joined)
      (complete : continues block.text = false) (rest : Gathered others) :
      Gathered (block :: others)

def gatherInto (block : Block) : List (List Char) → List Block
  | [] => [block]
  | piece :: rest =>
      if continues block.text then gatherInto (block.add piece) rest
      else block :: gatherInto ⟨piece, []⟩ rest

def gather : List (List Char) → List Block
  | [] => []
  | piece :: rest => gatherInto ⟨piece, []⟩ rest

def blocks (source : List Char) : List Block :=
  gather (pieces source)

def lineBehind (front : List Block) : Nat :=
  (front.flatMap Block.pieces).length + 1

/-- The logical lines of blocks, numbered by the pieces in front of them. -/
def numbered (start : Nat) : List Block → List LogicalLine
  | [] => []
  | block :: rest => ⟨start, block.text⟩ :: numbered (start + block.pieces.length) rest

def assignmentsOf (blocks : List Block) : List Assignment :=
  (numbered 1 blocks).filterMap Assignment.ofLine?

/-- What a line says, wherever it stands. -/
def said? (text : List Char) : Option Assignment :=
  Assignment.ofLine? ⟨0, text⟩

section Gathering

variable {block : Block} {bs cs : List Block}

theorem flatMap_pieces_gatherInto (block : Block) (rest : List (List Char)) :
    (gatherInto block rest).flatMap Block.pieces = block.pieces ++ rest := by
  induction rest generalizing block with
  | nil => simp [gatherInto]
  | cons piece rest ih =>
      rw [gatherInto]
      split
      · rw [ih, Block.pieces_add, List.append_assoc, List.singleton_append]
      · rw [List.flatMap_cons, ih]
        rfl

theorem flatMap_pieces_gather (ps : List (List Char)) :
    (gather ps).flatMap Block.pieces = ps := by
  cases ps with
  | nil => rfl
  | cons piece rest => exact flatMap_pieces_gatherInto ⟨piece, []⟩ rest

theorem gathered_gatherInto (joined : block.Joined) (rest : List (List Char)) :
    Gathered (gatherInto block rest) := by
  induction rest generalizing block with
  | nil => exact .last joined
  | cons piece rest ih =>
      rw [gatherInto]
      split
      · rename_i goesOn
        exact ih (joined.add goesOn piece)
      · rename_i complete
        exact .cons joined (Bool.eq_false_iff.mpr complete) (ih (.single piece))

theorem gathered_gather (ps : List (List Char)) : Gathered (gather ps) := by
  cases ps with
  | nil => exact .nil
  | cons piece rest => exact gathered_gatherInto (.single piece) rest

theorem Block.Joined.gatherInto (joined : block.Joined) (rest : List (List Char)) :
    Resource.gatherInto ⟨block.first, []⟩ (block.further ++ rest) =
      Resource.gatherInto block rest := by
  induction joined generalizing rest with
  | single piece => rfl
  | @add block _ goesOn piece ih =>
      have step := ih (piece :: rest)
      rw [Resource.gatherInto, if_pos goesOn] at step
      rw [← step, Block.add, List.append_assoc, List.singleton_append]

theorem Gathered.gather_flatMap (gathered : Gathered bs) :
    gather (bs.flatMap Block.pieces) = bs := by
  induction gathered with
  | nil => rfl
  | @last block joined =>
      have whole := joined.gatherInto []
      rw [List.append_nil] at whole
      rw [List.flatMap_singleton]
      exact whole
  | @cons block others joined complete _ ih =>
      -- Gathering runs through the whole block, and stops at it because it is complete.
      have whole := joined.gatherInto (others.flatMap Block.pieces)
      rw [List.flatMap_cons]
      refine whole.trans ?_
      cases others with
      | nil => rfl
      | cons next others =>
          rw [List.flatMap_cons, Block.pieces, List.cons_append, gatherInto,
            if_neg (by simp [complete])]
          exact congrArg (block :: ·) ih

theorem gatherInto_complete (complete : continues block.text = false) (rest : List (List Char)) :
    gatherInto block rest = block :: gather rest := by
  cases rest with
  | nil => rfl
  | cons piece rest =>
      rw [gatherInto, if_neg (by simp [complete])]
      rfl

theorem gather_append (complete : ∀ block ∈ bs, block.Joined ∧ continues block.text = false)
    (rest : List (List Char)) :
    gather (bs.flatMap Block.pieces ++ rest) = bs ++ gather rest := by
  induction bs with
  | nil => rfl
  | cons block bs ih =>
      obtain ⟨⟨joined, ended⟩, completeLater⟩ := List.forall_mem_cons.mp complete
      have whole := joined.gatherInto (bs.flatMap Block.pieces ++ rest)
      rw [gatherInto_complete ended, ih completeLater] at whole
      rw [List.flatMap_cons, List.append_assoc]
      exact whole

theorem Gathered.joined (gathered : Gathered bs) : ∀ block ∈ bs, block.Joined := by
  induction gathered with
  | nil => exact nofun
  | last joined => exact List.forall_mem_singleton.mpr joined
  | cons joined _ _ ih => exact List.forall_mem_cons.mpr ⟨joined, ih⟩

theorem Gathered.complete (gathered : Gathered (bs ++ cs)) (between : cs ≠ []) :
    ∀ block ∈ bs, block.Joined ∧ continues block.text = false := by
  induction bs with
  | nil => exact nofun
  | cons block bs ih =>
      generalize whole : block :: bs ++ cs = all at gathered
      cases gathered with
      | nil => cases whole
      | last _ =>
          have alone := (List.cons.inj whole).2
          exact absurd (List.append_eq_nil_iff.mp alone).2 between
      | cons joined ended rest =>
          obtain ⟨rfl, rfl⟩ := List.cons.inj whole
          exact List.forall_mem_cons.mpr ⟨⟨joined, ended⟩, ih rest⟩

theorem Gathered.sublist (gathered : Gathered bs) (part : cs.Sublist bs) : Gathered cs := by
  induction gathered generalizing cs with
  | nil =>
      rw [List.sublist_nil.mp part]
      exact .nil
  | last joined =>
      rcases List.sublist_cons_iff.mp part with without | ⟨others, rfl, withOthers⟩
      · rw [List.sublist_nil.mp without]
        exact .nil
      · rw [List.sublist_nil.mp withOthers]
        exact .last joined
  | cons joined complete _ ih =>
      rcases List.sublist_cons_iff.mp part with without | ⟨others, rfl, withOthers⟩
      · exact ih without
      · exact .cons joined complete (ih withOthers)

theorem flatten_flatMap_pieces (bs : List Block) :
    (bs.flatMap Block.pieces).flatten = bs.flatMap Block.source := by
  induction bs with
  | nil => rfl
  | cons block bs ih => rw [List.flatMap_cons, List.flatMap_cons, List.flatten_append, ih]; rfl

@[simp] theorem flatMap_pieces_blocks (source : List Char) :
    (blocks source).flatMap Block.pieces = pieces source :=
  flatMap_pieces_gather (pieces source)

/-- A block starts on the physical line behind those of the blocks in front of it. -/
theorem line_of_split {source : List Char} {front back : List Block}
    (split : blocks source = front ++ block :: back) :
    (lines source)[lineBehind front - 1]? = some (lineOf block.first) := by
  have inPieces := flatMap_pieces_blocks source
  rw [split, List.flatMap_append, List.flatMap_cons, Block.pieces] at inPieces
  rw [lines_eq_map_pieces, ← inPieces, lineBehind, Nat.add_sub_cancel, List.map_append,
    List.getElem?_append_right (by simp)]
  simp

/-- What is left when blocks are taken out of a text is made of the other blocks. -/
theorem blocks_of_sublist {source : List Char} (part : bs.Sublist (blocks source)) :
    blocks (bs.flatMap Block.source) = bs := by
  have inSource := part.flatMap Block.pieces
  rw [flatMap_pieces_blocks] at inSource
  rw [blocks, ← flatten_flatMap_pieces, ((pieced_pieces source).sublist inSource).pieces_flatten]
  exact ((gathered_gather _).sublist part).gather_flatMap

end Gathering

section Numbers

theorem joinLines_eq (start : Nat) (block : Block) (rest : List (List Char)) :
    joinLines start (start + block.pieces.length) block.text (rest.map lineOf) =
      numbered start (gatherInto block rest) := by
  induction rest generalizing start block with
  | nil => rfl
  | cons piece rest ih =>
      rw [List.map_cons, joinLines, gatherInto]
      split
      · have longer := ih start (block.add piece)
        rw [Block.pieces_add, List.length_append, Block.text_add] at longer
        exact longer
      · rw [numbered]
        exact congrArg (_ :: ·) (ih (start + block.pieces.length) ⟨piece, []⟩)

theorem logicalLines_eq (source : List Char) :
    logicalLines source = numbered 1 (blocks source) := by
  rw [logicalLines, lines_eq_map_pieces, blocks]
  cases pieces source with
  | nil => rfl
  | cons piece rest => exact joinLines_eq 1 ⟨piece, []⟩ rest

theorem assignments_eq (source : List Char) :
    assignments source = assignmentsOf (blocks source) := by
  rw [assignments, logicalLines_eq, assignmentsOf]

theorem numbered_append (start : Nat) (front back : List Block) :
    numbered start (front ++ back) =
      numbered start front ++ numbered (start + (front.flatMap Block.pieces).length) back := by
  induction front generalizing start with
  | nil => rfl
  | cons block front ih =>
      rw [List.cons_append, numbered, numbered, ih, List.flatMap_cons, List.length_append,
        Nat.add_assoc]
      rfl

theorem map_text_numbered (start : Nat) (bs : List Block) :
    (numbered start bs).map (·.text) = bs.map Block.text := by
  induction bs generalizing start with
  | nil => rfl
  | cons block bs ih => rw [numbered, List.map_cons, ih, List.map_cons]

theorem numbered_eq_append_cons {start : Nat} {bs : List Block} {before behind : List LogicalLine}
    {line : LogicalLine} (split : numbered start bs = before ++ line :: behind) :
    ∃ front block back, bs = front ++ block :: back ∧ numbered start front = before ∧
      line = ⟨start + (front.flatMap Block.pieces).length, block.text⟩ := by
  induction bs generalizing start before with
  | nil => simp [numbered] at split
  | cons first bs ih =>
      rw [numbered] at split
      cases before with
      | nil => exact ⟨[], first, bs, rfl, rfl, (List.cons.inj split).1.symm⟩
      | cons _ before =>
          obtain ⟨rfl, later⟩ := List.cons.inj split
          obtain ⟨front, block, back, rfl, early, rfl⟩ := ih later
          refine ⟨first :: front, block, back, rfl, congrArg (_ :: ·) early, ?_⟩
          rw [List.flatMap_cons, List.length_append, Nat.add_assoc]

end Numbers

section Saying

theorem ofLine?_eq (line : LogicalLine) :
    Assignment.ofLine? line = (said? line.text).map ({ · with line := line.number }) := by
  simp only [said?, Assignment.ofLine?]
  split
  · rfl
  · split
    · rfl
    · rw [Option.map_map]
      rfl

theorem ofLine?_eq_some_iff {line : LogicalLine} {a : Assignment} :
    Assignment.ofLine? line = some a ↔
      ∃ b, said? line.text = some b ∧ a = { b with line := line.number } := by
  rw [ofLine?_eq, Option.map_eq_some_iff]
  exact exists_congr fun b => and_congr_right fun _ => eq_comm

theorem assignmentsOf_append_cons {front back : List Block} {block : Block} {a : Assignment}
    (spoken : said? block.text = some a) :
    ∃ behind, assignmentsOf (front ++ block :: back) =
      assignmentsOf front ++ { a with line := lineBehind front } :: behind := by
  have here : Assignment.ofLine? ⟨1 + (front.flatMap Block.pieces).length, block.text⟩ =
      some { a with line := lineBehind front } := by
    rw [ofLine?_eq, spoken, lineBehind, Nat.add_comm]
    rfl
  rw [assignmentsOf, numbered_append, List.filterMap_append, numbered,
    List.filterMap_cons_some here]
  exact ⟨_, rfl⟩

theorem assignmentsOf_eq_append_cons {bs : List Block} {before behind : List Assignment}
    {a : Assignment} (split : assignmentsOf bs = before ++ a :: behind) :
    ∃ front block back b, bs = front ++ block :: back ∧ assignmentsOf front = before ∧
      said? block.text = some b ∧ a = { b with line := lineBehind front } := by
  obtain ⟨early, late, parts, here, there⟩ := List.filterMap_eq_append_iff.mp split
  obtain ⟨silent, line, rest, rfl, quiet, spoken, -⟩ := List.filterMap_eq_cons_iff.mp there
  rw [← List.append_assoc] at parts
  obtain ⟨front, block, back, rfl, upTo, rfl⟩ := numbered_eq_append_cons parts
  obtain ⟨b, said, rfl⟩ := ofLine?_eq_some_iff.mp spoken
  refine ⟨front, block, back, b, rfl, ?_, said, ?_⟩
  · rw [assignmentsOf, upTo, List.filterMap_append, here, List.filterMap_eq_nil_iff.mpr quiet,
      List.append_nil]
  · rw [lineBehind, Nat.add_comm]

end Saying

end Phrasebook.Resource
