import Phrasebook.Proofs.Resource.Continuation
import Phrasebook.Proofs.Resource.Renumbering

namespace Phrasebook.Resource

open Phrasebook.Text
open Phrasebook.Unicode

/-- The first character that is no white space opens a comment. -/
def IsComment (line : List Char) : Prop :=
  (trimStart line).head? = some '#'

/-- The text of blocks with a line written between them. -/
def withLine (front : List Block) (line : List Char) (back : List Block) : String :=
  String.ofList (front.flatMap Block.source ++ (line ++ '\n' :: back.flatMap Block.source))

section Silence

variable {text : List Char} {block : Block}

theorem isComment_iff :
    IsComment text ↔
      ∃ space rest, text = space ++ '#' :: rest ∧ ∀ c ∈ space, isWhiteSpace c = true := by
  constructor
  · intro isComment
    obtain ⟨rest, solid⟩ := List.head?_eq_some_iff.mp isComment
    refine ⟨text.takeWhile isWhiteSpace, rest, ?_, fun c member => List.mem_takeWhile_imp member⟩
    rw [← solid]
    exact List.takeWhile_append_dropWhile.symm
  · rintro ⟨space, rest, rfl, blank⟩
    have solid : Stops isWhiteSpace ('#' :: rest) := stops_cons.mpr (by decide)
    rw [IsComment, trimStart, dropWhile_span blank solid]
    rfl

theorem said?_of_isComment (isComment : IsComment text) : said? text = none :=
  if_pos isComment

theorem IsComment.joined (isComment : IsComment text) (goesOn : continues text = true)
    (behind : List Char) : IsComment (text.dropLast ++ behind) := by
  obtain ⟨space, rest, rfl, blank⟩ := isComment_iff.mp isComment
  have more : rest ≠ [] := by
    rintro rfl
    rw [continues_append (continues_of_blank blank)] at goesOn
    exact absurd goesOn (by decide)
  refine isComment_iff.mpr ⟨space, rest.dropLast ++ behind, ?_, blank⟩
  rw [List.dropLast_append_of_ne_nil (List.cons_ne_nil _ _), List.dropLast_cons_of_ne_nil more,
    List.append_assoc, List.cons_append]

theorem Block.Joined.isComment (joined : block.Joined)
    (isComment : IsComment (lineOf block.first)) : IsComment block.text := by
  induction joined with
  | single piece => exact isComment
  | add _ goesOn piece ih =>
      rw [Block.text_add]
      exact (ih isComment).joined goesOn _

end Silence

section Swallowing

variable {block next : Block} {bs : List Block}

def Block.absorb (block : Block) (pieces : List (List Char)) : Block :=
  ⟨block.first, block.further ++ pieces⟩

theorem Block.absorb_append (block : Block) (front : List (List Char)) (piece : List Char) :
    block.absorb (front ++ [piece]) = (block.absorb front).add piece := by
  rw [absorb, absorb, add, List.append_assoc]

theorem Block.continues_add (goesOn : continues block.text = true) (piece : List Char) :
    continues (block.add piece).text = continues (trimEnd (lineOf piece)) := by
  rw [text_add, continues_joined goesOn]

/-- A block that goes on takes in the whole block behind it, each of whose lines but the last still
goes on. -/
theorem Block.Joined.absorbed (joined : next.Joined) (goesOn : continues block.text = true)
    (rest : List (List Char)) :
    Resource.gatherInto block (next.pieces ++ rest) =
        Resource.gatherInto (block.absorb next.pieces) rest ∧
      (continues next.text = true → continues (block.absorb next.pieces).text = true) := by
  induction joined generalizing rest with
  | single piece =>
      constructor
      · exact if_pos goesOn
      · intro goesOnNext
        have solid : trimEnd (lineOf piece) = lineOf piece :=
          trimEnd_of_stops (stops_of_continues goesOnNext)
        have added := Block.continues_add goesOn piece
        rw [solid] at added
        exact added.trans goesOnNext
  | @add next _ goesOnNext piece ih =>
      obtain ⟨gathered, still⟩ := ih (piece :: rest)
      have goesOnStill := still goesOnNext
      rw [Block.pieces_add, Block.absorb_append]
      constructor
      · rw [List.append_assoc, List.singleton_append, gathered, Resource.gatherInto,
          if_pos goesOnStill]
      · rw [Block.continues_add goesOnNext, Block.continues_add goesOnStill]
        exact id

theorem Gathered.swallowed (gathered : Gathered bs) (goesOn : continues block.text = true)
    (nonempty : bs ≠ []) :
    ∃ lost rest, bs = lost ++ rest ∧ lost ≠ [] ∧
      gatherInto block (bs.flatMap Block.pieces) =
        block.absorb (lost.flatMap Block.pieces) :: rest := by
  induction gathered generalizing block with
  | nil => exact absurd rfl nonempty
  | @last next joined =>
      obtain ⟨gathered, -⟩ := joined.absorbed goesOn []
      rw [List.append_nil] at gathered
      refine ⟨[next], [], rfl, List.cons_ne_nil _ _, ?_⟩
      rw [List.flatMap_singleton, gathered]
      rfl
  | @cons next others joined complete rest ih =>
      obtain ⟨gathered, -⟩ := joined.absorbed goesOn (others.flatMap Block.pieces)
      rw [List.flatMap_cons, gathered]
      by_cases stops : continues (block.absorb next.pieces).text = true ∧ others ≠ []
      · obtain ⟨lost, left, rfl, -, gatheredLater⟩ := ih stops.1 stops.2
        refine ⟨next :: lost, left, rfl, List.cons_ne_nil _ _, ?_⟩
        rw [gatheredLater, List.flatMap_cons]
        simp only [Block.absorb, List.append_assoc]
      · refine ⟨[next], others, rfl, List.cons_ne_nil _ _, ?_⟩
        rw [List.flatMap_singleton]
        rcases not_and_or.mp stops with ended | last
        · rw [gatherInto_complete (Bool.eq_false_iff.mpr ended), rest.gather_flatMap]
        · obtain rfl := not_not.mp last
          rfl

end Swallowing

section Writing

variable {source : String} {front back : List Block} {line : List Char}

theorem blocks_withLine (split : blocks source.toList = front ++ back) (between : back ≠ [])
    (oneLine : '\n' ∉ line) :
    blocks (withLine front line back).toList =
      front ++ gatherInto ⟨line ++ ['\n'], []⟩ (back.flatMap Block.pieces) := by
  have gathered : Gathered (front ++ back) := split ▸ gathered_gather (pieces source.toList)
  have pieced := pieced_pieces source.toList
  rw [← flatMap_pieces_blocks, split, List.flatMap_append] at pieced
  have nonempty : back.flatMap Block.pieces ≠ [] := by
    cases back with
    | nil => exact absurd rfl between
    | cons block back => simp [Block.pieces]
  have whole : (withLine front line back).toList =
      (front.flatMap Block.pieces ++
        (line ++ ['\n']) :: back.flatMap Block.pieces).flatten := by
    rw [withLine, String.toList_ofList, List.flatten_append, List.flatten_cons,
      flatten_flatMap_pieces, flatten_flatMap_pieces]
    simp
  rw [whole, blocks, (pieced.insert nonempty oneLine).pieces_flatten,
    gather_append (gathered.complete between)]
  rfl

/-- A block that says nothing and stands between others only moves the numbers behind it. -/
theorem parse_of_silent {other : String} {block : Block}
    (split : blocks source.toList = front ++ back)
    (splitOther : blocks other.toList = front ++ block :: back) (silent : said? block.text = none) :
    parseProperties other =
      (parseProperties source).mapError
        (ParseFailure.moved (movedFrom (lineBehind front) block.pieces.length)) := by
  rw [parseProperties, parseProperties, assignments_eq, assignments_eq, split, splitOther,
    assignmentsOf_silent silent, entryNodesOf_moved]

end Writing

/-- Written between two logical lines, a comment that does not end in an odd number of backslashes
moves the numbers of the lines behind it, and changes nothing else. Any other takes one of the
logical lines behind it along, or more: what is left is read as if they were not there. -/
theorem comments_inert {source : String} {front back : List Block} {comment : List Char}
    (split : blocks source.toList = front ++ back) (between : back ≠ []) (oneLine : '\n' ∉ comment)
    (isComment : IsComment (lineOf (comment ++ ['\n']))) :
    (¬ EndsOdd (lineOf (comment ++ ['\n'])) →
      parseProperties (withLine front comment back) =
        (parseProperties source).mapError (ParseFailure.moved (movedFrom (lineBehind front) 1))) ∧
    (EndsOdd (lineOf (comment ++ ['\n'])) →
      ∃ lost rest, back = lost ++ rest ∧ lost ≠ [] ∧
        parseProperties (withLine front comment back) =
          (parseProperties (String.ofList ((front ++ rest).flatMap Block.source))).mapError
            (ParseFailure.moved (movedFrom (lineBehind front)
              ((lost.flatMap Block.pieces).length + 1)))) := by
  have written := blocks_withLine split between oneLine
  have gathered : Gathered (front ++ back) := split ▸ gathered_gather (pieces source.toList)
  have gatheredBack : Gathered back := gathered.sublist (List.sublist_append_right front back)
  rw [← continues_iff_endsOdd]
  constructor
  · intro ended
    have complete : continues (Block.text ⟨comment ++ ['\n'], []⟩) = false :=
      Bool.eq_false_iff.mpr ended
    rw [gatherInto_complete complete, gatheredBack.gather_flatMap] at written
    exact parse_of_silent split written (said?_of_isComment isComment)
  · intro goesOn
    have opened : continues (Block.text ⟨comment ++ ['\n'], []⟩) = true := goesOn
    obtain ⟨lost, rest, rfl, nonempty, swallowed⟩ := gatheredBack.swallowed opened between
    rw [swallowed] at written
    have whole := gathered_gather (pieces (withLine front comment (lost ++ rest)).toList)
    rw [← blocks, written] at whole
    have joined := whole.joined _ (List.mem_append_right front List.mem_cons_self)
    have left : (front ++ rest).Sublist (blocks source.toList) := by
      rw [split]
      exact (List.sublist_append_right lost rest).append_left front
    refine ⟨lost, rest, rfl, nonempty, ?_⟩
    apply parse_of_silent _ written (said?_of_isComment (joined.isComment isComment))
    rw [String.toList_ofList]
    exact blocks_of_sublist left

theorem comments_inert_failure :
    parseProperties "a = text\na[one] = x" = .error (.malformedIndex 2 "text") ∧
    parseProperties "a = text\n # two\\\\\na[one] = x" = .error (.malformedIndex 3 "text") := by
  have split : blocks "a = text\na[one] = x".toList =
      [⟨"a = text\n".toList, []⟩] ++ [⟨"a[one] = x".toList, []⟩] := rfl
  have failed : parseProperties "a = text\na[one] = x" = .error (.malformedIndex 2 "text") := rfl
  have isComment : IsComment (lineOf (" # two\\\\".toList ++ ['\n'])) := by
    unfold IsComment
    decide
  have even : ¬ EndsOdd (lineOf (" # two\\\\".toList ++ ['\n'])) := by
    rw [← continues_iff_endsOdd]
    decide
  have written : withLine [⟨"a = text\n".toList, []⟩] " # two\\\\".toList
      [⟨"a[one] = x".toList, []⟩] = "a = text\n # two\\\\\na[one] = x" := by decide
  obtain ⟨complete, -⟩ := comments_inert split (List.cons_ne_nil _ _) (by decide) isComment
  have same := complete even
  rw [written, failed] at same
  exact ⟨failed, same⟩

/-- A folder's name at the end of a comment hides the phrase behind it. -/
theorem comment_swallows_line :
    let comment := "# see C:\\dir\\".toList
    blocks "a = x\nb = y".toList = [⟨"a = x\n".toList, []⟩] ++ [⟨"b = y".toList, []⟩] ∧
    '\n' ∉ comment ∧ IsComment (lineOf (comment ++ ['\n'])) ∧
    parseProperties "a = x\nb = y" =
      .ok [⟨"a", some (.raw "x"), none, []⟩, ⟨"b", some (.raw "y"), none, []⟩] ∧
    parseProperties (withLine [⟨"a = x\n".toList, []⟩] comment [⟨"b = y".toList, []⟩]) =
      .ok [⟨"a", some (.raw "x"), none, []⟩] := by
  refine ⟨rfl, by decide, ?_, rfl, rfl⟩
  unfold IsComment
  decide

end Phrasebook.Resource
