import Phrasebook.Proofs.Resource.Blocks
import Phrasebook.Proofs.Resource.Continuation

namespace Phrasebook.Resource

open Phrasebook.Text

/-- The first of some lines as it stands, and the further ones without their outer white space. -/
def inset : List (List Char) → List (List Char)
  | [] => []
  | line :: further => line :: further.map trim

/-- A text spliced from lines. Every line but the last goes on, and loses the backslash that says
so. -/
inductive Spliced : List (List Char) → List Char → Prop
  | last (line : List Char) : Spliced [line] line
  | goesOn {front text : List Char} {further : List (List Char)}
      (odd : EndsOdd (front ++ ['\\'])) (rest : Spliced further text) :
      Spliced ((front ++ ['\\']) :: further) (front ++ text)

def Block.lines (block : Block) : List (List Char) :=
  block.pieces.map lineOf

section Splicing

variable {text front : List Char} {parts : List (List Char)} {block : Block}

theorem EndsOdd.exists_front (odd : EndsOdd text) : ∃ front, text = front ++ ['\\'] := by
  obtain ⟨front, count, rfl, -, isOdd⟩ := odd
  cases count with
  | zero => cases isOdd
  | succ count =>
      refine ⟨front ++ List.replicate count '\\', ?_⟩
      rw [List.replicate_succ', List.append_assoc]

/-- The dropped backslash leaves an even number, so that what follows ends by its own text. -/
theorem endsOdd_behind (odd : EndsOdd (front ++ ['\\'])) :
    EndsOdd (front ++ text) ↔ EndsOdd text := by
  have even := continues_dropLast (continues_iff_endsOdd.mpr odd)
  rw [List.dropLast_concat] at even
  rw [← continues_iff_endsOdd, ← continues_iff_endsOdd, continues_append even]

theorem Spliced.add (spliced : Spliced parts text) (odd : EndsOdd text) (line : List Char) :
    Spliced (parts ++ [line]) (text.dropLast ++ line) := by
  induction spliced with
  | last whole =>
      obtain ⟨front, rfl⟩ := odd.exists_front
      rw [List.dropLast_concat]
      exact .goesOn odd (.last line)
  | @goesOn front text further oddFront _ ih =>
      have oddText := (endsOdd_behind oddFront).mp odd
      have nonempty : text ≠ [] := by
        obtain ⟨body, rfl⟩ := oddText.exists_front
        exact List.concat_ne_nil _ _
      rw [List.dropLast_append_of_ne_nil nonempty, List.append_assoc]
      exact .goesOn oddFront (ih oddText)

theorem inset_add (block : Block) (piece : List Char) :
    inset (block.add piece).lines = inset block.lines ++ [trim (lineOf piece)] := by
  simp [inset, Block.lines, Block.pieces, Block.add]

theorem Block.Joined.spliced (joined : block.Joined) : Spliced (inset block.lines) block.text := by
  induction joined with
  | single piece => exact .last (lineOf piece)
  | add _ goesOn piece ih =>
      rw [inset_add, Block.text_add]
      exact ih.add (continues_iff_endsOdd.mp goesOn) _

end Splicing

section Counting

theorem flatten_map_lines (bs : List Block) :
    (bs.map Block.lines).flatten = (bs.flatMap Block.pieces).map lineOf := by
  rw [List.map_flatMap, List.flatMap_def]
  rfl

theorem length_flatten_map_lines (bs : List Block) :
    (bs.map Block.lines).flatten.length = (bs.flatMap Block.pieces).length := by
  rw [flatten_map_lines, List.length_map]

theorem length_numbered (start : Nat) (bs : List Block) :
    (numbered start bs).length = bs.length := by
  have texts := congrArg List.length (map_text_numbered start bs)
  rwa [List.length_map, List.length_map] at texts

theorem getElem?_numbered (start : Nat) (front : List Block) (block : Block) (back : List Block) :
    (numbered start (front ++ block :: back))[front.length]? =
      some ⟨start + (front.flatMap Block.pieces).length, block.text⟩ := by
  rw [numbered_append, ← length_numbered start front, List.getElem?_append_right le_rfl,
    Nat.sub_self, numbered]
  rfl

end Counting

/-- The physical lines of a text fall into groups, one behind the other and none of them empty, one
for each logical line. A logical line bears the number of the first line of its group, counted from
one, and is spliced from the first line and the trimmed further ones, each but the last without the
backslash at its end. A group is complete where another one follows. -/
theorem logicalLines_partition (source : List Char) :
    ∃ groups : List (List (List Char)),
      groups.flatten = lines source ∧ [] ∉ groups ∧
      (logicalLines source).length = groups.length ∧
      ∀ front group back, groups = front ++ group :: back →
        ∃ text,
          (logicalLines source)[front.length]? = some ⟨front.flatten.length + 1, text⟩ ∧
          (lines source)[front.flatten.length]? = group.head? ∧
          Spliced (inset group) text ∧ (back ≠ [] → ¬ EndsOdd text) := by
  have gathered : Gathered (blocks source) := gathered_gather (pieces source)
  have whole : ((blocks source).map Block.lines).flatten = lines source := by
    rw [flatten_map_lines, flatMap_pieces_blocks, lines_eq_map_pieces]
  refine ⟨(blocks source).map Block.lines, whole, ?_, ?_, ?_⟩
  · intro member
    obtain ⟨block, -, isEmpty⟩ := List.mem_map.mp member
    cases isEmpty
  · rw [logicalLines_eq, length_numbered, List.length_map]
  · intro front group back split
    obtain ⟨before, others, cut, rfl, rest⟩ := List.map_eq_append_iff.mp split
    obtain ⟨block, behind, rfl, rfl, rfl⟩ := List.map_eq_cons_iff.mp rest
    refine ⟨block.text, ?_, ?_, ?_, ?_⟩
    · rw [logicalLines_eq, cut, List.length_map, getElem?_numbered, length_flatten_map_lines,
        Nat.add_comm]
    · rw [← whole, cut, List.map_append, List.flatten_append,
        List.getElem?_append_right le_rfl, Nat.sub_self]
      rfl
    · exact (gathered.joined block (cut ▸ List.mem_append_right _ List.mem_cons_self)).spliced
    · intro followed
      rw [cut, ← List.singleton_append, ← List.append_assoc] at gathered
      have between : behind ≠ [] := fun none => followed (congrArg _ none)
      have complete := (gathered.complete between block (by simp)).2
      rw [← continues_iff_endsOdd, complete]
      exact Bool.false_ne_true

end Phrasebook.Resource
