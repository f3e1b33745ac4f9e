import Phrasebook.Entry.Compile
import Phrasebook.Proofs.Node.Splitting
import Phrasebook.Proofs.Node.Written

namespace Phrasebook

open Placeable

section Source

variable (scan : String → Expression)

mutual

theorem source_part : (node : Node) → node.Scannable →
    (node.part scan).source.toList = node.written
  | .identifier _, _ => rfl
  | .call (.identifier name) arguments, ⟨_, scannable⟩ => by
      have written := intercalate_sources arguments scannable
      simp [Node.part, Expression.source, Node.written, written]

theorem intercalate_sources : (nodes : List Node) → Node.AllScannable nodes →
    [',', ' '].intercalate ((Expression.sources (Node.parts scan nodes)).map String.toList) =
      Node.writtenArguments nodes
  | [], _ => rfl
  | [node], ⟨scannable, _⟩ => by
      simp [Node.parts, Expression.sources, Node.writtenArguments, Node.writtenFurther,
        source_part node scannable]
  | first :: next :: rest, ⟨scannable, others⟩ => by
      have written := intercalate_sources (next :: rest) others
      simp only [Node.parts, Expression.sources, List.map_cons] at written ⊢
      rw [List.intercalate_cons_cons, written, source_part first scannable]
      simp [Node.writtenArguments, Node.writtenFurther]

end

end Source

/-- The text of nodes that are the parts of one text. -/
def rendered (nodes : List Node) : List Char :=
  (Expression.sourceOfParts (Node.parts .literal nodes)).toList

theorem rendered_raw (piece : List Char) (nodes : List Node) :
    rendered (.raw (String.ofList piece) :: nodes) = piece ++ rendered nodes := by
  simp [rendered, Node.parts, Node.part, Expression.sourceOfParts]

theorem rendered_scannable {node : Node} (scannable : node.Scannable) (nodes : List Node) :
    rendered (node :: nodes) =
      '{' :: '{' :: ([' '] ++ (node.written ++ ([' '] ++ ['}', '}']))) ++ rendered nodes := by
  have source := source_part .literal node scannable
  cases node with
  | identifier => simp [rendered, Node.parts, Node.part, Expression.sourceOfParts, ← source]
  | call => simp [rendered, Node.parts, Node.part, Expression.sourceOfParts, ← source]
  | _ => exact scannable.elim

namespace Placeable

theorem IsPlaceable.braces {piece : List Char} {node : Node}
    (placeable : IsPlaceable piece node) :
    ∃ tail, piece = '{' :: '{' :: tail ∧ tail ≠ [] ∧ '{' ∉ tail := by
  cases placeable with
  | braced before spelled after =>
      have foreign : Foreign '{' := by decide
      exact ⟨_, rfl, by simp, by
        simp [before.not_mem foreign, spelled.not_mem foreign, after.not_mem foreign]⟩

/-- A placeable has no opening brace behind its first two. So it cannot reach into the braces of
another. -/
theorem IsPlaceable.prefix_of_braces {piece left rest more : List Char} {node : Node}
    (placeable : IsPlaceable piece node) (nonempty : left ≠ [])
    (same : piece ++ more = left ++ '{' :: '{' :: rest) : piece <+: left := by
  obtain ⟨tail, rfl, going, closed⟩ := placeable.braces
  obtain ⟨behind, split, -⟩ | ⟨behind, split, ends⟩ := List.append_eq_append_iff.mp same
  · exact ⟨behind, split.symm⟩
  -- It would end behind one of the two braces, which then stands in its tail.
  · match left, behind with
    | [], _ => exact absurd rfl nonempty
    | left, [] => exact ⟨[], by simpa using split⟩
    | [_], brace :: behind =>
        obtain ⟨next, tail, rfl⟩ := List.exists_cons_of_ne_nil going
        simp only [List.cons_append, List.nil_append, List.cons.injEq] at split ends
        obtain ⟨-, -, rfl⟩ := split
        obtain ⟨-, rfl, -⟩ := ends
        exact absurd List.mem_cons_self closed
    | _ :: _ :: left, brace :: behind =>
        simp only [List.cons_append, List.cons.injEq] at split ends
        obtain ⟨-, -, rfl⟩ := split
        obtain ⟨rfl, -⟩ := ends
        exact absurd (by simp) closed

theorem Decomposes.opens {rest : List Char} {nodes : List Node} (decomposed : Decomposes rest nodes)
    (apart : ∀ node ∈ nodes.head?, node.isRaw = false) :
    rest = [] ∧ nodes = [] ∨
      ∃ tail, rest = '{' :: '{' :: tail ∧ ∃ behind, rendered nodes = '{' :: '{' :: behind := by
  cases decomposed with
  | nil => exact .inl ⟨rfl, rfl⟩
  | placeable placeable _ =>
      right
      cases placeable with
      | braced _ spelled _ =>
          exact ⟨_, rfl, _, rendered_scannable (Node.scannable_of_spells spelled) _⟩
  | literal =>
      have expression := apart _ rfl
      cases expression

theorem isPlaceable_written {node : Node} (scannable : node.Scannable) :
    IsPlaceable ('{' :: '{' :: ([' '] ++ (node.written ++ ([' '] ++ ['}', '}'])))) node :=
  .braced blank_space (Node.spells_written node scannable) blank_space

theorem Decomposes.rendered {text : List Char} {nodes : List Node}
    (decomposed : Decomposes text nodes) : Decomposes (rendered nodes) nodes := by
  induction decomposed with
  | nil => exact .nil
  | placeable placeable _ ih =>
      cases placeable with
      | braced _ spelled _ =>
          have scannable := Node.scannable_of_spells spelled
          rw [rendered_scannable scannable]
          exact .placeable (isPlaceable_written scannable) ih
  | @literal piece rest nodes nonempty barren apart others ih =>
      rw [rendered_raw]
      refine .literal nonempty ?_ apart ih
      rintro left starts suffix ⟨placed, node, placeable, more, same⟩
      obtain ⟨rfl, rfl⟩ | ⟨tail, rfl, behind, opened⟩ := others.opens apart
      · exact barren left starts suffix ⟨placed, node, placeable, more, same⟩
      -- Both texts go on with braces, so a placeable that starts in the piece also ends in it.
      · rw [opened] at same
        have inside := placeable.prefix_of_braces starts same
        exact barren left starts suffix
          ⟨placed, node, placeable, inside.trans (List.prefix_append _ _)⟩

end Placeable

namespace Expression

mutual

/-- References by names that the scanner reads, and calls of them with any such arguments. -/
def Spellable : Expression → Prop
  | .reference name => IsName name
  | .call (.reference name) arguments => IsName name ∧ AllSpellable arguments
  | _ => False

def AllSpellable : List Expression → Prop
  | [] => True
  | expression :: rest => expression.Spellable ∧ AllSpellable rest

end

mutual

theorem exists_part (scan : String → Expression) : (expression : Expression) →
    expression.Spellable → ∃ node : Node, node.Scannable ∧ node.part scan = expression
  | .reference name, isName => ⟨.identifier name, isName, rfl⟩
  | .call (.reference name) arguments, ⟨isName, spellable⟩ => by
      obtain ⟨nodes, scannable, same⟩ := exists_parts scan arguments spellable
      exact ⟨.call (.identifier name) nodes, ⟨isName, scannable⟩, by simp [Node.part, same]⟩

theorem exists_parts (scan : String → Expression) : (expressions : List Expression) →
    AllSpellable expressions →
      ∃ nodes : List Node, Node.AllScannable nodes ∧ Node.parts scan nodes = expressions
  | [], _ => ⟨[], trivial, rfl⟩
  | expression :: rest, ⟨spellable, others⟩ => by
      obtain ⟨node, scannable, same⟩ := exists_part scan expression spellable
      obtain ⟨nodes, allScannable, allSame⟩ := exists_parts scan rest others
      exact ⟨node :: nodes, ⟨scannable, allScannable⟩, by rw [Node.parts, same, allSame]⟩

end

theorem ofExpression?_source {expression : Expression} (spellable : expression.Spellable) :
    (Node.ofExpression? expression.source.toList).map Node.compile = some expression := by
  obtain ⟨node, scannable, rfl⟩ := exists_part .ofRaw expression spellable
  rw [source_part .ofRaw node scannable, (Node.ofExpression?_written scannable).1]
  cases node with
  | raw => exact scannable.elim
  | _ => rfl

end Expression

/-- The parts that a text is split into are found again in the text they are written back to, and
every expression that can be written in a placeable is found again in its source. -/
theorem rendering_undoes_splitting :
    (∀ text, splitPlaceables
        (Expression.sourceOfParts (Node.parts .literal (splitPlaceables text))) =
      splitPlaceables text) ∧
    ∀ expression : Expression, expression.Spellable →
      (Node.ofExpression? expression.source.toList).map Node.compile = some expression := by
  refine ⟨fun text => ?_, fun expression => Expression.ofExpression?_source⟩
  exact splitPlaceables_of_decomposes (decomposes_splitPlaceables text).rendered

theorem rendering_undoes_splitting_count :
    let count : Expression :=
      .call (.reference "plural") [.reference "n", .call (.reference "all") []]
    let text := "\x7b\x7b\x7bplural( n ,all( ))\x7d\x7d \x7b\x7b x y \x7d\x7d"
    let again := Expression.sourceOfParts (Node.parts .literal (splitPlaceables text))
    count.Spellable ∧ count.source = "plural(n, all())" ∧
    (Node.ofExpression? count.source.toList).map Node.compile = some count ∧
    again = "\x7b\x7b\x7b plural(n, all()) \x7d\x7d \x7b\x7b x y \x7d\x7d" ∧
    splitPlaceables again = splitPlaceables text := by
  intro count text again
  have isName : ∀ name ∈ ["plural", "n", "all"], IsName name := by
    simp [IsName, isNameChar, Unicode.isAlphanumeric]
  have spellable : count.Spellable :=
    ⟨isName _ (by simp), isName _ (by simp), ⟨isName _ (by simp), trivial⟩, trivial⟩
  exact ⟨spellable, by decide +kernel, rendering_undoes_splitting.2 count spellable,
    by decide +kernel, rendering_undoes_splitting.1 text⟩

end Phrasebook
