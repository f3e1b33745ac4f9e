import Phrasebook.Proofs.Node.Grammar

namespace Phrasebook

open Phrasebook.Text
open Phrasebook.Unicode

namespace Node

open Placeable

mutual

def written : Node → List Char
  | .identifier name => name.toList
  | .call callee arguments => callee.written ++ '(' :: (writtenArguments arguments ++ [')'])
  | _ => []

def writtenArguments : List Node → List Char
  | [] => []
  | first :: rest => first.written ++ writtenFurther rest

def writtenFurther : List Node → List Char
  | [] => []
  | next :: rest => ',' :: ' ' :: (next.written ++ writtenFurther rest)

end

mutual

/-- Names, and calls of names, down to the last argument. -/
def Scannable : Node → Prop
  | .identifier name => IsName name
  | .call (.identifier name) arguments => IsName name ∧ AllScannable arguments
  | _ => False

def AllScannable : List Node → Prop
  | [] => True
  | node :: nodes => node.Scannable ∧ AllScannable nodes

end

mutual

theorem spells_written : (node : Node) → node.Scannable → Spells node.written node
  | .identifier _, isName => .name isName
  | .call (.identifier _) arguments, ⟨isName, scannable⟩ => by
      have spelled := spellsAll_written arguments scannable
      simpa [written] using Spells.call isName blank_nil spelled blank_nil

theorem spellsAll_written :
    (nodes : List Node) → AllScannable nodes → SpellsAll (writtenArguments nodes) nodes
  | [], _ => .nil
  | first :: rest, ⟨scannable, others⟩ =>
      .cons (spells_written first scannable) (spellsFurther_written rest others)

theorem spellsFurther_written :
    (nodes : List Node) → AllScannable nodes → SpellsFurther (writtenFurther nodes) nodes
  | [], _ => .nil
  | next :: rest, ⟨scannable, others⟩ =>
      .cons blank_nil blank_space (spells_written next scannable)
        (spellsFurther_written rest others)

end

mutual

theorem scannable_of_spells : ∀ {text : List Char} {node : Node}, Spells text node → node.Scannable
  | _, _, .name isName => isName
  | _, _, .call isName _ spelled _ => ⟨isName, allScannable_of_spellsAll spelled⟩

theorem allScannable_of_spellsAll :
    ∀ {text : List Char} {nodes : List Node}, SpellsAll text nodes → AllScannable nodes
  | _, _, .nil => trivial
  | _, _, .cons first others =>
      ⟨scannable_of_spells first, allScannable_of_spellsFurther others⟩

theorem allScannable_of_spellsFurther :
    ∀ {text : List Char} {nodes : List Node}, SpellsFurther text nodes → AllScannable nodes
  | _, _, .nil => trivial
  | _, _, .cons _ _ next others =>
      ⟨scannable_of_spells next, allScannable_of_spellsFurther others⟩

end

/-- An expression is found again in its written form, with or without space around it. -/
theorem ofExpression?_written {node : Node} (scannable : node.Scannable) :
    Node.ofExpression? node.written = some node ∧
      Node.ofExpression? (' ' :: (node.written ++ [' '])) = some node := by
  have spelled := spells_written node scannable
  constructor
  · apply Node.ofExpression?_eq_some_iff.mpr
    exact ⟨[], _, [], blank_nil, spelled, blank_nil, by simp⟩
  · apply Node.ofExpression?_eq_some_iff.mpr
    exact ⟨[' '], _, [' '], blank_space, spelled, blank_space, rfl⟩

end Node

end Phrasebook
