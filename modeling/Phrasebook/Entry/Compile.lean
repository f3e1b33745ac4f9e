import Phrasebook.Entry.Basic
import Phrasebook.Node.Placeable

namespace Phrasebook

mutual

/-- A node as a part of something; `scan` compiles raw text that stands for a value. -/
def Node.part (scan : String → Expression) : Node → Expression
  | .raw text => .literal text
  | .identifier name => .reference name
  | .string content => .literal content
  | .complexString content => .pattern (Node.parts scan content)
  | .hash items default? => .selection (Node.branches scan items) default?
  | .call callee arguments => .call (callee.part scan) (Node.parts scan arguments)

def Node.parts (scan : String → Expression) : List Node → List Expression
  | [] => []
  | node :: nodes => node.part scan :: Node.parts scan nodes

def Node.branches (scan : String → Expression) :
    List (String × Node) → List (String × Expression)
  | [] => []
  | (key, .raw text) :: items => (key, scan text) :: Node.branches scan items
  | (key, node) :: items => (key, node.part scan) :: Node.branches scan items

end

/-- Raw text that stands for a value. The parts it is split into hold no hash. -/
def Expression.ofRaw (text : String) : Expression :=
  if hasPlaceables text then .pattern (Node.parts .literal (splitPlaceables text))
  else .literal text

def Node.compile : Node → Expression
  | .raw text => .ofRaw text
  | node => node.part .ofRaw

def Node.literal? : Node → Option String
  | .raw text => if hasPlaceables text then none else some text
  | .string content => some content
  | _ => none

/-- A literal without selectors is bare, unless something else makes its entry complex. -/
def Phrase.ofNode (bareAllowed : Bool) (value? : Option Node) (index : List Node) : Phrase :=
  match value?.bind Node.literal?, index, bareAllowed with
  | some text, [], true => .bare text
  | _, index, _ => .complex (value?.map Node.compile) (index.map Node.compile)

def AttributeNode.compile : AttributeNode → Phrase
  | .plain value => .ofNode true (some value) []
  | .indexed value index => .ofNode true (some value) index

/-- Attributes make an entry complex. -/
def EntryNode.compile (node : EntryNode) : Entry where
  phrase := .ofNode node.attributes.isEmpty node.value? (node.index?.getD [])
  attributes := Table.ofList (node.attributes.mapValues AttributeNode.compile)

/-- The entries of a resource; a later node replaces an earlier one of the same name. -/
def Entries.ofNodes (nodes : List EntryNode) : Entries :=
  Table.ofList (nodes.map fun node => (node.id, node.compile))

end Phrasebook
