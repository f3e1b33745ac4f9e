import Phrasebook.Node.Placeable
import Phrasebook.Resource.Assignment
import Phrasebook.Resource.Failure

/-! The line format: assignments fill slots, one for each value and each attribute of a phrase. -/

namespace Phrasebook.Resource

open Phrasebook.Text

inductive SlotValue where
  | plain (text : List Char)
  | members (items : Table Node)

structure Slot where
  value? : Option SlotValue := none
  selector? : Option Node := none

/-- The selector in a value of the form `{[ selector ]}`. -/
def readSelector? (text : List Char) : Option Node :=
  match trim text with
  | '{' :: '[' :: rest =>
      if trim (rest.dropWhile (· ≠ ']')) = [']', '}'] then
        Node.ofExpression? (rest.takeWhile (· ≠ ']'))
      else none
  | _ => none

def Slot.setPlain (slot : Slot) (value : List Char) : Slot :=
  { slot with value? := some (.plain value) }

def Slot.setMember (slot : Slot) (line : Nat) (key value : List Char) :
    Except ParseFailure Slot :=
  let key := String.ofList key
  let node := Node.raw (String.ofList value)
  match slot.value? with
  | none => .ok { slot with value? := some (.members [(key, node)]) }
  | some (.members items) =>
      .ok { slot with value? := some (.members (Table.insert key node items)) }
  | some (.plain text) =>
      match readSelector? text with
      | some selector => .ok ⟨some (.members [(key, node)]), some selector⟩
      | none => .error (.malformedIndex line (String.ofList text))

def Slot.assign (slot : Slot) (a : Assignment) : Except ParseFailure Slot :=
  match a.member? with
  | some key => slot.setMember a.line key a.value
  | none => .ok (slot.setPlain a.value)

def SlotValue.toNode : SlotValue → Node
  | .plain text => .raw (String.ofList text)
  | .members items => .hash items none

def Slot.node? (slot : Slot) : Option Node :=
  slot.value?.map SlotValue.toNode

def Slot.index? (slot : Slot) : Option (List Node) :=
  slot.selector?.map ([·])

def Slot.attribute? (slot : Slot) : Option AttributeNode :=
  match slot.node?, slot.index? with
  | none, _ => none
  | some value, none => some (.plain value)
  | some value, some index => some (.indexed value index)

structure Draft where
  value : Slot := {}
  attributes : Table Slot := []

/-- Which slot a name means: the value of a phrase, or one of its attributes. -/
structure Target where
  id : List Char
  attribute? : Option (List Char)
deriving DecidableEq

/-- A name with one dot means an attribute; one with more means nothing. -/
def Target.ofName? (name : List Char) : Option Target :=
  let id := name.takeWhile (· ≠ '.')
  match name.dropWhile (· ≠ '.') with
  | [] => some ⟨id, none⟩
  | _ :: name =>
      if name.contains '.' then none else some ⟨id, some name⟩

def Draft.assign (draft : Draft) (target : Target) (a : Assignment) :
    Except ParseFailure Draft :=
  match target.attribute? with
  | none => (draft.value.assign a).map fun slot => { draft with value := slot }
  | some name =>
      let name := String.ofList name
      (((draft.attributes.find? name).getD {}).assign a).map fun slot =>
        { draft with attributes := Table.insert name slot draft.attributes }

abbrev Drafts := List (String × Draft)

def Drafts.update (id : String) (change : Draft → Except ParseFailure Draft) :
    Drafts → Except ParseFailure Drafts
  | [] => (change {}).map fun draft => [(id, draft)]
  | (other, draft) :: rest =>
      if other = id then (change draft).map fun draft => (other, draft) :: rest
      else (Drafts.update id change rest).map ((other, draft) :: ·)

def Drafts.assign (drafts : Drafts) (a : Assignment) : Except ParseFailure Drafts :=
  match Target.ofName? a.name with
  | none => .error (.nestedAttribute a.line (String.ofList a.name))
  | some target =>
      Drafts.update (String.ofList target.id) (fun draft => draft.assign target a) drafts

def attributeNodes (slots : Table Slot) : Table AttributeNode :=
  slots.filterMap fun entry => entry.2.attribute?.map (entry.1, ·)

def Draft.toNode (id : String) (draft : Draft) : EntryNode where
  id := id
  value? := draft.value.node?
  index? := draft.value.index?
  attributes := attributeNodes draft.attributes

def entryNodesOf (assignments : List Assignment) : Except ParseFailure (List EntryNode) :=
  (assignments.foldlM Drafts.assign []).map fun drafts =>
    drafts.map fun entry => entry.2.toNode entry.1

def parseProperties (source : String) : Except ParseFailure (List EntryNode) :=
  entryNodesOf (assignments source.toList)

end Phrasebook.Resource
