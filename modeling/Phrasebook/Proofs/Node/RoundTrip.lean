import Phrasebook.Node.Interchange
import Phrasebook.Proofs.Json.RoundTrip

namespace Phrasebook

mutual

/-- Tables stand in the order of their names at every depth. -/
def Node.Sorted : Node → Prop
  | .complexString content => Node.AllSorted content
  | .hash items _ => Table.Ascending items ∧ Node.ItemsSorted items
  | .call callee arguments => callee.Sorted ∧ Node.AllSorted arguments
  | _ => True

def Node.AllSorted : List Node → Prop
  | [] => True
  | node :: nodes => node.Sorted ∧ Node.AllSorted nodes

def Node.ItemsSorted : List (String × Node) → Prop
  | [] => True
  | (_, node) :: items => node.Sorted ∧ Node.ItemsSorted items

end

def AttributeNode.Sorted : AttributeNode → Prop
  | .plain value => value.Sorted
  | .indexed value index => value.Sorted ∧ Node.AllSorted index

structure EntryNode.Sorted (entry : EntryNode) : Prop where
  value : ∀ node, entry.value? = some node → node.Sorted
  index : ∀ nodes, entry.index? = some nodes → Node.AllSorted nodes
  attributes : Table.Ascending entry.attributes
  ofAttributes : ∀ member ∈ entry.attributes, member.2.Sorted

namespace Node

theorem toJsons_eq_map (nodes : List Node) : toJsons nodes = nodes.map toJson := by
  induction nodes with
  | nil => rfl
  | cons node nodes ih => rw [toJsons, ih, List.map_cons]

theorem AllSorted.of_mem {nodes : List Node} (sorted : AllSorted nodes) :
    ∀ node ∈ nodes, node.Sorted := by
  induction nodes with
  | nil => exact nofun
  | cons node nodes ih => exact List.forall_mem_cons.mpr ⟨sorted.1, ih sorted.2⟩

theorem toJson_ne_null (node : Node) : node.toJson ≠ .null := by
  cases node <;> exact nofun

mutual

theorem toJson_numberless : ∀ node : Node, node.toJson.Numberless
  | .raw _ => trivial
  | .identifier _ => ⟨trivial, trivial, trivial⟩
  | .string _ => ⟨trivial, trivial, trivial⟩
  | .complexString content => ⟨trivial, toJsons_numberless content, trivial⟩
  | .hash items none => ⟨trivial, toMembers_numberless items, trivial⟩
  | .hash items (some _) => ⟨trivial, toMembers_numberless items, trivial, trivial⟩
  | .call callee arguments =>
      ⟨trivial, toJson_numberless callee, toJsons_numberless arguments, trivial⟩

theorem toJsons_numberless : ∀ nodes : List Node, Json.NumberlessItems (toJsons nodes)
  | [] => trivial
  | node :: nodes => ⟨toJson_numberless node, toJsons_numberless nodes⟩

theorem toMembers_numberless :
    ∀ items : List (String × Node), Json.NumberlessMembers (toMembers items)
  | [] => trivial
  | (_, node) :: items => ⟨toJson_numberless node, toMembers_numberless items⟩

end

mutual

theorem ofJson?_toJson : ∀ node : Node, node.Sorted → Node.ofJson? node.toJson = some node
  | .raw text, _ => rfl
  | .identifier name, _ => by
      simp [toJson, ofJson?, Reading.ofJson, Reading.ofMembers, ofMembers?, onlyMember?,
        NodeType.ofJson?, ofIdentifier?]
  | .string content, _ => by
      simp [toJson, ofJson?, Reading.ofJson, Reading.ofMembers, ofMembers?, onlyMember?,
        NodeType.ofJson?, ofString?]
  | .complexString content, sorted => by
      have read := ofItems_toJsons content sorted
      simp [toJson, ofJson?, Reading.ofJson, Reading.ofMembers, ofMembers?, onlyMember?,
        NodeType.ofJson?, ofComplexString?, read]
  | .hash items none, ⟨ascending, sorted⟩ => by
      have read := tableItems?_toMembers items sorted
      simp [toJson, ofJson?, Reading.ofJson, Reading.ofMembers, ofMembers?, onlyMember?,
        NodeType.ofJson?, ofHash?, optionalMember, read, Table.ofList_of_ascending ascending]
  | .hash items (some key), ⟨ascending, sorted⟩ => by
      have read := tableItems?_toMembers items sorted
      simp [toJson, ofJson?, Reading.ofJson, Reading.ofMembers, ofMembers?, onlyMember?,
        NodeType.ofJson?, ofHash?, optionalMember, read, Table.ofList_of_ascending ascending,
        Reading.default?]
  | .call callee arguments, ⟨calleeSorted, argumentsSorted⟩ => by
      have readCallee := ofJson?_toJson callee calleeSorted
      have readArguments := ofItems_toJsons arguments argumentsSorted
      rw [ofJson?] at readCallee
      simp [toJson, ofJson?, Reading.ofJson, Reading.ofMembers, ofMembers?, onlyMember?,
        NodeType.ofJson?, ofCall?, readCallee, readArguments]

theorem ofItems_toJsons : ∀ nodes : List Node, AllSorted nodes →
    (Reading.ofItems (toJsons nodes)).mapM Reading.node? = some nodes
  | [], _ => rfl
  | node :: nodes, ⟨sorted, later⟩ => by
      have here := ofJson?_toJson node sorted
      have others := ofItems_toJsons nodes later
      rw [ofJson?] at here
      simp [toJsons, Reading.ofItems, here, others]

theorem tableItems?_toMembers : ∀ items : List (String × Node), ItemsSorted items →
    tableItems? (Reading.ofMembers (toMembers items)) = some items
  | [], _ => rfl
  | (key, node) :: items, ⟨sorted, later⟩ => by
      have here := ofJson?_toJson node sorted
      have others := tableItems?_toMembers items later
      rw [ofJson?] at here
      simp [toMembers, Reading.ofMembers, tableItems?, here, others]

end

end Node

namespace AttributeNode

theorem toJson_numberless (node : AttributeNode) : node.toJson.Numberless := by
  cases node with
  | plain value => exact value.toJson_numberless
  | indexed value index =>
      exact ⟨value.toJson_numberless, Node.toJsons_numberless index, trivial⟩

theorem ofJson?_toJson {node : AttributeNode} (sorted : node.Sorted) :
    AttributeNode.ofJson? node.toJson = some node := by
  cases node with
  | plain value =>
      simp only [toJson, ofJson?, Node.ofJson?_toJson value sorted]
  | indexed value index =>
      have readValue := Node.ofJson?_toJson value sorted.1
      have readIndex := Node.ofItems_toJsons index sorted.2
      rw [Node.ofJson?] at readValue
      simp [toJson, ofJson?, Node.ofJson?, Reading.ofJson, Reading.ofMembers, Node.ofMembers?,
        onlyMember?, readValue, readIndex]

end AttributeNode

theorem numberlessMembers_optionalMember {value? : Option Json.Value} (name : String)
    (numberless : ∀ value, value? = some value → value.Numberless) :
    Json.NumberlessMembers (optionalMember name value?) := by
  cases value? with
  | none => exact trivial
  | some value => exact ⟨numberless value rfl, trivial⟩

namespace EntryNode

def membersBehindId (entry : EntryNode) : List (String × Json.Value) :=
  optionalMember "value" (entry.value?.map Node.toJson) ++
    (optionalMember "index" (entry.index?.map fun index => .array (Node.toJsons index)) ++
      (optionalMember "attrs"
        (if entry.attributes.isEmpty then none
          else some (.object (entry.attributes.mapValues AttributeNode.toJson))) ++ []))

theorem toJson_eq (entry : EntryNode) :
    entry.toJson = .object (("id", .string entry.id) :: membersBehindId entry) := by
  simp only [EntryNode.toJson, membersBehindId]
  split <;> simp [optionalMember]

theorem toJson_numberless (entry : EntryNode) : entry.toJson.Numberless := by
  rw [toJson_eq]
  refine ⟨trivial, ?_⟩
  simp only [membersBehindId, Json.numberlessMembers_append]
  refine ⟨?_, ?_, ?_, trivial⟩
  · apply numberlessMembers_optionalMember
    intro json given
    obtain ⟨node, -, rfl⟩ := Option.map_eq_some_iff.mp given
    exact node.toJson_numberless
  · apply numberlessMembers_optionalMember
    intro json given
    obtain ⟨nodes, -, rfl⟩ := Option.map_eq_some_iff.mp given
    exact Node.toJsons_numberless nodes
  · apply numberlessMembers_optionalMember
    intro json given
    split at given
    · cases given
    · cases given
      exact Json.numberlessMembers_mapValues AttributeNode.toJson_numberless entry.attributes

end EntryNode

end Phrasebook
