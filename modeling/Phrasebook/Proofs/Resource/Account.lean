import Phrasebook.Proofs.Resource.Histories
import Phrasebook.Proofs.Resource.Properties

namespace Phrasebook.Resource

section Attributes

theorem attribute?_eq_some {slot : Slot} {node : AttributeNode}
    (made : slot.attribute? = some node) :
    slot.node? = some node.value ∧ slot.index? = node.index? := by
  unfold Slot.attribute? at made
  split at made
  · cases made
  · rename_i value index
    obtain rfl := Option.some.inj made
    exact ⟨value, index⟩
  · rename_i value index
    obtain rfl := Option.some.inj made
    exact ⟨value, index⟩

theorem attribute?_eq_none_iff {slot : Slot} : slot.attribute? = none ↔ slot.node? = none := by
  unfold Slot.attribute?
  split <;> simp_all

theorem attributeNodes_ascending {slots : Table Slot} (ascending : slots.Ascending) :
    (attributeNodes slots).Ascending := by
  apply List.Pairwise.filterMap _ _ ascending
  intro entry other before node made otherNode madeOther
  obtain ⟨_, _, rfl⟩ := Option.map_eq_some_iff.mp made
  obtain ⟨_, _, rfl⟩ := Option.map_eq_some_iff.mp madeOther
  exact before

theorem find?_attributeNodes {slots : Table Slot} (ascending : slots.Ascending) (label : String) :
    (attributeNodes slots).find? label = (slots.find? label).bind Slot.attribute? := by
  induction slots with
  | nil => rfl
  | cons entry slots ih =>
      obtain ⟨before, ascendingLater⟩ := List.pairwise_cons.mp ascending
      have later := ih ascendingLater
      simp only [attributeNodes] at later ⊢
      rw [Table.find?_cons]
      cases made : entry.2.attribute? with
      | none =>
          rw [List.filterMap_cons_none (by simp [made]), later]
          split
          · rename_i here
            rw [here, Table.find?_of_first before, Option.bind_some, made]
            rfl
          · rfl
      | some node =>
          rw [List.filterMap_cons_some (by simp [made]; rfl), Table.find?_cons, later]
          split
          · rw [Option.bind_some, made]
          · rfl

theorem find?_nodeOf (as : List Assignment) (id label : List Char) :
    (nodeOf as id).attributes.find? (String.ofList label) =
      (Slot.ofFillings (fillings ⟨id, some label⟩ as)).attribute? := by
  rw [nodeOf, Draft.toNode, find?_attributeNodes (Draft.ofLines_ascending as id),
    Draft.find?_ofLines]
  split
  · rename_i unnamed
    rw [unnamed]
    rfl
  · rfl

end Attributes

section Fillings

def Filling.textUnder? (key : List Char) : Filling → Option (List Char)
  | .plain _ => none
  | .member other text => if other = key then some text else none

def lastUnder? (key : List Char) (fillings : List Filling) : Option (List Char) :=
  (fillings.filterMap (Filling.textUnder? key)).getLast?

/-- A value and its selectors are what lines make of their slot. -/
structure FilledBy (fillings : List Filling) (value? : Option Node)
    (index? : Option (List Node)) : Prop where
  unfilled : value? = none ↔ fillings = []
  plain : ∀ before text, fillings = before ++ [.plain text] →
    value? = some (.raw (String.ofList text))
  members : ∀ before key text, fillings = before ++ [.member key text] →
    ∃ items : Table Node, value? = some (.hash items none) ∧ items.Ascending ∧
      ∀ name, items.find? (String.ofList name) =
        (lastUnder? name (sincePlain fillings)).map fun text => .raw (String.ofList text)
  single : ∀ index, index? = some index → ∃ selector text, index = [selector] ∧
    .plain text ∈ fillings ∧ readSelector? text = some selector

theorem find?_ofItems (fillings : List Filling) (key : List Char) :
    (Table.ofList (fillings.filterMap Filling.item?)).find? (String.ofList key) =
      (lastUnder? key fillings).map fun text => .raw (String.ofList text) := by
  rw [Table.find?_ofList, lastUnder?, ← List.getLast?_map, ← List.getLast?_map]
  apply congrArg List.getLast?
  induction fillings with
  | nil => rfl
  | cons filling fillings ih =>
      cases filling with
      | plain text => rw [List.filterMap_cons_none rfl, List.filterMap_cons_none rfl, ih]
      | member other text =>
          have item : (Filling.member other text).item? =
              some (String.ofList other, .raw (String.ofList text)) := rfl
          rw [List.filterMap_cons_some item]
          by_cases same : other = key
          · have under : (Filling.member other text).textUnder? key = some text := if_pos same
            rw [List.filter_cons_of_pos (by simp [same]), List.filterMap_cons_some under,
              List.map_cons, List.map_cons, ih]
          · have elsewhere : (Filling.member other text).textUnder? key = none := if_neg same
            have names : String.ofList other ≠ String.ofList key :=
              fun equal => same (String.ofList_injective equal)
            rw [List.filter_cons_of_neg (by simpa using names),
              List.filterMap_cons_none elsewhere, ih]

theorem exists_of_declared? {fillings : List Filling} {selector : Node}
    (declared : declared? fillings = some selector) :
    ∃ text, .plain text ∈ fillings ∧ readSelector? text = some selector := by
  induction fillings with
  | nil => cases declared
  | cons first fillings ih =>
      rw [declared?, Option.or_eq_some_iff] at declared
      rcases declared with later | ⟨-, turned⟩
      · obtain ⟨text, member, read⟩ := ih later
        exact ⟨text, List.mem_cons_of_mem first member, read⟩
      · cases first with
        | member key text => cases turned
        | plain text =>
            refine ⟨text, List.mem_cons_self, ?_⟩
            cases next : fillings.head? with
            | none =>
                rw [next] at turned
                cases turned
            | some filling =>
                rw [next] at turned
                cases filling with
                | plain _ => cases turned
                | member _ _ => exact turned

theorem filledBy_ofFillings (fillings : List Filling) :
    FilledBy fillings (Slot.ofFillings fillings).node? (Slot.ofFillings fillings).index? where
  unfilled := by
    rw [Slot.node?, Option.map_eq_none_iff]
    exact held?_eq_none_iff
  plain := by
    rintro before text rfl
    simp [Slot.node?, Slot.ofFillings, SlotValue.toNode]
  members := by
    rintro before key text rfl
    refine ⟨heldMembers (before ++ [.member key text]), ?_, Table.ascending_ofList _, ?_⟩
    · simp [Slot.node?, Slot.ofFillings, SlotValue.toNode]
    · exact find?_ofItems _
  single := by
    intro index given
    obtain ⟨selector, declared, rfl⟩ := Option.map_eq_some_iff.mp given
    obtain ⟨text, member, read⟩ := exists_of_declared? declared
    exact ⟨selector, text, rfl, member, read⟩

end Fillings

/-- Nothing is lost and nothing is said twice. -/
theorem properties_account_for_lines {source : String} {nodes : List EntryNode}
    (parsed : parseProperties source = .ok nodes) :
    let as := assignments source.toList
    nodes.map (·.id.toList) = (as.map Assignment.id).eraseDups ∧
    ∀ node ∈ nodes,
      FilledBy (fillings ⟨node.id.toList, none⟩ as) node.value? node.index? ∧
      node.attributes.Ascending ∧
      ∀ label,
        (label ∈ node.attributes.names ↔ fillings ⟨node.id.toList, some label.toList⟩ as ≠ []) ∧
        ∀ held, node.attributes.find? label = some held →
          FilledBy (fillings ⟨node.id.toList, some label.toList⟩ as) (some held.value)
            held.index? := by
  intro as
  obtain rfl := eq_nodesOf parsed
  constructor
  · rw [nodesOf, List.map_map]
    have own : (fun node : EntryNode => node.id.toList) ∘ nodeOf as = fun id => id := by
      funext id
      exact String.toList_ofList
    rw [own, List.map_id']
    rfl
  · intro node member
    obtain ⟨id, _, rfl⟩ := List.mem_map.mp member
    have idChars : (nodeOf as id).id.toList = id := String.toList_ofList
    rw [idChars]
    refine ⟨filledBy_ofFillings _, attributeNodes_ascending (Draft.ofLines_ascending as id), ?_⟩
    intro label
    have found := find?_nodeOf as id label.toList
    rw [String.ofList_toList] at found
    have filled := filledBy_ofFillings (fillings ⟨id, some label.toList⟩ as)
    constructor
    · rw [← not_iff_not, ← Table.find?_eq_none_iff, found, not_ne_iff, attribute?_eq_none_iff]
      exact filled.unfilled
    · intro held isHeld
      rw [found] at isHeld
      obtain ⟨value, index⟩ := attribute?_eq_some isHeld
      rwa [value, index] at filled

theorem properties_account_for_lines_files :
    let source :=
      "files = \x7b[ n ]\x7d\nopen.hint = Read\nfiles[one] = A\nfiles[one] = B\nopen = Open"
    let as := assignments source.toList
    let nodes : List EntryNode :=
      [⟨"files", some (.hash [("one", .raw "B")] none), some [.identifier "n"], []⟩,
        ⟨"open", some (.raw "Open"), none, [("hint", .plain (.raw "Read"))]⟩]
    parseProperties source = .ok nodes ∧
    nodes.map (·.id.toList) = (as.map Assignment.id).eraseDups ∧
    FilledBy (fillings ⟨"files".toList, none⟩ as) (some (.hash [("one", .raw "B")] none))
      (some [.identifier "n"]) ∧
    FilledBy (fillings ⟨"open".toList, some "hint".toList⟩ as) (some (.raw "Read")) none := by
  intro source as nodes
  have parsed : parseProperties
      "files = \x7b[ n ]\x7d\nopen.hint = Read\nfiles[one] = A\nfiles[one] = B\nopen = Open" =
        .ok nodes := rfl
  obtain ⟨ids, each⟩ := properties_account_for_lines parsed
  obtain ⟨files, -⟩ := each _ List.mem_cons_self
  obtain ⟨-, -, attributes⟩ := each _ (List.mem_cons_of_mem _ List.mem_cons_self)
  exact ⟨parsed, ids, files, (attributes "hint").2 _ rfl⟩

end Phrasebook.Resource
