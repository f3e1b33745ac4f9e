import Phrasebook.Proofs.Node.Written
import Phrasebook.Proofs.Resource.Drafting
import Phrasebook.Proofs.Resource.Selectors

namespace Phrasebook

namespace AttributeNode

def value : AttributeNode → Node
  | .plain value => value
  | .indexed value _ => value

def index? : AttributeNode → Option (List Node)
  | .plain _ => none
  | .indexed _ index => some index

end AttributeNode

namespace Resource

open Phrasebook.Text
open Phrasebook.Unicode

section Writing

def selectorText (selector : Node) : List Char :=
  '{' :: '[' :: ' ' :: (selector.written ++ [' ', ']', '}'])

def rawText : Node → List Char
  | .raw text => text.toList
  | _ => []

@[simp] theorem rawText_raw (text : String) : rawText (.raw text) = text.toList := rfl

def writtenSelector (name : List Char) : Option (List Node) → List Assignment
  | some [selector] => [⟨0, name, none, selectorText selector⟩]
  | _ => []

def writtenMembers (name : List Char) (items : Table Node) : List Assignment :=
  items.map fun item => ⟨0, name, some item.1.toList, rawText item.2⟩

/-- The assignments that say a value. Their lines are numbered when they are read. -/
def writtenValue (name : List Char) (index? : Option (List Node)) : Node → List Assignment
  | .hash items _ => writtenSelector name index? ++ writtenMembers name items
  | value => [⟨0, name, none, rawText value⟩]

def attributeName (id label : String) : List Char :=
  id.toList ++ '.' :: label.toList

def writtenAttributes (id : String) (attributes : Table AttributeNode) : List Assignment :=
  attributes.flatMap fun member =>
    writtenValue (attributeName id member.1) member.2.index? member.2.value

def writtenEntry (entry : EntryNode) : List Assignment :=
  entry.value?.elim [] (writtenValue entry.id.toList entry.index?) ++
    writtenAttributes entry.id entry.attributes

def writtenEntries (entries : List EntryNode) : String :=
  String.ofList ((entries.flatMap writtenEntry).flatMap fun a => a.written ++ ['\n'])

end Writing

structure WritableMembers (items : Table String) : Prop where
  nonempty : items ≠ []
  ascending : items.Ascending
  keyChars : ∀ item ∈ items, ∀ c ∈ item.1.toList, c ≠ ']' ∧ c ≠ '\n'
  texts : ∀ item ∈ items, item.2 ≠ ""

/-- The values, with their selectors, that lines can say. -/
inductive WritableValue : Node → Option (List Node) → Prop
  | raw {text : String} (nonempty : text ≠ "") : WritableValue (.raw text) none
  | members {items : Table String} (writable : WritableMembers items) :
      WritableValue (.hash (items.mapValues .raw) none) none
  | selected {items : Table String} {selector : Node} (writable : WritableMembers items)
      (scannable : selector.Scannable) :
      WritableValue (.hash (items.mapValues .raw) none) (some [selector])

def WritableName (name : String) : Prop :=
  ∀ c ∈ name.toList, isNameEnd c = false ∧ c ≠ '.'

structure WritableEntry (entry : EntryNode) : Prop where
  id : WritableName entry.id
  uncommented : entry.id.toList.head? ≠ some '#'
  value : ∀ value, entry.value? = some value →
    entry.id ≠ "" ∧ WritableValue value entry.index?
  valueless : entry.value? = none → entry.index? = none ∧ entry.attributes ≠ []
  ascending : entry.attributes.Ascending
  attributes : ∀ member ∈ entry.attributes,
    WritableName member.1 ∧ WritableValue member.2.value member.2.index?

section Lines

variable {name : List Char} {value : Node} {index? : Option (List Node)}

theorem writtenValue_writable (named : name ≠ []) (nameChars : ∀ c ∈ name, isNameEnd c = false)
    (uncommented : name.head? ≠ some '#') (writable : WritableValue value index?) :
    ∀ a ∈ writtenValue name index? value, a.Writable := by
  have ofMembers : ∀ items : Table String, WritableMembers items →
      ∀ a ∈ writtenMembers name (items.mapValues .raw), a.Writable := by
    intro items members a member
    obtain ⟨_, inItems, rfl⟩ := List.mem_map.mp member
    obtain ⟨item, inTable, rfl⟩ := List.mem_map.mp inItems
    refine ⟨named, nameChars, uncommented, ?_, by simpa [rawText] using members.texts item inTable⟩
    rintro key ⟨⟩
    exact members.keyChars item inTable
  cases writable with
  | raw nonempty =>
      exact List.forall_mem_singleton.mpr
        ⟨named, nameChars, uncommented, nofun, by simpa [rawText] using nonempty⟩
  | members members => exact ofMembers _ members
  | selected members scannable =>
      refine List.forall_mem_cons.mpr ⟨?_, ofMembers _ members⟩
      exact ⟨named, nameChars, uncommented, nofun, List.cons_ne_nil _ _⟩

theorem writtenEntry_writable {entry : EntryNode} (writable : WritableEntry entry) :
    ∀ a ∈ writtenEntry entry, a.Writable := by
  have idChars : ∀ c ∈ entry.id.toList, isNameEnd c = false :=
    fun c member => (writable.id c member).1
  refine List.forall_mem_append.mpr ⟨?_, ?_⟩
  · cases given : entry.value? with
    | none => exact nofun
    | some value =>
        obtain ⟨named, writableValue⟩ := writable.value value given
        exact writtenValue_writable (by simpa using named) idChars writable.uncommented writableValue
  · intro a inAttributes
    obtain ⟨member, inTable, inLines⟩ := List.mem_flatMap.mp inAttributes
    obtain ⟨label, writableValue⟩ := writable.attributes member inTable
    refine writtenValue_writable ?_ ?_ ?_ writableValue a inLines
    · simp [attributeName]
    · simp only [attributeName, List.forall_mem_append, List.forall_mem_cons]
      exact ⟨idChars, by decide, fun c inLabel => (label c inLabel).1⟩
    · have uncommented := writable.uncommented
      cases chars : entry.id.toList with
      | nil => simp [attributeName, chars]
      | cons c rest => simpa [attributeName, chars] using uncommented

end Lines

section Slots

theorem readSelector?_selectorText {selector : Node} (scannable : selector.Scannable) :
    readSelector? (selectorText selector) = some selector := by
  apply readSelector?_eq_some_iff.mpr
  refine ⟨[' '], selector.written, [' '], Placeable.blank_space,
    Node.spells_written selector scannable, Placeable.blank_space, ?_⟩
  exact trim_of_stops (by simp [selectorText]) (by simp [selectorText])

theorem foldlM_writtenMembers (name : List Char) (items : Table String) (held : Table Node)
    (selector? : Option Node) :
    (writtenMembers name (items.mapValues .raw)).foldlM Slot.assign
        ⟨some (.members held), selector?⟩ =
      .ok ⟨some (.members ((items.mapValues .raw).foldl
        (fun table item => Table.insert item.1 item.2 table) held)), selector?⟩ := by
  induction items generalizing held with
  | nil => rfl
  | cons item items ih =>
      have later := ih (Table.insert item.1 (.raw item.2) held)
      simp only [writtenMembers] at later
      simp [writtenMembers, Slot.assign, Slot.setMember, later, bind, Except.bind]

theorem foldlM_writtenMembers_start {items : Table String} {slot : Slot} {selector? : Option Node}
    (writable : WritableMembers items) (name : List Char)
    (first : ∀ line key value, slot.setMember line key value =
      .ok ⟨some (.members [(String.ofList key, .raw (String.ofList value))]), selector?⟩) :
    (writtenMembers name (items.mapValues .raw)).foldlM Slot.assign slot =
      .ok ⟨some (.members (items.mapValues .raw)), selector?⟩ := by
  have ordered := Table.ofList_of_ascending (writable.ascending.mapValues Node.raw)
  cases items with
  | nil => exact absurd rfl writable.nonempty
  | cons item items =>
      have later := foldlM_writtenMembers name items [(item.1, .raw item.2)] selector?
      have whole : (Table.mapValues Node.raw items).foldl
          (fun table item => Table.insert item.1 item.2 table) [(item.1, .raw item.2)] =
            Table.mapValues Node.raw (item :: items) := ordered
      rw [whole] at later
      simp only [writtenMembers] at later
      simp [writtenMembers, Slot.assign, first, later, bind, Except.bind]

theorem foldlM_writtenValue {value : Node} {index? : Option (List Node)}
    (writable : WritableValue value index?) (name : List Char) :
    ∃ slot : Slot, (writtenValue name index? value).foldlM Slot.assign {} = .ok slot ∧
      slot.node? = some value ∧ slot.index? = index? := by
  cases writable with
  | raw nonempty =>
      refine ⟨⟨some (.plain _), none⟩, rfl, ?_, rfl⟩
      simp [Slot.node?, SlotValue.toNode, rawText]
  | members members =>
      have run := foldlM_writtenMembers_start members name
        fun _ _ _ => (rfl : Slot.setMember {} _ _ _ = _)
      exact ⟨_, run, rfl, rfl⟩
  | @selected items selector members scannable =>
      have read := readSelector?_selectorText scannable
      have run := @foldlM_writtenMembers_start _ ⟨some (.plain (selectorText selector)), none⟩
        (some selector) members name fun _ _ _ => by simp [Slot.setMember, read]
      exact ⟨_, run, rfl, rfl⟩

end Slots

section Drafts

theorem ofName?_id {id : String} (plain : WritableName id) :
    Target.ofName? id.toList = some ⟨id.toList, none⟩ := by
  have inside : ∀ c ∈ id.toList, decide (c ≠ '.') = true :=
    fun c member => decide_eq_true (plain c member).2
  have taken := takeWhile_span inside stops_nil
  have dropped := dropWhile_span inside stops_nil
  rw [List.append_nil] at taken dropped
  simp only [Target.ofName?, taken, dropped]

theorem ofName?_attributeName {id label : String} (plainId : WritableName id)
    (plainLabel : WritableName label) :
    Target.ofName? (attributeName id label) = some ⟨id.toList, some label.toList⟩ := by
  have inside : ∀ c ∈ id.toList, decide (c ≠ '.') = true :=
    fun c member => decide_eq_true (plainId c member).2
  have stops : Stops (fun c => decide (c ≠ '.')) ('.' :: label.toList) := by simp
  have taken := takeWhile_span inside stops
  have dropped := dropWhile_span inside stops
  have undotted : label.toList.contains '.' = false := by
    rw [List.contains_eq_mem, decide_eq_false_iff_not]
    exact fun member => (plainLabel _ member).2 rfl
  simp only [Target.ofName?, attributeName, taken, dropped, undotted]
  rfl

theorem name_of_mem_writtenValue {name : List Char} {index? : Option (List Node)} {value : Node}
    (writable : WritableValue value index?) :
    ∀ a ∈ writtenValue name index? value, a.name = name := by
  have ofMembers : ∀ items : Table Node, ∀ a ∈ writtenMembers name items, a.name = name := by
    intro items a member
    obtain ⟨item, -, rfl⟩ := List.mem_map.mp member
    rfl
  cases writable with
  | raw nonempty => exact List.forall_mem_singleton.mpr rfl
  | members members => exact ofMembers _
  | selected members scannable => exact List.forall_mem_cons.mpr ⟨rfl, ofMembers _⟩

theorem writtenValue_ne_nil {value : Node} {index? : Option (List Node)}
    (writable : WritableValue value index?) (name : List Char) :
    writtenValue name index? value ≠ [] := by
  cases writable with
  | raw nonempty => exact List.cons_ne_nil _ _
  | members members =>
      simpa [writtenValue, writtenSelector, writtenMembers, Table.mapValues] using members.nonempty
  | selected members scannable => exact List.cons_ne_nil _ _

theorem attribute?_of_slot {slot : Slot} {node : AttributeNode}
    (value : slot.node? = some node.value) (index : slot.index? = node.index?) :
    slot.attribute? = some node := by
  cases node <;> simp [Slot.attribute?, value, index, AttributeNode.value, AttributeNode.index?]

theorem foldlM_writtenAttribute {id label : String} {node : AttributeNode}
    (plainId : WritableName id) (plainLabel : WritableName label)
    (writable : WritableValue node.value node.index?) {draft : Draft}
    (last : ∀ held ∈ draft.attributes, held.1 < label) :
    ∃ slot : Slot, (writtenValue (attributeName id label) node.index? node.value).foldlM Draft.take
        draft = .ok { draft with attributes := draft.attributes ++ [(label, slot)] } ∧
      slot.attribute? = some node := by
  obtain ⟨slot, run, value, index⟩ := foldlM_writtenValue writable (attributeName id label)
  refine ⟨slot, ?_, attribute?_of_slot value index⟩
  obtain ⟨first, rest, same⟩ :=
    List.exists_cons_of_ne_nil (writtenValue_ne_nil writable (attributeName id label))
  have toAttribute : ∀ a ∈ first :: rest, ∃ name,
      Target.ofName? a.name = some ⟨name, some label.toList⟩ := by
    rw [← same]
    intro a inLines
    rw [name_of_mem_writtenValue writable a inLines]
    exact ⟨id.toList, ofName?_attributeName plainId plainLabel⟩
  have onSlot := Draft.foldlM_attribute toAttribute draft
  rw [← same, String.ofList_toList, Table.find?_of_last last, Option.getD_none, run] at onSlot
  rw [onSlot, Except.map, Table.insert_of_last last]

theorem foldlM_writtenAttributes {id : String} (plainId : WritableName id)
    {attributes : Table AttributeNode} (ascending : attributes.Ascending)
    (writable : ∀ member ∈ attributes,
      WritableName member.1 ∧ WritableValue member.2.value member.2.index?)
    (draft : Draft)
    (behind : ∀ held ∈ draft.attributes, ∀ member ∈ attributes, held.1 < member.1) :
    ∃ slots : Table Slot, (writtenAttributes id attributes).foldlM Draft.take draft =
        .ok { draft with attributes := draft.attributes ++ slots } ∧
      attributeNodes slots = attributes := by
  induction attributes generalizing draft with
  | nil =>
      refine ⟨[], ?_, rfl⟩
      rw [List.append_nil]
      rfl
  | cons member attributes ih =>
      obtain ⟨label, node⟩ := member
      obtain ⟨⟨plainLabel, writableNode⟩, writableLater⟩ := List.forall_mem_cons.mp writable
      obtain ⟨before, ascendingLater⟩ := List.pairwise_cons.mp ascending
      obtain ⟨slot, here, made⟩ := foldlM_writtenAttribute plainId plainLabel writableNode
        fun held inDraft => behind held inDraft (label, node) List.mem_cons_self
      have behindLater : ∀ held ∈ draft.attributes ++ [(label, slot)], ∀ other ∈ attributes,
          held.1 < other.1 := by
        intro held inDraft other inLater
        rcases List.mem_append.mp inDraft with earlier | atLabel
        · exact behind held earlier other (List.mem_cons_of_mem _ inLater)
        · obtain rfl := List.mem_singleton.mp atLabel
          exact before other inLater
      obtain ⟨slots, later, nodes⟩ := ih ascendingLater writableLater
        { draft with attributes := draft.attributes ++ [(label, slot)] } behindLater
      refine ⟨(label, slot) :: slots, ?_, ?_⟩
      · have run := foldlM_append_ok here later
        simpa [writtenAttributes] using run
      · simp only [attributeNodes] at nodes
        simp [attributeNodes, made, nodes]

theorem foldlM_writtenEntry {entry : EntryNode} (writable : WritableEntry entry) :
    ∃ draft : Draft, (writtenEntry entry).foldlM Draft.take {} = .ok draft ∧
      draft.toNode entry.id = entry := by
  obtain ⟨slot, run, value, index⟩ : ∃ slot : Slot,
      (entry.value?.elim [] (writtenValue entry.id.toList entry.index?)).foldlM Draft.take {} =
        .ok { value := slot } ∧ slot.node? = entry.value? ∧ slot.index? = entry.index? := by
    cases given : entry.value? with
    | none => exact ⟨{}, rfl, rfl, (writable.valueless given).1.symm⟩
    | some value =>
        have writableValue := (writable.value value given).2
        obtain ⟨slot, run, held, index⟩ := foldlM_writtenValue writableValue entry.id.toList
        have toValue : ∀ a ∈ writtenValue entry.id.toList entry.index? value, ∃ name,
            Target.ofName? a.name = some ⟨name, none⟩ := by
          intro a inLines
          rw [name_of_mem_writtenValue writableValue a inLines]
          exact ⟨_, ofName?_id writable.id⟩
        have onSlot := Draft.foldlM_value toValue {}
        rw [run] at onSlot
        exact ⟨slot, onSlot, held, index⟩
  obtain ⟨slots, later, nodes⟩ :=
    foldlM_writtenAttributes writable.id writable.ascending writable.attributes { value := slot }
      nofun
  refine ⟨_, foldlM_append_ok run later, ?_⟩
  simp [Draft.toNode, value, index, nodes]

theorem writtenEntry_ne_nil {entry : EntryNode} (writable : WritableEntry entry) :
    writtenEntry entry ≠ [] := by
  cases given : entry.value? with
  | some value =>
      have lines := writtenValue_ne_nil (writable.value value given).2 entry.id.toList
      simp [writtenEntry, given, lines]
  | none =>
      obtain ⟨member, attributes, same⟩ :=
        List.exists_cons_of_ne_nil (writable.valueless given).2
      have writableNode := (writable.attributes member (by simp [same])).2
      have lines := writtenValue_ne_nil writableNode (attributeName entry.id member.1)
      simp [writtenEntry, writtenAttributes, given, same, lines]

theorem writtenEntry_toPhrase {entry : EntryNode} (writable : WritableEntry entry) :
    ∀ a ∈ writtenEntry entry, ∃ target, Target.ofName? a.name = some target ∧
      String.ofList target.id = entry.id := by
  refine List.forall_mem_append.mpr ⟨?_, ?_⟩
  · cases given : entry.value? with
    | none => exact nofun
    | some value =>
        intro a inLines
        rw [name_of_mem_writtenValue (writable.value value given).2 a inLines]
        exact ⟨_, ofName?_id writable.id, String.ofList_toList⟩
  · intro a inAttributes
    obtain ⟨member, inTable, inLines⟩ := List.mem_flatMap.mp inAttributes
    obtain ⟨plainLabel, writableNode⟩ := writable.attributes member inTable
    rw [name_of_mem_writtenValue writableNode a inLines]
    exact ⟨_, ofName?_attributeName writable.id plainLabel, String.ofList_toList⟩

theorem foldlM_writtenEntries {entries : List EntryNode} {drafts : Drafts}
    (writable : ∀ entry ∈ entries, WritableEntry entry)
    (distinct : (entries.map EntryNode.id).Nodup)
    (fresh : ∀ entry ∈ entries, entry.id ∉ drafts.map Prod.fst) :
    ∃ more : Drafts, (entries.flatMap writtenEntry).foldlM Drafts.assign drafts =
        .ok (drafts ++ more) ∧
      more.map (fun draft => draft.2.toNode draft.1) = entries := by
  induction entries generalizing drafts with
  | nil => exact ⟨[], by rw [List.append_nil]; rfl, rfl⟩
  | cons entry entries ih =>
      obtain ⟨writableHere, writableLater⟩ := List.forall_mem_cons.mp writable
      obtain ⟨freshHere, freshLater⟩ := List.forall_mem_cons.mp fresh
      obtain ⟨differ, distinctLater⟩ := List.nodup_cons.mp distinct
      obtain ⟨draft, run, node⟩ := foldlM_writtenEntry writableHere
      have group : (writtenEntry entry).foldlM Drafts.assign drafts =
          .ok (drafts ++ [(entry.id, draft)]) := by
        obtain ⟨first, rest, same⟩ :=
          List.exists_cons_of_ne_nil (writtenEntry_ne_nil writableHere)
        have onDraft := @Drafts.foldlM_assign entry.id drafts first rest
          (same ▸ writtenEntry_toPhrase writableHere)
        rw [← same, Drafts.update_fresh freshHere, run] at onDraft
        exact onDraft
      have freshAfter : ∀ other ∈ entries,
          other.id ∉ (drafts ++ [(entry.id, draft)]).map Prod.fst := by
        intro other inLater
        have otherId : other.id ≠ entry.id :=
          fun same => differ (same ▸ List.mem_map_of_mem inLater)
        simpa [otherId] using freshLater other inLater
      obtain ⟨more, later, nodes⟩ := ih writableLater distinctLater freshAfter
      refine ⟨(entry.id, draft) :: more, ?_, ?_⟩
      · have run := foldlM_append_ok group later
        simpa using run
      · rw [List.map_cons, nodes, node]

end Drafts

/-- Entries are found again in the lines that they are written in. -/
theorem properties_round_trip {entries : List EntryNode}
    (writable : ∀ entry ∈ entries, WritableEntry entry)
    (distinct : (entries.map EntryNode.id).Nodup) :
    parseProperties (writtenEntries entries) = .ok entries := by
  have lines : ∀ a ∈ entries.flatMap writtenEntry, a.Writable := by
    intro a member
    obtain ⟨entry, inEntries, inEntry⟩ := List.mem_flatMap.mp member
    exact writtenEntry_writable (writable entry inEntries) a inEntry
  obtain ⟨drafts, run, same⟩ := @foldlM_writtenEntries entries [] writable distinct (by simp)
  have numbered := Drafts.foldlM_renumber run 1
  rw [parseProperties, writtenEntries, String.toList_ofList, assignments_written lines,
    entryNodesOf, numbered]
  exact congrArg Except.ok same

theorem properties_round_trip_unread :
    let count : Node := .call (.identifier "plural") [.identifier "n", .identifier "long"]
    let branches : Table Node := [("many = [", .raw "  \\"), ("one", .raw "One\n")]
    let entries : List EntryNode :=
      [⟨"unread", some (.hash branches none), some [count],
          [("hint", .indexed (.hash branches none) [count])]⟩,
        ⟨"", none, none, [("", .plain (.raw "#"))]⟩]
    (∀ entry ∈ entries, WritableEntry entry) ∧
    (entries.map EntryNode.id).Nodup ∧
    writtenEntries entries =
      "unread = \x7b[ plural(n, long) ]\x7d\nunread[many = [] = \\u0020 \\\\\nunread[one] = One\\n\n" ++
      "unread.hint = \x7b[ plural(n, long) ]\x7d\nunread.hint[many = [] = \\u0020 \\\\\n" ++
      "unread.hint[one] = One\\n\n. = #\n" ∧
    parseProperties (writtenEntries entries) = .ok entries := by
  intro count branches entries
  have isName : ∀ name ∈ ["plural", "n", "long"], Placeable.IsName name := by
    simp [Placeable.IsName, Placeable.isNameChar, isAlphanumeric]
  have entryName : WritableName "unread" := by simp [WritableName, isNameEnd]
  have attributeName : WritableName "hint" := by simp [WritableName, isNameEnd]
  have texts : WritableMembers [("many = [", "  \\"), ("one", "One\n")] :=
    ⟨by simp, by decide, by simp, by simp⟩
  have selected : WritableValue (.hash branches none) (some [count]) :=
    .selected texts ⟨isName _ (by simp), isName _ (by simp), isName _ (by simp), trivial⟩
  have unread : WritableEntry entries[0] := by
    refine ⟨entryName, by simp [entries], ?_, by simp [entries], by decide, ?_⟩
    · intro value given
      obtain rfl := Option.some.inj given
      exact ⟨by simp [entries], selected⟩
    · exact List.forall_mem_singleton.mpr ⟨attributeName, selected⟩
  have unnamed : WritableEntry entries[1] := by
    refine ⟨by simp [entries, WritableName], by simp [entries], by simp [entries],
      by simp [entries], by decide, ?_⟩
    exact List.forall_mem_singleton.mpr ⟨by simp [WritableName], .raw (by simp)⟩
  have writable : ∀ entry ∈ entries, WritableEntry entry :=
    List.forall_mem_cons.mpr ⟨unread, List.forall_mem_singleton.mpr unnamed⟩
  have distinct : (entries.map EntryNode.id).Nodup := by decide
  exact ⟨writable, distinct, by decide +kernel, properties_round_trip writable distinct⟩

end Resource

end Phrasebook
