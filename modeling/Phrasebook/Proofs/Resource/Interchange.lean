import Phrasebook.Proofs.Node.RoundTrip
import Phrasebook.Resource.Interchange

namespace Phrasebook

open Json

namespace Resource

theorem readAs_print {α : Type} {type : String} {interpret? : Value → Option α} {value : Value}
    {a : α} {levels : Nat} (means : interpret? value = some a) (numberless : value.Numberless)
    (fits : value.nesting ≤ levels) (rest : List Char) :
    readAs type interpret? levels (value.print ++ rest) = .ok (a, rest) := by
  simp only [readAs, readValue_print value levels rest numberless fits, bind, Except.bind, means]

theorem readNode_print {node : Node} {levels : Nat} (sorted : node.Sorted)
    (fits : node.toJson.nesting ≤ levels) (rest : List Char) :
    readNode levels (node.toJson.print ++ rest) = .ok (node, rest) :=
  readAs_print (node.ofJson?_toJson sorted) node.toJson_numberless fits rest

theorem readNodes_print {nodes : List Node} {levels : Nat} (sorted : Node.AllSorted nodes)
    (fits : (Value.array (Node.toJsons nodes)).nesting ≤ levels) (rest : List Char) :
    readList readNode levels ((Value.array (Node.toJsons nodes)).print ++ rest) =
      .ok (nodes, rest) := by
  obtain ⟨levels, rfl⟩ := Nat.exists_eq_succ_of_ne_zero (Nat.ne_zero_of_lt fits)
  rw [Node.toJsons_eq_map] at fits ⊢
  apply readList_print
  intro node member
  have fitsNode := nestingOfItems_le (Nat.le_of_succ_le_succ fits) _ (List.mem_map_of_mem member)
  exact ⟨node.toJson_numberless, readNode_print (sorted.of_mem node member) fitsNode⟩

theorem readAttributes_print {attributes : Table AttributeNode} {levels : Nat}
    (ascending : attributes.Ascending) (sorted : ∀ member ∈ attributes, member.2.Sorted)
    (fits : (Value.object (attributes.mapValues AttributeNode.toJson)).nesting ≤ levels)
    (rest : List Char) :
    readAttributes levels
        ((Value.object (attributes.mapValues AttributeNode.toJson)).print ++ rest) =
      .ok (attributes, rest) := by
  obtain ⟨levels, rfl⟩ := Nat.exists_eq_succ_of_ne_zero (Nat.ne_zero_of_lt fits)
  have read : readObject readAttribute (levels + 1)
      ((Value.object (attributes.mapValues AttributeNode.toJson)).print ++ rest) =
      .ok (attributes, rest) := by
    apply readObject_print
    intro member inTable
    have fitsMember := nestingOfMembers_le (Nat.le_of_succ_le_succ fits) _
      (List.mem_map_of_mem inTable)
    exact readAs_print (AttributeNode.ofJson?_toJson (sorted member inTable))
      member.2.toJson_numberless fitsMember
  rw [readAttributes, read]
  simp only [Except.map, Table.ofList_of_ascending ascending]

theorem readOptional_print {α : Type} {reader : List Char → Outcome α} {value : Value} {a : α}
    {rest : List Char} (numberless : value.Numberless) (present : value ≠ .null)
    (read : reader (value.print ++ rest) = .ok (a, rest)) :
    readOptional reader (value.print ++ rest) = .ok (some a, rest) := by
  obtain ⟨c, tail, printed, solid, -, notNull⟩ := value.print_starts numberless
  rw [printed, List.cons_append] at read ⊢
  simp [readOptional, skipSpace_cons solid, notNull present, read, Except.map]

/-- From some fields on, printed members are read into the given entry. -/
def Completes (levels : Nat) (entry : EntryNode) (fields : EntryFields)
    (members : List (String × Value)) : Prop :=
  ∀ steps, members.length < steps → ∀ rest,
    readEntryMembers levels steps false fields (printMembers members ++ rest) =
      .ok (entry, '}' :: rest)

section Members

variable {levels : Nat} {entry : EntryNode} {fields after : EntryFields}
  {members : List (String × Value)} {name : String} {value : Value}

theorem Completes.finish (finished : ∀ rest, fields.finish rest = .ok (entry, rest)) :
    Completes levels entry fields [] := by
  intro steps enough rest
  obtain ⟨steps, rfl⟩ := Nat.exists_eq_succ_of_ne_zero (Nat.ne_zero_of_lt enough)
  simp [printMembers, readEntryMembers, nextName, skipSpace_cons, finished, bind,
    Except.bind]

theorem Completes.member
    (read : ∀ rest, fields.read levels name (':' :: (value.print ++ rest)) = .ok (after, rest))
    (later : Completes levels entry after members) :
    Completes levels entry fields ((name, value) :: members) := by
  intro steps enough rest
  obtain ⟨steps, rfl⟩ := Nat.exists_eq_succ_of_ne_zero (Nat.ne_zero_of_lt enough)
  have others := later steps (Nat.lt_of_succ_lt_succ enough) rest
  simp [printMembers, readEntryMembers, nextName_printString, read, others, bind, Except.bind]

theorem Completes.optional {value? : Option Value}
    (read : ∀ value, value? = some value → ∀ rest,
      fields.read levels name (':' :: (value.print ++ rest)) = .ok (after, rest))
    (absent : value? = none → after = fields)
    (later : Completes levels entry after members) :
    Completes levels entry fields (optionalMember name value? ++ members) := by
  cases given : value? with
  | none => simpa [optionalMember, ← absent given] using later
  | some value => exact Completes.member (read value given) later

end Members

theorem readField_fresh {α : Type} (field : String) (reader : List Char → Outcome α)
    (text : List Char) : readField field none reader (':' :: text) = reader text := by
  simp [readField, readColon_cons, bind, Except.bind]

theorem readMember_id (levels : Nat) (id : String) (rest : List Char) :
    ({} : EntryFields).read levels "id" (':' :: ((Value.string id).print ++ rest)) =
      .ok ({ id? := some id }, rest) := by
  simp [EntryFields.read, readField_fresh, Value.print, readString_printString, Except.map]

theorem readMember_value {node : Node} {fields : EntryFields} {levels : Nat}
    (fresh : fields.value? = none) (sorted : node.Sorted) (fits : node.toJson.nesting ≤ levels)
    (rest : List Char) :
    fields.read levels "value" (':' :: (node.toJson.print ++ rest)) =
      .ok ({ fields with value? := some (some node) }, rest) := by
  have read := readOptional_print node.toJson_numberless node.toJson_ne_null
    (readNode_print sorted fits rest)
  simp [EntryFields.read, readField_fresh, fresh, read, Except.map]

theorem readMember_index {nodes : List Node} {fields : EntryFields} {levels : Nat}
    (fresh : fields.index? = none) (sorted : Node.AllSorted nodes)
    (fits : (Value.array (Node.toJsons nodes)).nesting ≤ levels) (rest : List Char) :
    fields.read levels "index" (':' :: ((Value.array (Node.toJsons nodes)).print ++ rest)) =
      .ok ({ fields with index? := some (some nodes) }, rest) := by
  have numberless : (Value.array (Node.toJsons nodes)).Numberless := Node.toJsons_numberless nodes
  have read := readOptional_print numberless nofun (readNodes_print sorted fits rest)
  simp [EntryFields.read, readField_fresh, fresh, read, Except.map]

theorem readMember_attributes {attributes : Table AttributeNode} {fields : EntryFields}
    {levels : Nat} (fresh : fields.attributes? = none) (ascending : attributes.Ascending)
    (sorted : ∀ member ∈ attributes, member.2.Sorted)
    (fits : (Value.object (attributes.mapValues AttributeNode.toJson)).nesting ≤ levels)
    (rest : List Char) :
    fields.read levels "attrs" (':' ::
        ((Value.object (attributes.mapValues AttributeNode.toJson)).print ++ rest)) =
      .ok ({ fields with attributes? := some attributes }, rest) := by
  have read := readAttributes_print ascending sorted fits rest
  simp [EntryFields.read, readField_fresh, fresh, read, Except.map]

theorem membersBehindId_complete {entry : EntryNode} {levels : Nat} (sorted : entry.Sorted)
    (fits : ∀ member ∈ entry.membersBehindId, member.2.nesting ≤ levels) :
    Completes levels entry { id? := some entry.id } entry.membersBehindId := by
  obtain ⟨id, value?, index?, attributes⟩ := entry
  obtain ⟨value, index, ascending, ofAttributes⟩ := sorted
  simp only [EntryNode.membersBehindId, List.forall_mem_append] at fits ⊢
  obtain ⟨fitsValue, fitsIndex, fitsAttributes, -⟩ := fits
  let behindValue : EntryFields := { id? := some id, value? := value?.map some }
  let behindIndex : EntryFields := { behindValue with index? := index?.map some }
  let atEnd : EntryFields :=
    { behindIndex with attributes? := if attributes.isEmpty then none else some attributes }
  have finished : Completes levels ⟨id, value?, index?, attributes⟩ atEnd [] := by
    apply Completes.finish
    intro rest
    cases value? <;> cases index? <;> cases attributes <;>
      rfl
  apply @Completes.optional _ _ _ behindValue
  · intro json given rest
    obtain ⟨node, rfl, rfl⟩ := Option.map_eq_some_iff.mp given
    exact readMember_value rfl (value node rfl) (fitsValue _ (List.mem_singleton_self _)) rest
  · intro absent
    obtain rfl := Option.map_eq_none_iff.mp absent
    rfl
  apply @Completes.optional _ _ _ behindIndex
  · intro json given rest
    obtain ⟨nodes, rfl, rfl⟩ := Option.map_eq_some_iff.mp given
    exact readMember_index rfl (index nodes rfl) (fitsIndex _ (List.mem_singleton_self _)) rest
  · intro absent
    obtain rfl := Option.map_eq_none_iff.mp absent
    rfl
  cases attributes with
  | nil => exact finished
  | cons member attributes =>
      refine Completes.member ?_ finished
      exact readMember_attributes rfl ascending ofAttributes
        (fitsAttributes _ (List.mem_singleton_self _))

theorem readEntryMembers_print {entry : EntryNode} {levels steps : Nat} (sorted : entry.Sorted)
    (fits : ∀ member ∈ entry.membersBehindId, member.2.nesting ≤ levels)
    (enough : entry.membersBehindId.length < steps) (rest : List Char) :
    readEntryMembers levels (steps + 1) true {}
        (printFirstMember (("id", .string entry.id) :: entry.membersBehindId) ++ rest) =
      .ok (entry, '}' :: rest) := by
  have readId := readMember_id levels entry.id (printMembers entry.membersBehindId ++ rest)
  have others := membersBehindId_complete sorted fits steps enough rest
  simp [printFirstMember, readEntryMembers, nextName_printString, readId, others, bind, Except.bind]

theorem readEntry_print {entry : EntryNode} {levels : Nat} (sorted : entry.Sorted)
    (fits : entry.toJson.nesting ≤ levels) (rest : List Char) :
    readEntry levels (entry.toJson.print ++ rest) = .ok (entry, rest) := by
  rw [EntryNode.toJson_eq] at fits ⊢
  obtain ⟨levels, rfl⟩ := Nat.exists_eq_succ_of_ne_zero (Nat.ne_zero_of_lt fits)
  have fitsMembers := nestingOfMembers_le (Nat.le_of_succ_le_succ fits)
  have enough := length_le_printFirstMember (("id", .string entry.id) :: entry.membersBehindId)
  have read := @readEntryMembers_print entry levels
    (printFirstMember (("id", .string entry.id) :: entry.membersBehindId) ++ rest).length sorted
    (List.forall_mem_cons.mp fitsMembers).2
    (by simp only [List.length_append, List.length_cons] at enough ⊢; omega) rest
  rw [print_object, List.cons_append]
  simp [readEntry, -List.length_append, read, close, objectEnd]

/-- A list of entries whose nesting is allowed is found again in its JSON text. -/
theorem interchange_round_trip {nodes : List EntryNode} (sorted : ∀ node ∈ nodes, node.Sorted)
    (shallow : (Value.array (nodes.map EntryNode.toJson)).nesting < 128) :
    parseInterchange (Value.text (.array (nodes.map EntryNode.toJson))) = .ok nodes := by
  have fits : nestingOfItems (nodes.map EntryNode.toJson) ≤ 126 := by
    simp only [Value.nesting] at shallow
    omega
  have read : readList readEntry nestingLimit
      ((Value.array (nodes.map EntryNode.toJson)).print ++ []) = .ok (nodes, []) := by
    apply readList_print
    intro node member
    refine ⟨node.toJson_numberless, readEntry_print (sorted node member) ?_⟩
    exact nestingOfItems_le fits _ (List.mem_map_of_mem member)
  rw [List.append_nil] at read
  have whole : readEntries (Value.array (nodes.map EntryNode.toJson)).print = .ok nodes := by
    simp [readEntries, readWhole, read, readEnd, skipSpace, bind, Except.bind, pure, Except.pure]
  rw [parseInterchange, Value.text, String.toList_ofList, whole]
  rfl

theorem interchange_round_trip_unread :
    let count : Node := .call (.identifier "plural") [.identifier "n"]
    let branches : Table Node := [("many", .raw "\x7b\x7b n \x7d\x7d unread"), ("one", .raw "One")]
    let nodes : List EntryNode :=
      [⟨"unread", some (.hash branches (some "many")), some [count], []⟩,
        ⟨"inbox", none, some [],
          [("hint", .indexed (.string "\"\n") [count]), ("title", .plain (.raw "Inbox"))]⟩]
    (∀ node ∈ nodes, node.Sorted) ∧
    (Value.array (nodes.map EntryNode.toJson)).nesting < 128 ∧
    parseInterchange (Value.text (.array (nodes.map EntryNode.toJson))) = .ok nodes := by
  intro count branches nodes
  have countSorted : count.Sorted := ⟨trivial, trivial, trivial⟩
  have branchesSorted : Node.Sorted (.hash branches (some "many")) :=
    ⟨by decide, trivial, trivial, trivial⟩
  have sorted : ∀ node ∈ nodes, node.Sorted := by
    refine List.forall_mem_cons.mpr ⟨?_, List.forall_mem_singleton.mpr ?_⟩
    · refine ⟨?_, ?_, by decide, nofun⟩
      · rintro _ ⟨⟩
        exact branchesSorted
      · rintro _ ⟨⟩
        exact ⟨countSorted, trivial⟩
    · refine ⟨nofun, ?_, by decide, ?_⟩
      · rintro _ ⟨⟩
        exact trivial
      · refine List.forall_mem_cons.mpr ⟨⟨trivial, countSorted, trivial⟩, ?_⟩
        exact List.forall_mem_singleton.mpr trivial
  have shallow : (Value.array (nodes.map EntryNode.toJson)).nesting < 128 := by decide
  exact ⟨sorted, shallow, interchange_round_trip sorted shallow⟩

end Resource

end Phrasebook
