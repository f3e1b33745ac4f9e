import Mathlib.Data.List.Nodup
import Phrasebook.Entry.Compile
import Phrasebook.Proofs.Resource.Account

namespace Phrasebook

theorem Table.ofList_perm {α : Type u} {pairs others : List (String × α)} (perm : pairs.Perm others)
    (distinct : (pairs.map Prod.fst).Nodup) : Table.ofList pairs = Table.ofList others := by
  apply (Table.ascending_ofList pairs).ext (Table.ascending_ofList others)
  intro name
  have onlyOne : ∀ {entry pair : String × α}, entry ∈ pairs → pair ∈ pairs → pair.1 = entry.1 →
      pair.2 = entry.2 := by
    intro entry pair inPairs inPairsToo same
    rw [List.inj_on_of_nodup_map distinct inPairsToo inPairs same]
  by_cases present : ∃ entry ∈ pairs, entry.1 = name
  · obtain ⟨entry, member, rfl⟩ := present
    rw [Table.find?_ofList_of_mem member fun pair inPairs same => onlyOne member inPairs same,
      Table.find?_ofList_of_mem (perm.mem_iff.mp member) fun pair inOthers same =>
        onlyOne member (perm.mem_iff.mpr inOthers) same]
  · have absent : ∀ pair ∈ pairs, pair.1 ≠ name :=
      fun pair member same => present ⟨pair, member, same⟩
    rw [Table.find?_ofList_of_absent absent,
      Table.find?_ofList_of_absent fun pair member => absent pair (perm.mem_iff.mpr member)]

namespace Resource

open Phrasebook.Text

/-- A member stands right behind a plain line, which becomes the selector. -/
def Turns (fillings : List Filling) : Prop :=
  ∃ front text key value back, fillings = front ++ .plain text :: .member key value :: back

section Selectors

variable {fillings front back : List Filling} {first : Filling}

theorem Steady.of_cons (steady : Steady (first :: fillings)) : Steady fillings := by
  rintro before next behind rfl
  have accepted := steady (first :: before) next behind rfl
  cases next with
  | plain text => rfl
  | member key value =>
      cases before with
      | nil => rfl
      | cons second before =>
          rw [clash?, List.getLast?_cons_cons] at accepted
          exact accepted

theorem Steady.of_append (steady : Steady (front ++ back)) : Steady back := by
  induction front with
  | nil => exact steady
  | cons first front ih => exact ih steady.of_cons

theorem Steady.of_append_left (steady : Steady (front ++ back)) : Steady front := by
  rintro before next behind rfl
  exact steady before next (behind ++ back) (by simp)

theorem turns_cons_iff :
    Turns (first :: fillings) ↔
      Turns fillings ∨ ∃ text key value back, first = .plain text ∧
        fillings = .member key value :: back := by
  constructor
  · rintro ⟨front, text, key, value, back, split⟩
    cases front with
    | nil =>
        obtain ⟨rfl, rfl⟩ := List.cons.inj split
        exact .inr ⟨text, key, value, back, rfl, rfl⟩
    | cons _ front =>
        obtain ⟨rfl, rfl⟩ := List.cons.inj split
        exact .inl ⟨front, text, key, value, back, rfl⟩
  · rintro (⟨front, text, key, value, back, rfl⟩ | ⟨text, key, value, back, rfl, rfl⟩)
    · exact ⟨first :: front, text, key, value, back, rfl⟩
    · exact ⟨[], text, key, value, back, rfl⟩

theorem declared?_eq_none_iff (steady : Steady fillings) :
    declared? fillings = none ↔ ¬ Turns fillings := by
  induction fillings with
  | nil =>
      apply iff_of_true rfl
      rintro ⟨front, _, _, _, _, split⟩
      cases front <;> cases split
  | cons first fillings ih =>
      rw [declared?, Option.or_eq_none_iff, ih steady.of_cons, turns_cons_iff, not_or]
      apply and_congr_right
      intro _
      cases first with
      | member _ _ => exact iff_of_true rfl (by rintro ⟨_, _, _, _, ⟨⟩, -⟩)
      | plain text =>
          cases fillings with
          | nil => exact iff_of_true rfl (by rintro ⟨_, _, _, _, -, ⟨⟩⟩)
          | cons next fillings =>
              cases next with
              | plain _ => exact iff_of_true rfl (by rintro ⟨_, _, _, _, -, ⟨⟩⟩)
              | member key value =>
                  -- The line was accepted, so the text in front of the member can be read.
                  have accepted := steady [.plain text] (.member key value) fillings rfl
                  have readable : readSelector? text ≠ none := by
                    intro unread
                    simp [clash?, unread] at accepted
                  exact iff_of_false readable (not_not_intro ⟨text, key, value, fillings, rfl, rfl⟩)

end Selectors

/-- A history without what was said of a slot before a plain line of it. -/
structure Cleared (as cs : List Assignment) (target : Target) (front back : List Filling)
    (text : List Char) : Prop where
  elsewhere : ∀ other, other ≠ target → fillings other cs = fillings other as
  whole : fillings target as = front ++ .plain text :: back
  left : fillings target cs = .plain text :: back

namespace Cleared

variable {as cs : List Assignment} {target : Target} {front back : List Filling}
variable {text : List Char}

theorem steady (cleared : Cleared as cs target front back text)
    (steady : ∀ other, Steady (fillings other as)) (other : Target) :
    Steady (fillings other cs) := by
  by_cases here : other = target
  · have onWhole := steady target
    rw [cleared.whole] at onWhole
    rw [here, cleared.left]
    exact onWhole.of_append
  · rw [cleared.elsewhere other here]
    exact steady other

theorem held?_eq (cleared : Cleared as cs target front back text) :
    held? (fillings target cs) = held? (fillings target as) := by
  rw [cleared.left, cleared.whole, held?_behind_plain]

theorem declared?_eq_iff (cleared : Cleared as cs target front back text)
    (steady : Steady (fillings target as)) :
    declared? (fillings target cs) = declared? (fillings target as) ↔
      Turns (.plain text :: back) ∨ ¬ Turns front := by
  rw [cleared.whole] at steady
  have later := declared?_eq_none_iff steady.of_append
  have earlier := declared?_eq_none_iff steady.of_append_left
  -- A selector from behind covers those from before, which show only where there is none.
  rw [cleared.left, cleared.whole, declared?_behind_plain]
  cases declared : declared? (.plain text :: back) with
  | some selector =>
      apply iff_of_true rfl
      by_contra neither
      rw [later.mpr (not_or.mp neither).1] at declared
      cases declared
  | none =>
      rw [Option.none_or, eq_comm, earlier]
      exact (or_iff_right (later.mp declared)).symm

theorem slot_eq (cleared : Cleared as cs target front back text)
    (same : declared? (fillings target cs) = declared? (fillings target as)) (other : Target) :
    Slot.ofFillings (fillings other cs) = Slot.ofFillings (fillings other as) := by
  by_cases here : other = target
  · rw [here, Slot.ofFillings, cleared.held?_eq, same]
    rfl
  · rw [cleared.elsewhere other here]

end Cleared

/-- The value and the selectors that nodes have for a slot. -/
def contentAt (nodes : List EntryNode) (target : Target) : Option Node × Option (List Node) :=
  match nodes.find? (·.id = String.ofList target.id), target.attribute? with
  | none, _ => (none, none)
  | some node, none => (node.value?, node.index?)
  | some node, some label =>
      match node.attributes.find? (String.ofList label) with
      | none => (none, none)
      | some held => (some held.value, held.index?)

section Contents

theorem find?_map_nodeOf (as : List Assignment) (id : List Char) (ids : List (List Char)) :
    (ids.map (nodeOf as)).find? (·.id = String.ofList id) =
      if id ∈ ids then some (nodeOf as id) else none := by
  induction ids with
  | nil => rfl
  | cons first ids ih =>
      have named : (nodeOf as first).id = String.ofList id ↔ first = id :=
        ⟨fun same => String.ofList_injective same, congrArg String.ofList⟩
      by_cases here : first = id
      · rw [List.map_cons, List.find?_cons_of_pos (by simpa using named.mpr here), here,
          if_pos List.mem_cons_self]
      · rw [List.map_cons, List.find?_cons_of_neg (by simpa using named.not.mpr here), ih]
        exact if_congr (by simp [Ne.symm here]) rfl rfl

theorem contentAt_nodesOf (as : List Assignment) (target : Target) :
    contentAt (nodesOf as) target =
      ((Slot.ofFillings (fillings target as)).node?,
        (Slot.ofFillings (fillings target as)).index?) := by
  rw [contentAt, nodesOf, find?_map_nodeOf]
  by_cases known : target.id ∈ ids as
  · rw [if_pos known]
    obtain ⟨id, label?⟩ := target
    cases label? with
    | none => rfl
    | some label =>
        simp only [find?_nodeOf]
        cases made : (Slot.ofFillings (fillings ⟨id, some label⟩ as)).attribute? with
        | none =>
            have unfilled := (filledBy_ofFillings _).unfilled.mp (attribute?_eq_none_iff.mp made)
            rw [unfilled]
            rfl
        | some held =>
            obtain ⟨value, index⟩ := attribute?_eq_some made
            rw [value, index]
  · rw [if_neg known, fillings_of_fresh known]
    rfl

theorem value_contentAt (as : List Assignment) (target : Target) :
    (contentAt (nodesOf as) target).1 = (held? (fillings target as)).map SlotValue.toNode := by
  rw [contentAt_nodesOf]
  rfl

theorem index_contentAt (as : List Assignment) (target : Target) :
    (contentAt (nodesOf as) target).2 = (declared? (fillings target as)).map ([·]) := by
  rw [contentAt_nodesOf]
  rfl

theorem index_contentAt_eq_iff {as cs : List Assignment} {target : Target} :
    (contentAt (nodesOf cs) target).2 = (contentAt (nodesOf as) target).2 ↔
      declared? (fillings target cs) = declared? (fillings target as) := by
  rw [index_contentAt, index_contentAt]
  exact (Option.map_injective List.singleton_injective).eq_iff

end Contents

/-- The resource without the lines of a slot in the blocks before. -/
def cleared (target : Target) (before rest : List Block) : String :=
  String.ofList
    ((before.filter (slotOf? ·.text ≠ some target) ++ rest).flatMap Block.source)

section Clearing

variable {source : String} {before rest : List Block}

theorem blocks_cleared (split : blocks source.toList = before ++ rest) (target : Target) :
    blocks (cleared target before rest).toList =
      before.filter (slotOf? ·.text ≠ some target) ++ rest := by
  rw [cleared, String.toList_ofList]
  apply blocks_of_sublist
  rw [split]
  exact List.filter_sublist.append_right rest

/-- Without the lines of a slot nothing is said of it, and all else as before. -/
theorem fillings_filter_slot (target other : Target) (bs : List Block) :
    fillings other (saidIn (bs.filter (slotOf? ·.text ≠ some target))) =
      if other = target then [] else fillings other (saidIn bs) := by
  have texts : (bs.filter (slotOf? ·.text ≠ some target)).map Block.text =
      (bs.map Block.text).filter (slotOf? · ≠ some target) := by
    rw [List.filter_map]
    rfl
  rw [saidIn, texts, fillings_filterMap_said?, List.filter_filter]
  split
  · rename_i same
    subst same
    simp [fillings]
  · rename_i differs
    have both : ((bs.map Block.text).filter fun line =>
        decide (slotOf? line = some other) && decide (slotOf? line ≠ some target)) =
          (bs.map Block.text).filter (slotOf? · = some other) := by
      apply List.filter_congr
      intro line _
      by_cases meant : slotOf? line = some other <;> simp [meant, differs]
    rw [both, ← fillings_filterMap_said?]
    rfl

theorem cleared_fillings {block : Block} {after : List Block} {text : List Char}
    {back : List Filling} (split : blocks source.toList = before ++ block :: after)
    (target : Target) (lines : fillings target (saidIn (block :: after)) = .plain text :: back) :
    Cleared (assignments source.toList)
      (assignments (cleared target before (block :: after)).toList) target
      (fillings target (saidIn before)) back text where
  elsewhere := by
    intro other differs
    rw [fillings_assignments, fillings_assignments, blocks_cleared split, split, saidIn_append,
      saidIn_append, fillings_append, fillings_append, fillings_filter_slot, if_neg differs]
  whole := by
    rw [fillings_assignments, split, saidIn_append, fillings_append, lines]
  left := by
    rw [fillings_assignments, blocks_cleared split, saidIn_append, fillings_append,
      fillings_filter_slot, if_pos rfl, lines]
    rfl

theorem named_cleared (split : blocks source.toList = before ++ rest) (target : Target)
    (named : ∀ a ∈ assignments source.toList, a.target? ≠ none) :
    ∀ a ∈ assignments (cleared target before rest).toList, a.target? ≠ none := by
  rw [assignments_eq, blocks_cleared split, assignmentsOf, named_filterMap_ofLine?,
    map_text_numbered]
  rw [assignments_eq, split, assignmentsOf, named_filterMap_ofLine?, map_text_numbered] at named
  intro a member
  apply named
  have part : (before.filter (slotOf? ·.text ≠ some target) ++ rest).Sublist (before ++ rest) :=
    List.filter_sublist.append_right rest
  exact ((part.map Block.text).filterMap said?).subset member

theorem ofNodes_perm {as : List Assignment} {nodes : List EntryNode}
    (perm : (nodesOf as).Perm nodes) : Entries.ofNodes (nodesOf as) = Entries.ofNodes nodes := by
  rw [Entries.ofNodes, Entries.ofNodes]
  apply Table.ofList_perm (perm.map _)
  have names : ((nodesOf as).map fun node => (node.id, node.compile)).map Prod.fst =
      (ids as).map String.ofList := by
    rw [nodesOf, List.map_map, List.map_map]
    rfl
  rw [names]
  exact (nodup_ids as).map fun _ _ same => String.ofList_injective same

end Clearing

/-- Without the lines of its slot before a plain one, a resource gives the same but for a selector
that those leave behind. -/
theorem redefinition_replaces_value {source : String} {nodes : List EntryNode}
    {before after : List Block} {block : Block} {a : Assignment} {target : Target}
    (parsed : parseProperties source = .ok nodes)
    (split : blocks source.toList = before ++ block :: after)
    (spoken : said? block.text = some a) (plain : a.member? = none)
    (meant : a.target? = some target) :
    ∃ others, parseProperties (cleared target before (block :: after)) = .ok others ∧
      (∀ other, other ≠ target → contentAt others other = contentAt nodes other) ∧
      (contentAt others target).1 = (contentAt nodes target).1 ∧
      ((contentAt others target).2 = (contentAt nodes target).2 ↔
        Turns (fillings target (saidIn (block :: after))) ∨
          ¬ Turns (fillings target (saidIn before))) ∧
      ((contentAt others target).2 = (contentAt nodes target).2 →
        others.Perm nodes ∧ Entries.ofNodes others = Entries.ofNodes nodes) := by
  obtain ⟨quiet, rfl⟩ := parseProperties_eq_ok_iff.mp parsed
  obtain ⟨named, steady⟩ := firstOffence?_eq_none_iff_steady.mp quiet
  have namedToo := named_cleared split target named
  have lines : fillings target (saidIn (block :: after)) =
      .plain a.value :: fillings target (saidIn after) := by
    rw [saidIn, List.map_cons, List.filterMap_cons_some spoken, fillings_cons, if_pos meant,
      Assignment.filling, plain]
    rfl
  have without := cleared_fillings split target lines
  refine ⟨nodesOf (assignments (cleared target before (block :: after)).toList), ?_, ?_, ?_, ?_, ?_⟩
  · apply parseProperties_eq_ok_iff.mpr
    exact ⟨firstOffence?_eq_none_iff_steady.mpr ⟨namedToo, without.steady steady⟩, rfl⟩
  · intro other differs
    rw [contentAt_nodesOf, contentAt_nodesOf, without.elsewhere other differs]
  · rw [value_contentAt, value_contentAt, without.held?_eq]
  · rw [index_contentAt_eq_iff, lines]
    exact without.declared?_eq_iff (steady target)
  · intro same
    have perm := nodesOf_perm namedToo named (without.slot_eq (index_contentAt_eq_iff.mp same))
    exact ⟨perm, ofNodes_perm perm⟩

theorem redefinition_replaces_value_selector :
    ∃ nodes others,
      parseProperties "a = \x7b[ n ]\x7d\na[one] = x\nb.c = y\na = \x7b[ m ]\x7d\na[two] = z" =
        .ok nodes ∧
      parseProperties "b.c = y\na = \x7b[ m ]\x7d\na[two] = z" = .ok others ∧
      others.Perm nodes ∧ Entries.ofNodes others = Entries.ofNodes nodes := by
  have parsed : parseProperties
      "a = \x7b[ n ]\x7d\na[one] = x\nb.c = y\na = \x7b[ m ]\x7d\na[two] = z" =
        .ok [⟨"a", some (.hash [("two", .raw "z")] none), some [.identifier "m"], []⟩,
          ⟨"b", none, none, [("c", .plain (.raw "y"))]⟩] := rfl
  have split : blocks
      "a = \x7b[ n ]\x7d\na[one] = x\nb.c = y\na = \x7b[ m ]\x7d\na[two] = z".toList =
        [⟨"a = \x7b[ n ]\x7d\n".toList, []⟩, ⟨"a[one] = x\n".toList, []⟩,
          ⟨"b.c = y\n".toList, []⟩] ++
        ⟨"a = \x7b[ m ]\x7d\n".toList, []⟩ :: [⟨"a[two] = z".toList, []⟩] := rfl
  have spoken : said? (Block.text ⟨"a = \x7b[ m ]\x7d\n".toList, []⟩) =
      some ⟨0, ['a'], none, "\x7b[ m ]\x7d".toList⟩ := rfl
  have meant : Assignment.target? ⟨0, ['a'], none, "\x7b[ m ]\x7d".toList⟩ =
      some ⟨['a'], none⟩ := rfl
  obtain ⟨others, parsedToo, -, -, index, same⟩ :=
    redefinition_replaces_value parsed split spoken rfl meant
  have turns : Turns (fillings ⟨['a'], none⟩ (saidIn [⟨"a = \x7b[ m ]\x7d\n".toList, []⟩,
      ⟨"a[two] = z".toList, []⟩])) :=
    ⟨[], "\x7b[ m ]\x7d".toList, "two".toList, "z".toList, [], rfl⟩
  have rest : cleared ⟨['a'], none⟩
      [⟨"a = \x7b[ n ]\x7d\n".toList, []⟩, ⟨"a[one] = x\n".toList, []⟩, ⟨"b.c = y\n".toList, []⟩]
      [⟨"a = \x7b[ m ]\x7d\n".toList, []⟩, ⟨"a[two] = z".toList, []⟩] =
        "b.c = y\na = \x7b[ m ]\x7d\na[two] = z" := by decide
  rw [rest] at parsedToo
  exact ⟨_, others, parsed, parsedToo, same (index.mpr (.inl turns))⟩

/-- The selector that an earlier member took from its slot outlasts a later plain line. -/
theorem redefinition_keeps_index :
    ∃ before block nodes others,
      blocks "a = \x7b[ n ]\x7d\na[one] = x\na = text".toList = before ++ [block] ∧
      said? block.text = some ⟨0, ['a'], none, "text".toList⟩ ∧
      parseProperties "a = \x7b[ n ]\x7d\na[one] = x\na = text" = .ok nodes ∧
      parseProperties (cleared ⟨['a'], none⟩ before [block]) = .ok others ∧
      contentAt nodes ⟨['a'], none⟩ = (some (.raw "text"), some [.identifier "n"]) ∧
      contentAt others ⟨['a'], none⟩ = (some (.raw "text"), none) ∧
      Entries.ofNodes nodes ≠ Entries.ofNodes others := by
  refine ⟨[⟨"a = \x7b[ n ]\x7d\n".toList, []⟩, ⟨"a[one] = x\n".toList, []⟩],
    ⟨"a = text".toList, []⟩, [⟨"a", some (.raw "text"), some [.identifier "n"], []⟩],
    [⟨"a", some (.raw "text"), none, []⟩], rfl, rfl, rfl, rfl, rfl, rfl, ?_⟩
  intro same
  have kept : Entries.ofNodes [⟨"a", some (.raw "text"), some [.identifier "n"], []⟩] =
      [("a", ⟨.complex (some (.literal "text")) [.reference "n"], []⟩)] := rfl
  have bare : Entries.ofNodes [⟨"a", some (.raw "text"), none, []⟩] =
      [("a", ⟨.bare "text", []⟩)] := rfl
  rw [kept, bare] at same
  cases same

end Resource

end Phrasebook
