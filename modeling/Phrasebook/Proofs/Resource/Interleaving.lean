import Phrasebook.Proofs.Resource.Histories

namespace Phrasebook.Resource

open Phrasebook.Text

/-- A line that does not go on in the next one and says something of a slot. -/
def CompleteLine (line : List Char) : Prop :=
  continues line = false ∧ ∃ a, said? line = some a ∧ a.name.count '.' ≤ 1

section Lines

variable {ls : List (List Char)} {source : String}

theorem map_text_joinLines (start next : Nat) {line : List Char} (complete : continues line = false)
    (completeRest : ∀ line ∈ ls, continues line = false) :
    (joinLines start next line ls).map (·.text) = line :: ls := by
  induction ls generalizing start next line with
  | nil => rfl
  | cons first ls ih =>
      obtain ⟨completeFirst, completeLater⟩ := List.forall_mem_cons.mp completeRest
      rw [joinLines, if_neg (by simp [complete]), List.map_cons,
        ih next (next + 1) completeFirst completeLater]

theorem map_text_logicalLines {source : List Char}
    (complete : ∀ line ∈ lines source, continues line = false) :
    (logicalLines source).map (·.text) = lines source := by
  rw [logicalLines]
  cases split : lines source with
  | nil => rfl
  | cons first rest =>
      rw [split] at complete
      obtain ⟨completeFirst, completeRest⟩ := List.forall_mem_cons.mp complete
      exact map_text_joinLines 1 2 completeFirst completeRest

theorem fillings_of_complete (complete : ∀ line ∈ lines source.toList, CompleteLine line)
    (target : Target) :
    fillings target (assignments source.toList) =
      fillings target
        (((lines source.toList).filter (slotOf? · = some target)).filterMap said?) := by
  rw [assignments, fillings_filterMap_ofLine?,
    map_text_logicalLines fun line member => (complete line member).1, fillings_filterMap_said?]

theorem named_of_complete (complete : ∀ line ∈ lines source.toList, CompleteLine line) :
    ∀ a ∈ assignments source.toList, a.target? ≠ none := by
  rw [assignments, named_filterMap_ofLine?,
    map_text_logicalLines fun line member => (complete line member).1]
  intro a member unnamed
  obtain ⟨line, inSource, spoken⟩ := List.mem_filterMap.mp member
  obtain ⟨-, b, said, dots⟩ := complete line inSource
  obtain rfl := Option.some.inj (spoken.symm.trans said)
  have twoDots := Assignment.target?_eq_none_iff.mp unnamed
  omega

end Lines

theorem properties_slots_independent {first second : String}
    (complete : ∀ line ∈ lines first.toList, CompleteLine line)
    (completeToo : ∀ line ∈ lines second.toList, CompleteLine line)
    (same : ∀ target, (lines first.toList).filter (slotOf? · = some target) =
      (lines second.toList).filter (slotOf? · = some target)) :
    ((∃ nodes, parseProperties first = .ok nodes) ↔
      ∃ nodes, parseProperties second = .ok nodes) ∧
    ∀ nodes others, parseProperties first = .ok nodes → parseProperties second = .ok others →
      nodes.Perm others := by
  -- Either run is told by what its lines say of each slot, and that is the same for both.
  have sameFillings : ∀ target, fillings target (assignments first.toList) =
      fillings target (assignments second.toList) := by
    intro target
    rw [fillings_of_complete complete, fillings_of_complete completeToo, same]
  have named := named_of_complete complete
  have namedToo := named_of_complete completeToo
  constructor
  · simp only [parseProperties_eq_ok_iff, firstOffence?_eq_none_iff_steady, sameFillings,
      exists_and_left, exists_eq, and_true]
    exact and_congr_left fun _ => iff_of_true named namedToo
  · intro nodes others parsed parsedToo
    rw [(parseProperties_eq_ok_iff.mp parsed).2, (parseProperties_eq_ok_iff.mp parsedToo).2]
    apply nodesOf_perm named namedToo
    intro target
    rw [sameFillings]

theorem properties_slots_independent_shuffled :
    let first := "a = \x7b[ n ]\x7d\nb = B\na[one] = x"
    let second := "b = B\na = \x7b[ n ]\x7d\na[one] = x"
    (∀ line ∈ lines first.toList, CompleteLine line) ∧
    (∀ line ∈ lines second.toList, CompleteLine line) ∧
    (∀ target, (lines first.toList).filter (slotOf? · = some target) =
      (lines second.toList).filter (slotOf? · = some target)) ∧
    ∃ nodes others, parseProperties first = .ok nodes ∧ parseProperties second = .ok others ∧
      nodes.Perm others := by
  intro first second
  have linesFirst : lines first.toList =
      ["a = \x7b[ n ]\x7d".toList, "b = B".toList, "a[one] = x".toList] := by decide
  have linesSecond : lines second.toList =
      ["b = B".toList, "a = \x7b[ n ]\x7d".toList, "a[one] = x".toList] := by decide
  have index : CompleteLine "a = \x7b[ n ]\x7d".toList := ⟨rfl, _, rfl, by decide⟩
  have other : CompleteLine "b = B".toList := ⟨rfl, _, rfl, by decide⟩
  have member : CompleteLine "a[one] = x".toList := ⟨rfl, _, rfl, by decide⟩
  have complete : ∀ line ∈ lines first.toList, CompleteLine line := by
    rw [linesFirst]
    exact List.forall_mem_cons.mpr ⟨index, List.forall_mem_cons.mpr ⟨other, by simpa using member⟩⟩
  have completeToo : ∀ line ∈ lines second.toList, CompleteLine line := by
    rw [linesSecond]
    exact List.forall_mem_cons.mpr ⟨other, List.forall_mem_cons.mpr ⟨index, by simpa using member⟩⟩
  have same : ∀ target, (lines first.toList).filter (slotOf? · = some target) =
      (lines second.toList).filter (slotOf? · = some target) := by
    intro target
    have slotA : slotOf? "a = \x7b[ n ]\x7d".toList = some ⟨['a'], none⟩ := rfl
    have slotB : slotOf? "b = B".toList = some ⟨['b'], none⟩ := rfl
    have slotMember : slotOf? "a[one] = x".toList = some ⟨['a'], none⟩ := rfl
    rw [linesFirst, linesSecond]
    by_cases here : target = ⟨['b'], none⟩
    · subst here
      rfl
    · have notB : slotOf? "b = B".toList ≠ some target := by
        rw [slotB]
        exact fun equal => here (Option.some.inj equal).symm
      simp only [List.filter_cons, notB]
      rfl
  have parsed : parseProperties "a = \x7b[ n ]\x7d\nb = B\na[one] = x" =
      .ok [⟨"a", some (.hash [("one", .raw "x")] none), some [.identifier "n"], []⟩,
        ⟨"b", some (.raw "B"), none, []⟩] := rfl
  have parsedToo : parseProperties "b = B\na = \x7b[ n ]\x7d\na[one] = x" =
      .ok [⟨"b", some (.raw "B"), none, []⟩,
        ⟨"a", some (.hash [("one", .raw "x")] none), some [.identifier "n"], []⟩] := rfl
  have results := properties_slots_independent complete completeToo same
  exact ⟨complete, completeToo, same, _, _, parsed, parsedToo, results.2 _ _ parsed parsedToo⟩

end Phrasebook.Resource
