import Phrasebook.Proofs.Decimal.Extent
import Phrasebook.Proofs.Evaluation.Assembly

namespace Phrasebook

theorem Value.placed_length {value : Value} {text : String} (placed : value.placed = .ok text) :
    text.length < maxPlaceableLength := by
  unfold Value.placed at placed
  split at placed
  · cases placed
  · rename_i fits
    cases placed
    -- Only texts are checked; the texts of numbers are never that long.
    cases kind : value.isText with
    | false => exact value.length_display_lt kind
    | true => simpa [kind] using fits

theorem length_isolate (text : String) : (isolate text).length = text.length + 2 := by
  unfold isolate firstStrongIsolate popDirectionalIsolate
  simp only [String.length_append]
  rw [show "\u2068".length = 1 from rfl, show "\u2069".length = 1 from rfl]
  omega

namespace Expression

/-- The length of the literals among some parts, put together. -/
def literalLength (parts : List Expression) : Nat :=
  (String.join (parts.filterMap literal?)).length

theorem literalLength_literal {part : Expression} {text : String}
    (literal : part.literal? = some text) (parts : List Expression) :
    literalLength (part :: parts) = text.length + literalLength parts := by
  rw [literalLength, List.filterMap_cons_some literal, String.join_cons, String.length_append,
    literalLength]

theorem literalLength_placeable {part : Expression} (placeable : part.literal? = none)
    (parts : List Expression) : literalLength (part :: parts) = literalLength parts := by
  rw [literalLength, List.filterMap_cons_none placeable, literalLength]

theorem placeableCount_literal {part : Expression} {text : String}
    (literal : part.literal? = some text) (parts : List Expression) :
    placeableCount (part :: parts) = placeableCount parts :=
  List.countP_cons_of_neg (by simp [literal])

theorem placeableCount_placeable {part : Expression} (placeable : part.literal? = none)
    (parts : List Expression) : placeableCount (part :: parts) = placeableCount parts + 1 :=
  List.countP_cons_of_pos (by simp [placeable])

variable {outcome : Expression → Except Fault String}

theorem length_assembledText_le {parts : List Expression} {bound : Nat}
    (placed : ∀ part text, outcome part = .ok text → text.length < bound)
    (unfailed : faults outcome parts = []) :
    (assembledText outcome parts).length ≤
      literalLength parts + (bound + 1) * placeableCount parts := by
  induction parts with
  | nil => exact Nat.zero_le _
  | cons part parts ih =>
      rw [assembledText, List.map_cons, String.join_cons, String.length_append]
      obtain ⟨text, literal, piece, none⟩ | ⟨text, placeable, shown, piece, none⟩ |
        ⟨fault, -, -, -, failed⟩ := part.part_cases outcome
      · have rest := ih (by rwa [faults, List.filterMap_cons_none none] at unfailed)
        rw [piece, literalLength_literal literal, placeableCount_literal literal, Nat.add_assoc]
        exact Nat.add_le_add_left rest _
      · have rest := ih (by rwa [faults, List.filterMap_cons_none none] at unfailed)
        have short := placed part text shown
        rw [piece, length_isolate, literalLength_placeable placeable,
          placeableCount_placeable placeable, Nat.mul_succ]
        change (assembledText outcome parts).length ≤ _ at rest
        rw [assembledText] at rest
        omega
      · rw [faults, List.filterMap_cons_some failed] at unfailed
        cases unfailed

theorem finish_ok {parts : List Expression} {value : Value}
    (succeeded : finish (assembled outcome parts) = .ok value) :
    value = .text (assembledText outcome parts) ∧ faults outcome parts = [] := by
  rw [finish_assembled] at succeeded
  split at succeeded
  · cases succeeded
  · cases succeeded
  · rename_i unfailed
    cases succeeded
    exact ⟨rfl, List.head?_eq_none_iff.mp unfailed⟩

end Expression

/-- The value of a pattern takes no more than its literals and 2501 characters for each of at most
100 placeables, whatever they refer to. -/
theorem expansion_bounded (scope : Scope) (stack : CallStack) (id : String)
    (parts index : List Expression) {value : Value}
    (succeeded : (scope.format stack id (.complex (some (.pattern parts)) index)).1 = .ok value) :
    ∃ text, value = .text text ∧
      text.length ≤ Expression.literalLength parts + 2501 * Expression.placeableCount parts ∧
      Expression.placeableCount parts ≤ 100 := by
  change scope.outcome stack id _ = _ at succeeded
  cases pushed : stack.push id with
  | error fault =>
      rw [scope.outcome_of_refused pushed] at succeeded
      cases succeeded
  | ok entered =>
      rw [scope.outcome_of_pushed pushed, scope.formatValue_eq, scope.evaluate_pattern] at succeeded
      split at succeeded
      · cases succeeded
      · rename_i few
        obtain ⟨rfl, unfailed⟩ := Expression.finish_ok succeeded
        refine ⟨_, rfl, ?_, Nat.le_of_not_lt few⟩
        apply Expression.length_assembledText_le _ unfailed
        intro part text placed
        rw [scope.place_eq] at placed
        cases evaluated : scope.evaluate (scope.outcome entered) index 0 part with
        | error fault =>
            rw [evaluated] at placed
            cases placed
        | ok value =>
            rw [evaluated] at placed
            exact value.placed_length placed

theorem expansion_bounded_laughter :
    let twice : Entry :=
      { phrase := .complex (some (.pattern [.reference "ha", .reference "ha"])) [] }
    let scope := Scope.ofEntries [("ha", { phrase := .bare "Ha" }), ("twice", twice)] [] "en"
    let parts : List Expression := [.literal "All: ", .reference "twice", .reference "twice"]
    let doubled := isolate "Ha" ++ isolate "Ha"
    let text := "All: " ++ isolate doubled ++ isolate doubled
    (scope.format (.empty 2) "laughter" (.complex (some (.pattern parts)) [])).1 =
        .ok (.text text) ∧
      text.length ≤ 5 + 2501 * 2 := by
  intro twice scope parts doubled text
  have succeeded : (scope.format (.empty 2) "laughter" (.complex (some (.pattern parts)) [])).1 =
      .ok (.text text) := rfl
  obtain ⟨_, same, bounded, -⟩ := expansion_bounded scope (.empty 2) "laughter" parts [] succeeded
  cases same
  have literals : Expression.literalLength parts = 5 := by
    rw [Expression.literalLength_literal rfl]
    rfl
  rw [literals] at bounded
  exact ⟨succeeded, bounded⟩

end Phrasebook
