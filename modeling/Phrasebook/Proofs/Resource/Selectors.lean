import Phrasebook.Proofs.Node.Grammar
import Phrasebook.Resource.Properties

namespace Phrasebook.Resource

open Phrasebook.Placeable
open Phrasebook.Text
open Phrasebook.Unicode

/-- An expression between braces and brackets, with any white space around it. -/
def SpellsSelector (text : List Char) (selector : Node) : Prop :=
  ∃ front body back, Blank front ∧ Spells body selector ∧ Blank back ∧
    trim text = '{' :: '[' :: (front ++ (body ++ (back ++ [']', '}'])))

/-- Nothing can stand behind the closing bracket but the closing brace. -/
theorem trim_closing_iff {rest : List Char} (starts : Stops (fun c => decide (c ≠ ']')) rest)
    (ends : Stops isWhiteSpace rest.reverse) : trim rest = [']', '}'] ↔ rest = [']', '}'] := by
  cases rest with
  | nil => decide
  | cons c rest =>
      have closing : c = ']' := by simpa using starts
      subst closing
      rw [trim_of_stops (by simp) ends]

theorem readSelector?_eq_some_iff {text : List Char} {selector : Node} :
    readSelector? text = some selector ↔ SpellsSelector text selector := by
  have ends := stops_reverse_trim text
  constructor
  · intro read
    unfold readSelector? at read
    split at read
    · rename_i rest opened
      have whole := List.takeWhile_append_dropWhile (p := fun c => decide (c ≠ ']')) (l := rest)
      rw [opened, ← whole] at ends
      simp only [List.reverse_cons, List.reverse_append, List.append_assoc] at ends
      split at read
      · rename_i closed
        rw [trim_closing_iff (stops_dropWhile _ rest) ends.of_append] at closed
        obtain ⟨front, body, back, before, spelled, after, inner⟩ :=
          Node.ofExpression?_eq_some_iff.mp read
        refine ⟨front, body, back, before, spelled, after, ?_⟩
        rw [opened, ← whole, closed, inner]
        simp
      · cases read
    · cases read
  · rintro ⟨front, body, back, before, spelled, after, same⟩
    have foreign : Foreign ']' := by decide
    have inside : ∀ c ∈ front ++ (body ++ back), decide (c ≠ ']') = true := by
      intro c member
      apply decide_eq_true
      rintro rfl
      simp [before.not_mem foreign, spelled.not_mem foreign, after.not_mem foreign] at member
    have closes : Stops (fun c => decide (c ≠ ']')) [']', '}'] := by simp
    have regrouped : front ++ (body ++ (back ++ [']', '}'])) =
        front ++ (body ++ back) ++ [']', '}'] := by simp
    have closed : trim [']', '}'] = [']', '}'] := by decide
    rw [readSelector?, same, regrouped]
    simp only [takeWhile_span inside closes, dropWhile_span inside closes, closed, if_true]
    exact Node.ofExpression?_eq_some_iff.mpr ⟨front, body, back, before, spelled, after, rfl⟩

theorem readSelector?_eq_none_iff {text : List Char} :
    readSelector? text = none ↔ ¬ ∃ selector, SpellsSelector text selector := by
  simp only [Option.eq_none_iff_forall_ne_some, ne_eq, readSelector?_eq_some_iff, not_exists]

end Phrasebook.Resource
