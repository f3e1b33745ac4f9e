import Phrasebook.Proofs.Resource.Histories
import Phrasebook.Proofs.Resource.Selectors

namespace Phrasebook.Resource

open Phrasebook.Text

/-- Why a line of a given number is refused behind others. -/
inductive Offends (before : List Assignment) (a : Assignment) (number : Nat) : ParseFailure → Prop
  | nested (dots : 2 ≤ a.name.count '.') :
      Offends before a number (.nestedAttribute number (String.ofList a.name))
  | malformed {target : Target} {key text : List Char} (named : a.target? = some target)
      (member : a.member? = some key)
      (last : (fillings target before).getLast? = some (.plain text))
      (noSelector : ¬ ∃ selector, SpellsSelector text selector) :
      Offends before a number (.malformedIndex number (String.ofList text))

/-- A block is refused behind others. -/
def Refused (front : List Block) (block : Block) (failure : ParseFailure) : Prop :=
  ∃ a, said? block.text = some a ∧ Offends (assignmentsOf front) a (lineBehind front) failure

section Lines

variable {before : List Assignment} {a : Assignment} {number : Nat} {failure : ParseFailure}

theorem clash?_eq_some_iff {fillings : List Filling} {next : Filling} {text : List Char} :
    clash? fillings next = some text ↔
      next.isMember = true ∧ fillings.getLast? = some (.plain text) ∧
        readSelector? text = none := by
  cases next with
  | plain _ => simp [clash?, Filling.isMember]
  | member key value =>
      cases last : fillings.getLast? with
      | none => simp [clash?, last]
      | some filling =>
          cases filling with
          | member _ _ => simp [clash?, last]
          | plain other =>
              have same : some (Filling.plain other) = some (.plain text) ↔ other = text := by simp
              rw [same]
              cases read : readSelector? other with
              | none =>
                  simp only [clash?, last, read, Filling.isMember, Option.isSome_none, true_and,
                    Bool.false_eq_true, if_false, Option.some.injEq]
                  constructor
                  · rintro rfl
                    exact ⟨rfl, read⟩
                  · exact And.left
              | some selector =>
                  simp only [clash?, last, read, Option.isSome_some, if_true]
                  constructor
                  · rintro ⟨⟩
                  · rintro ⟨-, rfl, unread⟩
                    rw [read] at unread
                    cases unread

theorem Assignment.isMember_filling :
    a.filling.isMember = true ↔ ∃ key, a.member? = some key := by
  rw [Assignment.filling]
  cases a.member? <;> simp [Filling.isMember]

theorem offence?_eq_some_iff :
    offence? before { a with line := number } = some failure ↔
      Offends before a number failure := by
  constructor
  · intro refused
    cases named : a.target? with
    | none =>
        have meant : { a with line := number }.target? = none := named
        rw [offence?, meant] at refused
        cases refused
        exact .nested (Assignment.target?_eq_none_iff.mp named)
    | some target =>
        have meant : { a with line := number }.target? = some target := named
        rw [offence?, meant] at refused
        obtain ⟨text, clash, rfl⟩ := Option.map_eq_some_iff.mp refused
        obtain ⟨isMember, last, unread⟩ := clash?_eq_some_iff.mp clash
        obtain ⟨key, member⟩ := Assignment.isMember_filling.mp isMember
        exact .malformed named member last (readSelector?_eq_none_iff.mp unread)
  · intro offends
    cases offends with
    | nested dots =>
        have named : { a with line := number }.target? = none :=
          Assignment.target?_eq_none_iff.mpr dots
        rw [offence?, named]
    | @malformed target key text named member last noSelector =>
        have meant : { a with line := number }.target? = some target := named
        have isMember : { a with line := number }.filling.isMember = true :=
          Assignment.isMember_filling.mpr ⟨key, member⟩
        have clash := clash?_eq_some_iff.mpr
          ⟨isMember, last, readSelector?_eq_none_iff.mpr noSelector⟩
        rw [offence?, meant]
        exact congrArg (Option.map _) clash

theorem Offends.line_eq (offends : Offends before a number failure) : failure.line = number := by
  cases offends <;> rfl

end Lines

section Runs

variable {bs : List Block} {failure : ParseFailure}

theorem firstOffence?_assignmentsOf_eq_none_iff :
    firstOffence? [] (assignmentsOf bs) = none ↔
      ∀ front block back, bs = front ++ block :: back →
        ∀ failure, ¬ Refused front block failure := by
  rw [firstOffence?_eq_none_iff]
  constructor
  · rintro quiet front block back rfl failure ⟨a, spoken, offends⟩
    obtain ⟨behind, split⟩ := assignmentsOf_append_cons spoken
    have accepted := quiet _ _ _ split
    rw [List.nil_append, offence?_eq_some_iff.mpr offends] at accepted
    cases accepted
  · intro accepted before a behind split
    obtain ⟨front, block, back, b, rfl, rfl, spoken, rfl⟩ := assignmentsOf_eq_append_cons split
    rw [List.nil_append, Option.eq_none_iff_forall_ne_some]
    intro failure refused
    exact accepted front block back rfl failure ⟨b, spoken, offence?_eq_some_iff.mp refused⟩

theorem firstOffence?_assignmentsOf_eq_some_iff :
    firstOffence? [] (assignmentsOf bs) = some failure ↔
      ∃ front block back, bs = front ++ block :: back ∧ Refused front block failure ∧
        ∀ earlier other between, front = earlier ++ other :: between →
          ∀ failure, ¬ Refused earlier other failure := by
  rw [firstOffence?_eq_some_iff]
  constructor
  · rintro ⟨before, a, behind, split, quiet, refused⟩
    obtain ⟨front, block, back, b, rfl, rfl, spoken, rfl⟩ := assignmentsOf_eq_append_cons split
    exact ⟨front, block, back, rfl, ⟨b, spoken, offence?_eq_some_iff.mp refused⟩,
      firstOffence?_assignmentsOf_eq_none_iff.mp quiet⟩
  · rintro ⟨front, block, back, rfl, ⟨a, spoken, offends⟩, accepted⟩
    obtain ⟨behind, split⟩ := assignmentsOf_append_cons spoken
    exact ⟨_, _, behind, split, firstOffence?_assignmentsOf_eq_none_iff.mpr accepted,
      offence?_eq_some_iff.mpr offends⟩

theorem parseProperties_eq_error_iff {source : String} :
    parseProperties source = .error failure ↔
      firstOffence? [] (assignmentsOf (blocks source.toList)) = some failure := by
  rw [parseProperties, entryNodesOf_eq, assignments_eq]
  cases firstOffence? [] (assignmentsOf (blocks source.toList)) <;> simp

end Runs

/-- A resource is refused for its first refused line, and the physical line on which that one starts
is told. -/
theorem properties_fail_at_first_offence (source : String) :
    ((∃ failure, parseProperties source = .error failure) ↔
      ∃ front block back failure, blocks source.toList = front ++ block :: back ∧
        Refused front block failure) ∧
    ∀ failure, parseProperties source = .error failure ↔
      ∃ front block back, blocks source.toList = front ++ block :: back ∧
        Refused front block failure ∧
        (∀ earlier other between, front = earlier ++ other :: between →
          ∀ failure, ¬ Refused earlier other failure) ∧
        failure.line = lineBehind front ∧
        (lines source.toList)[failure.line - 1]? = some (lineOf block.first) := by
  have byFirst : ∀ failure, parseProperties source = .error failure ↔ _ := fun failure =>
    parseProperties_eq_error_iff.trans firstOffence?_assignmentsOf_eq_some_iff
  constructor
  · constructor
    · rintro ⟨failure, failed⟩
      obtain ⟨front, block, back, split, refused, -⟩ := (byFirst failure).mp failed
      exact ⟨front, block, back, failure, split, refused⟩
    · rintro ⟨front, block, back, failure, split, refused⟩
      cases first : firstOffence? [] (assignmentsOf (blocks source.toList)) with
      | none =>
          have accepted := firstOffence?_assignmentsOf_eq_none_iff.mp first front block back split
          exact absurd refused (accepted failure)
      | some other => exact ⟨other, parseProperties_eq_error_iff.mpr first⟩
  · intro failure
    rw [byFirst]
    constructor
    · rintro ⟨front, block, back, split, refused, first⟩
      obtain ⟨a, spoken, offends⟩ := refused
      refine ⟨front, block, back, split, ⟨a, spoken, offends⟩, first, offends.line_eq, ?_⟩
      rw [offends.line_eq]
      exact line_of_split split
    · rintro ⟨front, block, back, split, refused, first, -⟩
      exact ⟨front, block, back, split, refused, first⟩

/-- The comment counts as a line, and nothing else. -/
example : parseProperties "a = text\n# note\na[one] = x" = .error (.malformedIndex 3 "text") := rfl

end Phrasebook.Resource
