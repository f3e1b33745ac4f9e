import Phrasebook.Proofs.Evaluation.Restoration

namespace Phrasebook

def Phrase.names : Phrase → List String
  | .bare _ => []
  | .complex value? index =>
      (value?.map Expression.names).getD [] ++ index.flatMap Expression.names

/-- The names that a root leads to, by way of entries of either table. -/
inductive Reaches (left right : Entries) (root : Phrase) : String → Prop
  | root {name : String} (occurs : name ∈ root.names) : Reaches left right root name
  | entry {via name : String} {entry : Entry} (reached : Reaches left right root via)
      (known : left.find? via = some entry ∨ right.find? via = some entry)
      (occurs : name ∈ entry.phrase.names) : Reaches left right root name

namespace Scope

/-- Two scopes that agree on some names, from which none but these are reached. -/
structure Agree (reached : String → Prop) (left right : Scope) : Prop where
  language : left.language = right.language
  arguments : ∀ name, reached name → left.arguments.find? name = right.arguments.find? name
  phrases : ∀ name, reached name → left.phrase? name = right.phrase? name
  closed : ∀ name phrase, reached name → left.phrase? name = some phrase →
    ∀ next ∈ phrase.names, reached next

theorem Agree.outcome {reached : String → Prop} {left right : Scope}
    (agree : Agree reached left right) (stack : CallStack) (id : String) (phrase : Phrase)
    (within : ∀ name ∈ phrase.names, reached name) :
    left.outcome stack id phrase = right.outcome stack id phrase := by
  induction stack using CallStack.opening_induction generalizing id phrase with
  | step stack ih =>
      match phrase with
      | .bare _ => rw [outcome_bare, outcome_bare]
      | .complex none _ => rw [outcome_valueless, outcome_valueless]
      | .complex (some value) index =>
          cases pushed : stack.push id with
          | error fault => rw [left.outcome_of_refused pushed, right.outcome_of_refused pushed]
          | ok entered =>
              have answers : Correspondence.same.Answers (left.answer (left.outcome entered))
                  (right.answer (right.outcome entered))
                  (value.names ++ index.flatMap Expression.names) := by
                intro name occurs
                have known := within name occurs
                refine Correspondence.same.rel_answer (agree.arguments name known) ?_
                rw [← agree.phrases name known]
                cases found : left.phrase? name with
                | none => exact .none
                | some phrase =>
                    exact .some (ih id entered pushed name phrase
                      (agree.closed name phrase known found))
              rw [left.outcome_of_pushed pushed, right.outcome_of_pushed pushed, formatValue,
                formatValue, ← agree.language]
              exact Correspondence.same.rel_formatIndexed left.language index value answers

end Scope

/-- The result for an entry, be it a value or a fault, is determined by the arguments and the
phrases under the names that the entry leads to. -/
theorem format_determined_by_reach (left right : Entries) (arguments others : Arguments)
    (language id : String) (root : Entry) (limit : Nat)
    (agree : ∀ name, Reaches left right root.phrase name →
      arguments.find? name = others.find? name ∧
        (left.find? name).map Entry.phrase = (right.find? name).map Entry.phrase) :
    (Scope.ofEntries left arguments language).format (.empty limit) id root.phrase =
      (Scope.ofEntries right others language).format (.empty limit) id root.phrase := by
  have scopes : Scope.Agree (Reaches left right root.phrase)
      (.ofEntries left arguments language) (.ofEntries right others language) := by
    refine ⟨rfl, fun name reached => (agree name reached).1,
      fun name reached => (agree name reached).2, ?_⟩
    intro name phrase reached known next occurs
    obtain ⟨entry, found, rfl⟩ := Option.map_eq_some_iff.mp known
    exact .entry reached (.inl found) occurs
  rw [Scope.format_eq, Scope.format_eq, scopes.outcome (.empty limit) id root.phrase fun _ => .root]

theorem format_determined_by_reach_letter :
    let root : Entry :=
      { phrase := .complex (some (.pattern [.literal "Dear ", .reference "title"])) [] }
    let title : Phrase := .complex
      (some (.selection [("formal", .literal "reader"), ("other", .reference "name")] none))
      [.reference "tone"]
    let left : Entries :=
      [("letter", root), ("title", { phrase := title, attributes := [("hint", .bare "Name")] }),
        ("unread", { phrase := .complex (some (.reference "unread")) [] })]
    let right : Entries := [("count", { phrase := .bare "Many" }), ("title", { phrase := title })]
    let arguments : Arguments :=
      [("count", .number 2), ("name", .text "you"), ("tone", .text "warm")]
    let others : Arguments := [("name", .text "you"), ("tone", .text "warm")]
    (∀ name, Reaches left right root.phrase name →
      arguments.find? name = others.find? name ∧
        (left.find? name).map Entry.phrase = (right.find? name).map Entry.phrase) ∧
    (Scope.ofEntries left arguments "en").format (.empty 2) "letter" root.phrase =
      (Scope.ofEntries right others "en").format (.empty 2) "letter" root.phrase := by
  intro root title left right arguments others
  have reached : ∀ name, Reaches left right root.phrase name →
      name ∈ ["title", "name", "tone"] := by
    intro name reaches
    induction reaches with
    | root occurs =>
        have here : root.phrase.names = ["title"] := rfl
        rw [here] at occurs
        exact List.mem_cons.mpr (.inl (List.mem_singleton.mp occurs))
    | @entry via name entry _ known occurs ih =>
        have found : entry.phrase = title := by
          simp only [List.mem_cons, List.not_mem_nil, or_false] at ih
          rcases ih with rfl | rfl | rfl
          · rcases known with same | same
            · exact congrArg Entry.phrase (Option.some.inj same).symm
            · exact congrArg Entry.phrase (Option.some.inj same).symm
          · rcases known with none | none <;> cases none
          · rcases known with none | none <;> cases none
        have here : title.names = ["name", "tone"] := rfl
        rw [found, here] at occurs
        exact List.mem_cons_of_mem "title" occurs
  have agree : ∀ name, Reaches left right root.phrase name →
      arguments.find? name = others.find? name ∧
        (left.find? name).map Entry.phrase = (right.find? name).map Entry.phrase := by
    intro name reaches
    have known := reached name reaches
    simp only [List.mem_cons, List.not_mem_nil, or_false] at known
    rcases known with rfl | rfl | rfl
    · exact ⟨rfl, rfl⟩
    · exact ⟨rfl, rfl⟩
    · exact ⟨rfl, rfl⟩
  exact ⟨agree, format_determined_by_reach left right arguments others "en" "letter" root 2 agree⟩

end Phrasebook
