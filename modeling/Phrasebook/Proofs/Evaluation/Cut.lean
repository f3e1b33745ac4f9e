import Phrasebook.Proofs.Evaluation.Correspondence

/-! Evaluation that may be cut off, and what then is kept of it. -/

namespace Phrasebook

open MonadExcept (ofExcept)

def Fault.root : Fault → Fault
  | .value _ source => source.root
  | .index source => source.root
  | fault => fault

@[simp] theorem Fault.root_asIndex (fault : Fault) : fault.asIndex.root = fault.root := by
  cases fault <;> rfl

/-- A value, a fault, or nothing if the evaluation was cut off. -/
abbrev Cut := ExceptT Fault Option

namespace Correspondence

def settled : Correspondence (Except Fault) Cut :=
  .uniform (fun outcome cut => cut = some outcome)
    (fun _ => rfl)
    (fun _ => rfl)
    (by
      rintro α β left right f g rfl continued
      cases left with
      | ok a => exact continued a
      | error fault => rfl)
    (by
      rintro α left right f g rfl handled
      cases left with
      | ok a => rfl
      | error fault => exact handled fault)

def extending : Correspondence Cut Cut :=
  .uniform (fun left right => ∀ outcome, left = some outcome → right = some outcome)
    (fun _ _ same => same)
    (fun _ _ same => same)
    (by
      intro α β left right f g extends' continued outcome ended
      match left with
      | some (.ok a) =>
          rw [extends' _ rfl]
          exact continued a outcome ended
      | some (.error fault) =>
          rw [extends' _ rfl]
          exact ended)
    (by
      intro α left right f g extends' handled outcome ended
      match left with
      | some (.ok a) =>
          rw [extends' _ rfl]
          exact ended
      | some (.error fault) =>
          rw [extends' _ rfl]
          exact handled fault outcome ended)

end Correspondence

namespace Cut

theorem assemble_literal {part : Expression} {text : String} (literal : part.literal? = some text)
    (evaluated : Cut Value) : assemble part evaluated = some (.ok (.ofText text)) := by
  rw [assemble, literal]
  rfl

theorem assemble_value {part : Expression} (placeable : part.literal? = none) (value : Value) :
    (assemble part (some (.ok value)) : Cut Assembly) =
      some (value.placed.map fun text => .ofText (isolate text)) := by
  rw [assemble, placeable]
  change tryCatch (ofExcept value.placed >>= fun text => _) _ = _
  rcases value.placed_cases with placed | placed
  · rw [placed]
    rfl
  · rw [placed]
    rfl

theorem assemble_fault {part : Expression} (placeable : part.literal? = none) (fault : Fault) :
    (assemble part (some (.error fault)) : Cut Assembly) =
      if fault.endsPattern then some (.error fault) else some (.ok (.ofFault part fault)) := by
  rw [assemble, placeable]
  rfl

variable {Root : Fault → Prop}

inductive Rooted (Root : Fault → Prop) : Cut α → Prop
  | cut : Rooted Root none
  | value (a : α) : Rooted Root (some (.ok a))
  | fault {fault : Fault} (root : Root fault.root) : Rooted Root (some (.error fault))

inductive PartsRooted (Root : Fault → Prop) : Cut Assembly → Prop
  | cut : PartsRooted Root none
  | text (text : String) : PartsRooted Root (some (.ok ⟨text, none⟩))
  | faulty (text : String) {fault : Fault} (root : Root fault.root) :
      PartsRooted Root (some (.ok ⟨text, some fault⟩))
  | fault {fault : Fault} (root : Root fault.root) : PartsRooted Root (some (.error fault))

theorem Rooted.assemble (tooLong : ∀ length, Root (.placeableTooLong length))
    (part : Expression) {evaluated : Cut Value} (rooted : Rooted Root evaluated) :
    PartsRooted Root (assemble part evaluated) := by
  cases literal : part.literal? with
  | some text =>
      rw [assemble_literal literal]
      exact .text text
  | none =>
      cases rooted with
      | cut =>
          rw [Phrasebook.assemble, literal]
          exact .cut
      | value value =>
          rw [assemble_value literal]
          rcases value.placed_cases with placed | placed
          · rw [placed]
            exact .fault (tooLong _)
          · rw [placed]
            exact .text _
      | fault root =>
          rw [assemble_fault literal]
          split
          · exact .fault root
          · exact .faulty _ root

theorem PartsRooted.join {front rest : Cut Assembly} (first : PartsRooted Root front)
    (others : PartsRooted Root rest) : PartsRooted Root (join front rest) := by
  cases first with
  | cut => exact .cut
  | fault root => exact .fault root
  | text text =>
      cases others with
      | cut => exact .cut
      | fault root => exact .fault root
      | text other => exact .text _
      | faulty other root => exact .faulty _ root
  | faulty text root =>
      cases others with
      | cut => exact .cut
      | fault root => exact .fault root
      | text other => exact .faulty _ root
      | faulty other _ => exact .faulty _ root

theorem PartsRooted.finish {assembled : Cut Assembly} (rooted : PartsRooted Root assembled) :
    Rooted Root (finish assembled) := by
  cases rooted with
  | cut => exact .cut
  | fault root => exact .fault root
  | text text => exact .value _
  | faulty text root => exact .fault root

def Fell (Root : Fault → Prop) (cut : Cut α) : Prop :=
  ∃ fault : Fault, cut = some (.error fault) ∧ Root fault.root

inductive PartsFell (Root : Fault → Prop) : Cut Assembly → Prop
  | faulty (text : String) {fault : Fault} (root : Root fault.root) :
      PartsFell Root (some (.ok ⟨text, some fault⟩))
  | fault {fault : Fault} (root : Root fault.root) : PartsFell Root (some (.error fault))

/-- Where one evaluation has a value, the other has the same value or has fallen. -/
def Falls (Root : Fault → Prop) (left right : Cut α) : Prop :=
  ∀ a, left = some (.ok a) → right = some (.ok a) ∨ Fell Root right

/-- The same of the parts of a pattern, where a text without a fault counts as a value. -/
def PartsFall (Root : Fault → Prop) (left right : Cut Assembly) : Prop :=
  ∀ text, left = some (.ok ⟨text, none⟩) →
    right = some (.ok ⟨text, none⟩) ∨ PartsFell Root right

theorem Fell.assemble {part : Expression} (placeable : part.literal? = none)
    {evaluated : Cut Value} (fell : Fell Root evaluated) :
    PartsFell Root (assemble part evaluated) := by
  obtain ⟨fault, rfl, root⟩ := fell
  rw [assemble_fault placeable]
  split
  · exact .fault root
  · exact .faulty _ root

theorem Falls.assemble (part : Expression) {left right : Cut Value}
    (falls : Falls Root left right) :
    PartsFall Root (assemble part left) (assemble part right) := by
  intro text assembled
  cases literal : part.literal? with
  | some text =>
      rw [assemble_literal literal] at assembled ⊢
      exact .inl assembled
  | none =>
      match left with
      | none =>
          rw [Phrasebook.assemble, literal] at assembled
          cases assembled
      | some (.error fault) =>
          rw [assemble_fault literal] at assembled
          split at assembled <;> cases assembled
      | some (.ok value) =>
          rcases falls value rfl with same | fell
          · rw [same]
            exact .inl assembled
          · exact .inr (fell.assemble literal)

theorem join_eq_text {front rest : Cut Assembly} {text : String}
    (joined : join front rest = some (.ok ⟨text, none⟩)) :
    ∃ first others, front = some (.ok ⟨first, none⟩) ∧ rest = some (.ok ⟨others, none⟩) := by
  match front, rest with
  | none, _ => cases joined
  | some (.error _), _ => cases joined
  | some (.ok ⟨_, some _⟩), none => cases joined
  | some (.ok ⟨_, some _⟩), some (.error _) => cases joined
  | some (.ok ⟨_, some _⟩), some (.ok _) => cases joined
  | some (.ok ⟨_, none⟩), none => cases joined
  | some (.ok ⟨_, none⟩), some (.error _) => cases joined
  | some (.ok ⟨_, none⟩), some (.ok ⟨_, some _⟩) => cases joined
  | some (.ok ⟨first, none⟩), some (.ok ⟨others, none⟩) => exact ⟨first, others, rfl, rfl⟩

theorem PartsFall.join {left left' right right' : Cut Assembly}
    (first : PartsFall Root left right) (others : PartsFall Root left' right') :
    PartsFall Root (join left left') (join right right') := by
  intro text joined
  obtain ⟨front, rest, rfl, rfl⟩ := join_eq_text joined
  rcases first front rfl with same | fell
  · subst same
    rcases others rest rfl with same' | fell'
    · subst same'
      exact .inl joined
    · right
      cases fell' with
      | fault root => exact .fault root
      | faulty other root => exact .faulty _ root
  · right
    cases fell with
    | fault root => exact .fault root
    | faulty other root =>
        rcases others rest rfl with same' | fell'
        · subst same'
          exact .faulty _ root
        · cases fell' with
          | fault root' => exact .fault root'
          | faulty _ _ => exact .faulty _ root

theorem PartsFall.finish {left right : Cut Assembly} (falls : PartsFall Root left right) :
    Falls Root (finish left) (finish right) := by
  intro a finished
  match left with
  | none => cases finished
  | some (.error _) => cases finished
  | some (.ok ⟨_, some _⟩) => cases finished
  | some (.ok ⟨text, none⟩) =>
      rcases falls text rfl with same | fell
      · rw [same]
        exact .inl finished
      · right
        cases fell with
        | fault root => exact ⟨_, rfl, root⟩
        | faulty other root => exact ⟨_, rfl, root⟩

end Cut

namespace Correspondence

variable (Root : Fault → Prop)

def rooted (raised : ∀ fault : Fault, fault.Raised → Root fault.root)
    (tooLong : ∀ length, Root (.placeableTooLong length)) : Correspondence Cut Cut where
  Rel left _ := Cut.Rooted Root left
  Parts left _ := Cut.PartsRooted Root left
  rel_pure a := .value a
  rel_raise origin := .fault (raised _ origin)
  rel_bind := by
    intro α β left right f g rooted continued
    cases rooted with
    | cut => exact .cut
    | value a => exact continued a
    | fault root => exact .fault root
  rel_indexed := by
    intro α left right rooted
    cases rooted with
    | cut => exact .cut
    | value a => exact .value a
    | @fault fault root =>
        rw [← fault.root_asIndex] at root
        exact .fault root
  parts_nil := .text ""
  parts_assemble := fun part _ _ rooted => Cut.Rooted.assemble tooLong part rooted
  parts_join := fun first others => Cut.PartsRooted.join first others
  rel_finish := fun rooted => Cut.PartsRooted.finish rooted

/-- What falls only spoils what it is needed for. -/
def falling : Correspondence Cut Cut where
  Rel left right := Cut.Falls Root left right
  Parts := Cut.PartsFall Root
  rel_pure a _ ended := .inl ended
  rel_raise _ a ended := .inl ended
  rel_bind := by
    intro α β left right f g falls continued b ended
    match left with
    | none => cases ended
    | some (.error fault) => cases ended
    | some (.ok a) =>
        rcases falls a rfl with same | fell
        · rw [same]
          exact continued a b ended
        · obtain ⟨fault, rfl, root⟩ := fell
          exact .inr ⟨fault, rfl, root⟩
  rel_indexed := by
    intro α left right falls a ended
    match left with
    | none => cases ended
    | some (.error fault) => cases ended
    | some (.ok a) =>
        rcases falls a rfl with same | fell
        · rw [same]
          exact .inl ended
        · obtain ⟨fault, rfl, root⟩ := fell
          rw [← fault.root_asIndex] at root
          exact .inr ⟨fault.asIndex, rfl, root⟩
  parts_nil := fun _ ended => .inl ended
  parts_assemble := fun part _ _ falls => Cut.Falls.assemble part falls
  parts_join := fun first others => Cut.PartsFall.join first others
  rel_finish := fun falls => Cut.PartsFall.finish falls

end Correspondence

end Phrasebook
