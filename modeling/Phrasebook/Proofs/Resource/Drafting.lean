import Phrasebook.Proofs.Resource.WrittenLines
import Phrasebook.Resource.Properties

namespace Phrasebook.Resource

theorem map_eq_ok {ε α β : Type} {x : Except ε α} {f : α → β} {b : β} :
    x.map f = .ok b ↔ ∃ a, x = .ok a ∧ f a = b := by
  cases x <;> simp [Except.map]

theorem foldlM_append_ok {ε α β : Type} {f : β → α → Except ε β} {before middle after : β}
    {first second : List α} (here : first.foldlM f before = .ok middle)
    (later : second.foldlM f middle = .ok after) :
    (first ++ second).foldlM f before = .ok after := by
  rw [List.foldlM_append, here]
  exact later

def Draft.take (draft : Draft) (a : Assignment) : Except ParseFailure Draft :=
  match Target.ofName? a.name with
  | none => .error (.nestedAttribute a.line (String.ofList a.name))
  | some target => draft.assign target a

section Runs

variable {id : String} {drafts : Drafts} {first : Assignment} {rest : List Assignment}

theorem Drafts.update_update (id : String) (change next : Draft → Except ParseFailure Draft)
    (drafts : Drafts) :
    Drafts.update id change drafts >>= Drafts.update id next =
      Drafts.update id (fun draft => change draft >>= next) drafts := by
  induction drafts with
  | nil =>
      cases changed : change {} with
      | error failure => simp [Drafts.update, changed, Except.map, bind, Except.bind]
      | ok draft => simp [Drafts.update, changed, Except.map, bind, Except.bind]
  | cons entry drafts ih =>
      obtain ⟨other, draft⟩ := entry
      by_cases same : other = id
      · subst same
        cases changed : change draft with
        | error failure => simp [Drafts.update, changed, Except.map, bind, Except.bind]
        | ok after => simp [Drafts.update, changed, Except.map, bind, Except.bind]
      · simp only [Drafts.update, if_neg same, ← ih]
        cases updated : Drafts.update id change drafts with
        | error failure => simp [Except.map, bind, Except.bind]
        | ok others => simp [Drafts.update, same, Except.map, bind, Except.bind]

theorem Drafts.update_fresh (fresh : id ∉ drafts.map Prod.fst)
    (change : Draft → Except ParseFailure Draft) :
    Drafts.update id change drafts = (change {}).map fun draft => drafts ++ [(id, draft)] := by
  induction drafts with
  | nil => rfl
  | cons entry drafts ih =>
      obtain ⟨other, draft⟩ := entry
      have differ : other ≠ id := fun same => fresh (by simp [same])
      have later := ih fun member => fresh (List.mem_cons_of_mem _ member)
      rw [Drafts.update, if_neg differ, later]
      cases change {} <;> rfl

/-- A run of assignments to one phrase is a run on its draft. -/
theorem Drafts.foldlM_assign
    (toPhrase : ∀ a ∈ first :: rest, ∃ target, Target.ofName? a.name = some target ∧
      String.ofList target.id = id) :
    (first :: rest).foldlM Drafts.assign drafts =
      Drafts.update id (fun draft => (first :: rest).foldlM Draft.take draft) drafts := by
  induction rest generalizing first drafts with
  | nil =>
      obtain ⟨target, named, rfl⟩ := toPhrase first List.mem_cons_self
      simp [Drafts.assign, Draft.take, named]
  | cons next rest ih =>
      obtain ⟨here, later⟩ := List.forall_mem_cons.mp toPhrase
      obtain ⟨target, named, rfl⟩ := here
      have assigned : drafts.assign first =
          Drafts.update (String.ofList target.id) (Draft.take · first) drafts := by
        simp only [Drafts.assign, Draft.take, named]
      have split : ∀ draft : Draft, (first :: next :: rest).foldlM Draft.take draft =
          draft.take first >>= fun draft => (next :: rest).foldlM Draft.take draft :=
        fun _ => List.foldlM_cons
      simp only [split]
      rw [List.foldlM_cons, assigned, ← Drafts.update_update]
      exact bind_congr fun drafts => ih later

theorem Draft.foldlM_value {as : List Assignment}
    (toValue : ∀ a ∈ as, ∃ name, Target.ofName? a.name = some ⟨name, none⟩) (draft : Draft) :
    as.foldlM Draft.take draft =
      (as.foldlM Slot.assign draft.value).map fun slot => { draft with value := slot } := by
  induction as generalizing draft with
  | nil => rfl
  | cons a as ih =>
      obtain ⟨⟨name, named⟩, later⟩ := List.forall_mem_cons.mp toValue
      simp only [List.foldlM_cons, Draft.take, named, Draft.assign]
      cases assigned : draft.value.assign a with
      | error failure => rfl
      | ok slot => exact ih later { draft with value := slot }

theorem Draft.foldlM_attribute {label : List Char}
    (toAttribute : ∀ a ∈ first :: rest, ∃ name,
      Target.ofName? a.name = some ⟨name, some label⟩) (draft : Draft) :
    (first :: rest).foldlM Draft.take draft =
      ((first :: rest).foldlM Slot.assign
        ((draft.attributes.find? (String.ofList label)).getD {})).map fun slot =>
          { draft with
            attributes := Table.insert (String.ofList label) slot draft.attributes } := by
  induction rest generalizing first draft with
  | nil =>
      obtain ⟨name, named⟩ := toAttribute first List.mem_cons_self
      simp [Draft.take, named, Draft.assign]
  | cons next rest ih =>
      obtain ⟨⟨name, named⟩, later⟩ := List.forall_mem_cons.mp toAttribute
      rw [List.foldlM_cons, @List.foldlM_cons _ _ _ _ Slot.assign]
      simp only [Draft.take, named, Draft.assign]
      cases assigned :
          ((draft.attributes.find? (String.ofList label)).getD {}).assign first with
      | error failure => rfl
      | ok slot =>
          have run := ih later { draft with
            attributes := Table.insert (String.ofList label) slot draft.attributes }
          simp only [Table.find?_insert_self, Option.getD_some, Table.insert_insert] at run
          exact run

end Runs

section Numbers

variable {a : Assignment}

theorem Slot.assign_line {slot after : Slot} (assigned : slot.assign a = .ok after) (line : Nat) :
    slot.assign { a with line := line } = .ok after := by
  obtain ⟨_, name, member?, value⟩ := a
  obtain ⟨value?, selector?⟩ := slot
  cases member? with
  | none => exact assigned
  | some key =>
      cases value? with
      | none => exact assigned
      | some held =>
          cases held with
          | members items => exact assigned
          | plain text =>
              simp only [Slot.assign, Slot.setMember] at assigned ⊢
              cases read : readSelector? text with
              | some selector => simpa [read] using assigned
              | none => simp [read] at assigned

theorem Draft.assign_line {draft after : Draft} {target : Target}
    (assigned : draft.assign target a = .ok after) (line : Nat) :
    draft.assign target { a with line := line } = .ok after := by
  obtain ⟨id, label?⟩ := target
  cases label? with
  | none =>
      obtain ⟨slot, filled, rfl⟩ := map_eq_ok.mp assigned
      exact map_eq_ok.mpr ⟨slot, Slot.assign_line filled line, rfl⟩
  | some label =>
      obtain ⟨slot, filled, rfl⟩ := map_eq_ok.mp assigned
      exact map_eq_ok.mpr ⟨slot, Slot.assign_line filled line, rfl⟩

theorem Drafts.update_of_implies {id : String} {change other : Draft → Except ParseFailure Draft}
    {drafts after : Drafts}
    (implies : ∀ draft result, change draft = .ok result → other draft = .ok result)
    (updated : Drafts.update id change drafts = .ok after) :
    Drafts.update id other drafts = .ok after := by
  induction drafts generalizing after with
  | nil =>
      obtain ⟨draft, changed, rfl⟩ := map_eq_ok.mp updated
      exact map_eq_ok.mpr ⟨draft, implies _ _ changed, rfl⟩
  | cons entry drafts ih =>
      obtain ⟨name, draft⟩ := entry
      simp only [Drafts.update] at updated ⊢
      split at updated
      · rename_i same
        obtain ⟨result, changed, rfl⟩ := map_eq_ok.mp updated
        rw [if_pos same]
        exact map_eq_ok.mpr ⟨result, implies _ _ changed, rfl⟩
      · rename_i differ
        obtain ⟨others, updatedLater, rfl⟩ := map_eq_ok.mp updated
        rw [if_neg differ]
        exact map_eq_ok.mpr ⟨others, ih updatedLater, rfl⟩

theorem Drafts.assign_line {drafts after : Drafts} (assigned : drafts.assign a = .ok after)
    (line : Nat) : drafts.assign { a with line := line } = .ok after := by
  simp only [Drafts.assign] at assigned ⊢
  cases named : Target.ofName? a.name with
  | none => simp [named] at assigned
  | some target =>
      simp only [named] at assigned ⊢
      refine Drafts.update_of_implies ?_ assigned
      exact fun draft result filled => Draft.assign_line filled line

theorem Drafts.foldlM_renumber {as : List Assignment} {drafts after : Drafts}
    (assigned : as.foldlM Drafts.assign drafts = .ok after) (line : Nat) :
    (Assignment.renumber line as).foldlM Drafts.assign drafts = .ok after := by
  induction as generalizing drafts line with
  | nil => exact assigned
  | cons a as ih =>
      rw [List.foldlM_cons] at assigned
      cases here : drafts.assign a with
      | error failure => simp [here, bind, Except.bind] at assigned
      | ok middle =>
          rw [here] at assigned
          rw [Assignment.renumber, List.foldlM_cons, Drafts.assign_line here line]
          exact ih assigned (line + 1)

end Numbers

end Phrasebook.Resource
