import Phrasebook.Proofs.Evaluation.Correspondence

namespace Phrasebook

/-- Nothing is done to a stack but to give an outcome on it. -/
def Correspondence.restoring (stack : CallStack) : Correspondence Visit (Except Fault) :=
  .uniform (fun visit outcome => visit stack = (outcome, stack))
    (fun _ => rfl)
    (fun _ => rfl)
    (by
      intro α β left right f g related continued
      rw [Visit.bind_apply, related]
      cases right with
      | ok a => exact continued a
      | error fault => rfl)
    (by
      intro α left right f g related handled
      rw [Visit.tryCatch_apply, related]
      cases right with
      | ok a => rfl
      | error fault => exact handled fault)

namespace Scope

theorem formatValue_restores (scope : Scope) (stack : CallStack)
    {enter : String → Phrase → Visit Value}
    (restores : ∀ name phrase, (enter name phrase stack).2 = stack)
    (value : Expression) (index : List Expression) :
    scope.formatValue enter value index stack =
      (scope.formatValue (fun name phrase => (enter name phrase stack).1) value index, stack) := by
  refine (Correspondence.restoring stack).rel_formatValue scope ?_ value index
  intro name phrase _
  exact Prod.ext rfl (restores name phrase)

theorem within_restores (scope : Scope) {enter : String → Phrase → Visit Value}
    (restores : ∀ name phrase stack, (enter name phrase stack).2 = stack)
    (id : String) (value : Expression) (index : List Expression) (stack : CallStack) :
    Visit.within id (scope.formatValue enter value index) stack =
      match stack.push id with
      | .error fault => (.error fault, stack)
      | .ok entered =>
          (scope.formatValue (fun name phrase => (enter name phrase entered).1) value index,
            stack) := by
  unfold Visit.within
  cases pushed : stack.push id with
  | error fault => rfl
  | ok entered =>
      have body := scope.formatValue_restores entered
        (fun name phrase => restores name phrase entered) value index
      simp only [body, CallStack.pop_push pushed]

theorem formatWithin_restores (scope : Scope) (room : Nat) (id : String) (phrase : Phrase)
    (stack : CallStack) : (scope.formatWithin room id phrase stack).2 = stack := by
  induction room generalizing id phrase stack with
  | zero =>
      match phrase with
      | .bare _ => rfl
      | .complex none _ => rfl
      | .complex (some _) _ => rfl
  | succ room ih =>
      match phrase with
      | .bare _ => rfl
      | .complex none _ => rfl
      | .complex (some value) index =>
          rw [formatWithin, scope.within_restores ih]
          split <;> rfl

@[simp] theorem format_restores (scope : Scope) (stack : CallStack) (id : String)
    (phrase : Phrase) : (scope.format stack id phrase).2 = stack :=
  scope.formatWithin_restores stack.room id phrase stack

def outcome (scope : Scope) (stack : CallStack) (id : String) (phrase : Phrase) :
    Except Fault Value :=
  (scope.format stack id phrase).1

theorem format_eq (scope : Scope) (stack : CallStack) (id : String) (phrase : Phrase) :
    scope.format stack id phrase = (scope.outcome stack id phrase, stack) :=
  Prod.ext rfl (scope.format_restores stack id phrase)

@[simp] theorem outcome_bare (scope : Scope) (stack : CallStack) (id text : String) :
    scope.outcome stack id (.bare text) = .ok (.text text) := by
  unfold outcome format
  cases stack.room <;> rfl

@[simp] theorem outcome_valueless (scope : Scope) (stack : CallStack) (id : String)
    (index : List Expression) :
    scope.outcome stack id (.complex none index) = .error (.missingValue id) := by
  unfold outcome format
  cases stack.room <;> rfl

/-- An entry with a value is opened, and evaluates to what its references evaluate to with it
open. -/
theorem outcome_complex (scope : Scope) (stack : CallStack) (id : String) (value : Expression)
    (index : List Expression) :
    scope.outcome stack id (.complex (some value) index) =
      stack.push id >>= fun entered =>
        scope.formatValue (scope.outcome entered) value index := by
  unfold outcome format
  cases room : stack.room with
  | zero =>
      rw [CallStack.push_full room]
      rfl
  | succ left =>
      rw [formatWithin, scope.within_restores (scope.formatWithin_restores left)]
      cases pushed : stack.push id with
      | error fault => rfl
      | ok entered =>
          have remaining : entered.room = left := by
            rw [CallStack.push_eq_entered pushed, CallStack.room_entered, room]
            rfl
          rw [← remaining]
          rfl

theorem outcome_of_pushed (scope : Scope) {stack entered : CallStack} {id : String}
    (pushed : stack.push id = .ok entered) (value : Expression) (index : List Expression) :
    scope.outcome stack id (.complex (some value) index) =
      scope.formatValue (scope.outcome entered) value index := by
  rw [outcome_complex, pushed]
  rfl

theorem outcome_of_refused (scope : Scope) {stack : CallStack} {id : String} {fault : Fault}
    (refused : stack.push id = .error fault) (value : Expression) (index : List Expression) :
    scope.outcome stack id (.complex (some value) index) = .error fault := by
  rw [outcome_complex, refused]
  rfl

end Scope

theorem CallStack.room_of_pushed {stack entered : CallStack} {id : String}
    (pushed : stack.push id = .ok entered) : stack.room = entered.room + 1 := by
  cases room : stack.room with
  | zero =>
      rw [push_full room] at pushed
      cases pushed
  | succ left =>
      rw [push_eq_entered pushed, room_entered, room]
      rfl

/-- What is true of a stack when it is true with any entry opened on it is true of all stacks. -/
@[elab_as_elim]
theorem CallStack.opening_induction {motive : CallStack → Prop}
    (step : ∀ stack, (∀ id entered, stack.push id = .ok entered → motive entered) → motive stack)
    (stack : CallStack) : motive stack := by
  induction room : stack.room generalizing stack with
  | zero =>
      refine step stack fun id entered pushed => ?_
      rw [room_of_pushed pushed] at room
      cases room
  | succ left ih =>
      refine step stack fun id entered pushed => ih entered ?_
      rw [room_of_pushed pushed] at room
      exact Nat.succ.inj room

end Phrasebook
