import Phrasebook.Evaluation.Fault

/-! The entries being evaluated, outermost first. -/

namespace Phrasebook

structure CallStack where
  frames : List String
  depth : Nat
  limit : Nat
deriving DecidableEq

/-- Evaluation with entries open: it gives a value or a fault, and the stack it leaves behind. -/
abbrev Visit := ExceptT Fault (StateM CallStack)

namespace CallStack

def defaultLimit : Nat := 64

def empty (limit : Nat) : CallStack where
  frames := []
  depth := 0
  limit := limit

def room (stack : CallStack) : Nat :=
  stack.limit - stack.depth

def contains (stack : CallStack) (id : String) : Bool :=
  stack.frames.contains id

def entered (stack : CallStack) (id : String) : CallStack :=
  { stack with frames := stack.frames ++ [id], depth := stack.depth + 1 }

def push (stack : CallStack) (id : String) : Except Fault CallStack :=
  if stack.limit ≤ stack.depth then .error .tooDeep
  else if stack.contains id then .error (.cyclic (stack.frames ++ [id]))
  else .ok (stack.entered id)

def pop (stack : CallStack) : CallStack :=
  { stack with frames := stack.frames.dropLast, depth := stack.depth - 1 }

@[simp] theorem room_empty (limit : Nat) : (empty limit).room = limit := rfl

@[simp] theorem pop_entered (stack : CallStack) (id : String) :
    (stack.entered id).pop = stack := by
  simp [entered, pop]

theorem room_entered (stack : CallStack) (id : String) :
    (stack.entered id).room = stack.room - 1 := by
  simp only [room, entered]
  omega

theorem push_full {stack : CallStack} (full : stack.room = 0) (id : String) :
    stack.push id = .error .tooDeep := by
  have reached : stack.limit ≤ stack.depth := by
    simp only [room] at full
    omega
  rw [push, if_pos reached]

theorem push_open {stack : CallStack} {id : String} (roomy : 0 < stack.room)
    (opened : id ∈ stack.frames) :
    stack.push id = .error (.cyclic (stack.frames ++ [id])) := by
  have below : ¬ stack.limit ≤ stack.depth := by
    simp only [room] at roomy
    omega
  simp [push, below, contains, opened]

theorem push_fresh {stack : CallStack} {id : String} (roomy : 0 < stack.room)
    (fresh : id ∉ stack.frames) :
    stack.push id = .ok (stack.entered id) := by
  have below : ¬ stack.limit ≤ stack.depth := by
    simp only [room] at roomy
    omega
  simp [push, below, contains, fresh]

theorem push_eq_entered {stack entered : CallStack} {id : String}
    (pushed : stack.push id = .ok entered) : entered = stack.entered id := by
  unfold push at pushed
  split at pushed
  · cases pushed
  · split at pushed
    · cases pushed
    · exact (Except.ok.inj pushed).symm

theorem push_refused {stack : CallStack} {id : String} {fault : Fault}
    (refused : stack.push id = .error fault) :
    fault = .tooDeep ∨ id ∈ stack.frames ∧ fault = .cyclic (stack.frames ++ [id]) := by
  unfold push at refused
  split at refused
  · exact .inl (Except.error.inj refused).symm
  · split at refused
    · rename_i opened
      exact .inr ⟨List.contains_iff_mem.mp opened, (Except.error.inj refused).symm⟩
    · cases refused

theorem pop_push {stack entered : CallStack} {id : String} (pushed : stack.push id = .ok entered) :
    entered.pop = stack := by
  rw [push_eq_entered pushed, pop_entered]

end CallStack

namespace Visit

/-- Evaluates a body with an entry open and then leaves the entry. -/
def within (id : String) (body : Visit α) : Visit α := fun stack =>
  match stack.push id with
  | .error fault => (.error fault, stack)
  | .ok entered =>
      let (outcome, left) := body entered
      (outcome, left.pop)

theorem bind_apply (visit : Visit α) (f : α → Visit β) (stack : CallStack) :
    (visit >>= f) stack =
      match visit stack with
      | (.ok a, left) => f a left
      | (.error fault, left) => (.error fault, left) := by
  change ExceptT.bindCont f (visit stack).1 (visit stack).2 = _
  cases visit stack with
  | mk outcome left => cases outcome <;> rfl

theorem tryCatch_apply (visit : Visit α) (f : Fault → Visit α) (stack : CallStack) :
    (tryCatch visit f) stack =
      match visit stack with
      | (.ok a, left) => (.ok a, left)
      | (.error fault, left) => f fault left := by
  simp only [tryCatch, tryCatchThe, MonadExceptOf.tryCatch, ExceptT.tryCatch, ExceptT.mk, bind,
    StateT.bind]
  cases visit stack with
  | mk outcome left => cases outcome <;> rfl

end Visit

end Phrasebook
