import Phrasebook.Proofs.Evaluation.Restoration

namespace Phrasebook

def Phrase.opens : Phrase → Bool
  | .complex (some _) _ => true
  | _ => false

structure CallStack.WellFormed (stack : CallStack) : Prop where
  depth_eq : stack.depth = stack.frames.length
  depth_le : stack.depth ≤ stack.limit
  distinct : stack.frames.Nodup

/-- Opens an entry and leaves it open. Where it must not be opened, nothing is done. -/
def Visit.enter (id : String) : Visit Unit := fun stack =>
  match stack.push id with
  | .error fault => (.error fault, stack)
  | .ok entered => (.ok (), entered)

/-- What is done to a stack from outside. Every evaluation may be in a scope of its own. -/
inductive StackUse where
  | enter (id : String)
  | leave
  | format (scope : Scope) (id : String) (phrase : Phrase)

def StackUse.apply (stack : CallStack) : StackUse → CallStack
  | .enter id => (Visit.enter id stack).2
  | .leave => stack.pop
  | .format scope id phrase => (scope.format stack id phrase).2

def CallStack.afterUses (stack : CallStack) (uses : List StackUse) : CallStack :=
  uses.foldl StackUse.apply stack

namespace CallStack

variable {stack : CallStack} {id : String}

theorem push_ok {after : CallStack} (pushed : stack.push id = .ok after) :
    stack.depth < stack.limit ∧ id ∉ stack.frames ∧ after = stack.entered id := by
  have roomy : 0 < stack.room := by
    apply Nat.pos_of_ne_zero
    intro full
    rw [push_full full] at pushed
    cases pushed
  refine ⟨Nat.lt_of_sub_pos roomy, ?_, push_eq_entered pushed⟩
  intro opened
  rw [push_open roomy opened] at pushed
  cases pushed

theorem entered_distinct (distinct : stack.frames.Nodup) (fresh : id ∉ stack.frames) :
    (stack.entered id).frames.Nodup := by
  refine List.nodup_append.mpr ⟨distinct, List.pairwise_singleton _ id, ?_⟩
  rintro other opened _ last rfl
  exact fresh (List.mem_singleton.mp last ▸ opened)

namespace WellFormed

theorem empty (limit : Nat) : (CallStack.empty limit).WellFormed :=
  ⟨rfl, Nat.zero_le limit, List.nodup_nil⟩

theorem entered (wellFormed : stack.WellFormed) (below : stack.depth < stack.limit)
    (fresh : id ∉ stack.frames) : (stack.entered id).WellFormed := by
  refine ⟨?_, below, entered_distinct wellFormed.distinct fresh⟩
  simp [CallStack.entered, wellFormed.depth_eq]

theorem pop (wellFormed : stack.WellFormed) : stack.pop.WellFormed := by
  obtain ⟨depth_eq, depth_le, distinct⟩ := wellFormed
  refine ⟨?_, ?_, ?_⟩
  · simp [CallStack.pop, depth_eq]
  · simp only [CallStack.pop]
    omega
  · exact distinct.sublist (List.dropLast_sublist stack.frames)

end WellFormed

end CallStack

theorem Visit.enter_cases (id : String) (stack : CallStack) :
    Visit.enter id stack = (.ok (), stack.entered id) ∨
      ∃ fault, Visit.enter id stack = (.error fault, stack) := by
  unfold Visit.enter
  cases pushed : stack.push id with
  | error fault => exact .inr ⟨fault, rfl⟩
  | ok after =>
      obtain rfl := CallStack.push_eq_entered pushed
      exact .inl rfl

namespace StackUse

variable {stack : CallStack}

theorem apply_cases (stack : CallStack) (use : StackUse) :
    use.apply stack = stack ∨ use.apply stack = stack.pop ∨
      ∃ id, stack.depth < stack.limit ∧ id ∉ stack.frames ∧
        use.apply stack = stack.entered id := by
  cases use with
  | enter id =>
      simp only [apply, Visit.enter]
      cases pushed : stack.push id with
      | error fault => exact .inl rfl
      | ok entered =>
          obtain ⟨below, fresh, rfl⟩ := CallStack.push_ok pushed
          exact .inr (.inr ⟨id, below, fresh, rfl⟩)
  | leave => exact .inr (.inl rfl)
  | format scope id phrase => exact .inl (scope.format_restores stack id phrase)

theorem apply_limit (stack : CallStack) (use : StackUse) :
    (use.apply stack).limit = stack.limit := by
  obtain same | same | ⟨id, -, -, same⟩ := apply_cases stack use
  · rw [same]
  · rw [same]
    rfl
  · rw [same]
    rfl

theorem apply_wellFormed (use : StackUse) (wellFormed : stack.WellFormed) :
    (use.apply stack).WellFormed := by
  obtain same | same | ⟨id, below, fresh, same⟩ := apply_cases stack use
  · rw [same]
    exact wellFormed
  · rw [same]
    exact wellFormed.pop
  · rw [same]
    exact wellFormed.entered below fresh

theorem afterUses_wellFormed (uses : List StackUse) (wellFormed : stack.WellFormed) :
    (stack.afterUses uses).limit = stack.limit ∧ (stack.afterUses uses).WellFormed := by
  induction uses generalizing stack with
  | nil => exact ⟨rfl, wellFormed⟩
  | cons use uses ih =>
      obtain ⟨limit, atEnd⟩ := ih (apply_wellFormed use wellFormed)
      exact ⟨limit.trans (apply_limit stack use), atEnd⟩

end StackUse

/-- However a stack was used, its depth is the number of its frames, which is within the limit, and
no entry is open twice. Every evaluation on it leaves it as it was, and so does every entry that
cannot be opened. -/
theorem stack_disciplined (limit : Nat) (uses : List StackUse) :
    let stack := (CallStack.empty limit).afterUses uses
    stack.depth = stack.frames.length ∧ stack.depth ≤ limit ∧ stack.frames.Nodup ∧
    (∀ (scope : Scope) id phrase, (scope.format stack id phrase).2 = stack) ∧
    ∀ id, Visit.enter id stack = (.ok (), stack.entered id) ∨
      ∃ fault, Visit.enter id stack = (.error fault, stack) := by
  intro stack
  obtain ⟨sameLimit, wellFormed⟩ :=
    StackUse.afterUses_wellFormed uses (CallStack.WellFormed.empty limit)
  refine ⟨wellFormed.depth_eq, ?_, wellFormed.distinct, ?_, ?_⟩
  · calc
      stack.depth ≤ stack.limit := wellFormed.depth_le
      _ = limit := sameLimit
  · exact fun scope id phrase => scope.format_restores stack id phrase
  · exact fun id => Visit.enter_cases id stack

end Phrasebook
