import Phrasebook.Proofs.Evaluation.Assembly
import Phrasebook.Proofs.Evaluation.Cycles

namespace Phrasebook

def headedChain (name : String) : List String → List String
  | [] => []
  | _ :: rest => name :: rest

/-- The fault with another name at the head of its chain, if it comes from a cycle. -/
def Fault.headed (name : String) : Fault → Fault
  | .cyclic chain => .cyclic (headedChain name chain)
  | .value salvage source => .value salvage (source.headed name)
  | .index source => .index (source.headed name)
  | fault => fault

namespace Fault

@[simp] theorem headed_asIndex (name : String) (fault : Fault) :
    fault.asIndex.headed name = (fault.headed name).asIndex := by
  cases fault <;> rfl

@[simp] theorem endsPattern_headed (name : String) (fault : Fault) :
    (fault.headed name).endsPattern = fault.endsPattern := by
  cases fault <;> rfl

theorem Raised.headed {fault : Fault} (raised : fault.Raised) (name : String) :
    fault.headed name = fault := by
  cases raised <;> rfl

end Fault

def CallStack.headed (name : String) (stack : CallStack) : CallStack :=
  { stack with frames := headedChain name stack.frames }

def Assembly.headed (name : String) (assembly : Assembly) : Assembly :=
  { assembly with fault? := assembly.fault?.map (Fault.headed name) }

namespace Correspondence

theorem placed_relabelled (name : String) (outcome : Except Fault Value) :
    outcome.mapError (Fault.headed name) >>= Value.placed =
      (outcome >>= Value.placed).mapError (Fault.headed name) := by
  cases outcome with
  | error fault => rfl
  | ok value =>
      change value.placed = value.placed.mapError (Fault.headed name)
      rcases value.placed_cases with placed | placed
      · rw [placed]
        rfl
      · rw [placed]
        rfl

theorem assemble_relabelled (name : String) (part : Expression) (outcome : Except Fault Value) :
    assemble part (outcome.mapError (Fault.headed name)) =
      ((assemble part outcome).map (Assembly.headed name)).mapError (Fault.headed name) := by
  unfold assemble
  cases part.literal? with
  | some text => rfl
  | none =>
      dsimp only
      rw [Expression.assemblePlaceable_eq, Expression.assemblePlaceable_eq, placed_relabelled]
      cases outcome >>= Value.placed with
      | ok text => rfl
      | error fault =>
          change (if (fault.headed name).endsPattern then _ else _) =
            Except.mapError _ (Except.map _ (if fault.endsPattern then _ else _))
          rw [Fault.endsPattern_headed]
          by_cases ends : fault.endsPattern
          · rw [if_pos ends, if_pos ends]
            rfl
          · rw [if_neg ends, if_neg ends]
            rfl

/-- The same outcome, but for the name at the head of a chain. -/
def relabelling (name : String) : Correspondence (Except Fault) (Except Fault) where
  Rel left right := right = left.mapError (Fault.headed name)
  Parts left right := right = (left.map (Assembly.headed name)).mapError (Fault.headed name)
  rel_pure _ := rfl
  rel_raise origin := congrArg Except.error (origin.headed name).symm
  rel_bind := by
    rintro α β left _ f g rfl continued
    cases left with
    | ok a => exact continued a
    | error fault => rfl
  rel_indexed := by
    rintro α left _ rfl
    cases left with
    | ok a => rfl
    | error fault => exact congrArg Except.error (fault.headed_asIndex name).symm
  parts_nil := rfl
  parts_assemble := by
    rintro part left _ rfl
    exact assemble_relabelled name part left
  parts_join := by
    rintro front rest _ _ rfl rfl
    cases front with
    | error fault => rfl
    | ok first =>
        cases rest with
        | error fault => rfl
        | ok others =>
            obtain ⟨text, fault?⟩ := first
            obtain ⟨other, other?⟩ := others
            cases fault? <;> rfl
  rel_finish := by
    rintro left _ rfl
    cases left with
    | error fault => rfl
    | ok assembly =>
        obtain ⟨text, fault?⟩ := assembly
        cases fault? <;> rfl

end Correspondence

namespace CallStack

variable {stack : CallStack} {left right id : String} {rest : List String}

theorem push_headed (opened : stack.frames = left :: rest) (notLeft : id ≠ left)
    (notRight : id ≠ right) :
    (stack.headed right).push id =
      ((stack.push id).map (headed right)).mapError (Fault.headed right) := by
  obtain ⟨frames, depth, limit⟩ := stack
  obtain rfl : frames = left :: rest := opened
  have before : contains ⟨left :: rest, depth, limit⟩ id = rest.contains id := by
    simp [contains, notLeft]
  have after : contains ⟨right :: rest, depth, limit⟩ id = rest.contains id := by
    simp [contains, notRight]
  simp only [headed, headedChain, push, before, after]
  split
  · rfl
  · split <;> rfl

end CallStack

namespace Scope

variable (scope : Scope)

/-- No reference leads from a phrase to an entry of some name that is opened. -/
def Avoids (phrase : Phrase) (name : String) : Prop :=
  ∀ path, scope.Route phrase path → name ∉ path

variable {scope} {phrase next : Phrase} {name via left right : String}

theorem avoids_of_unknown (unknown : scope.phrase? name = none) : scope.Avoids phrase name := by
  intro path route member
  obtain ⟨next, known⟩ := route.known member
  rw [unknown] at known
  cases known

theorem Avoids.step (avoids : scope.Avoids phrase name) (occurs : via ∈ phrase.names)
    (known : scope.referent? via = some next) (opens : next.opens = true) :
    via ≠ name ∧ scope.Avoids next name := by
  refine ⟨?_, fun path route member => ?_⟩
  · rintro rfl
    exact avoids [via] (.cons occurs known opens .nil) List.mem_cons_self
  · exact avoids (via :: path) (.cons occurs known opens route) (List.mem_cons_of_mem _ member)

theorem formatValue_headed {enter other : String → Phrase → Except Fault Value}
    {value : Expression} {index : List Expression}
    (entered : ∀ name ∈ Phrase.names (.complex (some value) index), ∀ next,
      scope.referent? name = some next →
        other name next = (enter name next).mapError (Fault.headed right)) :
    scope.formatValue other value index =
      (scope.formatValue enter value index).mapError (Fault.headed right) := by
  let relabelling := Correspondence.relabelling right
  refine relabelling.rel_formatIndexed scope.language index value fun name occurs => ?_
  exact relabelling.rel_referent (entered name occurs)

theorem outcome_headed {stack : CallStack} {rest : List String}
    (opened : stack.frames = left :: rest) (id : String) (phrase : Phrase)
    (apart : phrase.opens = true →
      (id ≠ left ∧ scope.Avoids phrase left) ∧ id ≠ right ∧ scope.Avoids phrase right) :
    scope.outcome (stack.headed right) id phrase =
      (scope.outcome stack id phrase).mapError (Fault.headed right) := by
  induction stack using CallStack.opening_induction generalizing rest id phrase with
  | step stack ih =>
      match phrase with
      | .bare _ =>
          rw [outcome_bare, outcome_bare]
          rfl
      | .complex none _ =>
          rw [outcome_valueless, outcome_valueless]
          rfl
      | .complex (some value) index =>
          obtain ⟨⟨notLeft, avoidsLeft⟩, notRight, avoidsRight⟩ := apart rfl
          have headed := CallStack.push_headed opened notLeft notRight
          cases pushed : stack.push id with
          | error fault =>
              rw [pushed] at headed
              rw [scope.outcome_of_refused pushed, scope.outcome_of_refused headed]
              rfl
          | ok entered =>
              rw [pushed] at headed
              rw [scope.outcome_of_pushed pushed, scope.outcome_of_pushed headed]
              -- The names at the head stay where they are, and what is opened next avoids them.
              refine formatValue_headed fun name occurs next known => ?_
              have frames : entered.frames = left :: (rest ++ [id]) := by
                rw [CallStack.push_eq_entered pushed, CallStack.entered, opened]
                rfl
              exact ih id entered pushed frames name next fun opens =>
                ⟨avoidsLeft.step occurs known opens, avoidsRight.step occurs known opens⟩

/-- Two names that a phrase avoids make no difference to its evaluation, except at the head of a
chain that is reported. -/
theorem outcome_renamed (limit : Nat) (valued : phrase.hasValue = true)
    (avoidsLeft : scope.Avoids phrase left) (avoidsRight : scope.Avoids phrase right) :
    scope.outcome (.empty limit) right phrase =
      (scope.outcome (.empty limit) left phrase).mapError (Fault.headed right) := by
  match phrase with
  | .bare _ =>
      rw [outcome_bare, outcome_bare]
      rfl
  | .complex none _ => cases valued
  | .complex (some value) index =>
      cases limit with
      | zero => rfl
      | succ limit =>
          have roomy : 0 < (CallStack.empty (limit + 1)).room := Nat.succ_pos limit
          rw [scope.outcome_of_pushed (CallStack.push_fresh roomy List.not_mem_nil),
            scope.outcome_of_pushed (CallStack.push_fresh roomy List.not_mem_nil)]
          refine formatValue_headed fun name occurs next known => ?_
          have frames : ((CallStack.empty (limit + 1)).entered left).frames = [left] := rfl
          exact outcome_headed frames name next fun opens =>
            ⟨avoidsLeft.step occurs known opens, avoidsRight.step occurs known opens⟩

end Scope

end Phrasebook
