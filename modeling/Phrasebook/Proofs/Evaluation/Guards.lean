import Phrasebook.Proofs.Evaluation.Cut
import Phrasebook.Proofs.Evaluation.Restoration

namespace Phrasebook

def Fault.isGuard : Fault → Bool
  | .cyclic _ => true
  | .tooDeep => true
  | _ => false

namespace Scope

/-- Evaluation without a call stack, if no more than so many entries are evaluated within one
another. -/
def formatFreely (scope : Scope) : (nesting : Nat) → String → Phrase → Cut Value
  | _, _, .bare text => pure (.text text)
  | _, id, .complex none _ => throw (.missingValue id)
  | 0, _, .complex (some _) _ => (none : Option (Except Fault Value))
  | nesting + 1, _, .complex (some value) index =>
      scope.formatValue (scope.formatFreely nesting) value index

variable (scope : Scope)

/-- Only a phrase with a value that is not bare is opened; any other comes out the same at once, on
every stack and without one. -/
theorem unopened_or_opened (id : String) (phrase : Phrase) :
    (∀ nesting stack, scope.formatFreely nesting id phrase = some (scope.outcome stack id phrase)) ∨
      ∃ value index, phrase = .complex (some value) index := by
  match phrase with
  | .bare text =>
      refine .inl fun nesting stack => ?_
      rw [outcome_bare]
      cases nesting <;> rfl
  | .complex none index =>
      refine .inl fun nesting stack => ?_
      rw [outcome_valueless]
      cases nesting <;> rfl
  | .complex (some value) index => exact .inr ⟨value, index, rfl⟩

theorem formatFreely_succ (nesting : Nat) {id : String} {phrase : Phrase}
    {outcome : Except Fault Value} (ended : scope.formatFreely nesting id phrase = some outcome) :
    scope.formatFreely (nesting + 1) id phrase = some outcome := by
  induction nesting generalizing id phrase outcome with
  | zero =>
      obtain unopened | ⟨value, index, rfl⟩ := scope.unopened_or_opened id phrase
      · rw [← ended, unopened 1 (.empty 0), unopened 0 (.empty 0)]
      · cases ended
  | succ nesting ih =>
      obtain unopened | ⟨value, index, rfl⟩ := scope.unopened_or_opened id phrase
      · rw [← ended, unopened _ (.empty 0), unopened _ (.empty 0)]
      · exact Correspondence.extending.rel_formatValue scope
          (fun name phrase _ outcome ended => ih ended) value index outcome ended

theorem formatValue_settled (stack : CallStack) (value : Expression) (index : List Expression) :
    (scope.formatValue (fun name phrase => some (scope.outcome stack name phrase)) value index :
      Cut Value) = some (scope.formatValue (scope.outcome stack) value index) :=
  Correspondence.settled.rel_formatValue scope (fun _ _ _ => rfl) value index

/-- All open entries need more nesting than this. An entry that ends within it is none of them. -/
def Exceeded (nesting : Nat) (stack : CallStack) : Prop :=
  ∀ frame ∈ stack.frames, ∀ phrase, scope.phrase? frame = some phrase →
    scope.formatFreely nesting frame phrase = none

variable {scope}

theorem Exceeded.empty (nesting limit : Nat) : scope.Exceeded nesting (.empty limit) := by
  intro frame opened
  cases opened

theorem Exceeded.pred {nesting : Nat} {stack : CallStack}
    (exceeded : scope.Exceeded (nesting + 1) stack) : scope.Exceeded nesting stack := by
  intro frame opened phrase known
  cases free : scope.formatFreely nesting frame phrase with
  | none => rfl
  | some outcome =>
      rw [← exceeded frame opened phrase known, scope.formatFreely_succ nesting free]

theorem Exceeded.fresh {nesting : Nat} {stack : CallStack} {id : String} {phrase : Phrase}
    {outcome : Except Fault Value} (exceeded : scope.Exceeded nesting stack)
    (known : scope.phrase? id = some phrase)
    (ended : scope.formatFreely nesting id phrase = some outcome) : id ∉ stack.frames := by
  intro opened
  rw [exceeded id opened phrase known] at ended
  cases ended

theorem Exceeded.entered {nesting : Nat} {stack : CallStack} {id : String} {phrase : Phrase}
    (exceeded : scope.Exceeded (nesting + 1) stack) (known : scope.phrase? id = some phrase)
    (needed : scope.formatFreely nesting id phrase = none) :
    scope.Exceeded nesting (stack.entered id) := by
  intro frame opened other found
  simp only [CallStack.entered, List.mem_append, List.mem_singleton] at opened
  rcases opened with opened | rfl
  · exact exceeded.pred frame opened other found
  · rw [known] at found
    cases found
    exact needed

variable (scope)

/-- An evaluation that ends needs no entry again while it is open, so with enough room the call
stack changes nothing. -/
theorem outcome_of_formatFreely {nesting : Nat} {stack : CallStack} {id : String}
    {phrase : Phrase} {outcome : Except Fault Value} (known : scope.phrase? id = some phrase)
    (ended : scope.formatFreely nesting id phrase = some outcome)
    (exceeded : scope.Exceeded nesting stack) (roomy : nesting ≤ stack.room) :
    scope.outcome stack id phrase = outcome := by
  induction nesting generalizing stack id phrase outcome with
  | zero =>
      obtain unopened | ⟨value, index, rfl⟩ := scope.unopened_or_opened id phrase
      · exact Option.some.inj ((unopened 0 stack).symm.trans ended)
      · cases ended
  | succ nesting ih =>
      obtain unopened | ⟨value, index, rfl⟩ := scope.unopened_or_opened id phrase
      · exact Option.some.inj ((unopened _ stack).symm.trans ended)
      -- The least nesting that is enough tells that the entry cannot be open.
      · cases free : scope.formatFreely nesting id (.complex (some value) index) with
        | some earlier =>
            have same := scope.formatFreely_succ nesting free
            rw [ended] at same
            cases same
            exact ih known free exceeded.pred (by omega)
        | none =>
            have below := exceeded.entered known free
            have answers : ∀ name phrase, scope.phrase? name = some phrase →
                Correspondence.extending.Rel (scope.formatFreely nesting name phrase)
                  (some (scope.outcome (stack.entered id) name phrase)) := by
              intro name phrase found outcome ended
              exact congrArg some (ih found ended below (by rw [CallStack.room_entered]; omega))
            have answered :=
              Correspondence.extending.rel_formatValue scope answers value index outcome ended
            rw [scope.formatValue_settled] at answered
            have pushed := CallStack.push_fresh (by omega) (exceeded.fresh known ended)
            rw [scope.outcome_of_pushed pushed]
            exact Option.some.inj answered

theorem formatFreely_of_outcome {room : Nat} {stack : CallStack} (left : stack.room = room)
    {id : String} {phrase : Phrase} {value : Value}
    (succeeded : scope.outcome stack id phrase = .ok value) :
    scope.formatFreely room id phrase = some (.ok value) := by
  induction stack using CallStack.opening_induction generalizing room id phrase value with
  | step stack ih =>
      obtain unopened | ⟨body, index, rfl⟩ := scope.unopened_or_opened id phrase
      · rw [unopened room stack, succeeded]
      · cases pushed : stack.push id with
        | error fault =>
            rw [scope.outcome_of_refused pushed] at succeeded
            cases succeeded
        | ok entered =>
            rw [scope.outcome_of_pushed pushed] at succeeded
            have remaining : room = entered.room + 1 := by
              rw [← left, CallStack.room_of_pushed pushed]
            have answers : ∀ name phrase, scope.phrase? name = some phrase →
                (Correspondence.falling fun _ => False).Rel
                  (some (scope.outcome entered name phrase))
                  (scope.formatFreely entered.room name phrase) := by
              intro name phrase _ answer ended
              exact .inl (ih id entered pushed rfl (Option.some.inj ended))
            have answered :=
              (Correspondence.falling fun _ => False).rel_formatValue scope answers body index
            rw [scope.formatValue_settled] at answered
            rw [remaining]
            rcases answered value (congrArg some succeeded) with same | ⟨_, _, root⟩
            · exact same
            · exact root.elim

/-- What succeeds without a call stack at most runs out of room on one. -/
theorem outcome_eq_or_tooDeep {nesting : Nat} {stack : CallStack} {id : String}
    {phrase : Phrase} {value : Value} (known : scope.phrase? id = some phrase)
    (succeeded : scope.formatFreely nesting id phrase = some (.ok value))
    (exceeded : scope.Exceeded nesting stack) :
    scope.outcome stack id phrase = .ok value ∨
      ∃ fault, scope.outcome stack id phrase = .error fault ∧ fault.root = .tooDeep := by
  induction nesting generalizing stack id phrase value with
  | zero =>
      obtain unopened | ⟨body, index, rfl⟩ := scope.unopened_or_opened id phrase
      · exact .inl (Option.some.inj ((unopened 0 stack).symm.trans succeeded))
      · cases succeeded
  | succ nesting ih =>
      obtain unopened | ⟨body, index, rfl⟩ := scope.unopened_or_opened id phrase
      · exact .inl (Option.some.inj ((unopened _ stack).symm.trans succeeded))
      · cases free : scope.formatFreely nesting id (.complex (some body) index) with
        | some earlier =>
            have same := scope.formatFreely_succ nesting free
            rw [succeeded] at same
            cases same
            exact ih known free exceeded.pred
        | none =>
            cases room : stack.room with
            | zero =>
                rw [scope.outcome_of_refused (CallStack.push_full room id)]
                exact .inr ⟨.tooDeep, rfl, rfl⟩
            | succ room =>
                have below := exceeded.entered known free
                have answers : ∀ name phrase, scope.phrase? name = some phrase →
                    (Correspondence.falling (· = .tooDeep)).Rel
                      (scope.formatFreely nesting name phrase)
                      (some (scope.outcome (stack.entered id) name phrase)) := by
                  intro name phrase found answer ended
                  rcases ih found ended below with same | ⟨fault, failed, root⟩
                  · exact .inl (congrArg some same)
                  · exact .inr ⟨fault, congrArg some failed, root⟩
                have answered := (Correspondence.falling (· = .tooDeep)).rel_formatValue scope
                  answers body index value succeeded
                rw [scope.formatValue_settled] at answered
                have pushed := CallStack.push_fresh (by omega) (exceeded.fresh known succeeded)
                rw [scope.outcome_of_pushed pushed]
                rcases answered with same | ⟨fault, failed, root⟩
                · exact .inl (Option.some.inj same)
                · exact .inr ⟨fault, Option.some.inj failed, root⟩

theorem formatFreely_rooted (nesting : Nat) (id : String) (phrase : Phrase) :
    Cut.Rooted (fun root => root.isGuard = false) (scope.formatFreely nesting id phrase) := by
  induction nesting generalizing id phrase with
  | zero =>
      match phrase with
      | .bare text => exact .value _
      | .complex none _ => exact .fault rfl
      | .complex (some _) _ => exact .cut
  | succ nesting ih =>
      match phrase with
      | .bare text => exact .value _
      | .complex none _ => exact .fault rfl
      | .complex (some value) index =>
          have raised : ∀ fault : Fault, fault.Raised → fault.root.isGuard = false := by
            intro fault origin
            cases origin <;> rfl
          let rooted := Correspondence.rooted (fun root => root.isGuard = false) raised fun _ => rfl
          have answers : ∀ name phrase, scope.phrase? name = some phrase →
              rooted.Rel (scope.formatFreely nesting name phrase)
                (scope.formatFreely nesting name phrase) :=
            fun name phrase _ => ih name phrase
          exact rooted.rel_formatValue scope answers value index

end Scope

/-- Let evaluation without a call stack end with so many entries within one another. Then evaluation
on a stack that has room for them ends the same, and with no fault of the stack; a value is at most
missed for want of room, never for a cycle. Where evaluation without a stack does not end, a stack
of any size makes it a fault. -/
theorem guards_exact (entries : Entries) (arguments : Arguments) (language id : String)
    (entry : Entry) (known : entries.find? id = some entry) :
    let scope := Scope.ofEntries entries arguments language
    (∀ limit outcome, scope.formatFreely limit id entry.phrase = some outcome →
      scope.format (.empty limit) id entry.phrase = (outcome, .empty limit) ∧
        ∀ fault, outcome = .error fault → fault.root.isGuard = false) ∧
    (∀ nesting value, scope.formatFreely nesting id entry.phrase = some (.ok value) →
      ∀ limit fault, (scope.format (.empty limit) id entry.phrase).1 = .error fault →
        fault.root = .tooDeep) ∧
    ((∀ nesting, scope.formatFreely nesting id entry.phrase = none) →
      ∀ limit, ∃ fault, (scope.format (.empty limit) id entry.phrase).1 = .error fault) := by
  intro scope
  have found : scope.phrase? id = some entry.phrase := by
    simp only [scope, Scope.ofEntries, known, Option.map_some]
  refine ⟨fun limit outcome ended => ⟨?_, ?_⟩, ?_, ?_⟩
  · rw [scope.format_eq, scope.outcome_of_formatFreely found ended (.empty limit limit)
      (Nat.le_refl limit)]
  · rintro fault rfl
    have rooted := scope.formatFreely_rooted limit id entry.phrase
    rw [ended] at rooted
    cases rooted with
    | fault root => exact root
  · intro nesting value succeeded limit fault failed
    rcases scope.outcome_eq_or_tooDeep found succeeded (.empty nesting limit) with
      same | ⟨other, failed', root⟩
    · rw [scope.format_eq, same] at failed
      cases failed
    · rw [scope.format_eq, failed'] at failed
      cases failed
      exact root
  · intro endless limit
    cases result : (scope.format (.empty limit) id entry.phrase).1 with
    | error fault => exact ⟨fault, rfl⟩
    | ok value =>
        have ended := scope.formatFreely_of_outcome (CallStack.room_empty limit) result
        rw [endless limit] at ended
        cases ended

def greeting : Entry where
  phrase := .complex
    (some (.selection [("formal", .reference "welcome"), ("other", .literal "Hi")] none))
    [.reference "tone"]

def greetings : Entries :=
  [("greeting", greeting),
    ("loop",
      { phrase := .complex (some (.pattern [.reference "greeting", .reference "loop"])) [] }),
    ("tone", { phrase := .bare "formal" }),
    ("welcome", { phrase := .complex (some (.pattern [.literal "Welcome"])) [] })]

theorem guards_exact_greeting :
    greetings.find? "greeting" = some greeting ∧
      (Scope.ofEntries greetings [] "en").format (.empty 2) "greeting" greeting.phrase =
        (.ok (.text "Welcome"), .empty 2) := by
  have known : greetings.find? "greeting" = some greeting := rfl
  have ended : (Scope.ofEntries greetings [] "en").formatFreely 2 "greeting" greeting.phrase =
      some (.ok (.text "Welcome")) := rfl
  exact ⟨known, ((guards_exact greetings [] "en" "greeting" greeting known).1 2 _ ended).1⟩

end Phrasebook
