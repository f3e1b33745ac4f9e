import Phrasebook.Proofs.Evaluation.Guards
import Phrasebook.Proofs.Evaluation.Layers
import Phrasebook.Proofs.Evaluation.Reach
import Phrasebook.Proofs.Evaluation.StackUse

namespace Phrasebook

namespace Scope

/-- The phrase that answers a reference, if this names neither a function nor an argument. -/
def referent? (scope : Scope) (name : String) : Option Phrase :=
  match Function.ofName? name, scope.arguments.find? name with
  | none, none => scope.phrase? name
  | _, _ => none

/-- References to entries that are opened for them, each in the phrase of the one before it. -/
inductive Route (scope : Scope) : Phrase → List String → Prop
  | nil {phrase : Phrase} : Route scope phrase []
  | cons {phrase next : Phrase} {name : String} {path : List String} (occurs : name ∈ phrase.names)
      (known : scope.referent? name = some next) (opens : next.opens = true)
      (further : Route scope next path) : Route scope phrase (name :: path)

theorem phrase?_of_referent? {scope : Scope} {name : String} {next : Phrase}
    (known : scope.referent? name = some next) : scope.phrase? name = some next := by
  unfold referent? at known
  split at known
  · exact known
  · cases known

theorem Route.known {scope : Scope} {phrase : Phrase} {path : List String}
    (route : scope.Route phrase path) {name : String} (member : name ∈ path) :
    ∃ next, scope.phrase? name = some next := by
  induction route with
  | nil => cases member
  | cons _ known _ _ ih =>
      rcases List.mem_cons.mp member with rfl | later
      · exact ⟨_, phrase?_of_referent? known⟩
      · exact ih later

end Scope

/-- The last of a chain is one of those before it, and these are all different. -/
def Loops (chain : List String) : Prop :=
  ∃ front last, chain = front ++ [last] ∧ last ∈ front ∧ front.Nodup

theorem Loops.tail {first : String} {path : List String} (loops : Loops (first :: path))
    (once : first ∉ path) : Loops path := by
  obtain ⟨front, last, same, again, distinct⟩ := loops
  cases front with
  | nil => cases again
  | cons other front =>
      obtain ⟨rfl, rfl⟩ := List.cons.inj same
      have differ : last ≠ first := by
        rintro rfl
        exact once (by simp)
      exact ⟨front, last, rfl, (List.mem_cons.mp again).resolve_left differ, distinct.of_cons⟩

theorem Cut.Rooted.mono {Root Other : Fault → Prop} {cut : Cut α} (rooted : Rooted Root cut)
    (implies : ∀ root, Root root → Other root) : Rooted Other cut := by
  cases rooted with
  | cut => exact .cut
  | value a => exact .value a
  | fault root => exact .fault (implies _ root)

theorem Correspondence.rel_referent {m n : Type → Type} [Monad m] [MonadExcept Fault m] [Monad n]
    [MonadExcept Fault n] (c : Correspondence m n) {scope : Scope}
    {enter : String → Phrase → m Value} {other : String → Phrase → n Value} {name : String}
    (entered : ∀ phrase, scope.referent? name = some phrase →
      c.Rel (enter name phrase) (other name phrase)) :
    c.Rel (scope.answer enter name) (scope.answer other name) := by
  refine c.rel_answer_unshadowed rfl fun function argument => ?_
  rw [Scope.referent?, function, argument] at entered
  cases known : scope.phrase? name with
  | some phrase => exact .some (entered phrase known)
  | none => exact .none

namespace Scope

variable (scope : Scope)

/-- A root that is a cycle loops, by a route from a phrase that was opened behind some frames. -/
def Circular (frames : List String) (phrase : Phrase) (root : Fault) : Prop :=
  ∀ chain, root = .cyclic chain →
    phrase.opens = true ∧ ∃ path, scope.Route phrase path ∧ chain = frames ++ path ∧ Loops chain

theorem outcome_rooted (stack : CallStack) (distinct : stack.frames.Nodup) (id : String)
    (phrase : Phrase) :
    Cut.Rooted (scope.Circular (stack.frames ++ [id]) phrase)
      (some (scope.outcome stack id phrase)) := by
  induction stack using CallStack.opening_induction generalizing id phrase with
  | step stack ih =>
      match phrase with
      | .bare _ =>
          rw [outcome_bare]
          exact .value _
      | .complex none _ =>
          rw [outcome_valueless]
          exact .fault nofun
      | .complex (some value) index =>
          cases pushed : stack.push id with
          | error fault =>
              rw [scope.outcome_of_refused pushed]
              rcases CallStack.push_refused pushed with rfl | ⟨opened, rfl⟩
              · exact .fault nofun
              -- The chain ends in the entry that was open already, before any reference in it.
              · refine .fault ?_
                rintro _ ⟨⟩
                exact ⟨rfl, [], .nil, (List.append_nil _).symm, stack.frames, id, rfl, opened,
                  distinct⟩
          | ok entered =>
              obtain ⟨-, fresh, rfl⟩ := CallStack.push_ok pushed
              have still := CallStack.entered_distinct distinct fresh
              have raised : ∀ fault : Fault, fault.Raised →
                  scope.Circular (stack.frames ++ [id]) (.complex (some value) index)
                    fault.root := by
                intro fault origin
                cases origin <;> exact nofun
              let rooted := Correspondence.rooted _ raised fun _ => nofun
              let enter : String → Phrase → Cut Value :=
                fun name phrase => some (scope.outcome (stack.entered id) name phrase)
              have answers : rooted.Answers (scope.answer enter) (scope.answer enter)
                  (value.names ++ index.flatMap Expression.names) := by
                intro name occurs
                refine rooted.rel_referent fun next known => ?_
                refine (ih id _ pushed still name next).mono fun root circular chain cyclic => ?_
                obtain ⟨opens, path, further, rfl, loops⟩ := circular chain cyclic
                exact ⟨rfl, name :: path, .cons occurs known opens further, by
                  simp [CallStack.entered], loops⟩
              rw [scope.outcome_of_pushed pushed, ← scope.formatValue_settled]
              exact rooted.rel_formatIndexed scope.language index value answers

/-- A cycle among the roots of a fault is the chain of open entries, and from the phrase that was
evaluated on it follows references until it comes back to where it has been. -/
theorem outcome_cyclic {stack : CallStack} (distinct : stack.frames.Nodup) {id : String}
    {phrase : Phrase} {fault : Fault} {chain : List String}
    (failed : scope.outcome stack id phrase = .error fault) (root : fault.root = .cyclic chain) :
    ∃ path, scope.Route phrase path ∧ chain = stack.frames ++ id :: path ∧ Loops chain := by
  have rooted := scope.outcome_rooted stack distinct id phrase
  rw [failed] at rooted
  cases rooted with
  | fault circular =>
      obtain ⟨-, path, route, same, loops⟩ := circular chain root
      exact ⟨path, route, by simpa using same, loops⟩

/-- One entry leads to another that is opened for it. The name of the other one occurs in the phrase
of the first, and it means neither a function nor an argument there. -/
structure Leads (via name : String) : Prop where
  occurs : ∃ phrase, scope.phrase? via = some phrase ∧ name ∈ phrase.names
  notFunction : Function.ofName? name = none
  notArgument : scope.arguments.find? name = none
  opened : ∃ value index, scope.phrase? name = some (.complex (some value) index)

variable {scope} in
theorem leads_of_referent? {via name : String} {phrase next : Phrase}
    (known : scope.phrase? via = some phrase) (occurs : name ∈ phrase.names)
    (referent : scope.referent? name = some next) (opens : next.opens = true) :
    scope.Leads via name := by
  have found := phrase?_of_referent? referent
  unfold referent? at referent
  split at referent
  · rename_i notFunction notArgument
    refine ⟨⟨phrase, known, occurs⟩, notFunction, notArgument, ?_⟩
    match next with
    | .complex (some value) index => exact ⟨value, index, found⟩
    | .bare _ => cases opens
    | .complex none _ => cases opens
  · cases referent

variable {scope} in
theorem Route.isChain {phrase : Phrase} {path : List String} (route : scope.Route phrase path)
    {id : String} (known : scope.phrase? id = some phrase) :
    (id :: path).IsChain scope.Leads := by
  induction route generalizing id with
  | nil => exact .singleton id
  | cons occurs referent opens further ih =>
      apply List.IsChain.cons_cons
      · exact leads_of_referent? known occurs referent opens
      · exact ih (phrase?_of_referent? referent)

end Scope

/-- A cycle holds no other fault, so it is the innermost layer. -/
theorem Fault.root_of_layer {fault : Fault} {chain : List String}
    (within : .cyclic chain ∈ fault.layers) : fault.root = .cyclic chain := by
  induction fault with
  | value text source ih =>
      apply ih
      exact (List.mem_cons.mp within).resolve_left nofun
  | index source ih =>
      apply ih
      exact (List.mem_cons.mp within).resolve_left nofun
  | _ => exact (List.mem_singleton.mp within).symm

/-- Every cycle that is reported, in whatever layer of a fault, is one of references. Its chain
begins with the entry that was evaluated, each entry of it leads to the next, and only the last of
them was met before, exactly once. -/
theorem cycles_real (entries : Entries) (arguments : Arguments) (language id : String)
    (entry : Entry) (known : entries.find? id = some entry) (limit : Nat) {fault : Fault}
    {chain : List String}
    (failed : ((Scope.ofEntries entries arguments language).format (.empty limit) id
      entry.phrase).1 = .error fault)
    (reported : .cyclic chain ∈ fault.layers) :
    chain.head? = some id ∧
    (∃ front last, chain = front ++ [last] ∧ front.Nodup ∧ front.count last = 1) ∧
    chain.IsChain (Scope.ofEntries entries arguments language).Leads := by
  let scope := Scope.ofEntries entries arguments language
  have found : scope.phrase? id = some entry.phrase := congrArg (Option.map Entry.phrase) known
  obtain ⟨path, route, same, front, last, loop, again, distinct⟩ :=
    scope.outcome_cyclic List.nodup_nil failed (Fault.root_of_layer reported)
  refine ⟨?_, ⟨front, last, loop, distinct, ?_⟩, ?_⟩
  · rw [same]
    rfl
  · exact distinct.count.trans (if_pos again)
  · rw [same]
    exact route.isChain found

/-- A guest whose title depends on a rank that is told by the title. -/
def rankedGuests : Entries :=
  let guest : Expression := .selection [("other", .literal "guest")] none
  let rank : Expression := .pattern [.literal "of ", .reference "title"]
  [("guest", { phrase := .complex (some guest) [.reference "title"] }),
    ("letter", { phrase := .complex (some (.pattern [.literal "Dear ", .reference "guest"])) [] }),
    ("rank", { phrase := .complex (some rank) [] }),
    ("title", { phrase := .complex (some (.reference "rank")) [] })]

theorem cycles_real_letter :
    let letter : Phrase := .complex (some (.pattern [.literal "Dear ", .reference "guest"])) []
    let scope := Scope.ofEntries rankedGuests [("count", .text "two")] "en"
    let chain := ["letter", "guest", "title", "rank", "title"]
    let fault : Fault := .value "Dear \x7b\x7b guest \x7d\x7d" (.index (.cyclic chain))
    rankedGuests.find? "letter" = some { phrase := letter } ∧
    (scope.format (.empty 64) "letter" letter).1 = .error fault ∧ .cyclic chain ∈ fault.layers ∧
    chain.IsChain scope.Leads := by
  intro letter scope chain fault
  have known : rankedGuests.find? "letter" = some { phrase := letter } := rfl
  have failed : (scope.format (.empty 64) "letter" letter).1 = .error fault := rfl
  have reported : .cyclic chain ∈ fault.layers := by decide
  obtain ⟨-, -, leads⟩ := cycles_real rankedGuests [("count", .text "two")] "en" "letter"
    { phrase := letter } known 64 failed reported
  exact ⟨known, failed, reported, leads⟩

end Phrasebook
