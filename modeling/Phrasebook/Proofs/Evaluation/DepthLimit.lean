import Phrasebook.Proofs.Evaluation.Cut
import Phrasebook.Proofs.Evaluation.StackUse

namespace Phrasebook

open MonadExcept (ofExcept)

/-- An evaluation with all faults that were thrown in it, also those that were caught again. The one
that it ended in is among them. -/
structure Noted (α : Type) where
  outcome : Except Fault α
  faults : List Fault
  ended : ∀ fault, outcome = .error fault → fault ∈ faults

namespace Noted

instance : Monad Noted where
  pure a := ⟨.ok a, [], nofun⟩
  bind noted f :=
    match noted with
    | ⟨.ok a, faults, _⟩ =>
        ⟨(f a).outcome, faults ++ (f a).faults,
          fun fault failed => List.mem_append_right faults ((f a).ended fault failed)⟩
    | ⟨.error caught, faults, ended⟩ =>
        ⟨.error caught, faults, fun _ same => ended _ (congrArg _ (Except.error.inj same))⟩

instance : MonadExcept Fault Noted where
  throw fault := ⟨.error fault, [fault], fun _ same =>
    List.mem_singleton.mpr (Except.error.inj same).symm⟩
  tryCatch noted handle :=
    match noted with
    | ⟨.ok a, faults, _⟩ => ⟨.ok a, faults, nofun⟩
    | ⟨.error caught, faults, _⟩ =>
        ⟨(handle caught).outcome, faults ++ (handle caught).faults,
          fun fault failed => List.mem_append_right faults ((handle caught).ended fault failed)⟩

/-- All faults thrown in an evaluation have roots of some kind, and a value that it ends in is of
some kind. -/
structure Sound (Root : Fault → Prop) (Good : α → Prop) (noted : Noted α) : Prop where
  roots : ∀ fault ∈ noted.faults, Root fault.root
  value : ∀ a, noted.outcome = .ok a → Good a

section Sound

variable {α β : Type} {Root : Fault → Prop} {Good : α → Prop}

theorem Sound.pure {a : α} (good : Good a) : Sound Root Good (pure a) :=
  ⟨nofun, fun _ same => Except.ok.inj same ▸ good⟩

theorem Sound.throw {fault : Fault} (root : Root fault.root) :
    Sound Root Good (throw fault : Noted α) :=
  ⟨fun _ member => List.mem_singleton.mp member ▸ root, nofun⟩

theorem Sound.bind {After : β → Prop} {noted : Noted α} {f : α → Noted β}
    (first : Sound Root Good noted) (next : ∀ a, Good a → Sound Root After (f a)) :
    Sound Root After (noted >>= f) := by
  match noted with
  | ⟨.ok a, faults, _⟩ =>
      have later := next a (first.value a rfl)
      exact ⟨List.forall_mem_append.mpr ⟨first.roots, later.roots⟩, later.value⟩
  | ⟨.error fault, faults, _⟩ => exact ⟨first.roots, nofun⟩

theorem Sound.tryCatch {noted : Noted α} {handle : Fault → Noted α}
    (first : Sound Root Good noted)
    (handled : ∀ fault : Fault, Root fault.root → Sound Root Good (handle fault)) :
    Sound Root Good (tryCatch noted handle) := by
  match noted with
  | ⟨.ok a, faults, _⟩ => exact ⟨first.roots, first.value⟩
  | ⟨.error fault, faults, ended⟩ =>
      have later := handled fault (first.roots fault (ended fault rfl))
      exact ⟨List.forall_mem_append.mpr ⟨first.roots, later.roots⟩, later.value⟩

end Sound

/-- Assembled parts may carry a fault along, which is thrown when they are finished. -/
def Carries (Root : Fault → Prop) (assembly : Assembly) : Prop :=
  ∀ fault ∈ assembly.fault?, Root fault.root

section Assembly

variable {Root : Fault → Prop}

theorem carries_of_none {assembly : Assembly} (none : assembly.fault? = none) :
    Carries Root assembly := by
  simp [Carries, none]

theorem Sound.placed (tooLong : ∀ length, Root (.placeableTooLong length)) (value : Value) :
    Sound Root (fun _ => True) (ofExcept value.placed : Noted String) := by
  rcases value.placed_cases with placed | placed
  · rw [placed]
    exact .throw (tooLong _)
  · rw [placed]
    exact .pure trivial

theorem Sound.assemble (tooLong : ∀ length, Root (.placeableTooLong length)) (part : Expression)
    {evaluated : Noted Value} (sound : Sound Root (fun _ => True) evaluated) :
    Sound Root (Carries Root) (assemble part evaluated) := by
  unfold Phrasebook.assemble
  split
  · exact .pure (carries_of_none rfl)
  · refine .tryCatch (sound.bind fun value _ => ?_) fun fault root => ?_
    · exact (Sound.placed tooLong value).bind fun text _ => .pure (carries_of_none rfl)
    · split
      · exact .throw root
      · refine .pure ?_
        rintro _ ⟨⟩
        exact root

theorem Sound.join {front rest : Noted Assembly} (first : Sound Root (Carries Root) front)
    (others : Sound Root (Carries Root) rest) : Sound Root (Carries Root) (join front rest) := by
  refine first.bind fun front carries => others.bind fun rest carriesToo => .pure ?_
  intro fault kept
  rcases Option.or_eq_some_iff.mp kept with early | ⟨-, late⟩
  · exact carries fault early
  · exact carriesToo fault late

theorem Sound.finish {assembled : Noted Assembly} (sound : Sound Root (Carries Root) assembled) :
    Sound Root (fun _ => True) (finish assembled) := by
  refine sound.bind fun assembly carries => ?_
  unfold Assembly.finish
  split
  · rename_i source kept
    exact .throw (carries source kept)
  · exact .pure trivial

end Assembly

end Noted

namespace Correspondence

/-- The same evaluation with notes. -/
def erasing : Correspondence Noted (Except Fault) :=
  .uniform (fun noted outcome => noted.outcome = outcome)
    (fun _ => rfl)
    (fun _ => rfl)
    (by
      rintro α β left _ f g rfl continued
      match left with
      | ⟨.ok a, _, _⟩ => exact continued a
      | ⟨.error fault, _, _⟩ => rfl)
    (by
      rintro α left _ f g rfl handled
      match left with
      | ⟨.ok a, _, _⟩ => rfl
      | ⟨.error fault, _, _⟩ => exact handled fault)

/-- The same evaluation with notes of faults that all have roots of some kind. -/
def noting (Root : Fault → Prop) (raised : ∀ fault : Fault, fault.Raised → Root fault.root)
    (tooLong : ∀ length, Root (.placeableTooLong length)) :
    Correspondence Noted (Except Fault) where
  Rel noted outcome := erasing.Rel noted outcome ∧ noted.Sound Root fun _ => True
  Parts noted outcome := erasing.Parts noted outcome ∧ noted.Sound Root (Noted.Carries Root)
  rel_pure a := ⟨erasing.rel_pure a, .pure trivial⟩
  rel_raise origin := ⟨erasing.rel_raise origin, .throw (raised _ origin)⟩
  rel_bind related continued :=
    ⟨erasing.rel_bind related.1 fun a => (continued a).1,
      related.2.bind fun a _ => (continued a).2⟩
  rel_indexed related :=
    ⟨erasing.rel_indexed related.1,
      related.2.tryCatch fun fault root => .throw (fault.root_asIndex.symm ▸ root)⟩
  parts_nil := ⟨erasing.parts_nil, .pure (Noted.carries_of_none rfl)⟩
  parts_assemble part _ _ related :=
    ⟨erasing.parts_assemble part related.1, related.2.assemble tooLong part⟩
  parts_join first others := ⟨erasing.parts_join first.1 others.1, first.2.join others.2⟩
  rel_finish parts := ⟨erasing.rel_finish parts.1, parts.2.finish⟩

end Correspondence

namespace Scope

/-- Evaluation with notes, on a stack with so much room left. -/
def notedWithin (scope : Scope) : (room : Nat) → CallStack → String → Phrase → Noted Value
  | _, _, _, .bare text => pure (.text text)
  | _, _, id, .complex none _ => throw (.missingValue id)
  | 0, _, _, .complex (some _) _ => throw .tooDeep
  | room + 1, stack, id, .complex (some value) index =>
      match stack.push id with
      | .error fault => throw fault
      | .ok entered => scope.formatValue (scope.notedWithin room entered) value index

def noted (scope : Scope) (stack : CallStack) (id : String) (phrase : Phrase) : Noted Value :=
  scope.notedWithin stack.room stack id phrase

variable (scope : Scope) {stack : CallStack}

@[simp] theorem noted_bare (stack : CallStack) (id text : String) :
    scope.noted stack id (.bare text) = pure (.text text) := by
  unfold noted
  cases stack.room <;> rfl

@[simp] theorem noted_valueless (stack : CallStack) (id : String) (index : List Expression) :
    scope.noted stack id (.complex none index) = throw (.missingValue id) := by
  unfold noted
  cases stack.room <;> rfl

theorem noted_of_pushed {entered : CallStack} {id : String} (pushed : stack.push id = .ok entered)
    (value : Expression) (index : List Expression) :
    scope.noted stack id (.complex (some value) index) =
      scope.formatValue (scope.noted entered) value index := by
  have same : scope.noted entered = scope.notedWithin entered.room entered := rfl
  rw [noted, CallStack.room_of_pushed pushed, notedWithin, pushed, same]

theorem noted_of_refused {id : String} {fault : Fault} (refused : stack.push id = .error fault)
    (value : Expression) (index : List Expression) :
    scope.noted stack id (.complex (some value) index) = throw fault := by
  unfold noted
  cases room : stack.room with
  | zero =>
      rw [CallStack.push_full room] at refused
      cases refused
      rfl
  | succ room => rw [notedWithin, refused]

theorem noted_outcome (stack : CallStack) (id : String) (phrase : Phrase) :
    (scope.noted stack id phrase).outcome = scope.outcome stack id phrase := by
  induction stack using CallStack.opening_induction generalizing id phrase with
  | step stack ih =>
      match phrase with
      | .bare text =>
          rw [noted_bare, outcome_bare]
          rfl
      | .complex none index =>
          rw [noted_valueless, outcome_valueless]
          rfl
      | .complex (some value) index =>
          cases pushed : stack.push id with
          | error fault =>
              rw [scope.noted_of_refused pushed, scope.outcome_of_refused pushed]
              rfl
          | ok entered =>
              rw [scope.noted_of_pushed pushed, scope.outcome_of_pushed pushed]
              exact Correspondence.erasing.rel_formatValue scope
                (fun name phrase _ => ih id entered pushed name phrase) value index

/-- A stack on which none but some entries are open, with more room than there are of them. -/
structure Ample (names : List String) (stack : CallStack) : Prop where
  wellFormed : stack.WellFormed
  spare : names.length < stack.limit
  opened : stack.frames ⊆ names

variable {scope} {names : List String} {id : String} {limit : Nat}

theorem Ample.below (ample : Ample names stack) : stack.depth < stack.limit := by
  calc
    stack.depth = stack.frames.length := ample.wellFormed.depth_eq
    _ ≤ names.length := ample.wellFormed.distinct.length_le_of_subset ample.opened
    _ < stack.limit := ample.spare

theorem Ample.room_pos (ample : Ample names stack) : 0 < stack.room :=
  Nat.sub_pos_of_lt ample.below

theorem Ample.withLimit (ample : Ample names stack) (enough : names.length < limit) :
    Ample names { stack with limit := limit } := by
  have depth_le : stack.depth ≤ limit := by
    calc
      stack.depth = stack.frames.length := ample.wellFormed.depth_eq
      _ ≤ names.length := ample.wellFormed.distinct.length_le_of_subset ample.opened
      _ ≤ limit := Nat.le_of_lt enough
  exact ⟨⟨ample.wellFormed.depth_eq, depth_le, ample.wellFormed.distinct⟩, enough, ample.opened⟩

theorem Ample.entered (ample : Ample names stack) (known : id ∈ names)
    (fresh : id ∉ stack.frames) : Ample names (stack.entered id) := by
  refine ⟨ample.wellFormed.entered ample.below fresh, ample.spare, ?_⟩
  exact List.append_subset.mpr ⟨ample.opened, List.cons_subset.mpr ⟨known, List.nil_subset _⟩⟩

variable (scope)

/-- On a stack with such room an evaluation throws nothing for want of it, and with any other limit
that leaves such room it comes out the same. -/
theorem noted_of_ample
    (opening : ∀ name value index, scope.phrase? name = some (.complex (some value) index) →
      name ∈ names)
    (enough : names.length < limit) (ample : Ample names stack) {phrase : Phrase}
    (known : scope.phrase? id = some phrase) :
    (scope.noted stack id phrase).outcome = scope.outcome { stack with limit := limit } id phrase ∧
      (scope.noted stack id phrase).Sound (· ≠ .tooDeep) fun _ => True := by
  have raised : ∀ fault : Fault, fault.Raised → fault.root ≠ .tooDeep := by
    rintro _ ⟨⟩ <;> exact nofun
  let noting := Correspondence.noting (· ≠ .tooDeep) raised fun _ => nofun
  induction stack using CallStack.opening_induction generalizing id phrase with
  | step stack ih =>
      match phrase with
      | .bare text =>
          rw [noted_bare, outcome_bare]
          exact noting.rel_pure _
      | .complex none index =>
          rw [noted_valueless, outcome_valueless]
          exact ⟨rfl, .throw nofun⟩
      | .complex (some value) index =>
          -- Both stacks hold the same frames, so both refuse the entry or both open it.
          have roomy := (ample.withLimit enough).room_pos
          by_cases opened : id ∈ stack.frames
          · rw [scope.noted_of_refused (CallStack.push_open ample.room_pos opened),
              scope.outcome_of_refused (CallStack.push_open roomy opened)]
            exact ⟨rfl, .throw nofun⟩
          · have pushed := CallStack.push_fresh ample.room_pos opened
            have below := ample.entered (opening id value index known) opened
            rw [scope.noted_of_pushed pushed,
              scope.outcome_of_pushed (CallStack.push_fresh roomy opened)]
            exact noting.rel_formatValue scope
              (fun name phrase found => ih id _ pushed below found) value index

end Scope

/-- The entries that are opened when they are evaluated. -/
def Entries.opening (entries : Entries) : Entries :=
  entries.filter fun named => named.2.phrase.opens

theorem Entries.mem_opening {entries : Entries} {name : String} {entry : Entry}
    {value : Expression} {index : List Expression} (known : entries.find? name = some entry)
    (complex : entry.phrase = .complex (some value) index) : name ∈ entries.opening.names := by
  refine List.mem_map.mpr ⟨(name, entry), List.mem_filter.mpr ⟨Table.mem_of_find? known, ?_⟩, rfl⟩
  rw [complex]
  rfl

/-- With room on the stack for more entries than are ever opened, the limit is never met: no fault
thrown on the way has it at its root, not even one that is caught again, and any other such limit
gives the same result. -/
theorem depth_limit_adequate (entries : Entries) (arguments : Arguments) (language id : String)
    (entry : Entry) (known : entries.find? id = some entry) (limit : Nat)
    (enough : entries.opening.length < limit) :
    let scope := Scope.ofEntries entries arguments language
    let noted := scope.noted (.empty limit) id entry.phrase
    noted.outcome = (scope.format (.empty limit) id entry.phrase).1 ∧
    (∀ fault ∈ noted.faults, fault.root ≠ .tooDeep) ∧
    ∀ other, entries.opening.length < other →
      (scope.format (.empty other) id entry.phrase).1 =
        (scope.format (.empty limit) id entry.phrase).1 := by
  intro scope noted
  have opening : ∀ name value index, scope.phrase? name = some (.complex (some value) index) →
      name ∈ entries.opening.names := by
    intro name value index complex
    obtain ⟨entry, found, same⟩ := Option.map_eq_some_iff.mp complex
    exact Entries.mem_opening found same
  have length : entries.opening.names.length = entries.opening.length := List.length_map _
  have ample : ∀ limit, entries.opening.length < limit →
      Scope.Ample entries.opening.names (.empty limit) := fun limit enough =>
    ⟨.empty limit, length ▸ enough, List.nil_subset _⟩
  have found : scope.phrase? id = some entry.phrase := congrArg (Option.map Entry.phrase) known
  have same := scope.noted_outcome (.empty limit) id entry.phrase
  refine ⟨same, ?_, fun other enough' => ?_⟩
  · exact (scope.noted_of_ample opening (ample limit enough).spare (ample limit enough)
      found).2.roots
  · have alike := scope.noted_of_ample opening (ample other enough').spare (ample limit enough)
      found
    exact alike.1.symm.trans same

/-- A letter whose date has a selector that leads back to it. -/
def datedLetter : Entries :=
  let date : Expression := .selection [("other", .literal "today")] none
  let season : Expression := .pattern [.reference "year", .reference "date"]
  [("date", { phrase := .complex (some date) [.reference "season"] }),
    ("letter", { phrase := .complex (some (.pattern [.literal "On ", .reference "date"])) [] }),
    ("season", { phrase := .complex (some season) [] }),
    ("year", { phrase := .bare "This year" })]

theorem depth_limit_adequate_letter :
    let letter : Phrase := .complex (some (.pattern [.literal "On ", .reference "date"])) []
    let scope := Scope.ofEntries datedLetter [] "en"
    datedLetter.find? "letter" = some { phrase := letter } ∧ datedLetter.opening.length < 4 ∧
    (∀ fault ∈ (scope.noted (.empty 4) "letter" letter).faults, fault.root ≠ .tooDeep) ∧
    (scope.format (.empty 64) "letter" letter).1 =
      .error (.value "On \x7b\x7b date \x7d\x7d"
        (.index (.cyclic ["letter", "date", "season", "date"]))) := by
  intro letter scope
  have known : datedLetter.find? "letter" = some { phrase := letter } := rfl
  obtain ⟨-, clean, same⟩ :=
    depth_limit_adequate datedLetter [] "en" "letter" { phrase := letter } known 4 (by decide)
  exact ⟨known, by decide, clean, (same 64 (by decide)).trans rfl⟩

end Phrasebook
