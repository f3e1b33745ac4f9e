import Phrasebook.Proofs.Evaluation.Assembly
import Phrasebook.Proofs.Evaluation.Trail

/-! What is true of everything that is evaluated. -/

namespace Phrasebook

open MonadExcept (ofExcept)

def FailsOnly (Faults : Fault → Prop) (outcome : Except Fault α) : Prop :=
  ∀ fault, outcome = .error fault → Faults fault

namespace FailsOnly

variable {Faults : Fault → Prop}

theorem ok (a : α) : FailsOnly Faults (.ok a : Except Fault α) := nofun

theorem error {fault : Fault} (fails : Faults fault) :
    FailsOnly Faults (.error fault : Except Fault α) := by
  rintro _ ⟨⟩
  exact fails

theorem bind {outcome : Except Fault α} {f : α → Except Fault β}
    (first : FailsOnly Faults outcome) (next : ∀ a, FailsOnly Faults (f a)) :
    FailsOnly Faults (outcome >>= f) := by
  cases outcome with
  | ok a => exact next a
  | error fault => exact error (first fault rfl)

theorem indexed {outcome : Except Fault α} (fails : FailsOnly Faults outcome)
    (wrapped : ∀ fault, Faults fault → Faults fault.asIndex) :
    FailsOnly Faults (indexed outcome) := by
  cases outcome with
  | ok a => exact ok a
  | error fault => exact error (wrapped fault (fails fault rfl))

end FailsOnly

theorem takenKey_absent {key? : Option String} {default : String} {keys : List String}
    (absent : takenKey key? default keys ∉ keys) :
    key?.getD default ∉ keys ∧ default ∉ keys := by
  cases key? with
  | none => exact ⟨absent, absent⟩
  | some key =>
      by_cases present : keys.contains key
      · rw [takenKey, Option.filter_some_pos present] at absent
        exact absurd (List.contains_iff_mem.mp present) absent
      · rw [takenKey, Option.filter_some_neg (Bool.eq_false_iff.mpr present)] at absent
        exact ⟨by simpa using present, absent⟩

theorem keys_absent {answer : Answer (Except Fault)} {language : String}
    {selectors : List (Selector (Except Fault))} {key? : Option String} {default : String}
    {branches : List (String × Expression)}
    (missing : Expression.formatBranch? answer language selectors
      (some (takenKey key? default (branches.map Prod.fst))) branches = none) :
    key?.getD default ∉ branches.map Prod.fst ∧ default ∉ branches.map Prod.fst := by
  refine takenKey_absent fun present => ?_
  obtain ⟨evaluated, found⟩ := formatBranch?_isSome answer language selectors present
  rw [missing] at found
  cases found

def Fault.isMissingVariant : Fault → Bool
  | .missingVariant _ _ _ => true
  | _ => false

/-- A property of texts and one of faults, for expressions of some kind, that evaluation keeps. -/
structure Invariant where
  Known : Expression → Prop
  Good : String → Prop
  Faulty : Fault → Prop
  known_part : ∀ {parts : List Expression}, Known (.pattern parts) → ∀ part ∈ parts, Known part
  known_branch : ∀ {branches : List (String × Expression)} {default? : Option String},
    Known (.selection branches default?) → ∀ named ∈ branches, Known named.2
  known_argument : ∀ {callee : Expression} {arguments : List Expression},
    Known (.call callee arguments) → ∀ argument ∈ arguments, Known argument
  good_literal : ∀ {text : String}, Known (.literal text) → Good text
  good_category : ∀ category : Plural.Category, Good category.name
  good_empty : Good ""
  good_append : ∀ {front rest : String}, Good front → Good rest → Good (front ++ rest)
  good_isolate : ∀ {text : String}, Good text → Good (isolate text)
  good_source : ∀ {part : Expression}, Known part → Good part.placeableSource
  faulty_runtime : ∀ {fault : Fault}, fault.kind = .runtime → fault.isMissingVariant = false →
    Faulty fault
  faulty_variant : ∀ {branches : List (String × Expression)} {default? : Option String}
    {key : String}, Known (.selection branches default?) → key ∉ branches.map Prod.fst →
    defaultKey default? ∉ branches.map Prod.fst → Faulty (noVariant key (branches.map Prod.fst))
  faulty_value : ∀ {text : String} {source : Fault}, Good text → Faulty source →
    source.endsPattern = false → Faulty (.value text source)
  faulty_index : ∀ {fault : Fault}, Faulty fault → Faulty fault.asIndex

namespace Invariant

variable (inv : Invariant)

structure Sound (outcome : Except Fault Value) : Prop where
  good : ∀ value, outcome = .ok value → inv.Good value.display
  faulty : FailsOnly inv.Faulty outcome

variable {inv}

theorem Sound.ok {value : Value} (good : inv.Good value.display) : inv.Sound (.ok value) where
  good _ same := Except.ok.inj same ▸ good
  faulty := .ok value

theorem Sound.error {fault : Fault} (faulty : inv.Faulty fault) : inv.Sound (.error fault) where
  good := nofun
  faulty := .error faulty

theorem Sound.runtime {fault : Fault} (kind : fault.kind = .runtime)
    (other : fault.isMissingVariant = false) : inv.Sound (.error fault) :=
  .error (inv.faulty_runtime kind other)

theorem Sound.bind {outcome : Except Fault α} {f : α → Except Fault Value}
    (first : FailsOnly inv.Faulty outcome) (next : ∀ a, inv.Sound (f a)) :
    inv.Sound (outcome >>= f) := by
  cases outcome with
  | ok a => exact next a
  | error fault => exact .error (first fault rfl)

variable (inv) in
theorem ofCallee_faulty (callee : Expression) :
    FailsOnly inv.Faulty (ofExcept (Function.ofCallee callee)) := by
  rw [ofExcept_eq]
  cases callee with
  | reference name =>
      cases found : Function.ofName? name with
      | some function =>
          rw [Function.ofCallee, found]
          exact .ok function
      | none =>
          rw [Function.ofCallee, found]
          exact .error (inv.faulty_runtime rfl rfl)
  | _ => exact .error (inv.faulty_runtime rfl rfl)

variable (inv) in
theorem ofArgument_faulty (function : Function) (argument : Value) :
    FailsOnly inv.Faulty (ofExcept (Call.ofArgument function argument)) := by
  rw [ofExcept_eq, Call.ofArgument]
  split
  · exact .ok _
  · exact .error (inv.faulty_runtime rfl rfl)

theorem Sound.placed {outcome : Except Fault Value} (sound : inv.Sound outcome) :
    FailsOnly inv.Faulty (outcome >>= Value.placed) ∧
      ∀ text, outcome >>= Value.placed = .ok text → inv.Good text := by
  cases outcome with
  | error fault => exact ⟨.error (sound.faulty fault rfl), nofun⟩
  | ok value =>
      change FailsOnly inv.Faulty value.placed ∧ ∀ text, value.placed = .ok text → inv.Good text
      rcases value.placed_cases with placed | placed
      · rw [placed]
        exact ⟨.error (inv.faulty_runtime rfl rfl), nofun⟩
      · rw [placed]
        refine ⟨.ok _, fun text same => ?_⟩
        cases same
        exact sound.good value rfl

section Pattern

variable {outcome : Expression → Except Fault String} {parts : List Expression}

theorem good_piece {part : Expression} (known : inv.Known part)
    (placed : ∀ text, outcome part = .ok text → inv.Good text) :
    inv.Good (part.piece outcome) := by
  obtain ⟨text, literal, piece, -⟩ | ⟨text, -, shown, piece, -⟩ | ⟨fault, -, -, piece, -⟩ :=
    part.part_cases outcome
  · cases part with
    | literal own =>
        obtain rfl := Option.some.inj literal
        rw [piece]
        exact inv.good_literal known
    | _ => cases literal
  · rw [piece]
    exact inv.good_isolate (placed text shown)
  · rw [piece]
    exact inv.good_source known

theorem good_assembledText (known : ∀ part ∈ parts, inv.Known part)
    (placed : ∀ part ∈ parts, ∀ text, outcome part = .ok text → inv.Good text) :
    inv.Good (Expression.assembledText outcome parts) := by
  induction parts with
  | nil => exact inv.good_empty
  | cons part parts ih =>
      rw [Expression.assembledText, List.map_cons, String.join_cons]
      apply inv.good_append
      · apply good_piece
        · exact known part List.mem_cons_self
        · exact placed part List.mem_cons_self
      · apply ih
        · exact fun other member => known other (List.mem_cons_of_mem _ member)
        · exact fun other member => placed other (List.mem_cons_of_mem _ member)

theorem sound_finish (known : ∀ part ∈ parts, inv.Known part)
    (faulty : ∀ part ∈ parts, FailsOnly inv.Faulty (outcome part))
    (placed : ∀ part ∈ parts, ∀ text, outcome part = .ok text → inv.Good text) :
    inv.Sound (finish (Expression.assembled outcome parts)) := by
  have text := good_assembledText known placed
  have all : ∀ fault ∈ Expression.faults outcome parts, inv.Faulty fault := by
    intro fault failed
    obtain ⟨part, member, own⟩ := Expression.mem_faults outcome failed
    exact faulty part member fault own
  rw [Expression.finish_assembled]
  cases ending : (Expression.faults outcome parts).find? Fault.endsPattern with
  | some fault => exact .error (all fault (List.mem_of_find?_eq_some ending))
  | none =>
      cases first : (Expression.faults outcome parts).head? with
      | none => exact .ok text
      | some source =>
          have failed := List.mem_of_head? first
          have kept : source.endsPattern = false :=
            Bool.eq_false_iff.mpr (List.find?_eq_none.mp ending source failed)
          exact .error (inv.faulty_value text (all source failed) kept)

end Pattern

section Format

variable {answer : Answer (Except Fault)} {language : String}
  {selectors : List (Selector (Except Fault))}

/-- Selectors are known by their faults only: nothing is made of their keys but a choice. -/
def Selecting (inv : Invariant) (selectors : List (Selector (Except Fault))) : Prop :=
  ∀ selector ∈ selectors, ∀ keys, FailsOnly inv.Faulty (selector keys)

theorem Selecting.tail (selecting : inv.Selecting selectors) : inv.Selecting selectors.tail :=
  fun selector member => selecting selector (List.mem_of_mem_tail member)

theorem Selecting.selectedKey? (selecting : inv.Selecting selectors) (keys : List String) :
    FailsOnly inv.Faulty (selectedKey? selectors.head? keys) := by
  cases selectors with
  | nil => exact .ok none
  | cons selector rest =>
      have own := selecting selector List.mem_cons_self keys
      exact (own.indexed fun _ => inv.faulty_index).bind fun key => .ok _

mutual

/-- Every outcome of a known expression is sound if the answers to references are. -/
theorem sound_format (answers : ∀ name, inv.Sound (answer name))
    (selectors : List (Selector (Except Fault))) (selecting : inv.Selecting selectors) :
    (expression : Expression) → inv.Known expression →
    inv.Sound (expression.format answer language selectors)
  | .literal text, known => .ok (inv.good_literal known)
  | .reference name, _ => by
      rw [Expression.format]
      exact answers name
  | .pattern parts, known => by
      have parts_known := inv.known_part known
      have sound := sound_formatAll answers selectors selecting parts parts_known
      rw [Expression.format]
      split
      · exact .runtime rfl rfl
      · rw [Expression.formatParts_eq (fun _ => rfl)]
        apply sound_finish parts_known
        · exact fun part member => (sound part member).placed.1
        · exact fun part member => (sound part member).placed.2
  | .selection branches default?, known => by
      rw [Expression.format]
      refine .bind (selecting.selectedKey? _) fun key? => ?_
      dsimp only
      rw [formatBranch?_taken]
      cases taken : Expression.formatBranch? answer language selectors.tail
          (some (takenKey key? (defaultKey default?) (branches.map Prod.fst))) branches with
      | some evaluated =>
          exact sound_formatBranch? answers selectors.tail selecting.tail _ branches
            (inv.known_branch known) evaluated taken
      | none =>
          obtain ⟨key_absent, fallback_absent⟩ := keys_absent taken
          exact .error (inv.faulty_variant known key_absent fallback_absent)
  | .call callee arguments, known => by
      rw [Expression.format]
      have made := faulty_formatCall answers callee arguments (inv.known_argument known)
      exact .bind made fun call => .ok (inv.good_category _)

theorem sound_formatAll (answers : ∀ name, inv.Sound (answer name))
    (selectors : List (Selector (Except Fault))) (selecting : inv.Selecting selectors) :
    (parts : List Expression) → (∀ part ∈ parts, inv.Known part) →
    ∀ part ∈ parts, inv.Sound (part.format answer language selectors)
  | [], _ => nofun
  | first :: rest, known =>
      have both := List.forall_mem_cons.mp known
      List.forall_mem_cons.mpr
        ⟨sound_format answers selectors selecting first both.1,
          sound_formatAll answers selectors selecting rest both.2⟩

theorem sound_formatBranch? (answers : ∀ name, inv.Sound (answer name))
    (selectors : List (Selector (Except Fault))) (selecting : inv.Selecting selectors)
    (key? : Option String) :
    (branches : List (String × Expression)) → (∀ named ∈ branches, inv.Known named.2) →
    ∀ evaluated, Expression.formatBranch? answer language selectors key? branches = some evaluated →
      inv.Sound evaluated
  | [], _ => nofun
  | (key, branch) :: branches, known => by
      have both := List.forall_mem_cons.mp known
      intro evaluated taken
      rw [Expression.formatBranch?] at taken
      split at taken
      · cases taken
        exact sound_format answers selectors selecting branch both.1
      · exact sound_formatBranch? answers selectors selecting key? branches both.2 evaluated taken

theorem faulty_formatCall (answers : ∀ name, inv.Sound (answer name)) (callee : Expression) :
    (arguments : List Expression) → (∀ argument ∈ arguments, inv.Known argument) →
    FailsOnly inv.Faulty (Expression.formatCall answer language callee arguments)
  | [argument], known => by
      rw [Expression.formatCall]
      refine (inv.ofCallee_faulty callee).bind fun function => ?_
      have sound := sound_format answers [] nofun argument (known argument List.mem_cons_self)
      exact sound.faulty.bind fun value => inv.ofArgument_faulty function value
  | [], _ =>
      (inv.ofCallee_faulty callee).bind fun function => .error (inv.faulty_runtime rfl rfl)
  | _ :: _ :: _, _ =>
      (inv.ofCallee_faulty callee).bind fun function => .error (inv.faulty_runtime rfl rfl)

end

theorem faulty_selector (answers : ∀ name, inv.Sound (answer name)) (expression : Expression)
    (known : inv.Known expression) (keys : List String) :
    FailsOnly inv.Faulty (expression.selector answer language keys) := by
  cases expression with
  | call callee arguments =>
      have inner := inv.known_argument known
      exact (faulty_formatCall answers callee arguments inner).bind fun call => .ok _
  | _ => exact (sound_format answers [] nofun _ known).faulty.bind fun value => .ok _

end Format

/-- What is known of a phrase is known of the text or of all expressions in it. -/
def KnownPhrase (inv : Invariant) : Phrase → Prop
  | .bare text => inv.Good text
  | .complex value? index =>
      (∀ value ∈ value?, inv.Known value) ∧ ∀ selector ∈ index, inv.Known selector

structure Covers (inv : Invariant) (scope : Scope) : Prop where
  phrases : ∀ name phrase, scope.phrase? name = some phrase → inv.KnownPhrase phrase
  arguments : ∀ name value, scope.arguments.find? name = some value → inv.Good value.display

theorem Covers.sound_answer {scope : Scope} (covers : inv.Covers scope)
    {enter : String → Phrase → Except Fault Value}
    (entered : ∀ name phrase, scope.phrase? name = some phrase → inv.Sound (enter name phrase))
    (name : String) : inv.Sound (scope.answer enter name) := by
  unfold Scope.answer
  cases Function.ofName? name with
  | some function => exact .runtime rfl rfl
  | none =>
      cases given : scope.arguments.find? name with
      | some argument =>
          dsimp only
          split
          · exact .ok (covers.arguments name argument given)
          · exact .runtime rfl rfl
      | none =>
          cases known : scope.phrase? name with
          | some phrase => exact entered name phrase known
          | none => exact .runtime rfl rfl

theorem Covers.sound_outcome {scope : Scope} (covers : inv.Covers scope) (stack : CallStack)
    (id : String) (phrase : Phrase) (known : inv.KnownPhrase phrase) :
    inv.Sound (scope.outcome stack id phrase) := by
  induction stack using CallStack.opening_induction generalizing id phrase with
  | step stack ih =>
      match phrase with
      | .bare text =>
          rw [Scope.outcome_bare]
          exact .ok known
      | .complex none _ =>
          rw [Scope.outcome_valueless]
          exact .runtime rfl rfl
      | .complex (some value) index =>
          cases pushed : stack.push id with
          | error fault =>
              rw [scope.outcome_of_refused pushed]
              rcases CallStack.push_refused pushed with rfl | ⟨-, rfl⟩
              · exact .runtime rfl rfl
              · exact .runtime rfl rfl
          | ok entered =>
              have answers := covers.sound_answer fun name phrase found =>
                ih id entered pushed name phrase (covers.phrases name phrase found)
              rw [scope.outcome_of_pushed pushed]
              apply sound_format answers
              · intro selector member keys
                obtain ⟨expression, among, rfl⟩ := List.mem_map.mp member
                exact faulty_selector answers expression (known.2 expression among) keys
              · exact known.1 value rfl

end Invariant

end Phrasebook
