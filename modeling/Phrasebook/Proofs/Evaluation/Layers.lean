import Phrasebook.Proofs.Evaluation.Invariant

namespace Phrasebook

/-- What a selection can choose from: the keys of its branches, and that of the default branch. -/
structure Fork where
  keys : List String
  fallback : String

namespace Expression

mutual

/-- All selections in an expression, in whatever part of it. -/
def forks : Expression → List Fork
  | .literal _ => []
  | .reference _ => []
  | .pattern parts => forksOfAll parts
  | .selection branches default? =>
      ⟨branches.map Prod.fst, defaultKey default?⟩ :: forksOfBranches branches
  | .call callee arguments => callee.forks ++ forksOfAll arguments

def forksOfAll : List Expression → List Fork
  | [] => []
  | expression :: rest => expression.forks ++ forksOfAll rest

def forksOfBranches : List (String × Expression) → List Fork
  | [] => []
  | (_, branch) :: branches => branch.forks ++ forksOfBranches branches

end

end Expression

def Phrase.forks : Phrase → List Fork
  | .bare _ => []
  | .complex value? index =>
      (value?.map Expression.forks).getD [] ++ index.flatMap Expression.forks

/-- The selections in a phrase and in those that references can be answered by. -/
def Scope.HasFork (scope : Scope) (phrase : Phrase) (fork : Fork) : Prop :=
  fork ∈ phrase.forks ∨ ∃ name other, scope.phrase? name = some other ∧ fork ∈ other.forks

namespace Fault

/-- A fault and those within it, outermost first. -/
def layers : Fault → List Fault
  | .value text source => .value text source :: source.layers
  | .index source => .index source :: source.layers
  | fault => [fault]

/-- Faults as they are put around one another. -/
inductive Layered (Known : Fork → Prop) : Fault → Prop
  | runtime {fault : Fault} (kind : fault.kind = .runtime)
      (other : fault.isMissingVariant = false) : Layered Known fault
  | missingVariant {key : String} {fork : Fork} {suggestions : List String} (known : Known fork)
      (key_absent : key ∉ fork.keys) (fallback_absent : fork.fallback ∉ fork.keys) :
      Layered Known (.index (.missingVariant key fork.keys suggestions))
  | index {source : Fault} (kind : source.kind ≠ .index) (inner : Layered Known source) :
      Layered Known (.index source)
  | value {text : String} {source : Fault} (kept : source.endsPattern = false)
      (inner : Layered Known source) : Layered Known (.value text source)

variable {Known : Fork → Prop} {fault : Fault}

theorem layers_runtime (kind : fault.kind = .runtime) : fault.layers = [fault] := by
  cases fault with
  | value _ _ => cases kind
  | index _ => cases kind
  | _ => rfl

namespace Layered

theorem asIndex (layered : fault.Layered Known) : fault.asIndex.Layered Known := by
  cases layered with
  | @runtime fault kind other =>
      have wrapped : fault.asIndex = .index fault := by
        cases fault with
        | index _ => cases kind
        | _ => rfl
      rw [wrapped]
      exact .index (by rw [kind]; nofun) (.runtime kind other)
  | missingVariant known key_absent fallback_absent =>
      exact .missingVariant known key_absent fallback_absent
  | index kind inner => exact .index kind inner
  | value kept inner => exact .index nofun (.value kept inner)

theorem not_missingVariant (layered : fault.Layered Known) : fault.isMissingVariant = false := by
  cases layered with
  | runtime _ other => exact other
  | missingVariant _ _ _ => rfl
  | index _ _ => rfl
  | value _ _ => rfl

/-- Every layer is put together in the same way, but for a missing variant, which is so together
with the index fault around it. -/
theorem layer (layered : fault.Layered Known) {inner : Fault} (within : inner ∈ fault.layers) :
    inner.Layered Known ∨
      inner.isMissingVariant = true ∧ .index inner ∈ fault.layers ∧
        (Fault.index inner).Layered Known := by
  induction layered with
  | runtime kind other =>
      rw [layers_runtime kind, List.mem_singleton] at within
      subst within
      exact .inl (.runtime kind other)
  | @missingVariant key fork suggestions known key_absent fallback_absent =>
      have whole : (Fault.index (.missingVariant key fork.keys suggestions)).Layered Known :=
        .missingVariant known key_absent fallback_absent
      rcases List.mem_cons.mp within with rfl | within
      · exact .inl whole
      · obtain rfl := List.mem_singleton.mp within
        exact .inr ⟨rfl, List.mem_cons_self, whole⟩
  | index kind source ih =>
      rcases List.mem_cons.mp within with rfl | within
      · exact .inl (.index kind source)
      · exact (ih within).imp_right fun ⟨missing, around, whole⟩ =>
          ⟨missing, List.mem_cons_of_mem _ around, whole⟩
  | value kept source ih =>
      rcases List.mem_cons.mp within with rfl | within
      · exact .inl (.value kept source)
      · exact (ih within).imp_right fun ⟨missing, around, whole⟩ =>
          ⟨missing, List.mem_cons_of_mem _ around, whole⟩

theorem index_source {source : Fault} (layered : (Fault.index source).Layered Known) :
    source.kind ≠ .index := by
  cases layered with
  | runtime kind _ => cases kind
  | missingVariant _ _ _ => exact nofun
  | index kind _ => exact kind

theorem value_source {text : String} {source : Fault}
    (layered : (Fault.value text source).Layered Known) :
    source.endsPattern = false ∧ source.isMissingVariant = false := by
  cases layered with
  | runtime kind _ => cases kind
  | value kept inner => exact ⟨kept, inner.not_missingVariant⟩

theorem missingVariant_fork {key : String} {keys suggestions : List String}
    (layered : (Fault.index (.missingVariant key keys suggestions)).Layered Known) :
    ∃ fork, Known fork ∧ fork.keys = keys ∧ key ∉ keys ∧ fork.fallback ∉ keys := by
  cases layered with
  | runtime kind _ => cases kind
  | @missingVariant _ fork _ known key_absent fallback_absent =>
      exact ⟨fork, known, rfl, key_absent, fallback_absent⟩
  | index _ inner => cases inner.not_missingVariant

end Layered

end Fault

section Forks

variable {Known : Fork → Prop}

namespace Expression

theorem forks_of_part {parts : List Expression} (known : ∀ fork ∈ forksOfAll parts, Known fork) :
    ∀ part ∈ parts, ∀ fork ∈ part.forks, Known fork := by
  induction parts with
  | nil => nofun
  | cons first rest ih =>
      have both := List.forall_mem_append.mp known
      exact List.forall_mem_cons.mpr ⟨both.1, ih both.2⟩

theorem forks_of_branch {branches : List (String × Expression)}
    (known : ∀ fork ∈ forksOfBranches branches, Known fork) :
    ∀ named ∈ branches, ∀ fork ∈ named.2.forks, Known fork := by
  induction branches with
  | nil => nofun
  | cons first rest ih =>
      have both := List.forall_mem_append.mp known
      exact List.forall_mem_cons.mpr ⟨both.1, ih both.2⟩

end Expression

/-- Nothing is told of texts, but all faults are layered. -/
def Invariant.layered (Known : Fork → Prop) : Invariant where
  Known expression := ∀ fork ∈ expression.forks, Known fork
  Good _ := True
  Faulty := Fault.Layered Known
  known_part := Expression.forks_of_part
  known_branch known := Expression.forks_of_branch (List.forall_mem_cons.mp known).2
  known_argument known := Expression.forks_of_part (List.forall_mem_append.mp known).2
  good_literal _ := trivial
  good_category _ := trivial
  good_empty := trivial
  good_append _ _ := trivial
  good_isolate _ := trivial
  good_source _ := trivial
  faulty_runtime := .runtime
  faulty_variant known key_absent fallback_absent :=
    .missingVariant (List.forall_mem_cons.mp known).1 key_absent fallback_absent
  faulty_value _ layered kept := .value kept layered
  faulty_index := Fault.Layered.asIndex

theorem Invariant.layered_knows {phrase : Phrase} (own : ∀ fork ∈ phrase.forks, Known fork) :
    (Invariant.layered Known).KnownPhrase phrase := by
  cases phrase with
  | bare text => trivial
  | complex value? index =>
      obtain ⟨ofValue, ofIndex⟩ := List.forall_mem_append.mp own
      refine ⟨?_, fun selector among fork within => ?_⟩
      · rintro value ⟨⟩
        exact ofValue
      · exact ofIndex fork (List.mem_flatMap.mpr ⟨selector, among, within⟩)

theorem Scope.outcome_layered (scope : Scope)
    (others : ∀ name phrase, scope.phrase? name = some phrase → ∀ fork ∈ phrase.forks, Known fork)
    (stack : CallStack) (id : String) (phrase : Phrase)
    (own : ∀ fork ∈ phrase.forks, Known fork) :
    FailsOnly (Fault.Layered Known) (scope.outcome stack id phrase) := by
  have covers : (Invariant.layered Known).Covers scope := by
    refine ⟨fun name other found => ?_, fun _ _ _ => trivial⟩
    exact Invariant.layered_knows (others name other found)
  exact (covers.sound_outcome stack id phrase (Invariant.layered_knows own)).faulty

end Forks

/-- A fault is put together from one layer to the next: an index fault is never around another, and
a value fault never around one that ends the pattern. A missing variant stands right in an index
fault and nowhere else. It has the keys of some selection, and neither the key that is reported nor
that of the default branch is among them. -/
theorem fault_layered (scope : Scope) (stack : CallStack) (id : String) (phrase : Phrase)
    {fault : Fault} (failed : (scope.format stack id phrase).1 = .error fault) :
    (∀ source, .index source ∈ fault.layers → source.kind ≠ .index) ∧
    (∀ text source, .value text source ∈ fault.layers →
      source.endsPattern = false ∧ source.isMissingVariant = false) ∧
    ∀ key keys suggestions, .missingVariant key keys suggestions ∈ fault.layers →
      .index (.missingVariant key keys suggestions) ∈ fault.layers ∧
        ∃ fork, scope.HasFork phrase fork ∧ fork.keys = keys ∧ key ∉ keys ∧
          fork.fallback ∉ keys := by
  have layered : fault.Layered (scope.HasFork phrase) := by
    refine scope.outcome_layered ?_ stack id phrase (fun fork own => .inl own) fault failed
    exact fun name other found fork within => .inr ⟨name, other, found, within⟩
  refine ⟨fun source within => ?_, fun text source within => ?_, ?_⟩
  · rcases layered.layer within with whole | ⟨missing, -, -⟩
    · exact whole.index_source
    · cases missing
  · rcases layered.layer within with whole | ⟨missing, -, -⟩
    · exact whole.value_source
    · cases missing
  · intro key keys suggestions within
    rcases layered.layer within with alone | ⟨-, around, whole⟩
    · cases alone.not_missingVariant
    · exact ⟨around, whole.missingVariant_fork⟩

theorem fault_layered_invitation :
    let guest : Entry :=
      { phrase := .complex
          (some (.selection [("lady", .literal "Lady"), ("lord", .literal "Lord")] none))
          [.reference "title"] }
    let scope := Scope.ofEntries [("guest", guest)] [("title", .text "sir")] "en"
    let phrase := Phrase.complex (some (.pattern [.literal "Dear ", .reference "guest"])) []
    let keys := ["lady", "lord"]
    let missing := Fault.index (.missingVariant "sir" keys (suggestions "sir" keys))
    (scope.format (.empty 2) "invitation" phrase).1 =
        .error (.value "Dear \x7b\x7b guest \x7d\x7d" missing) ∧
      missing.endsPattern = false ∧
      ∃ fork, scope.HasFork phrase fork ∧ fork.keys = keys ∧ "sir" ∉ keys ∧
        fork.fallback ∉ keys := by
  intro guest scope phrase keys missing
  have failed : (scope.format (.empty 2) "invitation" phrase).1 =
      .error (.value "Dear \x7b\x7b guest \x7d\x7d" missing) := rfl
  obtain ⟨-, value, missingVariant⟩ := fault_layered scope (.empty 2) "invitation" phrase failed
  have within : .missingVariant "sir" keys (suggestions "sir" keys) ∈
      (Fault.value "Dear \x7b\x7b guest \x7d\x7d" missing).layers :=
    List.mem_cons_of_mem _ (List.mem_cons_of_mem _ List.mem_cons_self)
  exact ⟨failed, (value _ missing List.mem_cons_self).1, (missingVariant _ _ _ within).2⟩

end Phrasebook
