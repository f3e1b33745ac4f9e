import Phrasebook.Proofs.Decimal.Extent
import Phrasebook.Proofs.Evaluation.Layers

namespace Phrasebook

open Phrasebook.Decimal

def Unmarked (text : String) : Prop :=
  ∀ c ∈ text.toList, c ≠ '\u2068' ∧ c ≠ '\u2069'

instance (text : String) : Decidable (Unmarked text) :=
  show Decidable (∀ c ∈ text.toList, c ≠ '\u2068' ∧ c ≠ '\u2069') from
    List.decidableBAll _ text.toList

theorem unmarked_append {front rest : String} :
    Unmarked (front ++ rest) ↔ Unmarked front ∧ Unmarked rest := by
  rw [Unmarked, String.toList_append]
  exact List.forall_mem_append

theorem unmarked_of_ascii {text : String} (ascii : Ascii text.toList) : Unmarked text := by
  intro c member
  have below := ascii c member
  constructor
  · rintro rfl
    exact absurd below (by decide)
  · rintro rfl
    exact absurd below (by decide)

theorem unmarked_intercalate {texts : List String} (unmarked : ∀ text ∈ texts, Unmarked text) :
    Unmarked (String.intercalate ", " texts) := by
  induction texts with
  | nil => decide
  | cons text rest ih =>
      have both := List.forall_mem_cons.mp unmarked
      cases rest with
      | nil =>
          rw [String.intercalate_singleton]
          exact both.1
      | cons next rest =>
          rw [String.intercalate_cons_cons, unmarked_append, unmarked_append]
          exact ⟨⟨both.1, by decide⟩, ih both.2⟩

/-- Every isolate that is opened is closed, with nothing between but what is balanced itself. -/
inductive Balanced : List Char → Prop
  | nil : Balanced []
  | plain {c : Char} {rest : List Char} (unmarked : c ≠ '\u2068' ∧ c ≠ '\u2069')
      (after : Balanced rest) : Balanced (c :: rest)
  | isolate {inner rest : List Char} (within : Balanced inner) (after : Balanced rest) :
      Balanced ('\u2068' :: (inner ++ '\u2069' :: rest))

namespace Balanced

theorem append {front rest : List Char} (first : Balanced front) (second : Balanced rest) :
    Balanced (front ++ rest) := by
  induction first with
  | nil => exact second
  | plain unmarked _ ih => exact .plain unmarked ih
  | isolate within _ _ ih =>
      rw [List.cons_append, List.append_assoc, List.cons_append]
      exact .isolate within ih

theorem of_unmarked {text : String} (unmarked : Unmarked text) : Balanced text.toList := by
  unfold Unmarked at unmarked
  generalize text.toList = chars at unmarked ⊢
  induction chars with
  | nil => exact .nil
  | cons c rest ih =>
      have both := List.forall_mem_cons.mp unmarked
      exact .plain both.1 (ih both.2)

end Balanced

namespace Expression

mutual

def texts : Expression → List String
  | .literal text => [text]
  | .reference name => [name]
  | .pattern parts => textsOfAll parts
  | .selection branches _ => textsOfBranches branches
  | .call callee arguments => callee.texts ++ textsOfAll arguments

def textsOfAll : List Expression → List String
  | [] => []
  | expression :: rest => expression.texts ++ textsOfAll rest

def textsOfBranches : List (String × Expression) → List String
  | [] => []
  | (key, branch) :: branches => key :: (branch.texts ++ textsOfBranches branches)

end

def Unmarked (expression : Expression) : Prop :=
  ∀ text ∈ expression.texts, Phrasebook.Unmarked text

instance (expression : Expression) : Decidable expression.Unmarked :=
  inferInstanceAs (Decidable (∀ text ∈ expression.texts, Phrasebook.Unmarked text))

theorem unmarked_of_all {expressions : List Expression}
    (unmarked : ∀ text ∈ textsOfAll expressions, Phrasebook.Unmarked text) :
    ∀ expression ∈ expressions, expression.Unmarked := by
  induction expressions with
  | nil => nofun
  | cons first rest ih =>
      have both := List.forall_mem_append.mp unmarked
      exact List.forall_mem_cons.mpr ⟨both.1, ih both.2⟩

theorem unmarked_of_branches {branches : List (String × Expression)}
    (unmarked : ∀ text ∈ textsOfBranches branches, Phrasebook.Unmarked text) :
    ∀ named ∈ branches, Phrasebook.Unmarked named.1 ∧ named.2.Unmarked := by
  induction branches with
  | nil => nofun
  | cons first rest ih =>
      obtain ⟨key, others⟩ := List.forall_mem_cons.mp unmarked
      have both := List.forall_mem_append.mp others
      exact List.forall_mem_cons.mpr ⟨⟨key, both.1⟩, ih both.2⟩

theorem unmarked_placeableSource {part : Expression} (source : Phrasebook.Unmarked part.source) :
    Phrasebook.Unmarked part.placeableSource :=
  unmarked_append.mpr ⟨unmarked_append.mpr ⟨by decide, source⟩, by decide⟩

mutual

theorem unmarked_source : (expression : Expression) → expression.Unmarked →
    Phrasebook.Unmarked expression.source
  | .literal text, unmarked =>
      have own := unmarked text List.mem_cons_self
      unmarked_append.mpr ⟨unmarked_append.mpr ⟨by decide, own⟩, by decide⟩
  | .reference name, unmarked => unmarked name List.mem_cons_self
  | .pattern parts, unmarked => unmarked_sourceOfParts parts (unmarked_of_all unmarked)
  | .selection branches _, unmarked => by
      have keys : ∀ key ∈ branches.map Prod.fst, Phrasebook.Unmarked key := by
        intro key member
        obtain ⟨named, among, rfl⟩ := List.mem_map.mp member
        exact (unmarked_of_branches unmarked named among).1
      rw [source, unmarked_append, unmarked_append]
      exact ⟨⟨by decide, unmarked_intercalate keys⟩, by decide⟩
  | .call callee arguments, unmarked => by
      have both := List.forall_mem_append.mp unmarked
      have inner := unmarked_sources arguments (unmarked_of_all both.2)
      rw [source, unmarked_append, unmarked_append, unmarked_append]
      exact ⟨⟨⟨unmarked_source callee both.1, by decide⟩, unmarked_intercalate inner⟩, by decide⟩

theorem unmarked_sourceOfParts : (parts : List Expression) → (∀ part ∈ parts, part.Unmarked) →
    Phrasebook.Unmarked (sourceOfParts parts)
  | [], _ => by decide
  | part :: parts, unmarked => by
      have both := List.forall_mem_cons.mp unmarked
      have own := unmarked_source part both.1
      have rest := unmarked_sourceOfParts parts both.2
      cases part with
      | literal text => exact unmarked_append.mpr ⟨both.1 text List.mem_cons_self, rest⟩
      | _ => exact unmarked_append.mpr ⟨unmarked_placeableSource own, rest⟩

theorem unmarked_sources : (expressions : List Expression) →
    (∀ expression ∈ expressions, expression.Unmarked) →
    ∀ text ∈ sources expressions, Phrasebook.Unmarked text
  | [], _ => nofun
  | first :: rest, unmarked =>
      have both := List.forall_mem_cons.mp unmarked
      List.forall_mem_cons.mpr ⟨unmarked_source first both.1, unmarked_sources rest both.2⟩

end

end Expression

def Phrase.Unmarked : Phrase → Prop
  | .bare text => Phrasebook.Unmarked text
  | .complex value? index =>
      (∀ value ∈ value?, value.Unmarked) ∧ ∀ selector ∈ index, selector.Unmarked

instance : (phrase : Phrase) → Decidable phrase.Unmarked
  | .bare text => inferInstanceAs (Decidable (Phrasebook.Unmarked text))
  | .complex value? index => inferInstanceAs (Decidable
      ((∀ value ∈ value?, value.Unmarked) ∧ ∀ selector ∈ index, selector.Unmarked))

/-- All the texts that a fault keeps are good. -/
def Fault.Salvages (Good : String → Prop) (fault : Fault) : Prop :=
  ∀ text source, .value text source ∈ fault.layers → Good text

namespace Fault.Salvages

variable {Good : String → Prop} {fault : Fault}

theorem runtime (kind : fault.kind = .runtime) : fault.Salvages Good := by
  intro text source within
  rw [layers_runtime kind, List.mem_singleton] at within
  subst within
  cases kind

theorem value {text : String} (good : Good text) (inner : fault.Salvages Good) :
    (Fault.value text fault).Salvages Good := by
  intro other source within
  rcases List.mem_cons.mp within with same | within
  · cases same
    exact good
  · exact inner other source within

theorem index (inner : fault.Salvages Good) : (Fault.index fault).Salvages Good := by
  intro text source within
  rcases List.mem_cons.mp within with same | within
  · cases same
  · exact inner text source within

theorem asIndex (salvages : fault.Salvages Good) : fault.asIndex.Salvages Good := by
  cases fault with
  | index source => exact salvages
  | _ => exact salvages.index

end Fault.Salvages

/-- Unmarked phrases make balanced texts. -/
def Invariant.balanced : Invariant where
  Known := Expression.Unmarked
  Good text := Balanced text.toList
  Faulty := Fault.Salvages fun text => Balanced text.toList
  known_part := Expression.unmarked_of_all
  known_branch known named among := (Expression.unmarked_of_branches known named among).2
  known_argument known := Expression.unmarked_of_all (List.forall_mem_append.mp known).2
  good_literal known := .of_unmarked (known _ List.mem_cons_self)
  good_category category := .of_unmarked (by cases category <;> decide)
  good_empty := .nil
  good_append front rest := by
    rw [String.toList_append]
    exact front.append rest
  good_isolate within := by
    rw [isolate, String.toList_append, String.toList_append]
    exact .isolate within .nil
  good_source known :=
    .of_unmarked (Expression.unmarked_placeableSource (Expression.unmarked_source _ known))
  faulty_runtime kind _ := .runtime kind
  faulty_variant _ _ _ := (Fault.Salvages.runtime rfl).index
  faulty_value good inner _ := .value good inner
  faulty_index := Fault.Salvages.asIndex

theorem Invariant.balanced_knows {phrase : Phrase} (unmarked : phrase.Unmarked) :
    Invariant.balanced.KnownPhrase phrase := by
  cases phrase with
  | bare text => exact .of_unmarked unmarked
  | complex value? index => exact unmarked

/-- Where nothing that is evaluated has an isolate of its own, isolates are balanced in every value,
and in every text that is left of one that failed. -/
theorem isolates_balanced (scope : Scope) (stack : CallStack) (id : String) (phrase : Phrase)
    (own : phrase.Unmarked)
    (others : ∀ name other, scope.phrase? name = some other → other.Unmarked)
    (given : ∀ name text, scope.arguments.find? name = some (.text text) → Unmarked text) :
    (∀ value, (scope.format stack id phrase).1 = .ok value → Balanced value.display.toList) ∧
    ∀ fault, (scope.format stack id phrase).1 = .error fault →
      ∀ text source, .value text source ∈ fault.layers → Balanced text.toList := by
  have covers : Invariant.balanced.Covers scope := by
    refine ⟨fun name other found => Invariant.balanced_knows (others name other found), ?_⟩
    intro name value found
    apply Balanced.of_unmarked
    cases kind : value.isText with
    | false => exact unmarked_of_ascii (value.ascii_display kind)
    | true =>
        cases value with
        | text text => exact given name text found
        | _ => cases kind
  have sound := covers.sound_outcome stack id phrase (Invariant.balanced_knows own)
  exact ⟨sound.good, sound.faulty⟩

theorem isolates_balanced_invitation :
    let guest := Phrase.complex
      (some (.pattern [.reference "title", .literal " ", .reference "name"])) []
    let scope := Scope.ofEntries [("guest", { phrase := guest })] [("name", .text "Ann")] "en"
    let phrase := Phrase.complex (some (.pattern [.literal "Dear ", .reference "guest"])) []
    let left := "\x7b\x7b title \x7d\x7d " ++ isolate "Ann"
    let source := Fault.value left (.unknownReference "title")
    guest.Unmarked ∧ phrase.Unmarked ∧
      (scope.format (.empty 2) "invitation" phrase).1 =
        .error (.value "Dear \x7b\x7b guest \x7d\x7d" source) ∧
      Balanced left.toList := by
  intro guest scope phrase left source
  have failed : (scope.format (.empty 2) "invitation" phrase).1 =
      .error (.value "Dear \x7b\x7b guest \x7d\x7d" source) := rfl
  have unmarked : guest.Unmarked ∧ phrase.Unmarked := by decide
  have others : ∀ name other, scope.phrase? name = some other → other.Unmarked := by
    intro name other found
    obtain ⟨entry, known, rfl⟩ := Option.map_eq_some_iff.mp found
    cases List.mem_singleton.mp (Table.mem_of_find? known)
    exact unmarked.1
  have given : ∀ name text, scope.arguments.find? name = some (.text text) → Unmarked text := by
    intro name text found
    cases List.mem_singleton.mp (Table.mem_of_find? found)
    decide
  have balanced :=
    (isolates_balanced scope (.empty 2) "invitation" phrase unmarked.2 others given).2 _ failed
  exact ⟨unmarked.1, unmarked.2, failed,
    balanced left _ (List.mem_cons_of_mem _ List.mem_cons_self)⟩

end Phrasebook
