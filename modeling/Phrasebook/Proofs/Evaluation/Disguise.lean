import Phrasebook.Entry.Pseudo
import Phrasebook.Proofs.Evaluation.Trail

namespace Phrasebook

namespace Expression

mutual

@[simp] theorem mapLiterals_id : (expression : Expression) → expression.mapLiterals id = expression
  | .literal _ => rfl
  | .reference _ => rfl
  | .pattern parts => by rw [mapLiterals, mapParts_id parts]
  | .selection branches default? => by rw [mapLiterals, mapBranches_id branches]
  | .call _ _ => rfl

theorem mapParts_id : (parts : List Expression) → mapParts id parts = parts
  | [] => rfl
  | part :: parts => by rw [mapParts, mapLiterals_id part, mapParts_id parts]

theorem mapBranches_id :
    (branches : List (String × Expression)) → mapBranches id branches = branches
  | [] => rfl
  | (key, branch) :: branches => by
      rw [mapBranches, mapLiterals_id branch, mapBranches_id branches]

end

variable (change : String → String)

theorem placeableCount_mapParts (parts : List Expression) :
    placeableCount (mapParts change parts) = placeableCount parts := by
  induction parts with
  | nil => rfl
  | cons part parts ih =>
      have kind : (part.mapLiterals change).literal?.isNone = part.literal?.isNone := by
        cases part <;> rfl
      simp only [mapParts, placeableCount, List.countP_cons, kind]
      exact congrArg (· + _) ih

theorem keys_mapBranches (branches : List (String × Expression)) :
    (mapBranches change branches).map Prod.fst = branches.map Prod.fst := by
  induction branches with
  | nil => rfl
  | cons entry branches ih => rw [mapBranches, List.map_cons, List.map_cons, ih]

end Expression

namespace Trail

mutual

/-- A trail with other texts: the literals of the entry itself are changed in a way of their own.
Selectors and calls are left as they are written, but not the entries they refer to. -/
def mapTexts (change : String → String) : (own : String → String) → Trail → Trail
  | own, .literal text => .literal (own text)
  | _, .argument value => .argument value
  | _, .entry name trail => .entry name (trail.mapTexts change change)
  | own, .pattern parts => .pattern (mapPartTexts change own parts)
  | own, .choice none key taken => .choice none key (taken.mapTexts change own)
  | own, .choice (some selector) key taken =>
      .choice (some (selector.mapTexts change id)) key (taken.mapTexts change own)
  | _, .call inner word => .call (inner.mapTexts change id) word

def mapPartTexts (change : String → String) : (own : String → String) → List Trail → List Trail
  | _, [] => []
  | own, part :: parts => part.mapTexts change own :: mapPartTexts change own parts

end

mutual

/-- The trails of all that was evaluated, in the order in which it was begun. -/
def steps : Trail → List Trail
  | .literal text => [.literal text]
  | .argument value => [.argument value]
  | .entry name trail => .entry name trail :: trail.steps
  | .pattern parts => .pattern parts :: stepsOfAll parts
  | .choice none key taken => .choice none key taken :: taken.steps
  | .choice (some selector) key taken =>
      .choice (some selector) key taken :: (selector.steps ++ taken.steps)
  | .call inner word => .call inner word :: inner.steps

def stepsOfAll : List Trail → List Trail
  | [] => []
  | part :: parts => part.steps ++ stepsOfAll parts

end

def key? : Trail → Option String
  | .choice _ key _ => some key
  | _ => none

def keys (trail : Trail) : List String :=
  trail.steps.filterMap key?

def keysOfAll (trails : List Trail) : List String :=
  (stepsOfAll trails).filterMap key?

/-- Whether a selector still comes to its key, or a call to its number, with other texts in the
entries that they refer to. -/
def Steady (change : String → String) : Trail → Prop
  | .choice (some selector) _ _ =>
      (selector.mapTexts change id).value.display = selector.value.display
  | .call inner _ => (inner.mapTexts change id).value.toNumber? = inner.value.toNumber?
  | _ => True

def PartsFit : Trail → Prop
  | .pattern parts => ∀ part ∈ parts, part.fits = true
  | _ => True

instance : DecidablePred PartsFit
  | .pattern parts => inferInstanceAs (Decidable (∀ part ∈ parts, part.fits = true))
  | .literal _ | .argument _ | .entry _ _ | .choice _ _ _ | .call _ _ => .isTrue trivial

/-- With other texts all selectors and calls are steady and all placeables fit. -/
structure Bears (change own : String → String) (trail : Trail) : Prop where
  steady : ∀ step ∈ trail.steps, step.Steady change
  fit : ∀ step ∈ (trail.mapTexts change own).steps, step.PartsFit

variable {change own : String → String}

theorem mapPartTexts_eq (parts : List Trail) :
    mapPartTexts change own parts = parts.map (mapTexts change own) := by
  induction parts with
  | nil => rfl
  | cons part parts ih => rw [mapPartTexts, ih, List.map_cons]

theorem stepsOfAll_eq (parts : List Trail) : stepsOfAll parts = parts.flatMap steps := by
  induction parts with
  | nil => rfl
  | cons part parts ih => rw [stepsOfAll, ih, List.flatMap_cons]

theorem mem_steps_self (trail : Trail) : trail ∈ trail.steps := by
  match trail with
  | .literal _ | .argument _ | .entry _ _ | .pattern _ | .choice none _ _
  | .choice (some _) _ _ | .call _ _ => simp [steps]

def isEntry : Trail → Bool
  | .entry _ _ => true
  | _ => false

def Unreferenced (trail : Trail) : Prop :=
  ∀ step ∈ trail.steps, step.isEntry = false

/-- Whether a selector or a call is evaluated without any entry. -/
def ChoosesByArguments : Trail → Prop
  | .choice (some selector) _ _ => selector.Unreferenced
  | .call inner _ => inner.Unreferenced
  | _ => True

mutual

theorem mapTexts_of_unreferenced :
    (trail : Trail) → trail.Unreferenced → trail.mapTexts change id = trail
  | .literal _, _ => rfl
  | .argument _, _ => rfl
  | .entry _ _, unreferenced => nomatch unreferenced _ List.mem_cons_self
  | .pattern parts, unreferenced => by
      rw [mapTexts, mapPartTexts_of_unreferenced parts fun step begun =>
        unreferenced step (List.mem_cons_of_mem _ begun)]
  | .choice none key taken, unreferenced => by
      rw [mapTexts, mapTexts_of_unreferenced taken fun step begun =>
        unreferenced step (List.mem_cons_of_mem _ begun)]
  | .choice (some selector) key taken, unreferenced => by
      rw [mapTexts,
        mapTexts_of_unreferenced selector fun step begun =>
          unreferenced step (List.mem_cons_of_mem _ (List.mem_append_left _ begun)),
        mapTexts_of_unreferenced taken fun step begun =>
          unreferenced step (List.mem_cons_of_mem _ (List.mem_append_right _ begun))]
  | .call inner word, unreferenced => by
      rw [mapTexts, mapTexts_of_unreferenced inner fun step begun =>
        unreferenced step (List.mem_cons_of_mem _ begun)]

theorem mapPartTexts_of_unreferenced :
    (parts : List Trail) → (∀ step ∈ stepsOfAll parts, step.isEntry = false) →
      mapPartTexts change id parts = parts
  | [], _ => rfl
  | part :: parts, unreferenced => by
      rw [mapPartTexts,
        mapTexts_of_unreferenced part fun step begun =>
          unreferenced step (List.mem_append_left _ begun),
        mapPartTexts_of_unreferenced parts fun step begun =>
          unreferenced step (List.mem_append_right _ begun)]

end

/-- Texts do not matter to selectors and calls that no entry is evaluated for. -/
theorem steady_of_choicesByArguments {trail : Trail}
    (free : ∀ step ∈ trail.steps, step.ChoosesByArguments) :
    ∀ step ∈ trail.steps, step.Steady change := by
  intro step begun
  have own := free step begun
  match step with
  | .choice (some selector) _ _ => rw [Steady, mapTexts_of_unreferenced selector own]
  | .call inner _ => rw [Steady, mapTexts_of_unreferenced inner own]
  | .literal _ | .argument _ | .entry _ _ | .pattern _ | .choice none _ _ => exact trivial

mutual

theorem keys_mapTexts (own : String → String) :
    (trail : Trail) → (trail.mapTexts change own).keys = trail.keys
  | .literal _ => rfl
  | .argument _ => rfl
  | .entry _ trail => keys_mapTexts change trail
  | .pattern parts => keysOfAll_mapTexts own parts
  | .choice none key taken => congrArg (key :: ·) (keys_mapTexts own taken)
  | .choice (some selector) key taken => by
      have asked := keys_mapTexts id selector
      have followed := keys_mapTexts own taken
      simp only [keys] at asked followed
      simp only [keys, mapTexts, steps, List.filterMap_cons, key?, List.filterMap_append, asked,
        followed]
  | .call inner _ => keys_mapTexts id inner

theorem keysOfAll_mapTexts (own : String → String) :
    (parts : List Trail) → keysOfAll (mapPartTexts change own parts) = keysOfAll parts
  | [] => rfl
  | part :: parts => by
      have first := keys_mapTexts own part
      have later := keysOfAll_mapTexts own parts
      simp only [keys, keysOfAll] at first later
      simp only [keysOfAll, mapPartTexts, stepsOfAll, List.filterMap_append, first, later]

end

theorem asNumber?_mapTexts (own : String → String) :
    (trail : Trail) → (trail.mapTexts change own).value.asNumber? = trail.value.asNumber?
  | .literal _ => rfl
  | .argument _ => rfl
  | .entry _ trail => asNumber?_mapTexts change trail
  | .pattern _ => rfl
  | .choice none _ taken => asNumber?_mapTexts own taken
  | .choice (some _) _ taken => asNumber?_mapTexts own taken
  | .call _ _ => rfl

namespace Bears

theorem entry {name : String} {trail : Trail} (bears : (Trail.entry name trail).Bears change own) :
    trail.Bears change change where
  steady step member := bears.steady step (List.mem_cons_of_mem _ member)
  fit step member := bears.fit step (List.mem_cons_of_mem _ member)

theorem part {parts : List Trail} (bears : (Trail.pattern parts).Bears change own) {part : Trail}
    (member : part ∈ parts) : part.Bears change own where
  steady step begun := by
    refine bears.steady step (List.mem_cons_of_mem _ ?_)
    rw [stepsOfAll_eq]
    exact List.mem_flatMap.mpr ⟨part, member, begun⟩
  fit step begun := by
    refine bears.fit step (List.mem_cons_of_mem _ ?_)
    rw [stepsOfAll_eq, mapPartTexts_eq]
    exact List.mem_flatMap.mpr ⟨_, List.mem_map_of_mem member, begun⟩

theorem part_fits {parts : List Trail} (bears : (Trail.pattern parts).Bears change own)
    {part : Trail} (member : part ∈ parts) : (part.mapTexts change own).fits = true := by
  have whole := bears.fit _ (mem_steps_self _)
  rw [mapTexts, PartsFit, mapPartTexts_eq] at whole
  exact whole _ (List.mem_map_of_mem member)

theorem taken {selector? : Option Trail} {key : String} {taken : Trail}
    (bears : (Trail.choice selector? key taken).Bears change own) : taken.Bears change own := by
  cases selector? with
  | none =>
      exact ⟨fun step begun => bears.steady step (List.mem_cons_of_mem _ begun),
        fun step begun => bears.fit step (List.mem_cons_of_mem _ begun)⟩
  | some selector =>
      exact ⟨fun step begun =>
          bears.steady step (List.mem_cons_of_mem _ (List.mem_append_right _ begun)),
        fun step begun =>
          bears.fit step (List.mem_cons_of_mem _ (List.mem_append_right _ begun))⟩

theorem selector {selector : Trail} {key : String} {taken : Trail}
    (bears : (Trail.choice (some selector) key taken).Bears change own) :
    selector.Bears change id where
  steady step begun :=
    bears.steady step (List.mem_cons_of_mem _ (List.mem_append_left _ begun))
  fit step begun := bears.fit step (List.mem_cons_of_mem _ (List.mem_append_left _ begun))

theorem inner {inner : Trail} {word : String} (bears : (Trail.call inner word).Bears change own) :
    inner.Bears change id where
  steady step begun := bears.steady step (List.mem_cons_of_mem _ begun)
  fit step begun := bears.fit step (List.mem_cons_of_mem _ begun)

end Bears

end Trail

theorem Call.ofArgument_congr (function : Function) {value other : Value}
    (read : other.toNumber? = value.toNumber?) (exact : other.asNumber? = value.asNumber?)
    {made : Call} (call : (Call.ofArgument function value).toOption = some made) :
    (Call.ofArgument function other).toOption = some made := by
  unfold Call.ofArgument at call ⊢
  rw [read, exact]
  cases number : value.toNumber? with
  | none =>
      rw [number] at call
      cases call
  | some x =>
      rw [number] at call
      exact call

/-- With other texts in the entries, references have the same trails but for these texts. -/
def Trail.Followed (change : String → String) (trails others : String → Option Trail) : Prop :=
  ∀ name trail own, trails name = some trail → trail.Bears change own →
    others name = some (trail.mapTexts change own)

def TrailSelector.Followed (change : String → String) (trails others : TrailSelector) : Prop :=
  ∀ keys trail, trails keys = some trail → trail.Bears change id →
    others keys = some (trail.mapTexts change id)

namespace Expression

variable {change : String → String} {trails others : String → Option Trail} {language : String}

mutual

/-- An expression with other texts has the same trail but for its texts. -/
theorem trail?_mapTexts (followed : Trail.Followed change trails others)
    {selectors selectors' : List TrailSelector}
    (selected : List.Forall₂ (TrailSelector.Followed change) selectors selectors')
    (own : String → String) :
    (expression : Expression) → (trail : Trail) →
      expression.trail? trails language selectors = some trail → trail.Bears change own →
      (expression.mapLiterals own).trail? others language selectors' =
        some (trail.mapTexts change own)
  | .literal text, trail, left, bears => by
      obtain rfl := Option.some.inj left
      rfl
  | .reference name, trail, left, bears => followed name trail own left bears
  | .pattern parts, trail, left, bears => by
      simp only [trail?] at left
      split at left
      · cases left
      · rename_i few
        obtain ⟨parts', each, rfl⟩ := Option.map_eq_some_iff.mp left
        rw [mapLiterals, trail?, placeableCount_mapParts, if_neg few,
          partTrails?_mapTexts followed selected own parts parts' each
            (fun part member => bears.part member) (fun part member => bears.part_fits member)]
        rfl
  | .selection branches default?, trail, left, bears => by
      simp only [trail?, Option.bind_eq_bind, Option.bind_eq_some_iff, Option.some.injEq] at left
      obtain ⟨selector?, asked, taken, branch, rfl⟩ := left
      have tails : List.Forall₂ (TrailSelector.Followed change) selectors.tail selectors'.tail := by
        cases selected with
        | nil => exact .nil
        | cons _ later => exact later
      have later := branchTrail?_mapTexts followed tails own _ branches taken branch bears.taken
      simp only [mapLiterals, trail?, Option.bind_eq_bind, keys_mapBranches]
      cases selected with
      | nil =>
          obtain rfl := Option.some.inj asked
          exact Option.bind_eq_some_iff.mpr
            ⟨none, rfl, Option.bind_eq_some_iff.mpr ⟨_, later, rfl⟩⟩
      | @cons selector selector' _ _ first _ =>
          obtain ⟨inner, came, rfl⟩ := Option.map_eq_some_iff.mp asked
          -- The selector comes to the same key, so the same branch is taken.
          have steady := bears.steady _ (Trail.mem_steps_self _)
          simp only [List.head?_cons, selectedTrail?, first _ inner came bears.selector,
            Option.map_some, Option.bind_some, show _ = _ from steady]
          exact Option.bind_eq_some_iff.mpr ⟨_, later, rfl⟩
  | .call callee arguments, trail, left, bears => by
      simp only [trail?, Option.bind_eq_bind, Option.bind_eq_some_iff, Option.some.injEq] at left
      obtain ⟨⟨made, inner⟩, called, rfl⟩ := left
      have again := callTrail?_mapTexts followed callee arguments made inner called bears.inner
        (bears.steady _ (Trail.mem_steps_self _))
      simp only [mapLiterals, trail?, again]
      rfl

theorem partTrails?_mapTexts (followed : Trail.Followed change trails others)
    {selectors selectors' : List TrailSelector}
    (selected : List.Forall₂ (TrailSelector.Followed change) selectors selectors')
    (own : String → String) :
    (parts : List Expression) → (left : List Trail) →
      partTrails? trails language selectors parts = some left →
      (∀ part ∈ left, part.Bears change own) →
      (∀ part ∈ left, (part.mapTexts change own).fits = true) →
      partTrails? others language selectors' (mapParts own parts) =
        some (Trail.mapPartTexts change own left)
  | [], left, each, bear, fit => by
      obtain rfl := Option.some.inj each
      rfl
  | part :: parts, left, each, bear, fit => by
      simp only [partTrails?, Option.bind_eq_some_iff, Option.map_eq_some_iff,
        Option.filter_eq_some_iff] at each
      obtain ⟨first, ⟨came, -⟩, rest, later, rfl⟩ := each
      have here := trail?_mapTexts followed selected own part first came
        (bear first List.mem_cons_self)
      have behind := partTrails?_mapTexts followed selected own parts rest later
        (fun part member => bear part (List.mem_cons_of_mem _ member))
        (fun part member => fit part (List.mem_cons_of_mem _ member))
      rw [mapParts, partTrails?, here, behind,
        Option.filter_some_pos (fit first List.mem_cons_self)]
      rfl

theorem branchTrail?_mapTexts (followed : Trail.Followed change trails others)
    {selectors selectors' : List TrailSelector}
    (selected : List.Forall₂ (TrailSelector.Followed change) selectors selectors')
    (own : String → String) (key : String) :
    (branches : List (String × Expression)) → (taken : Trail) →
      branchTrail? trails language selectors key branches = some taken →
      taken.Bears change own →
      branchTrail? others language selectors' key (mapBranches own branches) =
        some (taken.mapTexts change own)
  | [], _, left, _ => by cases left
  | (other, branch) :: branches, taken, left, bears => by
      rw [mapBranches, branchTrail?]
      rw [branchTrail?] at left
      split at left
      · rename_i same
        rw [if_pos same]
        exact trail?_mapTexts followed selected own branch taken left bears
      · rename_i differ
        rw [if_neg differ]
        exact branchTrail?_mapTexts followed selected own key branches taken left bears

theorem callTrail?_mapTexts (followed : Trail.Followed change trails others)
    (callee : Expression) :
    (arguments : List Expression) → (made : Call) → (inner : Trail) →
      callTrail? trails language callee arguments = some (made, inner) →
      inner.Bears change id →
      (inner.mapTexts change id).value.toNumber? = inner.value.toNumber? →
      callTrail? others language callee arguments = some (made, inner.mapTexts change id)
  | [], _, _, called, _, _ => by cases called
  | _ :: _ :: _, _, _, called, _, _ => by cases called
  | [argument], made, inner, called, bears, steady => by
      simp only [callTrail?, Option.bind_eq_bind, Option.bind_eq_some_iff, Option.some.injEq,
        Prod.mk.injEq] at called
      obtain ⟨function, callable, _, came, _, number, rfl, rfl⟩ := called
      have again := trail?_mapTexts followed .nil id argument _ came bears
      -- The argument is left as it is written, so its texts are those of entries only.
      rw [mapLiterals_id] at again
      have read := Call.ofArgument_congr function steady (Trail.asNumber?_mapTexts id _) number
      simp only [callTrail?, callable, again, Option.bind_eq_bind, Option.bind_some, read]

end

theorem selectorTrail?_mapTexts (followed : Trail.Followed change trails others)
    (expression : Expression) :
    TrailSelector.Followed change (expression.selectorTrail? trails language)
      (expression.selectorTrail? others language) := by
  intro keys trail left bears
  cases expression with
  | call callee arguments =>
      simp only [selectorTrail?, Option.bind_eq_bind, Option.bind_eq_some_iff,
        Option.some.injEq] at left
      obtain ⟨⟨made, inner⟩, called, rfl⟩ := left
      have again := callTrail?_mapTexts followed callee arguments made inner called bears.inner
        (bears.steady _ (Trail.mem_steps_self _))
      simp only [selectorTrail?, again]
      rfl
  | _ =>
      have again := trail?_mapTexts followed .nil id _ trail left bears
      rwa [mapLiterals_id] at again

end Expression

namespace Scope

/-- With other texts in all entries. -/
def mapLiterals (change : String → String) (scope : Scope) : Scope :=
  { scope with phrase? := fun name => (scope.phrase? name).map (·.mapLiterals change) }

theorem ofEntries_mapLiterals (change : String → String) (entries : Entries)
    (arguments : Arguments) (language : String) :
    ofEntries (entries.mapLiterals change) arguments language =
      (ofEntries entries arguments language).mapLiterals change := by
  have phrases : ∀ name, ((entries.mapLiterals change).find? name).map Entry.phrase =
      ((entries.find? name).map Entry.phrase).map (·.mapLiterals change) := by
    intro name
    rw [Entries.mapLiterals, Table.find?_mapValues, Option.map_map, Option.map_map]
    rfl
  simp only [ofEntries, mapLiterals, phrases]

variable (scope : Scope) (change : String → String)

theorem answerTrail?_mapLiterals {enter other : String → Phrase → Option Trail}
    (followed : ∀ name phrase trail, enter name phrase = some trail →
      trail.Bears change change →
      other name (phrase.mapLiterals change) = some (trail.mapTexts change change)) :
    Trail.Followed change (scope.answerTrail? enter)
      ((scope.mapLiterals change).answerTrail? other) := by
  intro name trail own left bears
  unfold answerTrail? at left ⊢
  cases kind : Function.ofName? name with
  | some function => simp [kind] at left
  | none =>
      cases argument : scope.arguments.find? name with
      | some value =>
          simp only [kind, argument, Option.ite_none_right_eq_some, Option.some.injEq] at left
          obtain ⟨allowed, rfl⟩ := left
          simp only [mapLiterals, argument, if_pos allowed]
          rfl
      | none =>
          cases phrased : scope.phrase? name with
          | none => simp [kind, argument, phrased] at left
          | some phrase =>
              simp only [kind, argument, phrased, Option.map_eq_some_iff] at left
              obtain ⟨inner, came, rfl⟩ := left
              simp only [mapLiterals, argument, phrased, Option.map_some,
                followed name phrase inner came bears.entry]
              rfl

theorem trail?_mapLiterals (stack : CallStack) (id : String) (phrase : Phrase) (trail : Trail)
    (left : scope.trail? stack id phrase = some trail) (bears : trail.Bears change change) :
    (scope.mapLiterals change).trail? stack id (phrase.mapLiterals change) =
      some (trail.mapTexts change change) := by
  induction stack using CallStack.opening_induction generalizing id phrase trail with
  | step stack ih =>
      match phrase with
      | .bare text =>
          rw [trail?_bare] at left
          obtain rfl := Option.some.inj left
          rw [Phrase.mapLiterals, trail?_bare]
          rfl
      | .complex none index =>
          rw [trail?_valueless] at left
          cases left
      | .complex (some value) index =>
          cases pushed : stack.push id with
          | error fault =>
              rw [trail?_of_refused _ pushed] at left
              cases left
          | ok entered =>
              rw [trail?_of_pushed _ pushed] at left
              rw [Phrase.mapLiterals, Option.map_some, trail?_of_pushed _ pushed]
              have followed := scope.answerTrail?_mapLiterals change (ih id entered pushed)
              refine Expression.trail?_mapTexts followed ?_ change value trail left bears
              rw [List.forall₂_map_left_iff, List.forall₂_map_right_iff]
              exact List.forall₂_same.mpr fun expression _ =>
                Expression.selectorTrail?_mapTexts followed expression

end Scope

/-- An entry with a value has one in a pseudo-locale too, and the same branches are taken for it, if
with the pseudo-locale's texts all selectors still come to their keys, all calls to their numbers,
and all placeables fit. -/
theorem disguise_keeps_choices (pseudo : Pseudo) (entries : Entries) (arguments : Arguments)
    (language id : String) (limit : Nat) (entry : Entry) (value : Value)
    (known : entries.find? id = some entry)
    (formatted : (Scope.format (.ofEntries entries arguments language) (.empty limit) id
      entry.phrase).1 = .ok value) :
    ∃ trail,
      Scope.trail? (.ofEntries entries arguments language) (.empty limit) id entry.phrase =
          some trail ∧
        trail.value = value ∧
        (trail.Bears pseudo.disguise pseudo.disguise →
          let disguised := trail.mapTexts pseudo.disguise pseudo.disguise
          let scope := Scope.ofEntries (pseudo.transform entries) arguments language
          ∃ other,
            (pseudo.transform entries).find? id = some other ∧
            scope.format (.empty limit) id other.phrase = (.ok disguised.value, .empty limit) ∧
            scope.trail? (.empty limit) id other.phrase = some disguised ∧
            disguised.keys = trail.keys) := by
  obtain ⟨trail, left, rfl⟩ := Scope.outcome_eq_ok_iff _ |>.mp formatted
  refine ⟨trail, left, rfl, fun bears => ⟨entry.mapLiterals pseudo.disguise, ?_, ?_⟩⟩
  · rw [Pseudo.transform, Entries.mapLiterals, Table.find?_mapValues, known]
    rfl
  · rw [Pseudo.transform, Scope.ofEntries_mapLiterals]
    have again := Scope.trail?_mapLiterals _ pseudo.disguise _ id entry.phrase trail left bears
    have formatted := Scope.outcome_eq_ok_iff _ |>.mpr ⟨_, again, rfl⟩
    refine ⟨?_, again, Trail.keys_mapTexts _ trail⟩
    rw [Scope.format_eq]
    exact congrArg (·, _) formatted

/-- A greeting whose branch is chosen by what `tone` is. -/
def salute : Entry where
  phrase := .complex
    (some (.selection
      [("formal", .pattern [.literal "Good day, ", .reference "you"]), ("other", .literal "Hi")]
      none))
    [.reference "tone"]

def saluteTrail (tone : Trail) : Trail :=
  .choice (some tone) "formal"
    (.pattern [.literal "Good day, ", .entry "you" (.literal "Ann")])

theorem saluteTrail_bears :
    (saluteTrail (.argument (.text "formal"))).Bears Pseudo.accented.disguise
      Pseudo.accented.disguise where
  steady := Trail.steady_of_choicesByArguments (by
    simp [saluteTrail, Trail.steps, Trail.stepsOfAll, Trail.ChoosesByArguments,
      Trail.Unreferenced, Trail.isEntry])
  fit := by decide +kernel

theorem disguise_keeps_choices_salute :
    let entries : Entries := [("salute", salute), ("you", { phrase := .bare "Ann" })]
    let arguments : Arguments := [("tone", .text "formal")]
    entries.find? "salute" = some salute ∧
      (Scope.format (.ofEntries entries arguments "en") (.empty 2) "salute" salute.phrase).1 =
        .ok (.text "Good day, \u2068Ann\u2069") ∧
      (saluteTrail (.argument (.text "formal"))).Bears Pseudo.accented.disguise
        Pseudo.accented.disguise ∧
      ∃ other,
        (Pseudo.accented.transform entries).find? "salute" = some other ∧
        (Scope.ofEntries (Pseudo.accented.transform entries) arguments "en").format (.empty 2)
            "salute" other.phrase =
          (.ok (.text "Ɠǿǿǿǿḓ ḓȧȧẏ, \u2068ȦȦƞƞ\u2069"), .empty 2) := by
  intro entries arguments
  have known : entries.find? "salute" = some salute := rfl
  have formatted : (Scope.format (.ofEntries entries arguments "en") (.empty 2) "salute"
      salute.phrase).1 = .ok (.text "Good day, \u2068Ann\u2069") := rfl
  obtain ⟨trail, left, -, kept⟩ := disguise_keeps_choices .accented entries arguments "en"
    "salute" 2 salute _ known formatted
  obtain rfl : saluteTrail (.argument (.text "formal")) = trail := Option.some.inj left
  obtain ⟨other, found, again, -⟩ := kept saluteTrail_bears
  have text : Trail.joined (Trail.mapPartTexts Pseudo.accented.disguise Pseudo.accented.disguise
      [.literal "Good day, ", .entry "you" (.literal "Ann")]) =
        "Ɠǿǿǿǿḓ ḓȧȧẏ, \u2068ȦȦƞƞ\u2069" := by decide +kernel
  refine ⟨known, formatted, saluteTrail_bears, other, found, again.trans ?_⟩
  rw [← text]
  rfl

/-- A selector that is an entry comes to another key in a pseudo-locale. -/
theorem disguise_changes_choices :
    ¬ ∀ (pseudo : Pseudo) (entries : Entries) (arguments : Arguments) (language id : String)
      (limit : Nat) (entry : Entry) (trail : Trail), entries.find? id = some entry →
        Scope.trail? (.ofEntries entries arguments language) (.empty limit) id entry.phrase =
          some trail →
        (∀ step ∈ (trail.mapTexts pseudo.disguise pseudo.disguise).steps, step.PartsFit) →
        ∃ other,
          Scope.trail? (.ofEntries (pseudo.transform entries) arguments language) (.empty limit) id
              (entry.mapLiterals pseudo.disguise).phrase = some other ∧
            other.keys = trail.keys := by
  intro always
  let tone : Trail := .entry "tone" (.literal "formal")
  obtain ⟨other, left, kept⟩ := always .accented
    [("salute", salute), ("tone", { phrase := .bare "formal" }),
      ("you", { phrase := .bare "Ann" })] [] "en" "salute" 2 salute (saluteTrail tone)
    rfl rfl (by decide +kernel)
  let disguised : Trail := .entry "tone" (.literal (Pseudo.accented.disguise "formal"))
  obtain rfl : .choice (some disguised) "other" (.literal (Pseudo.accented.disguise "Hi")) =
    other := Option.some.inj left
  exact absurd kept (by decide)

end Phrasebook
