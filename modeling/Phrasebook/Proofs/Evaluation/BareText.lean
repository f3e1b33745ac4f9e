import Phrasebook.Entry.Compile
import Phrasebook.Proofs.Evaluation.StackUse

namespace Phrasebook

/-- Bare text as the value of an entry that is evaluated. -/
def Phrase.spelledOut : Phrase → Phrase
  | .bare text => .complex (some (.literal text)) []
  | .complex value? index => .complex value? index

def Entry.spelledOut (entry : Entry) : Entry where
  phrase := entry.phrase.spelledOut
  attributes := entry.attributes.mapValues Phrase.spelledOut

/-! Compiling without bare text. -/

def Phrase.ofNodeInFull (value? : Option Node) (index : List Node) : Phrase :=
  .complex (value?.map Node.compile) (index.map Node.compile)

def AttributeNode.compileInFull : AttributeNode → Phrase
  | .plain value => .ofNodeInFull (some value) []
  | .indexed value index => .ofNodeInFull (some value) index

def EntryNode.compileInFull (node : EntryNode) : Entry where
  phrase := .ofNodeInFull node.value? (node.index?.getD [])
  attributes := Table.ofList (node.attributes.mapValues AttributeNode.compileInFull)

def Entries.ofNodesInFull (nodes : List EntryNode) : Entries :=
  Table.ofList (nodes.map fun node => (node.id, node.compileInFull))

theorem Node.compile_of_literal? {node : Node} {text : String}
    (literal : node.literal? = some text) : node.compile = .literal text := by
  cases node with
  | raw raw =>
      simp only [Node.literal?] at literal
      split at literal
      · cases literal
      · rename_i plain
        obtain rfl := Option.some.inj literal
        rw [Node.compile, Expression.ofRaw, if_neg plain]
  | string content =>
      obtain rfl := Option.some.inj literal
      rfl
  | _ => cases literal

theorem Phrase.spelledOut_ofNode (bareAllowed : Bool) (value? : Option Node) (index : List Node) :
    (Phrase.ofNode bareAllowed value? index).spelledOut = .ofNodeInFull value? index := by
  unfold Phrase.ofNode
  split
  · rename_i text literal
    obtain ⟨value, rfl, isText⟩ := Option.bind_eq_some_iff.mp literal
    simp [spelledOut, ofNodeInFull, Node.compile_of_literal? isText]
  · rfl

theorem AttributeNode.spelledOut_compile (node : AttributeNode) :
    node.compile.spelledOut = node.compileInFull := by
  cases node with
  | plain value => exact Phrase.spelledOut_ofNode true (some value) []
  | indexed value index => exact Phrase.spelledOut_ofNode true (some value) index

theorem EntryNode.spelledOut_compile (node : EntryNode) :
    node.compile.spelledOut = node.compileInFull := by
  have attributes : node.compile.attributes.mapValues Phrase.spelledOut =
      Table.ofList (node.attributes.mapValues AttributeNode.compileInFull) := by
    rw [EntryNode.compile, Table.mapValues_ofList]
    simp [Table.mapValues, Function.comp_def, AttributeNode.spelledOut_compile]
  rw [Entry.spelledOut, attributes, EntryNode.compile, Phrase.spelledOut_ofNode]
  rfl

theorem Entries.ofNodesInFull_eq (nodes : List EntryNode) :
    Entries.ofNodesInFull nodes = (Entries.ofNodes nodes).mapValues Entry.spelledOut := by
  rw [Entries.ofNodesInFull, Entries.ofNodes, Table.mapValues_ofList, List.map_map]
  congr 2
  funext node
  rw [Function.comp_apply, EntryNode.spelledOut_compile]

namespace Scope

def spelledOut (scope : Scope) : Scope :=
  { scope with phrase? := fun name => (scope.phrase? name).map Phrase.spelledOut }

theorem spelledOut_phrase? (scope : Scope) (name : String) :
    scope.spelledOut.phrase? name = (scope.phrase? name).map Phrase.spelledOut := rfl

theorem ofEntries_spelledOut (entries : Entries) (arguments : Arguments) (language : String) :
    ofEntries (entries.mapValues Entry.spelledOut) arguments language =
      (ofEntries entries arguments language).spelledOut := by
  have phrases : ∀ name, ((entries.mapValues Entry.spelledOut).find? name).map Entry.phrase =
      ((entries.find? name).map Entry.phrase).map Phrase.spelledOut := by
    intro name
    rw [Table.find?_mapValues, Option.map_map, Option.map_map]
    rfl
  rw [ofEntries, spelledOut, ofEntries, funext phrases]

/-- A stack that may hold all known entries, on which none of bare text is open. -/
structure Roomy (scope : Scope) (names : List String) (stack : CallStack) : Prop where
  wellFormed : stack.WellFormed
  enough : names.length ≤ stack.limit
  known : ∀ name phrase, scope.phrase? name = some phrase → name ∈ names
  complex : ∀ frame ∈ stack.frames, ∃ value? index,
    scope.phrase? frame = some (.complex value? index)

variable {scope : Scope} {names : List String} {stack : CallStack} {id : String}

theorem Roomy.push_bare (roomy : Roomy scope names stack) {text : String}
    (bare : scope.phrase? id = some (.bare text)) : stack.push id = .ok (stack.entered id) := by
  have fresh : id ∉ stack.frames := by
    intro opened
    obtain ⟨value?, index, complex⟩ := roomy.complex id opened
    rw [bare] at complex
    cases complex
  have distinct : (id :: stack.frames).Nodup :=
    List.nodup_cons.mpr ⟨fresh, roomy.wellFormed.distinct⟩
  have known : id :: stack.frames ⊆ names := by
    refine List.cons_subset.mpr ⟨roomy.known id _ bare, fun frame opened => ?_⟩
    obtain ⟨value?, index, complex⟩ := roomy.complex frame opened
    exact roomy.known frame _ complex
  have below : stack.depth < stack.limit := by
    calc
      stack.depth < (id :: stack.frames).length := by simp [roomy.wellFormed.depth_eq]
      _ ≤ names.length := distinct.length_le_of_subset known
      _ ≤ stack.limit := roomy.enough
  exact CallStack.push_fresh (Nat.sub_pos_of_lt below) fresh

theorem Roomy.entered (roomy : Roomy scope names stack) {entered : CallStack}
    {value? : Option Expression} {index : List Expression}
    (complex : scope.phrase? id = some (.complex value? index))
    (pushed : stack.push id = .ok entered) : Roomy scope names entered := by
  obtain ⟨below, fresh, rfl⟩ := CallStack.push_ok pushed
  refine ⟨roomy.wellFormed.entered below fresh, roomy.enough, roomy.known, fun frame opened => ?_⟩
  simp only [CallStack.entered, List.mem_append, List.mem_singleton] at opened
  rcases opened with earlier | rfl
  · exact roomy.complex frame earlier
  · exact ⟨value?, index, complex⟩

/-- While entries are open in both scopes alike, every phrase has the same outcome in both. -/
theorem outcome_spelledOut (roomy : Roomy scope names stack) {phrase : Phrase}
    (known : scope.phrase? id = some phrase) :
    scope.spelledOut.outcome stack id phrase.spelledOut = scope.outcome stack id phrase := by
  induction stack using CallStack.opening_induction generalizing id phrase with
  | step stack ih =>
      match phrase with
      | .bare text =>
          -- Only here do the stacks differ, and nothing is asked for while they do.
          rw [Phrase.spelledOut, outcome_of_pushed _ (roomy.push_bare known), outcome_bare]
          rfl
      | .complex none _ => rw [Phrase.spelledOut, outcome_valueless, outcome_valueless]
      | .complex (some value) index =>
          rw [Phrase.spelledOut]
          cases pushed : stack.push id with
          | error fault => rw [outcome_of_refused _ pushed, outcome_of_refused _ pushed]
          | ok entered =>
              have below := roomy.entered known pushed
              rw [outcome_of_pushed _ pushed, outcome_of_pushed _ pushed]
              refine Correspondence.same.rel_formatIndexed scope.language index value
                fun name _ => Correspondence.same.rel_answer rfl ?_
              rw [spelledOut_phrase?]
              cases found : scope.phrase? name with
              | none => exact .none
              | some phrase => exact .some (ih id entered pushed below found)

end Scope

/-- With room on the stack for as many entries as there are, an entry evaluates to the same value or
to the same fault whether texts are left bare or evaluated like everything else. -/
theorem bare_text_invisible (nodes : List EntryNode) (arguments : Arguments) (language id : String)
    (entry : Entry) (limit : Nat) (known : (Entries.ofNodes nodes).find? id = some entry)
    (enough : (Entries.ofNodes nodes).length ≤ limit) :
    (Entries.ofNodesInFull nodes).find? id = some entry.spelledOut ∧
      (Scope.ofEntries (.ofNodesInFull nodes) arguments language).format (.empty limit) id
          entry.spelledOut.phrase =
        (Scope.ofEntries (.ofNodes nodes) arguments language).format (.empty limit) id
          entry.phrase := by
  have found : (Scope.ofEntries (.ofNodes nodes) arguments language).phrase? id =
      some entry.phrase := congrArg (Option.map Entry.phrase) known
  have roomy : Scope.Roomy (.ofEntries (.ofNodes nodes) arguments language)
      (Entries.ofNodes nodes).names (.empty limit) := by
    refine ⟨.empty limit, ?_, fun name phrase phrased => ?_, nofun⟩
    · rwa [Table.names, List.length_map]
    · obtain ⟨entry, found, -⟩ := Option.map_eq_some_iff.mp phrased
      exact Table.mem_names_of_find? found
  rw [Entries.ofNodesInFull_eq, Table.find?_mapValues, known, Scope.ofEntries_spelledOut,
    Scope.format_eq, Scope.format_eq]
  exact ⟨rfl, congrArg (·, _) (Scope.outcome_spelledOut roomy found)⟩

theorem bare_text_invisible_letter :
    let letter : EntryNode := .simple "letter" "Dear \x7b\x7b title \x7d\x7d"
    let title : EntryNode := { id := "title", value? := some (.string "\x7b\x7b you \x7d\x7d") }
    let nodes := [letter, title]
    (Entries.ofNodes nodes).find? "letter" = some letter.compile ∧
    (Entries.ofNodes nodes).find? "title" = some { phrase := .bare "\x7b\x7b you \x7d\x7d" } ∧
    (Entries.ofNodes nodes).length ≤ 2 ∧
    (Entries.ofNodesInFull nodes).find? "letter" = some letter.compile.spelledOut ∧
    (Scope.ofEntries (.ofNodesInFull nodes) [] "en").format (.empty 2) "letter"
        letter.compile.spelledOut.phrase =
      (Scope.ofEntries (.ofNodes nodes) [] "en").format (.empty 2) "letter"
        letter.compile.phrase := by
  intro letter title nodes
  have ordered : "letter" < "title" := by decide
  have table : Entries.ofNodes nodes = [("letter", letter.compile), ("title", title.compile)] :=
    Table.ofList_of_ascending (List.pairwise_pair.mpr ordered)
  have known : (Entries.ofNodes nodes).find? "letter" = some letter.compile := by
    rw [table]
    rfl
  have bare : (Entries.ofNodes nodes).find? "title" =
      some { phrase := .bare "\x7b\x7b you \x7d\x7d" } := by
    rw [table]
    rfl
  have enough : (Entries.ofNodes nodes).length ≤ 2 := by
    rw [table]
    exact Nat.le_refl 2
  exact ⟨known, bare, enough, bare_text_invisible nodes [] "en" "letter" _ 2 known enough⟩

end Phrasebook
