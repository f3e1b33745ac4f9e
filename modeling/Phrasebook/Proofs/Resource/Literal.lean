import Phrasebook.Entry.Compile
import Phrasebook.Proofs.Evaluation.Assembly
import Phrasebook.Proofs.Node.Splitting
import Phrasebook.Proofs.Resource.Properties

namespace Phrasebook

open Placeable
open Phrasebook.Unicode

namespace Resource

def literalChar (c : Char) : List Char :=
  if c = '{' ∨ c = '}' then ['\\', c] else escapedChar c

def literalLine (id text : String) : String :=
  id ++ " = " ++ String.ofList (spelledBy literalChar text.toList) ++ "\n"

theorem spelling_literalChar (c : Char) : Spelling (literalChar c) [c] := by
  unfold literalChar
  split
  · rename_i brace
    rcases brace with rfl | rfl
    · exact .escape rfl .nil
    · exact .escape rfl .nil
  · exact spelling_escapedChar c

structure LineName (id : String) : Prop where
  named : id ≠ ""
  plain : WritableName id
  uncommented : id.toList.head? ≠ some '#'

variable {id text : String}

theorem assignments_literalLine (name : LineName id) (nonempty : text ≠ "") :
    assignments (literalLine id text).toList = [⟨1, id.toList, none, text.toList⟩] := by
  have writable : Assignment.Writable ⟨0, id.toList, none, text.toList⟩ :=
    ⟨by simpa using name.named, fun c member => (name.plain c member).1, name.uncommented,
      nofun, by simpa using nonempty⟩
  have read := assignments_writtenBy spelling_literalChar (List.forall_mem_singleton.mpr writable)
  have same : (literalLine id text).toList =
      [⟨0, id.toList, none, text.toList⟩].flatMap
        fun a : Assignment => a.writtenBy literalChar ++ ['\n'] := by
    simp [literalLine, Assignment.writtenBy, writtenMember]
  rw [same, read]
  rfl

theorem parseProperties_literalLine (name : LineName id) (nonempty : text ≠ "") :
    parseProperties (literalLine id text) = .ok [.simple id text] := by
  have assigned : Drafts.assign [] ⟨1, id.toList, none, text.toList⟩ =
      .ok [(id, { value := { value? := some (.plain text.toList) } })] := by
    rw [Drafts.assign, ofName?_id name.plain]
    dsimp only
    rw [String.ofList_toList]
    rfl
  have same : EntryNode.simple id (String.ofList text.toList) = .simple id text := by
    rw [String.ofList_toList]
  rw [parseProperties, assignments_literalLine name nonempty, entryNodesOf, List.foldlM_cons,
    assigned, ← same]
  rfl

end Resource

section Placeables

variable {outcome : Expression → Except Fault String}

/-- A pattern that nothing failed in is not the text that it was made from: the first placeable put
an isolate in the place of its braces. -/
theorem Placeable.Decomposes.assembledText_ne {text : List Char} {nodes : List Node}
    (decomposed : Decomposes text nodes) (found : ∃ node ∈ nodes, node.isRaw = false)
    (faultless : Expression.faults outcome (Node.parts .literal nodes) = []) :
    (Expression.assembledText outcome (Node.parts .literal nodes)).toList ≠ text := by
  induction decomposed with
  | nil => simp at found
  | @placeable piece rest node nodes placeable _ _ =>
      have unread : (node.part .literal).literal? = none := by
        cases placeable with
        | braced _ spelled _ => cases spelled <;> rfl
      have own : (node.part .literal).fault? outcome = none := by
        rw [Expression.faults, List.filterMap_eq_nil_iff] at faultless
        exact faultless _ List.mem_cons_self
      obtain ⟨text, literal, -, -⟩ | ⟨text, -, -, piece, -⟩ | ⟨fault, -, -, -, failed⟩ :=
        (node.part .literal).part_cases outcome
      · rw [unread] at literal
        cases literal
      · cases placeable
        intro same
        have first := congrArg List.head? same
        simp [Expression.assembledText, Node.parts, piece, isolate, firstStrongIsolate] at first
      · rw [own] at failed
        cases failed
  | @literal piece rest nodes _ _ _ _ ih =>
      obtain ⟨node, member, expression⟩ := found
      have later : ∃ node ∈ nodes, node.isRaw = false := by
        obtain rfl | later := List.mem_cons.mp member
        · cases expression
        · exact ⟨node, later, expression⟩
      intro same
      refine ih later faultless ?_
      simpa [Expression.assembledText, Node.parts, Node.part, Expression.piece,
        Expression.literal?] using same

namespace Scope

theorem outcome_pattern_ok (scope : Scope) {stack : CallStack} {id : String}
    {parts : List Expression} {value : Value}
    (succeeded : scope.outcome stack id (.complex (some (.pattern parts)) []) = .ok value) :
    ∃ outcome, Expression.faults outcome parts = [] ∧
      value = .text (Expression.assembledText outcome parts) := by
  cases pushed : stack.push id with
  | error fault =>
      rw [scope.outcome_of_refused pushed] at succeeded
      cases succeeded
  | ok entered =>
      rw [scope.outcome_of_pushed pushed, formatValue_eq, evaluate_pattern] at succeeded
      split at succeeded
      · cases succeeded
      · rw [Expression.finish_assembled] at succeeded
        split at succeeded
        · cases succeeded
        · cases succeeded
        · rename_i faultless
          cases succeeded
          exact ⟨_, List.head?_eq_none_iff.mp faultless, rfl⟩

end Scope

end Placeables

theorem EntryNode.simple_phrase (id text : String) :
    (EntryNode.simple id text).compile.phrase =
      if hasPlaceables text then
        .complex (some (.pattern (Node.parts .literal (splitPlaceables text)))) []
      else .bare text := by
  have own : (EntryNode.simple id text).compile.phrase =
      .ofNode true (some (.raw text)) [] := rfl
  rw [own]
  by_cases found : hasPlaceables text
  · simp [Phrase.ofNode, Node.literal?, found, Node.compile, Expression.ofRaw]
  · simp [Phrase.ofNode, Node.literal?, found]

/-- Every text but the empty one can be written on a line with its braces escaped, and is found
again as the raw value of its phrase. The phrase evaluates to just this text, whatever the arguments
are, if there is no placeable in the text, and never if there is one. -/
theorem literal_line_evaluates {id text : String} (name : Resource.LineName id)
    (nonempty : text ≠ "") :
    ∃ nodes entry, Resource.parseProperties (Resource.literalLine id text) = .ok nodes ∧
      (Entries.ofNodes nodes).find? id = some entry ∧
      ∀ arguments language,
        (Scope.ofEntries (.ofNodes nodes) arguments language).formatFresh id entry.phrase =
            .ok (.text text) ↔
          hasPlaceables text = false := by
  have parsed := Resource.parseProperties_literalLine name nonempty
  have known : (Entries.ofNodes [.simple id text]).find? id =
      some (EntryNode.simple id text).compile :=
    Table.find?_insert_self id _ []
  refine ⟨_, _, parsed, known, fun arguments language => ?_⟩
  rw [EntryNode.simple_phrase]
  by_cases found : hasPlaceables text
  · rw [if_pos found]
    refine ⟨fun succeeded => ?_, fun absent => ?_⟩
    · obtain ⟨outcome, faultless, same⟩ := Scope.outcome_pattern_ok _ succeeded
      have expression : ∃ node ∈ splitPlaceables text, node.isRaw = false := by
        simpa [hasPlaceables] using (Bool.and_eq_true_iff.mp found).2
      refine absurd ?_
        ((decomposes_splitPlaceables text).assembledText_ne expression faultless)
      rw [← Value.text.inj same]
    · rw [found] at absent
      cases absent
  · rw [if_neg found]
    have bare := Scope.outcome_bare (.ofEntries (.ofNodes [.simple id text]) arguments language)
      (.empty CallStack.defaultLimit) id text
    exact ⟨fun _ => Bool.eq_false_iff.mpr found, fun _ => bare⟩

theorem Resource.lineName_k : LineName "k" :=
  ⟨by decide, by simp [WritableName, isNameEnd], by decide⟩

theorem literal_line_evaluates_braces :
    let text := "\x7b b \x7d\n"
    Resource.LineName "k" ∧ text ≠ "" ∧ hasPlaceables text = false ∧
    Resource.literalLine "k" text = "k = \\\x7b b \\\x7d\\n\n" ∧
    ∃ nodes entry, Resource.parseProperties (Resource.literalLine "k" text) = .ok nodes ∧
      (Entries.ofNodes nodes).find? "k" = some entry ∧
      ∀ arguments language,
        (Scope.ofEntries (.ofNodes nodes) arguments language).formatFresh "k" entry.phrase =
          .ok (.text text) := by
  intro text
  have nonempty : text ≠ "" := by decide
  have plain : hasPlaceables text = false := by decide +kernel
  obtain ⟨nodes, entry, parsed, known, evaluates⟩ :=
    literal_line_evaluates Resource.lineName_k nonempty
  refine ⟨Resource.lineName_k, nonempty, plain, by decide +kernel, nodes, entry, parsed, known, ?_⟩
  exact fun arguments language => (evaluates arguments language).mpr plain

/-- A reference between escaped braces is evaluated all the same. -/
theorem literal_line_opens_placeable :
    let text := "\x7b\x7b n \x7d\x7d"
    Resource.literalLine "k" text = "k = \\\x7b\\\x7b n \\\x7d\\\x7d\n" ∧
    ∃ nodes entry, Resource.parseProperties (Resource.literalLine "k" text) = .ok nodes ∧
      (Entries.ofNodes nodes).find? "k" = some entry ∧
      (Scope.ofEntries (.ofNodes nodes) [] "en").formatFresh "k" entry.phrase =
        .error (.value text (.unknownReference "n")) ∧
      (Scope.ofEntries (.ofNodes nodes) [("n", .text "you")] "en").formatFresh "k" entry.phrase =
        .ok (.text (isolate "you")) := by
  intro text
  have split : splitPlaceables text = [.identifier "n"] := by
    have isName : IsName "n" := by simp [IsName, isNameChar, isAlphanumeric]
    have whole := Decomposes.placeable (.braced blank_space (.name isName) blank_space) .nil
    exact splitPlaceables_of_decomposes (by simpa [text] using whole)
  have phrase : (EntryNode.simple "k" text).compile.phrase =
      .complex (some (.pattern [.reference "n"])) [] := by
    rw [EntryNode.simple_phrase, if_pos (by decide +kernel), split]
    rfl
  refine ⟨by decide +kernel, [.simple "k" text], (EntryNode.simple "k" text).compile,
    Resource.parseProperties_literalLine Resource.lineName_k (by decide), rfl, ?_⟩
  rw [phrase]
  exact ⟨rfl, rfl⟩

end Phrasebook
