import Phrasebook.Proofs.Resource.Escaping
import Phrasebook.Resource.Assignment

namespace Phrasebook.Resource

open Phrasebook.Text
open Phrasebook.Unicode

def writtenMember : Option (List Char) → List Char
  | none => []
  | some key => '[' :: (key ++ [']'])

namespace Assignment

def written (a : Assignment) : List Char :=
  a.name ++ (writtenMember a.member? ++ ' ' :: '=' :: ' ' :: escaped a.value)

/-- An assignment with every character of its value spelled in some way. -/
def writtenBy (spell : Char → List Char) (a : Assignment) : List Char :=
  a.name ++ (writtenMember a.member? ++ ' ' :: '=' :: ' ' :: spelledBy spell a.value)

structure Writable (a : Assignment) : Prop where
  named : a.name ≠ []
  nameChars : ∀ c ∈ a.name, isNameEnd c = false
  uncommented : a.name.head? ≠ some '#'
  keyChars : ∀ key, a.member? = some key → ∀ c ∈ key, c ≠ ']' ∧ c ≠ '\n'
  valued : a.value ≠ []

def renumber : Nat → List Assignment → List Assignment
  | _, [] => []
  | line, a :: rest => { a with line := line } :: renumber (line + 1) rest

variable {a : Assignment}

theorem readMember_written (member? : Option (List Char)) (value : List Char)
    (keyChars : ∀ key, member? = some key → ∀ c ∈ key, c ≠ ']' ∧ c ≠ '\n') :
    readMember (writtenMember member? ++ ' ' :: '=' :: ' ' :: value) =
      (member?, ' ' :: '=' :: ' ' :: value) := by
  cases member? with
  | none => rfl
  | some key =>
      have open_ : ∀ c ∈ key, decide (c ≠ ']') = true :=
        fun c member => decide_eq_true (keyChars key rfl c member).1
      have closes : Stops (fun c => decide (c ≠ ']')) (']' :: ' ' :: '=' :: ' ' :: value) := by simp
      have taken := takeWhile_span open_ closes
      have dropped := dropWhile_span open_ closes
      simp only [writtenMember, List.cons_append, List.append_assoc, List.nil_append, readMember,
        taken, dropped]

theorem readValue?_written {text : List Char} (nonempty : text ≠ [])
    (stops : Stops isWhiteSpace text) : readValue? (' ' :: '=' :: ' ' :: text) = some text := by
  obtain ⟨c, rest, same⟩ := List.exists_cons_of_ne_nil nonempty
  have solid := trimStart_of_stops stops
  rw [same] at solid ⊢
  simp [readValue?, trimStart_cons, solid]

theorem written_eq (a : Assignment) : a.written = a.writtenBy escapedChar := by
  rw [written, escaped_eq, writtenBy]

section Spelled

variable {spell : Char → List Char} (spelled : ∀ c, Spelling (spell c) [c])

include spelled

theorem ofLine?_writtenBy (writable : a.Writable) (line : Nat) :
    ofLine? ⟨line, a.writtenBy spell⟩ = some { a with line := line } := by
  obtain ⟨c, rest, same⟩ := List.exists_cons_of_ne_nil writable.named
  have solid : isWhiteSpace c = false := by
    have notEnd := writable.nameChars c (by simp [same])
    simp only [isNameEnd, Bool.or_eq_false_iff] at notEnd
    exact notEnd.2
  have front : Stops isWhiteSpace (a.writtenBy spell) := by
    simpa [writtenBy, same] using solid
  have uncommented : (a.writtenBy spell).head? ≠ some '#' := by
    have here := writable.uncommented
    simpa [writtenBy, same] using here
  have inName : ∀ d ∈ a.name, (!isNameEnd d) = true := by
    intro d member
    rw [writable.nameChars d member]
    rfl
  have behindName : Stops (!isNameEnd ·)
      (writtenMember a.member? ++ ' ' :: '=' :: ' ' :: spelledBy spell a.value) := by
    cases a.member? with
    | none => simp [writtenMember]; decide
    | some key => simp [writtenMember]; decide
  have name := takeWhile_span inName behindName
  have rest := dropWhile_span inName behindName
  have member := readMember_written a.member? (spelledBy spell a.value) writable.keyChars
  have spelling := spelling_spelledBy spelled a.value
  have value := readValue?_written (spelling.ne_nil writable.valued)
    (stops_spelledBy spelled a.value)
  simp only [ofLine?, trimStart_of_stops front, if_neg uncommented]
  rw [writtenBy, name, rest, member]
  simp [writable.named, value, spelling.unescape]

theorem writtenBy_complete (a : Assignment) : continues (a.writtenBy spell) = false := by
  have complete : continues (a.name ++ (writtenMember a.member? ++ [' ', '=']) ++ [' ']) = false :=
    continues_append_of_ne (by decide) _
  simpa [writtenBy] using (spelling_spelledBy spelled a.value).continues_append complete

theorem writtenBy_no_feed (writable : a.Writable) : '\n' ∉ a.writtenBy spell := by
  have inName : '\n' ∉ a.name := by
    intro member
    exact absurd (writable.nameChars _ member) (by decide)
  have inMember : '\n' ∉ writtenMember a.member? := by
    cases given : a.member? with
    | none => simp [writtenMember]
    | some key =>
        have inKey : '\n' ∉ key := fun member => (writable.keyChars key given _ member).2 rfl
        simp [writtenMember, inKey]
  have inValue : '\n' ∉ spelledBy spell a.value :=
    fun member => ((spelling_spelledBy spelled a.value).no_end _ member).1 rfl
  simp [writtenBy, inName, inMember, inValue]

theorem writtenBy_no_return (writable : a.Writable) : '\r' ∉ (a.writtenBy spell).getLast? := by
  have spelling := spelling_spelledBy spelled a.value
  obtain ⟨front, same⟩ : ∃ front, a.writtenBy spell = front ++ spelledBy spell a.value :=
    ⟨a.name ++ (writtenMember a.member? ++ [' ', '=', ' ']), by simp [writtenBy]⟩
  intro last
  rw [same, List.getLast?_append, Option.mem_def, Option.or_eq_some_iff] at last
  rcases last with inValue | ⟨empty, -⟩
  · exact (spelling.no_end _ (List.mem_of_getLast? inValue)).2 rfl
  · exact spelling.ne_nil writable.valued (List.getLast?_eq_none_iff.mp empty)

theorem lines_writtenBy {as : List Assignment} (writable : ∀ a ∈ as, a.Writable) :
    lines (as.flatMap fun a => a.writtenBy spell ++ ['\n']) = as.map (writtenBy spell) := by
  induction as with
  | nil => rfl
  | cons a rest ih =>
      obtain ⟨here, later⟩ := List.forall_mem_cons.mp writable
      simp only [List.flatMap_cons, List.map_cons, List.append_assoc, List.singleton_append]
      rw [lines_line (writtenBy_no_feed spelled here) (writtenBy_no_return spelled here), ih later]

theorem ofLines_joinLines {first : Assignment} {rest : List Assignment} (start : Nat)
    (writable : ∀ a ∈ first :: rest, a.Writable) :
    (joinLines start (start + 1) (first.writtenBy spell)
        (rest.map (writtenBy spell))).filterMap ofLine? =
      renumber start (first :: rest) := by
  induction rest generalizing first start with
  | nil =>
      have read := ofLine?_writtenBy spelled (writable first List.mem_cons_self) start
      simp [joinLines, read, renumber]
  | cons next rest ih =>
      obtain ⟨here, later⟩ := List.forall_mem_cons.mp writable
      have read := ofLine?_writtenBy spelled here start
      have complete := writtenBy_complete spelled first
      simp [joinLines, complete, read, renumber, ih (start + 1) later]

end Spelled

end Assignment

theorem assignments_writtenBy {spell : Char → List Char} (spelled : ∀ c, Spelling (spell c) [c])
    {as : List Assignment} (writable : ∀ a ∈ as, a.Writable) :
    assignments (as.flatMap fun a => a.writtenBy spell ++ ['\n']) = Assignment.renumber 1 as := by
  rw [assignments, logicalLines, Assignment.lines_writtenBy spelled writable]
  cases as with
  | nil => rfl
  | cons first rest => exact Assignment.ofLines_joinLines spelled 1 writable

theorem assignments_written {as : List Assignment} (writable : ∀ a ∈ as, a.Writable) :
    assignments (as.flatMap fun a => a.written ++ ['\n']) = Assignment.renumber 1 as := by
  simp only [Assignment.written_eq]
  exact assignments_writtenBy spelling_escapedChar writable

end Phrasebook.Resource
