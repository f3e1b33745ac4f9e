import Mathlib.Data.List.TakeWhile
import Phrasebook.Resource.LogicalLine

namespace Phrasebook.Resource

open Phrasebook.Text
open Phrasebook.Unicode

def EndsOdd (text : List Char) : Prop :=
  ∃ front count, text = front ++ List.replicate count '\\' ∧ '\\' ∉ front.getLast? ∧
    count % 2 = 1

/-- A logical line starts on the physical line of a number. -/
def Starts (source : List Char) (number : Nat) : Prop :=
  number ∈ (logicalLines source).map LogicalLine.number

def backslashes (text : List Char) : Nat :=
  (text.reverse.takeWhile (· = '\\')).length

section Backslashes

variable {text left front : List Char}

theorem continues_iff : continues text = true ↔ backslashes text % 2 = 1 :=
  decide_eq_true_iff

theorem continues_eq_false_iff : continues text = false ↔ backslashes text % 2 = 0 := by
  rw [Bool.eq_false_iff, ne_eq, continues_iff]
  omega

theorem backslashes_append_replicate (closed : '\\' ∉ front.getLast?) (count : Nat) :
    backslashes (front ++ List.replicate count '\\') = count := by
  have stops : Stops (· = '\\') front.reverse := by
    intro c first
    rw [List.head?_reverse] at first
    exact decide_eq_false fun same => closed (same ▸ first)
  have all : ∀ c ∈ List.replicate count '\\', decide (c = '\\') = true :=
    fun c member => decide_eq_true (List.eq_of_mem_replicate member)
  rw [backslashes, List.reverse_append, List.reverse_replicate, takeWhile_span all stops,
    List.length_replicate]

theorem exists_append_replicate (text : List Char) :
    ∃ front count, text = front ++ List.replicate count '\\' ∧ '\\' ∉ front.getLast? := by
  refine ⟨(text.reverse.dropWhile (· = '\\')).reverse,
    (text.reverse.takeWhile (· = '\\')).length, ?_, ?_⟩
  · have all : ∀ c ∈ text.reverse.takeWhile (· = '\\'), c = '\\' :=
      fun c member => by simpa using List.mem_takeWhile_imp member
    rw [← List.reverse_replicate, ← List.eq_replicate_of_mem all, ← List.reverse_append,
      List.takeWhile_append_dropWhile, List.reverse_reverse]
  · rw [List.getLast?_reverse]
    intro first
    have stops := stops_dropWhile (· = '\\') text.reverse _ first
    simp at stops

theorem continues_iff_endsOdd : continues text = true ↔ EndsOdd text := by
  rw [continues_iff]
  constructor
  · intro odd
    obtain ⟨front, count, rfl, closed⟩ := exists_append_replicate text
    rw [backslashes_append_replicate closed] at odd
    exact ⟨front, count, rfl, closed, odd⟩
  · rintro ⟨front, count, rfl, closed, odd⟩
    rwa [backslashes_append_replicate closed]

theorem continues_append (even : continues left = false) (text : List Char) :
    continues (left ++ text) = continues text := by
  have evenLeft := continues_eq_false_iff.mp even
  rw [Bool.eq_iff_iff, continues_iff, continues_iff]
  simp only [backslashes, List.reverse_append, List.takeWhile_append] at evenLeft ⊢
  split
  · rename_i all
    rw [List.length_append, ← all]
    omega
  · rfl

theorem continues_dropLast (goesOn : continues text = true) : continues text.dropLast = false := by
  rw [continues_eq_false_iff]
  rw [continues_iff] at goesOn
  simp only [backslashes] at goesOn ⊢
  rw [← List.tail_reverse]
  cases reversed : text.reverse with
  | nil => simp
  | cons c rest =>
      rw [reversed, List.takeWhile_cons] at goesOn
      rw [List.tail_cons]
      split at goesOn
      · rw [List.length_cons] at goesOn
        omega
      · simp at goesOn

theorem continues_of_blank (blank : ∀ c ∈ text, isWhiteSpace c = true) :
    continues text = false := by
  have nothing : text.reverse.takeWhile (· = '\\') = [] := by
    cases reversed : text.reverse with
    | nil => rfl
    | cons c rest =>
        have space : isWhiteSpace c = true :=
          blank c (List.mem_reverse.mp (reversed ▸ List.mem_cons_self))
        have differs : c ≠ '\\' := by
          rintro rfl
          exact absurd space (by decide)
        simp [differs]
  rw [continues_eq_false_iff, backslashes, nothing]
  rfl

theorem trimEnd_of_stops (solid : Stops isWhiteSpace text.reverse) : trimEnd text = text := by
  rw [trimEnd, trimStart_of_stops solid, List.reverse_reverse]

theorem stops_of_continues (goesOn : continues text = true) :
    Stops isWhiteSpace text.reverse := by
  rw [continues_iff, backslashes] at goesOn
  intro c first
  obtain ⟨rest, reversed⟩ := List.head?_eq_some_iff.mp first
  rw [reversed, List.takeWhile_cons] at goesOn
  split at goesOn
  · rename_i backslash
    rw [of_decide_eq_true backslash]
    decide
  · simp at goesOn

theorem trimEnd_blank_append (blank : ∀ c ∈ front, isWhiteSpace c = true) (text : List Char) :
    trimEnd (front ++ text) = if trimEnd text = [] then [] else front ++ trimEnd text := by
  have blankReversed : ∀ c ∈ front.reverse, isWhiteSpace c = true :=
    fun c member => blank c (List.mem_reverse.mp member)
  simp only [trimEnd, trimStart, List.reverse_append, List.dropWhile_append,
    List.dropWhile_eq_nil_iff.mpr blankReversed, List.isEmpty_iff, List.reverse_eq_nil_iff]
  split
  · rfl
  · rw [List.reverse_append, List.reverse_reverse]

theorem continues_trim (text : List Char) : continues (trim text) = continues (trimEnd text) := by
  have blank : ∀ c ∈ text.takeWhile isWhiteSpace, isWhiteSpace c = true :=
    fun c member => List.mem_takeWhile_imp member
  have whole : text.takeWhile isWhiteSpace ++ trimStart text = text :=
    List.takeWhile_append_dropWhile
  have split := trimEnd_blank_append blank (trimStart text)
  rw [whole] at split
  rw [trim, split]
  split
  · rename_i nothing
    rw [nothing]
  · rw [continues_append (continues_of_blank blank)]

end Backslashes

section Joining

variable {start next : Nat} {current line : List Char} {rest : List (List Char)}

/-- A line that goes on and its continuation, with the backslash between them gone. -/
theorem continues_joined (goesOn : continues current = true) (line : List Char) :
    continues (current.dropLast ++ trim line) = continues (trimEnd line) := by
  rw [continues_append (continues_dropLast goesOn), continues_trim]

theorem number_joinLines {number : Nat} (start next : Nat) (current : List Char)
    (rest : List (List Char))
    (member : number ∈ (joinLines start next current rest).map LogicalLine.number) :
    number = start ∨ next ≤ number := by
  induction rest generalizing start next current with
  | nil => exact .inl (List.mem_singleton.mp member)
  | cons line rest ih =>
      rw [joinLines] at member
      split at member
      · rcases ih start (next + 1) _ member with first | later
        · exact .inl first
        · exact .inr (Nat.le_of_succ_le later)
      · rcases List.mem_cons.mp member with first | member
        · exact .inl first
        · rcases ih next (next + 1) line member with rfl | later
          · exact .inr le_rfl
          · exact .inr (Nat.le_of_succ_le later)

theorem start_mem_joinLines (start next : Nat) (current : List Char) (rest : List (List Char)) :
    start ∈ (joinLines start next current rest).map LogicalLine.number := by
  induction rest generalizing next current with
  | nil => exact List.mem_singleton_self start
  | cons line rest ih =>
      rw [joinLines]
      split
      · exact ih (next + 1) _
      · exact List.mem_cons_self

theorem next_mem_joinLines (before : start < next) :
    next ∈ (joinLines start next current (line :: rest)).map LogicalLine.number ↔
      continues current = false := by
  rw [joinLines]
  split
  · rename_i goesOn
    refine iff_of_false ?_ (by simp [goesOn])
    intro member
    have bound := number_joinLines start (next + 1) _ rest member
    omega
  · rename_i complete
    refine iff_of_true ?_ (Bool.eq_false_iff.mpr complete)
    exact List.mem_cons_of_mem _ (start_mem_joinLines next (next + 1) line rest)

/-- A line behind the first one goes on by its own text where it starts a logical line, and by its
text without white space at the end where it does not. -/
theorem goesOn_joinLines {i : Nat} (before : start < next) (here : rest[i]? = some line)
    (notLast : i + 1 < rest.length) :
    next + i + 1 ∉ (joinLines start next current rest).map LogicalLine.number ↔
      continues (if next + i ∈ (joinLines start next current rest).map LogicalLine.number then line
        else trimEnd line) = true := by
  induction rest generalizing start next current i with
  | nil => cases here
  | cons first rest ih =>
      cases i with
      | zero =>
          obtain rfl : first = line := Option.some.inj here
          obtain _ | ⟨second, others⟩ := rest
          · simp at notLast
          simp only [Nat.add_zero, next_mem_joinLines before]
          rw [joinLines]
          split
          · rename_i goesOn
            rw [next_mem_joinLines (Nat.lt_succ_of_lt before), continues_joined goesOn]
            simp [goesOn]
          · rename_i complete
            have other : next + 1 ≠ start := by omega
            rw [List.map_cons, List.mem_cons, or_iff_right other,
              next_mem_joinLines (Nat.lt_succ_self next)]
            simp [complete]
      | succ i =>
          have hereLater : rest[i]? = some line := here
          have notLastLater : i + 1 < rest.length := Nat.lt_of_succ_lt_succ notLast
          have shift : next + (i + 1) = next + 1 + i := by omega
          rw [shift, joinLines]
          split
          · exact ih (Nat.lt_succ_of_lt before) hereLater notLastLater
          · have other : next + 1 + i ≠ start := by omega
            have behind : next + 1 + i + 1 ≠ start := by omega
            simp only [List.map_cons, List.mem_cons, other, behind, false_or]
            exact ih (Nat.lt_succ_self next) hereLater notLastLater

end Joining

theorem starts_first {source : List Char} (nonempty : lines source ≠ []) : Starts source 1 := by
  rw [Starts, logicalLines]
  cases split : lines source with
  | nil => exact absurd split nonempty
  | cons first rest => exact start_mem_joinLines 1 2 first rest

theorem not_starts_iff {source : List Char} {i : Nat} {line : List Char}
    (here : (lines source)[i]? = some line) (notLast : i + 1 < (lines source).length) :
    (Starts source (i + 1) → (¬ Starts source (i + 2) ↔ EndsOdd line)) ∧
    (¬ Starts source (i + 1) → (¬ Starts source (i + 2) ↔ EndsOdd (trimEnd line))) := by
  have first : lines source ≠ [] := List.ne_nil_of_length_pos (by omega)
  have starts := starts_first first
  simp only [← continues_iff_endsOdd]
  simp only [Starts, logicalLines] at starts ⊢
  cases split : lines source with
  | nil => exact absurd split first
  | cons head rest =>
      rw [split] at here notLast
      cases i with
      | zero =>
          obtain rfl : head = line := Option.some.inj here
          obtain _ | ⟨second, others⟩ := rest
          · simp at notLast
          have next := @next_mem_joinLines 1 2 head second others Nat.one_lt_two
          rw [split] at starts
          refine ⟨fun _ => ?_, fun continuation => absurd starts continuation⟩
          rw [joinAll, next]
          simp
      | succ i =>
          have joined := @goesOn_joinLines 1 2 head line rest i Nat.one_lt_two here
            (Nat.lt_of_succ_lt_succ notLast)
          have shift : 2 + i = i + 1 + 1 := by omega
          rw [shift] at joined
          rw [joinAll, joined]
          constructor
          · intro starts
            rw [if_pos starts]
          · intro continuation
            rw [if_neg continuation]

/-- A line is joined with the next one exactly if it ends in an odd number of backslashes, wherever
it stands, unless it is a continuation with white space at its end. There the white space is left
out of account, so that some lines are joined that do not end in a backslash. -/
theorem joined_by_own_text {source : List Char} {i : Nat} {line : List Char}
    (here : (lines source)[i]? = some line) (notLast : i + 1 < (lines source).length) :
    ((Starts source (i + 1) ∨ ∀ c ∈ line.getLast?, isWhiteSpace c = false) →
      (¬ Starts source (i + 2) ↔ EndsOdd line)) ∧
    (EndsOdd line → ¬ Starts source (i + 2)) ∧
    (¬ Starts source (i + 1) → (¬ Starts source (i + 2) ↔ EndsOdd (trimEnd line))) := by
  obtain ⟨onFirst, onContinuation⟩ := not_starts_iff here notLast
  have wherever (solid : Stops isWhiteSpace line.reverse) :
      ¬ Starts source (i + 2) ↔ EndsOdd line := by
    by_cases starts : Starts source (i + 1)
    · exact onFirst starts
    · rw [onContinuation starts, trimEnd_of_stops solid]
  refine ⟨?_, ?_, onContinuation⟩
  · rintro (starts | solid)
    · exact onFirst starts
    · apply wherever
      rwa [Stops, List.head?_reverse]
  · intro odd
    exact (wherever (stops_of_continues (continues_iff_endsOdd.mpr odd))).mpr odd

/-- A continuation of three backslashes goes on, whatever the line before it ends in. -/
theorem joined_by_own_text_backslashes :
    let source := "a = x\\\n\\\\\\\nb".toList
    (lines source)[1]? = some ['\\', '\\', '\\'] ∧ 2 < (lines source).length ∧
    ¬ Starts source 2 ∧ ¬ Starts source 3 := by
  intro source
  have here : (lines source)[1]? = some ['\\', '\\', '\\'] := by decide
  have notLast : 2 < (lines source).length := by decide
  have continuation : ¬ Starts source 2 := by
    unfold Starts
    decide
  have odd : EndsOdd ['\\', '\\', '\\'] := ⟨[], 3, rfl, by simp, rfl⟩
  exact ⟨here, notLast, continuation, (joined_by_own_text here notLast).2.1 odd⟩

/-- The second line ends in a blank, and yet the third one is joined to it. Where it starts a
logical line it is not. -/
theorem blank_behind_backslash_joins :
    let source := "a = x\\\ny\\ \nb = z".toList
    (lines source)[1]? = some "y\\ ".toList ∧ 2 < (lines source).length ∧
    ¬ EndsOdd "y\\ ".toList ∧ ¬ Starts source 3 ∧ Starts "y\\ \nb = z".toList 2 := by
  refine ⟨by decide, by decide, ?_, ?_, ?_⟩
  · rw [← continues_iff_endsOdd]
    decide
  · unfold Starts
    decide
  · unfold Starts
    decide

end Phrasebook.Resource
