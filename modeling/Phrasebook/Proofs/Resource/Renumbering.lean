import Phrasebook.Proofs.Resource.Histories

/-! Lines under other numbers. -/

namespace Phrasebook

def ParseFailure.moved (f : Nat → Nat) : ParseFailure → ParseFailure
  | .malformed line column message => .malformed (f line) column message
  | .nestedAttribute line name => .nestedAttribute (f line) name
  | .malformedIndex line text => .malformedIndex (f line) text

namespace Resource

def LogicalLine.moved (f : Nat → Nat) (line : LogicalLine) : LogicalLine :=
  { line with number := f line.number }

def Assignment.moved (f : Nat → Nat) (a : Assignment) : Assignment :=
  { a with line := f a.line }

/-- Numbers move up from a number on. -/
def movedFrom (number count line : Nat) : Nat :=
  if line < number then line else line + count

section Runs

variable (f : Nat → Nat)

theorem fillings_map_moved (target : Target) (as : List Assignment) :
    fillings target (as.map (Assignment.moved f)) = fillings target as := by
  rw [fillings, List.filter_map, List.map_map]
  rfl

theorem labels_map_moved (id : List Char) (as : List Assignment) :
    labels id (as.map (Assignment.moved f)) = labels id as := by
  rw [labels, List.filterMap_map]
  rfl

theorem ids_map_moved (as : List Assignment) :
    ids (as.map (Assignment.moved f)) = ids as := by
  rw [ids, List.map_map]
  rfl

theorem nodesOf_map_moved (as : List Assignment) :
    nodesOf (as.map (Assignment.moved f)) = nodesOf as := by
  have draft : ∀ id, Draft.ofLines (as.map (Assignment.moved f)) id = Draft.ofLines as id := by
    intro id
    simp only [Draft.ofLines, fillings_map_moved, labels_map_moved]
  rw [nodesOf, ids_map_moved]
  apply List.map_congr_left
  intro id _
  rw [nodeOf, draft]
  rfl

theorem offence?_moved (before : List Assignment) (a : Assignment) :
    offence? (before.map (Assignment.moved f)) (a.moved f) =
      (offence? before a).map (ParseFailure.moved f) := by
  have same : (a.moved f).target? = a.target? := rfl
  rw [offence?, offence?, same]
  cases a.target? with
  | none => rfl
  | some target =>
      simp only [fillings_map_moved, Option.map_map]
      rfl

theorem firstOffence?_moved (before as : List Assignment) :
    firstOffence? (before.map (Assignment.moved f)) (as.map (Assignment.moved f)) =
      (firstOffence? before as).map (ParseFailure.moved f) := by
  induction as generalizing before with
  | nil => rfl
  | cons a as ih =>
      have later := ih (before ++ [a])
      rw [List.map_append, List.map_singleton] at later
      rw [List.map_cons, firstOffence?, firstOffence?, offence?_moved, later, Option.map_or]

/-- Under other numbers lines give the same nodes, or the same failure under its other number. -/
theorem entryNodesOf_moved (as : List Assignment) :
    entryNodesOf (as.map (Assignment.moved f)) =
      (entryNodesOf as).mapError (ParseFailure.moved f) := by
  have first := firstOffence?_moved f [] as
  rw [List.map_nil] at first
  rw [entryNodesOf_eq, entryNodesOf_eq, first, nodesOf_map_moved]
  cases firstOffence? [] as <;> rfl

theorem filterMap_ofLine?_moved (ls : List LogicalLine) :
    (ls.map (LogicalLine.moved f)).filterMap Assignment.ofLine? =
      (ls.filterMap Assignment.ofLine?).map (Assignment.moved f) := by
  rw [List.filterMap_map, List.map_filterMap]
  apply List.filterMap_congr
  intro line _
  rw [Function.comp_apply, ofLine?_eq, ofLine?_eq, Option.map_map]
  rfl

end Runs

section Numbers

variable {front back : List Block} {block : Block}

theorem number_numbered {start : Nat} {bs : List Block} {line : LogicalLine}
    (member : line ∈ numbered start bs) :
    start ≤ line.number ∧ line.number < start + (bs.flatMap Block.pieces).length := by
  induction bs generalizing start with
  | nil => cases member
  | cons first bs ih =>
      rw [List.flatMap_cons, List.length_append]
      rcases List.mem_cons.mp member with rfl | later
      · have nonempty : 0 < first.pieces.length := Nat.succ_pos _
        exact ⟨le_rfl, Nat.lt_add_of_pos_right (Nat.add_pos_left nonempty _)⟩
      · have bounds := ih later
        omega

theorem numbered_add (start count : Nat) (bs : List Block) :
    numbered (start + count) bs = (numbered start bs).map (LogicalLine.moved (· + count)) := by
  induction bs generalizing start with
  | nil => rfl
  | cons block bs ih =>
      rw [numbered, numbered, List.map_cons, ← ih, Nat.add_right_comm]
      rfl

theorem assignmentsOf_silent (silent : said? block.text = none) :
    assignmentsOf (front ++ block :: back) =
      (assignmentsOf (front ++ back)).map
        (Assignment.moved (movedFrom (lineBehind front) block.pieces.length)) := by
  have before : (numbered 1 front).map
      (LogicalLine.moved (movedFrom (lineBehind front) block.pieces.length)) =
        numbered 1 front := by
    refine (List.map_congr_left ?_).trans (List.map_id _)
    intro line member
    have inFront : line.number < lineBehind front := by
      have bounds := number_numbered member
      rw [lineBehind]
      omega
    rw [LogicalLine.moved, movedFrom, if_pos inFront]
    rfl
  have behind : (numbered (lineBehind front) back).map
      (LogicalLine.moved (movedFrom (lineBehind front) block.pieces.length)) =
        numbered (lineBehind front + block.pieces.length) back := by
    rw [numbered_add]
    apply List.map_congr_left
    intro line member
    have inBack : ¬ line.number < lineBehind front := Nat.not_lt.mpr (number_numbered member).1
    rw [LogicalLine.moved, movedFrom, if_neg inBack]
    rfl
  have quiet : ∀ number, Assignment.ofLine? ⟨number, block.text⟩ = none := by
    intro number
    rw [ofLine?_eq, silent]
    rfl
  have start : 1 + (front.flatMap Block.pieces).length = lineBehind front := Nat.add_comm _ _
  rw [assignmentsOf, assignmentsOf, ← filterMap_ofLine?_moved, numbered_append, numbered_append,
    start, List.map_append, before, behind, numbered, List.filterMap_append, List.filterMap_append,
    List.filterMap_cons_none (quiet _)]

end Numbers

end Resource

end Phrasebook
