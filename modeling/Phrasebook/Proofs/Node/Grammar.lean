import Phrasebook.Node.Placeable

namespace Phrasebook

open Phrasebook.Text
open Phrasebook.Unicode

namespace Placeable

def IsName (name : String) : Prop :=
  name.toList ≠ [] ∧ ∀ c ∈ name.toList, isNameChar c = true

def Blank (text : List Char) : Prop :=
  ∀ c ∈ text, isWhiteSpace c = true

mutual

/-- A name, or a name with arguments in brackets directly behind it. -/
inductive Spells : List Char → Node → Prop
  | name {name : String} (isName : IsName name) : Spells name.toList (.identifier name)
  | call {name : String} {front inner back : List Char} {arguments : List Node}
      (isName : IsName name) (before : Blank front) (spelled : SpellsAll inner arguments)
      (after : Blank back) :
      Spells (name.toList ++ '(' :: (front ++ (inner ++ (back ++ [')']))))
        (.call (.identifier name) arguments)

inductive SpellsAll : List Char → List Node → Prop
  | nil : SpellsAll [] []
  | cons {text rest : List Char} {node : Node} {nodes : List Node} (first : Spells text node)
      (others : SpellsFurther rest nodes) : SpellsAll (text ++ rest) (node :: nodes)

/-- Arguments that each stand behind a comma, with any white space around it. -/
inductive SpellsFurther : List Char → List Node → Prop
  | nil : SpellsFurther [] []
  | cons {front back text rest : List Char} {node : Node} {nodes : List Node}
      (before : Blank front) (after : Blank back) (next : Spells text node)
      (others : SpellsFurther rest nodes) :
      SpellsFurther (front ++ ',' :: (back ++ (text ++ rest))) (node :: nodes)

end

/-- An expression between double braces, with any white space around it. -/
inductive IsPlaceable : List Char → Node → Prop
  | braced {front text back : List Char} {node : Node} (before : Blank front)
      (spelled : Spells text node) (after : Blank back) :
      IsPlaceable ('{' :: '{' :: (front ++ (text ++ (back ++ ['}', '}'])))) node

theorem isNameChar_whiteSpace : ∀ range ∈ whiteSpace, ∀ offset < range.2 + 1 - range.1,
    isNameChar (Char.ofNat (range.1 + offset)) = false := by
  decide +kernel

theorem not_isWhiteSpace_of_isNameChar {c : Char} (name : isNameChar c = true) :
    isWhiteSpace c = false := by
  cases blank : isWhiteSpace c with
  | false => rfl
  | true =>
      obtain ⟨range, member, low, high⟩ := Ranges.contains_iff.mp blank
      have notName := isNameChar_whiteSpace range member (c.toNat - range.1) (by omega)
      rw [Nat.add_sub_cancel' low, Char.ofNat_toNat, name] at notName
      cases notName

def goesOn (c : Char) : Bool :=
  isNameChar c || c = '('

theorem goesOn_of_isWhiteSpace {c : Char} (blank : isWhiteSpace c = true) : goesOn c = false := by
  have notName : isNameChar c = false := by
    cases name : isNameChar c with
    | false => rfl
    | true =>
        rw [not_isWhiteSpace_of_isNameChar name] at blank
        cases blank
  have notOpen : c ≠ '(' := by
    rintro rfl
    simp at blank
  simp [goesOn, notName, notOpen]

section Blank

variable {blank rest : List Char}

theorem trimStart_blank (isBlank : Blank blank) (solid : Stops isWhiteSpace rest) :
    trimStart (blank ++ rest) = rest :=
  dropWhile_span isBlank solid

theorem trimEnd_blank {text : List Char} (ends : Stops isWhiteSpace text.reverse)
    (isBlank : Blank blank) : trimEnd (text ++ blank) = text := by
  have reversed : Blank blank.reverse := fun c member => isBlank c (List.mem_reverse.mp member)
  rw [trimEnd, List.reverse_append, trimStart_blank reversed ends, List.reverse_reverse]

theorem blank_trimStart (text : List Char) :
    ∃ blank, Blank blank ∧ text = blank ++ trimStart text :=
  ⟨text.takeWhile isWhiteSpace, List.all_eq_true.mp List.all_takeWhile,
    List.takeWhile_append_dropWhile.symm⟩

@[simp] theorem blank_nil : Blank [] :=
  nofun

@[simp] theorem blank_space : Blank [' '] := by
  simp [Blank]

theorem Blank.stops (isBlank : Blank blank) (stops : Stops goesOn rest) :
    Stops goesOn (blank ++ rest) := by
  cases blank with
  | nil => exact stops
  | cons c blank => exact stops_cons.mpr (goesOn_of_isWhiteSpace (isBlank c (by simp)))

end Blank

def Foreign (c : Char) : Prop :=
  isNameChar c = false ∧ isWhiteSpace c = false ∧ c ∉ ['(', ',', ')']

instance (c : Char) : Decidable (Foreign c) :=
  inferInstanceAs (Decidable (_ ∧ _))

theorem IsName.not_mem {name : String} (isName : IsName name) {c : Char} (foreign : Foreign c) :
    c ∉ name.toList := by
  intro member
  rw [Foreign, isName.2 c member] at foreign
  cases foreign.1

theorem Blank.not_mem {blank : List Char} (isBlank : Blank blank) {c : Char}
    (foreign : Foreign c) : c ∉ blank := by
  intro member
  rw [Foreign, isBlank c member] at foreign
  cases foreign.2.1

theorem Foreign.not_punctuation {c : Char} (foreign : Foreign c) : c ≠ '(' ∧ c ≠ ',' ∧ c ≠ ')' := by
  have punctuation := foreign.2.2
  simpa [not_or] using punctuation

mutual

theorem Spells.not_mem {c : Char} (foreign : Foreign c) :
    ∀ {text : List Char} {node : Node}, Spells text node → c ∉ text
  | _, _, .name isName => isName.not_mem foreign
  | _, _, .call isName before spelled after => by
      simp [isName.not_mem foreign, before.not_mem foreign, spelled.not_mem foreign,
        after.not_mem foreign, foreign.not_punctuation]

theorem SpellsAll.not_mem {c : Char} (foreign : Foreign c) :
    ∀ {text : List Char} {nodes : List Node}, SpellsAll text nodes → c ∉ text
  | _, _, .nil => List.not_mem_nil
  | _, _, .cons first others => by simp [first.not_mem foreign, others.not_mem foreign]

theorem SpellsFurther.not_mem {c : Char} (foreign : Foreign c) :
    ∀ {text : List Char} {nodes : List Node}, SpellsFurther text nodes → c ∉ text
  | _, _, .nil => List.not_mem_nil
  | _, _, .cons before after next others => by
      simp [before.not_mem foreign, after.not_mem foreign, next.not_mem foreign,
        others.not_mem foreign, foreign.not_punctuation]

end

/-! What stands in the grammar is read. -/

theorem readName?_append {name : String} (isName : IsName name) {rest : List Char}
    (stops : Stops isNameChar rest) : readName? (name.toList ++ rest) = some (name, rest) := by
  obtain ⟨c, chars, same⟩ := List.exists_cons_of_ne_nil isName.1
  simp only [readName?, takeWhile_span isName.2 stops, dropWhile_span isName.2 stops]
  rw [same]
  simp only [← same, String.ofList_toList]

theorem readName?_eq_none {text : List Char} (stops : Stops isNameChar text) :
    readName? text = none := by
  have nothing : text.takeWhile isNameChar = [] := @takeWhile_span _ [] text nofun stops
  simp only [readName?, nothing]

theorem Spells.starts {text : List Char} {node : Node} (spelled : Spells text node) :
    ∃ c rest, text = c :: rest ∧ isNameChar c = true := by
  have ofName : ∀ name : String, IsName name →
      ∃ c rest, name.toList = c :: rest ∧ isNameChar c = true := by
    intro name isName
    obtain ⟨c, rest, same⟩ := List.exists_cons_of_ne_nil isName.1
    exact ⟨c, rest, same, isName.2 c (by simp [same])⟩
  cases spelled with
  | name isName => exact ofName _ isName
  | call isName _ _ _ =>
      obtain ⟨c, rest, same, isChar⟩ := ofName _ isName
      exact ⟨c, _, by rw [same, List.cons_append], isChar⟩

theorem Spells.stops {text : List Char} {node : Node} (spelled : Spells text node)
    (rest : List Char) : Stops isWhiteSpace (text ++ rest) := by
  obtain ⟨c, tail, same, isChar⟩ := spelled.starts
  simpa [same] using not_isWhiteSpace_of_isNameChar isChar

theorem SpellsFurther.stops {text : List Char} {nodes : List Node}
    (spelled : SpellsFurther text nodes) {rest : List Char} (ends : Stops goesOn rest) :
    Stops goesOn (text ++ rest) := by
  cases spelled with
  | nil => exact ends
  | cons before _ _ _ =>
      rw [List.append_assoc]
      refine before.stops ?_
      simp only [List.cons_append, stops_cons]
      decide

theorem SpellsFurther.length_le {text : List Char} {nodes : List Node}
    (spelled : SpellsFurther text nodes) : nodes.length ≤ text.length := by
  induction nodes generalizing text with
  | nil => exact Nat.zero_le _
  | cons node nodes ih =>
      cases spelled with
      | cons _ _ _ others =>
          have fewer := ih others
          simp only [List.length_cons, List.length_append]
          omega

variable {argument? : List Char → Option (Node × List Char)} {bound : Nat}

/-- Expressions of less than some length are read wherever nothing goes on with them. -/
def Reads (argument? : List Char → Option (Node × List Char)) (bound : Nat) : Prop :=
  ∀ text node rest, Spells text node → text.length < bound → Stops goesOn rest →
    argument? (text ++ rest) = some (node, rest)

theorem readArguments_spelled (reads : Reads argument? bound) {text : List Char}
    {nodes : List Node} (spelled : SpellsFurther text nodes) (short : text.length < bound)
    {steps : Nat} (enough : nodes.length ≤ steps) {back : List Char} (blank : Blank back)
    (rest : List Char) :
    readArguments argument? steps (text ++ (back ++ ')' :: rest)) =
      (nodes, back ++ ')' :: rest) := by
  have solid : Stops isWhiteSpace (')' :: rest) := by simp
  have ends : Stops goesOn (back ++ ')' :: rest) := by
    refine blank.stops ?_
    simp only [stops_cons]
    decide
  induction nodes generalizing text steps with
  | nil =>
      cases spelled with
      | nil => cases steps <;> simp [readArguments, trimStart_blank blank solid]
  | cons node nodes ih =>
      obtain ⟨steps, rfl⟩ := Nat.exists_eq_succ_of_ne_zero (Nat.ne_zero_of_lt enough)
      cases spelled with
      | @cons front space argument further _ _ before after next others =>
          simp only [List.length_append, List.length_cons] at short
          have read := reads argument node (further ++ (back ++ ')' :: rest)) next (by omega)
            (others.stops ends)
          have later := ih others (by omega) (Nat.le_of_succ_le_succ enough)
          have comma : Stops isWhiteSpace
              (',' :: (space ++ (argument ++ (further ++ (back ++ ')' :: rest))))) := by simp
          have skipped := trimStart_blank before comma
          have opened := trimStart_blank after (next.stops (further ++ (back ++ ')' :: rest)))
          simp [readArguments, skipped, opened, read, later]

theorem readCall?_spelled (reads : Reads argument? bound)
    (nothing : ∀ rest, argument? (')' :: rest) = none) {text : List Char} {nodes : List Node}
    (spelled : SpellsAll text nodes) (short : text.length < bound) {front back : List Char}
    (before : Blank front) (after : Blank back) (rest : List Char) :
    readCall? argument? ('(' :: (front ++ (text ++ (back ++ ')' :: rest)))) =
      some (nodes, rest) := by
  have solid : Stops isWhiteSpace (')' :: rest) := by simp
  have ends : Stops goesOn (back ++ ')' :: rest) := by
    refine after.stops ?_
    simp only [stops_cons]
    decide
  cases spelled with
  | nil =>
      have blank : Blank (front ++ back) := by
        intro c member
        exact (List.mem_append.mp member).elim (before c) (after c)
      have skipped := trimStart_blank blank solid
      rw [List.append_assoc] at skipped
      simp [readCall?, skipped, nothing, trimStart_of_stops solid]
  | @cons argument further node nodes first others =>
      simp only [List.length_append] at short
      have read := reads argument node (further ++ (back ++ ')' :: rest)) first (by omega)
        (others.stops ends)
      have skipped := trimStart_blank before (first.stops (further ++ (back ++ ')' :: rest)))
      have enough : nodes.length ≤ (further ++ (back ++ ')' :: rest)).length := by
        rw [List.length_append]
        exact Nat.le_trans others.length_le (Nat.le_add_right _ _)
      have later := readArguments_spelled reads others (by omega) enough after rest
      simp only [readCall?, List.append_assoc, skipped, read, later, trimStart_blank after solid]

theorem readCall?_eq_none {text : List Char} (stops : Stops goesOn text) :
    readCall? argument? text = none := by
  cases text with
  | nil => rfl
  | cons c text =>
      have notOpen : c ≠ '(' := by
        rintro rfl
        simp [goesOn] at stops
      unfold readCall?
      split
      · simp_all
      · rfl

theorem readExpressionWithin_spelled (depth : Nat) :
    Reads (readExpressionWithin depth) depth := by
  induction depth with
  | zero =>
      intro text node rest _ short
      exact absurd short (Nat.not_lt_zero _)
  | succ depth ih =>
      intro text node rest spelled short ends
      cases spelled with
      | name isName =>
          have stops : Stops isNameChar rest := ends.mono fun c => by simp +contextual [goesOn]
          simp only [readExpressionWithin, readName?_append isName stops, readCall?_eq_none ends]
      | @call name front inner back arguments isName before spelled after =>
          have closed : ∀ text, readExpressionWithin depth (')' :: text) = none := by
            intro text
            have noName : readName? (')' :: text) = none := readName?_eq_none (by simp; decide)
            cases depth <;> simp [readExpressionWithin, noName]
          simp only [List.length_append, List.length_cons] at short
          have read := readCall?_spelled ih closed spelled (by omega) before after rest
          have opened : Stops isNameChar
              ('(' :: (front ++ (inner ++ (back ++ ')' :: rest)))) := by
            simp only [stops_cons]
            decide
          simp [readExpressionWithin, readName?_append isName opened, read]

theorem readExpression?_spelled {text rest : List Char} {node : Node}
    (spelled : Spells text node) (ends : Stops goesOn rest) :
    readExpression? (text ++ rest) = some (node, rest) := by
  refine readExpressionWithin_spelled _ text node rest spelled ?_ ends
  rw [List.length_append]
  omega

/-! What is read stands in the grammar. -/

theorem readName?_sound {text rest : List Char} {name : String}
    (read : readName? text = some (name, rest)) : IsName name ∧ text = name.toList ++ rest := by
  unfold readName? at read
  split at read
  · cases read
  · rename_i some
    cases read
    rw [IsName, String.toList_ofList]
    exact ⟨⟨some, List.all_eq_true.mp List.all_takeWhile⟩, List.takeWhile_append_dropWhile.symm⟩

def Sound (argument? : List Char → Option (Node × List Char)) : Prop :=
  ∀ text node rest, argument? text = some (node, rest) →
    ∃ front, Spells front node ∧ text = front ++ rest

theorem readArguments_sound (sound : Sound argument?) {steps : Nat} {text rest : List Char}
    {nodes : List Node} (read : readArguments argument? steps text = (nodes, rest)) :
    ∃ front, SpellsFurther front nodes ∧ text = front ++ rest := by
  induction steps generalizing text nodes with
  | zero =>
      cases read
      exact ⟨[], .nil, rfl⟩
  | succ steps ih =>
      unfold readArguments at read
      split at read
      · rename_i behind comma
        split at read
        · rename_i node left first
          cases read
          obtain ⟨front, before, split⟩ := blank_trimStart text
          obtain ⟨back, after, splitBehind⟩ := blank_trimStart behind
          obtain ⟨argument, next, splitFirst⟩ := sound _ _ _ first
          obtain ⟨further, others, splitLeft⟩ := ih (Prod.ext rfl rfl)
          refine ⟨_, .cons before after next others, ?_⟩
          rw [split, comma, splitBehind, splitFirst]
          simpa using splitLeft
        · cases read
          exact ⟨[], .nil, rfl⟩
      · cases read
        exact ⟨[], .nil, rfl⟩

theorem readCall?_sound (sound : Sound argument?) {text rest : List Char} {nodes : List Node}
    (read : readCall? argument? text = some (nodes, rest)) :
    ∃ front inner back, Blank front ∧ SpellsAll inner nodes ∧ Blank back ∧
      text = '(' :: (front ++ (inner ++ (back ++ ')' :: rest))) := by
  unfold readCall? at read
  split at read
  · rename_i behind
    obtain ⟨front, before, split⟩ := blank_trimStart behind
    cases first : argument? (trimStart behind) with
    | none =>
        simp only [first] at read
        split at read
        · rename_i left closed
          cases read
          obtain ⟨back, after, splitBehind⟩ := blank_trimStart (trimStart behind)
          exact ⟨front, [], back, before, .nil, after, by rw [split, splitBehind, closed]; rfl⟩
        · cases read
    | some read' =>
        obtain ⟨node, left⟩ := read'
        simp only [first] at read
        split at read
        · rename_i closing closed
          cases read
          obtain ⟨argument, spelled, splitFirst⟩ := sound _ _ _ first
          obtain ⟨further, others, splitLeft⟩ :=
            readArguments_sound sound (Prod.ext rfl rfl : readArguments argument? _ left = _)
          obtain ⟨back, after, splitBehind⟩ :=
            blank_trimStart (readArguments argument? left.length left).2
          refine ⟨front, _, back, before, .cons spelled others, after, ?_⟩
          rw [split, splitFirst, splitLeft, splitBehind, closed]
          simp
        · cases read
  · cases read

theorem readExpressionWithin_sound (depth : Nat) : Sound (readExpressionWithin depth) := by
  induction depth with
  | zero =>
      intro text node rest read
      cases read
  | succ depth ih =>
      intro text node rest read
      unfold readExpressionWithin at read
      split at read
      · cases read
      · rename_i name behind named
        obtain ⟨isName, rfl⟩ := readName?_sound named
        split at read
        · rename_i arguments left called
          cases read
          obtain ⟨front, inner, back, before, spelled, after, rfl⟩ := readCall?_sound ih called
          exact ⟨_, .call isName before spelled after, by simp⟩
        · cases read
          exact ⟨_, .name isName, rfl⟩

/-- A placeable is read at the front of a text exactly where one stands there. -/
theorem read?_eq_some_iff {text rest : List Char} {node : Node} :
    read? text = some (node, rest) ↔ ∃ piece, IsPlaceable piece node ∧ text = piece ++ rest := by
  constructor
  · intro read
    unfold read? at read
    split at read
    · rename_i behind
      split at read
      · cases read
      · rename_i found left expression
        split at read
        · rename_i closing closed
          cases read
          obtain ⟨front, before, split⟩ := blank_trimStart behind
          obtain ⟨body, spelled, splitBody⟩ := readExpressionWithin_sound _ _ _ _ expression
          obtain ⟨back, after, splitLeft⟩ := blank_trimStart left
          refine ⟨_, .braced before spelled after, ?_⟩
          rw [split, splitBody, splitLeft, closed]
          simp
        · cases read
    · cases read
  · rintro ⟨piece, placeable, rfl⟩
    cases placeable with
    | @braced front body back _ before spelled after =>
        have closing : Stops isWhiteSpace ('}' :: '}' :: rest) := by simp
        have ends : Stops goesOn (back ++ '}' :: '}' :: rest) := by
          refine after.stops ?_
          simp only [stops_cons]
          decide
        have opened := trimStart_blank before (spelled.stops (back ++ '}' :: '}' :: rest))
        have expression := readExpression?_spelled spelled ends
        simp [read?, opened, expression, trimStart_blank after closing]

theorem Spells.ends {text : List Char} {node : Node} (spelled : Spells text node) :
    Stops isWhiteSpace text.reverse := by
  cases spelled with
  | @name name isName =>
      intro c last
      apply not_isWhiteSpace_of_isNameChar
      apply isName.2 c
      exact List.mem_reverse.mp (List.mem_of_mem_head? last)
  | call isName before spelled after =>
      simp only [List.reverse_append, List.reverse_cons, List.reverse_nil, List.nil_append,
        List.cons_append, List.append_assoc, stops_cons]
      decide

end Placeable

open Placeable

theorem Text.blank_trim (text : List Char) :
    ∃ front back, Blank front ∧ Blank back ∧ text = front ++ (trim text ++ back) := by
  obtain ⟨front, before, split⟩ := blank_trimStart text
  obtain ⟨back, after, splitBehind⟩ := blank_trimStart (trimStart text).reverse
  refine ⟨front, back.reverse, before, fun c member => after c (List.mem_reverse.mp member), ?_⟩
  have rest := congrArg List.reverse splitBehind
  rw [List.reverse_reverse, List.reverse_append] at rest
  rw [trim, trimEnd, ← rest]
  exact split

theorem Node.ofExpression?_eq_some_iff {text : List Char} {node : Node} :
    Node.ofExpression? text = some node ↔
      ∃ front body back, Blank front ∧ Spells body node ∧ Blank back ∧
        text = front ++ (body ++ back) := by
  constructor
  · intro read
    obtain ⟨front, back, before, after, split⟩ := blank_trim text
    unfold Node.ofExpression? at read
    split at read
    · rename_i found expression
      cases read
      obtain ⟨body, spelled, whole⟩ := readExpressionWithin_sound _ _ _ _ expression
      rw [List.append_nil] at whole
      exact ⟨front, body, back, before, whole ▸ spelled, after, whole ▸ split⟩
    · cases read
  · rintro ⟨front, body, back, before, spelled, after, rfl⟩
    have read : readExpression? body = some (node, []) := by
      simpa using readExpression?_spelled spelled stops_nil
    have trimmed : trim (front ++ (body ++ back)) = body := by
      rw [trim, trimStart_blank before (spelled.stops back), trimEnd_blank spelled.ends after]
    simp [Node.ofExpression?, trimmed, read]

end Phrasebook
