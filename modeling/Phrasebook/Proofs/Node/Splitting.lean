import Phrasebook.Proofs.Node.Grammar

namespace Phrasebook

namespace Placeable

def StartsPlaceable (text : List Char) : Prop :=
  ∃ piece node, IsPlaceable piece node ∧ piece <+: text

/-- No placeable starts at any position in a piece, even if it would end in what follows. -/
def Barren (piece rest : List Char) : Prop :=
  ∀ left, left ≠ [] → left <:+ piece → ¬ StartsPlaceable (left ++ rest)

/-- The nodes of a text that is cut into pieces from left to right. A piece is a placeable, or it is
literal: then no placeable starts in it, and the piece after it is not literal. -/
inductive Decomposes : List Char → List Node → Prop
  | nil : Decomposes [] []
  | placeable {piece rest : List Char} {node : Node} {nodes : List Node}
      (isPlaceable : IsPlaceable piece node) (others : Decomposes rest nodes) :
      Decomposes (piece ++ rest) (node :: nodes)
  | literal {piece rest : List Char} {nodes : List Node} (nonempty : piece ≠ [])
      (barren : Barren piece rest) (apart : ∀ node ∈ nodes.head?, node.isRaw = false)
      (others : Decomposes rest nodes) :
      Decomposes (piece ++ rest) (.raw (String.ofList piece) :: nodes)

@[simp] theorem barren_nil {rest : List Char} : Barren [] rest :=
  fun _ nonempty suffix => absurd (List.suffix_nil.mp suffix) nonempty

@[simp] theorem barren_cons {c : Char} {piece rest : List Char} :
    Barren (c :: piece) rest ↔ ¬ StartsPlaceable (c :: (piece ++ rest)) ∧ Barren piece rest := by
  constructor
  · intro barren
    refine ⟨barren (c :: piece) (by simp) (List.suffix_refl _), fun left nonempty suffix => ?_⟩
    exact barren left nonempty (suffix.trans (List.suffix_cons c piece))
  · rintro ⟨here, later⟩ left nonempty suffix
    obtain rfl | inside := List.suffix_cons_iff.mp suffix
    · exact here
    · exact later left nonempty inside

theorem IsPlaceable.isRaw {piece : List Char} {node : Node} (placeable : IsPlaceable piece node) :
    node.isRaw = false := by
  cases placeable with
  | braced _ spelled _ => cases spelled <;> rfl

theorem IsPlaceable.length_pos {piece : List Char} {node : Node}
    (placeable : IsPlaceable piece node) : 0 < piece.length := by
  cases placeable
  exact Nat.succ_pos _

theorem read?_eq_none_iff {text : List Char} : read? text = none ↔ ¬ StartsPlaceable text := by
  rw [Option.eq_none_iff_forall_ne_some]
  constructor
  · rintro unread ⟨piece, node, placeable, rest, rfl⟩
    exact unread _ (read?_eq_some_iff.mpr ⟨piece, placeable, rfl⟩)
  · rintro barren ⟨node, rest⟩ read
    obtain ⟨piece, placeable, rfl⟩ := read?_eq_some_iff.mp read
    exact barren ⟨piece, node, placeable, rest, rfl⟩

theorem partsWithin_placeable {piece : List Char} {node : Node}
    (placeable : IsPlaceable piece node) (steps : Nat) (rest : List Char) :
    partsWithin (steps + 1) (piece ++ rest) = .placeable node :: partsWithin steps rest := by
  have read : read? (piece ++ rest) = some (node, rest) :=
    read?_eq_some_iff.mpr ⟨piece, placeable, rfl⟩
  obtain ⟨c, tail, same⟩ := List.exists_cons_of_length_pos placeable.length_pos
  rw [same] at read ⊢
  simp only [List.cons_append] at read ⊢
  simp only [partsWithin, read]

theorem partsWithin_literal {c : Char} {rest : List Char} (barren : ¬ StartsPlaceable (c :: rest))
    (steps : Nat) : partsWithin (steps + 1) (c :: rest) = .literal c :: partsWithin steps rest := by
  simp only [partsWithin, read?_eq_none_iff.mpr barren]

theorem Decomposes.cons_literal {c : Char} {rest : List Char} {parts : List Part}
    (barren : ¬ StartsPlaceable (c :: rest)) (decomposed : Decomposes rest (join parts)) :
    Decomposes (c :: rest) (join (.literal c :: parts)) := by
  have alone : Barren [c] rest := barren_cons.mpr ⟨barren, barren_nil⟩
  simp only [join]
  -- Whether there is one is seen in the nodes of the rest alone.
  generalize join parts = nodes at decomposed
  cases decomposed with
  | nil => exact .literal (by simp) alone (by simp) .nil
  | @placeable piece rest node nodes placeable others =>
      have behind : Decomposes (piece ++ rest) (node :: nodes) := .placeable placeable others
      have apart : ∀ first ∈ (node :: nodes).head?, first.isRaw = false := by
        simpa using placeable.isRaw
      have step := Decomposes.literal (by simp) alone apart behind
      cases node with
      | raw => cases placeable.isRaw
      | _ => exact step
  | @literal piece rest nodes nonempty later apart others =>
      have longer : Barren (c :: piece) rest := barren_cons.mpr ⟨barren, later⟩
      have step := Decomposes.literal (by simp) longer apart others
      simpa using step

theorem decomposes_partsWithin {steps : Nat} {text : List Char} (enough : text.length ≤ steps) :
    Decomposes text (join (partsWithin steps text)) := by
  induction steps generalizing text with
  | zero =>
      obtain rfl := List.length_eq_zero_iff.mp (Nat.le_zero.mp enough)
      exact .nil
  | succ steps ih =>
      cases text with
      | nil => exact .nil
      | cons c rest =>
          by_cases starts : StartsPlaceable (c :: rest)
          · obtain ⟨piece, node, placeable, left, split⟩ := starts
            have shorter := congrArg List.length split
            have long := placeable.length_pos
            simp only [List.length_append, List.length_cons] at shorter enough
            rw [← split, partsWithin_placeable placeable]
            exact .placeable placeable (ih (by omega))
          · rw [partsWithin_literal starts]
            exact .cons_literal starts (ih (Nat.le_of_succ_le_succ enough))

theorem partsWithin_barren {piece rest : List Char} (barren : Barren piece rest) (steps : Nat) :
    partsWithin (steps + piece.length) (piece ++ rest) =
      piece.map .literal ++ partsWithin steps rest := by
  induction piece with
  | nil => rfl
  | cons c piece ih =>
      obtain ⟨here, later⟩ := barren_cons.mp barren
      rw [List.length_cons, ← Nat.add_assoc, List.cons_append, partsWithin_literal here, ih later]
      rfl

theorem join_literals {piece : List Char} (nonempty : piece ≠ []) {parts : List Part}
    (apart : ∀ node ∈ (join parts).head?, node.isRaw = false) :
    join (piece.map .literal ++ parts) = .raw (String.ofList piece) :: join parts := by
  induction piece with
  | nil => exact absurd rfl nonempty
  | cons c piece ih =>
      cases piece with
      | nil =>
          simp only [List.map_cons, List.map_nil, List.cons_append, List.nil_append, join]
          split
          · rename_i same
            rw [same] at apart
            exact absurd (apart _ rfl) (by simp [Node.isRaw])
          · rfl
      | cons next piece =>
          rw [List.map_cons, List.cons_append, join, ih (by simp)]
          simp

/-- A text is cut in one way only. -/
theorem Decomposes.join_partsWithin {text : List Char} {nodes : List Node}
    (decomposed : Decomposes text nodes) {steps : Nat} (enough : text.length ≤ steps) :
    join (partsWithin steps text) = nodes := by
  induction decomposed generalizing steps with
  | nil => cases steps <;> rfl
  | placeable placeable _ ih =>
      have long := placeable.length_pos
      rw [List.length_append] at enough
      have positive : steps ≠ 0 := by omega
      obtain ⟨steps, rfl⟩ := Nat.exists_eq_succ_of_ne_zero positive
      rw [partsWithin_placeable placeable, join, ih (by omega)]
  | literal nonempty barren apart _ ih =>
      rw [List.length_append] at enough
      obtain ⟨steps, rfl⟩ := Nat.exists_eq_add_of_le' (Nat.le_of_add_right_le enough)
      have later := @ih steps (by omega)
      rw [partsWithin_barren barren, join_literals nonempty (by rwa [later]), later]

theorem hasBraces_append {rest : List Char} (braces : hasBraces rest = true) (front : List Char) :
    hasBraces (front ++ rest) = true := by
  induction front with
  | nil => exact braces
  | cons c front ih =>
      rw [List.cons_append]
      unfold hasBraces
      split
      · rfl
      · simp_all
      · simp_all

theorem Decomposes.hasBraces {text : List Char} {nodes : List Node}
    (decomposed : Decomposes text nodes) (found : ∃ node ∈ nodes, node.isRaw = false) :
    hasBraces text = true := by
  induction decomposed with
  | nil => simp at found
  | placeable placeable _ _ =>
      cases placeable
      rfl
  | literal _ _ _ _ ih =>
      obtain ⟨node, member, expression⟩ := found
      obtain rfl | later := List.mem_cons.mp member
      · cases expression
      · exact hasBraces_append (ih ⟨node, later, expression⟩) _

end Placeable

open Placeable

theorem decomposes_splitPlaceables (text : String) :
    Decomposes text.toList (splitPlaceables text) :=
  decomposes_partsWithin (Nat.le_refl _)

theorem splitPlaceables_of_decomposes {text : String} {nodes : List Node}
    (decomposed : Decomposes text.toList nodes) : splitPlaceables text = nodes :=
  decomposed.join_partsWithin (Nat.le_refl _)

/-- The nodes that a text is split into are those of its one decomposition, and it has placeables
where one of them is an expression. -/
theorem splitPlaceables_exact (text : String) :
    (∀ nodes, splitPlaceables text = nodes ↔ Decomposes text.toList nodes) ∧
      (hasPlaceables text = true ↔ ∃ node ∈ splitPlaceables text, node.isRaw = false) := by
  refine ⟨fun nodes => ⟨?_, splitPlaceables_of_decomposes⟩, ?_⟩
  · rintro rfl
    exact decomposes_splitPlaceables text
  · have someExpression : (splitPlaceables text).any (fun node => !node.isRaw) = true ↔
        ∃ node ∈ splitPlaceables text, node.isRaw = false := by
      simp
    rw [hasPlaceables, Bool.and_eq_true, someExpression]
    exact ⟨And.right, fun found => ⟨(decomposes_splitPlaceables text).hasBraces found, found⟩⟩

example : (splitPlaceables "\x7b\x7b\x7b n \x7d\x7d \x7b\x7b x y \x7d\x7d").map Node.isRaw =
    [true, false, true] := by
  decide +kernel

end Phrasebook
