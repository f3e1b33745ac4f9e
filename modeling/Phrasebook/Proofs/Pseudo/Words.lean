import Mathlib.Data.List.SplitBy
import Phrasebook.Proofs.Pseudo.Markup

namespace Phrasebook.Pseudo

open Phrasebook.Text

/-- A character of a text, in its markup or outside. -/
structure Spot where
  char : Char
  inMarkup : Bool
deriving DecidableEq

def Spot.inWord (spot : Spot) : Bool :=
  !spot.inMarkup && isWordChar spot.char

/-- What stands in its place in a flipped text. -/
def Spot.image (spot : Spot) : Char :=
  if spot.inMarkup then spot.char else flips.letter spot.char

def Segment.spots : Segment → List Spot
  | .text chars => chars.map (⟨·, false⟩)
  | .markup chars => chars.map (⟨·, true⟩)

def spots (parts : List Segment) : List Spot :=
  parts.flatMap Segment.spots

/-- A text cut where a word begins and where one ends, and nowhere else. -/
structure Stretched (whole : List Spot) (runs : List (List Spot)) : Prop where
  flatten : runs.flatten = whole
  nonempty : [] ∉ runs
  uniform : ∀ run ∈ runs, ∃ word, ∀ spot ∈ run, spot.inWord = word
  maximal : runs.IsChain fun run next => ∀ left ∈ run, ∀ right ∈ next, left.inWord ≠ right.inWord

def isWord (run : List Spot) : Bool :=
  run.any Spot.inWord

def enclosed (run : List Spot) : List Char :=
  if isWord run then overrideMark :: (run.map Spot.image ++ [popMark]) else run.map Spot.image

/-- The whole text is flipped in one go. -/
def flipSpots : (inWord : Bool) → List Spot → List Char
  | inWord, [] => if inWord then [popMark] else []
  | inWord, spot :: rest =>
      let marks :=
        if spot.inWord && !inWord then [overrideMark]
        else if !spot.inWord && inWord then [popMark]
        else []
      marks ++ spot.image :: flipSpots spot.inWord rest

def Outside (spots : List Spot) : Prop :=
  ∀ spot ∈ spots.head?, spot.inWord = false

variable {c : Char} {text : List Char} {parts : List Segment} {spot : Spot}
  {run rest whole : List Spot} {runs : List (List Spot)}

@[simp] theorem inWord_text (c : Char) : Spot.inWord ⟨c, false⟩ = isWordChar c :=
  rfl

@[simp] theorem inWord_markup (c : Char) : Spot.inWord ⟨c, true⟩ = false :=
  rfl

@[simp] theorem image_text (c : Char) : Spot.image ⟨c, false⟩ = flips.letter c :=
  rfl

theorem Segment.map_char_spots (part : Segment) : part.spots.map Spot.char = part.chars := by
  cases part with
  | text chars => exact (List.map_map ..).trans (List.map_id _)
  | markup chars => exact (List.map_map ..).trans (List.map_id _)

theorem map_char_spots (parts : List Segment) :
    (spots parts).map Spot.char = parts.flatMap Segment.chars := by
  rw [spots, List.map_flatMap]
  exact List.flatMap_congr fun part _ => part.map_char_spots

section Stretches

theorem flipSpots_of_outside (outside : Outside rest) (inWord : Bool) :
    flipSpots inWord rest = (if inWord then [popMark] else []) ++ flipSpots false rest := by
  cases rest with
  | nil => simp [flipSpots]
  | cons spot rest =>
      have notWord : spot.inWord = false := outside spot rfl
      cases inWord <;> simp [flipSpots, notWord]

theorem flipSpots_append_of_uniform {word : Bool} (uniform : ∀ spot ∈ run, spot.inWord = word)
    (rest : List Spot) :
    flipSpots word (run ++ rest) = run.map Spot.image ++ flipSpots word rest := by
  induction run with
  | nil => rfl
  | cons spot run ih =>
      obtain ⟨here, later⟩ := List.forall_mem_cons.mp uniform
      simp [flipSpots, here, ih later]

theorem flipSpots_append_word (nonempty : run ≠ []) (within : ∀ spot ∈ run, spot.inWord = true)
    (outside : Outside rest) :
    flipSpots false (run ++ rest) =
      overrideMark :: (run.map Spot.image ++ [popMark]) ++ flipSpots false rest := by
  obtain ⟨spot, run, rfl⟩ := List.exists_cons_of_ne_nil nonempty
  obtain ⟨here, later⟩ := List.forall_mem_cons.mp within
  simp [flipSpots, here, flipSpots_append_of_uniform later, flipSpots_of_outside outside true]

theorem isWord_eq (nonempty : run ≠ []) {word : Bool} (uniform : ∀ spot ∈ run, spot.inWord = word) :
    isWord run = word := by
  obtain ⟨spot, run, rfl⟩ := List.exists_cons_of_ne_nil nonempty
  obtain ⟨here, later⟩ := List.forall_mem_cons.mp uniform
  cases word with
  | true => simp [isWord, here]
  | false => simpa [isWord, here] using later

namespace Stretched

theorem head_ne_nil (stretched : Stretched whole (run :: runs)) : run ≠ [] :=
  fun none => stretched.nonempty (none ▸ List.mem_cons_self)

theorem tail (stretched : Stretched whole (run :: runs)) : Stretched runs.flatten runs where
  flatten := rfl
  nonempty member := stretched.nonempty (List.mem_cons_of_mem run member)
  uniform next member := stretched.uniform next (List.mem_cons_of_mem run member)
  maximal := stretched.maximal.tail

theorem outside_of_word (stretched : Stretched whole (run :: runs))
    (within : ∀ spot ∈ run, spot.inWord = true) : Outside runs.flatten := by
  cases runs with
  | nil => exact nofun
  | cons next runs =>
      obtain ⟨last, run, rfl⟩ := List.exists_cons_of_ne_nil stretched.head_ne_nil
      obtain ⟨first, next, rfl⟩ := List.exists_cons_of_ne_nil stretched.tail.head_ne_nil
      obtain ⟨border, -⟩ := List.isChain_cons_cons.mp stretched.maximal
      have differ := border last List.mem_cons_self first List.mem_cons_self
      intro spot begins
      obtain rfl : first = spot := Option.some.inj begins
      rw [within last List.mem_cons_self] at differ
      exact Bool.eq_false_iff.mpr (Ne.symm differ)

/-- Flipping a text encloses each of its words. -/
theorem flipSpots_eq (stretched : Stretched whole runs) :
    flipSpots false whole = runs.flatMap enclosed := by
  induction runs generalizing whole with
  | nil =>
      rw [← stretched.flatten]
      rfl
  | cons run runs ih =>
      have nonempty := stretched.head_ne_nil
      obtain ⟨word, uniform⟩ := stretched.uniform run List.mem_cons_self
      rw [← stretched.flatten, List.flatten_cons, List.flatMap_cons, ← ih stretched.tail, enclosed,
        isWord_eq nonempty uniform]
      cases word with
      | true => exact flipSpots_append_word nonempty uniform (stretched.outside_of_word uniform)
      | false => exact flipSpots_append_of_uniform uniform _

end Stretched

theorem exists_stretched (whole : List Spot) : ∃ runs, Stretched whole runs := by
  let alike (left right : Spot) : Bool := left.inWord == right.inWord
  have uniform : ∀ run ∈ whole.splitBy alike, ∃ word, ∀ spot ∈ run, spot.inWord = word := by
    intro run member
    have chain : (run.map Spot.inWord).IsChain (· = ·) :=
      (List.isChain_map _).mpr ((List.isChain_of_mem_splitBy member).imp fun _ _ => eq_of_beq)
    cases run with
    | nil => exact ⟨false, nofun⟩
    | cons first run =>
        have same := List.pairwise_cons.mp (List.isChain_iff_pairwise.mp chain)
        refine ⟨first.inWord, List.forall_mem_cons.mpr ⟨rfl, fun spot later => ?_⟩⟩
        exact (same.1 _ (List.mem_map_of_mem later)).symm
  refine ⟨whole.splitBy alike, List.flatten_splitBy alike whole,
    List.nil_notMem_splitBy alike whole, uniform, ?_⟩
  refine (List.isChain_getLast_head_splitBy alike whole).imp_of_mem_imp ?_
  intro run next member memberNext border left inRun right inNext
  obtain ⟨nonempty, nonemptyNext, differ⟩ := border
  obtain ⟨word, same⟩ := uniform run member
  obtain ⟨wordNext, sameNext⟩ := uniform next memberNext
  have words := beq_eq_false_iff_ne.mp differ
  rw [same _ (List.getLast_mem nonempty), sameNext _ (List.head_mem nonemptyNext)] at words
  rwa [same left inRun, sameNext right inNext]

end Stretches

section Cutting

theorem flipSpots_text (text : List Char) (outside : Outside rest) (inWord : Bool) :
    flipSpots inWord (text.map (⟨·, false⟩) ++ rest) =
      flipFrom inWord text ++ flipSpots false rest := by
  induction text generalizing inWord with
  | nil => exact flipSpots_of_outside outside inWord
  | cons c text ih =>
      rw [List.map_cons, List.cons_append, flipSpots, inWord_text, ih]
      simp [flipFrom]

namespace Segmented

theorem mem_of_mem_spots (segmented : Segmented text parts) (member : spot ∈ spots parts) :
    spot.char ∈ text := by
  rw [← segmented.flatMap_chars, ← map_char_spots]
  exact List.mem_map_of_mem member

theorem mem_of_mem_markups {markup : List Char} (segmented : Segmented text parts)
    (listed : markup ∈ markups parts) (member : c ∈ markup) : c ∈ text := by
  obtain ⟨part, inParts, isMarkup⟩ := List.mem_filterMap.mp listed
  cases part with
  | text => cases isMarkup
  | markup =>
      cases isMarkup
      rw [← segmented.flatMap_chars]
      exact List.mem_flatMap.mpr ⟨_, inParts, member⟩

theorem outside_of_stops (segmented : Segmented text parts) (stops : Stops (!opensMarkup ·) text) :
    Outside (spots parts) := by
  have chars : (spots parts).map Spot.char = text :=
    (map_char_spots parts).trans segmented.flatMap_chars
  intro spot begins
  have first : text.head? = some spot.char := by
    rw [← chars, List.head?_map, begins, Option.map_some]
  have opens : opensMarkup spot.char = true := by simpa using stops spot.char first
  rw [Spot.inWord, isWordChar_of_opens opens, Bool.and_false]

/-- Cutting a text into segments does not show when it is flipped. -/
theorem flipSpots_eq (segmented : Segmented text parts) :
    flipSpots false (spots parts) = parts.flatMap Pseudo.flipped.disguiseSegment := by
  induction segmented with
  | done => rfl
  | @markup markup rest parts _ later ih =>
      have outside : ∀ spot ∈ (Segment.markup markup).spots, spot.inWord = false := by
        simp [Segment.spots]
      rw [spots, List.flatMap_cons, flipSpots_append_of_uniform outside, List.flatMap_cons,
        disguiseSegment, Segment.spots, List.map_map]
      exact congr (congrArg _ (List.map_id _)) ih
  | @stray c rest parts opens unopened later ih =>
      have notWord : isWordChar c = false := isWordChar_of_opens opens
      have outside : ∀ spot ∈ (Segment.text [c]).spots, spot.inWord = false :=
        List.forall_mem_singleton.mpr notWord
      have kept : flips.letter c = c := flips.letter_of_not_alpha (not_alpha_of_not_word notWord)
      rw [spots, List.flatMap_cons, flipSpots_append_of_uniform outside, List.flatMap_cons,
        disguiseSegment, disguiseText_cons _ notWord, disguiseText_nil]
      exact congr (congrArg _ (congrArg List.singleton kept)) ih
  | @run front rest parts nonempty plain stops later ih =>
      rw [List.flatMap_cons, ← ih]
      exact flipSpots_text front (later.outside_of_stops stops) false

end Segmented

theorem disguise_flipped_eq (text : String) {runs : List (List Spot)}
    (stretched : Stretched (spots (segments text.toList)) runs) :
    (Pseudo.flipped.disguise text).toList = runs.flatMap enclosed := by
  rw [← stretched.flipSpots_eq, (segmented_segments text.toList).flipSpots_eq]
  exact String.toList_ofList

end Cutting

section Marks

theorem isMark_flips_letter (c : Char) (unmarked : isMark c = false) :
    isMark (flips.letter c) = false := by
  obtain listed | same := letter_mem_or_eq flips_complete c
  · have all : (flips.upper ++ flips.lower).all (!isMark ·) = true := by decide
    simpa using List.all_eq_true.mp all _ listed
  · rwa [same]

theorem Spot.isMark_image (unmarked : isMark spot.char = false) : isMark spot.image = false := by
  cases inMarkup : spot.inMarkup with
  | true => simpa [image, inMarkup] using unmarked
  | false => simpa [image, inMarkup] using isMark_flips_letter spot.char unmarked

theorem filter_isMark_enclosed (unmarked : ∀ spot ∈ run, isMark spot.char = false) :
    (enclosed run).filter isMark = if isWord run then [overrideMark, popMark] else [] := by
  have images : (run.map Spot.image).filter isMark = [] := by
    rw [List.filter_eq_nil_iff]
    intro c member
    obtain ⟨spot, inRun, rfl⟩ := List.mem_map.mp member
    simp [Spot.isMark_image (unmarked spot inRun)]
  rw [enclosed]
  split
  · rw [List.filter_cons_of_pos (by decide), List.filter_append, images]
    rfl
  · exact images

theorem filter_isMark_flatMap (unmarked : ∀ spot ∈ runs.flatten, isMark spot.char = false) :
    (runs.flatMap enclosed).filter isMark =
      (runs.filter isWord).flatMap fun _ => [overrideMark, popMark] := by
  induction runs with
  | nil => rfl
  | cons run runs ih =>
      rw [List.flatten_cons, List.forall_mem_append] at unmarked
      rw [List.flatMap_cons, List.filter_append, ih unmarked.2, filter_isMark_enclosed unmarked.1]
      cases word : isWord run <;> simp [word]

end Marks

end Phrasebook.Pseudo
