import Mathlib.Data.List.Nodup
import Phrasebook.Proofs.Pseudo.Words

namespace Phrasebook.Pseudo

/-- An alphabet has something of its own for every letter, and nothing that could be taken for
another character of ASCII. -/
structure Alphabet.Distinct (alphabet : Alphabet) : Prop extends alphabet.Complete where
  nodup : (alphabet.upper ++ alphabet.lower).Nodup
  alphaOrForeign :
    ∀ letter ∈ alphabet.upper ++ alphabet.lower, letter.isAlpha = true ∨ IsForeign letter

def IsAscii (text : List Char) : Prop :=
  ∀ c ∈ text, ¬ IsForeign c

instance (text : List Char) : Decidable (IsAscii text) :=
  decidable_of_iff (text.all fun c => ¬ IsForeign c) (by simp [IsAscii])

variable {alphabet : Alphabet} {c d : Char} {text left right : List Char}
  {parts others : List Segment}

theorem accents_distinct : accents.Distinct where
  toComplete := accents_complete
  nodup := by decide
  alphaOrForeign letter listed := .inr (accents_foreign letter listed)

theorem flips_distinct : flips.Distinct where
  toComplete := flips_complete
  nodup := by decide
  alphaOrForeign := flips_alpha_or_foreign

section Letters

theorem place_inj (alpha : c.isAlpha = true) (alphaToo : d.isAlpha = true)
    (same : place c = place d) : c = d := by
  rw [isAlpha_iff, isUpper_iff, isLower_iff] at alpha alphaToo
  refine Char.toNat_inj.mp ?_
  simp only [place, isUpper_iff, Char.reduceToNat] at *
  grind

theorem Alphabet.Distinct.letter_inj (distinct : alphabet.Distinct) (ascii : ¬ IsForeign c)
    (asciiToo : ¬ IsForeign d) (same : alphabet.letter c = alphabet.letter d) : c = d := by
  have apart {c d : Char} (alpha : c.isAlpha = true) (other : d.isAlpha = false)
      (ascii : ¬ IsForeign d) : alphabet.letter c ≠ alphabet.letter d := by
    intro same
    have listed := distinct.alphaOrForeign _ (distinct.letter_mem alpha)
    rw [same, alphabet.letter_of_not_alpha other, other] at listed
    exact listed.elim Bool.false_ne_true ascii
  cases alpha : c.isAlpha with
  | true =>
      cases alphaToo : d.isAlpha with
      | true =>
          have found := distinct.getElem?_place alpha
          have foundToo := distinct.getElem?_place alphaToo
          obtain ⟨inside, -⟩ := List.getElem?_eq_some_iff.mp found
          have places := found.trans ((congrArg some same).trans foundToo.symm)
          exact place_inj alpha alphaToo ((List.getElem?_inj inside distinct.nodup).mp places)
      | false => exact absurd same (apart alpha alphaToo asciiToo)
  | false =>
      cases alphaToo : d.isAlpha with
      | true => exact absurd same.symm (apart alphaToo alpha ascii)
      | false =>
          rwa [alphabet.letter_of_not_alpha alpha, alphabet.letter_of_not_alpha alphaToo] at same

end Letters

section Texts

/-- What begins with the letters of an alphabet can be read back. -/
theorem Alphabet.Distinct.flatMap_inj (distinct : alphabet.Distinct) {spelling : Char → List Char}
    (begins : ∀ c, ∃ more, spelling c = alphabet.letter c :: more) (ascii : IsAscii left)
    (asciiToo : IsAscii right) (same : left.flatMap spelling = right.flatMap spelling) :
    left = right := by
  induction left generalizing right with
  | nil =>
      cases right with
      | nil => rfl
      | cons d right =>
          obtain ⟨more, spelled⟩ := begins d
          simp [spelled] at same
  | cons c left ih =>
      obtain ⟨more, spelled⟩ := begins c
      cases right with
      | nil => simp [spelled] at same
      | cons d right =>
          obtain ⟨here, later⟩ := List.forall_mem_cons.mp ascii
          obtain ⟨hereToo, laterToo⟩ := List.forall_mem_cons.mp asciiToo
          obtain ⟨moreToo, spelledToo⟩ := begins d
          have letters : alphabet.letter c = alphabet.letter d := by
            simp only [List.flatMap_cons, spelled, spelledToo, List.cons_append] at same
            exact (List.cons.inj same).1
          obtain rfl := distinct.letter_inj here hereToo letters
          rw [ih later laterToo (List.append_cancel_left same)]

theorem filter_flipFrom (unmarked : ∀ c ∈ text, isMark c = false) (inWord : Bool) :
    (flipFrom inWord text).filter (!isMark ·) = text.flatMap fun c => [flips.letter c] := by
  induction text generalizing inWord with
  | nil => cases inWord <;> rfl
  | cons c text ih =>
      obtain ⟨here, later⟩ := List.forall_mem_cons.mp unmarked
      obtain ⟨marks, areMarks, flipped⟩ := flipFrom_cons inWord c text
      have dropped : marks.filter (!isMark ·) = [] :=
        List.filter_eq_nil_iff.mpr fun mark member => by simp [areMarks mark member]
      rw [flipped, List.filter_append, dropped, List.nil_append,
        List.filter_cons_of_pos (by simp [isMark_flips_letter c here]), ih later, List.flatMap_cons,
        List.singleton_append]

theorem IsAscii.unmarked (ascii : IsAscii text) : ∀ c ∈ text, isMark c = false :=
  fun c member => Bool.eq_false_iff.mpr fun marked => ascii c member (isForeign_of_isMark marked)

theorem disguiseText_inj (pseudo : Pseudo) (ascii : IsAscii left) (asciiToo : IsAscii right)
    (same : pseudo.disguiseText left = pseudo.disguiseText right) : left = right := by
  cases pseudo with
  | accented => exact accents_distinct.flatMap_inj accentChar_eq_cons ascii asciiToo same
  | flipped =>
      have letters := congrArg (List.filter (!isMark ·)) same
      change (flipFrom false left).filter _ = (flipFrom false right).filter _ at letters
      rw [filter_flipFrom ascii.unmarked, filter_flipFrom asciiToo.unmarked] at letters
      exact flips_distinct.flatMap_inj (fun c => ⟨[], rfl⟩) ascii asciiToo letters

end Texts

section Segments

theorem Segment.disguised_inj (pseudo : Pseudo) {part other : Segment} (ascii : IsAscii part.chars)
    (asciiToo : IsAscii other.chars) (same : part.disguised pseudo = other.disguised pseudo) :
    part = other := by
  cases part with
  | text chars =>
      cases other with
      | text otherChars =>
          exact congrArg _ (disguiseText_inj pseudo ascii asciiToo (Segment.text.inj same))
      | markup => cases same
  | markup chars =>
      cases other with
      | text => cases same
      | markup => exact same

theorem map_disguised_inj (pseudo : Pseudo) (ascii : IsAscii (parts.flatMap Segment.chars))
    (asciiToo : IsAscii (others.flatMap Segment.chars))
    (same : parts.map (Segment.disguised pseudo) = others.map (Segment.disguised pseudo)) :
    parts = others := by
  induction parts generalizing others with
  | nil => exact (List.map_eq_nil_iff.mp same.symm).symm
  | cons part parts ih =>
      obtain ⟨other, others, rfl, here, behind⟩ := List.map_eq_cons_iff.mp same.symm
      rw [List.flatMap_cons, IsAscii, List.forall_mem_append] at ascii asciiToo
      rw [Segment.disguised_inj pseudo ascii.1 asciiToo.1 here.symm,
        ih ascii.2 asciiToo.2 behind.symm]

theorem disguiseChars_inj (pseudo : Pseudo) (ascii : IsAscii left) (asciiToo : IsAscii right)
    (same : pseudo.disguiseChars left = pseudo.disguiseChars right) : left = right := by
  have segmented := segmented_segments left
  have segmentedToo := segmented_segments right
  have parts : (segments left).map (Segment.disguised pseudo) =
      (segments right).map (Segment.disguised pseudo) := by
    rw [← segments_eq_iff.mpr (segmented.disguised pseudo),
      ← segments_eq_iff.mpr (segmentedToo.disguised pseudo)]
    exact congrArg segments same
  rw [← segmented.flatMap_chars, ← segmentedToo.flatMap_chars]
  rw [← segmented.flatMap_chars] at ascii
  rw [← segmentedToo.flatMap_chars] at asciiToo
  rw [map_disguised_inj pseudo ascii asciiToo parts]

end Segments

/-- No text is lost. Under either strategy a text of ASCII can be told from what it is disguised as.
A flipped text has its marks in pairs, one for each word, and none in its markup: it is cut where a
word begins and where one ends, and just the words stand between the two marks. -/
theorem disguise_loses_no_text :
    (∀ (pseudo : Pseudo) (left right : String), IsAscii left.toList → IsAscii right.toList →
      pseudo.disguise left = pseudo.disguise right → left = right) ∧
    ∀ text : String, (∀ c ∈ text.toList, isMark c = false) →
      let disguised := (Pseudo.flipped.disguise text).toList
      (∀ markup ∈ markups (segments disguised), ∀ c ∈ markup, isMark c = false) ∧
      (∃ runs, Stretched (spots (segments text.toList)) runs) ∧
      ∀ runs, Stretched (spots (segments text.toList)) runs →
        disguised = runs.flatMap enclosed ∧
        disguised.filter isMark =
          (runs.filter isWord).flatMap fun _ => [overrideMark, popMark] := by
  constructor
  · intro pseudo left right ascii asciiToo same
    have chars := congrArg String.toList same
    rw [disguise, disguise, String.toList_ofList, String.toList_ofList] at chars
    exact String.toList_inj.mp (disguiseChars_inj pseudo ascii asciiToo chars)
  · intro text unmarked disguised
    have segmented : Segmented text.toList (segments text.toList) := segmented_segments text.toList
    refine ⟨?_, exists_stretched _, fun runs stretched => ?_⟩
    · have again :
          segments disguised = (segments text.toList).map (Segment.disguised .flipped) := by
        rw [← segments_eq_iff.mpr (segmented.disguised .flipped)]
        exact congrArg segments String.toList_ofList
      rw [again, markups_disguised]
      intro markup listed c member
      exact unmarked c (segmented.mem_of_mem_markups listed member)
    · have enclosing : disguised = runs.flatMap enclosed := disguise_flipped_eq text stretched
      refine ⟨enclosing, ?_⟩
      rw [enclosing, filter_isMark_flatMap]
      intro spot member
      rw [stretched.flatten] at member
      exact unmarked _ (segmented.mem_of_mem_spots member)

/-- Two words, two tags, and two pairs of marks. Texts that differ in the case of a letter stay
apart. -/
theorem two_words_marked :
    let text := "Go <b>up</b>!"
    let runs : List (List Spot) :=
      [[⟨'G', false⟩, ⟨'o', false⟩], [⟨' ', false⟩, ⟨'<', true⟩, ⟨'b', true⟩, ⟨'>', true⟩],
        [⟨'u', false⟩, ⟨'p', false⟩],
        [⟨'<', true⟩, ⟨'/', true⟩, ⟨'b', true⟩, ⟨'>', true⟩, ⟨'!', false⟩]]
    Stretched (spots (segments text.toList)) runs ∧
    (Pseudo.flipped.disguise text).toList = runs.flatMap enclosed ∧
    (Pseudo.flipped.disguise text).toList.filter isMark =
      [overrideMark, popMark, overrideMark, popMark] ∧
    Pseudo.accented.disguise "Polish" ≠ Pseudo.accented.disguise "polish" := by
  intro text runs
  have stretched : Stretched (spots (segments text.toList)) runs :=
    ⟨by decide, by decide, by decide, by decide⟩
  have ascii : IsAscii text.toList := by decide
  obtain ⟨enclosing, marks⟩ := (disguise_loses_no_text.2 text ascii.unmarked).2.2 runs stretched
  refine ⟨stretched, enclosing, marks, fun same => ?_⟩
  have equal := disguise_loses_no_text.1 .accented "Polish" "polish" (by decide) (by decide) same
  exact absurd equal (by decide)

end Phrasebook.Pseudo
