import Mathlib.Data.List.GetD
import Phrasebook.Entry.Pseudo

namespace Phrasebook.Pseudo

def IsForeign (c : Char) : Prop :=
  128 ≤ c.toNat

instance (c : Char) : Decidable (IsForeign c) :=
  inferInstanceAs (Decidable (128 ≤ c.toNat))

variable {alphabet : Alphabet} {pseudo : Pseudo} {c d : Char} {text rest : List Char}

theorem isUpper_iff : c.isUpper = true ↔ 'A'.toNat ≤ c.toNat ∧ c.toNat ≤ 'Z'.toNat := by
  change decide ('A'.val ≤ c.val ∧ c.val ≤ 'Z'.val) = true ↔ _
  rw [decide_eq_true_iff]
  exact and_congr UInt32.le_iff_toNat_le UInt32.le_iff_toNat_le

theorem isLower_iff : c.isLower = true ↔ 'a'.toNat ≤ c.toNat ∧ c.toNat ≤ 'z'.toNat := by
  change (decide ('a'.val ≤ c.val) && decide (c.val ≤ 'z'.val)) = true ↔ _
  rw [Bool.and_eq_true, decide_eq_true_iff, decide_eq_true_iff]
  exact and_congr UInt32.le_iff_toNat_le UInt32.le_iff_toNat_le

theorem isDigit_iff : c.isDigit = true ↔ '0'.toNat ≤ c.toNat ∧ c.toNat ≤ '9'.toNat := by
  change (decide ('0'.val ≤ c.val) && decide (c.val ≤ '9'.val)) = true ↔ _
  rw [Bool.and_eq_true, decide_eq_true_iff, decide_eq_true_iff]
  exact and_congr UInt32.le_iff_toNat_le UInt32.le_iff_toNat_le

theorem isAlpha_iff : c.isAlpha = true ↔ c.isUpper = true ∨ c.isLower = true :=
  Bool.or_eq_true_iff

theorem Alphabet.letter_of_not_alpha (alphabet : Alphabet) (other : c.isAlpha = false) :
    alphabet.letter c = c := by
  obtain ⟨notUpper, notLower⟩ : c.isUpper = false ∧ c.isLower = false :=
    Bool.or_eq_false_iff.mp other
  simp [letter, notUpper, notLower]

theorem not_isForeign_of_isWordChar (word : isWordChar c = true) : ¬ IsForeign c := by
  simp only [isWordChar, Char.isAlphanum, Bool.or_eq_true, isAlpha_iff, isUpper_iff, isLower_iff,
    isDigit_iff, decide_eq_true_eq, Char.reduceToNat] at word
  unfold IsForeign
  rcases word with ((_ | _) | _) | rfl
  · omega
  · omega
  · omega
  · decide

/-- An alphabet has something for every letter. -/
structure Alphabet.Complete (alphabet : Alphabet) : Prop where
  upper : alphabet.upper.length = 26
  lower : alphabet.lower.length = 26

def place (c : Char) : Nat :=
  if c.isUpper then c.toNat - 'A'.toNat else 26 + (c.toNat - 'a'.toNat)

theorem getElem?_of_range {table : List Char} {low high : Char}
    (range : low.toNat ≤ c.toNat ∧ c.toNat ≤ high.toNat)
    (whole : table.length = high.toNat - low.toNat + 1) :
    table[c.toNat - low.toNat]? = some (table.getD (c.toNat - low.toNat) c) := by
  have inside : c.toNat - low.toNat < table.length := by omega
  rw [List.getD_eq_getElem _ _ inside, List.getElem?_eq_getElem inside]

namespace Alphabet.Complete

theorem getElem?_place (complete : alphabet.Complete) (alpha : c.isAlpha = true) :
    (alphabet.upper ++ alphabet.lower)[place c]? = some (alphabet.letter c) := by
  cases upper : c.isUpper with
  | true =>
      have found := getElem?_of_range (isUpper_iff.mp upper) complete.upper
      obtain ⟨inside, -⟩ := List.getElem?_eq_some_iff.mp found
      rw [place, letter, if_pos upper, if_pos upper, List.getElem?_append_left inside]
      exact found
  | false =>
      have lower : c.isLower = true := by simpa [isAlpha_iff, upper] using alpha
      have notUpper : ¬ c.isUpper = true := Bool.eq_false_iff.mp upper
      rw [place, letter, if_neg notUpper, if_neg notUpper, if_pos lower, ← complete.upper,
        List.getElem?_append_right (Nat.le_add_right _ _), Nat.add_sub_cancel_left]
      exact getElem?_of_range (isLower_iff.mp lower) complete.lower

theorem letter_mem (complete : alphabet.Complete) (alpha : c.isAlpha = true) :
    alphabet.letter c ∈ alphabet.upper ++ alphabet.lower :=
  List.mem_of_getElem? (complete.getElem?_place alpha)

end Alphabet.Complete

theorem accents_foreign : ∀ letter ∈ accents.upper ++ accents.lower, IsForeign letter := by
  -- decided along the list: a quantifier over characters could be decided for every character
  have all : (accents.upper ++ accents.lower).all (fun letter => IsForeign letter) = true := by
    decide
  exact fun letter member => of_decide_eq_true (List.all_eq_true.mp all letter member)

theorem flips_alpha_or_foreign :
    ∀ letter ∈ flips.upper ++ flips.lower, letter.isAlpha = true ∨ IsForeign letter := by
  have all : (flips.upper ++ flips.lower).all
      (fun letter => letter.isAlpha = true ∨ IsForeign letter) = true := by
    decide
  exact fun letter member => of_decide_eq_true (List.all_eq_true.mp all letter member)

theorem accents_complete : accents.Complete :=
  ⟨rfl, rfl⟩

theorem flips_complete : flips.Complete :=
  ⟨rfl, rfl⟩

theorem isAlpha_of_isVowel (vowel : isVowel c = true) : c.isAlpha = true := by
  cases upper : c.isUpper with
  | true => exact isAlpha_iff.mpr (.inl upper)
  | false =>
      have same : c.toLower = c := by
        unfold Char.toLower
        split
        · rename_i within
          have isUpper : c.isUpper = true := isUpper_iff.mpr
            ⟨UInt32.le_iff_toNat_le.mp within.1, UInt32.le_iff_toNat_le.mp within.2⟩
          rw [isUpper] at upper
          cases upper
        · rfl
      have listed : c ∈ ['a', 'e', 'i', 'o', 'u'] := by simpa [isVowel, same] using vowel
      simp only [List.mem_cons, List.not_mem_nil, or_false] at listed
      obtain rfl | rfl | rfl | rfl | rfl := listed <;> rfl

theorem accentChar_of_not_alpha (other : c.isAlpha = false) : accentChar c = [c] := by
  have consonant : isVowel c = false := by
    cases vowel : isVowel c with
    | true => rw [isAlpha_of_isVowel vowel] at other; cases other
    | false => rfl
  rw [accentChar, consonant, accents.letter_of_not_alpha other, if_neg Bool.false_ne_true]

theorem accentChar_eq_cons (c : Char) : ∃ more, accentChar c = accents.letter c :: more := by
  unfold accentChar
  split
  · exact ⟨_, rfl⟩
  · exact ⟨_, rfl⟩

theorem mem_accentChar : d ∈ accentChar c ↔ d = accents.letter c := by
  unfold accentChar
  split <;> simp

theorem not_alpha_of_not_word (outside : isWordChar c = false) : c.isAlpha = false := by
  cases alpha : c.isAlpha with
  | true => simp [isWordChar, Char.isAlphanum, alpha] at outside
  | false => rfl

@[simp] theorem disguiseText_nil (pseudo : Pseudo) : pseudo.disguiseText [] = [] := by
  cases pseudo <;> rfl

theorem disguiseText_cons (pseudo : Pseudo) (outside : isWordChar c = false) (rest : List Char) :
    pseudo.disguiseText (c :: rest) = c :: pseudo.disguiseText rest := by
  have other := not_alpha_of_not_word outside
  cases pseudo with
  | accented =>
      change (c :: rest).flatMap accentChar = _
      rw [List.flatMap_cons, accentChar_of_not_alpha other]
      rfl
  | flipped =>
      change flipFrom false (c :: rest) = _
      simp only [flipFrom, outside, flips.letter_of_not_alpha other]
      rfl

theorem disguiseText_cons_of_word (pseudo : Pseudo) (within : isWordChar c = true)
    (rest : List Char) :
    pseudo.disguiseText (c :: rest) = c :: pseudo.disguiseText rest ∨
      ∃ d more, pseudo.disguiseText (c :: rest) = d :: more ∧ IsForeign d := by
  cases pseudo with
  | accented =>
      change (c :: rest).flatMap accentChar = c :: rest.flatMap accentChar ∨
        ∃ d more, (c :: rest).flatMap accentChar = d :: more ∧ IsForeign d
      rw [List.flatMap_cons]
      cases alpha : c.isAlpha with
      | true =>
          obtain ⟨more, letter⟩ := accentChar_eq_cons c
          rw [letter]
          exact .inr ⟨_, _, rfl, accents_foreign _ (accents_complete.letter_mem alpha)⟩
      | false =>
          rw [accentChar_of_not_alpha alpha]
          exact .inl rfl
  | flipped =>
      refine .inr ⟨overrideMark, flips.letter c :: flipFrom true rest, ?_, by decide⟩
      change flipFrom false (c :: rest) = _
      simp [flipFrom, within]

theorem disguiseText_cons_cases (pseudo : Pseudo) (c : Char) (rest : List Char) :
    pseudo.disguiseText (c :: rest) = c :: pseudo.disguiseText rest ∨
      ∃ d more, pseudo.disguiseText (c :: rest) = d :: more ∧ IsForeign d := by
  cases word : isWordChar c with
  | true => exact disguiseText_cons_of_word pseudo word rest
  | false => exact .inl (disguiseText_cons pseudo word rest)

theorem letter_mem_or_eq (complete : alphabet.Complete) (c : Char) :
    alphabet.letter c ∈ alphabet.upper ++ alphabet.lower ∨ alphabet.letter c = c := by
  cases alpha : c.isAlpha with
  | true => exact .inl (complete.letter_mem alpha)
  | false => exact .inr (alphabet.letter_of_not_alpha alpha)

def isMark (c : Char) : Bool :=
  c = overrideMark || c = popMark

theorem isForeign_of_isMark (marked : isMark c = true) : IsForeign c := by
  obtain rfl | rfl : c = overrideMark ∨ c = popMark := by simpa [isMark] using marked
  · decide
  · decide

theorem flipFrom_cons (inWord : Bool) (c : Char) (rest : List Char) :
    ∃ marks, (∀ mark ∈ marks, isMark mark = true) ∧
      flipFrom inWord (c :: rest) = marks ++ flips.letter c :: flipFrom (isWordChar c) rest := by
  refine ⟨_, ?_, rfl⟩
  intro mark member
  cases inWord <;> cases word : isWordChar c <;> simp [word] at member <;> simp [member, isMark]

theorem mem_flipFrom {inWord : Bool} (member : d ∈ flipFrom inWord text) :
    d ∈ text ∨ d.isAlpha = true ∨ IsForeign d := by
  induction text generalizing inWord with
  | nil =>
      have mark : d = popMark := by
        cases inWord <;> simp [flipFrom] at member
        exact member
      exact .inr (.inr (mark ▸ by decide))
  | cons c rest ih =>
      obtain ⟨marks, areMarks, flipped⟩ := flipFrom_cons inWord c rest
      rw [flipped, List.mem_append, List.mem_cons] at member
      obtain isMark | rfl | later := member
      · exact .inr (.inr (isForeign_of_isMark (areMarks d isMark)))
      · obtain replaced | same := letter_mem_or_eq flips_complete c
        · exact .inr (flips_alpha_or_foreign _ replaced)
        · exact .inl (same.symm ▸ List.mem_cons_self)
      · exact (ih later).imp_left (List.mem_cons_of_mem c)

theorem mem_disguiseText (member : d ∈ pseudo.disguiseText text) :
    d ∈ text ∨ d.isAlpha = true ∨ IsForeign d := by
  cases pseudo with
  | accented =>
      obtain ⟨c, inText, isLetter⟩ := List.mem_flatMap.mp member
      obtain rfl := mem_accentChar.mp isLetter
      obtain replaced | same := letter_mem_or_eq accents_complete c
      · exact .inr (.inr (accents_foreign _ replaced))
      · exact .inl (same.symm ▸ inText)
  | flipped => exact mem_flipFrom member

end Phrasebook.Pseudo
