import Mathlib.Data.List.TakeWhile
import Phrasebook.Entry.Pseudo
import Phrasebook.Text.Span

/-! The segments of a literal text, told without the way they are found. -/

namespace Phrasebook.Pseudo

open Phrasebook.Text

/-- Tags and references. Neither can be empty, and a tag ends at its first closing bracket. -/
inductive IsMarkup : List Char → Prop
  | tag {body : List Char} (nonempty : body ≠ []) (within : '>' ∉ body) :
      IsMarkup ('<' :: (body ++ ['>']))
  | reference {body : List Char} (nonempty : body ≠ [])
      (within : ∀ c ∈ body, isReferenceChar c = true) : IsMarkup ('&' :: (body ++ [';']))

/-- No tag or reference begins where the text begins. -/
def Unopened (text : List Char) : Prop :=
  ∀ markup, IsMarkup markup → ¬ markup <+: text

/-- A text with the segments it is cut into. -/
inductive Segmented : List Char → List Segment → Prop
  | done : Segmented [] []
  | markup {markup rest : List Char} {parts : List Segment} (isMarkup : IsMarkup markup)
      (later : Segmented rest parts) : Segmented (markup ++ rest) (.markup markup :: parts)
  | stray {c : Char} {rest : List Char} {parts : List Segment} (opens : opensMarkup c = true)
      (unopened : Unopened (c :: rest)) (later : Segmented rest parts) :
      Segmented (c :: rest) (.text [c] :: parts)
  | run {front rest : List Char} {parts : List Segment} (nonempty : front ≠ [])
      (plain : ∀ c ∈ front, opensMarkup c = false) (stops : Stops (!opensMarkup ·) rest)
      (later : Segmented rest parts) : Segmented (front ++ rest) (.text front :: parts)

variable {text markup rest : List Char} {parts : List Segment} {steps : Nat}

theorem IsMarkup.opens (isMarkup : IsMarkup markup) :
    ∃ c body, markup = c :: body ∧ opensMarkup c = true := by
  cases isMarkup with
  | tag => exact ⟨_, _, rfl, rfl⟩
  | reference => exact ⟨_, _, rfl, rfl⟩

theorem readBody?_eq_some_iff {inBody : Char → Bool} {ending : Char} {body : List Char}
    (closes : inBody ending = false) :
    readBody? inBody ending text = some (body, rest) ↔
      body ≠ [] ∧ (∀ c ∈ body, inBody c = true) ∧ text = body ++ ending :: rest := by
  unfold readBody?
  constructor
  · intro read
    have whole := List.takeWhile_append_dropWhile (p := inBody) (l := text)
    have within : ∀ c ∈ text.takeWhile inBody, inBody c = true :=
      fun c member => List.mem_takeWhile_imp member
    cases front : text.takeWhile inBody with
    | nil => simp [front] at read
    | cons b front' =>
        cases behind : text.dropWhile inBody with
        | nil => simp [front, behind] at read
        | cons c rest' =>
            rw [front, behind] at whole read
            rw [front] at within
            obtain ⟨rfl, same⟩ : c = ending ∧ (b :: front', rest') = (body, rest) := by
              simpa using read
            cases same
            exact ⟨List.cons_ne_nil _ _, within, whole.symm⟩
  · intro split
    obtain ⟨nonempty, within, rfl⟩ := split
    have stops : Stops inBody (ending :: rest) := stops_cons.mpr closes
    rw [takeWhile_span within stops, dropWhile_span within stops]
    obtain ⟨c, body, rfl⟩ := List.exists_cons_of_ne_nil nonempty
    exact if_pos rfl

theorem readMarkup?_tag (text : List Char) :
    readMarkup? ('<' :: text) =
      (readBody? (· ≠ '>') '>' text).map fun read => ('<' :: (read.1 ++ ['>']), read.2) :=
  rfl

theorem readMarkup?_reference (text : List Char) :
    readMarkup? ('&' :: text) =
      (readBody? isReferenceChar ';' text).map fun read => ('&' :: (read.1 ++ [';']), read.2) :=
  rfl

theorem readMarkup?_plain {c : Char} (plain : opensMarkup c = false) (text : List Char) :
    readMarkup? (c :: text) = none := by
  obtain ⟨noTag, noReference⟩ : c ≠ '<' ∧ c ≠ '&' := by simpa [opensMarkup] using plain
  rw [readMarkup?, if_neg noTag, if_neg noReference]

theorem readMarkup?_sound (read : readMarkup? text = some (markup, rest)) :
    IsMarkup markup ∧ text = markup ++ rest := by
  cases text with
  | nil => cases read
  | cons c text =>
      by_cases isTag : c = '<'
      · subst isTag
        rw [readMarkup?_tag] at read
        obtain ⟨⟨body, behind⟩, found, same⟩ := Option.map_eq_some_iff.mp read
        obtain ⟨nonempty, within, rfl⟩ := (readBody?_eq_some_iff (by decide)).mp found
        cases same
        exact ⟨.tag nonempty fun member => by simpa using within '>' member, by simp⟩
      · by_cases isReference : c = '&'
        · subst isReference
          rw [readMarkup?_reference] at read
          obtain ⟨⟨body, behind⟩, found, same⟩ := Option.map_eq_some_iff.mp read
          obtain ⟨nonempty, within, rfl⟩ := (readBody?_eq_some_iff (by decide)).mp found
          cases same
          exact ⟨.reference nonempty within, by simp⟩
        · rw [readMarkup?_plain (by simp [opensMarkup, isTag, isReference])] at read
          cases read

theorem readMarkup?_complete (isMarkup : IsMarkup markup) (rest : List Char) :
    readMarkup? (markup ++ rest) = some (markup, rest) := by
  cases isMarkup with
  | @tag body nonempty within =>
      have found : readBody? (· ≠ '>') '>' (body ++ '>' :: rest) = some (body, rest) :=
        (readBody?_eq_some_iff (by decide)).mpr
          ⟨nonempty, fun c member => decide_eq_true fun same => within (same ▸ member), rfl⟩
      rw [List.cons_append, List.append_assoc, List.singleton_append, readMarkup?_tag, found]
      rfl
  | @reference body nonempty within =>
      have found : readBody? isReferenceChar ';' (body ++ ';' :: rest) = some (body, rest) :=
        (readBody?_eq_some_iff (by decide)).mpr ⟨nonempty, within, rfl⟩
      rw [List.cons_append, List.append_assoc, List.singleton_append, readMarkup?_reference, found]
      rfl

theorem readMarkup?_eq_none_iff : readMarkup? text = none ↔ Unopened text := by
  constructor
  · intro unread markup isMarkup isPrefix
    obtain ⟨rest, rfl⟩ := isPrefix
    rw [readMarkup?_complete isMarkup rest] at unread
    cases unread
  · intro unopened
    rw [Option.eq_none_iff_forall_ne_some]
    rintro ⟨markup, rest⟩ read
    obtain ⟨isMarkup, rfl⟩ := readMarkup?_sound read
    exact unopened markup isMarkup (List.prefix_append markup rest)

/-! Whatever the steps allow, a text is cut as it has to be, and in no other way. -/

theorem segmentsWithin_markup (isMarkup : IsMarkup markup) (rest : List Char) (steps : Nat) :
    segmentsWithin (steps + 1) (markup ++ rest) = .markup markup :: segmentsWithin steps rest := by
  have read := readMarkup?_complete isMarkup rest
  obtain ⟨c, body, rfl, -⟩ := isMarkup.opens
  rw [List.cons_append] at read ⊢
  rw [segmentsWithin, read]

theorem segmentsWithin_stray {c : Char} (opens : opensMarkup c = true)
    (unopened : Unopened (c :: rest)) (steps : Nat) :
    segmentsWithin (steps + 1) (c :: rest) = .text [c] :: segmentsWithin steps rest := by
  simp only [segmentsWithin, readMarkup?_eq_none_iff.mpr unopened, opens, if_true]

theorem segmentsWithin_run {c : Char} {front : List Char}
    (plain : ∀ other ∈ c :: front, opensMarkup other = false) (stops : Stops (!opensMarkup ·) rest)
    (steps : Nat) :
    segmentsWithin (steps + 1) (c :: (front ++ rest)) =
      .text (c :: front) :: segmentsWithin steps rest := by
  obtain ⟨here, later⟩ := List.forall_mem_cons.mp plain
  have within : ∀ other ∈ front, (!opensMarkup other) = true := by simpa using later
  simp only [segmentsWithin, readMarkup?_plain here, here, Bool.false_eq_true, if_false,
    takeWhile_span within stops, dropWhile_span within stops]

theorem segmented_segmentsWithin (enough : text.length ≤ steps) :
    Segmented text (segmentsWithin steps text) := by
  induction steps generalizing text with
  | zero =>
      obtain rfl := List.eq_nil_of_length_eq_zero (Nat.le_zero.mp enough)
      exact .done
  | succ steps ih =>
      cases text with
      | nil => exact .done
      | cons c text =>
          cases read : readMarkup? (c :: text) with
          | some found =>
              obtain ⟨isMarkup, whole⟩ := readMarkup?_sound read
              obtain ⟨first, body, markup_eq, -⟩ := isMarkup.opens
              rw [whole, markup_eq] at enough
              rw [whole, segmentsWithin_markup isMarkup]
              exact .markup isMarkup (ih (by simp at enough; omega))
          | none =>
              cases opens : opensMarkup c with
              | true =>
                  have unopened := readMarkup?_eq_none_iff.mp read
                  rw [segmentsWithin_stray opens unopened]
                  exact .stray opens unopened (ih (Nat.le_of_succ_le_succ enough))
              | false =>
                  obtain ⟨front, rest, rfl, within, stops⟩ : ∃ front rest, text = front ++ rest ∧
                      (∀ other ∈ front, opensMarkup other = false) ∧
                        Stops (!opensMarkup ·) rest :=
                    ⟨_, _, List.takeWhile_append_dropWhile.symm,
                      fun other member => by simpa using List.mem_takeWhile_imp member,
                      stops_dropWhile (!opensMarkup ·) text⟩
                  have plain : ∀ other ∈ c :: front, opensMarkup other = false :=
                    List.forall_mem_cons.mpr ⟨opens, within⟩
                  rw [segmentsWithin_run plain stops]
                  exact .run (List.cons_ne_nil c front) plain stops
                    (ih (by simp at enough; omega))

theorem Segmented.segmentsWithin_eq (segmented : Segmented text parts)
    (enough : text.length ≤ steps) : segmentsWithin steps text = parts := by
  induction segmented generalizing steps with
  | done => cases steps <;> rfl
  | markup isMarkup later ih =>
      obtain ⟨c, body, markup_eq, -⟩ := isMarkup.opens
      rw [markup_eq] at enough
      cases steps with
      | zero => simp at enough
      | succ steps => rw [segmentsWithin_markup isMarkup, ih (by simp at enough; omega)]
  | stray opens unopened later ih =>
      cases steps with
      | zero => simp at enough
      | succ steps =>
          rw [segmentsWithin_stray opens unopened, ih (Nat.le_of_succ_le_succ enough)]
  | run nonempty plain stops later ih =>
      obtain ⟨c, front, rfl⟩ := List.exists_cons_of_ne_nil nonempty
      cases steps with
      | zero => simp at enough
      | succ steps =>
          rw [List.cons_append, segmentsWithin_run plain stops, ih (by simp at enough; omega)]

theorem segmented_segments (text : List Char) : Segmented text (segments text) :=
  segmented_segmentsWithin (Nat.le_refl _)

theorem segments_eq_iff : segments text = parts ↔ Segmented text parts :=
  ⟨fun same => same ▸ segmented_segments text,
    fun segmented => segmented.segmentsWithin_eq (Nat.le_refl _)⟩

theorem Segmented.flatMap_chars (segmented : Segmented text parts) :
    parts.flatMap Segment.chars = text := by
  induction segmented with
  | done => rfl
  | markup isMarkup later ih => rw [List.flatMap_cons, ih, Segment.chars]
  | stray opens unopened later ih =>
      rw [List.flatMap_cons, ih, Segment.chars, List.singleton_append]
  | run nonempty plain stops later ih => rw [List.flatMap_cons, ih, Segment.chars]

end Phrasebook.Pseudo
