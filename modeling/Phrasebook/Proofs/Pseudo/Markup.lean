import Mathlib.Data.List.Basic
import Phrasebook.Proofs.Pseudo.Letters
import Phrasebook.Proofs.Pseudo.Segments

namespace Phrasebook.Pseudo

open Phrasebook.Text

variable {pseudo : Pseudo} {c : Char} {known text rest left right : List Char}
  {parts : List Segment}

def Segment.disguised (pseudo : Pseudo) : Segment → Segment
  | .text chars => .text (pseudo.disguiseText chars)
  | .markup chars => .markup chars

@[simp] theorem Segment.chars_disguised (part : Segment) :
    (part.disguised pseudo).chars = pseudo.disguiseSegment part := by
  cases part <;> rfl

def Segment.markup? : Segment → Option (List Char)
  | .text _ => none
  | .markup chars => some chars

/-- The tags and references of a text, in their order. -/
def markups (parts : List Segment) : List (List Char) :=
  parts.filterMap Segment.markup?

theorem markups_disguised (pseudo : Pseudo) (parts : List Segment) :
    markups (parts.map (Segment.disguised pseudo)) = markups parts := by
  rw [markups, List.filterMap_map]
  refine List.filterMap_congr fun part _ => ?_
  cases part <;> rfl

/-! ASCII at the front of a disguised text was there before. -/

theorem prefix_append_of_prefix (front : List Char)
    (carries : ∀ later, later <:+ known → later <+: left → later <+: right)
    (isPrefix : known <+: front ++ left) : known <+: front ++ right := by
  induction front generalizing known with
  | nil => exact carries known List.suffix_rfl isPrefix
  | cons c front ih =>
      cases known with
      | nil => exact List.nil_prefix
      | cons d known =>
          obtain ⟨rfl, behind⟩ := List.cons_prefix_cons.mp isPrefix
          exact List.cons_prefix_cons.mpr ⟨rfl, ih
            (fun later suffix => carries later (suffix.trans (List.suffix_cons _ _))) behind⟩

theorem prefix_of_prefix_disguiseText (ascii : ∀ c ∈ known, ¬ IsForeign c)
    (isPrefix : known <+: pseudo.disguiseText text ++ rest) : known <+: text ++ rest := by
  induction text generalizing known with
  | nil => rwa [disguiseText_nil] at isPrefix
  | cons c text ih =>
      cases known with
      | nil => exact List.nil_prefix
      | cons d known =>
          obtain ⟨here, later⟩ := List.forall_mem_cons.mp ascii
          obtain same | ⟨other, more, begins, foreign⟩ := disguiseText_cons_cases pseudo c text
          · rw [same] at isPrefix
            obtain ⟨rfl, behind⟩ := List.cons_prefix_cons.mp isPrefix
            exact List.cons_prefix_cons.mpr ⟨rfl, ih later behind⟩
          · rw [begins] at isPrefix
            obtain ⟨rfl, -⟩ := List.cons_prefix_cons.mp isPrefix
            exact absurd foreign here

theorem prefix_of_prefix_disguised (ascii : ∀ c ∈ known, ¬ IsForeign c)
    (isPrefix : known <+: parts.flatMap pseudo.disguiseSegment) :
    known <+: parts.flatMap Segment.chars := by
  induction parts generalizing known with
  | nil => exact isPrefix
  | cons part parts ih =>
      rw [List.flatMap_cons] at isPrefix ⊢
      have atFront : known <+: part.chars ++ parts.flatMap pseudo.disguiseSegment := by
        cases part with
        | text chars => exact prefix_of_prefix_disguiseText ascii isPrefix
        | markup chars => exact isPrefix
      exact prefix_append_of_prefix part.chars
        (fun later suffix => ih fun c member => ascii c (suffix.subset member)) atFront

theorem mem_of_mem_disguised (ascii : ¬ IsForeign c) (other : c.isAlpha = false)
    (member : c ∈ parts.flatMap pseudo.disguiseSegment) : c ∈ parts.flatMap Segment.chars := by
  obtain ⟨part, listed, inPart⟩ := List.mem_flatMap.mp member
  refine List.mem_flatMap.mpr ⟨part, listed, ?_⟩
  cases part with
  | text chars =>
      obtain same | alpha | foreign := mem_disguiseText inPart
      · exact same
      · rw [other] at alpha
        cases alpha
      · exact absurd foreign ascii
  | markup chars => exact inPart

/-! The disguised text begins as the text does where no word begins. -/

theorem isWordChar_of_opens (opens : opensMarkup c = true) : isWordChar c = false := by
  obtain rfl | rfl : c = '<' ∨ c = '&' := by simpa [opensMarkup] using opens
  · rfl
  · rfl

namespace Segmented

theorem head?_disguised (segmented : Segmented text parts) (outside : isWordChar c = false)
    (first : text.head? = some c) :
    (parts.flatMap pseudo.disguiseSegment).head? = some c := by
  cases segmented with
  | done => cases first
  | markup isMarkup later =>
      obtain ⟨d, body, rfl, -⟩ := isMarkup.opens
      exact first
  | stray opens unopened later =>
      cases first
      rw [List.flatMap_cons, disguiseSegment, disguiseText_cons pseudo outside]
      rfl
  | run nonempty plain stops later =>
      obtain ⟨d, front, rfl⟩ := List.exists_cons_of_ne_nil nonempty
      cases first
      rw [List.flatMap_cons, disguiseSegment, disguiseText_cons pseudo outside]
      rfl

theorem stops_disguised (segmented : Segmented text parts) (stops : Stops (!opensMarkup ·) text) :
    Stops (!opensMarkup ·) (parts.flatMap pseudo.disguiseSegment) := by
  cases text with
  | nil =>
      obtain rfl : [] = parts := segments_eq_iff.mpr segmented
      exact stops_nil
  | cons c text =>
      have opens : opensMarkup c = true := by simpa using stops_cons.mp stops
      have first : (parts.flatMap pseudo.disguiseSegment).head? = some c :=
        segmented.head?_disguised (isWordChar_of_opens opens) rfl
      intro d isFirst
      obtain rfl : c = d := Option.some.inj (first.symm.trans isFirst)
      simp [opens]

end Segmented

theorem not_isForeign_of_isReferenceChar (inBody : isReferenceChar c = true) : ¬ IsForeign c := by
  obtain word | rfl : c.isAlphanum = true ∨ c = '#' := by simpa [isReferenceChar] using inBody
  · exact not_isForeign_of_isWordChar (by simp [isWordChar, word])
  · decide

/-- What opens no markup opens none when the text behind it is disguised. -/
theorem Unopened.disguised (unopened : Unopened (c :: rest)) (segmented : Segmented rest parts) :
    Unopened (c :: parts.flatMap pseudo.disguiseSegment) := by
  have whole := segmented.flatMap_chars
  intro markup isMarkup isPrefix
  cases isMarkup with
  | @tag body nonempty within =>
      obtain ⟨rfl, behind⟩ := List.cons_prefix_cons.mp isPrefix
      have closed : '>' ∈ rest := by
        rw [← whole]
        exact mem_of_mem_disguised (by decide) rfl (behind.subset (by simp))
      obtain ⟨front, later, rfl, absent⟩ := List.eq_append_cons_of_mem closed
      refine unopened ('<' :: (front ++ ['>'])) (.tag ?_ absent) ⟨later, by simp⟩
      -- a bracket directly behind the first one would still be there, and the tag would be empty
      rintro rfl
      have first : (parts.flatMap pseudo.disguiseSegment).head? = some '>' :=
        segmented.head?_disguised rfl rfl
      obtain ⟨d, body, rfl⟩ := List.exists_cons_of_ne_nil nonempty
      obtain ⟨others, disguised_eq⟩ := behind
      rw [← disguised_eq] at first
      obtain rfl : d = '>' := Option.some.inj first
      exact within List.mem_cons_self
  | @reference body nonempty within =>
      obtain ⟨rfl, behind⟩ := List.cons_prefix_cons.mp isPrefix
      have ascii : ∀ c ∈ body ++ [';'], ¬ IsForeign c := by
        intro c member
        obtain inBody | ends := List.mem_append.mp member
        · exact not_isForeign_of_isReferenceChar (within c inBody)
        · rw [List.mem_singleton.mp ends]
          decide
      have before : body ++ [';'] <+: rest := whole ▸ prefix_of_prefix_disguised ascii behind
      exact unopened _ (.reference nonempty within) (List.cons_prefix_cons.mpr ⟨rfl, before⟩)

/-! A text without openers has none when it is disguised. -/

theorem plain_disguiseText (plain : ∀ c ∈ text, opensMarkup c = false) :
    ∀ c ∈ pseudo.disguiseText text, opensMarkup c = false := by
  intro c member
  by_contra opens
  rw [Bool.not_eq_false] at opens
  have isOpener : c = '<' ∨ c = '&' := by simpa [opensMarkup] using opens
  obtain same | alpha | foreign := mem_disguiseText member
  · rw [plain c same] at opens
    cases opens
  · obtain rfl | rfl := isOpener <;> cases alpha
  · obtain rfl | rfl := isOpener <;> exact absurd foreign (by decide)

theorem disguiseText_ne_nil (nonempty : text ≠ []) : pseudo.disguiseText text ≠ [] := by
  obtain ⟨c, rest, rfl⟩ := List.exists_cons_of_ne_nil nonempty
  obtain same | ⟨d, more, begins, -⟩ := disguiseText_cons_cases pseudo c rest
  · rw [same]
    exact List.cons_ne_nil _ _
  · rw [begins]
    exact List.cons_ne_nil _ _

/-- The disguised text is cut where the text is. -/
theorem Segmented.disguised (pseudo : Pseudo) (segmented : Segmented text parts) :
    Segmented (parts.flatMap pseudo.disguiseSegment) (parts.map (Segment.disguised pseudo)) := by
  induction segmented with
  | done => exact .done
  | markup isMarkup later ih => exact .markup isMarkup ih
  | @stray c rest parts opens unopened later ih =>
      have kept : pseudo.disguiseText [c] = [c] := by
        rw [disguiseText_cons pseudo (isWordChar_of_opens opens), disguiseText_nil]
      simp only [List.flatMap_cons, List.map_cons, disguiseSegment, Segment.disguised, kept]
      exact .stray opens (unopened.disguised later) ih
  | run nonempty plain stops later ih =>
      exact .run (disguiseText_ne_nil nonempty) (plain_disguiseText plain)
        (later.stops_disguised stops) ih

/-- A text is the chain of its segments, and there is only one way to cut it so. Disguising it keeps
every tag and every reference and changes the texts between them one by one. The disguised text is
cut in the same way, so that it has the same tags and references: none is broken, none is made. -/
theorem disguise_keeps_markup (pseudo : Pseudo) (text : String) :
    let parts := segments text.toList
    let disguised := (pseudo.disguise text).toList
    (∀ others, Segmented text.toList others ↔ others = parts) ∧
    parts.flatMap Segment.chars = text.toList ∧
    disguised = (parts.map (Segment.disguised pseudo)).flatMap Segment.chars ∧
    segments disguised = parts.map (Segment.disguised pseudo) ∧
    markups (segments disguised) = markups parts := by
  intro parts disguised
  have segmented : Segmented text.toList parts := segmented_segments text.toList
  have disguised_eq : disguised = parts.flatMap pseudo.disguiseSegment := String.toList_ofList
  have again : segments disguised = parts.map (Segment.disguised pseudo) := by
    rw [disguised_eq]
    exact segments_eq_iff.mpr (segmented.disguised pseudo)
  refine ⟨fun others => segments_eq_iff.symm.trans eq_comm, segmented.flatMap_chars, ?_, again, ?_⟩
  · rw [disguised_eq, List.flatMap_map]
    simp only [Segment.chars_disguised]
  · rw [again, markups_disguised]

end Phrasebook.Pseudo
