import Phrasebook.Resource.Escape
import Phrasebook.Resource.LogicalLine

namespace Phrasebook.Resource

open Phrasebook.Text
open Phrasebook.Unicode

def escapedChar (c : Char) : List Char :=
  if c = '\\' then ['\\', '\\']
  else if c = '\n' then ['\\', 'n']
  else if c = '\r' then ['\\', 'r']
  else [c]

def codeEscape (c : Char) : List Char :=
  '\\' :: 'u' :: hexQuad c.toNat

def escaped : List Char → List Char
  | [] => []
  | c :: rest =>
      (if isWhiteSpace c then codeEscape c else escapedChar c) ++ rest.flatMap escapedChar

/-- How a text can spell a value: a character by itself, if nothing else is meant by it, or by an
escape of its own, or by its code if that has no more than four digits. -/
inductive Spelling : (text value : List Char) → Prop
  | nil : Spelling [] []
  | plain {c : Char} {text value : List Char} (notBackslash : c ≠ '\\') (notFeed : c ≠ '\n')
      (notReturn : c ≠ '\r') (rest : Spelling text value) : Spelling (c :: text) (c :: value)
  | escape {letter c : Char} {text value : List Char} (known : plainEscape? letter = some c)
      (rest : Spelling text value) : Spelling ('\\' :: letter :: text) (c :: value)
  | code {c : Char} {text value : List Char} (small : c.toNat < 65536)
      (rest : Spelling text value) : Spelling (codeEscape c ++ text) (c :: value)

theorem toNat_lt_of_isWhiteSpace {c : Char} (blank : isWhiteSpace c = true) : c.toNat < 65536 := by
  have bounded : ∀ range ∈ whiteSpace, range.2 < 65536 := by decide
  obtain ⟨range, member, -, high⟩ := Ranges.contains_iff.mp blank
  exact Nat.lt_of_le_of_lt high (bounded range member)

theorem readEscape_code {c : Char} (small : c.toNat < 65536) (rest : List Char) :
    readEscape ('u' :: (hexQuad c.toNat ++ rest)) = ([c], rest) := by
  have four : (hexQuad c.toNat).length = 4 := rfl
  have digits : codeDigits (hexQuad c.toNat ++ rest) = hexQuad c.toNat := by
    rw [codeDigits, List.take_left' four]
    simpa using takeWhile_span (isHexDigit_hexQuad c.toNat) stops_nil
  have char : codeChar? (hexQuad c.toNat) = some c := by
    rw [codeChar?, if_neg (List.ne_nil_of_length_pos (by simp [four])), hexNumber_hexQuad small,
      scalar?_toNat]
  simp [readEscape, digits, char]

theorem readEscape_plain {letter c : Char} (known : plainEscape? letter = some c)
    (rest : List Char) : readEscape (letter :: rest) = ([c], rest) := by
  unfold readEscape
  split
  · simp_all
  · simp_all [plainEscape?]
  · simp_all

theorem codeEscape_no_end (c : Char) : ∀ d ∈ codeEscape c, d ≠ '\n' ∧ d ≠ '\r' := by
  have ofDigits : ∀ d ∈ hexQuad c.toNat, d ≠ '\n' ∧ d ≠ '\r' := by
    intro d member
    have isDigit := isHexDigit_hexQuad c.toNat d member
    refine ⟨?_, ?_⟩
    all_goals
      rintro rfl
      exact absurd isDigit (by decide)
  simpa [codeEscape] using ofDigits

section Continuation

variable {text : List Char}

theorem continues_append_of_ne {c : Char} (other : c ≠ '\\') (text : List Char) :
    continues (text ++ [c]) = false := by
  simp [continues, other]

theorem continues_append_codeEscape (text : List Char) (c : Char) :
    continues (text ++ codeEscape c) = false := by
  have last : Nat.digitChar (c.toNat % 16) ≠ '\\' := by
    intro same
    have digit := hexValue?_digitChar (c.toNat % 16) (Nat.mod_lt _ (by decide))
    rw [same] at digit
    cases digit
  obtain ⟨front, same⟩ : ∃ front, codeEscape c = front ++ [Nat.digitChar (c.toNat % 16)] :=
    ⟨['\\', 'u', _, _, _], rfl⟩
  rw [same, ← List.append_assoc]
  exact continues_append_of_ne last (text ++ front)

theorem continues_append_escape (complete : continues text = false) (letter : Char) :
    continues (text ++ ['\\', letter]) = false := by
  by_cases escapes : letter = '\\'
  · -- two more backslashes at the end leave their number even
    simp only [continues, escapes, decide_eq_false_iff_not] at complete ⊢
    simp
    omega
  · rw [← List.singleton_append, ← List.append_assoc]
    exact continues_append_of_ne escapes _

end Continuation

namespace Spelling

variable {text value : List Char}

theorem append {others rest : List Char} (spelling : Spelling text value)
    (further : Spelling others rest) : Spelling (text ++ others) (value ++ rest) := by
  induction spelling with
  | nil => exact further
  | plain notBackslash notFeed notReturn _ ih => exact .plain notBackslash notFeed notReturn ih
  | escape known _ ih => exact .escape known ih
  | code small _ ih =>
      rw [List.append_assoc]
      exact .code small ih

theorem flatMap {spell : Char → List Char} (spelled : ∀ c, Spelling (spell c) [c])
    (value : List Char) : Spelling (value.flatMap spell) value := by
  induction value with
  | nil => exact .nil
  | cons c rest ih =>
      rw [List.flatMap_cons, ← List.singleton_append]
      exact (spelled c).append ih

theorem length_le (spelling : Spelling text value) : value.length ≤ text.length := by
  induction spelling with
  | nil => exact Nat.le_refl 0
  | plain _ _ _ _ ih => exact Nat.succ_le_succ ih
  | escape _ _ ih =>
      simp only [List.length_cons]
      omega
  | code _ _ ih =>
      simp only [codeEscape, List.length_append, List.length_cons]
      omega

theorem ne_nil (spelling : Spelling text value) (nonempty : value ≠ []) : text ≠ [] := by
  have long := List.length_pos_iff.mpr nonempty
  exact List.length_pos_iff.mp (Nat.lt_of_lt_of_le long spelling.length_le)

theorem unescapeWithin (spelling : Spelling text value) {steps : Nat}
    (enough : value.length ≤ steps) : unescapeWithin steps text = value := by
  induction spelling generalizing steps with
  | nil => cases steps <;> rfl
  | plain notBackslash _ _ _ ih =>
      obtain ⟨steps, rfl⟩ := Nat.exists_eq_succ_of_ne_zero (Nat.ne_zero_of_lt enough)
      rw [Resource.unescapeWithin, if_neg notBackslash, ih (Nat.le_of_succ_le_succ enough)]
  | escape known _ ih =>
      obtain ⟨steps, rfl⟩ := Nat.exists_eq_succ_of_ne_zero (Nat.ne_zero_of_lt enough)
      rw [Resource.unescapeWithin, if_pos rfl, readEscape_plain known]
      exact congrArg (_ :: ·) (ih (Nat.le_of_succ_le_succ enough))
  | code small _ ih =>
      obtain ⟨steps, rfl⟩ := Nat.exists_eq_succ_of_ne_zero (Nat.ne_zero_of_lt enough)
      rw [codeEscape, List.cons_append, List.cons_append, Resource.unescapeWithin, if_pos rfl,
        readEscape_code small]
      exact congrArg (_ :: ·) (ih (Nat.le_of_succ_le_succ enough))

theorem unescape (spelling : Spelling text value) : unescape text = value :=
  spelling.unescapeWithin spelling.length_le

theorem no_end (spelling : Spelling text value) : ∀ d ∈ text, d ≠ '\n' ∧ d ≠ '\r' := by
  induction spelling with
  | nil => exact nofun
  | plain _ notFeed notReturn _ ih => exact List.forall_mem_cons.mpr ⟨⟨notFeed, notReturn⟩, ih⟩
  | @escape letter c _ _ known _ ih =>
      have letterStays : letter ≠ '\n' ∧ letter ≠ '\r' := by
        refine ⟨?_, ?_⟩
        all_goals
          rintro rfl
          cases known
      exact List.forall_mem_cons.mpr ⟨by decide, List.forall_mem_cons.mpr ⟨letterStays, ih⟩⟩
  | code _ _ ih => exact List.forall_mem_append.mpr ⟨codeEscape_no_end _, ih⟩

/-- A line that ends in a written value is complete, whatever the value ends in. -/
theorem continues_append (spelling : Spelling text value) {front : List Char}
    (complete : continues front = false) : continues (front ++ text) = false := by
  induction spelling generalizing front with
  | nil => simpa using complete
  | plain notBackslash _ _ _ ih =>
      rw [← List.singleton_append, ← List.append_assoc]
      exact ih (continues_append_of_ne notBackslash front)
  | @escape letter _ _ _ _ _ ih =>
      have behind := ih (continues_append_escape complete letter)
      simpa using behind
  | code _ _ ih =>
      rw [← List.append_assoc]
      exact ih (continues_append_codeEscape front _)

theorem head?_eq {c : Char} (spelling : Spelling text (c :: value)) :
    text.head? = some c ∨ text.head? = some '\\' := by
  cases spelling with
  | plain _ _ _ _ => exact .inl rfl
  | escape _ _ => exact .inr rfl
  | code _ _ => exact .inr rfl

end Spelling

/-- A value in which every character has its own spelling, but for white space at the start. -/
def spelledBy (spell : Char → List Char) : List Char → List Char
  | [] => []
  | c :: rest => (if isWhiteSpace c then codeEscape c else spell c) ++ rest.flatMap spell

section SpelledBy

variable {spell : Char → List Char} (spelled : ∀ c, Spelling (spell c) [c])

include spelled

theorem spelling_spelledBy (value : List Char) : Spelling (spelledBy spell value) value := by
  cases value with
  | nil => exact .nil
  | cons c rest =>
      rw [spelledBy, ← List.singleton_append]
      refine Spelling.append ?_ (.flatMap spelled rest)
      split
      · rename_i blank
        have coded := Spelling.code (toNat_lt_of_isWhiteSpace blank) .nil
        rwa [List.append_nil] at coded
      · exact spelled c

theorem stops_spelledBy (value : List Char) : Stops isWhiteSpace (spelledBy spell value) := by
  cases value with
  | nil => exact stops_nil
  | cons c rest =>
      rw [spelledBy]
      split
      · simp [codeEscape]
      · rename_i solid
        rw [Stops, List.head?_append]
        rcases (spelled c).head?_eq with itself | backslash
        · simpa [itself] using solid
        · rw [backslash]
          simp

end SpelledBy

theorem spelling_escapedChar (c : Char) : Spelling (escapedChar c) [c] := by
  unfold escapedChar
  split
  · exact .escape (by simp_all [plainEscape?]) .nil
  split
  · exact .escape (by simp_all [plainEscape?]) .nil
  split
  · exact .escape (by simp_all [plainEscape?]) .nil
  · rename_i notBackslash notFeed notReturn
    exact .plain notBackslash notFeed notReturn .nil

theorem escaped_eq (value : List Char) : escaped value = spelledBy escapedChar value := by
  cases value <;> rfl

end Phrasebook.Resource
