import Mathlib.Data.List.TakeWhile
import Phrasebook.Proofs.Resource.Escaping
import Phrasebook.Resource.Properties

namespace Phrasebook.Resource

open Phrasebook.Text

def letterEscapes : List (Char × Char) :=
  [('n', '\n'), ('r', '\r'), ('t', '\t'), ('b', '\x08'), ('f', '\x0c'), ('\\', '\\'), ('{', '{'),
    ('}', '}'), ('"', '"'), ('\'', '\'')]

/-- Hexadecimal digits in front of a rest, as many as there are, but four at most. -/
structure TakesDigits (digits rest : List Char) : Prop where
  hex : ∀ c ∈ digits, isHexDigit c = true
  atMostFour : digits.length ≤ 4
  whole : digits.length = 4 ∨ Stops isHexDigit rest

/-- What is read at a time. -/
inductive Scrap where
  | plain (c : Char)
  | letter (name c : Char)
  | code (digits : List Char) (c : Char)

namespace Scrap

def source : Scrap → List Char
  | plain c => [c]
  | letter name _ => ['\\', name]
  | code digits _ => '\\' :: 'u' :: digits

def char : Scrap → Char
  | plain c => c
  | letter _ c => c
  | code _ c => c

/-- What is read in its place where a code needs four digits. -/
def strict : Scrap → List Scrap
  | plain c => [plain c]
  | letter name c => [letter name c]
  | code digits c =>
      if digits.length = 4 then [code digits c] else (code digits c).source.map plain

end Scrap

/-- An escape in front of a rest. -/
inductive IsEscape (fewest : Nat) : Scrap → List Char → Prop
  | letter {name c : Char} {rest : List Char} (known : (name, c) ∈ letterEscapes) :
      IsEscape fewest (.letter name c) rest
  | code {digits rest : List Char} {c : Char} (takes : TakesDigits digits rest)
      (enough : fewest ≤ digits.length) (named : c.toNat = hexNumber digits) :
      IsEscape fewest (.code digits c) rest

/-- No escape begins where the text begins. -/
def Bare (fewest : Nat) (text : List Char) : Prop :=
  ∀ scrap rest, IsEscape fewest scrap rest → text ≠ scrap.source ++ rest

/-- A text read from the left. -/
inductive Reading (fewest : Nat) : List Char → List Scrap → Prop
  | nil : Reading fewest [] []
  | escape {scrap : Scrap} {rest : List Char} {scraps : List Scrap}
      (isEscape : IsEscape fewest scrap rest) (later : Reading fewest rest scraps) :
      Reading fewest (scrap.source ++ rest) (scrap :: scraps)
  | plain {c : Char} {text : List Char} {scraps : List Scrap} (bare : Bare fewest (c :: text))
      (later : Reading fewest text scraps) : Reading fewest (c :: text) (.plain c :: scraps)

variable {fewest : Nat} {c d : Char} {text rest digits more : List Char} {scrap other : Scrap}
  {scraps others : List Scrap}

theorem plainEscape?_eq_some_iff : plainEscape? c = some d ↔ (c, d) ∈ letterEscapes := by
  constructor
  · unfold plainEscape?
    split
    all_goals
      intro known
      cases known
    all_goals simp [letterEscapes]
  · intro listed
    simp only [letterEscapes, List.mem_cons, List.not_mem_nil, Prod.mk.injEq, or_false] at listed
    obtain ⟨rfl, rfl⟩ | ⟨rfl, rfl⟩ | ⟨rfl, rfl⟩ | ⟨rfl, rfl⟩ | ⟨rfl, rfl⟩ | ⟨rfl, rfl⟩ |
      ⟨rfl, rfl⟩ | ⟨rfl, rfl⟩ | ⟨rfl, rfl⟩ | ⟨rfl, rfl⟩ := listed
    all_goals rfl

theorem scalar?_eq_some_iff {n : Nat} : scalar? n = some c ↔ c.toNat = n := by
  constructor
  · intro found
    by_cases valid : n.isValidChar
    · rw [scalar?, dif_pos valid] at found
      rw [← Option.some.inj found]
      rfl
    · rw [scalar?, dif_neg valid] at found
      exact absurd found (Option.some_ne_none c).symm
  · intro same
    rw [← same, scalar?_toNat]

section Digits

theorem codeDigits_append_drop (text : List Char) :
    codeDigits text ++ text.drop (codeDigits text).length = text :=
  List.prefix_iff_eq_append.mp ((List.takeWhile_prefix _).trans (List.take_prefix 4 text))

theorem takesDigits_codeDigits (text : List Char) :
    TakesDigits (codeDigits text) (text.drop (codeDigits text).length) := by
  have bound : (codeDigits text).length ≤ (text.take 4).length :=
    (List.takeWhile_sublist _).length_le
  rw [List.length_take] at bound
  refine ⟨fun c member => List.mem_takeWhile_imp member, by omega, ?_⟩
  by_cases four : (codeDigits text).length = 4
  · exact .inl four
  · -- where there are less than four digits, the rest begins with what stopped them
    right
    have front : codeDigits text ++ (text.take 4).dropWhile isHexDigit = text.take 4 :=
      List.takeWhile_append_dropWhile
    have whole : codeDigits text ++ ((text.take 4).dropWhile isHexDigit ++ text.drop 4) = text := by
      rw [← List.append_assoc, front, List.take_append_drop]
    rw [List.append_cancel_left ((codeDigits_append_drop text).trans whole.symm)]
    cases behind : (text.take 4).dropWhile isHexDigit with
    | nil =>
        have same := congrArg List.length front
        rw [behind, List.append_nil, List.length_take] at same
        rw [List.nil_append, List.drop_eq_nil_of_le (by omega)]
        exact stops_nil
    | cons c more =>
        have stops := stops_dropWhile isHexDigit (text.take 4)
        rw [behind] at stops
        exact stops

theorem TakesDigits.codeDigits_eq (takes : TakesDigits digits rest) :
    codeDigits (digits ++ rest) = digits := by
  rw [codeDigits]
  rcases takes.whole with four | stops
  · rw [List.take_left' four]
    simpa using takeWhile_span takes.hex stops_nil
  · have stopsSooner : Stops isHexDigit (rest.take (4 - digits.length)) := by
      rw [← List.take_append_drop (4 - digits.length) rest] at stops
      exact stops.of_append
    rw [List.take_append, List.take_of_length_le takes.atMostFour]
    exact takeWhile_span takes.hex stopsSooner

theorem TakesDigits.unique {others : List Char} (takes : TakesDigits digits rest)
    (takesOthers : TakesDigits others more) (same : digits ++ rest = others ++ more) :
    digits = others ∧ rest = more := by
  have sameDigits : digits = others := by
    rw [← takes.codeDigits_eq, same, takesOthers.codeDigits_eq]
  subst sameDigits
  exact ⟨rfl, List.append_cancel_left same⟩

theorem ne_backslash_of_isHexDigit (hex : isHexDigit c = true) : c ≠ '\\' := by
  rintro rfl
  exact absurd hex (by decide)

end Digits

section Escapes

theorem Scrap.source_eq_cons (isEscape : IsEscape fewest scrap rest) :
    ∃ name more, scrap.source = '\\' :: name :: more := by
  cases isEscape with
  | letter => exact ⟨_, _, rfl⟩
  | code => exact ⟨_, _, rfl⟩

theorem bare_of_ne (notBackslash : c ≠ '\\') (text : List Char) : Bare fewest (c :: text) := by
  intro scrap rest isEscape same
  obtain ⟨name, more, source⟩ := Scrap.source_eq_cons isEscape
  rw [source] at same
  exact notBackslash (List.cons.inj same).1

theorem IsEscape.mono {enough : Nat} (isEscape : IsEscape enough scrap rest)
    (fewer : fewest ≤ enough) : IsEscape fewest scrap rest := by
  cases isEscape with
  | letter known => exact .letter known
  | code takes isEnough named => exact .code takes (fewer.trans isEnough) named

theorem letterEscapes_unique (known : (c, d) ∈ letterEscapes) {e : Char}
    (knownToo : (c, e) ∈ letterEscapes) : d = e := by
  rw [← plainEscape?_eq_some_iff] at known knownToo
  exact Option.some.inj (known.symm.trans knownToo)

theorem not_mem_letterEscapes_u : ('u', d) ∉ letterEscapes := by
  intro known
  cases plainEscape?_eq_some_iff.mpr known

theorem IsEscape.unique (isEscape : IsEscape fewest scrap rest)
    (isOther : IsEscape fewest other more) (same : scrap.source ++ rest = other.source ++ more) :
    scrap = other ∧ rest = more := by
  cases isEscape with
  | letter known =>
      cases isOther with
      | letter knownOther =>
          obtain ⟨rfl, rfl⟩ : _ ∧ _ := by simpa [Scrap.source] using same
          exact ⟨by rw [letterEscapes_unique known knownOther], rfl⟩
      | code =>
          obtain ⟨rfl, -⟩ : _ ∧ _ := by simpa [Scrap.source] using same
          exact absurd known not_mem_letterEscapes_u
  | code takes enough named =>
      cases isOther with
      | letter known =>
          obtain ⟨rfl, -⟩ : _ ∧ _ := by simpa [Scrap.source] using same
          exact absurd known not_mem_letterEscapes_u
      | code takesOther _ namedOther =>
          have behind := (List.cons.inj (List.cons.inj same).2).2
          obtain ⟨rfl, rfl⟩ := takes.unique takesOther behind
          have sameChar := Char.toNat_inj.mp (named.trans namedOther.symm)
          exact ⟨by rw [sameChar], rfl⟩

theorem bare_of_short (takes : TakesDigits digits rest) (short : digits.length < fewest) :
    Bare fewest ('\\' :: 'u' :: (digits ++ rest)) := by
  intro scrap more isEscape same
  cases isEscape with
  | letter known =>
      obtain ⟨rfl, -⟩ : _ ∧ _ := by simpa [Scrap.source] using same
      exact not_mem_letterEscapes_u known
  | code takesMore enough _ =>
      have behind := (List.cons.inj (List.cons.inj same).2).2
      obtain ⟨rfl, -⟩ := takes.unique takesMore behind
      omega

end Escapes

namespace Reading

theorem behind_escape (reading : Reading fewest text scraps)
    (isEscape : IsEscape fewest scrap rest) (starts : text = scrap.source ++ rest) :
    ∃ later, scraps = scrap :: later ∧ Reading fewest rest later := by
  cases reading with
  | nil =>
      obtain ⟨name, more, source⟩ := Scrap.source_eq_cons isEscape
      rw [source] at starts
      cases starts
  | escape isOther later =>
      obtain ⟨rfl, rfl⟩ := isOther.unique isEscape starts
      exact ⟨_, rfl, later⟩
  | plain bare _ => exact absurd starts (bare _ _ isEscape)

theorem behind_bare (reading : Reading fewest text scraps) (bare : Bare fewest text)
    (starts : text = c :: rest) :
    ∃ later, scraps = .plain c :: later ∧ Reading fewest rest later := by
  cases reading with
  | nil => cases starts
  | escape isEscape _ => exact absurd rfl (bare _ _ isEscape)
  | plain _ later =>
      obtain ⟨rfl, rfl⟩ := List.cons.inj starts
      exact ⟨_, rfl, later⟩

/-- A text is read in one way only. -/
theorem unique (reading : Reading fewest text scraps) (readingToo : Reading fewest text others) :
    others = scraps := by
  induction reading generalizing others with
  | nil =>
      generalize empty : ([] : List Char) = text at readingToo
      cases readingToo with
      | nil => rfl
      | escape isEscape _ =>
          obtain ⟨name, more, source⟩ := Scrap.source_eq_cons isEscape
          rw [source] at empty
          cases empty
      | plain => cases empty
  | escape isEscape _ ih =>
      obtain ⟨later, rfl, rest⟩ := readingToo.behind_escape isEscape rfl
      rw [ih rest]
  | plain bare _ ih =>
      obtain ⟨later, rfl, rest⟩ := readingToo.behind_bare bare rfl
      rw [ih rest]

theorem plain_append (plain : ∀ c ∈ text, c ≠ '\\') (reading : Reading fewest rest scraps) :
    Reading fewest (text ++ rest) (text.map .plain ++ scraps) := by
  induction text with
  | nil => exact reading
  | cons c text ih =>
      obtain ⟨here, later⟩ := List.forall_mem_cons.mp plain
      exact .plain (bare_of_ne here _) (ih later)

theorem strict (reading : Reading 1 text scraps) :
    Reading 4 text (scraps.flatMap Scrap.strict) := by
  induction reading with
  | nil => exact .nil
  | escape isEscape _ ih =>
      rw [List.flatMap_cons]
      cases isEscape with
      | letter known => exact .escape (.letter known) ih
      | @code digits c rest takes enough named =>
          rw [Scrap.strict]
          split
          · rename_i four
            exact .escape (.code takes (Nat.le_of_eq four.symm) named) ih
          · rename_i notFour
            have short : digits.length < 4 := Nat.lt_of_le_of_ne takes.atMostFour notFour
            have plain : ∀ d ∈ 'u' :: digits, d ≠ '\\' :=
              List.forall_mem_cons.mpr
                ⟨by decide, fun d member => ne_backslash_of_isHexDigit (takes.hex d member)⟩
            exact .plain (bare_of_short takes short) (ih.plain_append plain)
  | plain bare _ ih =>
      have bareToo : Bare 4 _ := fun scrap rest isEscape =>
        bare scrap rest (isEscape.mono (by decide))
      exact .plain bareToo ih

end Reading

theorem length_strict_le (scraps : List Scrap) :
    scraps.length ≤ (scraps.flatMap Scrap.strict).length := by
  induction scraps with
  | nil => exact Nat.le_refl 0
  | cons scrap scraps ih =>
      have here : 1 ≤ scrap.strict.length := by
        cases scrap with
        | plain => exact Nat.le_refl 1
        | letter => exact Nat.le_refl 1
        | code digits c =>
            rw [Scrap.strict]
            split <;> simp [Scrap.source]
      rw [List.flatMap_cons, List.length_append, List.length_cons]
      omega

theorem map_char_strict_iff (scraps : List Scrap) :
    scraps.map Scrap.char = (scraps.flatMap Scrap.strict).map Scrap.char ↔
      ∀ digits c, Scrap.code digits c ∈ scraps → digits.length = 4 := by
  induction scraps with
  | nil => simp
  | cons scrap scraps ih =>
      rw [List.flatMap_cons]
      cases scrap with
      | plain c => simpa [Scrap.strict, Scrap.char] using ih
      | letter name c => simpa [Scrap.strict, Scrap.char] using ih
      | code digits c =>
          by_cases four : digits.length = 4
          · simpa [Scrap.strict, Scrap.char, four, or_imp, forall_and] using ih
          · have here : (Scrap.code digits c).strict.length = digits.length + 2 := by
              simp [Scrap.strict, Scrap.source, four]
            have longer := length_strict_le scraps
            refine iff_of_false (fun same => ?_) fun all => four (all digits c List.mem_cons_self)
            have lengths := congrArg List.length same
            rw [List.length_map, List.length_map, List.length_cons, List.length_append] at lengths
            omega

section Resolving

theorem readEscape_code_of_some (named : codeChar? (codeDigits rest) = some c) :
    readEscape ('u' :: rest) = ([c], rest.drop (codeDigits rest).length) := by
  simp only [readEscape, named]

theorem readEscape_code_of_none (unnamed : codeChar? (codeDigits rest) = none) :
    readEscape ('u' :: rest) =
      ('\\' :: 'u' :: codeDigits rest, rest.drop (codeDigits rest).length) := by
  simp only [readEscape, unnamed]

theorem readEscape_unknown (notCode : c ≠ 'u') (unknown : plainEscape? c = none)
    (rest : List Char) : readEscape (c :: rest) = (['\\', c], rest) := by
  rw [readEscape, unknown]
  exact fun same => absurd same notCode

theorem length_readEscape (text : List Char) : (readEscape text).2.length ≤ text.length := by
  cases text with
  | nil => exact Nat.le_refl 0
  | cons c text =>
      by_cases isCode : c = 'u'
      · subst isCode
        have shorter : (text.drop (codeDigits text).length).length ≤ text.length :=
          (List.drop_sublist _ text).length_le
        cases named : codeChar? (codeDigits text) with
        | none =>
            rw [readEscape_code_of_none named]
            exact Nat.le_succ_of_le shorter
        | some d =>
            rw [readEscape_code_of_some named]
            exact Nat.le_succ_of_le shorter
      · cases known : plainEscape? c with
        | none =>
            rw [readEscape_unknown isCode known]
            exact Nat.le_succ _
        | some d =>
            rw [readEscape_plain known]
            exact Nat.le_succ _

theorem unescapeWithin_congr {steps enough : Nat} (fits : text.length ≤ steps)
    (fitsToo : text.length ≤ enough) : unescapeWithin steps text = unescapeWithin enough text := by
  induction steps generalizing text enough with
  | zero =>
      obtain rfl := List.eq_nil_of_length_eq_zero (Nat.le_zero.mp fits)
      cases enough <;> rfl
  | succ steps ih =>
      cases text with
      | nil => cases enough <;> rfl
      | cons c text =>
          obtain ⟨enough, rfl⟩ := Nat.exists_eq_succ_of_ne_zero (Nat.ne_zero_of_lt fitsToo)
          have left := Nat.le_of_succ_le_succ fits
          have right := Nat.le_of_succ_le_succ fitsToo
          have shorter := length_readEscape text
          rw [unescapeWithin, unescapeWithin]
          split
          · exact congrArg _ (ih (shorter.trans left) (shorter.trans right))
          · exact congrArg _ (ih left right)

theorem unescape_cons_of_ne (notBackslash : c ≠ '\\') (text : List Char) :
    unescape (c :: text) = c :: unescape text := by
  rw [unescape, List.length_cons, unescapeWithin, if_neg notBackslash]
  rfl

theorem unescape_backslash (text : List Char) :
    unescape ('\\' :: text) = (readEscape text).1 ++ unescape (readEscape text).2 := by
  rw [unescape, List.length_cons, unescapeWithin, if_pos rfl]
  exact congrArg _ (unescapeWithin_congr (length_readEscape text) le_rfl)

theorem unescape_append_of_ne (plain : ∀ c ∈ text, c ≠ '\\') (rest : List Char) :
    unescape (text ++ rest) = text ++ unescape rest := by
  induction text with
  | nil => rfl
  | cons c text ih =>
      obtain ⟨here, later⟩ := List.forall_mem_cons.mp plain
      rw [List.cons_append, unescape_cons_of_ne here, ih later, List.cons_append]

theorem IsEscape.unescape_append (isEscape : IsEscape 1 scrap rest) :
    unescape (scrap.source ++ rest) = scrap.char :: unescape rest := by
  cases isEscape with
  | letter known =>
      have read := readEscape_plain (plainEscape?_eq_some_iff.mpr known) rest
      change unescape ('\\' :: _ :: rest) = _
      rw [unescape_backslash, read]
      rfl
  | @code digits _ c takes enough named =>
      have someDigit : digits ≠ [] := List.ne_nil_of_length_pos enough
      have char : codeChar? (codeDigits (digits ++ rest)) = some c := by
        rw [takes.codeDigits_eq, codeChar?, if_neg someDigit]
        exact scalar?_eq_some_iff.mpr named
      change unescape ('\\' :: 'u' :: (digits ++ rest)) = _
      rw [unescape_backslash, readEscape_code_of_some char, takes.codeDigits_eq, List.drop_left]
      rfl

/-- A backslash that begins no escape stays, and so does whatever is read with it. -/
theorem unescape_cons_of_bare (bare : Bare 1 (c :: text)) :
    unescape (c :: text) = c :: unescape text := by
  by_cases backslash : c = '\\'
  · subst backslash
    cases text with
    | nil => rfl
    | cons name rest =>
        rw [unescape_backslash]
        by_cases isCode : name = 'u'
        · subst isCode
          have takes := takesDigits_codeDigits rest
          have unnamed : codeChar? (codeDigits rest) = none := by
            by_contra found
            obtain ⟨d, named⟩ := Option.ne_none_iff_exists'.mp found
            rw [codeChar?] at named
            split at named
            · cases named
            · rename_i someDigit
              have isEscape : IsEscape 1 (.code (codeDigits rest) d) _ :=
                .code takes (List.length_pos_iff.mpr someDigit) (scalar?_eq_some_iff.mp named)
              refine bare _ _ isEscape ?_
              rw [Scrap.source, List.cons_append, List.cons_append, codeDigits_append_drop]
          have plain : ∀ d ∈ codeDigits rest, d ≠ '\\' :=
            fun d member => ne_backslash_of_isHexDigit (takes.hex d member)
          have behind := unescape_append_of_ne plain (rest.drop (codeDigits rest).length)
          rw [codeDigits_append_drop] at behind
          rw [readEscape_code_of_none unnamed, unescape_cons_of_ne (by decide), behind]
          rfl
        · have unknown : plainEscape? name = none := by
            by_contra found
            obtain ⟨d, known⟩ := Option.ne_none_iff_exists'.mp found
            exact bare _ _ (.letter (plainEscape?_eq_some_iff.mp known)) rfl
          have notBackslash : name ≠ '\\' := by
            rintro rfl
            cases unknown
          rw [readEscape_unknown isCode unknown, unescape_cons_of_ne notBackslash]
          rfl
  · exact unescape_cons_of_ne backslash text

/-- Each step of resolving escapes reads on from the left. -/
theorem Reading.map_char (reading : Reading 1 text scraps) :
    scraps.map Scrap.char = unescape text := by
  induction reading with
  | nil => rfl
  | escape isEscape _ ih => rw [isEscape.unescape_append, List.map_cons, ih]
  | plain bare _ ih => rw [unescape_cons_of_bare bare, List.map_cons, ih, Scrap.char]

end Resolving

theorem exists_reading (fewest : Nat) (text : List Char) :
    ∃ scraps, Reading fewest text scraps := by
  by_cases starts : ∃ scrap rest, IsEscape fewest scrap rest ∧ text = scrap.source ++ rest
  · obtain ⟨scrap, rest, isEscape, split⟩ := starts
    obtain ⟨later, reading⟩ := exists_reading fewest rest
    rw [split]
    exact ⟨scrap :: later, .escape isEscape reading⟩
  · have bare : Bare fewest text :=
      fun scrap rest isEscape split => starts ⟨scrap, rest, isEscape, split⟩
    cases text with
    | nil => exact ⟨[], .nil⟩
    | cons c text =>
        obtain ⟨later, reading⟩ := exists_reading fewest text
        exact ⟨.plain c :: later, .plain bare reading⟩
termination_by text.length
decreasing_by
  · obtain ⟨name, more, source⟩ := Scrap.source_eq_cons isEscape
    rw [split, source, List.length_append, List.length_cons]
    omega
  · exact Nat.lt_succ_self _

/-- A text has one reading with codes of one digit or more, and it is what resolving the escapes
comes to. It has one reading with codes of four digits too, and this comes to the same exactly if
the other one has no code of less than four digits. -/
theorem escapes_read_from_left (text : List Char) :
    ∃ scraps strict,
      (∀ others, Reading 1 text others ↔ others = scraps) ∧
      (∀ others, Reading 4 text others ↔ others = strict) ∧
      unescape text = scraps.map Scrap.char ∧
      (unescape text = strict.map Scrap.char ↔
        ∀ digits c, .code digits c ∈ scraps → digits.length = 4) := by
  obtain ⟨scraps, reading⟩ := exists_reading 1 text
  have only {fewest : Nat} {scraps : List Scrap} (reading : Reading fewest text scraps)
      (others : List Scrap) : Reading fewest text others ↔ others = scraps :=
    ⟨fun readingToo => reading.unique readingToo, fun same => same ▸ reading⟩
  refine ⟨scraps, scraps.flatMap Scrap.strict, only reading, only reading.strict,
    reading.map_char.symm, ?_⟩
  rw [← reading.map_char]
  exact map_char_strict_iff scraps

/-- Two digits are read as a code, where a reading with codes of four digits leaves them. -/
theorem short_code_resolved :
    let text := "\\u41".toList
    Reading 4 text (text.map .plain) ∧ (text.map Scrap.plain).map Scrap.char = text ∧
    unescape text = ['A'] ∧
    parseProperties "k = \\u41" = .ok [.simple "k" "A"] := by
  intro text
  have takes : TakesDigits ['4', '1'] [] :=
    ⟨List.all_eq_true.mp (by decide), by decide, .inr stops_nil⟩
  have plain : ∀ c ∈ ['u', '4', '1'], c ≠ '\\' :=
    List.forall_mem_cons.mpr
      ⟨by decide, fun c member => ne_backslash_of_isHexDigit (takes.hex c member)⟩
  have reading : Reading 4 text (text.map .plain) :=
    .plain (bare_of_short takes (by decide)) (Reading.nil.plain_append plain)
  exact ⟨reading, by decide, by decide, rfl⟩

end Phrasebook.Resource
