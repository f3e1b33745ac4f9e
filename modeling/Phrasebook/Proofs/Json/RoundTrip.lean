import Phrasebook.Json.Reader
import Phrasebook.Table

namespace Phrasebook.Json

open Phrasebook.Text

section Strings

theorem printChar_cases (c : Char) :
    (∃ letter, shortEscape? letter = some c ∧ printChar c = ['\\', letter]) ∨
    (c.toNat < 0x20 ∧ printChar c =
      ['\\', 'u', '0', '0', Nat.digitChar (c.toNat / 16), Nat.digitChar (c.toNat % 16)]) ∨
    (c ≠ '"' ∧ c ≠ '\\' ∧ ¬ c.toNat < 0x20 ∧ printChar c = [c]) := by
  unfold printChar
  split
  · exact .inl ⟨'"', by simp_all [shortEscape?], rfl⟩
  split
  · exact .inl ⟨'\\', by simp_all [shortEscape?], rfl⟩
  split
  · exact .inl ⟨'b', by simp_all [shortEscape?], rfl⟩
  split
  · exact .inl ⟨'f', by simp_all [shortEscape?], rfl⟩
  split
  · exact .inl ⟨'n', by simp_all [shortEscape?], rfl⟩
  split
  · exact .inl ⟨'r', by simp_all [shortEscape?], rfl⟩
  split
  · exact .inl ⟨'t', by simp_all [shortEscape?], rfl⟩
  split
  · rename_i control
    exact .inr (.inl ⟨control, rfl⟩)
  · rename_i notQuote notBackslash _ _ _ _ _ notControl
    exact .inr (.inr ⟨notQuote, notBackslash, notControl, rfl⟩)

theorem printChar_ne_nil (c : Char) : printChar c ≠ [] := by
  obtain ⟨letter, -, printed⟩ | ⟨-, printed⟩ | ⟨-, -, -, printed⟩ := printChar_cases c
  all_goals
    rw [printed]
    exact List.cons_ne_nil _ _

theorem readCode_control {c : Char} (control : c.toNat < 0x20) (rest : List Char) :
    readCode ('0' :: '0' :: Nat.digitChar (c.toNat / 16) :: Nat.digitChar (c.toNat % 16) :: rest) =
      .ok (c, rest) := by
  have high := hexValue?_digitChar (c.toNat / 16) (by omega)
  have low := hexValue?_digitChar (c.toNat % 16) (by omega)
  have zero : hexValue? '0' = some 0 := rfl
  have code : 16 * (c.toNat / 16) + c.toNat % 16 = c.toNat := Nat.div_add_mod c.toNat 16
  have read : readHex ('0' :: '0' :: Nat.digitChar (c.toNat / 16) ::
      Nat.digitChar (c.toNat % 16) :: rest) = .ok (c.toNat, rest) := by
    simp [readHex, isHexDigit, hexNumber, high, low, zero, code]
  have notLow : isLowSurrogate c.toNat = false := by
    simp only [isLowSurrogate, Bool.and_eq_false_iff, decide_eq_false_iff_not]
    omega
  have notHigh : isHighSurrogate c.toNat = false := by
    simp only [isHighSurrogate, Bool.and_eq_false_iff, decide_eq_false_iff_not]
    omega
  simp only [readCode, read, bind, Except.bind, notLow, notHigh, Char.ofNat_toNat]
  rfl

theorem readCharsWithin_printChar {steps : Nat} {rest after chars : List Char} (c : Char)
    (later : readCharsWithin steps rest = .ok (chars, after)) :
    readCharsWithin (steps + 1) (printChar c ++ rest) = .ok (c :: chars, after) := by
  obtain ⟨letter, known, printed⟩ | ⟨control, printed⟩ | ⟨notQuote, notBackslash, open_, printed⟩ :=
    printChar_cases c
  · simp [printed, readCharsWithin, readEscape, known, later, bind, Except.bind]
  · have escaped := readCode_control control rest
    simp [printed, readCharsWithin, readEscape, shortEscape?, escaped, later, bind, Except.bind]
  · simp [printed, readCharsWithin, notQuote, notBackslash, open_, later, bind, Except.bind]

theorem readCharsWithin_flatMap (chars rest : List Char) (steps : Nat)
    (enough : chars.length < steps) :
    readCharsWithin steps (chars.flatMap printChar ++ '"' :: rest) = .ok (chars, rest) := by
  induction chars generalizing steps with
  | nil =>
      obtain ⟨steps, rfl⟩ := Nat.exists_eq_succ_of_ne_zero (Nat.ne_zero_of_lt enough)
      simp [readCharsWithin]
  | cons c chars ih =>
      obtain ⟨steps, rfl⟩ := Nat.exists_eq_succ_of_ne_zero (Nat.ne_zero_of_lt enough)
      rw [List.flatMap_cons, List.append_assoc]
      exact readCharsWithin_printChar c (ih steps (Nat.lt_of_succ_lt_succ enough))

theorem length_le_flatMap_printChar (chars : List Char) :
    chars.length ≤ (chars.flatMap printChar).length := by
  induction chars with
  | nil => simp
  | cons c chars ih =>
      have nonempty := List.length_pos_iff.mpr (printChar_ne_nil c)
      simp only [List.flatMap_cons, List.length_append, List.length_cons]
      omega

theorem readChars_printed (s : String) (rest : List Char) :
    readChars (s.toList.flatMap printChar ++ '"' :: rest) = .ok (s.toList, rest) := by
  apply readCharsWithin_flatMap
  have long := length_le_flatMap_printChar s.toList
  simp only [List.length_append, List.length_cons]
  omega

@[simp] theorem isSpace_of_visible {c : Char} (visible : 0x21 ≤ c.toNat) : isSpace c = false := by
  simp only [isSpace, Bool.or_eq_false_iff, decide_eq_false_iff_not]
  refine ⟨⟨⟨?_, ?_⟩, ?_⟩, ?_⟩
  all_goals
    rintro rfl
    exact absurd visible (by decide)

@[simp] theorem skipSpace_cons {c : Char} (solid : isSpace c = false) (rest : List Char) :
    skipSpace (c :: rest) = c :: rest := by
  simp [skipSpace, solid]

theorem readColon_cons (rest : List Char) : readColon (':' :: rest) = .ok rest := by
  simp [readColon, skipSpace_cons]

theorem printString_append (s : String) (rest : List Char) :
    printString s ++ rest = '"' :: (s.toList.flatMap printChar ++ '"' :: rest) := by
  simp [printString]

theorem readString_printString (s : String) (rest : List Char) :
    readString (printString s ++ rest) = .ok (s, rest) := by
  simp [printString_append, readString, skipSpace_cons, readChars_printed, Except.map]

end Strings

mutual

/-- How many lists and objects are open at once. -/
def Value.nesting : Value → Nat
  | .array items => nestingOfItems items + 1
  | .object members => nestingOfMembers members + 1
  | _ => 0

def nestingOfItems : List Value → Nat
  | [] => 0
  | item :: items => max item.nesting (nestingOfItems items)

def nestingOfMembers : List (String × Value) → Nat
  | [] => 0
  | (_, value) :: members => max value.nesting (nestingOfMembers members)

end

mutual

def Value.Numberless : Value → Prop
  | .number _ => False
  | .array items => NumberlessItems items
  | .object members => NumberlessMembers members
  | _ => True

def NumberlessItems : List Value → Prop
  | [] => True
  | item :: items => item.Numberless ∧ NumberlessItems items

def NumberlessMembers : List (String × Value) → Prop
  | [] => True
  | (_, value) :: members => value.Numberless ∧ NumberlessMembers members

end

theorem nestingOfItems_le {items : List Value} {levels : Nat}
    (fits : nestingOfItems items ≤ levels) : ∀ item ∈ items, item.nesting ≤ levels := by
  induction items with
  | nil => exact nofun
  | cons item items ih =>
      simp only [nestingOfItems, Nat.max_le] at fits
      exact List.forall_mem_cons.mpr ⟨fits.1, ih fits.2⟩

theorem nestingOfMembers_le {members : List (String × Value)} {levels : Nat}
    (fits : nestingOfMembers members ≤ levels) : ∀ member ∈ members, member.2.nesting ≤ levels := by
  induction members with
  | nil => exact nofun
  | cons member members ih =>
      simp only [nestingOfMembers, Nat.max_le] at fits
      exact List.forall_mem_cons.mpr ⟨fits.1, ih fits.2⟩

theorem numberlessMembers_append (first second : List (String × Value)) :
    NumberlessMembers (first ++ second) ↔ NumberlessMembers first ∧ NumberlessMembers second := by
  induction first with
  | nil => simp [NumberlessMembers]
  | cons member first ih => simp only [List.cons_append, NumberlessMembers, ih, and_assoc]

theorem numberlessMembers_mapValues {α : Type} {toValue : α → Value}
    (numberless : ∀ a, (toValue a).Numberless) (table : Table α) :
    NumberlessMembers (table.mapValues toValue) := by
  induction table with
  | nil => exact trivial
  | cons member table ih => exact ⟨numberless member.2, ih⟩

def printFirstItem : List Value → List Char
  | [] => [']']
  | item :: items => item.print ++ printItems items

def printFirstMember : List (String × Value) → List Char
  | [] => ['}']
  | (name, value) :: members => printString name ++ ':' :: (value.print ++ printMembers members)

theorem print_array (items : List Value) :
    (Value.array items).print = '[' :: printFirstItem items := by
  cases items <;> rfl

theorem print_object (members : List (String × Value)) :
    (Value.object members).print = '{' :: printFirstMember members := by
  cases members <;> rfl

/-- A value without numbers starts with a character that neither is skipped nor ends a list; `null`
is told by it. -/
theorem Value.print_starts {value : Value} (numberless : value.Numberless) :
    ∃ c rest, value.print = c :: rest ∧ isSpace c = false ∧ c ≠ ']' ∧
      (value ≠ .null → c ≠ 'n') := by
  cases value with
  | null => exact ⟨'n', _, rfl, rfl, by decide, fun present => absurd rfl present⟩
  | bool b => cases b with
    | true => exact ⟨'t', _, rfl, rfl, by decide, fun _ => by decide⟩
    | false => exact ⟨'f', _, rfl, rfl, by decide, fun _ => by decide⟩
  | number n => exact numberless.elim
  | string s => exact ⟨'"', _, rfl, rfl, by decide, fun _ => by decide⟩
  | array items => exact ⟨'[', _, print_array items, rfl, by decide, fun _ => by decide⟩
  | object members => exact ⟨'{', _, print_object members, rfl, by decide, fun _ => by decide⟩

section Containers

variable {α : Type} {toValue : α → Value}

theorem nextItem_print {value : Value} (numberless : value.Numberless) (rest : List Char) :
    nextItem true (value.print ++ rest) = .ok (true, value.print ++ rest) ∧
      nextItem false (',' :: (value.print ++ rest)) = .ok (true, value.print ++ rest) := by
  obtain ⟨c, tail, printed, solid, notEnd, -⟩ := value.print_starts numberless
  rw [printed, List.cons_append]
  refine ⟨?_, ?_⟩
  · simp [nextItem, skipSpace_cons solid]
  · simp [nextItem, skipSpace_cons solid, skipSpace_cons, notEnd]

theorem nextName_printString (name : String) (rest : List Char) :
    nextName true (printString name ++ rest) = .ok (some name, rest) ∧
      nextName false (',' :: (printString name ++ rest)) = .ok (some name, rest) := by
  rw [printString_append]
  refine ⟨?_, ?_⟩
  · simp [nextName, skipSpace_cons, readChars_printed, Except.map]
  · simp [nextName, skipSpace_cons, skipSpace_cons, readChars_printed, Except.map]

theorem readItems_print {item : List Char → Outcome α} {items : List α}
    (reads : ∀ a ∈ items, (toValue a).Numberless ∧
      ∀ rest, item ((toValue a).print ++ rest) = .ok (a, rest))
    (steps : Nat) (enough : items.length < steps) (rest : List Char) :
    readItems item steps false (printItems (items.map toValue) ++ rest) =
      .ok (items, ']' :: rest) := by
  induction items generalizing steps with
  | nil =>
      obtain ⟨steps, rfl⟩ := Nat.exists_eq_succ_of_ne_zero (Nat.ne_zero_of_lt enough)
      simp [printItems, readItems, nextItem, skipSpace_cons, bind, Except.bind]
  | cons a items ih =>
      obtain ⟨steps, rfl⟩ := Nat.exists_eq_succ_of_ne_zero (Nat.ne_zero_of_lt enough)
      obtain ⟨⟨numberless, here⟩, later⟩ := List.forall_mem_cons.mp reads
      have next := (nextItem_print numberless (printItems (items.map toValue) ++ rest)).2
      have others := ih later steps (Nat.lt_of_succ_lt_succ enough)
      simp [printItems, readItems, next, here, others, bind, Except.bind]

theorem readMembers_print {value : List Char → Outcome α} {members : Table α}
    (reads : ∀ member ∈ members,
      ∀ rest, value ((toValue member.2).print ++ rest) = .ok (member.2, rest))
    (steps : Nat) (enough : members.length < steps) (rest : List Char) :
    readMembers value steps false (printMembers (members.mapValues toValue) ++ rest) =
      .ok (members, '}' :: rest) := by
  induction members generalizing steps with
  | nil =>
      obtain ⟨steps, rfl⟩ := Nat.exists_eq_succ_of_ne_zero (Nat.ne_zero_of_lt enough)
      simp [printMembers, readMembers, nextName, skipSpace_cons, bind, Except.bind]
  | cons member members ih =>
      obtain ⟨steps, rfl⟩ := Nat.exists_eq_succ_of_ne_zero (Nat.ne_zero_of_lt enough)
      obtain ⟨name, a⟩ := member
      obtain ⟨here, later⟩ := List.forall_mem_cons.mp reads
      have others := ih later steps (Nat.lt_of_succ_lt_succ enough)
      simp [printMembers, readMembers, nextName_printString, readColon_cons, here, others, bind,
        Except.bind]

theorem length_lt_printItems (items : List Value) : items.length < (printItems items).length := by
  induction items with
  | nil => simp [printItems]
  | cons item items ih =>
      simp only [printItems, List.length_cons, List.length_append]
      omega

theorem length_lt_printMembers (members : List (String × Value)) :
    members.length < (printMembers members).length := by
  induction members with
  | nil => simp [printMembers]
  | cons member members ih =>
      simp only [printMembers, List.length_cons, List.length_append]
      omega

theorem length_le_printFirstItem (items : List Value) :
    items.length ≤ (printFirstItem items).length := by
  cases items with
  | nil => simp
  | cons item items =>
      have others := length_lt_printItems items
      simp only [printFirstItem, List.length_cons, List.length_append]
      omega

theorem length_le_printFirstMember (members : List (String × Value)) :
    members.length ≤ (printFirstMember members).length := by
  cases members with
  | nil => simp
  | cons member members =>
      have others := length_lt_printMembers members
      simp only [printFirstMember, List.length_cons, List.length_append]
      omega

theorem readItems_printFirstItem {item : List Char → Outcome α} {items : List α}
    (reads : ∀ a ∈ items, (toValue a).Numberless ∧
      ∀ rest, item ((toValue a).print ++ rest) = .ok (a, rest))
    (steps : Nat) (enough : items.length < steps) (rest : List Char) :
    readItems item steps true (printFirstItem (items.map toValue) ++ rest) =
      .ok (items, ']' :: rest) := by
  obtain ⟨steps, rfl⟩ := Nat.exists_eq_succ_of_ne_zero (Nat.ne_zero_of_lt enough)
  cases items with
  | nil => simp [printFirstItem, readItems, nextItem, bind, Except.bind]
  | cons a items =>
      obtain ⟨⟨numberless, here⟩, later⟩ := List.forall_mem_cons.mp reads
      have next := (nextItem_print numberless (printItems (items.map toValue) ++ rest)).1
      have others := readItems_print later steps (Nat.lt_of_succ_lt_succ enough) rest
      simp [printFirstItem, readItems, next, here, others, bind, Except.bind]

theorem readMembers_printFirstMember {value : List Char → Outcome α} {members : Table α}
    (reads : ∀ member ∈ members,
      ∀ rest, value ((toValue member.2).print ++ rest) = .ok (member.2, rest))
    (steps : Nat) (enough : members.length < steps) (rest : List Char) :
    readMembers value steps true (printFirstMember (members.mapValues toValue) ++ rest) =
      .ok (members, '}' :: rest) := by
  obtain ⟨steps, rfl⟩ := Nat.exists_eq_succ_of_ne_zero (Nat.ne_zero_of_lt enough)
  cases members with
  | nil => simp [printFirstMember, readMembers, nextName, bind, Except.bind]
  | cons member members =>
      obtain ⟨here, later⟩ := List.forall_mem_cons.mp reads
      have others := readMembers_print later steps (Nat.lt_of_succ_lt_succ enough) rest
      simp [printFirstMember, readMembers, nextName_printString, readColon_cons, here, others, bind,
        Except.bind]

theorem readList_print {item : Nat → List Char → Outcome α} {items : List α} {levels : Nat}
    (reads : ∀ a ∈ items, (toValue a).Numberless ∧
      ∀ rest, item levels ((toValue a).print ++ rest) = .ok (a, rest)) (rest : List Char) :
    readList item (levels + 1) ((Value.array (items.map toValue)).print ++ rest) =
      .ok (items, rest) := by
  have enough := length_le_printFirstItem (items.map toValue)
  have read := readItems_printFirstItem reads
    ((printFirstItem (items.map toValue) ++ rest).length + 1)
    (by rw [List.length_map] at enough; simp only [List.length_append]; omega) rest
  rw [print_array, List.cons_append]
  simp [readList, -List.length_append, read, close, listEnd]

theorem readObject_print {value : Nat → List Char → Outcome α} {members : Table α} {levels : Nat}
    (reads : ∀ member ∈ members,
      ∀ rest, value levels ((toValue member.2).print ++ rest) = .ok (member.2, rest))
    (rest : List Char) :
    readObject value (levels + 1) ((Value.object (members.mapValues toValue)).print ++ rest) =
      .ok (members, rest) := by
  have enough := length_le_printFirstMember (members.mapValues toValue)
  have read := readMembers_printFirstMember reads
    ((printFirstMember (members.mapValues toValue) ++ rest).length + 1)
    (by rw [Table.length_mapValues] at enough; simp only [List.length_append]; omega) rest
  rw [print_object, List.cons_append]
  simp [readObject, -List.length_append, read, close, objectEnd]

end Containers

theorem readValue_array (levels : Nat) (items : List Value) (rest : List Char) :
    readValue levels ((Value.array items).print ++ rest) =
      (readList readValue levels ((Value.array items).print ++ rest)).map
        fun read => (.array read.1, read.2) := by
  rw [print_array, List.cons_append]
  cases levels <;> simp [readValue, readList, skipSpace_cons, Except.map]

theorem readValue_object (levels : Nat) (members : List (String × Value)) (rest : List Char) :
    readValue levels ((Value.object members).print ++ rest) =
      (readObject readValue levels ((Value.object members).print ++ rest)).map
        fun read => (.object read.1, read.2) := by
  rw [print_object, List.cons_append]
  cases levels <;> simp [readValue, readObject, skipSpace_cons, Except.map]

mutual

theorem readValue_print : ∀ (value : Value) (levels : Nat) (rest : List Char), value.Numberless →
    value.nesting ≤ levels → readValue levels (value.print ++ rest) = .ok (value, rest)
  | .null, levels, rest, _, _ => by
      simp [Value.print, readValue, skipSpace, isSpace, readScalar?, readWord, Except.map]
  | .bool true, levels, rest, _, _ => by
      simp [Value.print, readValue, skipSpace, isSpace, readScalar?, readWord, Except.map]
  | .bool false, levels, rest, _, _ => by
      simp [Value.print, readValue, skipSpace, isSpace, readScalar?, readWord, Except.map]
  | .number _, _, _, numberless, _ => numberless.elim
  | .string s, levels, rest, _, _ => by
      simp [Value.print, printString_append, readValue, skipSpace_cons, readScalar?,
        readChars_printed, Except.map]
  | .array items, levels, rest, numberless, fits => by
      obtain ⟨levels, rfl⟩ := Nat.exists_eq_succ_of_ne_zero (Nat.ne_zero_of_lt fits)
      have reads := readValue_items items levels numberless (Nat.le_of_succ_le_succ fits)
      have read := @readList_print _ id readValue items levels reads rest
      rw [List.map_id] at read
      rw [readValue_array, read]
      rfl
  | .object members, levels, rest, numberless, fits => by
      obtain ⟨levels, rfl⟩ := Nat.exists_eq_succ_of_ne_zero (Nat.ne_zero_of_lt fits)
      have reads := readValue_members members levels numberless (Nat.le_of_succ_le_succ fits)
      have read := @readObject_print _ id readValue members levels reads rest
      rw [Table.mapValues_id] at read
      rw [readValue_object, read]
      rfl

theorem readValue_items : ∀ (items : List Value) (levels : Nat), NumberlessItems items →
    nestingOfItems items ≤ levels → ∀ item ∈ items, item.Numberless ∧
      ∀ rest, readValue levels (item.print ++ rest) = .ok (item, rest)
  | [], _, _, _ => nofun
  | item :: items, levels, ⟨numberless, others⟩, fits => by
      have fitsHere := Nat.le_trans (Nat.le_max_left _ _) fits
      have fitsLater := Nat.le_trans (Nat.le_max_right _ _) fits
      refine List.forall_mem_cons.mpr ⟨⟨numberless, fun rest => ?_⟩, ?_⟩
      · exact readValue_print item levels rest numberless fitsHere
      · exact readValue_items items levels others fitsLater

theorem readValue_members : ∀ (members : List (String × Value)) (levels : Nat),
    NumberlessMembers members → nestingOfMembers members ≤ levels → ∀ member ∈ members,
      ∀ rest, readValue levels (member.2.print ++ rest) = .ok (member.2, rest)
  | [], _, _, _ => nofun
  | (name, value) :: members, levels, ⟨numberless, others⟩, fits => by
      have fitsHere := Nat.le_trans (Nat.le_max_left _ _) fits
      have fitsLater := Nat.le_trans (Nat.le_max_right _ _) fits
      refine List.forall_mem_cons.mpr ⟨fun rest => ?_, ?_⟩
      · exact readValue_print value levels rest numberless fitsHere
      · exact readValue_members members levels others fitsLater

end

end Phrasebook.Json
