import Mathlib.Data.String.Basic

namespace Phrasebook.Text

def utf8 (text : String) : List UInt8 :=
  text.toUTF8.data.toList

theorem utf8_eq (text : String) : utf8 text = text.toList.flatMap String.utf8EncodeChar := by
  obtain ⟨chars, rfl⟩ := text.exists_eq_ofList
  rw [utf8, String.toUTF8, String.toByteArray_ofList, List.utf8Encode,
    List.toList_data_toByteArray, String.toList_ofList]

section Characters

variable {a b v w : Nat} {left right : List UInt8} {c d : Char}

theorem ofNat_cons_lt (byte : b < 256) (notAbove : a ≤ b) (behind : a = b → left < right) :
    UInt8.ofNat a :: left < UInt8.ofNat b :: right := by
  rw [List.cons_lt_cons_iff, UInt8.lt_iff_toNat_lt, UInt8.toNat_ofNat', UInt8.toNat_ofNat',
    Nat.mod_eq_of_lt byte, Nat.mod_eq_of_lt (Nat.lt_of_le_of_lt notAbove byte)]
  rcases Nat.lt_or_eq_of_le notAbove with below | same
  · exact .inl below
  · exact .inr ⟨congrArg UInt8.ofNat same, behind same⟩

theorem toNat_val_lt (c : Char) : c.val.toNat < 0x110000 := by
  rcases c.valid with low | ⟨-, high⟩
  · omega
  · exact high

/-- The codes differ in the first byte if they differ in length, and else in the first digit in
which the code points do. -/
theorem utf8EncodeChar_append_lt (before : c < d) (left right : List UInt8) :
    String.utf8EncodeChar c ++ left < String.utf8EncodeChar d ++ right := by
  have order : c.val.toNat < d.val.toNat := UInt32.lt_iff_toNat_lt.mp before
  have top := toNat_val_lt d
  unfold String.utf8EncodeChar
  generalize c.val.toNat = v at *
  generalize d.val.toNat = w at *
  dsimp only
  by_cases one : v ≤ 0x7f
  · rw [if_pos one]
    split
    · exact ofNat_cons_lt (by omega) (by omega) fun same => by omega
    split
    · exact ofNat_cons_lt (by omega) (by omega) fun same => by omega
    split
    · exact ofNat_cons_lt (by omega) (by omega) fun same => by omega
    · exact ofNat_cons_lt (by omega) (by omega) fun same => by omega
  rw [if_neg one, if_neg (fun small => one (by omega) : ¬ w ≤ 0x7f)]
  by_cases two : v ≤ 0x7ff
  · rw [if_pos two]
    split
    · refine ofNat_cons_lt (by omega) (by omega) fun first => ?_
      exact ofNat_cons_lt (by omega) (by omega) fun second => by omega
    split
    · exact ofNat_cons_lt (by omega) (by omega) fun same => by omega
    · exact ofNat_cons_lt (by omega) (by omega) fun same => by omega
  rw [if_neg two, if_neg (fun small => two (by omega) : ¬ w ≤ 0x7ff)]
  by_cases three : v ≤ 0xffff
  · rw [if_pos three]
    split
    · refine ofNat_cons_lt (by omega) (by omega) fun first => ?_
      refine ofNat_cons_lt (by omega) (by omega) fun second => ?_
      exact ofNat_cons_lt (by omega) (by omega) fun third => by omega
    · exact ofNat_cons_lt (by omega) (by omega) fun same => by omega
  · rw [if_neg three, if_neg (fun small => three (by omega) : ¬ w ≤ 0xffff)]
    refine ofNat_cons_lt (by omega) (by omega) fun first => ?_
    refine ofNat_cons_lt (by omega) (by omega) fun second => ?_
    refine ofNat_cons_lt (by omega) (by omega) fun third => ?_
    exact ofNat_cons_lt (by omega) (by omega) fun fourth => by omega

end Characters

theorem flatMap_utf8EncodeChar_lt {text other : List Char} (before : text < other) :
    text.flatMap String.utf8EncodeChar < other.flatMap String.utf8EncodeChar := by
  induction text generalizing other with
  | nil =>
      cases other with
      | nil => cases before
      | cons d other =>
          obtain ⟨byte, more, code⟩ := List.exists_cons_of_ne_nil (@String.utf8EncodeChar_ne_nil d)
          rw [List.flatMap_nil, List.flatMap_cons, code]
          exact List.nil_lt_cons _ _
  | cons c text ih =>
      cases other with
      | nil => cases before
      | cons d other =>
          rw [List.flatMap_cons, List.flatMap_cons]
          obtain first | ⟨rfl, behind⟩ := List.cons_lt_cons_iff.mp before
          · exact utf8EncodeChar_append_lt first _ _
          · exact List.append_left_lt (ih behind)

theorem utf8_lt_iff {text other : String} : utf8 text < utf8 other ↔ text < other := by
  rw [utf8_eq, utf8_eq]
  constructor
  · intro bytes
    rcases lt_trichotomy text other with before | rfl | behind
    · exact before
    · exact absurd bytes (List.lt_irrefl _)
    · exact absurd (flatMap_utf8EncodeChar_lt behind) (List.lt_asymm bytes)
  · exact fun before => flatMap_utf8EncodeChar_lt before

end Phrasebook.Text
