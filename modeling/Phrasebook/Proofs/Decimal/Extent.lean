import Mathlib.Algebra.Group.Nat.Defs
import Phrasebook.Value

namespace Phrasebook.Decimal

def Ascii (text : List Char) : Prop :=
  ∀ c ∈ text, c.toNat < 128

instance (text : List Char) : Decidable (Ascii text) :=
  show Decidable (∀ c ∈ text, c.toNat < 128) from List.decidableBAll _ text

theorem ascii_cons {c : Char} {rest : List Char} :
    Ascii (c :: rest) ↔ c.toNat < 128 ∧ Ascii rest :=
  List.forall_mem_cons

theorem ascii_append {front rest : List Char} :
    Ascii (front ++ rest) ↔ Ascii front ∧ Ascii rest :=
  List.forall_mem_append

theorem ascii_digitText (n : Nat) : Ascii (digitText n) := by
  intro c member
  have digit := Nat.isDigit_of_mem_toDigits (by decide) (by decide) member
  simp only [Char.isDigit, Bool.and_eq_true, decide_eq_true_eq] at digit
  have below : c.val.toNat ≤ 57 := UInt32.le_iff_toNat_le.mp digit.2
  exact Nat.lt_of_le_of_lt below (by decide)

theorem ascii_replicate (count : Nat) : Ascii (List.replicate count '0') := by
  intro c member
  rw [List.eq_of_mem_replicate member]
  decide

theorem Layout.ascii_positionalText (layout : Layout) (d : Figure) :
    Ascii (layout.positionalText d) := by
  have digits := ascii_digitText d.digits
  unfold positionalText
  dsimp only
  split
  · rw [ascii_append, ascii_append]
    refine ⟨⟨digits, ascii_replicate _⟩, ?_⟩
    split
    · decide
    · nofun
  · split
    · rw [ascii_append, ascii_cons]
      refine ⟨fun c member => ?_, by decide, fun c member => ?_⟩
      · exact digits c (List.mem_of_mem_take member)
      · exact digits c (List.mem_of_mem_drop member)
    · rw [ascii_append, ascii_append]
      exact ⟨⟨by decide, ascii_replicate _⟩, digits⟩

theorem ascii_exponentText (n : Int) : Ascii (exponentText n) := by
  unfold exponentText
  rw [ascii_cons]
  refine ⟨?_, ascii_digitText _⟩
  split
  · decide
  · decide

theorem ascii_scientificText (d : Figure) : Ascii (scientificText d) := by
  have digits := ascii_digitText d.digits
  unfold scientificText
  dsimp only
  rw [ascii_append, ascii_cons]
  refine ⟨?_, by decide, ascii_exponentText _⟩
  generalize digitText d.digits = text at digits
  match text with
  | [] => exact digits
  | [_] => exact digits
  | digit :: next :: fraction =>
      obtain ⟨first, rest⟩ := ascii_cons.mp digits
      exact ascii_cons.mpr ⟨first, ascii_cons.mpr ⟨by decide, rest⟩⟩

theorem ascii_signed {text : List Char} (negative : Bool) (ascii : Ascii text) :
    Ascii (signed negative text) := by
  unfold signed
  split
  · exact ascii_cons.mpr ⟨by decide, ascii⟩
  · exact ascii

theorem Layout.ascii_float (layout : Layout) (x : Float) : Ascii (layout.float x).toList := by
  rw [float, String.toList_ofList]
  cases Binary.ofFloat x with
  | nan => exact (by decide : Ascii ['N', 'a', 'N'])
  | infinite negative => exact ascii_signed negative (by decide)
  | finite negative m =>
      apply ascii_signed
      unfold figure
      split
      · exact layout.ascii_positionalText _
      · exact ascii_scientificText _

structure Magnitude.Bounded (m : Magnitude) : Prop where
  mantissa_lt : m.mantissa < 2 ^ 53
  le_exponent : -1074 ≤ m.exponent
  exponent_le : m.exponent ≤ 971

theorem Binary.bounded_ofBits {bits : Nat} {negative : Bool} {m : Magnitude}
    (finite : ofBits bits = .finite negative m) : m.Bounded := by
  have fraction_lt := Nat.mod_lt bits (by decide : exponentUnit > 0)
  have exponent_lt := Nat.mod_lt (bits / exponentUnit) (by decide : exponentCount > 0)
  unfold ofBits at finite
  dsimp only at finite
  generalize bits % exponentUnit = fraction at finite fraction_lt
  generalize bits / exponentUnit % exponentCount = exponent at finite exponent_lt
  split at finite
  · split at finite <;> cases finite
  · split at finite
    · cases finite
      exact ⟨Nat.lt_trans fraction_lt (by decide), Int.le_refl _, (by decide : (-1074 : Int) ≤ 971)⟩
    · cases finite
      simp only [exponentUnit, exponentCount] at *
      refine ⟨?_, ?_, ?_⟩ <;> dsimp only <;> omega

theorem Magnitude.Bounded.ceiling {m : Magnitude} (bounded : m.Bounded)
    (positive : 0 < m.mantissa) : -322 ≤ m.ceiling ∧ m.ceiling ≤ 310 := by
  have log : m.mantissa.log2 < 53 :=
    (Nat.log2_lt (Nat.ne_of_gt positive)).mpr bounded.mantissa_lt
  have low := bounded.le_exponent
  have high := bounded.exponent_le
  unfold Magnitude.ceiling
  omega

theorem Tie.choose_le (tie : Tie) (below : Nat) : tie.choose below ≤ below + 1 := by
  cases tie with
  | up => exact Nat.le_refl _
  | even =>
      change (if below % 2 = 0 then below else below + 1) ≤ below + 1
      split
      · exact Nat.le_succ below
      · exact Nat.le_refl _

theorem Magnitude.onGrid?_digits {m : Magnitude} {tie : Tie} {exponent : Int} {d : Figure}
    (found : m.onGrid? tie exponent = some d) :
    d.exponent = exponent ∧
      d.digits ≤ 4 * m.mantissa * (m.grid exponent).scale / (m.grid exponent).step + 1 := by
  unfold onGrid? at found
  dsimp only at found
  generalize 4 * m.mantissa * (m.grid exponent).scale = value at found ⊢
  generalize value / (m.grid exponent).step = below at found ⊢
  split at found
  · cases found
  · cases found
    exact ⟨rfl, Nat.le_succ below⟩
  · cases found
    exact ⟨rfl, Nat.le_refl _⟩
  · split at found
    · cases found
      exact ⟨rfl, Nat.le_succ below⟩
    · split at found
      · cases found
        exact ⟨rfl, Nat.le_refl _⟩
      · cases found
        exact ⟨rfl, tie.choose_le below⟩

theorem length_digitText_le {n k : Nat} (positive : 0 < k) (below : n < 10 ^ k) :
    (digitText n).length ≤ k :=
  (Nat.length_toDigits_le_iff (by decide) positive).mpr below

theorem Magnitude.scale_le (m : Magnitude) {exponent : Int} {span : Nat}
    (within : (m.exponent - 2).toNat + (-exponent).toNat ≤ span) :
    (m.grid exponent).scale ≤ 10 ^ span :=
  calc
    2 ^ (m.exponent - 2).toNat * 10 ^ (-exponent).toNat
        ≤ 10 ^ (m.exponent - 2).toNat * 10 ^ (-exponent).toNat :=
      Nat.mul_le_mul_right _ (Nat.pow_le_pow_left (by decide) _)
    _ = 10 ^ ((m.exponent - 2).toNat + (-exponent).toNat) := (Nat.pow_add _ _ _).symm
    _ ≤ 10 ^ span := Nat.pow_le_pow_right (by decide) within

theorem Magnitude.Bounded.length_digits_le {m : Magnitude} (bounded : m.Bounded) {tie : Tie}
    {exponent : Int} {span : Nat} (within : (m.exponent - 2).toNat + (-exponent).toNat ≤ span)
    {d : Figure} (found : m.onGrid? tie exponent = some d) :
    (digitText d.digits).length ≤ 54 + span := by
  have scale_pos : 0 < (m.grid exponent).scale :=
    Nat.mul_pos (Nat.pow_pos (by decide)) (Nat.pow_pos (by decide))
  have mantissa_lt : 4 * m.mantissa + 1 < 10 ^ 54 := by
    have bound := bounded.mantissa_lt
    omega
  apply length_digitText_le (by omega)
  calc
    d.digits ≤ 4 * m.mantissa * (m.grid exponent).scale / (m.grid exponent).step + 1 :=
      (onGrid?_digits found).2
    _ ≤ 4 * m.mantissa * (m.grid exponent).scale + (m.grid exponent).scale :=
      Nat.add_le_add (Nat.div_le_self _ _) scale_pos
    _ = (4 * m.mantissa + 1) * (m.grid exponent).scale := (Nat.succ_mul _ _).symm
    _ < 10 ^ 54 * 10 ^ span :=
      Nat.mul_lt_mul_of_lt_of_le mantissa_lt (m.scale_le within) (Nat.pow_pos (by decide))
    _ = 10 ^ (54 + span) := (Nat.pow_add 10 54 span).symm

/-- Whatever the search comes upon stands on one of the grids that it tried. -/
theorem Magnitude.Bounded.search {m : Magnitude} (bounded : m.Bounded) (tie : Tie) (grids : Nat)
    (exponent : Int) (low : -346 ≤ exponent - grids) (high : exponent ≤ 310) :
    (digitText (m.search tie grids exponent).digits).length ≤ 1369 ∧
      (m.search tie grids exponent).exponent.natAbs ≤ 346 := by
  induction grids generalizing exponent with
  | zero =>
      rw [Magnitude.search]
      exact ⟨(by decide : (digitText 0).length ≤ 1369), by dsimp only; omega⟩
  | succ grids ih =>
      rw [Magnitude.search]
      split
      · rename_i found
        have high := bounded.exponent_le
        refine ⟨bounded.length_digits_le (by omega : _ ≤ 1315) found, ?_⟩
        rw [(onGrid?_digits found).1]
        omega
      · exact ih (exponent - 1) (by omega) (by omega)

theorem Magnitude.Bounded.shortest {m : Magnitude} (bounded : m.Bounded) (tie : Tie) :
    (digitText (m.shortest tie).digits).length ≤ 1369 ∧
      (m.shortest tie).exponent.natAbs ≤ 346 := by
  unfold Magnitude.shortest
  split
  · exact ⟨by decide, by decide⟩
  · rename_i nonzero
    obtain ⟨low, high⟩ := bounded.ceiling (Nat.pos_of_ne_zero nonzero)
    exact bounded.search tie 24 m.ceiling (by omega) high

theorem Layout.length_positionalText_le (d : Figure) :
    (plain.positionalText d).length ≤ (digitText d.digits).length + d.exponent.natAbs + 2 := by
  unfold positionalText
  dsimp only
  split
  · simp only [plain, List.length_append, List.length_replicate, Bool.false_eq_true, if_false,
      List.length_nil]
    omega
  · split
    · simp only [List.length_append, List.length_take, List.length_cons, List.length_drop]
      omega
    · simp only [List.length_append, List.length_replicate, List.length_cons, List.length_nil]
      omega

theorem length_signed_le (negative : Bool) (text : List Char) :
    (signed negative text).length ≤ text.length + 1 := by
  unfold signed
  split
  · exact Nat.le_refl _
  · exact Nat.le_succ _

theorem Layout.length_plain_lt (x : Float) : (plain.float x).length < 2500 := by
  rw [float, String.length_ofList]
  cases finite : Binary.ofFloat x with
  | nan => exact (by decide : ['N', 'a', 'N'].length < 2500)
  | infinite negative =>
      exact Nat.lt_of_le_of_lt (length_signed_le negative ['i', 'n', 'f']) (by decide)
  | finite negative m =>
      obtain ⟨digits, exponent⟩ := (Binary.bounded_ofBits finite).shortest .up
      calc
        (plain.binary (.finite negative m)).length ≤
            (plain.positionalText (m.shortest .up)).length + 1 :=
          length_signed_le negative _
        _ ≤ (digitText (m.shortest .up).digits).length +
            (m.shortest .up).exponent.natAbs + 2 + 1 :=
          Nat.add_le_add_right (length_positionalText_le _) 1
        _ < 2500 := by omega

end Phrasebook.Decimal

namespace Phrasebook.Value

open Phrasebook.Decimal

theorem ascii_integerText (n : Int) : Ascii (integerText n) := by
  unfold integerText
  split
  · exact ascii_cons.mpr ⟨by decide, ascii_digitText _⟩
  · exact ascii_digitText _

theorem length_integerText_le (n : Int64) : (integerText n.toInt).length ≤ 20 := by
  have low := n.le_toInt
  have high := n.toInt_lt
  have digits : (digitText n.toInt.natAbs).length ≤ 19 :=
    length_digitText_le (by decide) (by omega)
  unfold integerText
  split
  · rw [List.length_cons]
    omega
  · omega

theorem length_display_lt (value : Value) :
    value.isText = false → value.display.length < 2500 := by
  intro number
  cases value with
  | number n =>
      rw [display, String.length_ofList]
      exact Nat.lt_of_le_of_lt (length_integerText_le n) (by decide)
  | float x => exact Layout.length_plain_lt x
  | text s => cases number

theorem ascii_display (value : Value) :
    value.isText = false → Ascii value.display.toList := by
  intro number
  cases value with
  | number n =>
      rw [display, String.toList_ofList]
      exact ascii_integerText n.toInt
  | float x => exact Layout.plain.ascii_float x
  | text s => cases number

end Phrasebook.Value
