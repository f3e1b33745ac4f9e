import Mathlib.Algebra.Group.Nat.Defs
import Phrasebook.Value

namespace Phrasebook.Decimal

open Float.Model (Format UnpackedFloat totalExponent)
open Float.Model.UnpackedFloat

theorem shiftRight_mantissa (extended : ExtendedMantissa) (count : Nat) :
    (extended >>> count).mantissa = extended.mantissa / 2 ^ count := by
  induction count with
  | zero => exact (Nat.div_one _).symm
  | succ count ih =>
      change (extended >>> count).mantissa / 2 = _
      rw [ih, Nat.div_div_eq_div_mul, Nat.pow_succ]

theorem roundedMantissa_bounds (extended : ExtendedMantissa) :
    extended.mantissa ≤ extended.roundedMantissa ∧
      extended.roundedMantissa ≤ extended.mantissa + 1 := by
  unfold ExtendedMantissa.roundedMantissa
  cases extended.accuracy with
  | exact => exact ⟨Nat.le_refl _, Nat.le_succ _⟩
  | inexact half =>
      cases half with
      | lt => exact ⟨Nat.le_refl _, Nat.le_succ _⟩
      | eq =>
          change _ ≤ extended.mantissa + extended.mantissa % 2 ∧
            extended.mantissa + extended.mantissa % 2 ≤ _
          omega
      | gt => exact ⟨Nat.le_succ _, Nat.le_refl _⟩

theorem le_log2_of_wide {mantissa : Nat} (wide : 2 ^ 52 ≤ mantissa) : 52 ≤ mantissa.log2 :=
  (Nat.le_log2 (by omega)).mpr wide

theorem shiftToTargetExponent_wide {mantissa : Nat} {exponent : Int}
    (wide : 2 ^ 52 ≤ mantissa) (low : -1074 ≤ exponent) :
    shiftToTargetExponent .binary64 mantissa exponent .exact =
      ((⟨mantissa, false, false⟩ : ExtendedMantissa) >>> (mantissa.log2 - 52),
        exponent + (mantissa.log2 - 52 : Nat)) := by
  have log := le_log2_of_wide wide
  have shift : (Format.binary64.targetExponent (totalExponent mantissa exponent) - exponent).toNat =
      mantissa.log2 - 52 := by
    change (max (mantissa.log2 + 1 + exponent - 53) (-1074) - exponent).toNat = _
    omega
  unfold shiftToTargetExponent shiftToExponent
  dsimp only
  rw [shift]
  rfl

theorem div_shift {mantissa : Nat} (wide : 2 ^ 52 ≤ mantissa) :
    2 ^ 52 ≤ mantissa / 2 ^ (mantissa.log2 - 52) ∧
      mantissa / 2 ^ (mantissa.log2 - 52) < 2 ^ 53 := by
  have log := le_log2_of_wide wide
  rw [Nat.le_div_iff_mul_le (Nat.two_pow_pos _), Nat.div_lt_iff_lt_mul (Nat.two_pow_pos _),
    ← Nat.pow_add, ← Nat.pow_add]
  constructor
  · rw [Nat.add_sub_cancel' log]
    exact Nat.log2_self_le (by omega)
  · rw [show 53 + (mantissa.log2 - 52) = mantissa.log2 + 1 by omega]
    exact Nat.lt_log2_self

structure Full (unpacked : UnpackedFloat) (sign : Sign) (mantissa : Nat) (exponent : Int) :
    Prop where
  low : 2 ^ 52 ≤ mantissa
  high : mantissa < 2 ^ 53
  same : unpacked = .finite sign mantissa exponent (Nat.lt_of_lt_of_le (by decide) low)

theorem roundWithAccuracy_wide (sign : Sign) {mantissa : Nat} (exponent : Int)
    (wide : 2 ^ 52 ≤ mantissa) (low : -1074 ≤ exponent) :
    ∃ m e, Full (roundWithAccuracy .binary64 sign mantissa exponent .exact) sign m e ∧
      (mantissa < 2 ^ 53 → m = mantissa ∧ e = exponent) ∧
      (2 ^ 53 ≤ mantissa → exponent < e ∧ e ≤ exponent + (mantissa.log2 - 51 : Nat)) := by
  have log := le_log2_of_wide wide
  obtain ⟨quotient_low, quotient_high⟩ := div_shift wide
  unfold roundWithAccuracy
  rw [shiftToTargetExponent_wide wide low]
  dsimp only
  generalize rounded :
    ((⟨mantissa, false, false⟩ : ExtendedMantissa) >>> (mantissa.log2 - 52)).roundedMantissa = r
  have bounds := roundedMantissa_bounds
    ((⟨mantissa, false, false⟩ : ExtendedMantissa) >>> (mantissa.log2 - 52))
  rw [shiftRight_mantissa, rounded] at bounds
  dsimp only at bounds
  have r_low : 2 ^ 52 ≤ r := Nat.le_trans quotient_low bounds.1
  have r_log : r.log2 < 54 := (Nat.log2_lt (by omega)).mpr (by omega)
  obtain ⟨final_low, final_high⟩ := div_shift r_low
  have final := shiftRight_mantissa ⟨r, false, false⟩ (r.log2 - 52)
  rw [← final] at final_low final_high
  rw [shiftToTargetExponent_wide r_low (by omega)]
  dsimp only
  rw [dif_neg (by omega)]
  refine ⟨_, _, ⟨final_low, final_high, rfl⟩, ?_⟩
  constructor
  · intro short
    have exact_log : mantissa.log2 = 52 := by
      have below := (Nat.log2_lt (by omega)).mpr short
      omega
    have same : r = mantissa := by
      rw [← rounded, exact_log]
      rfl
    rw [same, exact_log]
    exact ⟨rfl, by omega⟩
  · intro long
    have long_log : 53 ≤ mantissa.log2 := (Nat.le_log2 (by omega)).mpr long
    omega

/-- Whole numbers of 64 bits are rounded to full mantissas. One without a fraction in its last place
is exact. -/
theorem round_whole (sign : Sign) {n : Nat} (positive : 0 < n) (below : n < 2 ^ 64) :
    ∃ m e, Full (UnpackedFloat.round .binary64 sign n 0) sign m e ∧ -52 ≤ e ∧ e ≤ 12 ∧
      (e < 0 → m = n * 2 ^ (-e).toNat) := by
  have log : n.log2 < 64 := (Nat.log2_lt (Nat.ne_of_gt positive)).mpr below
  have target : Format.binary64.targetExponent (totalExponent n 0) = (n.log2 : Int) - 52 := by
    change max ((n.log2 : Int) + 1 + 0 - 53) (-1074) = _
    omega
  unfold UnpackedFloat.round decreaseExponent
  rw [target]
  dsimp only
  rw [Nat.shiftLeft_eq]
  by_cases short : n.log2 ≤ 52
  · have shift : (0 - ((n.log2 : Int) - 52)).toNat = 52 - n.log2 := by omega
    rw [shift]
    have wide : 2 ^ 52 ≤ n * 2 ^ (52 - n.log2) := by
      calc
        2 ^ 52 = 2 ^ n.log2 * 2 ^ (52 - n.log2) := by
          rw [← Nat.pow_add, Nat.add_sub_cancel' short]
        _ ≤ n * 2 ^ (52 - n.log2) :=
          Nat.mul_le_mul_right _ (Nat.log2_self_le (Nat.ne_of_gt positive))
    have fits : n * 2 ^ (52 - n.log2) < 2 ^ 53 := by
      calc
        n * 2 ^ (52 - n.log2) < 2 ^ (n.log2 + 1) * 2 ^ (52 - n.log2) :=
          Nat.mul_lt_mul_of_pos_right Nat.lt_log2_self (Nat.two_pow_pos _)
        _ = 2 ^ 53 := by
          rw [← Nat.pow_add, show n.log2 + 1 + (52 - n.log2) = 53 by omega]
    obtain ⟨m, e, full, kept, -⟩ :=
      roundWithAccuracy_wide sign (0 - (52 - n.log2 : Nat)) wide (by omega)
    obtain ⟨rfl, rfl⟩ := kept fits
    refine ⟨_, _, full, by omega, by omega, fun _ => ?_⟩
    congr 2
    omega
  · have shift : (0 - ((n.log2 : Int) - 52)).toNat = 0 := by omega
    have long : 2 ^ 53 ≤ n := (Nat.le_log2 (Nat.ne_of_gt positive)).mp (by omega)
    rw [shift, Nat.pow_zero, Nat.mul_one]
    obtain ⟨m, e, full, -, raised⟩ :=
      roundWithAccuracy_wide sign (0 - (0 : Nat)) (Nat.le_trans (by decide) long) (by decide)
    have bounds := raised long
    exact ⟨m, e, full, by omega, by omega, by omega⟩

theorem unpackSign_packComponents {spec : Format} (sign : Sign)
    (exponent : BitVec spec.exponentBits) (mantissa : BitVec spec.mantissaBitsWithoutImplicit) :
    unpackSign (packComponents spec sign exponent mantissa) = sign.toBitVec := by
  ext i hi
  obtain rfl : i = 0 := by omega
  delta unpackSign
  simp [packComponents, BitVec.getLsbD_append, BitVec.getElem_append]

theorem ofBitVec_toBitVec (sign : Sign) : Sign.ofBitVec sign.toBitVec = sign := by
  cases sign <;> rfl

theorem toNat_implicit {mantissa : Nat} (low : 2 ^ 52 ≤ mantissa) (high : mantissa < 2 ^ 53) :
    (1#1 ++ BitVec.ofNat 52 mantissa).toNat = mantissa := by
  rw [BitVec.toNat_append, BitVec.toNat_ofNat, BitVec.toNat_ofNat,
    ← Nat.shiftLeft_add_eq_or_of_lt (Nat.mod_lt _ (by decide))]
  omega

theorem unpack_pack {sign : Sign} {mantissa : Nat} {exponent : Int} {positive : 0 < mantissa}
    (low : 2 ^ 52 ≤ mantissa) (high : mantissa < 2 ^ 53)
    (above : -1075 < exponent) (below : exponent < 972) :
    unpack .binary64 (pack .binary64 (.finite sign mantissa exponent positive)) =
      .finite sign mantissa exponent positive := by
  have log : mantissa.log2 = 52 :=
    (Nat.log2_eq_iff (Nat.ne_of_gt positive)).mpr ⟨low, high⟩
  have bias : exponent + Format.binary64.exponentBias +
      Format.binary64.mantissaBitsWithoutImplicit = exponent + 1075 := by
    change exponent + 1023 + 52 = _
    omega
  have biased : (BitVec.ofNat 11 (exponent + 1075).toNat).toNat = (exponent + 1075).toNat := by
    rw [BitVec.toNat_ofNat]
    omega
  have packed : pack .binary64 (.finite sign mantissa exponent positive) =
      packComponents .binary64 sign (BitVec.ofNat _ (exponent + 1075).toNat)
        (BitVec.ofNat _ mantissa) := by
    unfold pack
    dsimp only
    rw [log, bias, if_neg, if_pos (by rfl)]
    change ¬ 2048 ≤ _
    omega
  rw [packed]
  unfold unpack
  dsimp only
  rw [if_neg, if_neg, UnpackedFloat.finite.injEq, unpackSign_packComponents,
    unpackMantissa_packComponents, unpackExponent_packComponents, biased]
  · refine ⟨ofBitVec_toBitVec sign, toNat_implicit low high, ?_⟩
    change _ - (1023 + 52 : Int) = _
    omega
  · rw [unpackExponent_packComponents]
    intro zero
    have same := congrArg BitVec.toNat zero
    rw [biased] at same
    change _ = 0 at same
    omega
  · rw [unpackExponent_packComponents]
    intro ones
    have same := congrArg BitVec.toNat ones
    rw [biased] at same
    change _ = 2047 at same
    omega

theorem unpack_whole (sign : Sign) {n : Nat} (positive : 0 < n) (below : n < 2 ^ 64) :
    ∃ m e,
      Full (unpack .binary64 (pack .binary64 (UnpackedFloat.round .binary64 sign n 0))) sign m e ∧
      (e < 0 → m = n * 2 ^ (-e).toNat) := by
  obtain ⟨m, e, ⟨least, most, same⟩, low, high, own⟩ := round_whole sign positive below
  refine ⟨m, e, ⟨least, most, ?_⟩, own⟩
  rw [same, unpack_pack least most (by omega) (by omega)]

theorem beq_positive_iff {unpacked : UnpackedFloat} {mantissa : Nat} {exponent : Int}
    {positive : 0 < mantissa} :
    unpacked.beq (.finite .positive mantissa exponent positive) = true ↔
      unpacked = .finite .positive mantissa exponent positive := by
  match unpacked with
  | .notANumber => exact ⟨nofun, nofun⟩
  | .infinity .positive => exact ⟨nofun, nofun⟩
  | .infinity .negative => exact ⟨nofun, nofun⟩
  | .zero _ => exact ⟨nofun, nofun⟩
  | .finite .negative _ _ _ => exact ⟨nofun, nofun⟩
  | .finite .positive m e _ =>
      rw [UnpackedFloat.finite.injEq]
      change (some ((compare e exponent).then (compare m mantissa)) == some .eq) = true ↔ _
      simp [Ordering.then_eq_eq, and_comm]

theorem beq_zero_iff {unpacked : UnpackedFloat} {sign : Sign} :
    unpacked.beq (.zero sign) = true ↔ ∃ own, unpacked = .zero own := by
  match unpacked with
  | .notANumber => exact ⟨nofun, nofun⟩
  | .infinity .positive => exact ⟨nofun, nofun⟩
  | .infinity .negative => exact ⟨nofun, nofun⟩
  | .zero own => exact ⟨fun _ => ⟨own, rfl⟩, fun _ => rfl⟩
  | .finite .negative _ _ _ => exact ⟨nofun, nofun⟩
  | .finite .positive _ _ _ => exact ⟨nofun, nofun⟩

theorem beq_eq_unpacked (x y : Float) :
    (x == y) = x.toModel.unpack.beq y.toModel.unpack := rfl

theorem unpack_zero : (Float.ofNat 0).toModel.unpack = .zero .positive := rfl

theorem unpack_one :
    (Float.ofNat 1).toModel.unpack = .finite .positive (2 ^ 52) (-52) (by decide) := rfl

theorem unpack_two :
    (Float.ofNat 2).toModel.unpack = .finite .positive (2 ^ 52) (-51) (by decide) := rfl

theorem eq_of_beq_ofNat {x : Float} {j k : Nat} (first : j ≤ 2) (second : k ≤ 2)
    (left : (x == Float.ofNat j) = true) (right : (x == Float.ofNat k) = true) : j = k := by
  rw [beq_eq_unpacked] at left right
  generalize x.toModel.unpack = unpacked at left right
  have read : ∀ i ≤ 2, unpacked.beq (Float.ofNat i).toModel.unpack = true →
      (∃ sign, unpacked = .zero sign) ∧ i = 0 ∨
        ∃ e positive, unpacked = .finite .positive (2 ^ 52) e positive ∧ (i : Int) = e + 53 := by
    intro i small same
    match i with
    | 0 => exact .inl ⟨beq_zero_iff.mp same, rfl⟩
    | 1 => exact .inr ⟨_, _, beq_positive_iff.mp same, rfl⟩
    | 2 => exact .inr ⟨_, _, beq_positive_iff.mp same, rfl⟩
  rcases read j first left with ⟨⟨sign, rfl⟩, rfl⟩ | ⟨e, positive, rfl, value⟩
  · rcases read k second right with ⟨-, rfl⟩ | ⟨_, _, other, -⟩
    · rfl
    · cases other
  · rcases read k second right with ⟨⟨_, other⟩, -⟩ | ⟨_, _, other, same⟩
    · cases other
    · cases other
      omega

theorem Full.eq_of_beq {unpacked : UnpackedFloat} {sign : Sign} {m n : Nat} {e : Int}
    (full : Full unpacked sign m e) (whole : e < 0 → m = n * 2 ^ (-e).toNat) {k : Nat}
    (small : k ≤ 2) (same : unpacked.beq (Float.ofNat k).toModel.unpack = true) :
    sign = .positive ∧ n = k := by
  rw [full.same] at same
  match k with
  | 0 =>
      obtain ⟨_, other⟩ := beq_zero_iff.mp (unpack_zero ▸ same)
      cases other
  | 1 =>
      cases beq_positive_iff.mp (unpack_one ▸ same)
      have value : 2 ^ 52 = n * 2 ^ 52 := whole (by decide)
      exact ⟨rfl, by omega⟩
  | 2 =>
      cases beq_positive_iff.mp (unpack_two ▸ same)
      have value : 2 ^ 52 = n * 2 ^ 51 := whole (by decide)
      exact ⟨rfl, by omega⟩

theorem ofInt64_beq_iff (n : Int64) {k : Nat} (small : k ≤ 2) :
    (Float.ofModel (.ofInt64 n) == Float.ofNat k) = true ↔ n.toInt = k := by
  have low := n.le_toInt
  have high := n.toInt_lt
  have unpacked : (Float.ofModel (.ofInt64 n)).toModel.unpack =
      unpack .binary64
        (pack .binary64 (UnpackedFloat.normalize .binary64 n.toInt 0 .positive)) := rfl
  rw [beq_eq_unpacked, unpacked]
  generalize n.toInt = z at low high ⊢
  constructor
  · intro same
    rcases Int.lt_trichotomy z 0 with negative | rfl | positive
    · obtain ⟨m, e, full, whole⟩ := unpack_whole .negative
        (by omega : 0 < (-z).toNat) (by omega)
      rw [UnpackedFloat.normalize, Int.compare_eq_lt.mpr negative] at same
      cases (full.eq_of_beq whole small same).1
    · match k with
      | 0 => rfl
      | 1 => cases same
      | 2 => cases same
    · obtain ⟨m, e, full, whole⟩ := unpack_whole .positive
        (by omega : 0 < z.toNat) (by omega)
      rw [UnpackedFloat.normalize, Int.compare_eq_gt.mpr positive] at same
      have value := (full.eq_of_beq whole small same).2
      omega
  · rintro rfl
    clear low high
    match k with
    | 0 => decide
    | 1 => decide
    | 2 => decide

end Phrasebook.Decimal
