import Mathlib.Algebra.Order.Field.Power
import Mathlib.Data.Rat.Floor
import Mathlib.Tactic.Linarith
import Mathlib.Tactic.Positivity
import Mathlib.Tactic.Ring
import Relata.Number.Binary

/-!
Floating-point numbers as the rational numbers that they stand for. Main statements: two numbers
compare as equal just if they stand for one rational number, or are one infinity; cutting a number
down to a narrower range of integers changes it just if it lies a whole unit or more outside; and
integers of the last bit of 64 are rounded to multiples of 2048.
-/
namespace Relata.Number

namespace Meaning

variable {v w : Meaning} {x : ℚ} {lo hi lo' hi' : Int}

/-- The rational number that a finite meaning stands for. -/
def toRat? : Meaning → Option ℚ
  | .finite negative m q => some (signed negative m * 2 ^ q)
  | _ => none

/-- Places below the last one change nothing. -/
theorem signed_shift (negative : Bool) (m : Nat) {low p : Int} (h : low ≤ p) :
    (signed negative (m <<< (p - low).toNat) : ℚ) * 2 ^ low = signed negative m * 2 ^ p := by
  obtain ⟨k, rfl⟩ := Int.le.dest h
  have hshift : low + k - low = k := by omega
  rw [hshift, Int.toNat_natCast, Nat.shiftLeft_eq, zpow_add₀ two_ne_zero, zpow_natCast]
  cases negative with
  | false =>
    simp only [signed, Bool.false_eq_true, if_false]
    push_cast
    ring
  | true =>
    simp only [signed, if_true]
    push_cast
    ring

theorem compare_eq_iff :
    v.compare w = some .eq ↔ (∃ x, v.toRat? = some x ∧ w.toRat? = some x) ∨
      ∃ negative, v = .infinite negative ∧ w = .infinite negative := by
  cases v with
  | notANumber => simp [compare, toRat?]
  | infinite a =>
    cases w with
    | notANumber => simp [compare, toRat?]
    | infinite b => cases a <;> cases b <;> simp [compare, toRat?]
    | finite b n q => cases a <;> simp [compare, toRat?]
  | finite a m p =>
    cases w with
    | notANumber => simp [compare, toRat?]
    | infinite b => cases b <;> simp [compare, toRat?]
    | finite b n q =>
      have hleft := signed_shift a m (Int.min_le_left p q)
      have hright := signed_shift b n (Int.min_le_right p q)
      have hunit : (2 : ℚ) ^ min p q ≠ 0 := zpow_ne_zero _ two_ne_zero
      simp only [compare, toRat?, Option.some.injEq, exists_eq_left', reduceCtorEq, false_and,
        exists_false, or_false, compare_eq_iff_eq]
      rw [← hleft, ← hright, mul_left_inj' hunit, Int.cast_inj, eq_comm]

/-- The integer part: what is left of a rational number without its fraction. -/
def towardZero (x : ℚ) : ℤ := if x < 0 then ⌈x⌉ else ⌊x⌋

theorem wholePart_eq_floor (m : Nat) (q : Int) : (wholePart m q : ℤ) = ⌊(m : ℚ) * 2 ^ q⌋ := by
  rw [wholePart, Nat.shiftLeft_eq, Nat.shiftRight_eq_div_pow]
  obtain ⟨k, rfl | rfl⟩ := q.eq_nat_or_neg
  · have hwhole : (m : ℚ) * 2 ^ (k : ℤ) = ((m * 2 ^ k : ℕ) : ℚ) := by
      rw [zpow_natCast]
      push_cast
      rfl
    rw [hwhole, Int.floor_natCast]
    simp
  · have hquotient : (m : ℚ) * 2 ^ (-(k : ℤ)) = (m : ℚ) / ((2 ^ k : ℕ) : ℚ) := by
      rw [zpow_neg, zpow_natCast, div_eq_mul_inv]
      push_cast
      rfl
    rw [hquotient, Rat.floor_natCast_div_natCast]
    simp

/-- Cutting down a finite number takes its integer part and holds it between the bounds. -/
theorem truncate_of_toRat? (h : v.toRat? = some x) :
    v.truncate lo hi = max lo (min hi (towardZero x)) := by
  cases v with
  | notANumber => cases h
  | infinite => cases h
  | finite negative m q =>
    obtain rfl := Option.some.inj h
    have hpositive : (0 : ℚ) ≤ m * 2 ^ q := by positivity
    have hfloor := wholePart_eq_floor m q
    cases negative with
    | false =>
      have hpart : towardZero (signed false m * 2 ^ q) = wholePart m q := by
        simp only [signed, Bool.false_eq_true, if_false, Int.cast_natCast]
        rw [towardZero, if_neg (not_lt.mpr hpositive), hfloor]
      simp only [truncate, Bool.false_eq_true, if_false, hpart]
    | true =>
      have hpart : towardZero (signed true m * 2 ^ q) = -wholePart m q := by
        simp only [signed, if_true]
        push_cast
        rw [towardZero, neg_mul, Int.ceil_neg, hfloor]
        split
        next => rfl
        next hzero =>
          -- a negative number that is not below zero is zero with a sign
          have hnothing : (m : ℚ) * 2 ^ q = 0 := by linarith
          simp [hnothing]
      simp only [truncate, if_true, hpart]

theorem towardZero_lt_iff (hlo : lo ≤ 0) : towardZero x < lo ↔ x ≤ lo - 1 := by
  have hbound : (lo : ℚ) ≤ 0 := by exact_mod_cast hlo
  unfold towardZero
  split
  next hneg =>
    rw [← Int.le_sub_one_iff, Int.ceil_le]
    push_cast
    rfl
  next hnonneg =>
    have hfloor : 0 ≤ ⌊x⌋ := Int.floor_nonneg.mpr (not_lt.mp hnonneg)
    exact iff_of_false (by omega) (by linarith)

theorem lt_towardZero_iff (hhi : 0 ≤ hi) : hi < towardZero x ↔ hi + 1 ≤ x := by
  have hbound : (0 : ℚ) ≤ hi := by exact_mod_cast hhi
  unfold towardZero
  split
  next hneg =>
    have hceil : ⌈x⌉ ≤ 0 := Int.ceil_le.mpr (by exact_mod_cast hneg.le)
    exact iff_of_false (by omega) (by linarith)
  next hnonneg =>
    rw [← Int.add_one_le_iff, Int.le_floor]
    push_cast
    rfl

theorem truncate_mem (v : Meaning) (hlo : lo ≤ 0) (hhi : 0 ≤ hi) :
    lo ≤ v.truncate lo hi ∧ v.truncate lo hi ≤ hi := by
  cases v with
  | notANumber => exact ⟨hlo, hhi⟩
  | infinite negative =>
    cases negative with
    | false => exact ⟨hlo.trans hhi, le_refl hi⟩
    | true => exact ⟨le_refl lo, hlo.trans hhi⟩
  | finite negative m q =>
    simp only [truncate]
    omega

/-- The number is a whole unit or more beyond one of the bounds, or infinite. -/
def Exceeds (lo hi : Int) (v : Meaning) : Prop :=
  (∃ negative, v = .infinite negative) ∨ ∃ x, v.toRat? = some x ∧ (x ≤ lo - 1 ∨ hi + 1 ≤ x)

/-- Cutting down to narrow bounds is holding between them what was cut down to wide ones. -/
theorem truncate_narrow (hlo : lo' ≤ lo) (hzero : lo ≤ 0) (hzero' : 0 ≤ hi) (hhi : hi ≤ hi') :
    v.truncate lo hi = max lo (min hi (v.truncate lo' hi')) := by
  cases v with
  | notANumber =>
    simp only [truncate]
    omega
  | infinite negative =>
    cases negative with
    | false =>
      simp only [truncate, Bool.false_eq_true, if_false]
      omega
    | true =>
      simp only [truncate, if_true]
      omega
  | finite negative m q =>
    simp only [truncate]
    omega

/-- Narrow bounds change the integer just if the number exceeds them. -/
theorem truncate_eq_iff (hlo : lo' < lo) (hzero : lo ≤ 0) (hzero' : 0 ≤ hi) (hhi : hi < hi') :
    v.truncate lo hi = v.truncate lo' hi' ↔ ¬ v.Exceeds lo hi := by
  cases v with
  | notANumber => simp [truncate, Exceeds, toRat?]
  | infinite negative =>
    have hexceeds : (Meaning.infinite negative).Exceeds lo hi := .inl ⟨negative, rfl⟩
    refine iff_of_false ?_ (not_not.mpr hexceeds)
    cases negative with
    | false =>
      simp only [truncate, Bool.false_eq_true, if_false]
      omega
    | true =>
      simp only [truncate, if_true]
      omega
  | finite negative m q =>
    obtain ⟨x, hrat⟩ : ∃ x, (finite negative m q).toRat? = some x := ⟨_, rfl⟩
    have hexceeds : (finite negative m q).Exceeds lo hi ↔
        towardZero x < lo ∨ hi < towardZero x := by
      rw [towardZero_lt_iff hzero, lt_towardZero_iff hzero']
      simp [Exceeds, hrat]
    rw [truncate_of_toRat? hrat, truncate_of_toRat? hrat, hexceeds]
    omega

end Meaning

namespace Double

/-- A number with a rational value equals just those with the same one. -/
theorem same_iff_of_toRat? {x y : Double} {r : ℚ} (h : x.meaning.toRat? = some r) :
    x.same y = true ↔ y.meaning.toRat? = some r := by
  rw [same, beq_iff_eq, Meaning.compare_eq_iff]
  constructor
  · rintro (⟨s, hx, hy⟩ | ⟨negative, hx, -⟩)
    · rwa [← Option.some.inj (h.symm.trans hx)] at hy
    · rw [hx] at h
      cases h
  · intro hy
    exact .inl ⟨r, h, hy⟩

theorem same_comm (x y : Double) : x.same y = y.same x := by
  have hiff : x.same y = true ↔ y.same x = true := by
    simp only [same, beq_iff_eq, Meaning.compare_eq_iff, and_comm]
  exact Bool.eq_iff_iff.mpr hiff

end Double

/-- The quotient is rounded down up to a half, and up from a half on. -/
theorem roundDiv_cases (a b : Nat) :
    roundDiv a b = a / b ∧ 2 * (a % b) ≤ b ∨ roundDiv a b = a / b + 1 ∧ b ≤ 2 * (a % b) := by
  unfold roundDiv
  dsimp only
  split
  next hless => exact .inl ⟨rfl, hless.le⟩
  next hless =>
    split
    next hmore => exact .inr ⟨rfl, hmore.le⟩
    next hmore =>
      -- at a half the parity of the quotient decides
      obtain heven | hodd := Nat.mod_two_eq_zero_or_one (a / b)
      · exact .inl ⟨by omega, by omega⟩
      · exact .inr ⟨by omega, by omega⟩

section TopBit

/-! Integers of the last bit of 64: their doubles stand 2048 apart. -/

variable {n : Nat}

theorem floorLog2_top (hlow : 2 ^ 63 ≤ n) (hhigh : n < 2 ^ 64) : floorLog2 n 1 = 63 := by
  have hlog : Nat.log2 n = 63 := (Nat.log2_eq_iff (by omega)).mpr ⟨hlow, hhigh⟩
  have hone : Nat.log2 1 = 0 := by decide
  have hreaches : ¬ n <<< 0 < 1 <<< 63 := by
    rw [Nat.shiftLeft_zero, Nat.one_shiftLeft]
    omega
  unfold floorLog2
  simp only [hlog, hone]
  exact if_neg hreaches

theorem roundDiv_top (hlow : 2 ^ 63 ≤ n) (hhigh : n < 2 ^ 64) :
    2 ^ 52 ≤ roundDiv n 2048 ∧ roundDiv n 2048 ≤ 2 ^ 53 := by
  have hcases := roundDiv_cases n 2048
  omega

theorem roundRatio_top (hlow : 2 ^ 63 ≤ n) (hhigh : n < 2 ^ 64) :
    double.roundRatio n 1 = 1085 * 2 ^ 52 + roundDiv n 2048 := by
  have hround := roundDiv_top hlow hhigh
  have hplace : max (floorLog2 n 1 - double.fractionBits) double.minExponent = 11 := by
    rw [floorLog2_top hlow hhigh]
    decide
  have hinfinity : double.infinityBits = 2047 * 2 ^ 52 := by decide
  have hexponent : ((11 : Int) - double.minExponent).toNat <<< double.fractionBits =
      1085 * 2 ^ 52 := by decide
  unfold Format.roundRatio
  simp only [if_neg (show n ≠ 0 by omega), hplace, hinfinity, hexponent]
  have hunits : roundDiv (n <<< (-(11 : Int)).toNat) (1 <<< (11 : Int).toNat) =
      roundDiv n 2048 := rfl
  rw [hunits]
  omega

/-- The fields of a normal number. -/
theorem decode_normal {field fraction : Nat} (hpos : 0 < field) (htop : field < 2047)
    (hfraction : fraction < 2 ^ 52) :
    double.decode (field * 2 ^ 52 + fraction) =
      .finite false (2 ^ 52 + fraction) (field - 1075) := by
  have hlow : (field * 2 ^ 52 + fraction) % 1 <<< double.fractionBits = fraction := by
    rw [show 1 <<< double.fractionBits = 2 ^ 52 from rfl]
    omega
  have hhigh : (field * 2 ^ 52 + fraction) >>> double.fractionBits % 1 <<< double.exponentBits =
      field := by
    rw [show 1 <<< double.exponentBits = 2 ^ 11 from rfl, Nat.shiftRight_eq_div_pow,
      show 2 ^ double.fractionBits = 2 ^ 52 from rfl]
    omega
  have hsign : ((field * 2 ^ 52 + fraction) / double.signBit % 2 == 1) = false := by
    rw [show double.signBit = 2 ^ 63 from rfl, beq_eq_false_iff_ne]
    omega
  have htop' : field ≠ double.topField := by
    rw [show double.topField = 2047 from rfl]
    omega
  have hexponent : double.minExponent + field - 1 = field - 1075 := by
    rw [show double.minExponent = -1074 from rfl]
    omega
  unfold Format.decode
  simp only [hlow, hhigh, hsign, if_neg htop', if_neg (show field ≠ 0 by omega), hexponent]
  rfl

/-- The double that an integer of the last bit becomes stands for the nearest multiple of 2048, and
of two equally near ones for the even multiple. -/
theorem toRat?_ofInt_top (hlow : 2 ^ 63 ≤ n) (hhigh : n < 2 ^ 64) :
    (Double.ofInt n).meaning.toRat? = some ((2048 * roundDiv n 2048 : ℕ) : ℚ) := by
  obtain ⟨hleast, hmost⟩ := roundDiv_top hlow hhigh
  have hbits : (Double.ofInt n).bits.toNat = 1085 * 2 ^ 52 + roundDiv n 2048 := by
    have hscaled : double.roundScaled (decide ((n : Int) < 0)) (n : Int).natAbs 0 =
        double.roundRatio n 1 := by
      have hsign : decide ((n : Int) < 0) = false := decide_eq_false (by omega)
      rw [hsign]
      rfl
    have hsize : UInt64.size = 2 ^ 64 := rfl
    rw [Double.ofInt, hscaled, roundRatio_top hlow hhigh, Double.ofBits]
    exact UInt64.toNat_ofNat_of_lt' (by omega)
  rw [Double.meaning, hbits]
  -- rounding up from the largest significand carries into the exponent field
  by_cases hcarry : roundDiv n 2048 = 2 ^ 53
  · have hnext : 1085 * 2 ^ 52 + roundDiv n 2048 = 1087 * 2 ^ 52 + 0 := by omega
    rw [hnext, decode_normal (by decide) (by decide) (by decide), hcarry]
    norm_num [Meaning.toRat?, Meaning.signed]
  · obtain ⟨fraction, hfraction⟩ := Nat.exists_eq_add_of_le hleast
    have hsame : 1085 * 2 ^ 52 + roundDiv n 2048 = 1086 * 2 ^ 52 + fraction := by omega
    rw [hsame, decode_normal (by decide) (by decide) (by omega), ← hfraction]
    norm_num [Meaning.toRat?, Meaning.signed]
    ring

end TopBit

end Relata.Number
