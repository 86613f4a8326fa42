import Relata.Proofs.Integers
import Relata.Proofs.Rational

/-!
Values as integers of 32 and of 64 bits. Main statement: a value that is a 32-bit integer is a
64-bit one too, and the same, unless it is a floating-point number beyond the 32-bit range: that is
given as the nearest bound of the narrow range.
-/
namespace Relata

namespace Number

/-- A text that is read within narrow bounds is read alike within wide ones. -/
theorem readBounded?_widen {lo hi lo' hi' z : Int} {s : String} (hlo : lo' ≤ lo) (hhi : hi ≤ hi')
    (h : readBounded? lo hi s = some z) : lo ≤ z ∧ z ≤ hi ∧ readBounded? lo' hi' s = some z := by
  obtain ⟨hread, hbounds⟩ := Option.filter_eq_some_iff.mp h
  have hfits : lo ≤ z ∧ z ≤ hi := by simpa using hbounds
  refine ⟨hfits.1, hfits.2, Option.filter_eq_some_iff.mpr ⟨hread, ?_⟩⟩
  simp only [Bool.and_eq_true, decide_eq_true_eq]
  omega

end Number

namespace Value

open Number

variable {v : Value} {n : Int32}

/-- What a floating-point value stands for. -/
def meaning? : Value → Option Meaning
  | .float x => some x.meaning
  | .double x => some x.meaning
  | _ => none

theorem toInt_ofInt_narrow {z : Int} (hlow : minInt ≤ z) (hhigh : z ≤ maxInt) :
    (Int32.ofInt z).toInt = z := by
  rw [minInt, Int32.toInt_minValue] at hlow
  rw [maxInt, Int32.toInt_maxValue] at hhigh
  exact Int32.toInt_ofInt_of_le hlow (by omega)

theorem toInt_ofInt_wide {z : Int} (hlow : minLong ≤ z) (hhigh : z ≤ maxLong) :
    (Int64.ofInt z).toInt = z := by
  rw [minLong, Int64.toInt_minValue] at hlow
  rw [maxLong, Int64.toInt_maxValue] at hhigh
  exact Int64.toInt_ofInt_of_le hlow (by omega)

/-- A 64-bit integer is a 32-bit one just if it is that one widened. -/
theorem toInt_eq_iff_widened {l : Int64} : l.toInt = n.toInt ↔ l = Int64.ofInt n.toInt := by
  rw [← Int64.toInt_inj, toInt_ofInt_int]

/-- The value has a 64-bit view, of which `n` is the nearest number in the 32-bit range; and it is the
same number just if the value does not exceed that range. -/
def NarrowsTo (v : Value) (n : Int32) : Prop :=
  ∃ l, v.toLong? = some l ∧ n.toInt = max minInt (min maxInt l.toInt) ∧
    (l.toInt = n.toInt ↔ ∀ m, v.meaning? = some m → ¬ m.Exceeds minInt maxInt)

/-- A value without a floating-point meaning that is one integer in both widths. -/
theorem narrowsTo_of_exact {l : Int64} (hlong : v.toLong? = some l) (hsame : l.toInt = n.toInt)
    (hmeaning : v.meaning? = none) : v.NarrowsTo n := by
  have hlow := minInt_le n
  have hhigh := le_maxInt n
  refine ⟨l, hlong, by omega, iff_of_true hsame ?_⟩
  simp [hmeaning]

/-- A floating-point value, cut down to either width. -/
theorem narrowsTo_of_meaning {m : Meaning} (hmeaning : v.meaning? = some m)
    (hint : v.toInt? = some (Int32.ofInt (m.truncate minInt maxInt)))
    (hlong : v.toLong? = some (Int64.ofInt (m.truncate minLong maxLong))) (h : v.toInt? = some n) :
    v.NarrowsTo n := by
  obtain rfl := Option.some.inj (hint.symm.trans h)
  obtain ⟨hlow, hhigh⟩ := m.truncate_mem (show minInt ≤ 0 by decide) (show 0 ≤ maxInt by decide)
  obtain ⟨hlow', hhigh'⟩ := m.truncate_mem (show minLong ≤ 0 by decide) (show 0 ≤ maxLong by decide)
  have hnarrow : m.truncate minInt maxInt = max minInt (min maxInt (m.truncate minLong maxLong)) :=
    Meaning.truncate_narrow (by decide) (by decide) (by decide) (by decide)
  have hexact : m.truncate minInt maxInt = m.truncate minLong maxLong ↔ ¬ m.Exceeds minInt maxInt :=
    Meaning.truncate_eq_iff (by decide) (by decide) (by decide) (by decide)
  refine ⟨_, hlong, ?_, ?_⟩
  · rw [toInt_ofInt_narrow hlow hhigh, toInt_ofInt_wide hlow' hhigh', ← hnarrow]
  · rw [toInt_ofInt_narrow hlow hhigh, toInt_ofInt_wide hlow' hhigh', eq_comm, hexact]
    simp [hmeaning]

theorem narrowsTo_of_toInt? (h : v.toInt? = some n) : v.NarrowsTo n := by
  cases v with
  | null | bytes _ | timestamp _ | json _ => cases h
  | bool b =>
    obtain rfl := Option.some.inj h
    refine narrowsTo_of_exact rfl ?_ rfl
    cases b with
    | false => rfl
    | true => rfl
  | int m =>
    obtain rfl := Option.some.inj h
    exact narrowsTo_of_exact rfl (toInt_ofInt_int m) rfl
  | long m =>
    rw [toInt?] at h
    split at h
    next hfits =>
      obtain rfl := Option.some.inj h
      exact narrowsTo_of_exact rfl (toInt_ofInt_narrow hfits.1 hfits.2).symm rfl
    next => cases h
  | string s =>
    obtain ⟨z, hread, rfl⟩ := Option.map_eq_some_iff.mp h
    have hbelow : minLong ≤ minInt := by decide
    have habove : maxInt ≤ maxLong := by decide
    obtain ⟨hlow, hhigh, hwide⟩ := readBounded?_widen hbelow habove hread
    have hlong : (Value.string s).toLong? = some (Int64.ofInt z) := by
      rw [toLong?, hwide, Option.map_some]
    refine narrowsTo_of_exact hlong ?_ rfl
    rw [toInt_ofInt_narrow hlow hhigh, toInt_ofInt_wide (by omega) (by omega)]
  | float x => exact narrowsTo_of_meaning rfl rfl rfl h
  | double x => exact narrowsTo_of_meaning rfl rfl rfl h

/-- Whatever has a 32-bit view has a 64-bit one, and the two are one integer unless the value is a
floating-point number that is a whole unit or more beyond the 32-bit range, or infinite. Then the
32-bit view is the bound next to the 64-bit one, without notice. -/
theorem toInt?_narrows (h : v.toInt? = some n) :
    (v.toLong? = some (Int64.ofInt n.toInt) ↔
      ∀ m, v.meaning? = some m → ¬ m.Exceeds minInt maxInt) ∧
    ∃ l, v.toLong? = some l ∧ n.toInt = max minInt (min maxInt l.toInt) := by
  obtain ⟨l, hlong, hnearest, hexact⟩ := narrowsTo_of_toInt? h
  refine ⟨?_, l, hlong, hnearest⟩
  rw [hlong, Option.some.injEq, ← toInt_eq_iff_widened, hexact]

/-- Half a unit below the least 32-bit integer only the fraction is lost, in both views. -/
theorem toInt?_narrows_fraction :
    let v := Value.double ⟨0xc1e0000000100000⟩
    v.toInt? = some (-2147483648) ∧ v.toLong? = some (Int64.ofInt (-2147483648 : Int32).toInt) := by
  intro v
  have hint : v.toInt? = some (-2147483648) := by decide +kernel
  have hmeaning : (Double.mk 0xc1e0000000100000).meaning = .finite true 4503599628419072 (-21) := by
    decide +kernel
  refine ⟨hint, (toInt?_narrows hint).1.mpr ?_⟩
  rintro m ⟨⟩ hexceeds
  rw [hmeaning] at hexceeds
  obtain ⟨negative, hinfinite⟩ | ⟨x, hx, hbeyond⟩ := hexceeds
  · cases hinfinite
  · obtain rfl := Option.some.inj hx
    have hlow : minInt = -2147483648 := by decide
    have hhigh : maxInt = 2147483647 := by decide
    rw [hlow, hhigh] at hbeyond
    norm_num [Meaning.signed] at hbeyond

/-- Three thousand million is itself as a 64-bit integer, and another number as one of 32 bits. -/
theorem toInt?_three_billion :
    let v := Value.double ⟨0x41e65a0bc0000000⟩
    v.toInt? = some 2147483647 ∧ v.toLong? = some 3000000000 ∧
      v.toLong? ≠ some (Int64.ofInt (2147483647 : Int32).toInt) := by
  decide +kernel

end Value
end Relata
