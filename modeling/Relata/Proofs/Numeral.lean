import Mathlib.Data.List.TakeWhile
import Mathlib.Tactic.ByContra
import Relata.Json.Printer
import Relata.Json.Numeral

/-!
Numerals of documents. Main statements: what follows a numeral does not change how it is read, and
the text of an integer is read as that integer.
-/
namespace Relata

open Number

section Digits

theorem takeWhile_append_of_stop {α : Type} {p : α → Bool} {s rest : List α}
    (h : ∀ c ∈ rest.head?, p c = false) : (s ++ rest).takeWhile p = s.takeWhile p := by
  induction s with
  | nil =>
    cases rest with
    | nil => rfl
    | cons c rest => simp [h c rfl]
  | cons c s ih =>
    rw [List.cons_append, List.takeWhile_cons, List.takeWhile_cons, ih]

theorem dropWhile_append_of_stop {α : Type} {p : α → Bool} {s rest : List α}
    (h : ∀ c ∈ rest.head?, p c = false) : (s ++ rest).dropWhile p = s.dropWhile p ++ rest := by
  induction s with
  | nil =>
    cases rest with
    | nil => rfl
    | cons c rest => simp [h c rfl]
  | cons c s ih =>
    rw [List.cons_append, List.dropWhile_cons, List.dropWhile_cons, ih]
    split
    · rfl
    · rfl

theorem isDigit_of_mem_toDigits {n : Nat} {c : Char} (h : c ∈ Nat.toDigits 10 n) :
    isDigit c = true := by
  have hc := Nat.isDigit_of_mem_toDigits (by decide) (by decide) h
  simpa [isDigit, Char.isDigit, Char.le_def] using hc

theorem ofDigits_toDigits (n : Nat) : ofDigits (Nat.toDigits 10 n) = n := by
  have h := Nat.ofDigitChars_ten_toDigits (n := n)
  rwa [Nat.ofDigitChars_eq_foldl] at h

/-- The digits of a number begin with a zero only where that is all. -/
theorem toDigits_eq_zero_cons {n : Nat} {more : List Char} (h : Nat.toDigits 10 n = '0' :: more) :
    more = [] := by
  induction n using Nat.strongRecOn generalizing more with
  | _ n ih =>
    by_cases hn : n < 10
    · rw [Nat.toDigits_of_lt_base hn] at h
      exact (List.cons.inj h).2.symm
    · have hn : 10 ≤ n := Nat.le_of_not_lt hn
      rw [Nat.toDigits_of_base_le (by decide) hn] at h
      obtain ⟨c, lead, hlead⟩ := List.exists_cons_of_ne_nil (Nat.toDigits_ne_nil (n := n / 10) (b := 10))
      rw [hlead, List.cons_append] at h
      obtain ⟨rfl, -⟩ := List.cons.inj h
      have hnil : lead = [] := ih (n / 10) (by omega) hlead
      -- a tenth that is written as a zero is one
      have hzero := ofDigits_toDigits (n / 10)
      rw [hlead, hnil] at hzero
      have : n / 10 = 0 := hzero.symm
      omega

end Digits

namespace JsonNumeral

/-- What may follow a number inside a document, or nothing. -/
def Stops (rest : List Char) : Prop := ∀ c ∈ rest.head?, c = ',' ∨ c = ']' ∨ c = '\x7d'

variable {s rest : List Char}

theorem Stops.isDigit (h : Stops rest) : ∀ c ∈ rest.head?, Number.isDigit c = false := by
  intro c hc
  rcases h c hc with rfl | rfl | rfl
  · decide
  · decide
  · decide

theorem readDigits?_append (h : Stops rest) :
    readDigits? (s ++ rest) = (readDigits? s).map fun r => (r.1, r.2 ++ rest) := by
  unfold readDigits?
  rw [takeWhile_append_of_stop h.isDigit, dropWhile_append_of_stop h.isDigit]
  split
  · rfl
  · rfl

theorem readWhole?_append (h : Stops rest) :
    readWhole? (s ++ rest) = (readWhole? s).map fun r => (r.1, r.2 ++ rest) := by
  unfold readWhole?
  rw [readDigits?_append h]
  cases readDigits? s with
  | none => rfl
  | some r =>
    obtain ⟨digits, left⟩ := r
    obtain _ | ⟨c, _ | ⟨d, more⟩⟩ := digits
    · rfl
    · simp
    · by_cases hc : c = '0'
      · subst hc
        rfl
      · simp [hc]

theorem readFraction?_stop (h : Stops rest) : readFraction? rest = some (none, rest) := by
  cases rest with
  | nil => rfl
  | cons c rest =>
    rcases h c rfl with rfl | rfl | rfl
    · rfl
    · rfl
    · rfl

theorem readFraction?_append (h : Stops rest) :
    readFraction? (s ++ rest) = (readFraction? s).map fun r => (r.1, r.2 ++ rest) := by
  cases s with
  | nil => exact readFraction?_stop h
  | cons c s =>
    by_cases hc : c = '.'
    · subst hc
      simp only [List.cons_append, readFraction?, readDigits?_append h, Option.map_map]
      rfl
    · simp [readFraction?, hc]

theorem readExponent?_stop (h : Stops rest) : readExponent? rest = some (none, rest) := by
  cases rest with
  | nil => rfl
  | cons c rest =>
    rcases h c rfl with rfl | rfl | rfl
    · rfl
    · rfl
    · rfl

theorem readDigits?_stop (h : Stops rest) : readDigits? rest = none := by
  cases rest with
  | nil => rfl
  | cons c rest =>
    have hc : Number.isDigit c = false := h.isDigit c rfl
    simp [readDigits?, hc]

theorem readExponent?_append (h : Stops rest) :
    readExponent? (s ++ rest) = (readExponent? s).map fun r => (r.1, r.2 ++ rest) := by
  cases s with
  | nil => exact readExponent?_stop h
  | cons c s =>
    by_cases hc : c = 'e' ∨ c = 'E'
    · simp only [List.cons_append, readExponent?, if_pos hc]
      cases s with
      | nil =>
        -- what follows the number begins with no sign either
        have hnone := readDigits?_stop h
        cases rest with
        | nil => rfl
        | cons d rest =>
          rcases h d rfl with rfl | rfl | rfl
          · exact congrArg (Option.map fun r => (some (false, r.1), r.2)) hnone
          · exact congrArg (Option.map fun r => (some (false, r.1), r.2)) hnone
          · exact congrArg (Option.map fun r => (some (false, r.1), r.2)) hnone
      | cons d s =>
        by_cases hminus : d = '-'
        · subst hminus
          simp only [List.cons_append, readDigits?_append h, Option.map_map]
          rfl
        · by_cases hplus : d = '+'
          · subst hplus
            simp only [List.cons_append, readDigits?_append h, Option.map_map]
            rfl
          · have hdigits := readDigits?_append (s := d :: s) h
            rw [List.cons_append] at hdigits
            simp [hdigits, hminus, hplus, Function.comp_def]
    · simp only [List.cons_append, readExponent?, if_neg hc, Option.map_some]

/-- The numeral without its sign. -/
def readUnsigned? (negative : Bool) (s : List Char) : Option (JsonNumber × List Char) := do
  let (whole, s) ← readWhole? s
  let (fraction, s) ← readFraction? s
  let (exponent, s) ← readExponent? s
  let n ← toNumber? ⟨negative, whole, fraction, exponent⟩
  return (n, s)

theorem read?_minus (s : List Char) : read? ('-' :: s) = readUnsigned? true s := rfl

theorem read?_of_ne {c : Char} (h : c ≠ '-') (s : List Char) :
    read? (c :: s) = readUnsigned? false (c :: s) := by
  unfold read? readUnsigned?
  simp [h]

theorem readUnsigned?_append (h : Stops rest) (negative : Bool) :
    readUnsigned? negative (s ++ rest) =
      (readUnsigned? negative s).map fun r => (r.1, r.2 ++ rest) := by
  unfold readUnsigned?
  rw [readWhole?_append h]
  cases readWhole? s with
  | none => rfl
  | some whole =>
    simp only [Option.map_some, Option.bind_eq_bind, Option.bind_some, readFraction?_append h]
    cases readFraction? whole.2 with
    | none => rfl
    | some fraction =>
      simp only [Option.map_some, Option.bind_some, readExponent?_append h]
      cases readExponent? fraction.2 with
      | none => rfl
      | some exponent =>
        simp only [Option.map_some, Option.bind_some]
        cases toNumber? ⟨negative, whole.1, fraction.1, exponent.1⟩ with
        | none => rfl
        | some n => rfl

/-- What follows a numeral does not change how it is read. -/
theorem read?_append (h : Stops rest) (hs : s ≠ []) :
    read? (s ++ rest) = (read? s).map fun r => (r.1, r.2 ++ rest) := by
  cases s with
  | nil => exact absurd rfl hs
  | cons c s =>
    by_cases hc : c = '-'
    · subst hc
      exact readUnsigned?_append h true
    · rw [List.cons_append, read?_of_ne hc, read?_of_ne hc, ← List.cons_append,
        readUnsigned?_append h]

/-- A numeral begins with its sign or with a digit. -/
theorem head_of_read? {r : JsonNumber × List Char} (h : read? s = some r) :
    ∃ c more, s = c :: more ∧ (c = '-' ∨ Number.isDigit c = true) := by
  cases s with
  | nil => cases h
  | cons c s =>
    refine ⟨c, s, rfl, ?_⟩
    by_contra hc
    rw [not_or] at hc
    rw [read?_of_ne hc.1] at h
    have hnone : readWhole? (c :: s) = none := by simp [readWhole?, readDigits?, hc.2]
    rw [readUnsigned?, hnone] at h
    cases h

/-- Digits that stand for a 64-bit number are taken to the last. -/
theorem takeDigits_all {digits : List Char} {n : Nat}
    (h : digits.foldl (fun n c => 10 * n + digitValue c) n < UInt64.size) :
    takeDigits n digits = (digits.foldl (fun n c => 10 * n + digitValue c) n, []) := by
  induction digits generalizing n with
  | nil => rfl
  | cons c digits ih =>
    have hgrows (m : Nat) (l : List Char) :
        m ≤ l.foldl (fun n c => 10 * n + digitValue c) m := by
      induction l generalizing m with
      | nil => exact Nat.le_refl m
      | cons d l ihl => exact Nat.le_trans (by omega) (ihl (10 * m + digitValue d))
    have hnext : ¬ UInt64.size ≤ 10 * n + digitValue c :=
      Nat.not_le.mpr (Nat.lt_of_le_of_lt (hgrows _ digits) h)
    rw [takeDigits]
    simp only [if_neg hnext]
    exact ih h

theorem readWhole?_toDigits (n : Nat) (h : Stops rest) :
    readWhole? (Nat.toDigits 10 n ++ rest) = some (Nat.toDigits 10 n, rest) := by
  have hall : ∀ c ∈ Nat.toDigits 10 n, Number.isDigit c = true := fun _ => isDigit_of_mem_toDigits
  have hdigits : readDigits? (Nat.toDigits 10 n) = some (Nat.toDigits 10 n, []) := by
    rw [readDigits?, List.takeWhile_eq_self_iff.mpr hall, List.dropWhile_eq_nil_iff.mpr hall,
      if_neg (by simp [Nat.toDigits_ne_nil])]
  have hwhole : readWhole? (Nat.toDigits 10 n) = some (Nat.toDigits 10 n, []) := by
    rw [readWhole?, hdigits]
    split
    · next heq =>
      have hmore := toDigits_eq_zero_cons (Prod.mk.inj (Option.some.inj heq)).1
      cases hmore
    · rfl
  rw [readWhole?_append h, hwhole]
  rfl

theorem readUnsigned?_toDigits {n : Nat} (hn : n < UInt64.size) (negative : Bool) :
    readUnsigned? negative (Nat.toDigits 10 n) = some (ofWhole negative n, []) := by
  have hstop : Stops [] := nofun
  have hwhole := readWhole?_toDigits n hstop
  rw [List.append_nil] at hwhole
  have htake : takeDigits 0 (Nat.toDigits 10 n) = (n, []) := by
    have hvalue := ofDigits_toDigits n
    rw [ofDigits] at hvalue
    rw [takeDigits_all (by rwa [hvalue]), hvalue]
  rw [readUnsigned?, hwhole]
  simp only [Option.bind_eq_bind, Option.bind_some, readFraction?_stop hstop,
    readExponent?_stop hstop, toNumber?, htake]
  rfl

end JsonNumeral

namespace JsonNumber

/-- The number is what its text reads as. -/
def Rereads (n : JsonNumber) : Prop := JsonNumeral.read? (Json.numberText n).toList = some (n, [])

instance (n : JsonNumber) : Decidable n.Rereads :=
  inferInstanceAs (Decidable (JsonNumeral.read? (Json.numberText n).toList = some (n, [])))

theorem ofInt?_val (z : WideInt) : WideInt.ofInt? z.val = some z := by
  unfold WideInt.ofInt?
  rw [dif_pos ⟨z.low, z.high⟩]

theorem natAbs_lt (z : WideInt) : z.val.natAbs < UInt64.size := by
  have hlow := z.low
  have hhigh := z.high
  rw [Int64.toInt_minValue] at hlow
  unfold UInt64.size at hhigh ⊢
  omega

theorem ofWhole_natAbs (z : WideInt) :
    JsonNumeral.ofWhole (z.val < 0) z.val.natAbs = .int z := by
  have hval : (if decide (z.val < 0) = true then -(z.val.natAbs : Int) else z.val.natAbs) = z.val := by
    simp only [decide_eq_true_eq]
    split
    · omega
    · omega
  have hnonzero : ¬ (decide (z.val < 0) = true ∧ z.val.natAbs = 0) := by
    simp only [decide_eq_true_eq]
    omega
  unfold JsonNumeral.ofWhole
  rw [hval, ofInt?_val]
  simp only [if_neg hnonzero]

theorem toList_repr_of_neg {z : Int} (h : z < 0) :
    (Int.repr z).toList = '-' :: Nat.toDigits 10 z.natAbs := by
  obtain ⟨n, rfl⟩ := Int.eq_negSucc_of_lt_zero h
  simp [Int.repr]

theorem toList_repr_of_nonneg {z : Int} (h : ¬ z < 0) :
    (Int.repr z).toList = Nat.toDigits 10 z.natAbs := by
  obtain ⟨n, rfl⟩ := Int.eq_ofNat_of_zero_le (Int.not_lt.mp h)
  exact Nat.toList_repr

theorem rereads_int (z : WideInt) : (int z).Rereads := by
  have hwhole := ofWhole_natAbs z
  by_cases hneg : z.val < 0
  · rw [decide_eq_true hneg] at hwhole
    rw [Rereads, Json.numberText, toList_repr_of_neg hneg, JsonNumeral.read?_minus,
      JsonNumeral.readUnsigned?_toDigits (natAbs_lt z), hwhole]
  · rw [decide_eq_false hneg] at hwhole
    obtain ⟨c, more, hdigits⟩ :=
      List.exists_cons_of_ne_nil (Nat.toDigits_ne_nil (n := z.val.natAbs) (b := 10))
    have hc : c ≠ '-' := by
      rintro rfl
      have hdigit := isDigit_of_mem_toDigits (n := z.val.natAbs) (c := '-') (by simp [hdigits])
      exact absurd hdigit (by decide)
    rw [Rereads, Json.numberText, toList_repr_of_nonneg hneg, hdigits, JsonNumeral.read?_of_ne hc,
      ← hdigits, JsonNumeral.readUnsigned?_toDigits (natAbs_lt z), hwhole]

end JsonNumber

end Relata
