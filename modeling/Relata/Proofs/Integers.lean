import Relata.Proofs.Wire

/-!
Integers that are sent as bytes and read back. Main statement: an integer type takes just the
integers within its range, in as many bytes as it has; a text type takes every integer as its
decimal digits; either way the same integer is read back. Of the other types only those of
floating-point numbers take integers.
-/
namespace Relata

namespace Number

theorem readInt?_minus (digits : List Char) :
    readInt? ('-' :: digits) =
      if digits.isEmpty || !digits.all isDigit then none else some (-(ofDigits digits : Int)) := rfl

theorem readInt?_of_isDigit {c : Char} (hc : isDigit c = true) (rest : List Char) :
    readInt? (c :: rest) =
      if (c :: rest).isEmpty || !(c :: rest).all isDigit then none
      else some (ofDigits (c :: rest) : Int) := by
  have hminus : c ≠ '-' := by
    rintro rfl
    exact absurd hc (by decide)
  have hplus : c ≠ '+' := by
    rintro rfl
    exact absurd hc (by decide)
  simp [readInt?, hminus, hplus]

theorem toDigits_all_isDigit (n : Nat) : (Nat.toDigits 10 n).all isDigit = true :=
  List.all_eq_true.mpr fun _ => isDigit_of_mem_toDigits

/-- The decimal digits of an integer, with its sign, are read as the integer. -/
theorem readInt?_repr (z : Int) : readInt? (Int.repr z).toList = some z := by
  have hdigits := toDigits_all_isDigit z.natAbs
  have hvalue := ofDigits_toDigits z.natAbs
  obtain ⟨c, rest, hcons⟩ :=
    List.exists_cons_of_ne_nil (Nat.toDigits_ne_nil (n := z.natAbs) (b := 10))
  by_cases hneg : z < 0
  · rw [JsonNumber.toList_repr_of_neg hneg, readInt?_minus, hvalue, if_neg (by simp [hdigits])]
    congr 1
    omega
  · have hc : isDigit c = true := isDigit_of_mem_toDigits (n := z.natAbs) (by simp [hcons])
    rw [JsonNumber.toList_repr_of_nonneg hneg, hcons, readInt?_of_isDigit hc, ← hcons, hvalue,
      if_neg (by simp [hdigits])]
    congr 1
    omega

theorem readBounded?_repr {lo hi z : Int} (hlow : lo ≤ z) (hhigh : z ≤ hi) :
    readBounded? lo hi (Int.repr z) = some z := by
  simp [readBounded?, readInt?_repr, Option.filter, hlow, hhigh]

end Number

namespace Value

/-- The value is the integer, in one of the two widths. -/
inductive IsInteger (z : Int) : Value → Prop
  | int {n : Int32} (h : n.toInt = z) : IsInteger z (.int n)
  | long {n : Int64} (h : n.toInt = z) : IsInteger z (.long n)

variable {v : Value} {z : Int}

theorem toInt_ofInt_int (n : Int32) : (Int64.ofInt n.toInt).toInt = n.toInt := by
  have hlow := n.le_toInt
  have hhigh := n.toInt_lt
  exact Int64.toInt_ofInt_of_le (by omega) (by omega)

theorem IsInteger.toLong? (h : v.IsInteger z) : ∃ n, v.toLong? = some n ∧ n.toInt = z := by
  cases h with
  | @int n h => exact ⟨_, rfl, (toInt_ofInt_int n).trans h⟩
  | long h => exact ⟨_, rfl, h⟩

/-- The digits of a 64-bit integer have it as their view. -/
theorem toLong?_repr (n : Int64) : (Value.string (Int.repr n.toInt)).toLong? = some n := by
  rw [Value.toLong?, Number.readBounded?_repr (minLong_le n) (le_maxLong n), Option.map_some,
    Int64.ofInt_toInt]

end Value

namespace Postgres

open Number

/-- The integers of a type: the bytes of each, the least and the greatest. -/
structure Integers where
  width : Nat
  least : Int
  greatest : Int

namespace WireType

def integers? : WireType → Option Integers
  | .int2 => some ⟨2, Int16.minValue.toInt, Int16.maxValue.toInt⟩
  | .int4 => some ⟨4, Int32.minValue.toInt, Int32.maxValue.toInt⟩
  | .int8 => some ⟨8, Int64.minValue.toInt, Int64.maxValue.toInt⟩
  | _ => none

/-- Types that take integers as their decimal digits. -/
def takesDigits : WireType → Bool
  | .text => true
  | .varchar => true
  | .bpchar => true
  | _ => false

def isFloating : WireType → Bool
  | .float4 => true
  | .float8 => true
  | _ => false

def isInstant : WireType → Bool
  | .timestamp => true
  | .timestamptz => true
  | _ => false

end WireType

variable {type : WireType} {r : Integers} {n : Int64} {z : Int} {v : Value}

/-- The value is sent as the integer. A timestamp is, where the type is not one of timestamps. -/
inductive SentAs (type : WireType) (z : Int) : Value → Prop
  | integer {v : Value} (h : v.IsInteger z) : SentAs type z v
  | count {n : Int64} (h : n.toInt = z) (htype : type.isInstant = false) :
      SentAs type z (.timestamp n)

theorem SentAs.encode (h : SentAs type z v) :
    ∃ n : Int64, n.toInt = z ∧ encode type v = (encodeInteger type n).map some := by
  cases h with
  | integer h =>
    cases h with
    | @int n h => exact ⟨_, (Value.toInt_ofInt_int n).trans h, rfl⟩
    | long h => exact ⟨_, h, rfl⟩
  | @count n h htype =>
    refine ⟨n, h, ?_⟩
    cases type with
    | timestamp | timestamptz => cases htype
    | _ => rfl

/-- The bounds of an integer type are those of its bytes. -/
theorem fits_iff (htype : type.integers? = some r) :
    (-(wordSize r.width : Int) ≤ 2 * z ∧ 2 * z < wordSize r.width) ↔ r.least ≤ z ∧ z ≤ r.greatest := by
  have htwo : wordSize 2 = 65536 := rfl
  have hfour : wordSize 4 = 4294967296 := rfl
  have height : wordSize 8 = 18446744073709551616 := rfl
  cases type with
  | int2 =>
    obtain rfl := Option.some.inj htype
    simp only [htwo, Int16.toInt_minValue, Int16.toInt_maxValue]
    omega
  | int4 =>
    obtain rfl := Option.some.inj htype
    simp only [hfour, Int32.toInt_minValue, Int32.toInt_maxValue]
    omega
  | int8 =>
    obtain rfl := Option.some.inj htype
    simp only [height, Int64.toInt_minValue, Int64.toInt_maxValue]
    omega
  | _ => cases htype

theorem encodeInteger_integers (htype : type.integers? = some r) :
    encodeInteger type n = encodeSized r.width n := by
  cases type with
  | int2 | int4 | int8 =>
    obtain rfl := Option.some.inj htype
    rfl
  | _ => cases htype

theorem encodeInteger_fits (htype : type.integers? = some r) (hlow : r.least ≤ n.toInt)
    (hhigh : n.toInt ≤ r.greatest) : encodeInteger type n = .ok (toWord r.width n.toInt) := by
  rw [encodeInteger_integers htype, encodeSized, if_pos ((fits_iff htype).mpr ⟨hlow, hhigh⟩)]

theorem encodeInteger_outside (htype : type.integers? = some r)
    (hout : ¬ (r.least ≤ n.toInt ∧ n.toInt ≤ r.greatest)) :
    encodeInteger type n = .error .outOfRange := by
  rw [encodeInteger_integers htype, encodeSized, if_neg (mt (fits_iff htype).mp hout)]

theorem encodeInteger_digits (htype : type.takesDigits = true) :
    encodeInteger type n = .ok (textBytes (Int.repr n.toInt)) := by
  cases type with
  | text | varchar | bpchar => rfl
  | _ => cases htype

theorem encodeInteger_mismatch (hinteger : type.integers? = none)
    (hdigits : type.takesDigits = false) (hfloating : type.isFloating = false) :
    encodeInteger type n = .error (.mismatch "long" type) := by
  cases type with
  | int2 | int4 | int8 => cases hinteger
  | text | varchar | bpchar => cases hdigits
  | float4 | float8 => cases hfloating
  | _ => rfl

/-- The bytes of an integer of the type are read as it. -/
theorem decode_toWord (htype : type.integers? = some r) (hlow : r.least ≤ z)
    (hhigh : z ≤ r.greatest) :
    ∃ w, decode type (some (toWord r.width z)) = .value w ∧ w.IsInteger z := by
  obtain ⟨hleast, hgreatest⟩ := (fits_iff htype).mpr ⟨hlow, hhigh⟩
  have hword := ofWord_toWord hleast hgreatest
  have hsized := sized?_toWord r.width z
  cases type with
  | int2 | int4 =>
    obtain rfl := Option.some.inj htype
    refine ⟨.int (Int32.ofInt z), ?_, .int ?_⟩
    · simp [decode, WireType.isKnown, decodeKnown?, hsized, hword]
    · simp only [Int16.toInt_minValue, Int16.toInt_maxValue, Int32.toInt_minValue,
        Int32.toInt_maxValue] at hlow hhigh
      exact Int32.toInt_ofInt_of_le (by omega) (by omega)
  | int8 =>
    obtain rfl := Option.some.inj htype
    refine ⟨.long (Int64.ofInt z), ?_, .long ?_⟩
    · simp [decode, WireType.isKnown, decodeKnown?, hsized, hword]
    · simp only [Int64.toInt_minValue, Int64.toInt_maxValue] at hlow hhigh
      exact Int64.toInt_ofInt_of_le (by omega) (by omega)
  | _ => cases htype

theorem decode_digits (htype : type.takesDigits = true) (s : String) :
    decode type (some (textBytes s)) = .value (.string s) := by
  cases type with
  | text | varchar | bpchar =>
    simp [decode, WireType.isKnown, WireType.isText, decodeText?, WireType.isVersioned,
      textOfBytes?_textBytes]
  | _ => cases htype

/-- An integer type takes an integer just if it is within the range, and no other type but those of
texts and of floating-point numbers takes any. What is taken is read back as the same integer. -/
theorem encode_integer_exact (h : SentAs type z v) :
    (∀ r, type.integers? = some r →
      (r.least ≤ z ∧ z ≤ r.greatest →
        encode type v = .ok (some (toWord r.width z)) ∧ (toWord r.width z).length = r.width ∧
          ∃ w n, decode type (some (toWord r.width z)) = .value w ∧ w.IsInteger z ∧
            w.toLong? = some n ∧ n.toInt = z) ∧
      (¬ (r.least ≤ z ∧ z ≤ r.greatest) → encode type v = .error .outOfRange)) ∧
    (type.takesDigits = true →
      ∃ bs s n, encode type v = .ok (some bs) ∧ decode type (some bs) = .value (.string s) ∧
        (Value.string s).toLong? = some n ∧ n.toInt = z) ∧
    (type.integers? = none → type.takesDigits = false → type.isFloating = false →
      encode type v = .error (.mismatch "long" type)) := by
  obtain ⟨n, rfl, hencode⟩ := h.encode
  refine ⟨fun r htype => ⟨?_, ?_⟩, ?_, ?_⟩
  · rintro ⟨hlow, hhigh⟩
    obtain ⟨w, hread, hinteger⟩ := decode_toWord htype hlow hhigh
    obtain ⟨m, hlong, hm⟩ := hinteger.toLong?
    refine ⟨?_, length_toBytes .., w, m, hread, hinteger, hlong, hm⟩
    rw [hencode, encodeInteger_fits htype hlow hhigh]
    rfl
  · intro hout
    rw [hencode, encodeInteger_outside htype hout]
    rfl
  · intro htype
    refine ⟨_, _, n, ?_, decode_digits htype _, Value.toLong?_repr n, rfl⟩
    rw [hencode, encodeInteger_digits htype]
    rfl
  · intro hinteger hdigits hfloating
    rw [hencode, encodeInteger_mismatch hinteger hdigits hfloating]
    rfl

/-- The least integer of two bytes fits, and the one below it does not. -/
theorem encode_integer_exact_int2 :
    encode .int2 (.int (-32768)) = .ok (some [0x80, 0x00]) ∧
      encode .int2 (.timestamp (-32769)) = .error .outOfRange := by
  have hleast : SentAs .int2 (-32768) (.int (-32768)) := .integer (.int rfl)
  have hbelow : SentAs .int2 (-32769) (.timestamp (-32769)) := .count rfl rfl
  have hsent := ((encode_integer_exact hleast).1 _ rfl).1 (by decide)
  have hrefused := ((encode_integer_exact hbelow).1 _ rfl).2 (by decide)
  exact ⟨hsent.1, hrefused⟩

end Postgres
end Relata
