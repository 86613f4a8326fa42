import Relata.Proofs.Filters
import Relata.Proofs.Narrowing
import Relata.Proofs.Placement

/-!
What documents are bound as. Main statement: two different documents are bound as the same value
only if they are numbers, one of them an integer beyond the signed 64-bit range, with the same
nearest double; so conditions that compare with different documents bind different parameters but
for such numbers.
-/
namespace Relata

open Number

/-- The double nearest to an integer beyond the signed 64-bit range: these stand 2048 apart. -/
def WideInt.rounded (z : WideInt) : Nat := 2048 * roundDiv z.val.toNat 2048

theorem WideInt.rounded_near {z : WideInt} (h : Value.maxLong < z.val) :
    |(z.rounded : Int) - z.val| ≤ 1024 ∧ ((z.rounded : Int) = z.val ↔ 2048 ∣ z.val) := by
  have hcases := roundDiv_cases z.val.toNat 2048
  have hmax : Value.maxLong = 9223372036854775807 := by decide
  rw [abs_le]
  unfold rounded
  omega

namespace Json

/-- Two numbers with one nearest double, of which one at least is an integer that does not fit a
signed 64-bit one. -/
inductive Merges : Json → Json → Prop
  | integers {z w : WideInt} (hz : Value.maxLong < z.val) (hw : Value.maxLong < w.val)
      (h : z.rounded = w.rounded) : Merges (.number (.int z)) (.number (.int w))
  | integerReal {z : WideInt} {x : Double} (hz : Value.maxLong < z.val)
      (h : x.meaning.toRat? = some (z.rounded : ℚ)) :
      Merges (.number (.int z)) (.number (.real x))
  | realInteger {z : WideInt} {x : Double} (hz : Value.maxLong < z.val)
      (h : x.meaning.toRat? = some (z.rounded : ℚ)) :
      Merges (.number (.real x)) (.number (.int z))

theorem Merges.numbers {a b : Json} (h : a.Merges b) :
    (∃ m, a = .number m) ∧ ∃ n, b = .number n := by
  cases h with
  | integers => exact ⟨⟨_, rfl⟩, _, rfl⟩
  | integerReal => exact ⟨⟨_, rfl⟩, _, rfl⟩
  | realInteger => exact ⟨⟨_, rfl⟩, _, rfl⟩

end Json

@[simp] theorem Json.merges_integers {z w : WideInt} :
    (Json.number (.int z)).Merges (.number (.int w)) ↔
      Value.maxLong < z.val ∧ Value.maxLong < w.val ∧ z.rounded = w.rounded := by
  constructor
  · rintro ⟨⟩
    exact ⟨‹_›, ‹_›, ‹_›⟩
  · rintro ⟨hz, hw, h⟩
    exact .integers hz hw h

@[simp] theorem Json.merges_integerReal {z : WideInt} {x : Double} :
    (Json.number (.int z)).Merges (.number (.real x)) ↔
      Value.maxLong < z.val ∧ x.meaning.toRat? = some (z.rounded : ℚ) := by
  constructor
  · rintro ⟨⟩
    exact ⟨‹_›, ‹_›⟩
  · rintro ⟨hz, h⟩
    exact .integerReal hz h

@[simp] theorem Json.merges_realInteger {z : WideInt} {x : Double} :
    (Json.number (.real x)).Merges (.number (.int z)) ↔
      Value.maxLong < z.val ∧ x.meaning.toRat? = some (z.rounded : ℚ) := by
  constructor
  · rintro ⟨⟩
    exact ⟨‹_›, ‹_›⟩
  · rintro ⟨hz, h⟩
    exact .realInteger hz h

theorem Json.not_merges_reals {x y : Double} :
    ¬ (Json.number (.real x)).Merges (.number (.real y)) := nofun

/-- What a number is bound as: an integer if it is one that fits, else a double. -/
inductive JsonNumber.BoundAs : JsonNumber → Value → Prop
  | long {z : WideInt} (h : z.val ≤ Value.maxLong) : BoundAs (.int z) (.long (Int64.ofInt z.val))
  | wide {z : WideInt} (h : Value.maxLong < z.val) : BoundAs (.int z) (.double (Double.ofInt z.val))
  | real (x : Double) : BoundAs (.real x) (.double x)

namespace Value

theorem ofJson_long {z : WideInt} (h : z.val ≤ maxLong) :
    ofJson (.number (.int z)) = .long (Int64.ofInt z.val) := by
  have hlong : (JsonNumber.int z).toLong? = some (Int64.ofInt z.val) := if_pos h
  simp only [ofJson, hlong]

theorem ofJson_wide {z : WideInt} (h : maxLong < z.val) :
    ofJson (.number (.int z)) = .double (Double.ofInt z.val) := by
  have hwide : (JsonNumber.int z).toLong? = none := if_neg (Int.not_le.mpr h)
  simp only [ofJson, hwide, JsonNumber.toDouble]

theorem boundAs_ofJson (n : JsonNumber) : n.BoundAs (ofJson (.number n)) := by
  cases n with
  | real x => exact .real x
  | int z =>
    by_cases h : z.val ≤ maxLong
    · rw [ofJson_long h]
      exact .long h
    · rw [ofJson_wide (Int.not_le.mp h)]
      exact .wide (Int.not_le.mp h)

theorem toInt_ofInt_val {z : WideInt} (h : z.val ≤ maxLong) : (Int64.ofInt z.val).toInt = z.val :=
  toInt_ofInt_wide z.low h

/-- The rounded integer is what its double stands for. -/
theorem toRat?_ofInt_val {z : WideInt} (h : maxLong < z.val) :
    (Double.ofInt z.val).meaning.toRat? = some (z.rounded : ℚ) := by
  have hmax : maxLong = 9223372036854775807 := by decide
  have hsize : UInt64.size = 2 ^ 64 := rfl
  have hhigh := z.high
  have hval : (z.val.toNat : Int) = z.val := Int.toNat_of_nonneg (by omega)
  have htop := toRat?_ofInt_top (n := z.val.toNat) (by omega) (by omega)
  rwa [hval] at htop

theorem ofJson_number_same_iff (m n : JsonNumber) :
    (ofJson (.number m)).same (ofJson (.number n)) = true ↔
      (Json.number m).same (.number n) = true ∨ (Json.number m).Merges (.number n) := by
  have hm := boundAs_ofJson m
  have hn := boundAs_ofJson n
  generalize ofJson (.number m) = v at hm
  generalize ofJson (.number n) = w at hn
  simp only [Json.same]
  cases hm with
  | @long z hz =>
    cases hn with
    | @long z' hz' =>
      have hfits : ¬ maxLong < z.val := Int.not_lt.mpr hz
      simp only [same, beq_iff_eq, JsonNumber.same, Json.merges_integers, hfits, false_and,
        or_false]
      rw [← Int64.toInt_inj, toInt_ofInt_val hz, toInt_ofInt_val hz']
    | @wide z' hz' =>
      have hne : z.val ≠ z'.val := by omega
      have hfits : ¬ maxLong < z.val := Int.not_lt.mpr hz
      simp [same, JsonNumber.same, hne, hfits]
    | real x =>
      have hfits : ¬ maxLong < z.val := Int.not_lt.mpr hz
      simp [same, JsonNumber.same, hfits]
  | @wide z hz =>
    have hrat := toRat?_ofInt_val hz
    cases hn with
    | @long z' hz' =>
      have hne : z.val ≠ z'.val := by omega
      have hfits : ¬ maxLong < z'.val := Int.not_lt.mpr hz'
      simp [same, JsonNumber.same, hne, hfits]
    | @wide z' hz' =>
      have hsame : (Double.ofInt z.val).same (Double.ofInt z'.val) = true ↔
          z.rounded = z'.rounded := by
        rw [Double.same_iff_of_toRat? hrat, toRat?_ofInt_val hz', Option.some.injEq, Nat.cast_inj,
          eq_comm]
      have hval (h : z.val = z'.val) : z.rounded = z'.rounded := by rw [WideInt.rounded, h]; rfl
      simp only [same, hsame, JsonNumber.same, beq_iff_eq, Json.merges_integers, hz, hz', true_and]
      exact (or_iff_right_of_imp hval).symm
    | real x =>
      simp [same, JsonNumber.same, Double.same_iff_of_toRat? hrat, hz]
  | real x =>
    cases hn with
    | @long z' hz' =>
      have hfits : ¬ maxLong < z'.val := Int.not_lt.mpr hz'
      simp [same, JsonNumber.same, hfits]
    | @wide z' hz' =>
      have hrat := toRat?_ofInt_val hz'
      simp [same, JsonNumber.same, Double.same_comm x, Double.same_iff_of_toRat? hrat, hz']
    | real y => simp [same, JsonNumber.same, Json.not_merges_reals]

theorem ofJson_number_isNumber (n : JsonNumber) :
    (∃ z, ofJson (.number n) = .long z) ∨ ∃ x, ofJson (.number n) = .double x := by
  have hn := boundAs_ofJson n
  generalize ofJson (.number n) = w at hn
  cases hn with
  | long => exact .inl ⟨_, rfl⟩
  | wide => exact .inr ⟨_, rfl⟩
  | real => exact .inr ⟨_, rfl⟩

/-- A number is bound as nothing that any other document is bound as. -/
theorem ofJson_number_unlike (m : JsonNumber) {b : Json} (hb : ∀ n, b ≠ .number n) :
    (ofJson (.number m)).same (ofJson b) = false ∧ (ofJson b).same (ofJson (.number m)) = false ∧
      (Json.number m).same b = false ∧ b.same (.number m) = false := by
  obtain ⟨z, hz⟩ | ⟨x, hx⟩ := ofJson_number_isNumber m
  · rw [hz]
    cases b with
    | number n => exact absurd rfl (hb n)
    | null | bool | string | array | object => simp [ofJson, same, Json.same]
  · rw [hx]
    cases b with
    | number n => exact absurd rfl (hb n)
    | null | bool | string | array | object => simp [ofJson, same, Json.same]

theorem ofJson_same_of_not_numbers {a b : Json} (ha : ∀ n, a ≠ .number n)
    (hb : ∀ n, b ≠ .number n) : (ofJson a).same (ofJson b) = a.same b := by
  cases a with
  | number m => exact absurd rfl (ha m)
  | null | bool | string | array | object =>
    cases b with
    | number n => exact absurd rfl (hb n)
    | null | bool | string | array | object => simp [ofJson, same, Json.same]

/-- Documents are bound as one value just if they are equal or merge. -/
theorem ofJson_same_iff (a b : Json) :
    (ofJson a).same (ofJson b) = true ↔ a.same b = true ∨ a.Merges b := by
  by_cases ha : ∃ m, a = .number m
  · obtain ⟨m, rfl⟩ := ha
    by_cases hb : ∃ n, b = .number n
    · obtain ⟨n, rfl⟩ := hb
      exact ofJson_number_same_iff m n
    · obtain ⟨hvalues, -, hdocuments, -⟩ := ofJson_number_unlike m (not_exists.mp hb)
      have hmerges : ¬ (Json.number m).Merges b := fun h => hb h.numbers.2
      simp [hvalues, hdocuments, hmerges]
  · have hmerges : ¬ a.Merges b := fun h => ha h.numbers.1
    rw [or_iff_left hmerges]
    by_cases hb : ∃ n, b = .number n
    · obtain ⟨n, rfl⟩ := hb
      obtain ⟨-, hvalues, -, hdocuments⟩ := ofJson_number_unlike n (not_exists.mp ha)
      rw [hvalues, hdocuments]
    · rw [ofJson_same_of_not_numbers (not_exists.mp ha) (not_exists.mp hb)]

end Value

namespace Json

/-- The documents that an entry of conditions compares its column with: those of its operators, or
the entry itself. -/
def operands : Json → List Json
  | .object members => members.map Prod.snd
  | d => [d]

/-- The documents that conditions compare with, in order. -/
def comparands (entries : List (String × Json)) : List Json := entries.flatMap fun e => e.2.operands

end Json

open Query

namespace Predicate

theorem StandsFor.operands {d : Json} {p : Predicate} (h : StandsFor d p) :
    p.comparisons.map Prod.snd = d.operands.map Value.ofJson := by
  cases h with
  | value h =>
    cases d with
    | object members => exact absurd rfl (h members)
    | null | bool | number | string | array => rfl
  | @operators members cs h =>
    show cs.map Prod.snd = (members.map Prod.snd).map Value.ofJson
    induction h with
    | nil => rfl
    | cons hc _ ih => rw [List.map_cons, List.map_cons, List.map_cons, hc.2, ih]

theorem operands_of_allOfJson {entries : List (String × Json)} {cs : List (String × Predicate)}
    (h : allOfJson (.object entries) = .ok cs) :
    (conditions cs).map Condition.operand = (Json.comparands entries).map Value.ofJson := by
  obtain ⟨_, ⟨⟩, hstands⟩ := allOfJson_eq_ok_iff.mp h
  have hflat : (conditions cs).map Condition.operand =
      cs.flatMap fun c => c.2.comparisons.map Prod.snd := by
    simp [conditions, List.map_flatMap, Function.comp_def]
  rw [hflat, Json.comparands, List.map_flatMap]
  clear h hflat
  induction hstands with
  | nil => rfl
  | cons hc _ ih => rw [List.flatMap_cons, List.flatMap_cons, hc.2.operands, ih]

end Predicate

namespace QueryBuilder

/-- Conditions of a document bind what their documents are bound as, after all that was bound
before. An insertion has no conditions. -/
theorem params_whereJson {b b₁ : QueryBuilder} {entries : List (String × Json)} {stmt : Statement}
    (hop : b.operation ≠ .insert) (h : b.whereJson (.object entries) = .ok b₁)
    (hs : b₁.compile = .ok stmt) :
    stmt.params = b.bound ++ (Json.comparands entries).map Value.ofJson := by
  obtain ⟨cs, hcs, rfl⟩ := map_eq_ok_iff.mp h
  have hoperands := Predicate.operands_of_allOfJson hcs
  rw [whereAll_eq, compile_eq] at hs
  split at hs
  next => cases hs
  next =>
    cases hs
    rw [← hoperands]
    unfold bound QueryBuilder.operands
    dsimp only
    cases hb : b.operation with
    | insert => exact absurd hb hop
    | select | delete => rw [List.map_append]
    | update => rw [List.map_append, List.append_assoc]

end QueryBuilder

/-- Documents that are bound as one value are equal, or numbers that merge. Every integer that fits
is bound exactly; one beyond the signed 64-bit range becomes the nearest double, which is exact for
multiples of 2048 alone. So two documents of conditions bind the same parameters just if what they
compare with is equal place by place, or merges. -/
theorem ofJson_merges_rounded (d e : Json) (z : WideInt) (b : QueryBuilder) :
    ((Value.ofJson d).same (Value.ofJson e) = true ↔ d.same e = true ∨ d.Merges e) ∧
    (z.val ≤ Value.maxLong →
      ∃ n : Int64, Value.ofJson (.number (.int z)) = .long n ∧ n.toInt = z.val) ∧
    (Value.maxLong < z.val →
      ∃ x : Double, Value.ofJson (.number (.int z)) = .double x ∧
        x.meaning.toRat? = some (z.rounded : ℚ) ∧ |(z.rounded : Int) - z.val| ≤ 1024 ∧
        ((z.rounded : Int) = z.val ↔ 2048 ∣ z.val)) ∧
    ∀ (b₁ b₂ : QueryBuilder) (entries entries' : List (String × Json)) (stmt stmt' : Statement),
      b.operation ≠ .insert →
      b.whereJson (.object entries) = .ok b₁ → b₁.compile = .ok stmt →
      b.whereJson (.object entries') = .ok b₂ → b₂.compile = .ok stmt' →
      stmt.params = b.bound ++ (Json.comparands entries).map Value.ofJson ∧
      stmt'.params = b.bound ++ (Json.comparands entries').map Value.ofJson ∧
      (List.Forall₂ (fun v w => v.same w = true) ((Json.comparands entries).map Value.ofJson)
          ((Json.comparands entries').map Value.ofJson) ↔
        List.Forall₂ (fun x y => x.same y = true ∨ x.Merges y) (Json.comparands entries)
          (Json.comparands entries')) := by
  refine ⟨Value.ofJson_same_iff d e, fun hz => ?_, fun hz => ?_, ?_⟩
  · exact ⟨_, Value.ofJson_long hz, Value.toInt_ofInt_val hz⟩
  · exact ⟨_, Value.ofJson_wide hz, Value.toRat?_ofInt_val hz, z.rounded_near hz⟩
  · intro b₁ b₂ entries entries' stmt stmt' hop h hs h' hs'
    refine ⟨QueryBuilder.params_whereJson hop h hs, QueryBuilder.params_whereJson hop h' hs', ?_⟩
    rw [List.forall₂_map_left_iff, List.forall₂_map_right_iff]
    simp only [Value.ofJson_same_iff]

/-- The largest integer and the largest signed one do not merge: a condition tells them apart. -/
theorem ofJson_merges_rounded_largest :
    let users := QueryBuilder.ofTable (.ofName "users") .postgres
    let largest : WideInt := ⟨18446744073709551615, by decide, by decide⟩
    let unsigned : Json := .number (.int largest)
    let signed : Json := .number (.int ⟨9223372036854775807, by decide, by decide⟩)
    ∃ b₁ b₂ stmt stmt', users.whereJson (.object [("id", unsigned)]) = .ok b₁ ∧
      b₁.compile = .ok stmt ∧ users.whereJson (.object [("id", signed)]) = .ok b₂ ∧
      b₂.compile = .ok stmt' ∧
      ¬ List.Forall₂ (fun v w => v.same w = true) stmt.params stmt'.params := by
  intro users largest unsigned signed
  obtain ⟨-, -, -, hbinds⟩ := ofJson_merges_rounded unsigned signed largest users
  obtain ⟨hparams, hparams', hsame⟩ := hbinds _ _ [("id", unsigned)] [("id", signed)] _ _
    (by decide) rfl rfl rfl rfl
  refine ⟨_, _, _, _, rfl, rfl, rfl, rfl, ?_⟩
  have hbound : users.bound = [] := rfl
  rw [hparams, hparams', hbound, List.nil_append, List.nil_append, hsame]
  rintro (_ | ⟨hequal | hmerges, -⟩)
  · exact absurd hequal (by decide)
  · cases hmerges with
    | integers _ hsigned _ => exact absurd hsigned (by decide)

/-- Two neighbours beyond the signed range are bound as one value, which is the first of them. -/
theorem ofJson_neighbours :
    let even : Json := .number (.int ⟨9223372036854775808, by decide, by decide⟩)
    let odd : Json := .number (.int ⟨9223372036854775809, by decide, by decide⟩)
    even.same odd = false ∧ (Value.ofJson even).same (Value.ofJson odd) = true := by
  decide +kernel

end Relata
