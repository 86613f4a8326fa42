import Relata.Proofs.Relations

/-!
The ways of stating conditions. Main statement: conditions given together are the comparisons given
one by one; a document of conditions is taken just if every operator in it is known, as the
conditions that it states, and is otherwise refused for the first operator that is not.
-/
namespace Relata

section Traversal

variable {α β ε : Type} {f : α → Except ε β} {l : List α}

/-- A traversal fails with the error of the first item that has one. -/
theorem mapM_eq_error_iff {e : ε} :
    l.mapM f = .error e ↔ ∃ before x after, l = before ++ x :: after ∧
      (∀ y ∈ before, ∃ z, f y = .ok z) ∧ f x = .error e := by
  induction l with
  | nil => simp [pure, Except.pure]
  | cons x l ih =>
    rw [List.mapM_cons]
    constructor
    · intro h
      cases hx : f x with
      | error e' =>
        rw [hx] at h
        cases h
        exact ⟨[], x, l, rfl, by simp, hx⟩
      | ok z =>
        have hl : l.mapM f = .error e := by
          cases hl : l.mapM f with
          | error e' => simpa [hx, hl, bind, Except.bind] using h
          | ok ys => simp [hx, hl, bind, Except.bind, pure, Except.pure] at h
        obtain ⟨before, y, after, rfl, hbefore, hy⟩ := ih.mp hl
        refine ⟨x :: before, y, after, rfl, ?_, hy⟩
        exact List.forall_mem_cons.mpr ⟨⟨z, hx⟩, hbefore⟩
    · rintro ⟨before, y, after, hl, hbefore, hy⟩
      cases before with
      | nil =>
        obtain ⟨rfl, rfl⟩ := List.cons.inj hl
        simp [hy, bind, Except.bind]
      | cons x' before =>
        obtain ⟨rfl, htail⟩ := List.cons.inj hl
        obtain ⟨⟨z, hz⟩, hbefore⟩ := List.forall_mem_cons.mp hbefore
        have hfails := ih.mpr ⟨before, y, after, htail, hbefore, hy⟩
        simp [hz, hfails, bind, Except.bind]

theorem exists_mapM_eq_ok_iff : (∃ r, l.mapM f = .ok r) ↔ ∀ x ∈ l, ∃ y, f x = .ok y := by
  constructor
  · rintro ⟨r, hr⟩
    have hall : List.Forall₂ (fun x y => (∃ y, f x = .ok y) ∧ f x = .ok y) l r :=
      (mapM_eq_ok_iff.mp hr).imp fun x y hy => ⟨⟨y, hy⟩, hy⟩
    exact ((List.forall₂_and_left ..).mp hall).1
  · intro h
    cases hl : l.mapM f with
    | ok r => exact ⟨r, rfl⟩
    | error e =>
      obtain ⟨before, x, after, rfl, -, hx⟩ := mapM_eq_error_iff.mp hl
      obtain ⟨y, hy⟩ := h x (by simp)
      rw [hx] at hy
      cases hy

variable {γ : Type} {x : Except ε α} {g : α → γ}

theorem map_eq_ok_iff {z : γ} : x.map g = .ok z ↔ ∃ y, x = .ok y ∧ g y = z := by
  cases x <;> simp [Except.map]

theorem map_eq_error_iff {e : ε} : x.map g = .error e ↔ x = .error e := by
  cases x <;> simp [Except.map]

end Traversal

/-- The operators that a document of conditions may name. -/
def Operator.named : List (String × Operator) :=
  [("gt", .gt), ("lt", .lt), ("gte", .gte), ("lte", .lte), ("contains", .contains)]

def Operator.names : List String := named.map Prod.fst

theorem Operator.ofName?_eq_some_iff {name : String} {op : Operator} :
    ofName? name = some op ↔ (name, op) ∈ named := by
  constructor
  · intro h
    unfold ofName? at h
    split at h <;> simp_all [named]
  · intro h
    simp only [named, List.mem_cons, Prod.mk.injEq, List.not_mem_nil, or_false] at h
    rcases h with ⟨rfl, rfl⟩ | ⟨rfl, rfl⟩ | ⟨rfl, rfl⟩ | ⟨rfl, rfl⟩ | ⟨rfl, rfl⟩ <;> rfl

theorem Operator.ofName?_eq_none_iff {name : String} : ofName? name = none ↔ name ∉ names := by
  simp only [names, Option.eq_none_iff_forall_ne_some, ne_eq, ofName?_eq_some_iff, List.mem_map,
    Prod.exists, exists_and_right, exists_eq_right, not_exists]

/-- Every member of the document, if it is an object, has an operator for its name. -/
def Json.IsPredicate (d : Json) : Prop :=
  ∀ members, d = .object members → ∀ m ∈ members, m.1 ∈ Operator.names

/-- The document is an object whose entries all state what a column is compared with. -/
def Json.IsConditions (d : Json) : Prop :=
  ∃ entries, d = .object entries ∧ ∀ e ∈ entries, e.2.IsPredicate

/-- What is wrong with a document of conditions: that it is no object, or the first operator in it
that is not known. -/
inductive Json.Misstates : Json → String → Prop
  | shape {d : Json} (h : ∀ entries, d ≠ .object entries) :
      Misstates d "conditions must be a JSON object"
  | operator {before after : List (String × Json)} {key : String}
      {known rest : List (String × Json)} {op : String} {operand : Json}
      (hbefore : ∀ e ∈ before, e.2.IsPredicate)
      (hknown : ∀ m ∈ known, m.1 ∈ Operator.names)
      (hop : op ∉ Operator.names) :
      Misstates (.object (before ++ (key, .object (known ++ (op, operand) :: rest)) :: after))
        ("unknown operator '" ++ op ++ "' for '" ++ key ++ "'")

namespace Predicate

/-- The comparisons of conditions, each as a step of its own. -/
def singles (cs : List (String × Predicate)) : List BuildStep :=
  cs.flatMap fun c => c.2.comparisons.map fun p => .compare c.1 p.1 p.2

/-- A document that is no object states equality, an object one comparison for each member. -/
inductive StandsFor : Json → Predicate → Prop
  | value {d : Json} (h : ∀ members, d ≠ .object members) : StandsFor d (.eq (Value.ofJson d))
  | operators {members : List (String × Json)} {cs : List (Operator × Value)}
      (h : List.Forall₂ (fun m c => (m.1, c.1) ∈ Operator.named ∧ c.2 = Value.ofJson m.2)
        members cs) :
      StandsFor (.object members) (.ops cs)

variable {key : String} {d : Json} {p : Predicate}

theorem comparisonOfJson_eq_ok_iff {m : String × Json} {c : Operator × Value} :
    comparisonOfJson key m = .ok c ↔ (m.1, c.1) ∈ Operator.named ∧ c.2 = Value.ofJson m.2 := by
  rw [← Operator.ofName?_eq_some_iff]
  unfold comparisonOfJson
  cases Operator.ofName? m.1 with
  | none => simp
  | some op => simp [Prod.ext_iff, eq_comm]

theorem comparisonOfJson_eq_error_iff {m : String × Json} {e : Error} :
    comparisonOfJson key m = .error e ↔ m.1 ∉ Operator.names ∧
      e = .invalidFilter ("unknown operator '" ++ m.1 ++ "' for '" ++ key ++ "'") := by
  rw [← Operator.ofName?_eq_none_iff]
  unfold comparisonOfJson
  cases Operator.ofName? m.1 with
  | none => simp [eq_comm]
  | some op => simp

theorem ofJson_eq_ok_iff : ofJson key d = .ok p ↔ StandsFor d p := by
  constructor
  · intro h
    cases d with
    | object members =>
      obtain ⟨cs, hcs, rfl⟩ := map_eq_ok_iff.mp h
      refine .operators ((mapM_eq_ok_iff.mp hcs).imp fun m c hc => ?_)
      exact comparisonOfJson_eq_ok_iff.mp hc
    | null | bool | number | string | array =>
      cases h
      exact .value (by simp)
  · intro h
    cases h with
    | value h => cases d <;> first | rfl | exact absurd rfl (h _)
    | operators h =>
      refine map_eq_ok_iff.mpr ⟨_, mapM_eq_ok_iff.mpr (h.imp fun m c hc => ?_), rfl⟩
      exact comparisonOfJson_eq_ok_iff.mpr hc

theorem exists_comparisonOfJson_eq_ok_iff {m : String × Json} :
    (∃ c, comparisonOfJson key m = .ok c) ↔ m.1 ∈ Operator.names := by
  simp only [comparisonOfJson_eq_ok_iff, Operator.names, List.mem_map]
  constructor
  · rintro ⟨c, hop, -⟩
    exact ⟨_, hop, rfl⟩
  · rintro ⟨e, he, hname⟩
    exact ⟨(e.2, Value.ofJson m.2), hname ▸ he, rfl⟩

theorem exists_ofJson_eq_ok_iff : (∃ p, ofJson key d = .ok p) ↔ d.IsPredicate := by
  cases d with
  | object members =>
    have hread : (∃ p, ofJson key (.object members) = .ok p) ↔
        ∃ cs, members.mapM (comparisonOfJson key) = .ok cs := by
      simp [ofJson, map_eq_ok_iff]
    rw [hread, exists_mapM_eq_ok_iff]
    simp only [exists_comparisonOfJson_eq_ok_iff, Json.IsPredicate, Json.object.injEq,
      forall_eq']
  | null | bool | number | string | array => simp [ofJson, Json.IsPredicate]

theorem ofJson_eq_error_iff {e : Error} :
    ofJson key d = .error e ↔ ∃ known op operand rest,
      d = .object (known ++ (op, operand) :: rest) ∧ (∀ m ∈ known, m.1 ∈ Operator.names) ∧
      op ∉ Operator.names ∧
      e = .invalidFilter ("unknown operator '" ++ op ++ "' for '" ++ key ++ "'") := by
  cases d with
  | object members =>
    simp only [ofJson, map_eq_error_iff, mapM_eq_error_iff, exists_comparisonOfJson_eq_ok_iff,
      comparisonOfJson_eq_error_iff, Json.object.injEq]
    constructor
    · rintro ⟨known, m, rest, hsplit, hknown, hop, he⟩
      exact ⟨known, m.1, m.2, rest, hsplit, hknown, hop, he⟩
    · rintro ⟨known, op, operand, rest, hsplit, hknown, hop, he⟩
      exact ⟨known, (op, operand), rest, hsplit, hknown, hop, he⟩
  | null | bool | number | string | array => simp [ofJson]

variable {e : Error} {entry : String × Json}

theorem entryOfJson_eq_ok_iff {c : String × Predicate} :
    ((ofJson entry.1 entry.2).map fun p => (entry.1, p)) = .ok c ↔
      c.1 = entry.1 ∧ StandsFor entry.2 c.2 := by
  simp only [map_eq_ok_iff, ofJson_eq_ok_iff]
  constructor
  · rintro ⟨p, hp, rfl⟩
    exact ⟨rfl, hp⟩
  · rintro ⟨hkey, hp⟩
    exact ⟨c.2, hp, Prod.ext hkey.symm rfl⟩

theorem exists_entryOfJson_eq_ok_iff :
    (∃ c, ((ofJson entry.1 entry.2).map fun p => (entry.1, p)) = .ok c) ↔
      entry.2.IsPredicate := by
  have hread : (∃ p, ofJson entry.1 entry.2 = .ok p) ↔ entry.2.IsPredicate :=
    exists_ofJson_eq_ok_iff
  rw [← hread]
  simp only [map_eq_ok_iff]
  constructor
  · rintro ⟨c, p, hp, -⟩
    exact ⟨p, hp⟩
  · rintro ⟨p, hp⟩
    exact ⟨_, p, hp, rfl⟩

theorem allOfJson_eq_ok_iff {cs : List (String × Predicate)} :
    allOfJson d = .ok cs ↔ ∃ entries, d = .object entries ∧
      List.Forall₂ (fun e c => c.1 = e.1 ∧ StandsFor e.2 c.2) entries cs := by
  cases d with
  | object entries =>
    simp only [allOfJson, mapM_eq_ok_iff, entryOfJson_eq_ok_iff, Json.object.injEq,
      exists_eq_left']
  | null | bool | number | string | array => simp [allOfJson]

theorem exists_allOfJson_eq_ok_iff : (∃ cs, allOfJson d = .ok cs) ↔ d.IsConditions := by
  cases d with
  | object entries =>
    simp only [allOfJson, exists_mapM_eq_ok_iff, exists_entryOfJson_eq_ok_iff,
      Json.IsConditions, Json.object.injEq, exists_eq_left']
  | null | bool | number | string | array => simp [allOfJson, Json.IsConditions]

theorem allOfJson_eq_error_iff :
    allOfJson d = .error e ↔ ∃ message, d.Misstates message ∧ e = .invalidFilter message := by
  cases d with
  | object entries =>
    simp only [allOfJson, mapM_eq_error_iff, exists_entryOfJson_eq_ok_iff, map_eq_error_iff,
      ofJson_eq_error_iff]
    constructor
    · rintro ⟨before, ⟨key, d⟩, after, rfl, hbefore, known, op, operand, rest, rfl, hknown, hop,
        he⟩
      exact ⟨_, .operator hbefore hknown hop, he⟩
    · rintro ⟨message, hm, he⟩
      cases hm with
      | shape h => exact absurd rfl (h entries)
      | operator hbefore hknown hop =>
        exact ⟨_, _, _, rfl, hbefore, _, _, _, _, rfl, hknown, hop, he⟩
  | null | bool | number | string | array =>
    constructor
    · rintro ⟨⟩
      exact ⟨_, .shape (by simp), rfl⟩
    · rintro ⟨message, ⟨h⟩, rfl⟩
      rfl

end Predicate

namespace QueryBuilder

open Query

/-- A predicate's comparisons one by one come to the predicate, whatever step is next. -/
theorem applyAll_comparisons (b : QueryBuilder) (key : String) (p : Predicate)
    (rest : List BuildStep) :
    BuildStep.applyAll b ((p.comparisons.map fun c => .compare key c.1 c.2) ++ rest) =
      BuildStep.applyAll (b.satisfy key p) rest := by
  unfold satisfy
  induction p.comparisons generalizing b with
  | nil => rfl
  | cons c l ih =>
    rw [List.map_cons, List.cons_append, BuildStep.applyAll, BuildStep.apply_compare, List.foldl_cons]
    exact ih (b.addCondition key c.1 c.2)

theorem applyAll_singles (b : QueryBuilder) (cs : List (String × Predicate)) :
    BuildStep.applyAll b (Predicate.singles cs) = .ok (b.whereAll cs) := by
  induction cs generalizing b with
  | nil => rfl
  | cons c cs ih =>
    show BuildStep.applyAll b (_ ++ Predicate.singles cs) = .ok ((b.satisfy c.1 c.2).whereAll cs)
    rw [applyAll_comparisons, ih]

theorem whereAll_append (b : QueryBuilder) (cs cs' : List (String × Predicate)) :
    b.whereAll (cs ++ cs') = (b.whereAll cs).whereAll cs' :=
  List.foldl_append

/-- Conditions may be given one comparison at a time, by the step for its operator, in any portions, or
as a document, with the same result: each comparison is one more condition, with just its operator and
its operand. A document is taken just if it is an object whose nested objects name known operators only,
as the conditions that it states; what is wrong with any other is the error. -/
theorem where_agrees (b : QueryBuilder) :
    (∀ key op v, b.single key op v =
      { b with conditions := b.conditions ++ [⟨Key.ofText key, op, v⟩] }) ∧
    (∀ cs, BuildStep.applyAll b (Predicate.singles cs) = .ok (b.whereAll cs) ∧
      b.whereAll cs = { b with conditions := b.conditions ++ Predicate.conditions cs }) ∧
    (∀ cs cs', b.whereAll (cs ++ cs') = (b.whereAll cs).whereAll cs') ∧
    ∀ d : Json,
      ((∃ b', b.whereJson d = .ok b') ↔ d.IsConditions) ∧
      (∀ b', b.whereJson d = .ok b' ↔ ∃ entries cs, d = .object entries ∧
        List.Forall₂ (fun e c => c.1 = e.1 ∧ Predicate.StandsFor e.2 c.2) entries cs ∧
        b' = b.whereAll cs) ∧
      ∀ e, b.whereJson d = .error e ↔
        ∃ message, d.Misstates message ∧ e = .invalidFilter message := by
  refine ⟨single_eq b, fun cs => ⟨applyAll_singles b cs, whereAll_eq b cs⟩, whereAll_append b,
    fun d => ⟨?_, fun b' => ?_, fun e => ?_⟩⟩
  · rw [← Predicate.exists_allOfJson_eq_ok_iff]
    simp only [whereJson, map_eq_ok_iff]
    constructor
    · rintro ⟨b', cs, hcs, -⟩
      exact ⟨cs, hcs⟩
    · rintro ⟨cs, hcs⟩
      exact ⟨_, cs, hcs, rfl⟩
  · simp only [whereJson, map_eq_ok_iff, Predicate.allOfJson_eq_ok_iff]
    constructor
    · rintro ⟨cs, ⟨entries, hd, hcs⟩, hb⟩
      exact ⟨entries, cs, hd, hcs, hb.symm⟩
    · rintro ⟨entries, cs, hd, hcs, hb⟩
      exact ⟨cs, ⟨entries, hd, hcs⟩, hb.symm⟩
  · rw [whereJson, map_eq_error_iff, Predicate.allOfJson_eq_error_iff]

/-- Nothing of a document is taken when its last entry is wrong. -/
example (b : QueryBuilder) :
    b.whereJson (.object [("age", .object [("gt", .null)]), ("name", .object [("like", .null)])]) =
      .error (.invalidFilter "unknown operator 'like' for 'name'") :=
  rfl

end QueryBuilder
end Relata
