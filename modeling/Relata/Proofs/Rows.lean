import Mathlib.Data.Multiset.Basic
import Mathlib.Data.Multiset.Filter
import Relata.Model
import Relata.Proofs.Dml
import Relata.Proofs.Ending
import Relata.Proofs.Folding

/-!
What statements on rows mean to a database that holds tables by name, each with its columns and its
rows in no order. What the standard leaves to a database (when names are the same, when values are,
how a column stores a value) are its rules; whether it carries a statement out at all is its own affair.
Main statements: where a column tells rows apart, at most one row has a given value in it; and an
assignment changes just the columns that it names.
-/
namespace Relata

/-- A table as a database holds it. -/
structure Content where
  columns : List String
  rows : Multiset Row

/-- What a database decides by itself. -/
structure Rules (γ : Type) where
  /-- Names are the same name if they fold to the same. -/
  fold : String → String
  /-- What a value counts as when it is compared with a column for equality. -/
  value : (table column : String) → Value → Option γ
  holds : (table column : String) → Operator → (cell operand : Value) → Bool
  /-- How a column stores a value that it is set to. -/
  stored : (table column : String) → Value → Value
  holds_eq {t c : String} {x v : Value} :
    holds t c .eq x v = true ↔ ∃ g, value t c x = some g ∧ value t c v = some g

namespace Rules

variable {γ : Type} (ρ : Rules γ)

/-- The table that a name stands for. -/
def table? (store : Keyed Content) (name : String) : Option (String × Content) :=
  store.entries.find? fun e => ρ.fold e.1 = ρ.fold name

/-- The column that a name stands for: the one that is spelled so, or else one of the same name. -/
def column? (columns : List String) (name : String) : Option String :=
  if name ∈ columns then some name else columns.find? fun c => ρ.fold c = ρ.fold name

/-- The cell of a row in column `c` meets a comparison. -/
def meets (t c : String) (op : Operator) (v : Value) (row : Row) : Bool :=
  (row.get? c).any fun x => ρ.holds t c op x v

/-- The row meets all tests of a statement. -/
def picks (t : String) (columns : List String) (tests : List ((String × Operator) × Value))
    (row : Row) : Bool :=
  tests.all fun e => (ρ.column? columns e.1.1).any fun c => ρ.meets t c e.1.2 e.2 row

/-- What an update sets column `c` to; where it is set twice, the last counts. -/
def given (t : String) (columns : List String) (sets : List (String × Value)) (c : String) :
    Option Value :=
  (sets.reverse.find? fun e => ρ.column? columns e.1 = some c).map fun e => ρ.stored t c e.2

/-- The row with what is given, and everything else as it was. -/
def assign (t : String) (columns : List String) (sets : List (String × Value)) (row : Row) : Row :=
  ⟨row.entries.map fun e => (e.1, (ρ.given t columns sets e.1).getD e.2)⟩

/-- The table after an update of the rows that `p` picks. -/
def updated (t : String) (content : Content) (sets : List (String × Value)) (p : Row → Bool) :
    Content :=
  { content with rows := content.rows.map fun r => if p r then ρ.assign t content.columns sets r else r }

/-- What a statement means where it is carried out: the rows that it returns, the count of rows that it
is about, and the tables after it. What the cells of a new row hold, from the parameters or by default,
is left to the database. -/
inductive Means (store : Keyed Content) :
    Dml → (params : List Value) → List Row → Nat → Keyed Content → Prop
  | select {name t : String} {content : Content} {tests : List (String × Operator)}
    {params : List Value} {out : List Row} (ht : ρ.table? store name = some (t, content))
    (hout : (out : Multiset Row) =
      content.rows.filter (ρ.picks t content.columns (tests.zip params) ·)) :
    Means store (.select name tests) params out out.length store
  | insert {name t : String} {content : Content} {columns : List String} {params : List Value}
    {row : Row} (ht : ρ.table? store name = some (t, content)) (hrow : row.keys = content.columns) :
    Means store (.insert name columns) params [row] 1
      (store.insert t { content with rows := row ::ₘ content.rows })
  | update {name t : String} {content : Content} {columns : List String}
    {tests : List (String × Operator)} {params : List Value} {out : List Row} {p : Row → Bool}
    (ht : ρ.table? store name = some (t, content))
    (hp : p = ρ.picks t content.columns (tests.zip (params.drop columns.length)))
    (hout : (out : Multiset Row) =
      (content.rows.filter (p ·)).map (ρ.assign t content.columns (columns.zip params))) :
    Means store (.update name columns tests) params out out.length
      (store.insert t (ρ.updated t content (columns.zip params) p))
  | delete {name t : String} {content : Content} {tests : List (String × Operator)}
    {params : List Value} {p : Row → Bool} (ht : ρ.table? store name = some (t, content))
    (hp : p = ρ.picks t content.columns (tests.zip params)) :
    Means store (.delete name tests) params [] (content.rows.filter (p ·)).card
      (store.insert t { content with rows := content.rows.filter (!p ·) })

end Rules

section Adapter

variable {σ γ : Type} (db : Adapter σ) (ρ : Rules γ) (store : σ → Keyed Content)

/-- Where the compiled query is answered in the state `s`, with rows, the answer and what it leaves are
what the statement means. -/
def Adapter.Fetches (b : QueryBuilder) (s : σ) : Prop :=
  ∀ stmt dml rows u, b.compile = .ok stmt → Dml.ofSql? db.dialect stmt.sql stmt.params = some dml →
    (db.fetch stmt).Ends s (.ok rows) u → ∃ n, ρ.Means (store s) dml stmt.params rows n (store u)

/-- Where the compiled query is run in the state `s`, for a count, that and what it leaves are what the
statement means. -/
def Adapter.Tallies (b : QueryBuilder) (s : σ) : Prop :=
  ∀ stmt dml n u, b.compile = .ok stmt → Dml.ofSql? db.dialect stmt.sql stmt.params = some dml →
    (db.run stmt).Ends s (.ok n) u → ∃ rows, ρ.Means (store s) dml stmt.params rows n (store u)

end Adapter

theorem Keyed.find?_insert {α : Type} {k : Keyed α} {p : String → Bool} {name : String} {x : α}
    (h : k.entries.find? (fun e => p e.1) = some (name, x)) (y : α) :
    (k.insert name y).entries.find? (fun e => p e.1) = some (name, y) := by
  have hp : p name = true := by simpa using List.find?_some h
  unfold insert
  generalize k.entries = l at h
  induction l with
  | nil => cases h
  | cons e l ih =>
    obtain ⟨n, z⟩ := e
    by_cases hn : n = name
    · simp [insertEntry, hn, hp]
    · have hnot : p n = false := by
        by_contra hpn
        rw [List.find?_cons_of_pos (by simpa using hpn)] at h
        exact hn (Prod.mk.inj (Option.some.inj h)).1
      rw [List.find?_cons_of_neg (by simp [hnot])] at h
      simpa [insertEntry, hn, hnot] using ih h

section Unique

variable {α γ : Type} {f : α → Option γ} {m : Multiset α}

/-- Where no value stands twice, one item at most has a given value. -/
theorem card_filter_le_one {p : α → Bool} {g : γ} (hp : ∀ a, p a = true → f a = some g)
    (h : (m.filterMap f).Nodup) : (m.filter (p ·)).card ≤ 1 := by
  by_contra hcard
  have hpicked : ∀ a ∈ m.filter (p ·), f a = some g := fun a ha => hp a (Multiset.mem_filter.mp ha).2
  have hle := Multiset.filterMap_le_filterMap f (Multiset.filter_le (p ·) m)
  obtain ⟨a, ha⟩ := Multiset.card_pos_iff_exists_mem.mp (by omega : 0 < (m.filter (p ·)).card)
  obtain ⟨rest, hrest⟩ := Multiset.exists_cons_of_mem ha
  rw [hrest, Multiset.card_cons] at hcard
  obtain ⟨b, hb⟩ := Multiset.card_pos_iff_exists_mem.mp (by omega : 0 < rest.card)
  obtain ⟨rest', rfl⟩ := Multiset.exists_cons_of_mem hb
  rw [hrest] at hle hpicked
  have hfa : f a = some g := hpicked a (by simp)
  have hfb : f b = some g := hpicked b (by simp)
  rw [Multiset.filterMap_cons_some f a _ hfa, Multiset.filterMap_cons_some f b _ hfb] at hle
  have hnodup := Multiset.nodup_of_le hle h
  simp at hnodup

/-- The only item with a value is the one that is known to have it. -/
theorem filter_eq_singleton {p : α → Bool} {g : γ} (hp : ∀ a, p a = true → f a = some g)
    (h : (m.filterMap f).Nodup) {a : α} (ha : a ∈ m) (hpa : p a = true) :
    m.filter (p ·) = {a} := by
  have hmem : a ∈ m.filter (p ·) := Multiset.mem_filter.mpr ⟨ha, hpa⟩
  obtain ⟨rest, hrest⟩ := Multiset.exists_cons_of_mem hmem
  have hcard := card_filter_le_one hp h
  rw [hrest, Multiset.card_cons] at hcard
  have hempty : rest = 0 := Multiset.card_eq_zero.mp (by omega)
  rw [hrest, hempty]
  rfl

end Unique

theorem Keyed.lookup_map_snd {α β : Type} (f : String → α → β) (l : List (String × α)) (c : String) :
    (l.map fun e => (e.1, f e.1 e.2)).lookup c = (l.lookup c).map (f c) := by
  induction l with
  | nil => rfl
  | cons e l ih =>
    obtain ⟨n, x⟩ := e
    by_cases hc : c = n
    · simp [hc]
    · simp [List.lookup_cons, beq_false_of_ne hc, ih]

namespace Rules

variable {γ : Type} {ρ : Rules γ} {t c key name : String} {columns : List String} {row : Row}
  {v : Value} {sets : List (String × Value)}

theorem column?_of_mem (h : name ∈ columns) : ρ.column? columns name = some name := if_pos h

theorem picks_key (hc : ρ.column? columns key = some c) :
    ρ.picks t columns [((key, .eq), v)] = ρ.meets t c .eq v := by
  funext row
  simp [picks, hc]

theorem meets_eq_iff : ρ.meets t c .eq v row = true ↔
    ∃ g, (row.get? c).bind (ρ.value t c) = some g ∧ ρ.value t c v = some g := by
  unfold meets
  rw [Option.any_eq_true]
  constructor
  · rintro ⟨x, hx, hholds⟩
    obtain ⟨g, hxg, hvg⟩ := ρ.holds_eq.mp hholds
    exact ⟨g, by rw [hx, Option.bind_some, hxg], hvg⟩
  · rintro ⟨g, hg, hvg⟩
    obtain ⟨x, hx, hxg⟩ := Option.bind_eq_some_iff.mp hg
    exact ⟨x, hx, ρ.holds_eq.mpr ⟨g, hxg, hvg⟩⟩

/-- Cells of column `c` that are not null have a value, and no two rows the same. -/
structure TellsApart (ρ : Rules γ) (t c : String) (rows : Multiset Row) : Prop where
  isSome {row : Row} {x : Value} (hrow : row ∈ rows) (hx : row.get? c = some x) (hnull : x ≠ .null) :
    (ρ.value t c x).isSome
  nodup : (rows.filterMap fun row => (row.get? c).bind (ρ.value t c)).Nodup

/-- The column that `key` stands for tells the rows of the table apart. -/
def Unique (ρ : Rules γ) (store : Keyed Content) (name key : String) : Prop :=
  ∀ t content c, ρ.table? store name = some (t, content) →
    ρ.column? content.columns key = some c → ρ.TellsApart t c content.rows

@[simp] theorem keys_assign : (ρ.assign t columns sets row).keys = row.keys := by
  simp [assign, Keyed.keys]

theorem get?_assign : (ρ.assign t columns sets row).get? c =
    (row.get? c).map (ρ.given t columns sets c).getD :=
  Keyed.lookup_map_snd (fun c x => (ρ.given t columns sets c).getD x) row.entries c

/-- Columns that nothing is given for stay as they are. -/
theorem get?_assign_of_not_given (h : ∀ n ∈ sets.map Prod.fst, ρ.column? columns n ≠ some c) :
    (ρ.assign t columns sets row).get? c = row.get? c := by
  have hnone : ρ.given t columns sets c = none := by
    simp only [given, Option.map_eq_none_iff, List.find?_eq_none, List.mem_reverse,
      decide_eq_true_eq]
    exact fun e he => h e.1 (List.mem_map_of_mem he)
  rw [get?_assign, hnone]
  exact Option.map_id'

/-- A column that one value is given for stores that. -/
theorem get?_assign_of_given {e : String × Value} (he : e ∈ sets)
    (hc : ρ.column? columns e.1 = some c) (hone : ∀ e' ∈ sets, ρ.column? columns e'.1 = some c → e' = e)
    (hrow : c ∈ row.keys) :
    (ρ.assign t columns sets row).get? c = some (ρ.stored t c e.2) := by
  obtain ⟨x, hx⟩ := Keyed.mem_keys_iff.mp hrow
  have hgiven : ρ.given t columns sets c = some (ρ.stored t c e.2) := by
    cases hfind : sets.reverse.find? fun e => ρ.column? columns e.1 = some c with
    | none =>
      have hnot := List.find?_eq_none.mp hfind e (List.mem_reverse.mpr he)
      exact absurd (decide_eq_true hc) hnot
    | some e' =>
      have hmem : e' ∈ sets := List.mem_reverse.mp (List.mem_of_find?_eq_some hfind)
      obtain rfl := hone e' hmem (by simpa using List.find?_some hfind)
      unfold given
      rw [hfind, Option.map_some]
  rw [get?_assign, hx, hgiven]
  rfl

end Rules
end Relata
