import Relata.Proofs.Rows
import Relata.Proofs.Running

/-!
What the engine holds as tables by their names, with the rules that it goes by. Main statements: the
engine finds a table where its name stands for one; and what a connection answers means what the engine
did, whatever the engine.
-/
namespace Relata.Sqlite

/-! The tables. -/

/-- The table without the numbers of its rows. -/
def TableContent.plain (t : TableContent) : Relata.Content :=
  let columns := t.shape.columns.map TableColumn.name
  ⟨columns, t.rows.map fun r => Link.rowOf columns r.cells⟩

def Content.byName (c : Content) : Keyed Relata.Content :=
  ⟨c.tables.map fun t => (t.shape.name, t.plain)⟩

/-! The rules. -/

/-- What an operand is when a column of the affinity is compared with it. -/
def Affinity.operand (a : Affinity) (c : Cell) : Cell :=
  if a = .text then Affinity.text.apply c else ((Coercion.ofSides (some a) none).apply c c).1

/-- Numbers that are equal count as the same cell, an integer if there is one; null counts as none. -/
def Cell.counted? : Cell → Option Cell
  | .null => none
  | .real x =>
    let n := Int64.ofInt (x.meaning.truncate Int64.minValue.toInt Int64.maxValue.toInt)
    some (if Cell.order (.integer n) (.real x) = .eq then .integer n else .real x)
  | c => some c

namespace Content

variable (c : Content)

/-- The affinity of a column; none is known of a column that is not there. -/
def affinity (table column : String) : Affinity :=
  ((c.table? table).bind fun t => (t.shape.index? column).bind fun i =>
    t.shape.columns[i]?.map TableColumn.affinity).getD .blob

def value (table column : String) (v : Value) : Option Cell :=
  ((c.affinity table column).operand (.ofValue v)).counted?

/-- Two cells as the column brings them together, compared. -/
def compares (table column : String) (op : BinaryOp) (x v : Value) : Bool :=
  let sides := (Coercion.ofSides (some (c.affinity table column)) none).apply (.ofValue x) (.ofValue v)
  (Term.compareCells op sides.1 sides.2).truth? = some true

def holds (table column : String) (op : Operator) (x v : Value) : Bool :=
  match op with
  | .eq => (c.value table column x).any fun g => c.value table column v = some g
  | .gt => c.compares table column .gt x v
  | .lt => c.compares table column .lt x v
  | .gte => c.compares table column .ge x v
  | .lte => c.compares table column .le x v
  | .contains => (Term.likeCells (.ofValue x) (.ofValue v)).truth? = some true

/-- The rules of the engine on tables with the columns of `c`. -/
def rules : Rules Cell where
  fold := Text.lowerAscii
  value := c.value
  holds := c.holds
  stored table column v := ((c.affinity table column).apply (.ofValue v)).toValue
  holds_eq := by simp [holds, Option.any_eq_true]

/-- A name stands for the table that the engine finds by it. -/
theorem table?_byName (held : Content) (name : String) :
    c.rules.table? held.byName name = (held.table? name).map fun t => (t.shape.name, t.plain) := by
  unfold Rules.table? byName Content.table?
  rw [List.find?_map]
  congr 2

end Content

namespace Link

open Relata.Action

variable {ε γ : Type} {d : Driver ε} {ρ : Rules γ} (view : ε → Keyed Relata.Content)
  {b : QueryBuilder} {stmt : Relata.Statement} {dml : Dml} {s : Link ε}

/-- A connection answers a query with what it means, if the engine does. -/
theorem fetches (hb : b.compile = .ok stmt)
    (hread : Dml.ofSql? .sqlite stmt.sql stmt.params = some dml)
    (h : ∀ found left, d.query stmt.sql (cellsOf stmt) s.engine = (.ok found, left) →
      ∃ n, ρ.Means (view s.engine) dml stmt.params (found.rows.map (rowOf found.columns)) n
        (view left)) :
    (adapter d).Fetches ρ (fun s => view s.engine) b s := by
  intro stmt' dml' rows u hb' hread' he
  cases hb.symm.trans hb'
  cases hread.symm.trans hread'
  by_cases hready : s.isOpen = true ∧ s.isStalled = false
  · obtain ⟨hanswer, hleft⟩ := he.unique (ends_fetch d stmt hready.1 hready.2)
    cases hquery : d.query stmt.sql (cellsOf stmt) s.engine with
    | mk answer left =>
      rw [hquery] at hanswer hleft
      cases answer with
      | error message => cases hanswer
      | ok found =>
        cases hanswer
        rw [hleft]
        exact h found left hquery
  · obtain ⟨e, t, hfails, -, -⟩ := ends_unready view hready
    cases (he.unique (ends_log_bind.mpr hfails)).1

theorem tallies (hb : b.compile = .ok stmt)
    (hread : Dml.ofSql? .sqlite stmt.sql stmt.params = some dml)
    (h : ∀ n left, d.execute stmt.sql (cellsOf stmt) s.engine = (.ok n, left) →
      ∃ rows, ρ.Means (view s.engine) dml stmt.params rows n (view left)) :
    (adapter d).Tallies ρ (fun s => view s.engine) b s := by
  intro stmt' dml' n u hb' hread' he
  cases hb.symm.trans hb'
  cases hread.symm.trans hread'
  by_cases hready : s.isOpen = true ∧ s.isStalled = false
  · obtain ⟨hanswer, hleft⟩ := he.unique (ends_execute d stmt hready.1 hready.2)
    cases hexecute : d.execute stmt.sql (cellsOf stmt) s.engine with
    | mk answer left =>
      rw [hexecute] at hanswer hleft
      cases answer with
      | error message => cases hanswer
      | ok count =>
        cases hanswer
        rw [hleft]
        exact h _ left hexecute
  · obtain ⟨e, t, hfails, -, -⟩ := ends_unready view hready
    cases (he.unique (ends_log_bind.mpr hfails)).1

end Link
end Relata.Sqlite
