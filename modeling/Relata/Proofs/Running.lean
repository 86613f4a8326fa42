import Relata.Proofs.Dml
import Relata.Proofs.Drift
import Relata.Proofs.Returning

/-!
Compiled statements that are run for a count. Main statement: over an engine of which only the rules of
running a statement are known, a run leaves what the same statement leaves when its rows are asked for,
but fails wherever there is a row; so a change that finds rows fails and stays.
-/
namespace Relata

def Dml.operation : Dml → Query.Operation
  | .select .. => .select
  | .insert .. => .insert
  | .update .. => .update
  | .delete .. => .delete

/-- The statement returns the rows that it changes. -/
def Dml.returns : Dml → Bool
  | .insert .. | .update .. => true
  | .select .. | .delete .. => false

namespace Sqlite

variable {ε κ : Type} {d : Driver ε} {stored : ε → κ} {changes : ε → Nat} {b : QueryBuilder}
  {stmt : Relata.Statement}

/-- The parameters of a statement as the engine takes them. -/
def cellsOf (stmt : Relata.Statement) : List Cell := stmt.params.map Cell.ofValue

/-- The rules of running the statement on the engine as it stands, where `stored` is what the tables
hold and `changes` counts the rows that the last insertion, update or deletion was about. -/
structure Driver.Counts (d : Driver ε) (stored : ε → κ) (changes : ε → Nat)
    (stmt : Relata.Statement) (e : ε) : Prop where
  /-- What fails when its rows are asked for fails when it is run for a count. -/
  refused {message : String} {left : ε}
    (h : d.query stmt.sql (cellsOf stmt) e = (.error message, left)) :
    ∃ reason left', d.execute stmt.sql (cellsOf stmt) e = (.error reason, left') ∧
      stored left' = stored left
  /-- A row is reported as an error, when all changes are made. -/
  reported {found : ResultSet} {left : ε}
    (h : d.query stmt.sql (cellsOf stmt) e = (.ok found, left)) (hrows : found.rows ≠ []) :
    ∃ reason left', d.execute stmt.sql (cellsOf stmt) e = (.error reason, left') ∧
      stored left' = stored left
  /-- Without a row, the count is that of the last change. -/
  counted {found : ResultSet} {left : ε}
    (h : d.query stmt.sql (cellsOf stmt) e = (.ok found, left)) (hrows : found.rows = []) :
    ∃ left', d.execute stmt.sql (cellsOf stmt) e = (.ok (changes left'), left') ∧
      stored left' = stored left ∧ changes left' = changes left
  /-- A query changes nothing, and is not counted. -/
  selects (hsql : "SELECT ".toList <+: stmt.sql.toList) :
    stored (d.query stmt.sql (cellsOf stmt) e).2 = stored e ∧
      changes (d.query stmt.sql (cellsOf stmt) e).2 = changes e
  /-- An insertion or update into a table, with `RETURNING`, gives a row for each that it counts. -/
  returns {dml : Dml} (hread : Dml.ofSql? .sqlite stmt.sql stmt.params = some dml)
    (hdml : dml.returns = true) {found : ResultSet} {left : ε}
    (h : d.query stmt.sql (cellsOf stmt) e = (.ok found, left)) : found.rows.length = changes left
  /-- A deletion without `RETURNING` gives no row. -/
  silent {table : String} {tests : List (String × Operator)}
    (hread : Dml.ofSql? .sqlite stmt.sql stmt.params = some (.delete table tests))
    {found : ResultSet} {left : ε}
    (h : d.query stmt.sql (cellsOf stmt) e = (.ok found, left)) : found.rows = []

section Compiled

/-- A text that begins as a selection is read as nothing else. -/
theorem select_of_ofSql? {sql : String} {x : List Char} {params : List Value} {dialect : Dialect}
    {dml : Dml} (hsql : sql.toList = "SELECT".toList ++ ' ' :: x)
    (h : Dml.ofSql? dialect sql params = some dml) : ∃ table tests, dml = .select table tests := by
  have hread : Sql.read ("SELECT ".toList ++ x) =
      (Sql.read x).map ([.word "SELECT"] ++ ·) :=
    Sql.read_plain_append rfl (fun _ => rfl) x
  have htext : sql.toList = "SELECT ".toList ++ x := hsql
  obtain ⟨⟨dml', marks⟩, htokens, h⟩ := Option.bind_eq_some_iff.mp h
  obtain ⟨ts, hts, htokens⟩ := Option.bind_eq_some_iff.mp htokens
  rw [htext, hread] at hts
  obtain ⟨rest, -, rfl⟩ := Option.map_eq_some_iff.mp hts
  split at h
  · cases h
    unfold Dml.ofTokens? at htokens
    split at htokens
    next heq => exact absurd (List.cons.inj heq).1 (by decide)
    next =>
      split at htokens
      · obtain ⟨r, -, hr⟩ := Option.map_eq_some_iff.mp htokens
        cases hr
        exact ⟨_, _, rfl⟩
      · cases htokens
    next heq => exact absurd (List.cons.inj heq).1 (by decide)
    next heq => exact absurd (List.cons.inj heq).1 (by decide)
    next => cases htokens
  · cases h

theorem tests_of_filtersOwn (hown : FiltersOwn b) :
    ∃ tests : List ((String × Operator) × Value), b.conditions = tests.map Dml.condition := by
  unfold FiltersOwn at hown
  generalize b.conditions = cs at hown
  induction cs with
  | nil => exact ⟨[], rfl⟩
  | cons c cs ih =>
    obtain ⟨⟨column, hc⟩, hcs⟩ := List.forall_mem_cons.mp hown
    obtain ⟨tests, rfl⟩ := ih hcs
    refine ⟨((column, c.operator), c.operand) :: tests, ?_⟩
    rw [List.map_cons, Dml.condition, ← hc]

/-- What a compiled statement is read as tells its operation. -/
theorem reads_compiled (hc : b.compile = .ok stmt) (hown : b.operation = .insert ∨ FiltersOwn b) :
    match b.operation with
    | .select => ∀ dml, Dml.ofSql? b.dialect stmt.sql stmt.params = some dml →
        ∃ table tests, dml = .select table tests
    | .insert => ∃ table columns,
        Dml.ofSql? b.dialect stmt.sql stmt.params = some (.insert table columns)
    | .update => ∃ table columns tests,
        Dml.ofSql? b.dialect stmt.sql stmt.params = some (.update table columns tests)
    | .delete => ∃ table tests,
        Dml.ofSql? b.dialect stmt.sql stmt.params = some (.delete table tests) := by
  obtain ⟨x, hx⟩ := toList_compiled hc
  cases hcommand : b.command with
  | error e => simp [QueryBuilder.compile, hcommand, Except.map] at hc
  | ok command =>
    obtain rfl : command.statement b.dialect = stmt := by
      simpa [QueryBuilder.compile, hcommand, Except.map] using hc
    unfold QueryBuilder.command at hcommand
    cases hop : b.operation with
    | select =>
      rw [hop] at hx
      exact fun dml hread => select_of_ofSql? hx hread
    | insert =>
      simp only [hop] at hcommand
      cases hcommand
      exact ⟨_, _, Dml.ofSql?_insert b.dialect b.table.name b.record⟩
    | update =>
      obtain ⟨tests, htests⟩ := tests_of_filtersOwn (hown.resolve_left (by simp [hop]))
      simp only [hop] at hcommand
      split at hcommand
      · cases hcommand
      next hempty =>
        cases hcommand
        have hne : b.record.entries ≠ [] := by simpa [Keyed.isEmpty] using hempty
        rw [htests]
        exact ⟨_, _, _, Dml.ofSql?_update b.dialect b.table.name hne tests⟩
    | delete =>
      obtain ⟨tests, htests⟩ := tests_of_filtersOwn (hown.resolve_left (by simp [hop]))
      simp only [hop] at hcommand
      cases hcommand
      rw [htests]
      exact ⟨_, _, Dml.ofSql?_delete b.dialect b.table.name tests⟩

/-- What a compiled statement is read as is of the operation of its builder. -/
theorem operation_of_read (hc : b.compile = .ok stmt)
    (hown : b.operation = .insert ∨ FiltersOwn b) {dml : Dml}
    (hread : Dml.ofSql? b.dialect stmt.sql stmt.params = some dml) : dml.operation = b.operation := by
  have hcompiled := reads_compiled hc hown
  cases hop : b.operation with
  | select =>
    rw [hop] at hcompiled
    obtain ⟨_, _, rfl⟩ := hcompiled dml hread
    rfl
  | insert =>
    rw [hop] at hcompiled
    obtain ⟨_, _, hinsert⟩ := hcompiled
    cases hread.symm.trans hinsert
    rfl
  | update =>
    rw [hop] at hcompiled
    obtain ⟨_, _, _, hupdate⟩ := hcompiled
    cases hread.symm.trans hupdate
    rfl
  | delete =>
    rw [hop] at hcompiled
    obtain ⟨_, _, hdelete⟩ := hcompiled
    cases hread.symm.trans hdelete
    rfl

end Compiled

namespace Link

open Relata.Action

variable {s t : Link ε}

/-- What a run promises of `affected` rows: to count them, or to fail and leave the content as it
was. -/
def Keeps (stored : ε → κ) (affected : Nat) (s t : Link ε) : Except Error Nat → Prop
  | .ok n => n = affected
  | .error _ => content stored t = content stored s

theorem ends_settle {α : Type} (q : Except String α × ε) (s : Link ε) :
    (settle q).Ends s (q.1.mapError errorOf) { s with engine := q.2 } := by
  have hends := ends_run (settle q) s
  obtain ⟨hstate, hanswer⟩ := settle_ends hends
  rwa [hstate, hanswer] at hends

theorem ends_opened (hopen : s.isOpen = true) : opened.Ends s (.ok s.engine) s := by
  rw [opened, ends_get_bind, if_pos hopen]
  exact ends_pure.mpr ⟨rfl, rfl⟩

/-- What cannot be done because there is no database, or not in time, leaves the content alone. -/
theorem ends_unready {α : Type} (stored : ε → κ) {job : Job} {work : ε → Action (Link ε) α}
    (h : ¬(s.isOpen = true ∧ s.isStalled = false)) :
    ∃ e t, (inTime job (opened >>= work)).Ends s (.error e) t ∧ t.engine = s.engine ∧
      content stored t = content stored s := by
  cases hstalled : s.isStalled with
  | true => exact ⟨_, _, inTime_ends.mpr (.inl ⟨hstalled, rfl, rfl⟩), rfl, rfl⟩
  | false =>
    have hclosed : ¬s.isOpen = true := fun hopen => h ⟨hopen, hstalled⟩
    have hopened : opened.Ends s (.error .notConnected) s := by
      rw [opened, ends_get_bind, if_neg hclosed]
      exact ends_fail.mpr ⟨rfl, rfl⟩
    exact ⟨_, s, inTime_ends.mpr (.inr ⟨hstalled, hopened.bind_error⟩), rfl, rfl⟩

section Ready

variable (d) (stmt) (hopen : s.isOpen = true) (hstalled : s.isStalled = false)

include hopen hstalled

theorem ends_fetch : ((adapter d).fetch stmt).Ends s
    (((d.query stmt.sql (cellsOf stmt) s.engine).1.mapError errorOf).map fun found =>
      found.rows.map (rowOf found.columns))
    { s with engine := (d.query stmt.sql (cellsOf stmt) s.engine).2 } := by
  refine ends_log_bind.mpr (inTime_ends.mpr (.inr ⟨hstalled, (ends_opened hopen).bind ?_⟩))
  have hsettle := ends_settle (d.query stmt.sql (cellsOf stmt) s.engine) s
  cases hquery : (d.query stmt.sql (cellsOf stmt) s.engine).1 with
  | error message =>
    rw [hquery] at hsettle
    exact hsettle.bind_error
  | ok found =>
    rw [hquery] at hsettle
    exact hsettle.bind (ends_pure.mpr ⟨rfl, rfl⟩)

theorem ends_execute : ((adapter d).run stmt).Ends s
    ((d.execute stmt.sql (cellsOf stmt) s.engine).1.mapError errorOf)
    { s with engine := (d.execute stmt.sql (cellsOf stmt) s.engine).2 } :=
  ends_log_bind.mpr (inTime_ends.mpr (.inr ⟨hstalled, (ends_opened hopen).bind (ends_settle _ _)⟩))

end Ready

/-- What a fetch answers and leaves, from what the engine does. -/
inductive Fetched (d : Driver ε) (stored : ε → κ) (stmt : Relata.Statement) (s : Link ε) :
    Except Error (List Row) → Link ε → Prop
  | unready (e : Error) {t : Link ε} (engine : t.engine = s.engine)
    (same : content stored t = content stored s) : Fetched d stored stmt s (.error e) t
  | refused (hopen : s.isOpen = true) {message : String} {left : ε}
    (h : d.query stmt.sql (cellsOf stmt) s.engine = (.error message, left)) :
    Fetched d stored stmt s (.error (errorOf message)) { s with engine := left }
  | found (hopen : s.isOpen = true) {found : ResultSet} {left : ε}
    (h : d.query stmt.sql (cellsOf stmt) s.engine = (.ok found, left)) :
    Fetched d stored stmt s (.ok (found.rows.map (rowOf found.columns))) { s with engine := left }

/-- How a run ends beside a fetch of the same statement, which answers `q` and leaves `t`: it leaves
the same content, and answers only where there are no rows. -/
structure Beside (stored : ε → κ) (changes : ε → Nat) (q : Except Error (List Row))
    (t : Link ε) (r : Except Error Nat) (u : Link ε) : Prop where
  same : content stored u = content stored t
  fails (h : q ≠ .ok []) : ∃ e, r = .error e
  counts (h : q = .ok []) : r = .ok (changes u.engine) ∧ changes u.engine = changes t.engine

theorem ends_beside (hrules : s.isOpen = true → d.Counts stored changes stmt s.engine) :
    ∃ q t r u, ((adapter d).fetch stmt).Ends s q t ∧ ((adapter d).run stmt).Ends s r u ∧
      Fetched d stored stmt s q t ∧ Beside stored changes q t r u := by
  by_cases hready : s.isOpen = true ∧ s.isStalled = false
  · obtain ⟨hopen, hstalled⟩ := hready
    have hfetch := ends_fetch d stmt hopen hstalled
    have hrun := ends_execute d stmt hopen hstalled
    have hsame {left left' : ε} (h : stored left' = stored left) :
        content stored { s with engine := left' } = content stored { s with engine := left } := by
      simp [content, h]
    cases hquery : d.query stmt.sql (cellsOf stmt) s.engine with
    | mk answer left =>
      rw [hquery] at hfetch
      refine ⟨_, _, _, _, hfetch, hrun, ?_⟩
      cases answer with
      | error message =>
        obtain ⟨reason, left', hexecute, hleft⟩ := (hrules hopen).refused hquery
        rw [hexecute]
        exact ⟨.refused hopen hquery, hsame hleft, fun _ => ⟨_, rfl⟩, fun h => by cases h⟩
      | ok found =>
        refine ⟨.found hopen hquery, ?_⟩
        by_cases hrows : found.rows = []
        · obtain ⟨left', hexecute, hleft, hchanges⟩ := (hrules hopen).counted hquery hrows
          rw [hexecute]
          refine ⟨hsame hleft, fun h => absurd ?_ h, fun _ => ⟨rfl, hchanges⟩⟩
          simp [Except.mapError, Except.map, hrows]
        · obtain ⟨reason, left', hexecute, hleft⟩ := (hrules hopen).reported hquery hrows
          rw [hexecute]
          refine ⟨hsame hleft, fun _ => ⟨_, rfl⟩, fun h => absurd ?_ hrows⟩
          simpa [Except.mapError, Except.map] using h
  · obtain ⟨e, t, hfetch, hengine, ht⟩ := ends_unready stored hready
    obtain ⟨e', u, hrun, -, hu⟩ := ends_unready stored hready
    refine ⟨_, t, _, u, ends_log_bind.mpr hfetch, ends_log_bind.mpr hrun, .unready e hengine ht, ?_⟩
    exact ⟨hu.trans ht.symm, fun _ => ⟨e', rfl⟩, fun h => by cases h⟩

/-- A run keeps what it promises just if the fetch finds no rows, and the count is that of the rows
affected, or else the fetch changes nothing. -/
theorem Beside.keeps_iff {q : Except Error (List Row)} {r : Except Error Nat} {u : Link ε}
    (h : Beside stored changes q t r u) (affected : Nat) (s : Link ε) :
    Keeps stored affected s u r ↔ (q = .ok [] → changes t.engine = affected) ∧
      (q ≠ .ok [] → content stored t = content stored s) := by
  by_cases hnone : q = .ok []
  · obtain ⟨hr, hchanges⟩ := h.counts hnone
    simp [hr, Keeps, hchanges, hnone]
  · obtain ⟨e, rfl⟩ := h.fails hnone
    simp [Keeps, h.same, hnone]

/-- A query leaves all as it was. -/
theorem Fetched.select {q : Except Error (List Row)} (h : Fetched d stored stmt s q t)
    (hrules : s.isOpen = true → d.Counts stored changes stmt s.engine)
    (hsql : "SELECT ".toList <+: stmt.sql.toList) :
    content stored t = content stored s ∧ changes t.engine = changes s.engine := by
  have hleft (hopen : s.isOpen = true) {answer : Except String ResultSet} {left : ε}
      (hquery : d.query stmt.sql (cellsOf stmt) s.engine = (answer, left)) :
      content stored { s with engine := left } = content stored s ∧ changes left = changes s.engine := by
    obtain ⟨hstored, hchanges⟩ := (hrules hopen).selects hsql
    rw [hquery] at hstored hchanges
    exact ⟨by simp [content, hstored], hchanges⟩
  cases h with
  | unready e engine same => exact ⟨same, congrArg changes engine⟩
  | refused hopen hquery => exact hleft hopen hquery
  | found hopen hquery => exact hleft hopen hquery

/-- A change that returns its rows returns as many as it counts, and any other none. -/
theorem Fetched.change {rows : List Row} (h : Fetched d stored stmt s (.ok rows) t)
    (hrules : s.isOpen = true → d.Counts stored changes stmt s.engine) (hd : b.dialect = .sqlite)
    (hc : b.compile = .ok stmt) (hown : b.operation = .insert ∨ FiltersOwn b)
    (hop : b.operation ≠ .select) :
    if b.operation = .delete then rows = [] else rows.length = changes t.engine := by
  have hread := reads_compiled hc hown
  rw [hd] at hread
  cases h with
  | found hopen hquery =>
    cases hoperation : b.operation with
    | select => exact absurd hoperation hop
    | insert =>
      rw [hoperation] at hread
      obtain ⟨_, _, hread⟩ := hread
      simpa using (hrules hopen).returns hread rfl hquery
    | update =>
      rw [hoperation] at hread
      obtain ⟨_, _, _, hread⟩ := hread
      simpa using (hrules hopen).returns hread rfl hquery
    | delete =>
      rw [hoperation] at hread
      obtain ⟨_, _, hread⟩ := hread
      simpa using (hrules hopen).silent hread hquery

/-- What a compiled statement comes to when it is run for a count, beside what it comes to when its
rows are asked for: it leaves the same content, but fails where there are rows. So a query keeps what
a run promises unless it finds nothing and something was changed before it; and an insertion, update
or deletion keeps it just if it returns no rows or changes nothing. -/
theorem run_beside_fetch (hc : b.compile = .ok stmt)
    (hrules : s.isOpen = true → d.Counts stored changes stmt s.engine) :
    ∃ q t r u, ((adapter d).fetch stmt).Ends s q t ∧ ((adapter d).run stmt).Ends s r u ∧
      Beside stored changes q t r u ∧
      (b.operation = .select → content stored t = content stored s ∧
        (Keeps stored 0 s u r ↔ (q = .ok [] → changes s.engine = 0))) ∧
      (b.operation ≠ .select → b.dialect = .sqlite → b.operation = .insert ∨ FiltersOwn b →
        (∀ rows, q = .ok rows →
          if b.operation = .delete then rows = [] else rows.length = changes t.engine) ∧
        (Keeps stored (changes t.engine) s u r ↔
          q = .ok [] ∨ content stored t = content stored s)) := by
  obtain ⟨q, t, r, u, hfetch, hrun, hfetched, hbeside⟩ := ends_beside hrules
  refine ⟨q, t, r, u, hfetch, hrun, hbeside, fun hop => ?_, fun hop hd hown => ⟨?_, ?_⟩⟩
  · obtain ⟨x, hx⟩ := toList_compiled hc
    rw [hop] at hx
    obtain ⟨hsame, hchanges⟩ := hfetched.select hrules ⟨x, hx.symm⟩
    exact ⟨hsame, by simp [hbeside.keeps_iff, hsame, hchanges]⟩
  · rintro rows rfl
    exact hfetched.change hrules hd hc hown hop
  · rw [hbeside.keeps_iff]
    by_cases hnone : q = .ok []
    · simp [hnone]
    · simp [hnone]

end Link

namespace Engine

variable {e : Engine}

theorem query_ok {sql : String} {params : List Cell} {found : ResultSet} {left : Engine}
    (h : driver.query sql params e = (.ok found, left)) : e.run sql params = (.ok found, left) := by
  cases hrun : e.run sql params with
  | mk answer left' =>
    have htold : told (e.run sql params) = (.ok found, left) := h
    rw [hrun] at htold
    cases answer with
    | error f => cases htold
    | ok found' =>
      cases htold
      rfl

/-- What is run is a plan, with as many parameters as it takes. -/
theorem run_ok {sql : String} {params : List Cell} {found : ResultSet} {left : Engine}
    (h : e.run sql params = (.ok found, left)) :
    ∃ p wanted, Plan.ofText e.content sql = .ok (p, wanted) ∧
      e.runPlan params p = (.ok found, left) := by
  unfold run at h
  split at h
  · cases h
  next p wanted hplan =>
    split at h
    · exact ⟨p, wanted, hplan, h⟩
    · cases h

theorem run_select {sql : String} {params : List Cell}
    (h : ∀ p wanted, Plan.ofText e.content sql = .ok (p, wanted) → ∃ q, p = .query q) :
    (e.run sql params).2 = e := by
  unfold run
  split
  · rfl
  next p wanted hplan =>
    obtain ⟨q, rfl⟩ := h p wanted hplan
    split <;> rfl

theorem runPlan_change {ch : Change} {params : List Cell} {found : ResultSet} {left : Engine}
    (h : e.runPlan params (.change ch) = (.ok found, left)) :
    found.rows.length = if ch.returning.isEmpty then 0 else left.changes := by
  obtain ⟨hanswer, rfl⟩ := Prod.mk.inj h
  exact Change.tells_run e.content params ch found hanswer

/-- What a compiled change returns, it returns for each row that it counts. -/
theorem length_rows (hc : b.compile = .ok stmt) (hd : b.dialect = .sqlite)
    (hown : b.operation = .insert ∨ FiltersOwn b) (hcolumns : Plan.HasColumns e.content)
    (hop : b.operation ≠ .select) {found : ResultSet} {left : Engine}
    (h : driver.query stmt.sql (cellsOf stmt) e = (.ok found, left)) :
    found.rows.length = if b.operation = .delete then 0 else left.changes := by
  obtain ⟨p, wanted, hplan, hrun⟩ := run_ok (query_ok h)
  cases hoperation : b.operation with
  | select => exact absurd hoperation hop
  | insert =>
    obtain ⟨ch, hreturning, rfl⟩ := Plan.ofText_insert hcolumns hd hoperation hc hplan
    simpa [hreturning] using runPlan_change hrun
  | update =>
    obtain ⟨ch, hreturning, rfl⟩ := Plan.ofText_update hcolumns hd hoperation
      (hown.resolve_left (by simp [hoperation])) hc hplan
    simpa [hreturning] using runPlan_change hrun
  | delete =>
    obtain ⟨ch, hreturning, rfl⟩ :=
      Plan.ofText_delete hd hoperation (hown.resolve_left (by simp [hoperation])) hc hplan
    simpa [hreturning] using runPlan_change hrun

/-- The engine of databases in memory has the rules of running compiled statements, as long as each
table has a column. -/
theorem driver_counts (hc : b.compile = .ok stmt) (hd : b.dialect = .sqlite)
    (hown : b.operation = .insert ∨ FiltersOwn b) (hcolumns : Plan.HasColumns e.content) :
    driver.Counts Engine.content Engine.changes stmt e where
  refused {message left} h := by
    cases hrun : e.run stmt.sql (cellsOf stmt) with
    | mk answer left' =>
      have htold : told (e.run stmt.sql (cellsOf stmt)) = (.error message, left) := h
      rw [hrun] at htold
      cases answer with
      | error f =>
        cases htold
        exact ⟨f.message, left', by simp [driver, execute, hrun, told, Except.mapError], rfl⟩
      | ok found => cases htold
  reported {found left} h hrows := by
    have hrun := query_ok h
    exact ⟨Fault.rowsReturned.message, left,
      by simp [driver, execute, hrun, hrows, told, Except.mapError], rfl⟩
  counted {found left} h hrows := by
    have hrun := query_ok h
    exact ⟨left, by simp [driver, execute, hrun, hrows, told, Except.mapError], rfl, rfl⟩
  selects hsql := by
    obtain ⟨x, hx⟩ := hsql
    have hsame : (driver.query stmt.sql (cellsOf stmt) e).2 = e :=
      run_select fun p wanted hplan => Plan.ofText_select hx.symm hplan
    rw [hsame]
    exact ⟨rfl, rfl⟩
  returns {dml} hread hdml {found left} h := by
    have hop := operation_of_read hc hown (hd.symm ▸ hread)
    cases dml with
    | select | delete => cases hdml
    | insert | update =>
      have hlength := length_rows hc hd hown hcolumns (by simp [← hop, Dml.operation]) h
      simpa [← hop, Dml.operation] using hlength
  silent {table tests} hread {found left} h := by
    have hop := operation_of_read hc hown (hd.symm ▸ hread)
    have hlength := length_rows hc hd hown hcolumns (by simp [← hop, Dml.operation]) h
    simpa [← hop, Dml.operation] using hlength

end Engine

namespace Connection

/-- A table of notes with one note, outside a transaction. -/
def noted : Connection := Link.reached Engine.driver .empty [
  .use (.connect ":memory:") false, .use (.execute "CREATE TABLE notes (id INTEGER PRIMARY KEY)") false,
  .use (.execute "INSERT INTO notes (id) VALUES (1)") false]

def notes : QueryBuilder := .ofTable (.ofName "notes") .sqlite

/-- A deletion has no rows, and is counted. -/
theorem run_beside_fetch_deletion :
    notes.delete.compile = .ok ⟨"DELETE FROM \"notes\"", []⟩ ∧
      Engine.driver.Counts Engine.content Engine.changes ⟨"DELETE FROM \"notes\"", []⟩ noted.engine ∧
      ∃ t, (adapter.run ⟨"DELETE FROM \"notes\"", []⟩).Ends noted (.ok 1) t := by
  have hcompile : notes.delete.compile = .ok ⟨"DELETE FROM \"notes\"", []⟩ := rfl
  have hop : notes.delete.operation = .delete := rfl
  have hown : FiltersOwn notes.delete := fun c hc => absurd hc List.not_mem_nil
  have hcolumns : Plan.HasColumns noted.engine.content := by decide +kernel
  have hrules := Engine.driver_counts hcompile rfl (.inr hown) hcolumns
  have hanswers : (adapter.fetch ⟨"DELETE FROM \"notes\"", []⟩ noted).answer.toOption.isSome := by
    decide +kernel
  have hcount : (adapter.fetch ⟨"DELETE FROM \"notes\"", []⟩ noted).state.engine.changes = 1 := by
    decide +kernel
  generalize noted = s at hrules hanswers hcount ⊢
  obtain ⟨q, t, r, u, hfetch, hrun, hbeside, -, hchange⟩ :=
    Link.run_beside_fetch (s := s) hcompile fun _ => hrules
  rw [show (adapter.fetch ⟨"DELETE FROM \"notes\"", []⟩ s).state = t from hfetch.2] at hcount
  rw [show (adapter.fetch ⟨"DELETE FROM \"notes\"", []⟩ s).answer = q from hfetch.1] at hanswers
  obtain ⟨hrows, -⟩ := hchange (by simp [hop]) rfl (.inr hown)
  refine ⟨hcompile, hrules, u, ?_⟩
  cases q with
  | error e => cases hanswers
  | ok rows =>
    have hsilent := hrows rows rfl
    rw [if_pos hop] at hsilent
    subst hsilent
    obtain ⟨rfl, hsame⟩ := hbeside.counts rfl
    rw [hsame, hcount] at hrun
    exact hrun

/-- An insertion fails, and its row is there all the same. -/
theorem run_leaves_insertion :
    (notes.insert (.ofList [("id", .long 2)])).compile =
        .ok ⟨"INSERT INTO \"notes\" (\"id\") VALUES (?) RETURNING *", [.long 2]⟩ ∧
      Link.isInside isSaved noted = false ∧
      ∃ e t, (adapter.run ⟨"INSERT INTO \"notes\" (\"id\") VALUES (?) RETURNING *", [.long 2]⟩).Ends
          noted (.error e) t ∧
        t.content Engine.content ≠ noted.content Engine.content := by
  refine ⟨rfl, by decide +kernel, errorOf Fault.rowsReturned.message, _, ⟨?_, rfl⟩, ?_⟩
  · decide +kernel
  · decide +kernel

end Connection

end Sqlite
end Relata
