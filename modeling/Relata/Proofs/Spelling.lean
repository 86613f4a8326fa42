import Relata.Proofs.Relations
import Relata.Proofs.Stuck

/-!
The spelling of columns. A synchronisation compares the names of columns whatever the case of their
letters, while statements quote them as they are declared, and a quoted name stands for that spelling
only. Main statement: after a synchronisation each declared column is there in its own spelling unless
the table had it before in other spellings only, and just so far do the names of later statements
stand for something.
-/
namespace Relata

open Sql

namespace Catalog

open Migration

variable {db : Adapter Catalog} {fits : Catalog → Ddl → Bool} {c₀ c : Catalog} {t : Table}
  {name : String}

/-- The quoted names stand for a column: both are spelled as in the catalog. -/
def Resolves (c : Catalog) (table column : String) : Prop :=
  ∃ live, c.get? table = some live ∧ column ∈ live

/-- The table is there, and has the column in other spellings only. -/
def Respelled (c : Catalog) (t : Table) (name : String) : Prop :=
  ∃ live, c.get? t.name = some live ∧ name ∉ live ∧ ∃ m ∈ live, Text.lower m = Text.lower name

theorem mem_missingColumns {live : List String} (hn : name ∈ t.columnNames) :
    name ∈ (missingColumns t (live.map Text.lower)).map Prod.fst ↔
      ¬ ∃ m ∈ live, Text.lower m = Text.lower name := by
  constructor
  · intro hmem
    obtain ⟨e, he, rfl⟩ := List.mem_map.mp hmem
    have hnew := (List.mem_filter.mp he).2
    simpa using hnew
  · intro hnew
    obtain ⟨e, he, rfl⟩ := List.mem_map.mp hn
    apply List.mem_map_of_mem
    apply List.mem_filter.mpr
    exact ⟨he, by simpa using hnew⟩

/-- Bringing a table up to date leaves a declared column out just if it is there in other
spellings. -/
theorem mem_columnsAfter_iff (hn : name ∈ t.columnNames) :
    name ∈ c.columnsAfter t ↔ ¬ c.Respelled t name := by
  unfold columnsAfter Respelled missing
  rw [List.mem_append]
  cases hlive : c.get? t.name with
  | none =>
    have hall : name ∈ t.columns.entries.map Prod.fst := hn
    simp [hall]
  | some live =>
    rw [mem_missingColumns hn]
    constructor
    · rintro hmem ⟨live', heq, hnot, hother⟩
      obtain rfl := Option.some.inj heq
      rcases hmem with hmem | hnew
      · exact hnot hmem
      · exact hnew hother
    · intro hspelled
      by_cases hmem : name ∈ live
      · exact .inl hmem
      · refine .inr fun hother => hspelled ?_
        exact ⟨live, rfl, hmem, hother⟩

/-- Whatever statements the database refuses, a success has brought every table up to date. -/
theorem columns_of_sync (h : Meets db fits) {registered : List Table} {report : SyncReport}
    (hsync : (sync db (.ofList registered)).Ends c₀ (.ok report) c)
    (ht : t ∈ (Schema.ofList registered).toList) : c.get? t.name = some (c₀.columnsAfter t) := by
  have hexcuse : Excuses fits c₀ (Schema.ofList registered).toList True := by
    intro _ _ _ _ _ _ _
    trivial
  rcases sync_refused_or_settles h (Schema.nodup_names registered) hexcuse with
    ⟨-, e, c', -, hrefused⟩ | ⟨r, c', hends, pending, hreached, -, hanswer⟩
  · obtain ⟨hr, -⟩ := hsync.unique hrefused
    cases hr
  · obtain ⟨rfl, rfl⟩ := hsync.unique hends
    rcases hanswer with ⟨rfl, -⟩ | ⟨-, hr⟩
    · exact hreached.done t ht List.not_mem_nil
    · cases hr

end Catalog

namespace BuildStep

/-- The columns that a step gives values for, compares or orders by. -/
def columns : BuildStep → List String
  | .insert record | .update record => record.map Prod.fst
  | s => s.keys

end BuildStep

namespace QueryBuilder

variable {A : String → Prop} {d : Dialect} {b b' : QueryBuilder} {s : BuildStep}
  {steps : List BuildStep}

/-- The chain without what only matters to loaded relations. -/
def plain (b : QueryBuilder) : QueryBuilder :=
  { b with table := { b.table with relations := .empty }, schema := none }

/-- A chain that loads nothing names the columns of its steps and nothing of the relations. -/
theorem apply_plain_within (h : b.plain.Within A d) (hs : s.IsBare) (hl : s.loaded? = none)
    (hn : ∀ n ∈ s.columns, A n) (he : s.apply b = .ok b') : b'.plain.Within A d := by
  cases s with
  | load name => cases hl
  | schema s' =>
    cases he
    exact h
  | whereAll cs =>
    cases he
    have hplain : (b.plain.whereAll cs).Within A d := apply_within h hs hn rfl
    rw [whereAll_eq] at hplain ⊢
    exact hplain
  | whereJson doc =>
    simp only [BuildStep.apply, whereJson] at he
    cases hc : Predicate.allOfJson doc with
    | error e => simp [hc, Except.map] at he
    | ok cs =>
      simp only [hc, Except.map, Except.ok.injEq] at he
      have happly : (BuildStep.whereJson doc).apply b.plain = .ok (b.plain.whereAll cs) := by
        simp [BuildStep.apply, whereJson, hc, Except.map]
      have hplain := apply_within h hs hn happly
      rw [whereAll_eq] at hplain
      rw [← he, whereAll_eq]
      exact hplain
  | compare key operator operand =>
    rw [BuildStep.apply_compare] at he
    cases he
    exact apply_within h hs hn (BuildStep.apply_compare ..)
  | select | insert | update | delete | orderBy | limit | offset =>
    cases he
    exact apply_within h hs hn rfl

theorem applyAll_plain_within (h : b.plain.Within A d)
    (hs : ∀ s ∈ steps, s.IsBare ∧ s.loaded? = none) (hn : ∀ n ∈ steps.flatMap BuildStep.columns, A n)
    (he : BuildStep.applyAll b steps = .ok b') : b'.plain.Within A d := by
  induction steps generalizing b with
  | nil =>
    cases he
    exact h
  | cons s steps ih =>
    obtain ⟨⟨hbare, hl⟩, hrest⟩ := List.forall_mem_cons.mp hs
    rw [List.flatMap_cons, List.forall_mem_append] at hn
    unfold BuildStep.applyAll at he
    cases hstep : s.apply b with
    | error e => simp [hstep] at he
    | ok b₁ =>
      rw [hstep] at he
      exact ih (apply_plain_within h hbare hl hn.1 hstep) hrest hn.2 he

/-- The names in the statement of a chain that loads nothing: its table and the columns of its
steps. -/
theorem scan_plain_chain {t : Table} {stmt : Statement} (ht : A t.name) (hc : ∀ n ∈ t.columnNames, A n)
    (hs : ∀ s ∈ steps, s.IsBare ∧ s.loaded? = none) (hn : ∀ n ∈ steps.flatMap BuildStep.columns, A n)
    (hb : BuildStep.applyAll (ofTable t d) steps = .ok b) (hstmt : b.compile = .ok stmt) :
    ∃ ls, scan stmt.sql.toList = some ls ∧ ∀ n ∈ ls.filterMap Lexeme.name?, A n := by
  have hstart : (ofTable t d).plain.Within A d := by
    apply ofTable_within (t := { t with relations := .empty })
    intro n hmem
    have hcase : n = t.name ∨ n ∈ t.columnNames := by simpa [Table.names, Table.columnNames] using hmem
    rcases hcase with rfl | hcolumn
    · exact ht
    · exact hc n hcolumn
  have hwithin := applyAll_plain_within hstart hs hn hb
  cases hcommand : b.command with
  | error e => simp [compile, hcommand, Except.map] at hstmt
  | ok command =>
    obtain ⟨hclosed, hnames⟩ := command_confined (b := b.plain) hwithin hcommand
    have hdialect : b.dialect = d := hwithin.dialect
    have hsql : command.statement d = stmt := by
      simpa [compile, hcommand, Except.map, hdialect] using hstmt
    refine ⟨lexemes d 0 (command.pieces d), ?_, ?_⟩
    · rw [← hsql, Query.Command.statement, Sql.statement, String.toList_ofList, scan_render d hclosed]
    · rwa [filterMap_name_lexemes d hclosed]

end QueryBuilder

namespace Catalog

open Migration

variable {db : Adapter Catalog} {fits : Catalog → Ddl → Bool} {c₀ c : Catalog} {t : Table}

/-- A success leaves each declared column in some spelling; in its own spelling just if the table was
new, had it so before, or did not have it in any spelling. Every name in a statement that a chain then
makes of the table and its columns is that of the table or of a declared column, and stands for
something so far. -/
theorem sync_spells (h : Meets db fits) {registered : List Table} {report : SyncReport}
    (hsync : (sync db (.ofList registered)).Ends c₀ (.ok report) c)
    (ht : t ∈ (Schema.ofList registered).toList) :
    c.contains t.name = true ∧
    (∀ n ∈ t.columnNames, (∃ m, c.Resolves t.name m ∧ Text.lower m = Text.lower n) ∧
      (c.Resolves t.name n ↔ ¬ c₀.Respelled t n)) ∧
    ∀ (d : Dialect) (steps : List BuildStep) (b : QueryBuilder) (stmt : Statement),
      (∀ s ∈ steps, s.IsBare ∧ s.loaded? = none) →
      (∀ n ∈ steps.flatMap BuildStep.columns, n ∈ t.columnNames) →
      BuildStep.applyAll (.ofTable t d) steps = .ok b → b.compile = .ok stmt →
      ∃ ls, scan stmt.sql.toList = some ls ∧ ∀ n ∈ ls.filterMap Lexeme.name?,
        n = t.name ∨ n ∈ t.columnNames ∧ (c.Resolves t.name n ↔ ¬ c₀.Respelled t n) := by
  have hlive := columns_of_sync h hsync ht
  have hresolves (n : String) : c.Resolves t.name n ↔ n ∈ c₀.columnsAfter t := by
    simp [Resolves, hlive]
  have hspelled {n : String} (hn : n ∈ t.columnNames) :
      c.Resolves t.name n ↔ ¬ c₀.Respelled t n := by
    rw [hresolves, mem_columnsAfter_iff hn]
  refine ⟨contains_iff.mpr ⟨_, hlive⟩, ?_, ?_⟩
  · intro n hn
    obtain ⟨m, hm, hlower⟩ := mem_columnsAfter (c := c₀) hn
    exact ⟨⟨m, (hresolves m).mpr hm, hlower⟩, hspelled hn⟩
  · intro d steps b stmt hs hn hb hstmt
    refine QueryBuilder.scan_plain_chain (.inl rfl) ?_ hs ?_ hb hstmt
    · intro n hcolumn
      exact .inr ⟨hcolumn, hspelled hcolumn⟩
    · intro n hmem
      exact .inr ⟨hn n hmem, hspelled (hn n hmem)⟩

/-- A column that is there in upper case stays so, and its declared name stands for nothing. -/
theorem sync_leaves_spelling :
    let users := (Table.ofName "users").column "id" (Column.ofType .integer)
    let schema := Schema.ofList [users]
    let c₀ : Catalog := .ofList [("users", ["ID"])]
    Keeps (strict .postgres) ∧
      ∃ report c, (sync (strict .postgres) schema).Ends c₀ (.ok report) c ∧
        users ∈ schema.toList ∧ "id" ∈ users.columnNames ∧ ¬ c.Resolves users.name "id" := by
  intro users schema c₀
  have hrun : (sync (strict .postgres) schema c₀).answer.toOption = some ⟨1, [], []⟩ := by
    decide +kernel
  have hstate : (sync (strict .postgres) schema c₀).state = c₀ := by decide +kernel
  have hmem : users ∈ schema.toList := by decide
  obtain ⟨report, hanswer⟩ : ∃ report, (sync (strict .postgres) schema c₀).answer = .ok report := by
    cases hanswer : (sync (strict .postgres) schema c₀).answer with
    | error e =>
      rw [hanswer] at hrun
      cases hrun
    | ok report => exact ⟨report, rfl⟩
  refine ⟨strict_keeps .postgres, report, c₀, ⟨hanswer, hstate⟩, hmem, by decide, ?_⟩
  rintro ⟨live, hlive, hid⟩
  have hupper : live = ["ID"] := (Option.some.inj hlive).symm
  subst hupper
  exact absurd hid (by decide)

/-- Beside the column in upper case, a missing one is added as it is spelled. -/
theorem sync_spells_added :
    let users := ((Table.ofName "users").column "id" (Column.ofType .integer)).column "Name"
      (Column.ofType .text)
    let schema := Schema.ofList [users]
    let c₀ : Catalog := .ofList [("users", ["ID"])]
    ∃ c, (sync (strict .postgres) schema).Ends c₀ (.ok ⟨1, [], [("users", "Name")]⟩) c ∧
      ¬ c.Resolves users.name "id" ∧ c.Resolves users.name "Name" := by
  intro users schema c₀
  have hrun : (sync (strict .postgres) schema c₀).answer.toOption =
      some ⟨1, [], [("users", "Name")]⟩ := by decide +kernel
  have hmem : users ∈ schema.toList := by decide
  have hid : c₀.Respelled users "id" := ⟨["ID"], by decide, by decide, "ID", by decide, by decide⟩
  have hname : ¬ c₀.Respelled users "Name" := by
    rintro ⟨live, hlive, -, m, hm, hlower⟩
    obtain rfl : live = ["ID"] := (Option.some.inj hlive).symm
    obtain rfl := List.mem_singleton.mp hm
    revert hlower
    decide
  cases hanswer : (sync (strict .postgres) schema c₀).answer with
  | error e =>
    rw [hanswer] at hrun
    cases hrun
  | ok report =>
    rw [hanswer] at hrun
    obtain rfl := Option.some.inj hrun
    obtain ⟨-, hcolumns, -⟩ := sync_spells (strict_keeps .postgres).meets ⟨hanswer, rfl⟩ hmem
    refine ⟨_, ⟨hanswer, rfl⟩, ?_, ?_⟩
    · rw [(hcolumns "id" (by decide)).2]
      exact fun hnot => hnot hid
    · exact ((hcolumns "Name" (by decide)).2).mpr hname

end Catalog
end Relata
