import Relata.Migration
import Relata.Proofs.Ddl
import Relata.Proofs.Ending

/-!
Databases that keep a catalog: the tables that are there, with the names of their columns. Main
statements: against such a database, a table whose references are there is brought up to date, as far
as its statements fit, and no other table changes; a table that misses a reference is refused and
nothing changes.
-/
namespace Relata

/-- The tables of a database, each with the names of its columns. -/
abbrev Catalog := Keyed (List String)

namespace Ddl

/-- The statement as a synchronisation sends it, with its text in the dialect. -/
inductive IsSent (d : Dialect) : Ddl → String → Prop
  | create (t : Table) :
    IsSent d (.create t.name t.columnNames (t.references.map Prod.snd)) (t.createSql d)
  | addColumn (t : Table) (name : String) (c : Column) :
    IsSent d (.addColumn t.name name c.reference) (Sql.textOf (t.addColumnPieces d name c))

theorem IsSent.read {d : Dialect} {sql : String} {ddl : Ddl} (h : IsSent d ddl sql) :
    ofSql? sql = some ddl := by
  cases h with
  | create t => exact t.ofSql?_createSql d
  | addColumn t name c => exact t.ofSql?_addColumn d name c

/-- The statement refers to nothing that is missing. -/
def admits (c : Catalog) : Ddl → Bool
  | .create t _ refs => refs.all fun r => r.table == t || c.contains r.table
  | .addColumn t _ ref => c.contains t && ref.all fun r => r.table == t || c.contains r.table

def apply (c : Catalog) : Ddl → Catalog
  | .create t columns _ => if c.contains t then c else c.insert t columns
  | .addColumn t column _ =>
    match c.get? t with
    | some columns => c.insert t (columns ++ [column])
    | none => c

end Ddl

namespace Catalog

open Migration

/-- The declared columns of a table that are not there, whatever the case of letters. -/
def missing (c : Catalog) (t : Table) : List (String × Column) :=
  match c.get? t.name with
  | some live => missingColumns t (live.map Text.lower)
  | none => t.columns.entries

/-- The other tables that the missing columns refer to. -/
def needs (c : Catalog) (t : Table) : List String :=
  ((c.missing t).filterMap fun e => e.2.reference.map Reference.table).filter (· ≠ t.name)

/-- The columns of a table that has been brought up to date. -/
def columnsAfter (c : Catalog) (t : Table) : List String :=
  (c.get? t.name).getD [] ++ (c.missing t).map Prod.fst

def columnName? (row : Row) : Option String := (row.get? "column_name").bind Value.toStr?

/-- The catalog queries are answered from the catalog. -/
structure Answers (db : Adapter Catalog) : Prop where
  tables (c : Catalog) (name : String) : ∃ rows,
    (db.queryWith db.dialect.tableExistsQuery [.string name]).Ends c (.ok rows) c ∧
      rows.isEmpty = !c.contains name
  columns {c : Catalog} {name : String} {live : List String} (h : c.get? name = some live) : ∃ rows,
    (db.queryWith db.dialect.columnsQuery [.string name]).Ends c (.ok rows) c ∧
      rows.filterMap columnName? = live

/-- The state of the database is its catalog: the catalog queries are answered from it, and a
statement that refers to nothing missing changes it as it says. What becomes of other statements is
left open. -/
structure Keeps (db : Adapter Catalog) : Prop extends Answers db where
  execute {c : Catalog} {sql : String} {ddl : Ddl} (h : Ddl.IsSent db.dialect ddl sql)
    (ha : ddl.admits c = true) : ∃ n, (db.execute sql).Ends c (.ok n) (ddl.apply c)

/-- Of the statements that refer to nothing missing, those that fit change the catalog as they say.
The others are refused, though not for a missing table, and change nothing. -/
structure Meets (db : Adapter Catalog) (fits : Catalog → Ddl → Bool) : Prop extends Answers db where
  runs {c : Catalog} {sql : String} {ddl : Ddl} (h : Ddl.IsSent db.dialect ddl sql)
    (ha : ddl.admits c = true) (hf : fits c ddl = true) :
    ∃ n, (db.execute sql).Ends c (.ok n) (ddl.apply c)
  refuses {c : Catalog} {sql : String} {ddl : Ddl} (h : Ddl.IsSent db.dialect ddl sql)
    (ha : ddl.admits c = true) (hf : fits c ddl = false) :
    ∃ e, e.isUndefinedRelation = false ∧ (db.execute sql).Ends c (.error e) c

variable {db : Adapter Catalog} {fits : Catalog → Ddl → Bool} {c u c' : Catalog} {t : Table}

theorem Keeps.meets (h : Keeps db) : Meets db fun _ _ => true where
  toAnswers := h.toAnswers
  runs hddl ha _ := h.execute hddl ha
  refuses _ _ hf := nomatch hf

theorem contains_iff {name : String} : c.contains name = true ↔ ∃ live, c.get? name = some live :=
  Option.isSome_iff_exists

theorem tableExists_ends (h : Answers db) (c : Catalog) (name : String) :
    (tableExists db name).Ends c (.ok (c.contains name)) c := by
  obtain ⟨rows, hrows, hempty⟩ := h.tables c name
  exact hrows.bind (by simp [hempty])

theorem filterMap_liveColumn? {rows : List Row} {live : List String}
    (h : rows.filterMap columnName? = live) : rows.filterMap liveColumn? = live.map Text.lower := by
  rw [← h, List.map_filterMap]
  rfl

theorem liveColumns_ends (h : Answers db) {name : String} {live : List String}
    (hc : c.get? name = some live) :
    (liveColumns db name).Ends c (.ok (live.map Text.lower)) c := by
  obtain ⟨rows, hrows, hlive⟩ := h.columns hc
  exact hrows.bind (Action.ends_pure.mpr ⟨by rw [filterMap_liveColumn? hlive], rfl⟩)

theorem requireReferenced_ends (h : Answers db) (c : Catalog) (table target : String) :
    (requireReferenced db table target).Ends c
      (if target = table ∨ c.contains target = true then .ok () else .error (missingTable target))
      c := by
  unfold requireReferenced
  by_cases heq : target = table
  · simp [heq]
  · rw [if_neg heq]
    refine (tableExists_ends h c target).bind ?_
    cases c.contains target <;> simp [heq]

theorem requireAll_ready (h : Answers db) {table : String} {targets : List String}
    (hr : ∀ d ∈ targets, d = table ∨ c.contains d = true) :
    (requireAll db table targets).Ends c (.ok ()) c := by
  induction targets with
  | nil => simp [requireAll]
  | cons d targets ih =>
    have hd := requireReferenced_ends h c table d
    rw [if_pos (hr d List.mem_cons_self)] at hd
    exact hd.bind (ih fun d' hd' => hr d' (List.mem_cons_of_mem d hd'))

theorem requireAll_blocked (h : Answers db) {table : String} {targets : List String} {d : String}
    (hd : d ∈ targets) (hne : d ≠ table) (hc : c.contains d = false) :
    ∃ name, (requireAll db table targets).Ends c (.error (missingTable name)) c := by
  induction targets with
  | nil => cases hd
  | cons d' targets ih =>
    have hd' := requireReferenced_ends h c table d'
    by_cases hready : d' = table ∨ c.contains d' = true
    · rw [if_pos hready] at hd'
      have hmem : d ∈ targets := by
        rcases List.mem_cons.mp hd with rfl | hmem
        · simp [hne, hc] at hready
        · exact hmem
      obtain ⟨name, hrest⟩ := ih hmem
      exact ⟨name, hd'.bind hrest⟩
    · rw [if_neg hready] at hd'
      exact ⟨d', hd'.bind_error⟩

theorem contains_insert {name other : String} {live : List String} :
    (c.insert name live).contains other = (decide (other = name) || c.contains other) := by
  by_cases h : other = name <;> simp [Keyed.contains, Keyed.get?_insert, h]

/-- The database refuses some statement with the error, which is not for a missing table. -/
def Refuses (db : Adapter Catalog) (e : Error) : Prop :=
  e.isUndefinedRelation = false ∧ ∃ sql c, (db.execute sql).Ends c (.error e) c

/-- If `fit` holds, the action succeeds with `x` and leaves `c'`; else it fails, as the database
refuses a statement. -/
def Tried (db : Adapter Catalog) {α : Type} (a : Action Catalog α) (c : Catalog) (fit : Bool) (x : α)
    (c' : Catalog) : Prop :=
  if fit then a.Ends c (.ok x) c' else ∃ e left, Refuses db e ∧ a.Ends c (.error e) left

section Tried

variable {α β : Type} {a : Action Catalog α} {f : α → Action Catalog β} {x : α} {y : β}
  {fit fit' : Bool}

theorem tried_pure (x : α) (c : Catalog) : Tried db (Pure.pure x) c true x c :=
  Action.ends_pure.mpr ⟨rfl, rfl⟩

theorem Tried.bind (h : Tried db a c fit x u) (h' : Tried db (f x) u fit' y c') :
    Tried db (a >>= f) c (fit && fit') y c' := by
  cases fit with
  | false =>
    obtain ⟨e, left, he, hends⟩ := h
    exact ⟨e, left, he, hends.bind_error⟩
  | true =>
    have hends : a.Ends c (.ok x) u := h
    cases fit' with
    | true => exact hends.bind h'
    | false =>
      obtain ⟨e, left, he, hends'⟩ := h'
      exact ⟨e, left, he, hends.bind hends'⟩

theorem tried_of_ends (h : a.Ends c (.ok x) u) (h' : Tried db (f x) u fit y c') :
    Tried db (a >>= f) c fit y c' := by
  have hfirst : Tried db a c true x u := h
  exact hfirst.bind h'

theorem Tried.bind_pure (h : Tried db a c fit x u) (hf : f x = Pure.pure y) :
    Tried db (a >>= f) c fit y u := by
  have hlast : Tried db (f x) u true y u := hf ▸ tried_pure y u
  have hall := h.bind hlast
  rwa [Bool.and_true] at hall

@[simp] theorem tried_log_bind {level : Level} {message : String} {fields : List (String × String)}
    {g : Unit → Action Catalog β} :
    Tried db (Action.log level message fields >>= g) c fit y c' ↔ Tried db (g ()) c fit y c' := by
  simp only [Tried, Action.ends_log_bind]

end Tried

theorem execute_tried (h : Meets db fits) {sql : String} {ddl : Ddl}
    (hddl : Ddl.IsSent db.dialect ddl sql) (ha : ddl.admits c = true) :
    ∃ n, Tried db (db.execute sql) c (fits c ddl) n (ddl.apply c) := by
  cases hf : fits c ddl with
  | true =>
    obtain ⟨n, hexec⟩ := h.runs hddl ha hf
    exact ⟨n, hexec⟩
  | false =>
    obtain ⟨e, he, hexec⟩ := h.refuses hddl ha hf
    exact ⟨0, e, c, ⟨he, sql, c, hexec⟩, hexec⟩

/-- Each of the statements fits the catalog that those before it leave. -/
def fitsAll (fits : Catalog → Ddl → Bool) (c : Catalog) : List Ddl → Bool
  | [] => true
  | ddl :: rest => fits c ddl && fitsAll fits (ddl.apply c) rest

theorem fitsAll_always (c : Catalog) (ddls : List Ddl) : fitsAll (fun _ _ => true) c ddls = true := by
  induction ddls generalizing c with
  | nil => rfl
  | cons ddl rest ih => exact ih (ddl.apply c)

/-- The statements that add the columns one by one. -/
def additions (t : Table) (columns : List (String × Column)) : List Ddl :=
  columns.map fun e => .addColumn t.name e.1 e.2.reference

/-- The statements that bring a table up to date. -/
def statements (c : Catalog) (t : Table) : List Ddl :=
  if c.contains t.name then additions t (c.missing t)
  else [.create t.name t.columnNames (t.references.map Prod.snd)]

theorem apply_addColumn {live : List String} (hc : c.get? t.name = some live) (column : String)
    (reference : Option Reference) :
    (Ddl.addColumn t.name column reference).apply c = c.insert t.name (live ++ [column]) := by
  simp [Ddl.apply, hc]

theorem admits_addColumn {e : String × Column} (hc : c.contains t.name = true)
    (hr : ∀ r ∈ e.2.reference, r.table = t.name ∨ c.contains r.table = true) :
    (Ddl.addColumn t.name e.1 e.2.reference).admits c = true := by
  refine Bool.and_eq_true_iff.mpr ⟨hc, ?_⟩
  cases href : e.2.reference with
  | none => rfl
  | some r => simpa using hr r href

/-- The columns are appended one by one, as all their references are there, up to the first that does
not fit. -/
theorem addColumns_tried (h : Meets db fits) {columns : List (String × Column)} {live : List String}
    (hc : c.get? t.name = some live)
    (hr : ∀ e ∈ columns, ∀ r ∈ e.2.reference, r.table = t.name ∨ c.contains r.table = true) :
    ∃ c', Tried db (addColumns db t columns) c (fitsAll fits c (additions t columns)) () c' ∧
      ∀ n, c'.get? n = if n = t.name then some (live ++ columns.map Prod.fst) else c.get? n := by
  induction columns generalizing c live with
  | nil =>
    refine ⟨c, tried_pure () c, fun n => ?_⟩
    by_cases hn : n = t.name <;> simp [hn, hc]
  | cons e columns ih =>
    have hadmit := admits_addColumn (contains_iff.mpr ⟨live, hc⟩) (hr e List.mem_cons_self)
    obtain ⟨count, hexec⟩ := execute_tried h (.addColumn t e.1 e.2) hadmit
    have happly := apply_addColumn hc e.1 e.2.reference
    have hinsert : (c.insert t.name (live ++ [e.1])).get? t.name = some (live ++ [e.1]) := by
      simp [Keyed.get?_insert]
    rw [happly] at hexec
    obtain ⟨c', hrest, hget⟩ := ih hinsert (fun e' he' r hr' => by
        have hready := hr e' (List.mem_cons_of_mem e he') r hr'
        rw [contains_insert, Bool.or_eq_true]
        exact hready.imp_right .inr)
    refine ⟨c', ?_, fun n => ?_⟩
    · unfold addColumns
      simp only [tried_log_bind, additions, List.map_cons, fitsAll, happly]
      exact hexec.bind (tried_log_bind.mpr hrest)
    · rw [hget n, Keyed.get?_insert]
      by_cases hn : n = t.name <;> simp [hn]

theorem dependencies_eq (t : Table) :
    t.dependencies = t.columns.entries.filterMap fun e => e.2.reference.map Reference.table := by
  rw [Table.dependencies, Table.references, List.map_filterMap]
  simp [Function.comp_def]

theorem mem_needs {d : String} : d ∈ c.needs t ↔
    d ∈ ((c.missing t).filterMap fun e => e.2.reference.map Reference.table) ∧ d ≠ t.name := by
  simp [needs]

theorem createTable_tried (h : Meets db fits) (hnone : c.get? t.name = none)
    (hr : ∀ d ∈ t.dependencies, d = t.name ∨ c.contains d = true) :
    Tried db (createTable db t) c (fitsAll fits c (c.statements t)) .created
      (c.insert t.name t.columnNames) := by
  let ddl : Ddl := .create t.name t.columnNames (t.references.map Prod.snd)
  have hmissing : ¬ c.contains t.name = true := by simp [Keyed.contains, hnone]
  have hadmit : ddl.admits c = true := by
    refine List.all_eq_true.mpr fun r hmem => ?_
    obtain ⟨e, he, rfl⟩ := List.mem_map.mp hmem
    simpa using hr e.2.table (List.mem_map_of_mem he)
  have happly : ddl.apply c = c.insert t.name t.columnNames := if_neg hmissing
  obtain ⟨count, hexec⟩ := execute_tried h (.create t) hadmit
  have hfits : fitsAll fits c (c.statements t) = (fits c ddl && true) := by
    rw [statements, if_neg hmissing]
    rfl
  rw [happly] at hexec
  rw [hfits]
  refine tried_of_ends (requireAll_ready h.toAnswers hr) ?_
  simp only [tried_log_bind]
  exact hexec.bind (tried_log_bind.mpr (tried_pure TableSync.created _))

theorem alterTable_tried (h : Meets db fits) {live : List String} {missing : List (String × Column)}
    (hc : c.get? t.name = some live) (hm : missingColumns t (live.map Text.lower) = missing)
    (hr : ∀ d ∈ missing.filterMap fun e => e.2.reference.map Reference.table,
      d = t.name ∨ c.contains d = true) :
    ∃ c', Tried db (alterTable db t) c (fitsAll fits c (additions t missing))
        (if missing.isEmpty then .unchanged else .altered (missing.map Prod.fst)) c' ∧
      ∀ n, c'.get? n = if n = t.name then some (live ++ missing.map Prod.fst) else c.get? n := by
  subst hm
  obtain ⟨c', hadd, hget⟩ := addColumns_tried h hc fun e he r href =>
    hr r.table (List.mem_filterMap.mpr ⟨e, he, by simp [Option.mem_def.mp href]⟩)
  refine ⟨c', ?_, hget⟩
  unfold alterTable
  simp only [tried_log_bind]
  refine tried_of_ends (liveColumns_ends h.toAnswers hc) ?_
  refine tried_of_ends (requireAll_ready h.toAnswers hr) ?_
  exact hadd.bind_pure rfl

theorem alterTable_blocked (h : Answers db) {live : List String} {e : Error}
    (hc : c.get? t.name = some live)
    (hr : (requireAll db t.name ((missingColumns t (live.map Text.lower)).filterMap fun e =>
      e.2.reference.map Reference.table)).Ends c (.error e) c) :
    (alterTable db t).Ends c (.error e) c := by
  unfold alterTable
  simp only [Action.ends_log_bind]
  exact (liveColumns_ends h hc).bind hr.bind_error

theorem syncTable_ends (h : Answers db) {r : Except Error TableSync} {c' : Catalog}
    (hends : (if c.contains t.name = true then alterTable db t else createTable db t).Ends c r c') :
    (syncTable db t).Ends c r c' :=
  Action.Ends.bind (f := fun found => if found = true then alterTable db t else createTable db t)
    (tableExists_ends h c t.name) hends

theorem syncTable_of_tried (h : Answers db) {done : TableSync} {fit found : Bool}
    (hfound : c.contains t.name = found)
    (htried : Tried db (if found = true then alterTable db t else createTable db t) c fit done c') :
    Tried db (syncTable db t) c fit done c' := by
  have hexists := tableExists_ends h c t.name
  rw [hfound] at hexists
  exact tried_of_ends
    (f := fun found => if found = true then alterTable db t else createTable db t) hexists htried

/-- A table whose references are there is brought up to date if its statements fit, and no other
table changes. -/
theorem syncTable_tried (h : Meets db fits) (hr : ∀ d ∈ c.needs t, c.contains d = true) :
    ∃ done c', Tried db (syncTable db t) c (fitsAll fits c (c.statements t)) done c' ∧
      ∀ n, c'.get? n = if n = t.name then some (c.columnsAfter t) else c.get? n := by
  have hrefs : ∀ d ∈ (c.missing t).filterMap fun e => e.2.reference.map Reference.table,
      d = t.name ∨ c.contains d = true := by
    intro d hd
    by_cases hne : d = t.name
    · exact .inl hne
    · exact .inr (hr d (mem_needs.mpr ⟨hd, hne⟩))
  cases hlive : c.get? t.name with
  | none =>
    simp only [missing, hlive, ← dependencies_eq] at hrefs
    have htried := createTable_tried h hlive hrefs
    have hmissing : c.contains t.name = false := by simp [Keyed.contains, hlive]
    refine ⟨_, _, syncTable_of_tried h.toAnswers hmissing htried, ?_⟩
    simp [Keyed.get?_insert, columnsAfter, missing, hlive, Table.columnNames, Keyed.keys]
  | some live =>
    have hthere : c.contains t.name = true := contains_iff.mpr ⟨live, hlive⟩
    have hmissing : c.missing t = missingColumns t (live.map Text.lower) := by simp [missing, hlive]
    rw [hmissing] at hrefs
    obtain ⟨c', htried, hget⟩ := alterTable_tried h hlive rfl hrefs
    have hfits : fitsAll fits c (c.statements t) =
        fitsAll fits c (additions t (missingColumns t (live.map Text.lower))) := by
      rw [statements, if_pos hthere, hmissing]
    rw [hfits]
    refine ⟨_, c', syncTable_of_tried h.toAnswers hthere htried, ?_⟩
    simpa [columnsAfter, missing, hlive] using hget

/-- A table that misses a reference is refused before any statement is sent. -/
theorem syncTable_blocked (h : Answers db) {d : String} (hd : d ∈ c.needs t)
    (hc : c.contains d = false) :
    ∃ name, (syncTable db t).Ends c (.error (missingTable name)) c := by
  obtain ⟨hmem, hne⟩ := mem_needs.mp hd
  obtain ⟨name, hreq⟩ := requireAll_blocked h hmem hne hc
  refine ⟨name, syncTable_ends h ?_⟩
  cases hlive : c.get? t.name with
  | none =>
    simp only [missing, hlive, ← dependencies_eq] at hreq
    simpa [Keyed.contains, hlive, createTable] using hreq.bind_error
  | some live =>
    simp only [missing, hlive] at hreq
    simpa [Keyed.contains, hlive] using alterTable_blocked h hlive hreq

/-- Every declared column is there afterwards, up to the case of letters. -/
theorem mem_columnsAfter {name : String} (hn : name ∈ t.columnNames) :
    ∃ m ∈ c.columnsAfter t, Text.lower m = Text.lower name := by
  obtain ⟨e, he, rfl⟩ := List.mem_map.mp hn
  by_cases hmissing : e ∈ c.missing t
  · exact ⟨e.1, List.mem_append_right _ (List.mem_map_of_mem hmissing), rfl⟩
  · cases hlive : c.get? t.name with
    | none => simp [missing, hlive, he] at hmissing
    | some live =>
      obtain ⟨m, hm, hlower⟩ : ∃ m ∈ live, Text.lower m = Text.lower e.1 := by
        simpa [missing, hlive, missingColumns, he] using hmissing
      exact ⟨m, List.mem_append_left _ (by simpa [hlive] using hm), hlower⟩

/-- The answer to a catalog query about one table. -/
def rows (d : Dialect) (c : Catalog) (sql name : String) : Option (List Row) :=
  if sql = d.tableExistsQuery then
    some (if c.contains name then [.ofList [("table_name", .string name)]] else [])
  else if sql = d.columnsQuery then
    some (((c.get? name).getD []).map fun n => .ofList [("column_name", .string n)])
  else none

def soleText? : List Value → Option String
  | [v] => v.toStr?
  | _ => none

def answer (d : Dialect) (sql : String) (params : List Value) : Action Catalog (List Row) := fun c =>
  match (soleText? params).bind fun name => c.rows d sql name with
  | some found => ⟨.ok found, c, []⟩
  | none => ⟨.error (.unsupported sql), c, []⟩

/-- Runs a statement that defines a table, unless it refers to something that is missing. -/
def define (sql : String) : Action Catalog Nat :=
  match Ddl.ofSql? sql with
  | none => Action.fail (.unsupported sql)
  | some ddl => fun c =>
    if ddl.admits c then ⟨.ok 0, ddl.apply c, []⟩
    else ⟨.error (.undefinedTable "referenced relation does not exist"), c, []⟩

/-- A database that is its catalog, and refuses statements that refer to something missing. -/
def strict (d : Dialect) : Adapter Catalog where
  dialect := d
  connect _ := Pure.pure ()
  isConnected _ := true
  disconnect := Pure.pure ()
  execute := define
  executeWith sql _ := define sql
  query sql := Action.fail (.unsupported sql)
  queryWith := answer d
  begin := Pure.pure ()
  commit := Pure.pure ()
  rollback := Pure.pure ()
  inTransaction _ := false

theorem answer_ends {d : Dialect} {sql name : String} {found : List Row}
    (h : c.rows d sql name = some found) : (answer d sql [.string name]).Ends c (.ok found) c := by
  have hrows : ((soleText? [.string name]).bind fun name => c.rows d sql name) = some found := h
  simp only [Action.Ends, answer, hrows, and_self]

theorem columnName?_ofList (name : String) :
    columnName? (.ofList [("column_name", .string name)]) = some name := rfl

theorem strict_keeps (d : Dialect) : Keeps (strict d) where
  tables c name := by
    refine ⟨_, answer_ends (if_pos rfl), ?_⟩
    cases c.contains name <;> rfl
  columns {c name live} h := by
    have hne : d.columnsQuery ≠ d.tableExistsQuery := by cases d <;> decide +kernel
    refine ⟨_, answer_ends ((if_neg hne).trans (if_pos rfl)), ?_⟩
    rw [h, List.filterMap_map]
    simp only [Function.comp_def, columnName?_ofList, Option.getD_some, List.filterMap_some]
  execute {c sql ddl} h ha := by
    refine ⟨0, ?_⟩
    simp only [strict, define, h.read, Action.Ends, ha, if_true, and_self]

end Catalog
end Relata
