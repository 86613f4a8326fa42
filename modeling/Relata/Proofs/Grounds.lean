import Mathlib.Data.List.Forall2
import Relata.Proofs.Catalog
import Relata.Proofs.Outcome
import Relata.Proofs.Replay

/-!
The grounds on which a synchronisation sends a statement. Main statement: whatever the database
answers and however the run ends, a table is created only where the catalog has just said that it is
missing and that all it refers to is there; a column is added only where the catalog has just listed
the columns of its table without it; and nothing else is sent. So no table and no column is lost.
-/
namespace Relata

namespace Migration

open Relata.Action

/-- The catalog has said that there is a table of this name. -/
def Finds (d : Dialect) (name : String) (call : Call) : Prop :=
  ∃ rows, rows ≠ [] ∧ call = .queryWith d.tableExistsQuery [.string name] (.ok rows)

/-- The catalog has said that there is no table of this name. -/
def lacks (d : Dialect) (name : String) : Call :=
  .queryWith d.tableExistsQuery [.string name] (.ok [])

/-- The catalog has listed the columns of a table. -/
def lists (d : Dialect) (name : String) (rows : List Row) : Call :=
  .queryWith d.columnsQuery [.string name] (.ok rows)

/-- The column has been added. -/
def Adds (d : Dialect) (t : Table) (e : String × Column) (call : Call) : Prop :=
  ∃ n, call = .execute (Sql.textOf (t.addColumnPieces d e.1 e.2)) (.ok n)

/-- The tables other than `t` itself that the columns refer to. -/
def foreign (t : Table) (columns : List (String × Column)) : List String :=
  (columns.filterMap fun e => e.2.reference.map Reference.table).filter (· ≠ t.name)

/-- What has to be said right before a statement about the table `t` is sent. Columns are added one
after the other, so that those before the one in question have been added in between. -/
inductive Grounds (d : Dialect) (t : Table) : List Call → String → Prop
  | create {checks : List Call}
      (hchecks : List.Forall₂ (Finds d) (foreign t t.columns.entries) checks) :
    Grounds d t (lacks d t.name :: checks) (t.createSql d)
  | add {found : Call} {rows : List Row} {checks adds : List Call}
      {before after : List (String × Column)} {name : String} {c : Column}
      (hfound : Finds d t.name found)
      (hmissing : missingColumns t (rows.filterMap liveColumn?) = before ++ (name, c) :: after)
      (hchecks : List.Forall₂ (Finds d)
        (foreign t (missingColumns t (rows.filterMap liveColumn?))) checks)
      (hadds : List.Forall₂ (Adds d t) before adds) :
    Grounds d t (found :: lists d t.name rows :: checks ++ adds)
      (Sql.textOf (t.addColumnPieces d name c))

/-- Each of the calls is a catalog query, or a statement about one of the tables on the grounds of
the calls right before it. -/
inductive Grounded (d : Dialect) (tables : List Table) : List Call → Prop
  | nil : Grounded d tables []
  | asked {log : List Call} {sql name : String} {answer : Except Error (List Row)}
      (h : Grounded d tables log) (hsql : sql = d.tableExistsQuery ∨ sql = d.columnsQuery) :
    Grounded d tables (log ++ [.queryWith sql [.string name] answer])
  | sent {earlier asked : List Call} {t : Table} {sql : String} {answer : Except Error Nat}
      (h : Grounded d tables (earlier ++ asked)) (ht : t ∈ tables) (hg : Grounds d t asked sql) :
    Grounded d tables (earlier ++ asked ++ [.execute sql answer])

variable {σ α β : Type}

/-- After the calls of `log` the action makes `calls`, all on the same grounds. -/
structure Proceeds (db : Adapter σ) (tables : List Table) (log : List Call)
    (a : Action (σ × List Call) α) (s : σ) (r : Except Error α) (calls : List Call) (u : σ) :
    Prop extends a.Plays db s r calls u where
  grounded : Grounded db.dialect tables (log ++ calls)

section Proceeds

variable {db : Adapter σ} {tables : List Table} {log calls more : List Call}
  {a : Action (σ × List Call) α} {f : α → Action (σ × List Call) β} {s u v : σ}

theorem proceeds_pure (h : Grounded db.dialect tables log) (x : α) (s : σ) :
    Proceeds db tables log (Pure.pure x) s (.ok x) [] s :=
  ⟨plays_pure x s, by rwa [List.append_nil]⟩

theorem proceeds_fail (h : Grounded db.dialect tables log) (e : Error) (s : σ) :
    Proceeds db tables log (fail e : Action (σ × List Call) α) s (.error e) [] s :=
  ⟨plays_fail e s, by rwa [List.append_nil]⟩

theorem Proceeds.bind {x : α} {r : Except Error β} (h : Proceeds db tables log a s (.ok x) calls v)
    (h' : Proceeds db tables (log ++ calls) (f x) v r more u) :
    Proceeds db tables log (a >>= f) s r (calls ++ more) u where
  toPlays := h.toPlays.bind h'.toPlays
  grounded := by
    rw [← List.append_assoc]
    exact h'.grounded

theorem Proceeds.bind_error {e : Error} (h : Proceeds db tables log a s (.error e) calls u) :
    Proceeds db tables log (a >>= f) s (.error e) calls u := ⟨h.toPlays.bind_error, h.grounded⟩

@[simp] theorem proceeds_log_bind {level : Level} {message : String}
    {fields : List (String × String)} {g : Unit → Action (σ × List Call) β} {r : Except Error β} :
    Proceeds db tables log (Action.log level message fields >>= g) s r calls u ↔
      Proceeds db tables log (g ()) s r calls u := by
  constructor
  · exact fun h => ⟨plays_log_bind.mp h.toPlays, h.grounded⟩
  · exact fun h => ⟨plays_log_bind.mpr h.toPlays, h.grounded⟩

variable (db) in
theorem proceeds_query (h : Grounded db.dialect tables log) {sql : String}
    (hsql : sql = db.dialect.tableExistsQuery ∨ sql = db.dialect.columnsQuery) (name : String)
    (s : σ) : ∃ r u, Proceeds db tables log (db.recorded.queryWith sql [.string name]) s r
      [.queryWith sql [.string name] r] u :=
  ⟨_, _, plays_noting rfl rfl, h.asked hsql⟩

variable (db) in
theorem proceeds_execute {earlier asked : List Call} {t : Table} {sql : String}
    (h : Grounded db.dialect tables (earlier ++ asked)) (ht : t ∈ tables)
    (hg : Grounds db.dialect t asked sql) (s : σ) :
    ∃ r u, Proceeds db tables (earlier ++ asked) (db.recorded.execute sql) s r [.execute sql r] u :=
  ⟨_, _, plays_noting rfl rfl, h.sent ht hg⟩

end Proceeds

section Table

variable (db : Adapter σ) {tables : List Table} {log : List Call} {t : Table}

theorem tableExists_proceeds (h : Grounded db.dialect tables log) (name : String) (s : σ) :
    ∃ r call u, Proceeds db tables log (tableExists db.recorded name) s r [call] u ∧
      (r = .ok true → Finds db.dialect name call) ∧
      (r = .ok false → call = lacks db.dialect name) := by
  obtain ⟨r, u, hquery⟩ := proceeds_query db h (.inl rfl) name s
  cases r with
  | error e => exact ⟨_, _, u, hquery.bind_error, nofun, nofun⟩
  | ok rows =>
    refine ⟨.ok !rows.isEmpty, _, u, hquery.bind (proceeds_pure hquery.grounded _ u), ?_, ?_⟩
    · intro hfound
      exact ⟨rows, by simpa using Except.ok.inj hfound, rfl⟩
    · intro hnone
      obtain rfl : rows = [] := by simpa using Except.ok.inj hnone
      rfl

theorem liveColumns_proceeds (h : Grounded db.dialect tables log) (name : String) (s : σ) :
    ∃ r call u, Proceeds db tables log (liveColumns db.recorded name) s r [call] u ∧
      ∀ live, r = .ok live →
        ∃ rows, live = rows.filterMap liveColumn? ∧ call = lists db.dialect name rows := by
  obtain ⟨r, u, hquery⟩ := proceeds_query db h (.inr rfl) name s
  cases r with
  | error e => exact ⟨_, _, u, hquery.bind_error, nofun⟩
  | ok rows =>
    refine ⟨_, _, u, hquery.bind (proceeds_pure hquery.grounded _ u), fun live hlive => ?_⟩
    exact ⟨rows, (Except.ok.inj hlive).symm, rfl⟩

/-- All tables that are referred to are asked for, but the referring one, up to the first that is
missing. -/
theorem requireAll_proceeds (h : Grounded db.dialect tables log) (table : String)
    (targets : List String) (s : σ) :
    ∃ r checks u, Proceeds db tables log (requireAll db.recorded table targets) s r checks u ∧
      (r = .ok () → List.Forall₂ (Finds db.dialect) (targets.filter (· ≠ table)) checks) := by
  induction targets generalizing log s with
  | nil => exact ⟨_, [], s, proceeds_pure h () s, fun _ => .nil⟩
  | cons target targets ih =>
    by_cases hown : target = table
    · have hfirst : Proceeds db tables log (requireReferenced db.recorded table target) s (.ok ())
          [] s := by
        rw [requireReferenced, if_pos hown]
        exact proceeds_pure h () s
      obtain ⟨r, checks, u, hrest, hall⟩ := ih hfirst.grounded s
      refine ⟨r, [] ++ checks, u, hfirst.bind hrest, fun hr => ?_⟩
      rw [List.filter_cons_of_neg (by simpa using hown), List.nil_append]
      exact hall hr
    · obtain ⟨r, call, u, hasked, hfinds, hlacks⟩ := tableExists_proceeds db h target s
      cases r with
      | error e =>
        have hfirst : Proceeds db tables log (requireReferenced db.recorded table target) s
            (.error e) [call] u := by
          rw [requireReferenced, if_neg hown]
          exact hasked.bind_error
        exact ⟨_, _, u, hfirst.bind_error, nofun⟩
      | ok found =>
        cases found with
        | false =>
          have hfirst : Proceeds db tables log (requireReferenced db.recorded table target) s
              (.error (missingTable target)) ([call] ++ []) u := by
            rw [requireReferenced, if_neg hown]
            exact hasked.bind (proceeds_log_bind.mpr (proceeds_fail hasked.grounded _ u))
          exact ⟨_, _, u, hfirst.bind_error, nofun⟩
        | true =>
          have hfirst : Proceeds db tables log (requireReferenced db.recorded table target) s
              (.ok ()) ([call] ++ []) u := by
            rw [requireReferenced, if_neg hown]
            exact hasked.bind (proceeds_pure hasked.grounded () u)
          obtain ⟨r, checks, v, hrest, hall⟩ := ih hfirst.grounded u
          refine ⟨r, [call] ++ [] ++ checks, v, hfirst.bind hrest, fun hr => ?_⟩
          rw [List.filter_cons_of_pos (by simpa using hown)]
          exact .cons (hfinds rfl) (hall hr)

theorem createTable_proceeds {earlier : List Call}
    (h : Grounded db.dialect tables (earlier ++ [lacks db.dialect t.name])) (ht : t ∈ tables)
    (s : σ) : ∃ r calls u, Proceeds db tables (earlier ++ [lacks db.dialect t.name])
      (createTable db.recorded t) s r calls u := by
  obtain ⟨r, checks, u, hrefs, hall⟩ := requireAll_proceeds db h t.name t.dependencies s
  cases r with
  | error e => exact ⟨_, _, u, hrefs.bind_error⟩
  | ok _ =>
    have hchecks := hall rfl
    rw [Catalog.dependencies_eq] at hchecks
    have hlog := hrefs.grounded
    rw [List.append_assoc] at hlog
    obtain ⟨r, v, hexec⟩ := proceeds_execute db hlog ht (.create hchecks) u
    rw [← List.append_assoc] at hexec
    cases r with
    | error e => exact ⟨_, _, v, hrefs.bind (proceeds_log_bind.mpr hexec.bind_error)⟩
    | ok n =>
      have hdone := proceeds_pure hexec.grounded TableSync.created v
      exact ⟨_, _, v, hrefs.bind
        (proceeds_log_bind.mpr (hexec.bind (proceeds_log_bind.mpr hdone)))⟩

/-- Each column is added on the grounds of what the catalog has said of its table, with the columns
before it added since. -/
theorem addColumns_proceeds {earlier checks adds : List Call} {found : Call} {rows : List Row}
    {before columns : List (String × Column)} (ht : t ∈ tables)
    (hfound : Finds db.dialect t.name found)
    (hmissing : missingColumns t (rows.filterMap liveColumn?) = before ++ columns)
    (hchecks : List.Forall₂ (Finds db.dialect)
      (foreign t (missingColumns t (rows.filterMap liveColumn?))) checks)
    (hadds : List.Forall₂ (Adds db.dialect t) before adds)
    (h : Grounded db.dialect tables
      (earlier ++ (found :: lists db.dialect t.name rows :: checks ++ adds))) (s : σ) :
    ∃ r calls u, Proceeds db tables
      (earlier ++ (found :: lists db.dialect t.name rows :: checks ++ adds))
      (addColumns db.recorded t columns) s r calls u := by
  induction columns generalizing before adds s with
  | nil => exact ⟨_, _, _, proceeds_pure h () s⟩
  | cons e columns ih =>
    obtain ⟨r, u, hexec⟩ := proceeds_execute db h ht (.add hfound hmissing hchecks hadds) s
    cases r with
    | error e' => exact ⟨_, _, u, proceeds_log_bind.mpr hexec.bind_error⟩
    | ok n =>
      have hone : List.Forall₂ (Adds db.dialect t) [e]
          [.execute (Sql.textOf (t.addColumnPieces db.dialect e.1 e.2)) (.ok n)] :=
        .cons ⟨n, rfl⟩ .nil
      have hlog := hexec.grounded
      have hnext := ih (by simpa using hmissing) (List.rel_append hadds hone) (by simpa using hlog) u
      obtain ⟨r, calls, v, hrest⟩ := hnext
      have hrest' : Proceeds db tables (earlier ++
          (found :: lists db.dialect t.name rows :: checks ++ adds) ++ [.execute
            (Sql.textOf (t.addColumnPieces db.dialect e.1 e.2)) (.ok n)])
          (addColumns db.recorded t columns) u r calls v := by
        simpa using hrest
      exact ⟨r, _, v, proceeds_log_bind.mpr (hexec.bind (proceeds_log_bind.mpr hrest'))⟩

theorem alterTable_proceeds {earlier : List Call} {found : Call} (ht : t ∈ tables)
    (hfound : Finds db.dialect t.name found) (h : Grounded db.dialect tables (earlier ++ [found]))
    (s : σ) : ∃ r calls u,
      Proceeds db tables (earlier ++ [found]) (alterTable db.recorded t) s r calls u := by
  obtain ⟨r, call, u, hlive, hlists⟩ := liveColumns_proceeds db h t.name s
  cases r with
  | error e => exact ⟨_, _, u, proceeds_log_bind.mpr hlive.bind_error⟩
  | ok live =>
    obtain ⟨rows, rfl, rfl⟩ := hlists live rfl
    let missing := missingColumns t (rows.filterMap liveColumn?)
    obtain ⟨r, checks, v, hrefs, hall⟩ := requireAll_proceeds db hlive.grounded t.name
      (missing.filterMap fun e => e.2.reference.map Reference.table) u
    cases r with
    | error e => exact ⟨_, _, v, proceeds_log_bind.mpr (hlive.bind hrefs.bind_error)⟩
    | ok _ =>
      have hlog : earlier ++ [found] ++ [lists db.dialect t.name rows] ++ checks =
          earlier ++ (found :: lists db.dialect t.name rows :: checks ++ []) := by simp
      obtain ⟨r, adds, w, hadd⟩ := addColumns_proceeds db ht hfound rfl (hall rfl) .nil
        (hlog ▸ hrefs.grounded) v
      have hadd' : Proceeds db tables (earlier ++ [found] ++ [lists db.dialect t.name rows] ++ checks)
          (addColumns db.recorded t missing) v r adds w := hlog ▸ hadd
      cases r with
      | error e =>
        exact ⟨_, _, w, proceeds_log_bind.mpr (hlive.bind (hrefs.bind hadd'.bind_error))⟩
      | ok _ =>
        have hdone := proceeds_pure hadd'.grounded
          (if missing.isEmpty then TableSync.unchanged else .altered (missing.map Prod.fst)) w
        exact ⟨_, _, w, proceeds_log_bind.mpr (hlive.bind (hrefs.bind (hadd'.bind hdone)))⟩

theorem syncTable_proceeds (h : Grounded db.dialect tables log) (ht : t ∈ tables) (s : σ) :
    ∃ r calls u, Proceeds db tables log (syncTable db.recorded t) s r calls u := by
  obtain ⟨r, call, u, hasked, hfinds, hlacks⟩ := tableExists_proceeds db h t.name s
  cases r with
  | error e => exact ⟨_, _, u, hasked.bind_error⟩
  | ok found =>
    cases found with
    | true =>
      obtain ⟨r, calls, v, halter⟩ := alterTable_proceeds db ht (hfinds rfl) hasked.grounded u
      exact ⟨r, _, v, hasked.bind halter⟩
    | false =>
      obtain rfl := hlacks rfl
      obtain ⟨r, calls, v, hcreate⟩ := createTable_proceeds db hasked.grounded ht u
      exact ⟨r, _, v, hasked.bind hcreate⟩

end Table

theorem Tries.grounded {db : Adapter σ} {tables : List Table} {s u : σ} {tried : List Attempt}
    (h : Tries db s tried u) (htables : ∀ a ∈ tried, a.table ∈ tables) {log : List Call}
    (hlog : Grounded db.dialect tables log) :
    Grounded db.dialect tables (log ++ tried.flatMap Attempt.calls) ∧
      replay db s (tried.flatMap Attempt.calls) = u := by
  induction h generalizing log with
  | nil => exact ⟨by simpa using hlog, rfl⟩
  | @cons s v u a rest ha _ ih =>
    obtain ⟨htable, hrest⟩ := List.forall_mem_cons.mp htables
    obtain ⟨r, calls, w, hproceeds⟩ := syncTable_proceeds db hlog htable s
    obtain ⟨-, rfl, rfl⟩ := hproceeds.makes.unique ha
    obtain ⟨hgrounded, hreplay⟩ := ih hrest hproceeds.grounded
    rw [List.flatMap_cons, ← List.append_assoc]
    exact ⟨hgrounded, by rw [replay_append, hproceeds.replays, hreplay]⟩

end Migration

namespace Catalog

open Migration

/-- Every table is there still, in its place, and has its columns in their places. -/
structure Grows (c c' : Catalog) : Prop where
  keys : c.keys <+: c'.keys
  columns {name : String} {live : List String} (h : c.get? name = some live) :
    ∃ more, c'.get? name = some (live ++ more)

theorem Grows.refl (c : Catalog) : Grows c c :=
  ⟨List.prefix_rfl, fun h => ⟨[], by rw [h, List.append_nil]⟩⟩

theorem Grows.trans {c u c' : Catalog} (h : Grows c u) (h' : Grows u c') : Grows c c' where
  keys := h.keys.trans h'.keys
  columns hlive := by
    obtain ⟨more, hu⟩ := h.columns hlive
    obtain ⟨rest, hc⟩ := h'.columns hu
    exact ⟨more ++ rest, by rw [hc, List.append_assoc]⟩

theorem keys_prefix_insert (c : Catalog) (name : String) (live : List String) :
    c.keys <+: (c.insert name live).keys := by
  rw [Keyed.keys_insert]
  split
  · exact List.prefix_rfl
  · exact List.prefix_append _ _

theorem grows_apply (c : Catalog) (ddl : Ddl) : Grows c (ddl.apply c) := by
  cases ddl with
  | create t columns refs =>
    by_cases ht : c.contains t = true
    · rw [Ddl.apply, if_pos ht]
      exact .refl c
    · rw [Ddl.apply, if_neg ht]
      refine ⟨keys_prefix_insert c t columns, fun {name live} hlive => ⟨[], ?_⟩⟩
      have hne : name ≠ t := by
        rintro rfl
        exact ht (contains_iff.mpr ⟨live, hlive⟩)
      rw [Keyed.get?_insert, if_neg hne, hlive, List.append_nil]
  | addColumn t column ref =>
    cases ht : c.get? t with
    | none =>
      simp only [Ddl.apply, ht]
      exact .refl c
    | some columns =>
      simp only [Ddl.apply, ht]
      refine ⟨keys_prefix_insert c t _, fun {name live} hlive => ?_⟩
      by_cases hname : name = t
      · subst hname
        rw [ht] at hlive
        cases hlive
        exact ⟨[column], by rw [Keyed.get?_insert, if_pos rfl]⟩
      · exact ⟨[], by rw [Keyed.get?_insert, if_neg hname, hlive, List.append_nil]⟩

variable {σ : Type}

/-- The tables of the database, as `content` shows them: a catalog query leaves them alone, and a
statement that defines a table changes them as it says, or is refused and changes nothing. -/
structure Shows (db : Adapter σ) (content : σ → Catalog) : Prop where
  asked {sql : String} (h : sql = db.dialect.tableExistsQuery ∨ sql = db.dialect.columnsQuery)
    (name : String) (s : σ) : content (db.queryWith sql [.string name] s).state = content s
  defined {sql : String} {ddl : Ddl} (h : Ddl.IsSent db.dialect ddl sql) (s : σ) :
    content (db.execute sql s).state = content s ∨
      content (db.execute sql s).state = ddl.apply (content s)

theorem Grounds.isSent {d : Dialect} {t : Table} {asked : List Call} {sql : String}
    (h : Grounds d t asked sql) : ∃ ddl, Ddl.IsSent d ddl sql := by
  cases h with
  | create => exact ⟨_, .create t⟩
  | add => exact ⟨_, .addColumn t _ _⟩

theorem grows_replay {db : Adapter σ} {content : σ → Catalog} (h : Shows db content)
    {tables : List Table} {calls : List Call} (hcalls : Grounded db.dialect tables calls) (s : σ) :
    Grows (content s) (content (replay db s calls)) := by
  induction hcalls with
  | nil => exact .refl _
  | @asked log _ name _ _ hsql ih =>
    rw [replay_append]
    have hlast := h.asked hsql name (replay db s log)
    exact hlast ▸ ih
  | @sent earlier asked t _ _ _ _ hg ih =>
    rw [replay_append]
    obtain ⟨ddl, hddl⟩ := Grounds.isSent hg
    rcases h.defined hddl (replay db s (earlier ++ asked)) with hsame | hdefined
    · exact hsame ▸ ih
    · exact hdefined ▸ ih.trans (grows_apply _ ddl)

theorem strict_shows (d : Dialect) : Shows (strict d) id where
  asked _ name c := by
    simp only [strict, answer]
    split <;> rfl
  defined {sql ddl} h c := by
    simp only [strict, define, h.read, id_eq]
    split
    · exact .inr rfl
    · exact .inl rfl

end Catalog

namespace Migration

variable {σ : Type}

/-- Whatever the database answers, and however a synchronisation ends, it asks the catalog, and sends
statements that create a missing table or add a missing column on the grounds of what the catalog has
just said. Where the database has the tables of a catalog, none of them is lost, and no column is. -/
theorem sync_grounded (db : Adapter σ) (registered : List Table) (s : σ) :
    ∃ r calls u, (sync db.recorded (.ofList registered)).Makes s r calls u ∧
      Grounded db.dialect (Schema.ofList registered).toList calls ∧
      ∀ content, Catalog.Shows db content → Catalog.Grows (content s) (content u) := by
  let schema := Schema.ofList registered
  have hbudget := Nat.le_mul_of_pos_left schema.toList.length Nat.two_pos
  obtain ⟨passes, r, u, htries, hcourse, hends⟩ := syncPasses_course db hbudget .empty s
  obtain ⟨hgrounded, hreplay⟩ := htries.grounded hcourse.tables_subset .nil
  rw [List.nil_append] at hgrounded
  refine ⟨r, _, u, fun log => sync_of_syncPasses (hends log), hgrounded, fun content hcontent => ?_⟩
  have hgrows := Catalog.grows_replay hcontent hgrounded s
  rwa [hreplay] at hgrows

/-- A run that deadlocks over the one table has added a column to the other before, behind those that
were there. -/
theorem sync_grows_deadlocked :
    let a := ((Table.ofName "a").column "id" (Column.ofType .integer)).column "note"
      (Column.ofType .text)
    let b := (Table.ofName "b").column "c_id" ((Column.ofType .integer).references "c" "id")
    let c : Catalog := .ofList [("old", ["id"]), ("a", ["ID", "extra"])]
    Catalog.Shows (Catalog.strict .postgres) id ∧
      ∃ calls u, (sync (Catalog.strict .postgres).recorded (.ofList [a, b])).Makes c
          (.error (.deadlock ["b"])) calls u ∧
        Grounded .postgres [a, b] calls ∧ Catalog.Grows c u ∧
        u = .ofList [("old", ["id"]), ("a", ["ID", "extra", "note"])] := by
  intro a b c
  have hshows := Catalog.strict_shows .postgres
  obtain ⟨r, calls, u, hmakes, hgrounded, hgrows⟩ :=
    sync_grounded (Catalog.strict .postgres) [a, b] c
  have hrun : ((sync (Catalog.strict .postgres).recorded (.ofList [a, b]) (c, [])).answer,
      (sync (Catalog.strict .postgres).recorded (.ofList [a, b]) (c, [])).state.1) =
      (.error (.deadlock ["b"]), .ofList [("old", ["id"]), ("a", ["ID", "extra", "note"])]) := by
    decide +kernel
  obtain ⟨hanswer, hstate⟩ := hmakes []
  rw [hanswer, hstate] at hrun
  obtain ⟨rfl, rfl⟩ := Prod.mk.inj hrun
  exact ⟨hshows, calls, _, hmakes, hgrounded, hgrows id hshows, rfl⟩

end Migration
end Relata
