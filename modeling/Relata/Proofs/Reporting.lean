import Mathlib.Data.List.Basic
import Relata.Proofs.Passes
import Relata.Proofs.Registry
import Relata.Scripted

/-!
What a report says of the statements that a synchronisation had run. Main statement: the report holds
the statements of the attempts that succeeded, in order; what an attempt had run before it was
postponed is not in it, so that the report is complete just if there is nothing of that kind.
-/
namespace Relata.Migration

open Relata.Action

/-- A statement that a synchronisation sends. -/
inductive Change where
  | create (t : Table)
  | add (t : Table) (name : String) (c : Column)

namespace Change

def sql (d : Dialect) : Change → String
  | .create t => t.createSql d
  | .add t name c => Sql.textOf (t.addColumnPieces d name c)

def created? : Change → Option String
  | .create t => some t.name
  | .add .. => none

def added? : Change → Option (String × String)
  | .create _ => none
  | .add t name _ => some (t.name, name)

def ofColumn (t : Table) (e : String × Column) : Change := .add t e.1 e.2

end Change

/-- The statement that the call ran with success. -/
def ran? : Call → Option String
  | .execute sql (.ok _) => some sql
  | _ => none

/-- The statements that were run with success, in order. -/
def statements (calls : List Call) : List String := calls.filterMap ran?

variable {σ α β : Type}

/-- The statements that the action has run with success are these changes. -/
def Runs (d : Dialect) (a : Action (σ × List Call) α) (s : σ) (r : Except Error α)
    (changes : List Change) (t : σ) : Prop :=
  ∃ calls, a.Makes s r calls t ∧ statements calls = changes.map (Change.sql d)

section Runs

variable {d : Dialect} {a : Action (σ × List Call) α} {f : α → Action (σ × List Call) β} {s u v : σ}
  {changes more : List Change}

theorem runs_pure (x : α) (s : σ) : Runs d (Pure.pure x) s (.ok x) [] s :=
  ⟨[], makes_pure x s, rfl⟩

theorem runs_fail (e : Error) (s : σ) :
    Runs d (fail e : Action (σ × List Call) α) s (.error e) [] s := ⟨[], makes_fail e s, rfl⟩

theorem runs_query (db : Adapter σ) (sql : String) (params : List Value) (s : σ) :
    ∃ r u, Runs d (db.recorded.queryWith sql params) s r [] u :=
  ⟨_, _, _, makes_noting (ends_run _ s) _, rfl⟩

/-- A statement is run if it is answered with success, and is none if it is not. -/
theorem runs_execute (db : Adapter σ) (change : Change) (s : σ) : ∃ r u,
    Runs d (db.recorded.execute (change.sql d)) s r
      (match r with | .ok _ => [change] | .error _ => []) u := by
  refine ⟨_, _, _, makes_noting (ends_run _ s) _, ?_⟩
  cases (db.execute (change.sql d) s).answer <;> rfl

theorem Runs.bind {x : α} {r : Except Error β} (h : Runs d a s (.ok x) changes u)
    (h' : Runs d (f x) u r more v) : Runs d (a >>= f) s r (changes ++ more) v := by
  obtain ⟨calls, hmakes, hcalls⟩ := h
  obtain ⟨rest, hmakes', hrest⟩ := h'
  refine ⟨calls ++ rest, hmakes.bind hmakes', ?_⟩
  rw [statements, List.filterMap_append, List.map_append, ← hcalls, ← hrest, statements, statements]

theorem Runs.bind_error {e : Error} (h : Runs d a s (.error e) changes u) :
    Runs d (a >>= f) s (.error e) changes u := by
  obtain ⟨calls, hmakes, hcalls⟩ := h
  exact ⟨calls, hmakes.bind_error, hcalls⟩

@[simp] theorem runs_log_bind {level : Level} {message : String} {fields : List (String × String)}
    {g : Unit → Action (σ × List Call) β} {r : Except Error β} :
    Runs d (log level message fields >>= g) s r changes u ↔ Runs d (g ()) s r changes u := by
  simp only [Runs, makes_log_bind]

end Runs

section Table

variable (db : Adapter σ)

theorem tableExists_runs (name : String) (s : σ) :
    ∃ r u, Runs db.dialect (tableExists db.recorded name) s r [] u := by
  obtain ⟨r, u, hquery⟩ := runs_query db db.dialect.tableExistsQuery [.string name] s
  cases r with
  | ok rows => exact ⟨_, u, hquery.bind (runs_pure _ u)⟩
  | error e => exact ⟨_, u, hquery.bind_error⟩

theorem liveColumns_runs (name : String) (s : σ) :
    ∃ r u, Runs db.dialect (liveColumns db.recorded name) s r [] u := by
  obtain ⟨r, u, hquery⟩ := runs_query db db.dialect.columnsQuery [.string name] s
  cases r with
  | ok rows => exact ⟨_, u, hquery.bind (runs_pure _ u)⟩
  | error e => exact ⟨_, u, hquery.bind_error⟩

theorem requireReferenced_runs (table target : String) (s : σ) :
    ∃ r u, Runs db.dialect (requireReferenced db.recorded table target) s r [] u := by
  unfold requireReferenced
  split
  · exact ⟨_, s, runs_pure () s⟩
  · obtain ⟨r, u, hfound⟩ := tableExists_runs db target s
    cases r with
    | error e => exact ⟨_, u, hfound.bind_error⟩
    | ok found =>
      cases found with
      | true => exact ⟨_, u, hfound.bind (runs_pure () u)⟩
      | false => exact ⟨_, u, hfound.bind (runs_log_bind.mpr (runs_fail _ u))⟩

theorem requireAll_runs (table : String) (targets : List String) (s : σ) :
    ∃ r u, Runs db.dialect (requireAll db.recorded table targets) s r [] u := by
  induction targets generalizing s with
  | nil => exact ⟨_, s, runs_pure () s⟩
  | cons target targets ih =>
    obtain ⟨r, u, hfirst⟩ := requireReferenced_runs db table target s
    cases r with
    | error e => exact ⟨_, u, hfirst.bind_error⟩
    | ok _ =>
      obtain ⟨r, v, hrest⟩ := ih u
      exact ⟨r, v, hfirst.bind hrest⟩

/-- What an attempt at the table has run when it ends: what it answers, or some of the columns that
it was to add. -/
inductive Accounts (t : Table) : Except Error TableSync → List Change → Prop
  | created : Accounts t (.ok .created) [.create t]
  | altered {columns : List (String × Column)} (h : columns.Sublist t.columns.entries) :
    Accounts t (.ok (.altered (columns.map Prod.fst))) (columns.map (Change.ofColumn t))
  | unchanged : Accounts t (.ok .unchanged) []
  | stopped {e : Error} {columns : List (String × Column)} (h : columns.Sublist t.columns.entries) :
    Accounts t (.error e) (columns.map (Change.ofColumn t))

theorem Accounts.refused (t : Table) (e : Error) : Accounts t (.error e) [] :=
  .stopped (List.nil_sublist _)

theorem createTable_runs (t : Table) (s : σ) : ∃ r changes u,
    Runs db.dialect (createTable db.recorded t) s r changes u ∧ Accounts t r changes := by
  obtain ⟨r, u, hrefs⟩ := requireAll_runs db t.name t.dependencies s
  cases r with
  | error e => exact ⟨_, _, u, hrefs.bind_error, .refused t e⟩
  | ok _ =>
    obtain ⟨r, v, hexec⟩ := runs_execute db (.create t) u
    cases r with
    | error e =>
      exact ⟨_, _, v, hrefs.bind (runs_log_bind.mpr hexec.bind_error), .refused t e⟩
    | ok n =>
      refine ⟨.ok .created, [.create t], v, hrefs.bind (runs_log_bind.mpr ?_), .created⟩
      exact hexec.bind (runs_log_bind.mpr (runs_pure _ v))

/-- The columns are added in order up to the first that is refused. -/
theorem addColumns_runs (t : Table) (columns : List (String × Column)) (s : σ) :
    ∃ r added u, Runs db.dialect (addColumns db.recorded t columns) s r
        (added.map (Change.ofColumn t)) u ∧ added <+: columns ∧ (r = .ok () → added = columns) := by
  induction columns generalizing s with
  | nil => exact ⟨_, [], s, runs_pure () s, List.nil_prefix, fun _ => rfl⟩
  | cons e columns ih =>
    obtain ⟨r, u, hexec⟩ := runs_execute db (.ofColumn t e) s
    cases r with
    | error e' =>
      exact ⟨_, [], u, runs_log_bind.mpr hexec.bind_error, List.nil_prefix, nofun⟩
    | ok n =>
      obtain ⟨r, added, v, hrest, hprefix, hall⟩ := ih u
      refine ⟨r, e :: added, v, ?_, List.cons_prefix_cons.mpr ⟨rfl, hprefix⟩, fun hr => ?_⟩
      · exact runs_log_bind.mpr (hexec.bind (runs_log_bind.mpr hrest))
      · rw [hall hr]

theorem alterTable_runs (t : Table) (s : σ) : ∃ r changes u,
    Runs db.dialect (alterTable db.recorded t) s r changes u ∧ Accounts t r changes := by
  obtain ⟨r, u, hlive⟩ := liveColumns_runs db t.name s
  cases r with
  | error e => exact ⟨_, _, u, runs_log_bind.mpr hlive.bind_error, .refused t e⟩
  | ok live =>
    obtain ⟨r, v, hrefs⟩ := requireAll_runs db t.name
      ((missingColumns t live).filterMap fun e => e.2.reference.map Reference.table) u
    cases r with
    | error e =>
      exact ⟨_, _, v, runs_log_bind.mpr (hlive.bind hrefs.bind_error), .refused t e⟩
    | ok _ =>
      obtain ⟨r, added, w, hadd, hprefix, hall⟩ := addColumns_runs db t (missingColumns t live) v
      have hsub : added.Sublist t.columns.entries := hprefix.sublist.trans List.filter_sublist
      cases r with
      | error e =>
        refine ⟨.error e, _, w, runs_log_bind.mpr ?_, .stopped hsub⟩
        exact hlive.bind (hrefs.bind hadd.bind_error)
      | ok _ =>
        obtain rfl := hall rfl
        let missing := missingColumns t live
        have hruns : Runs db.dialect (alterTable db.recorded t) s
            (.ok (if missing.isEmpty then .unchanged else .altered (missing.map Prod.fst)))
            (missing.map (Change.ofColumn t) ++ []) w :=
          runs_log_bind.mpr (hlive.bind (hrefs.bind (hadd.bind (runs_pure _ w))))
        rw [List.append_nil] at hruns
        refine ⟨_, _, w, hruns, ?_⟩
        cases hmissing : missing with
        | nil => exact .unchanged
        | cons e columns => exact .altered (hmissing ▸ hsub)

theorem syncTable_runs (t : Table) (s : σ) : ∃ r changes u,
    Runs db.dialect (syncTable db.recorded t) s r changes u ∧ Accounts t r changes := by
  obtain ⟨r, u, hfound⟩ := tableExists_runs db t.name s
  cases r with
  | error e => exact ⟨_, _, u, hfound.bind_error, .refused t e⟩
  | ok found =>
    cases found with
    | true =>
      obtain ⟨r, changes, v, hruns, haccounts⟩ := alterTable_runs db t u
      exact ⟨r, changes, v, hfound.bind hruns, haccounts⟩
    | false =>
      obtain ⟨r, changes, v, hruns, haccounts⟩ := createTable_runs db t u
      exact ⟨r, changes, v, hfound.bind hruns, haccounts⟩

end Table

/-- The table that an attempt with this result adds to the report. -/
def createdBy (table : String) : Except Error TableSync → List String
  | .ok .created => [table]
  | _ => []

/-- The columns that an attempt with this result adds to the report. -/
def alteredBy (table : String) : Except Error TableSync → List (String × String)
  | .ok (.altered columns) => columns.map fun c => (table, c)
  | _ => []

namespace Attempt

def created (a : Attempt) : List String := createdBy a.table.name a.result

def altered (a : Attempt) : List (String × String) := alteredBy a.table.name a.result

end Attempt

/-- The second report is the first one with the attempts that followed. -/
structure Extends (report : SyncReport) (tried : List Attempt) (report' : SyncReport) : Prop where
  created : report'.created = report.created ++ tried.flatMap Attempt.created
  altered : report'.altered = report.altered ++ tried.flatMap Attempt.altered

theorem Extends.refl {report report' : SyncReport} (hc : report'.created = report.created)
    (ha : report'.altered = report.altered) : Extends report [] report' :=
  ⟨by simp [hc], by simp [ha]⟩

theorem Extends.append {report report' report'' : SyncReport} {tried more : List Attempt}
    (h : Extends report tried report') (h' : Extends report' more report'') :
    Extends report (tried ++ more) report'' :=
  ⟨by simp [h'.created, h.created], by simp [h'.altered, h.altered]⟩

theorem extends_add {a : Attempt} {done : TableSync} (h : a.result = .ok done)
    (report : SyncReport) : Extends report [a] (report.add a.table.name done) := by
  cases done <;> exact ⟨by simp [Attempt.created, createdBy, SyncReport.add, h],
    by simp [Attempt.altered, alteredBy, SyncReport.add, h]⟩

theorem extends_error {a : Attempt} {e : Error} (h : a.result = .error e) (report : SyncReport) :
    Extends report [a] report :=
  ⟨by simp [Attempt.created, createdBy, h], by simp [Attempt.altered, alteredBy, h]⟩

section Report

variable {db : Adapter σ} {s u : σ}

theorem Tries.split {tried more : List Attempt} (h : Tries db s (tried ++ more) u) :
    ∃ v, Tries db s tried v ∧ Tries db v more u := by
  induction tried generalizing s with
  | nil => exact ⟨s, .nil, h⟩
  | cons a tried ih =>
    cases h with
    | cons ha hrest =>
      obtain ⟨v, htried, hmore⟩ := ih hrest
      exact ⟨v, .cons ha htried, hmore⟩

/-- A complete pass hands on the report with its attempts. -/
theorem Tries.syncPass_extends {pass : List Attempt} (h : Tries db s pass u) {pending : List Table}
    (hp : Complete pending pass) (report : SyncReport) : ∃ report', Extends report pass report' ∧
      ∀ log, (syncPass db.recorded pending report).Ends (s, log) (.ok (failed pass, report'))
        (u, log ++ pass.flatMap Attempt.calls) := by
  obtain ⟨rfl, hfatal⟩ := hp
  induction h generalizing report with
  | nil => exact ⟨report, .refl rfl rfl, fun log => by simp [syncPass, failed]⟩
  | @cons s v u a rest ha _ ih =>
    obtain ⟨hfirst, hrest⟩ := List.forall_mem_cons.mp hfatal
    cases hresult : a.result with
    | ok done =>
      obtain ⟨report', hextends, hends⟩ := ih (report.add a.table.name done) hrest
      have hfailed : failed (a :: rest) = failed rest := by
        simp [failed, Attempt.succeeded, hresult]
      refine ⟨report', (extends_add hresult report).append hextends, fun log => ?_⟩
      rw [hfailed, List.flatMap_cons, ← List.append_assoc]
      exact syncPass_synced (hresult ▸ ha log) (hends _)
    | error e =>
      obtain ⟨report', hextends, hends⟩ := ih report hrest
      have hfailed : failed (a :: rest) = a.table :: failed rest := by
        simp [failed, Attempt.succeeded, hresult]
      have hundefined : e.isUndefinedRelation = true := by simpa [Attempt.isFatal, hresult] using hfirst
      refine ⟨report', (extends_error hresult report).append hextends, fun log => ?_⟩
      rw [hfailed, List.flatMap_cons, ← List.append_assoc]
      exact syncPass_postponed (hresult ▸ ha log) hundefined (hends _)

/-- A run that succeeds reports its attempts. -/
theorem Course.syncPasses_extends {made budget : Nat} {pending : List Table}
    {passes : List (List Attempt)} {last : SyncReport}
    (h : Course made pending passes (.ok last)) (htries : Tries db s passes.flatten u)
    (hbudget : pending.length ≤ budget) (report : SyncReport) :
    ∃ report', Extends report passes.flatten report' ∧
      ∀ log, (syncPasses db.recorded budget pending report).Ends (s, log) (.ok report')
        (u, log ++ passes.flatten.flatMap Attempt.calls) := by
  generalize hr : (.ok last : Except Error SyncReport) = r at h
  induction h generalizing s report budget with
  | converged =>
    cases htries
    refine ⟨report, .refl rfl rfl, fun log => ?_⟩
    rw [syncPasses_nil, List.flatten_nil, List.flatMap_nil, List.append_nil]
    exact ⟨rfl, rfl⟩
  | @next made pending pass passes r hp hs _ ih =>
    obtain ⟨v, hpass, hrest⟩ := htries.split
    obtain ⟨report', hextends, hends⟩ :=
      hpass.syncPass_extends hp { report with passes := report.passes + 1 }
    have hlt := hp.length_failed_lt hs
    cases budget with
    | zero => omega
    | succ budget =>
      have hshorter : (failed pass).length ≤ budget := by omega
      obtain ⟨t, rest, rfl⟩ := List.exists_cons_of_length_pos (Nat.zero_lt_of_lt hlt)
      obtain ⟨report'', hextends', hends'⟩ := ih hrest hshorter report' hr
      have hfirst : Extends report pass report' := ⟨hextends.created, hextends.altered⟩
      refine ⟨report'', hfirst.append hextends', fun log => ?_⟩
      rw [List.flatten_cons, List.flatMap_append, ← List.append_assoc]
      exact syncPasses_again (hends log) (Nat.ne_of_lt hlt) (hends' _)
  | _ => cases hr

end Report

section Accounts

variable {t : Table} {r : Except Error TableSync} {changes : List Change}

theorem filterMap_created?_ofColumn (t : Table) (columns : List (String × Column)) :
    (columns.map (Change.ofColumn t)).filterMap Change.created? = [] := by
  simp [List.filterMap_map, Change.ofColumn, Change.created?, Function.comp_def]

theorem filterMap_added?_ofColumn (t : Table) (columns : List (String × Column)) :
    (columns.map (Change.ofColumn t)).filterMap Change.added? =
      columns.map fun e => (t.name, e.1) := by
  simp [List.filterMap_map, Change.ofColumn, Change.added?, Function.comp_def]

/-- No attempt fails after it has created its table. -/
theorem Accounts.created_eq (h : Accounts t r changes) :
    changes.filterMap Change.created? = createdBy t.name r := by
  cases h with
  | created | unchanged => rfl
  | altered | stopped => exact filterMap_created?_ofColumn t _

theorem Accounts.altered_eq {done : TableSync} (h : Accounts t (.ok done) changes) :
    changes.filterMap Change.added? = alteredBy t.name (.ok done) := by
  cases h with
  | created | unchanged => rfl
  | altered =>
    rw [filterMap_added?_ofColumn, alteredBy, List.map_map]
    rfl

/-- All that an attempt had run before it failed is columns. -/
theorem Accounts.length_added {e : Error} (h : Accounts t (.error e) changes) :
    (changes.filterMap Change.added?).length = changes.length := by
  cases h with
  | stopped => rw [filterMap_added?_ofColumn, List.length_map, List.length_map]

end Accounts

/-- An attempt with the changes that it had run when it ended. -/
structure Deed (d : Dialect) extends Attempt where
  changes : List Change
  ran : statements calls = changes.map (Change.sql d)
  accounts : Accounts table result changes

theorem Tries.deeds {db : Adapter σ} {s u : σ} {tried : List Attempt} (h : Tries db s tried u) :
    ∃ deeds : List (Deed db.dialect), deeds.map Deed.toAttempt = tried := by
  induction h with
  | nil => exact ⟨[], rfl⟩
  | @cons s _ _ a _ ha _ ih =>
    obtain ⟨deeds, rfl⟩ := ih
    obtain ⟨r, changes, v, ⟨calls, hmakes, hcalls⟩, haccounts⟩ := syncTable_runs db a.table s
    obtain ⟨rfl, -, rfl⟩ := hmakes.unique ha
    exact ⟨⟨a, changes, hcalls, haccounts⟩ :: deeds, rfl⟩

section Deeds

variable {d : Dialect}

/-- All changes of the attempts, in order. -/
def changesOf (deeds : List (Deed d)) : List Change := deeds.flatMap Deed.changes

/-- The changes that were made before their attempt failed. -/
def lost (deeds : List (Deed d)) : List Change :=
  changesOf (deeds.filter fun x => !x.succeeded)

variable (deeds : List (Deed d))

theorem statements_deeds : statements ((deeds.map Deed.toAttempt).flatMap Attempt.calls) =
    (changesOf deeds).map (Change.sql d) := by
  simp only [statements, changesOf, List.flatMap_map, List.filterMap_flatMap, List.map_flatMap]
  exact List.flatMap_congr fun x _ => x.ran

theorem created_deeds : (deeds.map Deed.toAttempt).flatMap Attempt.created =
    (changesOf deeds).filterMap Change.created? := by
  simp only [changesOf, List.flatMap_map, List.filterMap_flatMap]
  exact List.flatMap_congr fun x _ => x.accounts.created_eq.symm

/-- The report keeps the order of the additions, and falls short by those that were lost. -/
theorem altered_deeds :
    ((deeds.map Deed.toAttempt).flatMap Attempt.altered).Sublist
        ((changesOf deeds).filterMap Change.added?) ∧
      ((changesOf deeds).filterMap Change.added?).length =
        ((deeds.map Deed.toAttempt).flatMap Attempt.altered).length + (lost deeds).length := by
  induction deeds with
  | nil => exact ⟨.slnil, rfl⟩
  | cons x deeds ih =>
    obtain ⟨hsub, hlength⟩ := ih
    simp only [changesOf, lost, List.flatMap_cons, List.filterMap_append, List.map_cons,
      List.length_append, List.filter_cons] at hsub hlength ⊢
    have haccounts := x.accounts
    cases hresult : x.result with
    | ok done =>
      rw [hresult] at haccounts
      have hadded : x.altered = x.changes.filterMap Change.added? := by
        rw [haccounts.altered_eq, Attempt.altered, hresult]
      have hs : x.succeeded = true := by simp [Attempt.succeeded, hresult]
      rw [hadded]
      refine ⟨hsub.append_left _, ?_⟩
      simp only [hs, Bool.not_true, Bool.false_eq_true, if_false]
      omega
    | error e =>
      rw [hresult] at haccounts
      have hnone : x.altered = [] := by simp [Attempt.altered, alteredBy, hresult]
      have hs : x.succeeded = false := by simp [Attempt.succeeded, hresult]
      rw [hnone]
      refine ⟨hsub.trans (List.sublist_append_right _ _), ?_⟩
      simp only [hs, Bool.not_false, if_true, List.flatMap_cons, List.length_append,
        List.length_nil, haccounts.length_added]
      omega

end Deeds

/-- A synchronisation that succeeds reports each table that was created and each column that was
added by an attempt that succeeded, in the order in which their statements were run. Columns that
an attempt had added before it was postponed are missing from the report: it names every statement
that was run just if there are none of these. -/
theorem sync_reports (db : Adapter σ) (registered : List Table) {s u : σ} {report : SyncReport}
    (h : (sync db (.ofList registered)).Ends s (.ok report) u) :
    ∃ deeds : List (Deed db.dialect), Tries db s (deeds.map Deed.toAttempt) u ∧
      ∃ calls, (sync db.recorded (.ofList registered)).Makes s (.ok report) calls u ∧
        calls = (deeds.map Deed.toAttempt).flatMap Attempt.calls ∧
        statements calls = (changesOf deeds).map (Change.sql db.dialect) ∧
        report.created = (changesOf deeds).filterMap Change.created? ∧
        report.altered.Sublist ((changesOf deeds).filterMap Change.added?) ∧
        (report.altered = (changesOf deeds).filterMap Change.added? ↔ lost deeds = []) := by
  let schema := Schema.ofList registered
  have hbudget := Nat.le_mul_of_pos_left schema.toList.length Nat.two_pos
  obtain ⟨passes, r, v, htries, hcourse, hends⟩ := syncPasses_course db hbudget .empty s
  obtain ⟨calls, hplain⟩ := (sync_records db schema).makes s
  have hmakes : (sync db.recorded schema).Makes s r (passes.flatten.flatMap Attempt.calls) v :=
    fun log => sync_of_syncPasses (hends log)
  rw [h.1, h.2] at hplain
  obtain ⟨rfl, rfl, rfl⟩ := hplain.unique hmakes
  obtain ⟨report', hextends, hends'⟩ := hcourse.syncPasses_extends htries hbudget .empty
  obtain ⟨hreport, -⟩ := (hends []).unique (hends' [])
  obtain rfl := Except.ok.inj hreport
  obtain ⟨deeds, hdeeds⟩ := htries.deeds
  rw [← hdeeds] at hextends hmakes htries
  have hcreated : report.created = (changesOf deeds).filterMap Change.created? :=
    hextends.created.trans (created_deeds deeds)
  have haltered : report.altered = (deeds.map Deed.toAttempt).flatMap Attempt.altered :=
    hextends.altered
  obtain ⟨hsub, hlength⟩ := altered_deeds deeds
  rw [← haltered] at hsub hlength
  refine ⟨deeds, htries, _, hmakes, rfl, statements_deeds deeds, hcreated, hsub, fun heq => ?_,
    fun hlost => hsub.eq_of_length ?_⟩
  · have hlen := congrArg List.length heq
    exact List.eq_nil_of_length_eq_zero (by omega)
  · rw [hlength, hlost, List.length_nil, Nat.add_zero]

/-- A database in which the table that `author_id` refers to is gone for a moment: the statement that
adds this column fails once. -/
def vanishing : Scripted.State :=
  .start (.ofList [("notes", [Scripted.columnRow "id"]), ("users", [Scripted.columnRow "id"])])
    [⟨.execute, "ADD COLUMN \"author_id\"", some 1,
      .undefinedTable "relation \"users\" does not exist"⟩] [] []

/-- Two columns are to be added to the first table; the second of them refers to the other table. -/
def annotated : List Table :=
  [(((Table.ofName "notes").column "id" (Column.ofType .integer)).column "title"
      (Column.ofType .text)).column "author_id" ((Column.ofType .integer).references "users" "id"),
    (Table.ofName "users").column "id" (Column.ofType .integer)]

/-- The first pass adds `title` and is refused `author_id`; the second finds `title` in the catalog. -/
theorem vanishing_makes : ∃ calls u,
    (sync (Scripted.adapter .postgres).recorded (.ofList annotated)).Makes vanishing
      (.ok ⟨2, [], [("notes", "author_id")]⟩) calls u ∧
    statements calls = ["ALTER TABLE \"notes\" ADD COLUMN \"title\" TEXT",
      "ALTER TABLE \"notes\" ADD COLUMN \"author_id\" INTEGER REFERENCES \"users\"(\"id\")"] := by
  let run := sync (Scripted.adapter .postgres).recorded (.ofList annotated) (vanishing, [])
  have hrun : (run.answer.toOption, statements run.state.2) =
      (some ⟨2, [], [("notes", "author_id")]⟩,
        ["ALTER TABLE \"notes\" ADD COLUMN \"title\" TEXT",
          "ALTER TABLE \"notes\" ADD COLUMN \"author_id\" INTEGER REFERENCES \"users\"(\"id\")"]) := by
    decide +kernel
  obtain ⟨hanswer, hstatements⟩ := Prod.mk.inj hrun
  obtain ⟨calls, hmakes⟩ := (sync_records (Scripted.adapter .postgres) (.ofList annotated)).makes
    vanishing
  obtain ⟨hr, hcalls⟩ := hmakes []
  have hlog : run.state.2 = calls := congrArg Prod.snd hcalls
  rw [hlog] at hstatements
  change run.answer = _ at hr
  rw [hr] at hanswer
  generalize (sync (Scripted.adapter .postgres) (.ofList annotated) vanishing).answer = r
    at hmakes hanswer
  cases r with
  | error e => cases hanswer
  | ok report =>
    obtain rfl := Option.some.inj hanswer
    exact ⟨calls, _, hmakes, hstatements⟩

/-- A run that succeeds in its second pass, and reports the column that this pass added. -/
theorem sync_reports_vanishing :
    ∃ (u : Scripted.State) (report : SyncReport) (deeds : List (Deed .postgres)),
      (sync (Scripted.adapter .postgres) (.ofList annotated)).Ends vanishing (.ok report) u ∧
      Tries (Scripted.adapter .postgres) vanishing (deeds.map Deed.toAttempt) u ∧
      report.altered = [("notes", "author_id")] ∧
      report.altered.Sublist ((changesOf deeds).filterMap Change.added?) := by
  obtain ⟨calls, u, hmakes, -⟩ := vanishing_makes
  obtain ⟨more, hplain⟩ := (sync_records (Scripted.adapter .postgres) (.ofList annotated)).makes
    vanishing
  obtain ⟨hr, hu, -⟩ := hmakes.unique hplain
  obtain ⟨deeds, htries, _, -, -, -, -, hsub, -⟩ :=
    sync_reports (Scripted.adapter .postgres) annotated ⟨hr.symm, hu.symm⟩
  exact ⟨u, _, deeds, ⟨hr.symm, hu.symm⟩, htries, rfl, hsub⟩

/-- Two statements were run with success, and the report of the run names one of them. -/
theorem title_unreported :
    ∃ report calls u,
      (sync (Scripted.adapter .postgres).recorded (.ofList annotated)).Makes vanishing (.ok report)
        calls u ∧
      report.created = [] ∧ report.altered = [("notes", "author_id")] ∧
      statements calls = ["ALTER TABLE \"notes\" ADD COLUMN \"title\" TEXT",
        "ALTER TABLE \"notes\" ADD COLUMN \"author_id\" INTEGER REFERENCES \"users\"(\"id\")"] ∧
      report.created.length + report.altered.length < (statements calls).length := by
  obtain ⟨calls, u, hmakes, hstatements⟩ := vanishing_makes
  refine ⟨_, calls, u, hmakes, rfl, rfl, hstatements, ?_⟩
  rw [hstatements]
  decide

end Relata.Migration
