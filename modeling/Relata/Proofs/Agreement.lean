import Relata.Proofs.Calls
import Relata.Proofs.Stuck

/-!
Databases that refuse statements about missing tables, and databases that do not. Main statement: a
synchronisation makes the same calls to both, with the same answers and the same result, as every
statement that it sends refers to tables that are there at that moment, or to its own.
-/
namespace Relata

namespace Ddl

/-- The tables that the statement refers to. -/
def targets : Ddl → List String
  | .create _ _ refs => refs.map Reference.table
  | .addColumn _ _ ref => ref.toList.map Reference.table

def table : Ddl → String
  | .create t _ _ => t
  | .addColumn t _ _ => t

variable {c : Catalog} {ddl : Ddl} {n : String}

/-- No statement takes a table away. -/
theorem contains_apply (h : c.contains n = true) : (ddl.apply c).contains n = true := by
  cases ddl with
  | create t columns refs =>
    by_cases ht : c.contains t = true
    · simpa only [apply, if_pos ht] using h
    · simp only [apply, if_neg ht, Catalog.contains_insert, h, Bool.or_true]
  | addColumn t column ref =>
    cases ht : c.get? t with
    | none => simpa only [apply, ht] using h
    | some live => simp only [apply, ht, Catalog.contains_insert, h, Bool.or_true]

theorem contains_apply_table (h : ddl.admits c = true) :
    (ddl.apply c).contains ddl.table = true := by
  cases ddl with
  | create t columns refs =>
    by_cases ht : c.contains t = true
    · rwa [apply, if_pos ht]
    · simp [apply, table, if_neg ht, Catalog.contains_insert]
  | addColumn t column ref => exact contains_apply (Bool.and_eq_true_iff.mp h).1

theorem eq_table_or_contains (h : ddl.admits c = true) (hn : n ∈ ddl.targets) :
    n = ddl.table ∨ c.contains n = true := by
  cases ddl with
  | create t columns refs =>
    obtain ⟨r, hr, rfl⟩ := List.mem_map.mp hn
    simpa [table] using List.all_eq_true.mp h r hr
  | addColumn t column ref =>
    obtain ⟨r, hr, rfl⟩ := List.mem_map.mp hn
    have href := (Bool.and_eq_true_iff.mp h).2
    rw [Option.mem_toList.mp hr] at href
    simpa [table] using href

/-- A statement that is admitted refers to nothing that is missing once it has been run. -/
theorem contains_targets (h : ddl.admits c = true) (hn : n ∈ ddl.targets) :
    (ddl.apply c).contains n = true := by
  rcases eq_table_or_contains h hn with rfl | hlive
  · exact contains_apply_table h
  · exact contains_apply hlive

end Ddl

namespace Catalog

open Migration Relata.Action

/-- The calls lead from one catalog to another: each is answered, a query changes nothing, and a
statement refers to tables that are there at that moment, or to its own. -/
inductive Sends : Catalog → List Call → Catalog → Prop
  | nil {c : Catalog} : Sends c [] c
  | query {c c' : Catalog} {calls : List Call} {sql : String} {params : List Value}
    {rows : List Row} (hrest : Sends c calls c') : Sends c (.queryWith sql params (.ok rows) :: calls) c'
  | define {c c' : Catalog} {calls : List Call} {sql : String} {ddl : Ddl} {n : Nat}
    (h : Ddl.ofSql? sql = some ddl) (ha : ddl.admits c = true)
    (hrest : Sends (ddl.apply c) calls c') :
    Sends c (.execute sql (.ok n) :: calls) c'

variable {c c' u : Catalog} {calls more : List Call}

theorem Sends.append (h : Sends c calls u) (h' : Sends u more c') : Sends c (calls ++ more) c' := by
  induction h with
  | nil => exact h'
  | query _ ih => exact .query (ih h')
  | define h ha _ ih => exact .define h ha (ih h')

theorem Sends.contains_mono (h : Sends c calls c') {n : String} (hn : c.contains n = true) :
    c'.contains n = true := by
  induction h with
  | nil => exact hn
  | query _ ih => exact ih hn
  | define _ _ _ ih => exact ih (Ddl.contains_apply hn)

/-- Nothing that was sent is left with a reference to a missing table. -/
theorem Sends.contains_targets (h : Sends c calls c') {sql : String} {answer : Except Error Nat}
    (hcall : Call.execute sql answer ∈ calls) :
    ∃ ddl, Ddl.ofSql? sql = some ddl ∧ ∀ n ∈ ddl.targets, c'.contains n = true := by
  induction h with
  | nil => cases hcall
  | query _ ih =>
    rcases List.mem_cons.mp hcall with heq | hmem
    · cases heq
    · exact ih hmem
  | define h ha hrest ih =>
    rcases List.mem_cons.mp hcall with heq | hmem
    · cases heq
      exact ⟨_, h, fun n hn => hrest.contains_mono (Ddl.contains_targets ha hn)⟩
    · exact ih hmem

/-- The databases differ at most in what they make of statements that refer to missing tables. -/
structure Alike (db db' : Adapter Catalog) : Prop where
  dialect : db'.dialect = db.dialect
  queries : db'.queryWith = db.queryWith
  definitions {c : Catalog} {sql : String} {ddl : Ddl} (h : Ddl.IsSent db.dialect ddl sql)
    (ha : ddl.admits c = true) : db'.execute sql c = db.execute sql c

/-- Both actions make the same calls and end alike. -/
def Agree {α : Type} (a a' : Action (Catalog × List Call) α) (c : Catalog) (r : Except Error α)
    (c' : Catalog) : Prop :=
  ∃ calls, a.Makes c r calls c' ∧ a'.Makes c r calls c' ∧ Sends c calls c'

section Agree

variable {α β : Type} {a a' : Action (Catalog × List Call) α}
  {f f' : α → Action (Catalog × List Call) β}

theorem agree_pure (x : α) (c : Catalog) :
    Agree (Pure.pure x) (Pure.pure x) c (.ok x) c :=
  ⟨[], makes_pure x c, makes_pure x c, .nil⟩

theorem agree_fail (e : Error) (c : Catalog) :
    Agree (fail e : Action (Catalog × List Call) α) (fail e) c (.error e) c :=
  ⟨[], makes_fail e c, makes_fail e c, .nil⟩

theorem Agree.bind {x : α} {r : Except Error β} (h : Agree a a' c (.ok x) u)
    (h' : Agree (f x) (f' x) u r c') : Agree (a >>= f) (a' >>= f') c r c' := by
  obtain ⟨calls, h₁, h₂, hsends⟩ := h
  obtain ⟨more, h₁', h₂', hsends'⟩ := h'
  exact ⟨calls ++ more, h₁.bind h₁', h₂.bind h₂', hsends.append hsends'⟩

theorem Agree.bind_error {e : Error} (h : Agree a a' c (.error e) c') :
    Agree (a >>= f) (a' >>= f') c (.error e) c' := by
  obtain ⟨calls, h₁, h₂, hsends⟩ := h
  exact ⟨calls, h₁.bind_error, h₂.bind_error, hsends⟩

theorem Agree.attempt_bind {g g' : Except Error α → Action (Catalog × List Call) β}
    {q : Except Error α} {r : Except Error β} (h : Agree a a' c q u)
    (h' : Agree (g q) (g' q) u r c') : Agree (a.attempt >>= g) (a'.attempt >>= g') c r c' := by
  obtain ⟨calls, h₁, h₂, hsends⟩ := h
  obtain ⟨more, h₁', h₂', hsends'⟩ := h'
  exact ⟨calls ++ more, h₁.attempt_bind h₁', h₂.attempt_bind h₂', hsends.append hsends'⟩

@[simp] theorem agree_log_bind {level : Level} {message : String}
    {fields fields' : List (String × String)} {g g' : Unit → Action (Catalog × List Call) β}
    {r : Except Error β} :
    Agree (log level message fields >>= g) (log level message fields' >>= g') c r c' ↔
      Agree (g ()) (g' ()) c r c' := by
  simp only [Agree, makes_log_bind]

end Agree

section Runs

variable {db db' : Adapter Catalog} (h : Keeps db) (halike : Alike db db') {t : Table}

include halike

theorem query_agree {sql : String} {params : List Value} {rows : List Row}
    (hrows : (db.queryWith sql params).Ends c (.ok rows) c) :
    Agree (db.recorded.queryWith sql params) (db'.recorded.queryWith sql params) c (.ok rows)
      c := by
  have hrows' : (db'.queryWith sql params).Ends c (.ok rows) c := by rwa [halike.queries]
  exact ⟨_, makes_noting hrows _, makes_noting hrows' _, .query .nil⟩

include h

theorem execute_agree {sql : String} {ddl : Ddl} (hddl : Ddl.IsSent db.dialect ddl sql)
    (ha : ddl.admits c = true) :
    ∃ n, Agree (db.recorded.execute sql) (db'.recorded.execute sql) c (.ok n) (ddl.apply c) := by
  obtain ⟨n, hexec⟩ := h.execute hddl ha
  have hexec' : (db'.execute sql).Ends c (.ok n) (ddl.apply c) := by
    rwa [Action.Ends, halike.definitions hddl ha]
  exact ⟨n, _, makes_noting hexec _, makes_noting hexec' _, .define hddl.read ha .nil⟩

theorem tableExists_agree (c : Catalog) (name : String) :
    Agree (tableExists db.recorded name) (tableExists db'.recorded name) c
      (.ok (c.contains name)) c := by
  have hdialect : db'.recorded.dialect = db.recorded.dialect := halike.dialect
  obtain ⟨rows, hrows, hempty⟩ := h.tables c name
  unfold tableExists
  rw [hdialect]
  refine (query_agree halike hrows).bind ?_
  rw [hempty, Bool.not_not]
  exact agree_pure _ c

theorem liveColumns_agree {name : String} {live : List String} (hc : c.get? name = some live) :
    Agree (liveColumns db.recorded name) (liveColumns db'.recorded name) c
      (.ok (live.map Text.lower)) c := by
  have hdialect : db'.recorded.dialect = db.recorded.dialect := halike.dialect
  obtain ⟨rows, hrows, hlive⟩ := h.columns hc
  unfold liveColumns
  rw [hdialect]
  refine (query_agree halike hrows).bind ?_
  rw [← filterMap_liveColumn? hlive]
  exact agree_pure _ c

theorem requireReferenced_agree (c : Catalog) (table target : String) :
    Agree (requireReferenced db.recorded table target) (requireReferenced db'.recorded table target)
      c (if target = table ∨ c.contains target = true then .ok () else .error (missingTable target))
      c := by
  unfold requireReferenced
  by_cases heq : target = table
  · simpa only [if_pos heq, heq, true_or, if_true] using agree_pure () c
  · simp only [heq, false_or]
    refine (tableExists_agree h halike c target).bind ?_
    cases c.contains target with
    | true => exact agree_pure () c
    | false => exact agree_log_bind.mpr (agree_fail _ c)

/-- Where all references are found, they are there. -/
theorem requireAll_agree (c : Catalog) (table : String) (targets : List String) :
    ∃ r, Agree (requireAll db.recorded table targets) (requireAll db'.recorded table targets) c r
        c ∧
      (r = .ok () → ∀ d ∈ targets, d = table ∨ c.contains d = true) := by
  induction targets with
  | nil => exact ⟨.ok (), agree_pure () c, by simp⟩
  | cons d targets ih =>
    have hd := requireReferenced_agree h halike c table d
    by_cases hready : d = table ∨ c.contains d = true
    · rw [if_pos hready] at hd
      obtain ⟨r, hrest, hall⟩ := ih
      exact ⟨r, hd.bind hrest, fun hr => List.forall_mem_cons.mpr ⟨hready, hall hr⟩⟩
    · rw [if_neg hready] at hd
      exact ⟨_, hd.bind_error, nofun⟩

/-- Where all references are there, every statement is admitted when it is sent. -/
theorem addColumns_agree {columns : List (String × Column)} (hc : c.contains t.name = true)
    (hr : ∀ e ∈ columns, ∀ r ∈ e.2.reference, r.table = t.name ∨ c.contains r.table = true) :
    ∃ c', Agree (addColumns db.recorded t columns) (addColumns db'.recorded t columns) c (.ok ())
      c' := by
  have hdialect : db'.recorded.dialect = db.recorded.dialect := halike.dialect
  induction columns generalizing c with
  | nil => exact ⟨c, agree_pure () c⟩
  | cons e columns ih =>
    let ddl : Ddl := .addColumn t.name e.1 e.2.reference
    have hadmit : ddl.admits c = true := by
      refine Bool.and_eq_true_iff.mpr ⟨hc, ?_⟩
      cases href : e.2.reference with
      | none => rfl
      | some r => simpa using hr e List.mem_cons_self r href
    obtain ⟨n, hexec⟩ := execute_agree h halike (.addColumn t e.1 e.2) hadmit
    obtain ⟨c', hrest⟩ := ih (c := ddl.apply c) (Ddl.contains_apply hc) fun e' he' r hr' =>
      (hr e' (List.mem_cons_of_mem e he') r hr').imp_right Ddl.contains_apply
    refine ⟨c', ?_⟩
    unfold addColumns
    rw [hdialect]
    exact agree_log_bind.mpr (hexec.bind (agree_log_bind.mpr hrest))

theorem createTable_agree (c : Catalog) (t : Table) :
    ∃ r c', Agree (createTable db.recorded t) (createTable db'.recorded t) c r c' := by
  have hdialect : db'.recorded.dialect = db.recorded.dialect := halike.dialect
  obtain ⟨r, hall, hready⟩ := requireAll_agree h halike c t.name t.dependencies
  unfold createTable
  rw [hdialect]
  cases r with
  | error e => exact ⟨_, c, hall.bind_error⟩
  | ok _ =>
    let ddl : Ddl := .create t.name t.columnNames (t.references.map Prod.snd)
    have hadmit : ddl.admits c = true := by
      refine List.all_eq_true.mpr fun r hmem => ?_
      obtain ⟨e, he, rfl⟩ := List.mem_map.mp hmem
      simpa using hready rfl e.2.table (List.mem_map_of_mem he)
    obtain ⟨n, hexec⟩ := execute_agree h halike (.create t) hadmit
    refine ⟨.ok .created, ddl.apply c, hall.bind (agree_log_bind.mpr (hexec.bind ?_))⟩
    refine agree_log_bind.mpr ?_
    exact agree_pure TableSync.created _

theorem alterTable_agree (hc : c.contains t.name = true) :
    ∃ r c', Agree (alterTable db.recorded t) (alterTable db'.recorded t) c r c' := by
  obtain ⟨live, hlive⟩ := contains_iff.mp hc
  obtain ⟨r, hall, hready⟩ := requireAll_agree h halike c t.name
    ((missingColumns t (live.map Text.lower)).filterMap fun e => e.2.reference.map Reference.table)
  have hcolumns := liveColumns_agree h halike hlive
  unfold alterTable
  cases r with
  | error e => exact ⟨_, c, agree_log_bind.mpr (hcolumns.bind hall.bind_error)⟩
  | ok _ =>
    obtain ⟨c', hadd⟩ := addColumns_agree h halike hc fun e he r href =>
      hready rfl r.table (List.mem_filterMap.mpr ⟨e, he, by simp [Option.mem_def.mp href]⟩)
    exact ⟨_, c', agree_log_bind.mpr (hcolumns.bind (hall.bind (hadd.bind (agree_pure _ c'))))⟩

theorem syncTable_agree (c : Catalog) (t : Table) :
    ∃ r c', Agree (syncTable db.recorded t) (syncTable db'.recorded t) c r c' := by
  have hfound := tableExists_agree h halike c t.name
  cases hc : c.contains t.name with
  | true =>
    rw [hc] at hfound
    obtain ⟨r, c', hends⟩ := alterTable_agree h halike hc
    exact ⟨r, c', hfound.bind hends⟩
  | false =>
    rw [hc] at hfound
    obtain ⟨r, c', hends⟩ := createTable_agree h halike c t
    exact ⟨r, c', hfound.bind hends⟩

theorem syncPass_agree (pending : List Table) (report : SyncReport) (c : Catalog) :
    ∃ r c', Agree (syncPass db.recorded pending report) (syncPass db'.recorded pending report)
      c r c' := by
  induction pending generalizing report c with
  | nil => exact ⟨_, c, agree_pure _ c⟩
  | cons t rest ih =>
    obtain ⟨q, u, htable⟩ := syncTable_agree h halike c t
    cases q with
    | ok done =>
      obtain ⟨r, c', hrest⟩ := ih (report.add t.name done) u
      exact ⟨r, c', htable.attempt_bind hrest⟩
    | error e =>
      cases he : e.isUndefinedRelation with
      | true =>
        obtain ⟨r, c', hrest⟩ := ih report u
        cases r with
        | ok x =>
          refine ⟨.ok (t :: x.1, x.2), c', htable.attempt_bind ?_⟩
          simp only [he, if_true, agree_log_bind]
          exact hrest.bind (agree_pure _ c')
        | error e' =>
          refine ⟨.error e', c', htable.attempt_bind ?_⟩
          simp only [he, if_true, agree_log_bind]
          exact hrest.bind_error
      | false =>
        refine ⟨.error e, u, htable.attempt_bind ?_⟩
        simp only [he, Bool.false_eq_true, if_false, agree_log_bind]
        exact agree_fail e u

theorem syncPasses_agree (budget : Nat) (pending : List Table) (report : SyncReport) (c : Catalog) :
    ∃ r c', Agree (syncPasses db.recorded budget pending report)
      (syncPasses db'.recorded budget pending report) c r c' := by
  induction budget generalizing pending report c with
  | zero =>
    cases pending with
    | nil => exact ⟨_, c, agree_pure report c⟩
    | cons t rest => exact ⟨_, c, agree_log_bind.mpr (agree_fail _ c)⟩
  | succ budget ih =>
    cases pending with
    | nil => exact ⟨_, c, agree_pure report c⟩
    | cons t rest =>
      obtain ⟨q, u, hpass⟩ := syncPass_agree h halike (t :: rest)
        { report with passes := report.passes + 1 } c
      cases q with
      | error e => exact ⟨_, u, agree_log_bind.mpr hpass.bind_error⟩
      | ok x =>
        by_cases hstall : x.1.length = (t :: rest).length
        · refine ⟨.error (.deadlock (x.1.map Table.name)), u, agree_log_bind.mpr (hpass.bind ?_)⟩
          simp only [if_pos hstall, agree_log_bind]
          exact agree_fail _ u
        · obtain ⟨r, c', hrest⟩ := ih x.1 x.2 u
          refine ⟨r, c', agree_log_bind.mpr (hpass.bind ?_)⟩
          simpa only [if_neg hstall] using hrest

theorem sync_agree (schema : Schema) (c : Catalog) :
    ∃ r c', Agree (sync db.recorded schema) (sync db'.recorded schema) c r c' := by
  obtain ⟨r, c', hpasses⟩ := syncPasses_agree h halike (2 * schema.toList.length) schema.toList
    .empty c
  cases r with
  | ok report =>
    exact ⟨.ok report, c', agree_log_bind.mpr (hpasses.bind (agree_log_bind.mpr (agree_pure _ c')))⟩
  | error e => exact ⟨.error e, c', agree_log_bind.mpr hpasses.bind_error⟩

/-- A database that refuses statements about missing tables is no better protected than one that
runs them: both receive the same calls, give the same answers and end with the same result. Every
statement refers to tables that are there when it is sent, or to its own, and its references are
there in the end, also where the synchronisation stops for want of a table. -/
theorem sync_agrees (registered : List Table) (c : Catalog) :
    let schema := Schema.ofList registered
    ∃ r calls c', (sync db.recorded schema).Makes c r calls c' ∧
      (sync db'.recorded schema).Makes c r calls c' ∧
      ((∃ report, r = .ok report) ∨ ∃ names, r = .error (.deadlock names)) ∧
      Sends c calls c' ∧
      ∀ sql answer, .execute sql answer ∈ calls →
        ∃ ddl, Ddl.ofSql? sql = some ddl ∧ ∀ n ∈ ddl.targets, c'.contains n = true := by
  intro schema
  obtain ⟨r, c', calls, hmakes, hmakes', hsends⟩ := sync_agree h halike schema c
  refine ⟨r, calls, c', hmakes, hmakes', ?_, hsends, fun sql answer => hsends.contains_targets⟩
  obtain ⟨r₀, c₀, hends, pending, -, -, hanswer⟩ := sync_settles h registered c
  obtain ⟨more, hplain⟩ := (sync_records db schema).makes c
  rw [hends.1, hends.2] at hplain
  obtain ⟨rfl, -, -⟩ := hmakes.unique hplain
  rcases hanswer with ⟨-, hok⟩ | ⟨-, hdeadlock⟩
  · exact .inl hok
  · exact .inr ⟨_, hdeadlock⟩

end Runs

/-- Runs a statement that defines a table, whatever it refers to. -/
def defineFreely (sql : String) : Action Catalog Nat :=
  match Ddl.ofSql? sql with
  | none => Action.fail (.unsupported sql)
  | some ddl => fun c => ⟨.ok 0, ddl.apply c, []⟩

/-- A database that is its catalog, and runs statements that refer to missing tables too. -/
def permissive (d : Dialect) : Adapter Catalog :=
  { strict d with execute := defineFreely, executeWith := fun sql _ => defineFreely sql }

theorem strict_alike_permissive (d : Dialect) : Alike (strict d) (permissive d) where
  dialect := rfl
  queries := rfl
  definitions {c sql ddl} h ha := by
    simp only [permissive, strict, defineFreely, define, h.read, ha, if_true]

/-- The first of two tables refers to the second. The one database refuses its statement as long as
that is missing, and the other runs it; a synchronisation sends it to neither before its time. -/
theorem sync_agrees_postponed :
    let a := (Table.ofName "a").column "b_id" ((Column.ofType .integer).references "b" "id")
    let b := (Table.ofName "b").column "id" (Column.ofType .integer)
    ((strict .sqlite).execute (a.createSql .sqlite) .empty).answer =
        .error (.undefinedTable "referenced relation does not exist") ∧
      ((permissive .sqlite).execute (a.createSql .sqlite) .empty).answer = .ok 0 ∧
      ∃ calls c', (sync (strict .sqlite).recorded (.ofList [a, b])).Makes .empty
          (.ok ⟨2, ["b", "a"], []⟩) calls c' ∧
        (sync (permissive .sqlite).recorded (.ofList [a, b])).Makes .empty
          (.ok ⟨2, ["b", "a"], []⟩) calls c' ∧ Sends .empty calls c' := by
  intro a b
  have hddl : Ddl.ofSql? (a.createSql .sqlite) = some (.create "a" ["b_id"] [⟨"b", "id"⟩]) :=
    a.ofSql?_createSql .sqlite
  refine ⟨by simp [strict, define, hddl]; rfl, by simp [permissive, defineFreely, hddl], ?_⟩
  obtain ⟨r, calls, c', hstrict, hpermissive, -, hsends, -⟩ :=
    sync_agrees (strict_keeps .sqlite) (strict_alike_permissive .sqlite) [a, b] .empty
  have hrun : (sync (strict .sqlite).recorded (.ofList [a, b]) (.empty, [])).answer.toOption =
      some ⟨2, ["b", "a"], []⟩ := by decide +kernel
  rw [(hstrict []).1] at hrun
  cases r with
  | error e => cases hrun
  | ok report =>
    obtain rfl := Option.some.inj hrun
    exact ⟨calls, c', hstrict, hpermissive, hsends⟩

end Catalog
end Relata
