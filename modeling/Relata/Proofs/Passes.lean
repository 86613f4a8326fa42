import Relata.Proofs.Calls
import Relata.Proofs.Synchronisation

/-!
The passes of a synchronisation, over a database of which nothing is known. Main statement: each run
tries one table after the other, in passes that follow each other as long as some table is brought
about, and makes no call besides.
-/
namespace Relata.Migration

variable {σ : Type}

/-- One attempt to bring a table about: the calls it made, and what came of it. -/
structure Attempt where
  table : Table
  calls : List Call
  result : Except Error TableSync

namespace Attempt

def succeeded (a : Attempt) : Bool :=
  match a.result with
  | .ok _ => true
  | .error _ => false

def isPostponed (a : Attempt) : Bool :=
  match a.result with
  | .ok _ => false
  | .error e => e.isUndefinedRelation

/-- The attempt ends the run. -/
def isFatal (a : Attempt) : Bool :=
  match a.result with
  | .ok _ => false
  | .error e => !e.isUndefinedRelation

theorem isPostponed_of {a : Attempt} (hs : a.succeeded = false) (hf : a.isFatal = false) :
    a.isPostponed = true := by
  obtain ⟨t, calls, result⟩ := a
  cases result with
  | ok => cases hs
  | error e => simpa [isFatal, isPostponed] using hf

end Attempt

/-- One after the other, the attempts lead from one state of the database to another. -/
inductive Tries (db : Adapter σ) : σ → List Attempt → σ → Prop
  | nil {s : σ} : Tries db s [] s
  | cons {s u v : σ} {a : Attempt} {rest : List Attempt}
      (h : ∀ log, (syncTable db.recorded a.table).Ends (s, log) a.result (u, log ++ a.calls))
      (hrest : Tries db u rest v) : Tries db s (a :: rest) v

theorem Tries.append {db : Adapter σ} {s u v : σ} {l m : List Attempt} (hl : Tries db s l u)
    (hm : Tries db u m v) : Tries db s (l ++ m) v := by
  induction hl with
  | nil => exact hm
  | cons h _ ih => exact .cons h (ih hm)

/-- Every attempt asks at least whether the table exists. -/
theorem exists_attempt (db : Adapter σ) (t : Table) (s : σ) :
    ∃ (a : Attempt) (u : σ), a.table = t ∧ a.calls ≠ [] ∧
      ∀ log, (syncTable db.recorded t).Ends (s, log) a.result (u, log ++ a.calls) := by
  let ask := db.queryWith db.dialect.tableExistsQuery [.string t.name]
  let call := Call.queryWith db.dialect.tableExistsQuery [.string t.name] (ask s).answer
  have hask (log : List Call) : (db.recorded.queryWith db.recorded.dialect.tableExistsQuery
      [.string t.name]).Ends (s, log) (ask s).answer ((ask s).state, log ++ [call]) := ⟨rfl, rfl⟩
  cases hanswer : (ask s).answer with
  | error e =>
    rw [hanswer] at hask
    exact ⟨⟨t, [call], .error e⟩, _, rfl, by simp, fun log => (hask log).bind_error.bind_error⟩
  | ok rows =>
    rw [hanswer] at hask
    have hfound (log : List Call) : (tableExists db.recorded t.name).Ends (s, log)
        (.ok !rows.isEmpty) ((ask s).state, log ++ [call]) := (hask log).bind (by simp)
    have hrest : (if (!rows.isEmpty) = true then alterTable db.recorded t
        else createTable db.recorded t).Records
          (if (!rows.isEmpty) = true then alterTable db t else createTable db t) := by
      split
      · exact alterTable_records db t
      · exact createTable_records db t
    obtain ⟨r, u, calls, hcalls⟩ : ∃ r u calls, ∀ log, (if (!rows.isEmpty) = true then
        alterTable db.recorded t else createTable db.recorded t).Ends ((ask s).state, log) r
          (u, log ++ calls) := ⟨_, _, hrest.makes (ask s).state⟩
    refine ⟨⟨t, call :: calls, r⟩, u, rfl, by simp, fun log => ?_⟩
    have hall := (hfound log).bind (f := fun found => if found = true then alterTable db.recorded t
      else createTable db.recorded t) (hcalls (log ++ [call]))
    rwa [List.append_assoc] at hall

theorem Tries.calls_ne_nil {db : Adapter σ} {s u : σ} {l : List Attempt} (h : Tries db s l u) :
    ∀ a ∈ l, a.calls ≠ [] := by
  induction h with
  | nil => simp
  | @cons s _ _ a _ h _ ih =>
    refine List.forall_mem_cons.mpr ⟨?_, ih⟩
    obtain ⟨b, v, -, hne, hb⟩ := exists_attempt db a.table s
    have hsame := ((h []).unique (hb [])).2
    have hcalls : a.calls = b.calls := by simpa using (Prod.mk.inj hsame).2
    rwa [hcalls]

/-- Every pending table is tried, and none fails for good. -/
def Complete (pending : List Table) (pass : List Attempt) : Prop :=
  pass.map Attempt.table = pending ∧ ∀ a ∈ pass, a.isFatal = false

/-- The pending tables are tried in order up to the first that fails for good. -/
def BreaksOff (pending : List Table) (pass : List Attempt) (e : Error) : Prop :=
  pass.map Attempt.table <+: pending ∧ ∃ before a, pass = before ++ [a] ∧
    (∀ b ∈ before, b.isFatal = false) ∧ a.result = .error e ∧ e.isUndefinedRelation = false

/-- The tables to try again. -/
def failed (pass : List Attempt) : List Table :=
  (pass.filter fun a => !a.succeeded).map Attempt.table

theorem failed_sublist (pass : List Attempt) : (failed pass).Sublist (pass.map Attempt.table) :=
  List.filter_sublist.map Attempt.table

theorem Complete.cons {pending : List Table} {pass : List Attempt} {a : Attempt}
    (ha : a.isFatal = false) (h : Complete pending pass) : Complete (a.table :: pending) (a :: pass) :=
  ⟨by rw [List.map_cons, h.1], List.forall_mem_cons.mpr ⟨ha, h.2⟩⟩

theorem BreaksOff.cons {pending : List Table} {pass : List Attempt} {a : Attempt} {e : Error}
    (ha : a.isFatal = false) (h : BreaksOff pending pass e) :
    BreaksOff (a.table :: pending) (a :: pass) e := by
  obtain ⟨htables, before, b, rfl, hbefore, hb⟩ := h
  refine ⟨?_, a :: before, b, rfl, List.forall_mem_cons.mpr ⟨ha, hbefore⟩, hb⟩
  exact List.cons_prefix_cons.mpr ⟨rfl, htables⟩

@[simp] theorem add_passes (report : SyncReport) (name : String) (done : TableSync) :
    (report.add name done).passes = report.passes := by cases done <;> rfl

/-- What a pass hands on: the tables that failed, or the first error that is not about a missing
table. -/
def PassEnds (db : Adapter σ) (pending : List Table) (report : SyncReport) (s : σ)
    (pass : List Attempt) (u : σ) : Prop :=
  (Complete pending pass ∧ ∃ report', report'.passes = report.passes ∧
    ∀ log, (syncPass db.recorded pending report).Ends (s, log) (.ok (failed pass, report'))
      (u, log ++ pass.flatMap Attempt.calls)) ∨
  ∃ e, BreaksOff pending pass e ∧ ∀ log, (syncPass db.recorded pending report).Ends (s, log)
    (.error e) (u, log ++ pass.flatMap Attempt.calls)

section Step

variable {db : Adapter σ} {a : Attempt} {rest : List Table} {pass : List Attempt}
  {report : SyncReport} {s u v : σ}
  (ha : ∀ log, (syncTable db.recorded a.table).Ends (s, log) a.result (v, log ++ a.calls))

include ha

theorem PassEnds.succeeded {done : TableSync} (hresult : a.result = .ok done)
    (h : PassEnds db rest (report.add a.table.name done) v pass u) :
    PassEnds db (a.table :: rest) report s (a :: pass) u := by
  have hfatal : a.isFatal = false := by simp [Attempt.isFatal, hresult]
  have hfailed : failed (a :: pass) = failed pass := by simp [failed, Attempt.succeeded, hresult]
  rw [hresult] at ha
  rcases h with ⟨hcomplete, report', hpasses, hends⟩ | ⟨e, hbreaks, hends⟩
  · refine .inl ⟨hcomplete.cons hfatal, report', by simpa using hpasses, fun log => ?_⟩
    rw [hfailed, List.flatMap_cons, ← List.append_assoc]
    exact syncPass_synced (ha log) (hends _)
  · refine .inr ⟨e, hbreaks.cons hfatal, fun log => ?_⟩
    rw [List.flatMap_cons, ← List.append_assoc]
    exact syncPass_synced (ha log) (hends _)

theorem PassEnds.postponed {e : Error} (hresult : a.result = .error e)
    (he : e.isUndefinedRelation = true) (h : PassEnds db rest report v pass u) :
    PassEnds db (a.table :: rest) report s (a :: pass) u := by
  have hfatal : a.isFatal = false := by simp [Attempt.isFatal, hresult, he]
  have hfailed : failed (a :: pass) = a.table :: failed pass := by
    simp [failed, Attempt.succeeded, hresult]
  rw [hresult] at ha
  rcases h with ⟨hcomplete, report', hpasses, hends⟩ | ⟨e', hbreaks, hends⟩
  · refine .inl ⟨hcomplete.cons hfatal, report', hpasses, fun log => ?_⟩
    rw [hfailed, List.flatMap_cons, ← List.append_assoc]
    exact syncPass_postponed (ha log) he (hends _)
  · refine .inr ⟨e', hbreaks.cons hfatal, fun log => ?_⟩
    rw [List.flatMap_cons, ← List.append_assoc]
    exact syncPass_postponed_error (ha log) he (hends _)

theorem PassEnds.fatal {e : Error} (hresult : a.result = .error e)
    (he : e.isUndefinedRelation = false) : PassEnds db (a.table :: rest) report s [a] v := by
  refine .inr ⟨e, ⟨?_, [], a, rfl, by simp, hresult, he⟩, fun log => ?_⟩
  · exact List.cons_prefix_cons.mpr ⟨rfl, List.nil_prefix⟩
  · rw [hresult] at ha
    rw [List.flatMap_cons, List.flatMap_nil, List.append_nil]
    exact syncPass_failed (ha log) he

end Step

theorem syncPass_tries (db : Adapter σ) (pending : List Table) (report : SyncReport) (s : σ) :
    ∃ pass u, Tries db s pass u ∧ PassEnds db pending report s pass u := by
  induction pending generalizing report s with
  | nil =>
    refine ⟨[], s, .nil, .inl ⟨⟨rfl, by simp⟩, report, rfl, fun log => ?_⟩⟩
    simp [syncPass, failed]
  | cons t rest ih =>
    obtain ⟨a, v, rfl, -, ha⟩ := exists_attempt db t s
    cases hresult : a.result with
    | ok done =>
      obtain ⟨pass, u, htries, hends⟩ := ih (report.add a.table.name done) v
      exact ⟨a :: pass, u, .cons ha htries, hends.succeeded ha hresult⟩
    | error e =>
      cases he : e.isUndefinedRelation with
      | true =>
        obtain ⟨pass, u, htries, hends⟩ := ih report v
        exact ⟨a :: pass, u, .cons ha htries, hends.postponed ha hresult he⟩
      | false => exact ⟨[a], v, .cons ha .nil, .fatal ha hresult he⟩

/-- How passes follow each other when `made` of them have been made: a pass that brings some table
about is followed by one over the tables that failed, and any other pass is the last. -/
inductive Course : (made : Nat) → List Table → List (List Attempt) → Except Error SyncReport → Prop
  | converged {made : Nat} {report : SyncReport} (h : report.passes = made) :
    Course made [] [] (.ok report)
  | deadlocked {made : Nat} {pending : List Table} {pass : List Attempt} (hne : pending ≠ [])
      (hp : Complete pending pass) (h : ∀ a ∈ pass, a.succeeded = false) :
    Course made pending [pass] (.error (.deadlock (pending.map Table.name)))
  | aborted {made : Nat} {pending : List Table} {pass : List Attempt} {e : Error}
      (h : BreaksOff pending pass e) : Course made pending [pass] (.error e)
  | next {made : Nat} {pending : List Table} {pass : List Attempt} {passes : List (List Attempt)}
      {r : Except Error SyncReport} (hp : Complete pending pass)
      (hs : ∃ a ∈ pass, a.succeeded = true) (h : Course (made + 1) (failed pass) passes r) :
    Course made pending (pass :: passes) r

theorem Complete.length_failed {pending : List Table} {pass : List Attempt}
    (h : Complete pending pass) : (failed pass).length = pending.length ↔
      ∀ a ∈ pass, a.succeeded = false := by
  have hlen : pending.length = pass.length := by rw [← h.1, List.length_map]
  rw [hlen, failed, List.length_map, List.length_filter_eq_length_iff]
  simp

/-- Each pass but the last leaves fewer tables. -/
theorem Complete.length_failed_lt {pending : List Table} {pass : List Attempt}
    (h : Complete pending pass) (hs : ∃ a ∈ pass, a.succeeded = true) :
    (failed pass).length < pending.length := by
  obtain ⟨a, ha, hsucceeded⟩ := hs
  have hne : (failed pass).length ≠ pending.length := by
    intro hlen
    rw [h.length_failed.mp hlen a ha] at hsucceeded
    cases hsucceeded
  have hle := (failed_sublist pass).length_le
  rw [h.1] at hle
  omega

theorem Complete.failed_eq_self {pending : List Table} {pass : List Attempt}
    (h : Complete pending pass) (hnone : ∀ a ∈ pass, a.succeeded = false) :
    failed pass = pending := by
  rw [failed, List.filter_eq_self.mpr (by simpa using hnone), h.1]

theorem syncPasses_course (db : Adapter σ) {budget : Nat} {pending : List Table}
    (hbudget : pending.length ≤ budget) (report : SyncReport) (s : σ) :
    ∃ passes r u, Tries db s passes.flatten u ∧ Course report.passes pending passes r ∧
      ∀ log, (syncPasses db.recorded budget pending report).Ends (s, log) r
        (u, log ++ passes.flatten.flatMap Attempt.calls) := by
  induction budget generalizing pending report s with
  | zero =>
    obtain rfl := List.eq_nil_of_length_eq_zero (Nat.le_zero.mp hbudget)
    exact ⟨[], .ok report, s, .nil, .converged rfl, fun log => by simp [syncPasses]⟩
  | succ budget ih =>
    cases pending with
    | nil => exact ⟨[], .ok report, s, .nil, .converged rfl, fun log => by simp [syncPasses]⟩
    | cons t rest =>
      obtain ⟨pass, u, htries, hends⟩ :=
        syncPass_tries db (t :: rest) { report with passes := report.passes + 1 } s
      rcases hends with ⟨hcomplete, report', hpasses, hends⟩ | ⟨e, hbreaks, hends⟩
      · by_cases hstall : (failed pass).length = (t :: rest).length
        · have hnone := hcomplete.length_failed.mp hstall
          have hall := hcomplete.failed_eq_self hnone
          refine ⟨[pass], _, u, by simpa using htries,
            .deadlocked (List.cons_ne_nil t rest) hcomplete hnone, fun log => ?_⟩
          have hlast : (syncPasses db.recorded (budget + 1) (t :: rest) report).Ends (s, log) _ _ :=
            syncPasses_stalled (hends log) hstall
          rwa [hall, ← List.flatten_singleton (l := pass)] at hlast
        · have hsome : ∃ a ∈ pass, a.succeeded = true := by
            have hnot := mt hcomplete.length_failed.mpr hstall
            simpa using hnot
          have hshorter : (failed pass).length ≤ budget := by
            have hlt := hcomplete.length_failed_lt hsome
            omega
          obtain ⟨passes, r, v, htries', hcourse, hrest⟩ := ih hshorter report' u
          rw [hpasses] at hcourse
          refine ⟨pass :: passes, r, v, htries.append htries', .next hcomplete hsome hcourse,
            fun log => ?_⟩
          rw [List.flatten_cons, List.flatMap_append, ← List.append_assoc]
          exact syncPasses_again (hends log) hstall (hrest _)
      · refine ⟨[pass], .error e, u, by simpa using htries, .aborted hbreaks, fun log => ?_⟩
        rw [List.flatten_singleton]
        exact syncPasses_failed (hends log)

theorem Course.tables_subset {made : Nat} {pending : List Table} {passes : List (List Attempt)}
    {r : Except Error SyncReport} (h : Course made pending passes r) :
    ∀ a ∈ passes.flatten, a.table ∈ pending := by
  induction h with
  | converged => simp
  | deadlocked _ hp =>
    intro a ha
    rw [← hp.1]
    exact List.mem_map_of_mem (by simpa using ha)
  | aborted h =>
    intro a ha
    exact h.1.subset (List.mem_map_of_mem (by simpa using ha))
  | next hp _ _ ih =>
    intro a ha
    rw [← hp.1]
    rcases List.mem_append.mp ha with hfirst | hlater
    · exact List.mem_map_of_mem hfirst
    · exact (failed_sublist _).subset (ih a hlater)

/-- How a synchronisation that is known came to its end. -/
theorem sync_course {db : Adapter σ} {schema : Schema} {r : Except Error SyncReport} {s u : σ}
    (h : (sync db schema).Ends s r u) :
    ∃ passes, Tries db s passes.flatten u ∧ Course 0 schema.toList passes r ∧
      ∀ log, (syncPasses db.recorded (2 * schema.toList.length) schema.toList .empty).Ends (s, log)
        r (u, log ++ passes.flatten.flatMap Attempt.calls) := by
  have hbudget := Nat.le_mul_of_pos_left schema.toList.length Nat.two_pos
  obtain ⟨passes, r', v, htries, hcourse, hends⟩ := syncPasses_course db hbudget .empty s
  have hmakes : (sync db.recorded schema).Makes s r' (passes.flatten.flatMap Attempt.calls) v :=
    fun log => sync_of_syncPasses (hends log)
  obtain ⟨calls, hplain⟩ := (sync_records db schema).makes s
  rw [h.1, h.2] at hplain
  obtain ⟨rfl, rfl, -⟩ := hplain.unique hmakes
  exact ⟨passes, htries, hcourse, hends⟩

end Relata.Migration
