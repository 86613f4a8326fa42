import Relata.Proofs.Linking
import Relata.Proofs.Opening
import Relata.Sqlite.Connection

/-!
The transactions of databases in memory. Main statement: their engine has the rules of transactions,
and a rollback brings back what was saved when the transaction was begun.
-/
namespace Relata.Sqlite

namespace Plan

def isControl : Plan → Bool
  | .begin | .commit | .rollback => true
  | _ => false

theorem ofCreateTable_cases {c : Content} {ifNotExists : Bool} {name : String}
    {columns : List ColumnDecl} {keys : List ForeignKeyDecl} {p : Plan}
    (h : ofCreateTable c ifNotExists name columns keys = .ok p) :
    p = .nothing ∨ ∃ s, p = .createTable s := by
  unfold ofCreateTable at h
  split at h
  · cases h
  split at h
  · split at h
    · cases h
      exact .inl rfl
    · cases h
  split at h
  · cases h
  split at h
  · cases h
  obtain ⟨_, -, h⟩ := of_bind_ok h
  cases h
  exact .inr ⟨_, rfl⟩

theorem ofAddColumn_cases {c : Content} {table : String} {d : ColumnDecl} {p : Plan}
    (h : ofAddColumn c table d = .ok p) : ∃ s column key, p = .addColumn s column key := by
  obtain ⟨s, -, h⟩ := of_bind_ok h
  split at h
  · cases h
  split at h
  · cases h
  cases h
  exact ⟨_, _, _, rfl⟩

theorem isControl_ofStatement {c : Content} {s : Statement} {p : Plan}
    (h : ofStatement c s = .ok p) (hs : s.isControl = false) : p.isControl = false := by
  cases s with
  | begin | commit | rollback => exact absurd hs (by simp [Statement.isControl])
  | createTable =>
    obtain rfl | ⟨_, rfl⟩ := ofCreateTable_cases h
    · rfl
    · rfl
  | addColumn =>
    obtain ⟨_, _, _, rfl⟩ := ofAddColumn_cases h
    rfl
  | select | insert | update | delete =>
    obtain ⟨_, -, h⟩ := of_bind_ok h
    cases h
    rfl

theorem isControl_ofText {c : Content} {sql : String} {p : Plan} {wanted : Nat}
    (h : ofText c sql = .ok (p, wanted)) (hsql : IsPlain sql) : p.isControl = false := by
  obtain ⟨s, hs, hp⟩ := ofText_ok h
  refine isControl_ofStatement hp (Bool.eq_false_iff.mpr fun hcontrol => ?_)
  obtain ⟨t, rest, w, htokens, hkind, hw⟩ := Parser.word_of_control hs hcontrol
  have hfirst : firstWord? sql = some (Text.lowerAscii w) := by simp [firstWord?, htokens, hkind]
  have hsub : ["begin", "commit", "end", "rollback"] ⊆ controlWords := by decide
  exact hsql _ hfirst (hsub hw)

end Plan

namespace Engine

variable (e : Engine) {sql : String} (params : List Cell)

theorem saved_runPlan {p : Plan} (hp : p.isControl = false) :
    (e.runPlan params p).2.saved = e.saved ∨ (e.runPlan params p).2.saved = none := by
  cases p with
  | begin | commit | rollback => exact absurd hp (by simp [Plan.isControl])
  | query | createTable | nothing => exact .inl rfl
  | change c =>
    by_cases hundo : (c.run e.content params).undoesTransaction
    · exact .inr (if_pos hundo)
    · exact .inl (if_neg hundo)
  | addColumn table column key =>
    cases hadd : addColumn e.content table column key with
    | error f => exact .inl (by simp only [runPlan, hadd])
    | ok c => exact .inl (by simp only [runPlan, hadd])

theorem saved_run (hsql : IsPlain sql) :
    (e.run sql params).2.saved = e.saved ∨ (e.run sql params).2.saved = none := by
  unfold run
  cases hplan : Plan.ofText e.content sql with
  | error f => exact .inl rfl
  | ok found =>
    by_cases hlen : params.length = found.2
    · simpa only [if_pos hlen] using e.saved_runPlan params (Plan.isControl_ofText hplan hsql)
    · simp only [if_neg hlen, true_or]

theorem execute_snd (sql : String) : (e.execute sql params).2 = (e.run sql params).2 := by
  unfold execute
  cases hrun : e.run sql params with
  | mk answer left =>
    cases answer with
    | error f => rfl
    | ok found => rfl

/-- However a statement is run, it leaves the same. -/
theorem eq_of_leaves {e left : Engine} {params : List Cell} (h : driver.Leaves sql params e left) :
    left = (e.run sql params).2 := by
  cases h with
  | query => rfl
  | execute => exact e.execute_snd params sql

theorem execute_of_plan {p : Plan} (hplan : ∀ c, Plan.ofText c sql = .ok (p, 0)) {e : Engine}
    {found : ResultSet} {left : Engine} (hrun : e.runPlan [] p = (.ok found, left))
    (hrows : found.rows = []) : driver.execute sql [] e = (.ok left.changes, left) := by
  simp [driver, execute, run, hplan, hrun, hrows, told, Except.mapError]

theorem execute_of_fault {p : Plan} (hplan : ∀ c, Plan.ofText c sql = .ok (p, 0)) {e : Engine}
    {f : Fault} {left : Engine} (hrun : e.runPlan [] p = (.error f, left)) :
    driver.execute sql [] e = (.error f.message, left) := by
  simp [driver, execute, run, hplan, hrun, told, Except.mapError]

theorem execute_begin (e : Engine) : driver.execute "BEGIN TRANSACTION" [] e =
    if e.saved.isSome then (.error Fault.alreadyInTransaction.message, e)
    else (.ok e.changes, { e with saved := some e.content }) := by
  have hplan (c : Content) : Plan.ofText c "BEGIN TRANSACTION" = .ok (.begin, 0) := rfl
  cases hsaved : e.saved with
  | none =>
    have hrun : e.runPlan [] .begin = (.ok noRows, { e with saved := some e.content }) := by
      simp [runPlan, hsaved]
    exact execute_of_plan hplan hrun rfl
  | some c => exact execute_of_fault hplan (by simp [runPlan, hsaved])

theorem execute_commit (e : Engine) : driver.execute "COMMIT" [] e =
    if e.saved.isSome then (.ok e.changes, e.endWith e.content)
    else (.error (Fault.noTransaction "commit").message, e) := by
  have hplan (c : Content) : Plan.ofText c "COMMIT" = .ok (.commit, 0) := rfl
  cases hsaved : e.saved with
  | none => exact execute_of_fault hplan (by simp [runPlan, hsaved])
  | some c =>
    have hrun : e.runPlan [] .commit = (.ok noRows, e.endWith e.content) := by
      simp [runPlan, hsaved]
    exact execute_of_plan hplan hrun rfl

theorem execute_rollback (e : Engine) : driver.execute "ROLLBACK" [] e =
    match e.saved with
    | some c => (.ok e.changes, e.endWith c)
    | none => (.error (Fault.noTransaction "rollback").message, e) := by
  have hplan (c : Content) : Plan.ofText c "ROLLBACK" = .ok (.rollback, 0) := rfl
  cases hsaved : e.saved with
  | none => exact execute_of_fault hplan (by simp [runPlan, hsaved])
  | some c =>
    have hrun : e.runPlan [] .rollback = (.ok noRows, e.endWith c) := by simp [runPlan, hsaved]
    exact execute_of_plan hplan hrun rfl

/-- A control statement turns over whether something is saved, or fails without effect. -/
theorem turns {sql : String} {active : Bool} (hsql : (sql, active) ∈ controls) (e : Engine) :
    (∃ left, driver.execute sql [] e = (.ok e.changes, left) ∧ e.saved.isSome = active ∧
      left.saved.isSome = !active) ∨ ∃ message, driver.execute sql [] e = (.error message, e) := by
  simp only [controls, List.mem_cons, Prod.mk.injEq, List.not_mem_nil, or_false] at hsql
  rcases hsql with ⟨rfl, rfl⟩ | ⟨rfl, rfl⟩ | ⟨rfl, rfl⟩
  · rw [execute_begin]
    cases e.saved with
    | none => exact .inl ⟨_, rfl, rfl, rfl⟩
    | some c => exact .inr ⟨_, rfl⟩
  · rw [execute_commit]
    cases e.saved with
    | none => exact .inr ⟨_, rfl⟩
    | some c => exact .inl ⟨_, rfl, rfl, rfl⟩
  · rw [execute_rollback]
    cases e.saved with
    | none => exact .inr ⟨_, rfl⟩
    | some c => exact .inl ⟨_, rfl, rfl, rfl⟩

/-- A rollback brings back what was saved when the transaction was begun. -/
theorem driver_restores : driver.Restores Engine.content Engine.saved where
  opened h := by
    cases h
    rfl
  unopened h := by cases h
  turned {sql active} hsql {e left n} h := by
    rcases turns hsql e with ⟨left', hrun, hbefore, hafter⟩ | ⟨message, hrun⟩
    · cases h.symm.trans hrun
      exact ⟨hbefore, hafter⟩
    · cases h.symm.trans hrun
  refused {sql active} hsql {e left message} h hin := by
    rcases turns hsql e with ⟨left', hrun, -, -⟩ | ⟨message, hrun⟩
    · cases h.symm.trans hrun
    · cases h.symm.trans hrun
      exact hin
  worked {sql} hsql {params e left} h hin := by
    obtain rfl := eq_of_leaves h
    rcases e.saved_run params hsql with hsame | hnone
    · rwa [hsame] at hin
    · rw [hnone] at hin
      cases hin
  saves {e left n} h := by
    rw [execute_begin] at h
    split at h
    · cases h
    · cases h
      rfl
  commits {e left n} h := by
    rw [execute_commit] at h
    split at h
    · cases h
      rfl
    · cases h
  restores {e left n} h := by
    rw [execute_rollback] at h
    split at h
    next hsaved =>
      cases h
      exact hsaved
    next => cases h
  keeps {sql} hsql {params e left} h := by
    obtain rfl := eq_of_leaves h
    exact e.saved_run params hsql

end Engine

theorem Connection.adapter_flagged : Connection.adapter.Flagged := Link.adapter_flagged Engine.driver

theorem Connection.adapter_transactional : Connection.adapter.Transactional IsPlain
    (Link.content Engine.content) (Link.kept Engine.saved) :=
  Link.adapter_transactional Engine.driver_restores

end Relata.Sqlite
