import Relata.Proofs.Account
import Relata.Sqlite.Link
import Relata.Sqlite.Token

/-!
Connections over an engine of which nothing is known but its rules for transactions. Main statements:
a use does its job at once or leaves it for later, and both alike; the flag follows the control
statements and the connection, whatever the engine does; and a connection restores what its engine
restores.
-/
namespace Relata

namespace Sqlite

/-- The words that begin the statements which begin or end a transaction. -/
def controlWords : List String := ["begin", "commit", "end", "rollback", "savepoint", "release"]

/-- The word, in lower case, that begins what is run of the text. -/
def firstWord? (sql : String) : Option String :=
  match (Token.ofText sql).head?.map Token.kind with
  | some (.word w) => some (Text.lowerAscii w)
  | _ => none

/-- What is run of the text neither begins nor ends a transaction, as far as its first word tells. -/
def IsPlain (sql : String) : Prop := ∀ w ∈ firstWord? sql, w ∉ controlWords

instance (sql : String) : Decidable (IsPlain sql) :=
  inferInstanceAs (Decidable (∀ w ∈ firstWord? sql, w ∉ controlWords))

/-- The control statements that a connection sends, each with whether a transaction has to be open
before it. -/
def controls : List (String × Bool) :=
  [("BEGIN TRANSACTION", false), ("COMMIT", true), ("ROLLBACK", true)]

namespace Driver

variable {ε κ : Type}

/-- What running a statement can leave, be it for its rows or for its count. -/
inductive Leaves (d : Driver ε) (sql : String) (params : List Cell) (e : ε) : ε → Prop
  | query : Leaves d sql params e (d.query sql params e).2
  | execute : Leaves d sql params e (d.execute sql params e).2

/-- The rules of transactions, where `inside` says that the engine has one open. A new database has
none. A control statement that succeeds begins or ends one, and what else is run may end one, as a
statement does that fails under the conflict policy ROLLBACK, but never begins one. -/
structure Transacts (d : Driver ε) (inside : ε → Bool) : Prop where
  opened {path : String} {e left : ε} (h : d.openAt path e = (.ok (), left)) : inside left = false
  unopened {path message : String} {e left : ε} (h : d.openAt path e = (.error message, left)) :
    inside left = inside e
  turned {sql : String} {active : Bool} (hsql : (sql, active) ∈ controls) {e left : ε} {n : Nat}
    (h : d.execute sql [] e = (.ok n, left)) : inside e = active ∧ inside left = !active
  refused {sql : String} {active : Bool} (hsql : (sql, active) ∈ controls) {e left : ε}
    {message : String} (h : d.execute sql [] e = (.error message, left))
    (hin : inside left = true) : inside e = true
  worked {sql : String} (hsql : IsPlain sql) {params : List Cell} {e left : ε}
    (h : d.Leaves sql params e left) (hin : inside left = true) : inside e = true

/-- The rules of what is stored, where a rollback would bring back what is `saved`. -/
structure Restores (d : Driver ε) (content : ε → κ) (saved : ε → Option κ) : Prop
    extends d.Transacts fun e => (saved e).isSome where
  saves {e left : ε} {n : Nat} (h : d.execute "BEGIN TRANSACTION" [] e = (.ok n, left)) :
    saved left = some (content e)
  commits {e left : ε} {n : Nat} (h : d.execute "COMMIT" [] e = (.ok n, left)) :
    content left = content e
  restores {e left : ε} {n : Nat} (h : d.execute "ROLLBACK" [] e = (.ok n, left)) :
    saved e = some (content left)
  keeps {sql : String} (hsql : IsPlain sql) {params : List Cell} {e left : ε}
    (h : d.Leaves sql params e left) : saved left = saved e ∨ saved left = none

end Driver

namespace Job

/-- The job is to run a statement of which `p` holds. -/
inductive Runs (p : String → Prop) : Job → Prop
  | query {sql : String} (h : p sql) (params : List Cell) : Runs p (.query sql params)
  | execute {sql : String} (h : p sql) (params : List Cell) : Runs p (.execute sql params)

theorem opens_or_controls_or_runs (job : Job) :
    (∃ path, job = .openAt path) ∨ (∃ sql active, job = .control sql active) ∨
      job.Runs fun _ => True := by
  cases job with
  | openAt path => exact .inl ⟨path, rfl⟩
  | control sql active => exact .inr (.inl ⟨sql, active, rfl⟩)
  | query sql params => exact .inr (.inr (.query trivial params))
  | execute sql params => exact .inr (.inr (.execute trivial params))

/-- What a use has to be done with the database. -/
def ofUse : Adapter.Use → Option Job
  | .connect path => some (.openAt path)
  | .disconnect => none
  | .begin => some (.control "BEGIN TRANSACTION" false)
  | .commit => some (.control "COMMIT" true)
  | .rollback => some (.control "ROLLBACK" true)
  | .execute sql => some (.execute sql [])
  | .executeWith sql params => some (.execute sql (params.map Cell.ofValue))
  | .query sql => some (.query sql [])
  | .queryWith sql params => some (.query sql (params.map Cell.ofValue))

theorem runs_ofUse {plain : String → Prop} {use : Adapter.Use} {sql : String}
    (hsql : sql ∈ use.text?) (hplain : plain sql) : ∃ job, ofUse use = some job ∧ job.Runs plain := by
  cases use with
  | execute _ | executeWith _ _ =>
    cases hsql
    exact ⟨_, rfl, .execute hplain _⟩
  | query _ | queryWith _ _ =>
    cases hsql
    exact ⟨_, rfl, .query hplain _⟩
  | connect | disconnect | begin | commit | rollback => cases hsql

end Job

namespace Link

open Relata.Action Relata.Adapter

variable {ε α κ : Type} {d : Driver ε} {s t : Link ε}

/-- What cannot be done in time is left for later, and nothing else happens. -/
theorem inTime_ends {job : Job} {work : Action (Link ε) α} {r : Except Error α} :
    (inTime job work).Ends s r t ↔
      (s.isStalled = true ∧ r = .error (.queryTimeout Error.patience) ∧
        t = { s with late := s.late ++ [job] }) ∨ s.isStalled = false ∧ work.Ends s r t := by
  rw [inTime, ends_get_bind]
  by_cases hstalled : s.isStalled = true
  · rw [if_pos hstalled, ends_modify_bind, ends_fail]
    simp [hstalled]
  · rw [if_neg hstalled]
    simp [hstalled]

theorem opened_ends {r : Except Error ε} (h : opened.Ends s r t) :
    t = s ∧ ∀ e, r = .ok e → s.isOpen = true ∧ e = s.engine := by
  rw [opened, ends_get_bind] at h
  cases hopen : s.isOpen with
  | true =>
    rw [if_pos hopen] at h
    obtain ⟨rfl, rfl⟩ := ends_pure.mp h
    exact ⟨rfl, fun _ h => ⟨rfl, (Except.ok.inj h).symm⟩⟩
  | false =>
    rw [if_neg (by simp [hopen])] at h
    obtain ⟨rfl, rfl⟩ := ends_fail.mp h
    exact ⟨rfl, nofun⟩

theorem settle_ends {q : Except String α × ε} {r : Except Error α} (h : (settle q).Ends s r t) :
    t = { s with engine := q.2 } ∧ r = q.1.mapError errorOf := by
  rw [settle, ends_modify_bind] at h
  cases hq : q.1 with
  | ok x =>
    rw [hq] at h
    obtain ⟨rfl, rfl⟩ := ends_pure.mp h
    exact ⟨rfl, rfl⟩
  | error message =>
    rw [hq] at h
    obtain ⟨rfl, rfl⟩ := ends_fail.mp h
    exact ⟨rfl, rfl⟩

/-- A control statement changes nothing unless it is sent, and then leaves what the engine makes of
it; the flag is turned over if the engine runs it. -/
theorem controlNow_cases {sql : String} {active : Bool} {r : Except Error Unit}
    (h : (controlNow d sql active).Ends s r t) :
    ((∃ e, r = .error e) ∧ t = s) ∨
      ∃ left, s.isOpen = true ∧ s.inTransaction = active ∧
        ((∃ n, d.execute sql [] s.engine = (.ok n, left) ∧ r = .ok () ∧
            t = { s with engine := left, inTransaction := !active }) ∨
          ∃ message, d.execute sql [] s.engine = (.error message, left) ∧
            r = .error (errorOf message) ∧ t = { s with engine := left }) := by
  unfold controlNow at h
  obtain ⟨e, u, hopen, hrest⟩ | ⟨e, hopen, rfl⟩ := ends_bind.mp h
  · obtain ⟨rfl, he⟩ := opened_ends hopen
    obtain ⟨hisOpen, rfl⟩ := he e rfl
    rw [ends_get_bind] at hrest
    by_cases hflag : u.inTransaction = active
    · rw [if_neg (by simpa using hflag), settle] at hrest
      refine .inr ⟨(d.execute sql [] u.engine).2, hisOpen, hflag, ?_⟩
      cases hrun : d.execute sql [] u.engine with
      | mk answer left =>
        rw [hrun] at hrest
        cases answer with
        | ok n =>
          obtain ⟨rfl, rfl⟩ := ends_modify.mp hrest
          exact .inl ⟨n, rfl, rfl, rfl⟩
        | error message =>
          obtain ⟨rfl, rfl⟩ := ends_fail.mp hrest
          exact .inr ⟨message, rfl, rfl, rfl⟩
    · rw [if_pos (by simpa using hflag)] at hrest
      obtain ⟨rfl, rfl⟩ := ends_fail.mp hrest
      exact .inl ⟨⟨_, rfl⟩, rfl⟩
  · exact .inl ⟨⟨e, rfl⟩, (opened_ends hopen).1⟩

/-- Opening a database leaves what the engine makes of it. -/
theorem openNow_cases (path : String) (s : Link ε) :
    ∃ left, (d.openAt path s.engine = (.ok (), left) ∧
        (openNow d path s).state = { s with engine := left, isOpen := true }) ∨
      ∃ message, d.openAt path s.engine = (.error message, left) ∧
        (openNow d path s).state = { s with engine := left } := by
  have hends := ends_get_bind.mp (ends_run (openNow d path) s)
  refine ⟨(d.openAt path s.engine).2, ?_⟩
  cases hopen : d.openAt path s.engine with
  | mk answer left =>
    rw [hopen] at hends
    cases answer with
    | ok =>
      obtain ⟨-, h⟩ := ends_modify.mp (ends_modify_bind.mp hends)
      exact .inl ⟨rfl, h⟩
    | error message =>
      obtain ⟨_, _, hset, -⟩ | ⟨_, hset, -⟩ := ends_bind.mp hends
      · cases (settle_ends hset).2
      · exact .inr ⟨message, rfl, (settle_ends hset).1⟩

section Statements

variable (d) (sql : String) (params : List Cell) (s : Link ε)

/-- A statement does nothing unless a database is open, and then leaves what the engine makes of
it. -/
theorem executeNow_left :
    (executeNow d sql params s).state = s ∨ s.isOpen = true ∧
      (executeNow d sql params s).state =
        { s with engine := (d.execute sql params s.engine).2 } := by
  obtain ⟨e, u, hopen, hrest⟩ | ⟨e, hopen, -⟩ := ends_bind.mp (ends_run (executeNow d sql params) s)
  · obtain ⟨rfl, he⟩ := opened_ends hopen
    obtain ⟨hisOpen, rfl⟩ := he e rfl
    exact .inr ⟨hisOpen, (settle_ends hrest).1⟩
  · exact .inl (opened_ends hopen).1

theorem queryNow_left :
    (queryNow d sql params s).state = s ∨ s.isOpen = true ∧
      (queryNow d sql params s).state = { s with engine := (d.query sql params s.engine).2 } := by
  obtain ⟨e, u, hopen, hrest⟩ | ⟨e, hopen, -⟩ := ends_bind.mp (ends_run (queryNow d sql params) s)
  · obtain ⟨rfl, he⟩ := opened_ends hopen
    obtain ⟨hisOpen, rfl⟩ := he e rfl
    obtain ⟨x, v, hset, hlast⟩ | ⟨e', hset, -⟩ := ends_bind.mp hrest
    · exact .inr ⟨hisOpen, (ends_pure.mp hlast).2.trans (settle_ends hset).1⟩
    · exact .inr ⟨hisOpen, (settle_ends hset).1⟩
  · exact .inl (opened_ends hopen).1

end Statements

theorem after_of_runs {plain : String → Prop} {job : Job} (hjob : job.Runs plain) (s : Link ε) :
    after d s job = s ∨ ∃ sql params left, plain sql ∧ s.isOpen = true ∧
      d.Leaves sql params s.engine left ∧ after d s job = { s with engine := left } := by
  cases hjob with
  | query h params =>
    rcases queryNow_left d _ params s with hsame | ⟨hopen, hleft⟩
    · exact .inl hsame
    · exact .inr ⟨_, params, _, h, hopen, .query, hleft⟩
  | execute h params =>
    rcases executeNow_left d _ params s with hsame | ⟨hopen, hleft⟩
    · exact .inl hsame
    · exact .inr ⟨_, params, _, h, hopen, .execute, hleft⟩

/-- The connection as a use finds it when its job comes: without a database, if it opens or closes
one. -/
def ready (d : Driver ε) (s : Link ε) (use : Use) : Link ε :=
  if use.renews then { s with engine := d.close s.engine, isOpen := false, inTransaction := false }
  else s

/-- Does a job at once, or leaves it for later. -/
def doOrLeave (d : Driver ε) (s : Link ε) (job : Job) : Link ε :=
  if s.isStalled then { s with late := s.late ++ [job] } else after d s job

theorem inTime_left (job : Job) (work : Action (Link ε) α) (s : Link ε) :
    (inTime job work s).state =
      if s.isStalled then { s with late := s.late ++ [job] } else (work s).state := by
  rcases inTime_ends.mp (ends_run (inTime job work) s) with ⟨hstalled, -, ht⟩ | ⟨hstalled, -, ht⟩
  · rw [if_pos hstalled, ht]
  · rw [if_neg (by simp [hstalled]), ht]

theorem connect_left (path : String) (s : Link ε) :
    (connect d path s).state = doOrLeave d (ready d s (.connect path)) (.openAt path) := by
  have hends := ends_modify_bind.mp (ends_run (connect d path) s)
  obtain ⟨q, u, hattempt, hrest⟩ | ⟨e, hattempt, -⟩ := ends_bind.mp hends
  · obtain ⟨q, hopen, ⟨⟩⟩ := ends_attempt.mp hattempt
    have hu : u = doOrLeave d (ready d s (.connect path)) (.openAt path) :=
      hopen.2.symm.trans (inTime_left ..)
    rw [← hu]
    cases q with
    | ok => exact (ends_log.mp hrest).2
    | error e => cases e <;> exact (ends_fail.mp hrest).2
  · obtain ⟨q, -, ⟨⟩⟩ := ends_attempt.mp hattempt

/-- A use does its job, if it has one, in time or leaves it for later. -/
theorem after_use (use : Use) (s : Link ε) :
    use.after (adapter d) s =
      match Job.ofUse use with
      | some job => doOrLeave d (ready d s use) job
      | none => ready d s use := by
  cases use with
  | connect path => exact connect_left path s
  | disconnect => rfl
  | begin | commit | rollback | execute | executeWith | query | queryWith =>
    exact inTime_left _ _ s

/-- A statement is run at once or left for later. -/
theorem after_work {p : String → Prop} {use : Use} {sql : String} (hsql : sql ∈ use.text?)
    (hp : p sql) (s : Link ε) :
    ∃ job : Job, job.Runs p ∧ use.after (adapter d) s = doOrLeave d s job := by
  obtain ⟨job, hjob, hruns⟩ := Job.runs_ofUse hsql hp
  have hready : ready d s use = s := if_neg fun hrenews => by
    rw [Use.text_of_renews hrenews] at hsql
    cases hsql
  exact ⟨job, hruns, by rw [after_use, hjob, hready]⟩

/-- What the open database holds. -/
def content (stored : ε → κ) (s : Link ε) : Option κ :=
  if s.isOpen then some (stored s.engine) else none

/-- What a rollback would bring back. -/
def kept (saved : ε → Option κ) (s : Link ε) : Option (Option κ) :=
  if s.isOpen then (saved s.engine).map some else none

/-- The flag follows the control statements that the engine runs. -/
theorem control_flips (d : Driver ε) (sql : String) (active : Bool) :
    Flips Link.inTransaction (control d sql active) active := by
  refine .of_cases fun {s t r} h => ?_
  rcases inTime_ends.mp h with ⟨-, hr, rfl⟩ | ⟨-, hnow⟩
  · exact .inr ⟨⟨_, hr⟩, rfl⟩
  · obtain ⟨hfailed, rfl⟩ | ⟨left, -, hflag, ⟨n, -, hr, rfl⟩ | ⟨message, -, hr, rfl⟩⟩ :=
      controlNow_cases hnow
    · exact .inr ⟨hfailed, rfl⟩
    · exact .inl ⟨hr, hflag, rfl⟩
    · exact .inr ⟨⟨_, hr⟩, rfl⟩

/-- Where a control statement succeeds, the engine has run it. -/
theorem control_ran {sql : String} {active : Bool} (h : (control d sql active).Ends s (.ok ()) t) :
    ∃ n left, s.isOpen = true ∧ d.execute sql [] s.engine = (.ok n, left) ∧
      t = { s with engine := left, inTransaction := !active } := by
  rcases inTime_ends.mp h with ⟨-, hr, -⟩ | ⟨-, hnow⟩
  · cases hr
  · obtain ⟨⟨_, hr⟩, -⟩ | ⟨left, hopen, -, ⟨n, hrun, -, ht⟩ | ⟨_, -, hr, -⟩⟩ := controlNow_cases hnow
    · cases hr
    · exact ⟨n, left, hopen, hrun, ht⟩
    · cases hr

section Flag

variable (d)

theorem inTransaction_of_runs {plain : String → Prop} {job : Job} (hjob : job.Runs plain)
    (s : Link ε) : (after d s job).inTransaction = s.inTransaction := by
  obtain hsame | ⟨_, _, left, -, -, -, hleft⟩ := after_of_runs (d := d) hjob s
  · rw [hsame]
  · rw [hleft]

theorem inTransaction_openAt (path : String) (s : Link ε) :
    (after d s (.openAt path)).inTransaction = s.inTransaction := by
  change (openNow d path s).state.inTransaction = s.inTransaction
  obtain ⟨left, ⟨-, hleft⟩ | ⟨_, -, hleft⟩⟩ := openNow_cases (d := d) path s
  · rw [hleft]
  · rw [hleft]

theorem inTransaction_doOrLeave {job : Job}
    (h : ∀ s, (after d s job).inTransaction = s.inTransaction) (s : Link ε) :
    (doOrLeave d s job).inTransaction = s.inTransaction := by
  unfold doOrLeave
  split
  · rfl
  · exact h s

/-- Whatever the engine does, the flag follows the control statements and the connection. -/
theorem adapter_flagged : (adapter d).Flagged where
  begin_flips := control_flips d "BEGIN TRANSACTION" false
  commit_flips := control_flips d "COMMIT" true
  rollback_flips := control_flips d "ROLLBACK" true
  renewed {use} h s := by
    have hready : (ready d s use).inTransaction = false := by rw [ready, if_pos h]
    rw [after_use]
    cases use with
    | connect path =>
      rw [← hready]
      exact inTransaction_doOrLeave d (inTransaction_openAt d path) _
    | disconnect => exact hready
    | begin | commit | rollback | execute | executeWith | query | queryWith => cases h
  worked {use} h s := by
    obtain ⟨sql, hsql⟩ := Option.isSome_iff_exists.mp h
    obtain ⟨job, hruns, hafter⟩ := after_work (p := fun _ => True) hsql trivial s
    rw [hafter]
    exact inTransaction_doOrLeave d (inTransaction_of_runs d hruns) s

end Flag

section Restoring

variable {stored : ε → κ} {saved : ε → Option κ}

/-- Work keeps what a rollback would bring back, or loses it. -/
theorem kept_of_work (h : d.Restores stored saved) (use : Use) {sql : String}
    (hsql : sql ∈ use.text?) (hplain : IsPlain sql) (s : Link ε) :
    kept saved (use.after (adapter d) s) = kept saved s ∨
      kept saved (use.after (adapter d) s) = none := by
  obtain ⟨job, hruns, hafter⟩ := after_work (d := d) hsql hplain s
  rw [hafter, doOrLeave]
  split
  · exact .inl rfl
  · obtain hsame | ⟨sql, params, left, hsql, -, hleaves, hleft⟩ := after_of_runs (d := d) hruns s
    · exact .inl (by rw [hsame])
    · rw [hleft]
      rcases h.keeps hsql hleaves with hsame | hnone
      · exact .inl (by simp [kept, hsame])
      · exact .inr (by simp [kept, hnone])

theorem kept_connect (h : d.Restores stored saved) (path : String) (s : Link ε) :
    kept saved ((adapter d).connect path s).state = none := by
  have hready : kept saved (ready d s (.connect path)) = none := rfl
  rw [show ((adapter d).connect path s).state = _ from after_use (.connect path) s]
  dsimp only [Job.ofUse, doOrLeave]
  split
  · exact hready
  · obtain ⟨left, ⟨hopened, hleft⟩ | ⟨_, -, hleft⟩⟩ :=
      openNow_cases (d := d) path (ready d s (.connect path))
    · have hsaved : saved left = none := by simpa using h.opened hopened
      exact (congrArg (kept saved) hleft).trans (by simp [kept, hsaved])
    · exact (congrArg (kept saved) hleft).trans hready

/-- A connection restores what its engine does. -/
theorem adapter_transactional (h : d.Restores stored saved) :
    (adapter d).Transactional IsPlain (content stored) (kept saved) where
  begin_flips := control_flips d "BEGIN TRANSACTION" false
  commit_flips := control_flips d "COMMIT" true
  rollback_flips := control_flips d "ROLLBACK" true
  begun hbegin := by
    obtain ⟨n, left, hopen, hrun, rfl⟩ := control_ran hbegin
    simp [kept, content, hopen, h.saves hrun]
  committed hcommit := by
    obtain ⟨n, left, hopen, hrun, rfl⟩ := control_ran hcommit
    simp [content, hopen, h.commits hrun]
  rolledBack hrollback := by
    obtain ⟨n, left, hopen, hrun, rfl⟩ := control_ran hrollback
    simp [kept, content, hopen, h.restores hrun]
  touched {s t} ht := by
    cases ht with
    | connect path => exact .inr (kept_connect h path s)
    | disconnect => exact .inr rfl
    | execute hplain => exact kept_of_work h (.execute _) rfl hplain s
    | executeWith hplain params => exact kept_of_work h (.executeWith _ params) rfl hplain s
    | query hplain => exact kept_of_work h (.query _) rfl hplain s
    | queryWith hplain params => exact kept_of_work h (.queryWith _ params) rfl hplain s

end Restoring

end Link

end Sqlite
end Relata
