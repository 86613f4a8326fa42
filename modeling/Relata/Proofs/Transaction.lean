import Relata.Proofs.Calls
import Relata.Proofs.Saving

/-!
Transactions around an action. Main statement: a transaction ends in one of four ways, and leaves
nothing open and nothing behind where its action fails and is rolled back. A commit that the database
rejects is not followed by a rollback.
-/
namespace Relata

namespace Action

variable {σ α β : Type} {db : Adapter σ} {plain : String → Prop}

/-- The action uses the database without any control of transactions. -/
def Abstains (db : Adapter σ) (plain : String → Prop) (a : Action σ α) : Prop :=
  ∀ s, db.Works plain s (a s).state

theorem abstains_fail (e : Error) : Abstains db plain (fail e : Action σ α) := fun _ => .refl

theorem abstains_execute {sql : String} (h : plain sql) : Abstains db plain (db.execute sql) :=
  fun _ => .single (.execute h)

theorem Abstains.bind {a : Action σ α} {f : α → Action σ β} (ha : Abstains db plain a)
    (hf : ∀ x, Abstains db plain (f x)) : Abstains db plain (a >>= f) := by
  intro s
  obtain ⟨x, u, hx, hfu⟩ | ⟨e, he, -⟩ := ends_bind.mp (ends_run (a >>= f) s)
  · have hfirst := hx.2 ▸ ha s
    have hsecond := hfu.2 ▸ hf x u
    exact hfirst.trans hsecond
  · exact he.2 ▸ ha s

end Action

namespace Adapter

open Relata.Action

variable {σ α κ : Type} {db : Adapter σ} {plain : String → Prop} {content : σ → κ}
  {kept : σ → Option κ} {body : Action σ α} {s u v t : σ}

theorem transaction_committed {x : α} (hbegin : db.begin.Ends s (.ok ()) u)
    (hbody : body.Ends u (.ok x) v) (hcommit : db.commit.Ends v (.ok ()) t) :
    (db.transaction body).Ends s (.ok x) t := by
  refine hbegin.bind (ends_log_bind.mpr (hbody.attempt_bind (hcommit.bind ?_)))
  exact ends_log_bind.mpr (ends_pure.mpr ⟨rfl, rfl⟩)

theorem transaction_rejected {x : α} {e : Error} (hbegin : db.begin.Ends s (.ok ()) u)
    (hbody : body.Ends u (.ok x) v) (hcommit : db.commit.Ends v (.error e) t) :
    (db.transaction body).Ends s (.error e) t :=
  hbegin.bind (ends_log_bind.mpr (hbody.attempt_bind hcommit.bind_error))

theorem transaction_failed {e : Error} {r : Except Error Unit} (hbegin : db.begin.Ends s (.ok ()) u)
    (hbody : body.Ends u (.error e) v) (hrollback : db.rollback.Ends v r t) :
    (db.transaction body).Ends s (.error e) t := by
  refine hbegin.bind (ends_log_bind.mpr (hbody.attempt_bind (hrollback.attempt_bind ?_)))
  cases r with
  | ok => exact ends_log_bind.mpr (ends_fail.mpr ⟨rfl, rfl⟩)
  | error failure => exact ends_log_bind.mpr (ends_fail.mpr ⟨rfl, rfl⟩)

/-- Once it is begun, a transaction ends in one of four ways. Where its action succeeds and the commit
does, it answers what the action did. Where the commit is rejected, that error is the answer, and
nothing else is tried: the transaction stays as open as the action left it. Where the action fails
and is rolled back, no transaction is open and the tables hold what they held before. Where the
rollback fails too, the error is still that of the action. -/
theorem transaction_ends (hdb : db.Transactional plain content kept)
    (habstains : Abstains db plain body) (hbegin : db.begin.Ends s (.ok ()) u) :
    ∃ q v r t, body.Ends u q v ∧ (db.transaction body).Ends s r t ∧
      ((∃ x, q = .ok x ∧ r = .ok x ∧ db.commit.Ends v (.ok ()) t ∧
          db.inTransaction t = false ∧ content t = content v) ∨
        (∃ x e, q = .ok x ∧ r = .error e ∧ db.commit.Ends v (.error e) t ∧
          db.inTransaction t = db.inTransaction v) ∨
        (∃ e, q = .error e ∧ r = .error e ∧ db.rollback.Ends v (.ok ()) t ∧
          db.inTransaction t = false ∧ content t = content s) ∨
        ∃ e failure, q = .error e ∧ r = .error e ∧ db.rollback.Ends v (.error failure) t ∧
          db.inTransaction t = db.inTransaction v) := by
  have hbody := ends_run body u
  obtain ⟨v, hv⟩ : ∃ v, (body u).state = v := ⟨_, rfl⟩
  have hwork : db.Works plain u v := hv ▸ habstains u
  rw [hv] at hbody
  cases hq : (body u).answer with
  | ok x =>
    rw [hq] at hbody
    have hcommit := ends_run db.commit v
    cases hr : (db.commit v).answer with
    | ok _ =>
      rw [hr] at hcommit
      exact ⟨_, v, _, _, hbody, transaction_committed hbegin hbody hcommit,
        .inl ⟨x, rfl, rfl, hcommit, hdb.commit_flips.after hcommit, hdb.committed hcommit⟩⟩
    | error e =>
      rw [hr] at hcommit
      exact ⟨_, v, _, _, hbody, transaction_rejected hbegin hbody hcommit,
        .inr (.inl ⟨x, e, rfl, rfl, hcommit, hdb.commit_flips.stays hcommit⟩)⟩
  | error e =>
    rw [hq] at hbody
    have hrollback := ends_run db.rollback v
    have hfailed := transaction_failed hbegin hbody hrollback
    cases hr : (db.rollback v).answer with
    | ok _ =>
      rw [hr] at hrollback
      -- what was kept at the beginning is what the rollback brought back
      have hkept : some (content (db.rollback v).state) = some (content s) := by
        rw [← hdb.rolledBack hrollback, ← hdb.begun hbegin]
        refine (hdb.worked hwork).resolve_right fun hnone => ?_
        exact absurd (hdb.rolledBack hrollback) (by simp [hnone])
      exact ⟨_, v, _, _, hbody, hfailed, .inr (.inr (.inl ⟨e, rfl, rfl, hrollback,
        hdb.rollback_flips.after hrollback, Option.some.inj hkept⟩))⟩
    | error failure =>
      rw [hr] at hrollback
      exact ⟨_, v, _, _, hbody, hfailed, .inr (.inr (.inr ⟨e, failure, rfl, rfl, hrollback,
        hdb.rollback_flips.stays hrollback⟩))⟩

deriving instance DecidableEq for Except

/-- A row is written. -/
def note (db : Adapter σ) : Action σ Nat := db.execute "INSERT INTO notes (id) VALUES (1)"

/-- A row is written, and the action fails after it. -/
def failingNote (db : Adapter σ) : Action σ Unit := do
  let _ ← note db
  Action.fail .notConnected

/-- A connection to a database with one empty table. -/
def emptyNotes : Sqlite.Connection :=
  { Sqlite.Connection.closed with
    engine := { Sqlite.Engine.empty with
      content := ⟨[⟨⟨"notes", [⟨"id", "INTEGER", .integer, false, false, false⟩], none, []⟩, []⟩]⟩ }
    isOpen := true }

/-- The row that was written before the failure is gone, and no transaction is open. -/
theorem transaction_ends_note :
    ∃ t, (Sqlite.Connection.adapter.transaction (failingNote Sqlite.Connection.adapter)).Ends
        emptyNotes (.error .notConnected) t ∧
      t.inTransaction = false ∧
      t.content Sqlite.Engine.content = emptyNotes.content Sqlite.Engine.content := by
  have hplain : Sqlite.IsPlain "INSERT INTO notes (id) VALUES (1)" := by decide +kernel
  have habstains : Abstains Sqlite.Connection.adapter Sqlite.IsPlain
      (failingNote Sqlite.Connection.adapter) :=
    (abstains_execute hplain).bind fun _ => abstains_fail _
  have hbegun : (Sqlite.Connection.adapter.begin emptyNotes).answer = .ok () := by decide +kernel
  obtain ⟨q, v, r, t, ⟨hq, hv⟩, hrun, hcases⟩ :=
    transaction_ends Sqlite.Connection.adapter_transactional habstains ⟨hbegun, rfl⟩
  have hnote : (failingNote Sqlite.Connection.adapter
      (Sqlite.Connection.adapter.begin emptyNotes).state).answer = .error .notConnected := by
    decide +kernel
  have hback : (Sqlite.Connection.adapter.rollback (failingNote Sqlite.Connection.adapter
      (Sqlite.Connection.adapter.begin emptyNotes).state).state).answer = .ok () := by
    decide +kernel
  rw [hnote] at hq
  rw [hv] at hback
  obtain ⟨x, rfl, -⟩ | ⟨x, e, rfl, -⟩ | ⟨e, rfl, rfl, -, hidle, hcontent⟩ |
    ⟨e, failure, -, -, hfailed, -⟩ := hcases
  · cases hq
  · cases hq
  · cases hq
    exact ⟨t, hrun, hidle, hcontent⟩
  · rw [hfailed.1] at hback
    cases hback

/-- A connection to a server that rejects the first commit. -/
def rejecting : Postgres.State :=
  { Postgres.State.start [] [.success, .rejected ⟨"40001", "could not serialize access"⟩] 0 with
    link := .live }

/-- The transaction is left open after a rejected commit: no rollback is tried. -/
theorem transaction_open_after_rejected_commit :
    ∃ e t, (Postgres.adapter.recorded.transaction (note Postgres.adapter.recorded)).Ends
        (rejecting, []) (.error e)
        (t, [.begin (.ok ()), .execute "INSERT INTO notes (id) VALUES (1)" (.ok 0),
          .commit (.error e)]) ∧
      Postgres.adapter.inTransaction t = true :=
  ⟨.postgres (.rejected "40001" "could not serialize access"), _, ⟨rfl, rfl⟩, rfl⟩

end Adapter
end Relata
