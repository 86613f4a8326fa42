import Relata.Guard
import Relata.Proofs.Replay

/-!
The life of a transaction guard: it begins, statements are run through it, and it is given up. Main
statement: over every database a whole life is a beginning that fails and nothing else, or else a
beginning, the statements as they are, and one of few endings. Nothing follows a commit that
succeeded, and a transaction that was not committed has had its rollback tried, unless its guard was
left to the connection.
-/
namespace Relata

open Relata.Action

variable {σ α : Type}

/-- A statement that can be run through a guard, by what it answers. -/
inductive Errand : Type → Type where
  | execute (sql : String) : Errand Nat
  | executeWith (sql : String) (params : List Value) : Errand Nat
  | query (sql : String) : Errand (List Row)
  | queryWith (sql : String) (params : List Value) : Errand (List Row)
  | fetch (s : Statement) : Errand (List Row)
  | run (s : Statement) : Errand Nat

namespace Errand

def perform (db : Adapter σ) : Errand α → Action σ α
  | .execute sql => db.execute sql
  | .executeWith sql params => db.executeWith sql params
  | .query sql => db.query sql
  | .queryWith sql params => db.queryWith sql params
  | .fetch s => db.fetch s
  | .run s => db.run s

/-- The call that the database sees, with its answer. -/
def call : Errand α → Except Error α → Call
  | .execute sql, r => .execute sql r
  | .executeWith sql params, r => .executeWith sql params r
  | .query sql, r => .query sql r
  | .queryWith sql params, r => .queryWith sql params r
  | .fetch s, r => .queryWith s.sql s.params r
  | .run s, r => .executeWith s.sql s.params r

theorem perform_records (db : Adapter σ) (op : Errand α) :
    (op.perform db.recorded).Records (op.perform db) := by
  cases op with
  | fetch s => exact (records_log _ _ _).bind fun _ => records_noting _ _
  | run s => exact (records_log _ _ _).bind fun _ => records_noting _ _
  | _ => exact records_noting _ _

theorem plays_perform (db : Adapter σ) (op : Errand α) (s : σ) :
    (op.perform db.recorded).Plays db s (op.perform db s).answer
      [op.call (op.perform db s).answer] (op.perform db s).state := by
  cases op with
  | fetch st => exact plays_log_bind.mpr (plays_noting rfl rfl)
  | run st => exact plays_log_bind.mpr (plays_noting rfl rfl)
  | _ => exact plays_noting rfl rfl

/-- A statement neither begins nor ends a transaction. -/
theorem call_ne_commit (op : Errand α) (r : Except Error α) (q : Except Error Unit) :
    op.call r ≠ .commit q := by
  cases op <;> exact nofun

end Errand

/-- How the calls of a guard end, and what is answered: what its end did, and after a failure the
rollback of the guard as it goes away. -/
inductive GuardEnd.Closes : GuardEnd → List Call → Except Error Unit → Prop
  | committed : Closes .commit [.commit (.ok ())] (.ok ())
  | uncommitted (e : Error) (q : Except Error Unit) :
      Closes .commit [.commit (.error e), .rollback q] (.error e)
  | undone : Closes .rollback [.rollback (.ok ())] (.ok ())
  | undoneLate (e : Error) (q : Except Error Unit) :
      Closes .rollback [.rollback (.error e), .rollback q] (.error e)
  | dropped (q : Except Error Unit) : Closes .drop [.rollback q] (.ok ())
  | left : Closes .dropOutside [] (.ok ())

namespace GuardEnd.Closes

variable {how : GuardEnd} {closing : List Call} {r : Except Error Unit}

/-- Nothing follows a commit that succeeded. -/
theorem after_commit (h : how.Closes closing r) {before after : List Call}
    (hcommit : closing = before ++ .commit (.ok ()) :: after) : after = [] := by
  cases h with
  | committed | dropped | undone =>
    obtain _ | ⟨c, before⟩ := before
    · simp_all
    · simp at hcommit
  | uncommitted | undoneLate =>
    obtain _ | ⟨c, _ | ⟨d, before⟩⟩ := before
    · simp at hcommit
    · simp at hcommit
    · simp at hcommit
  | left => simp at hcommit

/-- Within reach of the database, a guard commits or tries to roll back. -/
theorem commits_or_rolls_back (h : how.Closes closing r) (hhow : how ≠ .dropOutside) :
    .commit (.ok ()) ∈ closing ∨ ∃ q, .rollback q ∈ closing := by
  cases h with
  | committed => exact .inl (by simp)
  | uncommitted e q => exact .inr ⟨q, by simp⟩
  | undone => exact .inr ⟨_, List.mem_singleton_self _⟩
  | undoneLate e q => exact .inr ⟨q, by simp⟩
  | dropped q => exact .inr ⟨q, List.mem_singleton_self _⟩
  | left => exact absurd rfl hhow

end GuardEnd.Closes

namespace Guard

variable (db : Adapter σ) (s : σ)

theorem plays_begun :
    (∃ e, (begin db.recorded).Plays db s (.error e) [.begin (.error e)] (db.begin s).state) ∨
      (begin db.recorded).Plays db s (.ok fresh) [.begin (.ok ())] (db.begin s).state := by
  have hbegin := plays_begin db s
  cases hr : (db.begin s).answer with
  | ok _ =>
    rw [hr] at hbegin
    have hstart : (start db.recorded).Plays db s (.ok ()) [.begin (.ok ())] (db.begin s).state :=
      hbegin.bind_quiet (plays_log ..)
    exact .inr (hstart.bind_quiet (plays_pure fresh _))
  | error e =>
    rw [hr] at hbegin
    exact .inl ⟨e, hbegin.bind_error.bind_error⟩

variable {control : Action (σ × List Call) Unit} {message : String} {calls : List Call} {u : σ}
  {db s}

theorem plays_endBy_ok (h : control.Plays db s (.ok ()) calls u) :
    (endBy db.recorded control message).Plays db s (.ok ()) calls u :=
  h.attempt.bind_quiet (plays_log .debug message [] u)

/-- Where an end failed, a rollback is tried after it. -/
theorem plays_endBy_error {e : Error} (h : control.Plays db s (.error e) calls u) :
    (endBy db.recorded control message).Plays db s (.error e)
      (calls ++ [.rollback (db.rollback u).answer]) (db.rollback u).state :=
  h.attempt.bind ((plays_release db u).bind_quiet (plays_fail e _))

/-- A guard whose transaction has no end is given up by one of the closings. -/
theorem plays_giveUp (db : Adapter σ) (s : σ) (how : GuardEnd) :
    ∃ closing r t, how.Closes closing r ∧ (fresh.giveUp db.recorded how).Plays db s r closing t := by
  rw [giveUp_fresh]
  cases how with
  | commit =>
    have hcommit := plays_commit db s
    cases hr : (db.commit s).answer with
    | ok _ =>
      rw [hr] at hcommit
      exact ⟨_, _, _, .committed, plays_endBy_ok hcommit⟩
    | error e =>
      rw [hr] at hcommit
      exact ⟨_, _, _, .uncommitted e _, plays_endBy_error hcommit⟩
  | rollback =>
    have hrollback := plays_rollback db s
    cases hr : (db.rollback s).answer with
    | ok _ =>
      rw [hr] at hrollback
      exact ⟨_, _, _, .undone, plays_endBy_ok hrollback⟩
    | error e =>
      rw [hr] at hrollback
      exact ⟨_, _, _, .undoneLate e _, plays_endBy_error hrollback⟩
  | drop => exact ⟨_, _, _, .dropped _, plays_release db s⟩
  | dropOutside => exact ⟨_, _, _, .left, plays_log ..⟩

section Records

variable (db : Adapter σ) (g : Guard)

theorem use_records {a' : Action (σ × List Call) α} {a : Action σ α} (h : a'.Records a) :
    (g.use a').Records (g.use a) := by
  unfold use
  cases g.requireActive with
  | ok _ => exact (records_pure ()).bind fun _ => h
  | error e => exact (records_fail e).bind fun _ => h

theorem letGo_records {undo' : Action (σ × List Call) Unit} {undo : Action σ Unit}
    (h : undo'.Records undo) : (g.letGo undo').Records (g.letGo undo) := by
  unfold letGo
  split
  · exact records_pure ()
  · exact h

theorem release_records : (release db.recorded).Records (release db) := by
  refine (records_log _ _ _).bind fun _ => (records_noting _ _).attempt.bind fun r => ?_
  cases r with
  | ok _ => exact records_pure ()
  | error e => exact records_log _ _ _

theorem settle_records (barred : Option String) {control : Action σ Unit}
    (call : Except Error Unit → Call) (message : String) (ended : Guard) :
    (g.settle db.recorded barred (control.noting call) message ended).Records
      (g.settle db barred control message ended) := by
  have hrelease := release_records db
  cases barred with
  | some refusal => exact (letGo_records g hrelease).bind fun _ => records_fail _
  | none =>
    refine (records_noting control call).attempt.bind fun r => ?_
    cases r with
    | ok _ => exact (records_log _ _ _).bind fun _ => letGo_records ended hrelease
    | error e => exact (letGo_records g hrelease).bind fun _ => records_fail e

theorem giveUp_records (how : GuardEnd) :
    (g.giveUp db.recorded how).Records (g.giveUp db how) := by
  cases how with
  | commit => exact settle_records db g _ _ _ _
  | rollback => exact settle_records db g _ _ _ _
  | drop => exact letGo_records g (release_records db)
  | dropOutside => exact letGo_records g (records_log _ _ _)

theorem begin_records : (begin db.recorded).Records (begin db) :=
  ((records_noting _ _).bind fun _ => records_log _ _ _).bind fun _ => records_pure fresh

end Records

end Guard

/-- What a client does with a guard: it runs statements, each chosen with the answers so far at hand,
until it gives the guard up. -/
inductive Life : Type 1 where
  | giveUp (how : GuardEnd)
  | operate {α : Type} (op : Errand α) (next : Except Error α → Life)

namespace Life

/-- The rest of a life, under the guard. -/
def proceed (db : Adapter σ) (g : Guard) : Life → Action σ Unit
  | .giveUp how => g.giveUp db how
  | .operate op next => do
    let r ← (g.use (op.perform db)).attempt
    (next r).proceed db g

def lead (db : Adapter σ) (l : Life) : Action σ Unit := do
  let g ← Guard.begin db
  l.proceed db g

/-- The calls are the statements of the life, in its order, if each is answered as its call says; then
the guard is given up so. -/
inductive Leads : Life → List Call → GuardEnd → Prop
  | giveUp (how : GuardEnd) : Leads (.giveUp how) [] how
  | operate {α : Type} {op : Errand α} {next : Except Error α → Life} {r : Except Error α}
      {calls : List Call} {how : GuardEnd} (h : Leads (next r) calls how) :
      Leads (.operate op next) (op.call r :: calls) how

variable {l : Life} {calls : List Call} {how : GuardEnd}

theorem Leads.ne_commit (h : l.Leads calls how) {c : Call} (hc : c ∈ calls)
    (q : Except Error Unit) : c ≠ .commit q := by
  induction h with
  | giveUp how => cases hc
  | @operate α op next r calls how h ih =>
    rcases List.mem_cons.mp hc with rfl | hc
    · exact op.call_ne_commit r q
    · exact ih hc

theorem proceed_records (db : Adapter σ) (g : Guard) (l : Life) :
    (l.proceed db.recorded g).Records (l.proceed db g) := by
  induction l with
  | giveUp how => exact Guard.giveUp_records db g how
  | operate op next ih => exact (Guard.use_records g (op.perform_records db)).attempt.bind ih

theorem lead_records (db : Adapter σ) (l : Life) : (l.lead db.recorded).Records (l.lead db) :=
  (Guard.begin_records db).bind fun g => l.proceed_records db g

theorem plays_proceed (db : Adapter σ) (l : Life) (s : σ) :
    ∃ ops how closing r t, l.Leads ops how ∧ how.Closes closing r ∧
      (l.proceed db.recorded .fresh).Plays db s r (ops ++ closing) t := by
  induction l generalizing s with
  | giveUp how =>
    obtain ⟨closing, r, t, hcloses, hplays⟩ := Guard.plays_giveUp db s how
    exact ⟨_, _, closing, r, t, .giveUp how, hcloses, hplays⟩
  | operate op next ih =>
    obtain ⟨ops, how, closing, r, t, hleads, hcloses, hplays⟩ :=
      ih (op.perform db s).answer (op.perform db s).state
    exact ⟨_, how, closing, r, t, hleads.operate, hcloses, (op.plays_perform db s).attempt.bind hplays⟩

/-- The calls of a whole life. -/
theorem plays_lead (db : Adapter σ) (l : Life) (s : σ) :
    (∃ e, (l.lead db.recorded).Plays db s (.error e) [.begin (.error e)] (db.begin s).state) ∨
      ∃ ops how closing r t, l.Leads ops how ∧ how.Closes closing r ∧
        (l.lead db.recorded).Plays db s r (.begin (.ok ()) :: (ops ++ closing)) t := by
  rcases Guard.plays_begun db s with ⟨e, hbegin⟩ | hbegin
  · exact .inl ⟨e, hbegin.bind_error⟩
  · obtain ⟨ops, how, closing, r, t, hleads, hcloses, hplays⟩ :=
      l.plays_proceed db (db.begin s).state
    exact .inr ⟨ops, how, closing, r, t, hleads, hcloses, hbegin.bind hplays⟩

theorem after_commit_of_leads {ops closing before after : List Call} {r : Except Error Unit}
    (hleads : l.Leads ops how) (hcloses : how.Closes closing r)
    (hcommit : .begin (.ok ()) :: (ops ++ closing) = before ++ .commit (.ok ()) :: after) :
    after = [] := by
  obtain _ | ⟨c, before⟩ := before
  · cases hcommit
  · obtain ⟨-, hcommit⟩ := List.cons.inj hcommit
    rcases List.append_eq_append_iff.mp hcommit with ⟨more, -, hclosing⟩ | ⟨more, hops, hmore⟩
    · exact hcloses.after_commit hclosing
    · obtain _ | ⟨c, more⟩ := more
      · have hclosing : closing = [] ++ .commit (.ok ()) :: after := hmore.symm
        exact hcloses.after_commit hclosing
      · obtain ⟨rfl, -⟩ := List.cons.inj hmore
        exact absurd rfl (hleads.ne_commit (by simp [hops]) (.ok ()))

/-- Of a guard that begins, the database sees the beginning, the statements of its life unchanged and
in order, and one of the closings; of one that does not begin it sees that alone. So nothing follows a
commit that succeeded, and what was not committed has had a rollback tried. -/
theorem lead_calls (db : Adapter σ) (l : Life) (s : σ) :
    ∃ r calls t, (l.lead db).Ends s r t ∧ (l.lead db.recorded).Plays db s r calls t ∧
      ((∃ e, r = .error e ∧ calls = [.begin (.error e)]) ∨
        ∃ ops how closing, l.Leads ops how ∧ how.Closes closing r ∧
          calls = .begin (.ok ()) :: (ops ++ closing) ∧
          (how ≠ .dropOutside →
            .commit (.ok ()) ∈ closing ∨ ∃ q, .rollback q ∈ closing)) ∧
      ∀ before after, calls = before ++ .commit (.ok ()) :: after → after = [] := by
  have hends {r : Except Error Unit} {calls : List Call} {t : σ}
      (h : (l.lead db.recorded).Plays db s r calls t) : (l.lead db).Ends s r t := by
    obtain ⟨more, hmore⟩ := (lead_records db l).makes s
    obtain ⟨rfl, rfl, -⟩ := hmore.unique h.makes
    exact ends_run ..
  rcases plays_lead db l s with ⟨e, hplays⟩ | ⟨ops, how, closing, r, t, hleads, hcloses, hplays⟩
  · refine ⟨_, _, _, hends hplays, hplays, .inl ⟨e, rfl, rfl⟩, ?_⟩
    intro before after hcommit
    obtain _ | ⟨c, before⟩ := before
    · cases hcommit
    · simp at hcommit
  · refine ⟨r, _, t, hends hplays, hplays, .inr ?_, ?_⟩
    · exact ⟨ops, how, closing, hleads, hcloses, rfl, hcloses.commits_or_rolls_back⟩
    · exact fun before after => after_commit_of_leads hleads hcloses

end Life
end Relata
