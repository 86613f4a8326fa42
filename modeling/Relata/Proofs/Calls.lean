import Relata.Migration
import Relata.Proofs.Ending

/-!
The calls that a database receives. A recording adapter passes every call on and writes it down with
its answer. Main statement: a synchronisation over the recording adapter does just what it does over
the database itself, and only ever adds to the record.
-/
namespace Relata

/-- One use of a database, with what it answered. -/
inductive Call where
  | connect (target : String) (answer : Except Error Unit)
  | disconnect (answer : Except Error Unit)
  | execute (sql : String) (answer : Except Error Nat)
  | executeWith (sql : String) (params : List Value) (answer : Except Error Nat)
  | query (sql : String) (answer : Except Error (List Row))
  | queryWith (sql : String) (params : List Value) (answer : Except Error (List Row))
  | begin (answer : Except Error Unit)
  | commit (answer : Except Error Unit)
  | rollback (answer : Except Error Unit)

variable {σ α β : Type}

namespace Action

def noting (a : Action σ α) (call : Except Error α → Call) : Action (σ × List Call) α := fun s =>
  ⟨(a s.1).answer, ((a s.1).state, s.2 ++ [call (a s.1).answer]), (a s.1).events⟩

/-- The first action does what the second does, and adds to the record. -/
def Records (a' : Action (σ × List Call) α) (a : Action σ α) : Prop :=
  ∀ s, ∃ calls, ∀ log, a' (s, log) = ⟨(a s).answer, ((a s).state, log ++ calls), (a s).events⟩

theorem records_noting (a : Action σ α) (call : Except Error α → Call) :
    (a.noting call).Records a := fun s => ⟨[call (a s).answer], fun _ => rfl⟩

theorem records_pure (x : α) : (Pure.pure x : Action (σ × List Call) α).Records (Pure.pure x) :=
  fun _ => ⟨[], fun log => by rw [List.append_nil]; rfl⟩

theorem records_fail (e : Error) : (fail e : Action (σ × List Call) α).Records (fail e) :=
  fun _ => ⟨[], fun log => by rw [List.append_nil]; rfl⟩

theorem records_log (level : Level) (message : String) (fields : List (String × String)) :
    (log level message fields : Action (σ × List Call) Unit).Records (log level message fields) :=
  fun _ => ⟨[], fun log => by rw [List.append_nil]; rfl⟩

theorem Records.bind {a' : Action (σ × List Call) α} {a : Action σ α}
    {f' : α → Action (σ × List Call) β} {f : α → Action σ β} (ha : a'.Records a)
    (hf : ∀ x, (f' x).Records (f x)) : (a' >>= f').Records (a >>= f) := by
  intro s
  obtain ⟨calls, hcalls⟩ := ha s
  change ∃ calls, ∀ log, Action.bind a' f' (s, log) = _
  cases hs : a s with
  | mk answer state events =>
    cases answer with
    | ok x =>
      obtain ⟨more, hmore⟩ := hf x state
      refine ⟨calls ++ more, fun log => ?_⟩
      change _ = Outcome.mk (Action.bind a f s).answer ((Action.bind a f s).state, _)
        (Action.bind a f s).events
      simp only [Action.bind, hcalls, hs, hmore, List.append_assoc]
    | error e =>
      refine ⟨calls, fun log => ?_⟩
      change _ = Outcome.mk (Action.bind a f s).answer ((Action.bind a f s).state, _)
        (Action.bind a f s).events
      simp only [Action.bind, hcalls, hs]

theorem Records.attempt {a' : Action (σ × List Call) α} {a : Action σ α} (h : a'.Records a) :
    a'.attempt.Records a.attempt := by
  intro s
  obtain ⟨calls, hcalls⟩ := h s
  exact ⟨calls, fun log => by simp only [Action.attempt, hcalls]⟩

/-- Begun in the state `s`, the action answers `r`, leaves the state `t` and adds just these calls to
the record, whatever that holds. -/
def Makes (a : Action (σ × List Call) α) (s : σ) (r : Except Error α) (calls : List Call) (t : σ) :
    Prop := ∀ log, a.Ends (s, log) r (t, log ++ calls)

section Makes

variable {a : Action (σ × List Call) α} {f : α → Action (σ × List Call) β} {s t u : σ}
  {calls more : List Call}

theorem Records.makes {a' : Action σ α} (h : a.Records a') (s : σ) :
    ∃ calls, a.Makes s (a' s).answer calls (a' s).state := by
  obtain ⟨calls, hcalls⟩ := h s
  exact ⟨calls, fun log => by simp only [Ends, hcalls, and_self]⟩

theorem Makes.unique {r r' : Except Error α} (h : a.Makes s r calls t) (h' : a.Makes s r' more u) :
    r = r' ∧ t = u ∧ calls = more := by
  obtain ⟨hr, hstate⟩ := (h []).unique (h' [])
  obtain ⟨ht, hcalls⟩ := Prod.mk.inj hstate
  exact ⟨hr, ht, by simpa using hcalls⟩

theorem makes_pure (x : α) (s : σ) :
    (Pure.pure x : Action (σ × List Call) α).Makes s (.ok x) [] s := fun log => by simp

theorem makes_fail (e : Error) (s : σ) :
    (fail e : Action (σ × List Call) α).Makes s (.error e) [] s := fun log => by simp

theorem makes_noting {a : Action σ α} {r : Except Error α} (h : a.Ends s r t)
    (call : Except Error α → Call) : (a.noting call).Makes s r [call r] t := by
  obtain ⟨rfl, rfl⟩ := h
  exact fun _ => ⟨rfl, rfl⟩

theorem Makes.bind {x : α} {r : Except Error β} (h : a.Makes s (.ok x) calls u)
    (h' : (f x).Makes u r more t) : (a >>= f).Makes s r (calls ++ more) t := by
  intro log
  have hrest := h' (log ++ calls)
  rw [List.append_assoc] at hrest
  exact (h log).bind hrest

theorem Makes.bind_error {e : Error} (h : a.Makes s (.error e) calls t) :
    (a >>= f).Makes s (.error e) calls t := fun log => (h log).bind_error

theorem Makes.attempt_bind {g : Except Error α → Action (σ × List Call) β} {q : Except Error α}
    {r : Except Error β} (h : a.Makes s q calls u) (h' : (g q).Makes u r more t) :
    (a.attempt >>= g).Makes s r (calls ++ more) t :=
  Makes.bind (fun log => ends_attempt.mpr ⟨q, h log, rfl⟩) h'

@[simp] theorem makes_log_bind {level : Level} {message : String} {fields : List (String × String)}
    {f : Unit → Action (σ × List Call) β} {r : Except Error β} :
    (log level message fields >>= f).Makes s r calls t ↔ (f ()).Makes s r calls t :=
  forall_congr' fun _ => ends_log_bind

end Makes

end Action

namespace Adapter

/-- The same database beside a record of its calls. -/
def recorded (db : Adapter σ) : Adapter (σ × List Call) where
  dialect := db.dialect
  connect target := (db.connect target).noting (.connect target)
  isConnected s := db.isConnected s.1
  disconnect := db.disconnect.noting .disconnect
  execute sql := (db.execute sql).noting (.execute sql)
  executeWith sql params := (db.executeWith sql params).noting (.executeWith sql params)
  query sql := (db.query sql).noting (.query sql)
  queryWith sql params := (db.queryWith sql params).noting (.queryWith sql params)
  begin := db.begin.noting .begin
  commit := db.commit.noting .commit
  rollback := db.rollback.noting .rollback
  inTransaction s := db.inTransaction s.1

end Adapter

namespace Migration

open Relata.Action

variable (db : Adapter σ)

theorem tableExists_records (name : String) :
    (tableExists db.recorded name).Records (tableExists db name) :=
  (records_noting _ _).bind fun _ => records_pure _

theorem liveColumns_records (name : String) :
    (liveColumns db.recorded name).Records (liveColumns db name) :=
  (records_noting _ _).bind fun _ => records_pure _

theorem requireReferenced_records (table target : String) :
    (requireReferenced db.recorded table target).Records (requireReferenced db table target) := by
  unfold requireReferenced
  split
  · exact records_pure _
  · refine (tableExists_records db target).bind fun found => ?_
    cases found with
    | true => exact records_pure _
    | false => exact (records_log _ _ _).bind fun _ => records_fail _

theorem requireAll_records (table : String) (targets : List String) :
    (requireAll db.recorded table targets).Records (requireAll db table targets) := by
  induction targets with
  | nil => exact records_pure _
  | cons target targets ih => exact (requireReferenced_records db table target).bind fun _ => ih

theorem createTable_records (t : Table) : (createTable db.recorded t).Records (createTable db t) :=
  (requireAll_records db _ _).bind fun _ => (records_log _ _ _).bind fun _ =>
    (records_noting _ _).bind fun _ => (records_log _ _ _).bind fun _ => records_pure _

theorem addColumns_records (t : Table) (columns : List (String × Column)) :
    (addColumns db.recorded t columns).Records (addColumns db t columns) := by
  induction columns with
  | nil => exact records_pure _
  | cons e columns ih =>
    exact (records_log _ _ _).bind fun _ => (records_noting _ _).bind fun _ =>
      (records_log _ _ _).bind fun _ => ih

theorem alterTable_records (t : Table) : (alterTable db.recorded t).Records (alterTable db t) :=
  (records_log _ _ _).bind fun _ => (liveColumns_records db _).bind fun _ =>
    (requireAll_records db _ _).bind fun _ => (addColumns_records db t _).bind fun _ =>
      records_pure _

theorem syncTable_records (t : Table) : (syncTable db.recorded t).Records (syncTable db t) := by
  refine (tableExists_records db t.name).bind fun found => ?_
  cases found with
  | true => exact alterTable_records db t
  | false => exact createTable_records db t

/-- What the recording adapter is seen to do, the database itself does. -/
theorem ends_of_recorded {db : Adapter σ} {t : Table} {s u : σ} {calls : List Call}
    {r : Except Error TableSync}
    (h : ∀ log, (syncTable db.recorded t).Ends (s, log) r (u, log ++ calls)) :
    (syncTable db t).Ends s r u := by
  obtain ⟨more, hmore⟩ := (syncTable_records db t).makes s
  obtain ⟨hr, hu⟩ := (hmore []).unique (h [])
  exact ⟨hr, (Prod.mk.inj hu).1⟩

theorem syncPass_records (pending : List Table) (report : SyncReport) :
    (syncPass db.recorded pending report).Records (syncPass db pending report) := by
  induction pending generalizing report with
  | nil => exact records_pure _
  | cons t rest ih =>
    refine (syncTable_records db t).attempt.bind fun r => ?_
    cases r with
    | ok done => exact ih _
    | error e =>
      cases he : e.isUndefinedRelation with
      | true =>
        simp only [he, if_true]
        exact (records_log _ _ _).bind fun _ => (ih report).bind fun _ => records_pure _
      | false =>
        simp only [he]
        exact (records_log _ _ _).bind fun _ => records_fail _

theorem syncPasses_records (budget : Nat) (pending : List Table) (report : SyncReport) :
    (syncPasses db.recorded budget pending report).Records (syncPasses db budget pending report) := by
  induction budget generalizing pending report with
  | zero =>
    cases pending with
    | nil => exact records_pure _
    | cons t rest => exact (records_log _ _ _).bind fun _ => records_fail _
  | succ budget ih =>
    cases pending with
    | nil => exact records_pure _
    | cons t rest =>
      refine (records_log _ _ _).bind fun _ => (syncPass_records db _ _).bind fun r => ?_
      obtain ⟨postponed, report'⟩ := r
      by_cases hstall : postponed.length = (t :: rest).length
      · simp only [if_pos hstall]
        exact (records_log _ _ _).bind fun _ => records_fail _
      · simp only [if_neg hstall]
        exact ih postponed report'

theorem sync_records (schema : Schema) : (sync db.recorded schema).Records (sync db schema) :=
  (records_log _ _ _).bind fun _ => (syncPasses_records db _ _ _).bind fun _ =>
    (records_log _ _ _).bind fun _ => records_pure _

end Migration
end Relata
