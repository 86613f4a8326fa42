import Mathlib.Logic.Relation
import Relata.Postgres.Server
import Relata.Proofs.Ending

/-!
Databases that keep account of transactions: a flag says whether one is open, and a rollback brings
back what the tables held when it was begun. Main statement: the connection to a server keeps such an
account, the flag following every control statement that succeeds and none that fails.
-/
namespace Relata

namespace Adapter

variable {σ κ : Type}

/-- One use of a database. -/
inductive Use where
  | connect (target : String)
  | disconnect
  | begin
  | commit
  | rollback
  | execute (sql : String)
  | executeWith (sql : String) (params : List Value)
  | query (sql : String)
  | queryWith (sql : String) (params : List Value)

namespace Use

/-- The state that the use leaves, whatever it answers. -/
def after (db : Adapter σ) (s : σ) : Use → σ
  | .connect target => (db.connect target s).state
  | .disconnect => (db.disconnect s).state
  | .begin => (db.begin s).state
  | .commit => (db.commit s).state
  | .rollback => (db.rollback s).state
  | .execute sql => (db.execute sql s).state
  | .executeWith sql params => (db.executeWith sql params s).state
  | .query sql => (db.query sql s).state
  | .queryWith sql params => (db.queryWith sql params s).state

/-- The statement that the caller has run. -/
def text? : Use → Option String
  | .execute sql | .executeWith sql _ | .query sql | .queryWith sql _ => some sql
  | _ => none

/-- The connection is opened or closed. -/
def renews : Use → Bool
  | .connect _ | .disconnect => true
  | _ => false

theorem text_of_renews {use : Use} (h : use.renews = true) : use.text? = none := by
  cases use with
  | connect | disconnect => rfl
  | begin | commit | rollback | execute | executeWith | query | queryWith => cases h

end Use

/-- One use of a database that controls no transaction by itself: the connection is opened or closed,
or a statement of which `plain` holds is run. The answer is left open. -/
inductive Touches (db : Adapter σ) (plain : String → Prop) (s : σ) : σ → Prop
  | connect (target : String) : Touches db plain s (db.connect target s).state
  | disconnect : Touches db plain s (db.disconnect s).state
  | execute {sql : String} (h : plain sql) : Touches db plain s (db.execute sql s).state
  | executeWith {sql : String} (h : plain sql) (params : List Value) :
    Touches db plain s (db.executeWith sql params s).state
  | query {sql : String} (h : plain sql) : Touches db plain s (db.query sql s).state
  | queryWith {sql : String} (h : plain sql) (params : List Value) :
    Touches db plain s (db.queryWith sql params s).state

/-- One state is reached from the other without any control of transactions. -/
def Works (db : Adapter σ) (plain : String → Prop) : σ → σ → Prop :=
  Relation.ReflTransGen (db.Touches plain)

/-- A control statement that succeeds turns the flag over, and one that fails leaves it alone. -/
structure Flips (flag : σ → Bool) (control : Action σ Unit) (active : Bool) : Prop where
  before {s t : σ} (h : control.Ends s (.ok ()) t) : flag s = active
  after {s t : σ} (h : control.Ends s (.ok ()) t) : flag t = !active
  stays {s t : σ} {e : Error} (h : control.Ends s (.error e) t) : flag t = flag s

theorem Flips.of_cases {flag : σ → Bool} {control : Action σ Unit} {active : Bool}
    (h : ∀ {s t : σ} {r : Except Error Unit}, control.Ends s r t →
      (r = .ok () ∧ flag s = active ∧ flag t = !active) ∨ (∃ e, r = .error e) ∧ flag t = flag s) :
    Flips flag control active := by
  constructor
  · intro s t hends
    rcases h hends with ⟨-, hs, -⟩ | ⟨⟨e, he⟩, -⟩
    · exact hs
    · cases he
  · intro s t hends
    rcases h hends with ⟨-, -, ht⟩ | ⟨⟨e, he⟩, -⟩
    · exact ht
    · cases he
  · intro s t e hends
    rcases h hends with ⟨he, -⟩ | ⟨-, ht⟩
    · cases he
    · exact ht

/-- The flag follows the control statements and the connection, and nothing else. -/
structure Flagged (db : Adapter σ) : Prop where
  begin_flips : Flips db.inTransaction db.begin false
  commit_flips : Flips db.inTransaction db.commit true
  rollback_flips : Flips db.inTransaction db.rollback true
  renewed {use : Use} (h : use.renews = true) (s : σ) : db.inTransaction (use.after db s) = false
  worked {use : Use} (h : use.text?.isSome = true) (s : σ) :
    db.inTransaction (use.after db s) = db.inTransaction s

/-- How a database keeps account of transactions: `content` is what its tables hold, and `kept` what
a rollback would bring back, if it could. Work may lose what is kept, as when a statement fails in a
way that ends the transaction, but never changes it. What becomes of the content when a commit is
rejected is left open. -/
structure Transactional (db : Adapter σ) (plain : String → Prop) (content : σ → κ)
    (kept : σ → Option κ) : Prop where
  begin_flips : Flips db.inTransaction db.begin false
  commit_flips : Flips db.inTransaction db.commit true
  rollback_flips : Flips db.inTransaction db.rollback true
  begun {s t : σ} (h : db.begin.Ends s (.ok ()) t) : kept t = some (content s)
  committed {s t : σ} (h : db.commit.Ends s (.ok ()) t) : content t = content s
  rolledBack {s t : σ} (h : db.rollback.Ends s (.ok ()) t) : kept s = some (content t)
  touched {s t : σ} (h : db.Touches plain s t) : kept t = kept s ∨ kept t = none

theorem Transactional.worked {db : Adapter σ} {plain : String → Prop} {content : σ → κ}
    {kept : σ → Option κ} (h : Transactional db plain content kept) {s t : σ}
    (hw : db.Works plain s t) : kept t = kept s ∨ kept t = none := by
  induction hw with
  | refl => exact .inl rfl
  | tail _ ht ih =>
    rcases h.touched ht with hsame | hnone
    · rwa [hsame]
    · exact .inr hnone

end Adapter

namespace Postgres

open Relata.Action

variable {α : Type} {s t : State}

theorem see_preserves (entry : Entry) : Preserves State.inTransaction (see entry) :=
  preserves_modify fun _ => rfl

theorem goSilent_preserves : Preserves State.inTransaction (goSilent : Action State α) :=
  Preserves.bind (preserves_modify fun _ => rfl) fun _ => preserves_fail _

theorem requireLink_preserves : Preserves State.inTransaction requireLink := by
  refine preserves_get.bind fun s => ?_
  cases s.link with
  | live => exact preserves_pure ()
  | absent | silent | closed => exact preserves_fail _

theorem nextReply_preserves : Preserves State.inTransaction nextReply :=
  preserves_get.bind fun _ => Preserves.bind (preserves_modify fun _ => rfl) fun _ =>
    preserves_pure _

theorem bindParams_preserves (r : Response) (params : List Value) :
    Preserves State.inTransaction (bindParams r params) := by
  cases hp : r.prepareError with
  | some e => simpa only [bindParams, hp] using preserves_fail _
  | none =>
    by_cases hlen : r.params.length = params.length
    · cases hb : encodeParams 0 r.params params with
      | error fault => simpa only [bindParams, hp, if_pos hlen, hb] using preserves_fail _
      | ok bound => simpa only [bindParams, hp, if_pos hlen, hb] using see_preserves _
    · simpa only [bindParams, hp, if_neg hlen] using preserves_fail _

theorem request_preserves (sql : String) (params : List Value) :
    Preserves State.inTransaction (request sql params) := by
  refine requireLink_preserves.bind fun _ => (see_preserves _).bind fun _ =>
    nextReply_preserves.bind fun reply => ?_
  cases reply with
  | silent => exact goSilent_preserves
  | hangup =>
    exact Preserves.bind (preserves_modify fun _ => rfl) fun _ =>
      (preserves_logAll _).bind fun _ => preserves_fail _
  | preparedLate => exact preserves_fail _
  | executedLate r => exact (bindParams_preserves r params).bind fun _ => preserves_fail _
  | response r =>
    refine (bindParams_preserves r params).bind fun _ => ?_
    cases r.executeError with
    | some e => exact preserves_fail _
    | none => exact preserves_pure _

theorem decodeRow_preserves (index : Nat) (columns : List (String × WireType))
    (cells : List (Option (List UInt8))) (row : Row) :
    Preserves State.inTransaction (decodeRow index columns cells row) := by
  induction columns generalizing index cells row with
  | nil => exact preserves_pure _
  | cons column columns ih =>
    obtain ⟨name, type⟩ := column
    cases cells with
    | nil => exact preserves_pure _
    | cons bs rest =>
      unfold decodeRow
      cases decode type bs with
      | value v => exact ih _ _ _
      | unsupported => exact (preserves_logAll _).bind fun _ => ih _ _ _
      | fault => exact preserves_fail _

theorem decodeRows_preserves (columns : List (String × WireType))
    (rows : List (List (Option (List UInt8)))) :
    Preserves State.inTransaction (decodeRows columns rows) := by
  induction rows with
  | nil => exact preserves_pure _
  | cons row rows ih =>
    exact (decodeRow_preserves _ _ _ _).bind fun _ => ih.bind fun _ => preserves_pure _

theorem query_preserves (sql : String) (params : List Value) :
    Preserves State.inTransaction (query sql params) :=
  (request_preserves sql params).bind fun _ => decodeRows_preserves _ _

theorem execute_preserves (sql : String) (params : List Value) :
    Preserves State.inTransaction (execute sql params) :=
  (request_preserves sql params).bind fun _ => preserves_pure _

/-- The flag follows the server, as far as that says what became of a control statement. -/
theorem control_flips (sql : String) (active : Bool) :
    Adapter.Flips State.inTransaction (control sql active) active := by
  refine .of_cases fun {s t r} h => ?_
  rw [control, ends_get_bind] at h
  by_cases habsent : s.link = .absent
  · rw [if_pos habsent] at h
    obtain ⟨rfl, rfl⟩ := ends_fail.mp h
    exact .inr ⟨⟨_, rfl⟩, rfl⟩
  by_cases hflag : s.inTransaction = active
  · rw [if_neg habsent, if_neg (by simpa using hflag)] at h
    obtain ⟨_, u, hlink, h⟩ | ⟨e, he, rfl⟩ := ends_bind.mp h
    · have hu := requireLink_preserves.of_ends hlink
      rw [see, ends_modify_bind, ends_modify_bind] at h
      cases hreply : s.controls.headD .success with
      | success =>
        rw [hreply] at h
        obtain ⟨rfl, rfl⟩ := ends_modify.mp h
        exact .inl ⟨rfl, hflag, rfl⟩
      | rejected e =>
        rw [hreply] at h
        obtain ⟨rfl, rfl⟩ := ends_fail.mp h
        exact .inr ⟨⟨_, rfl⟩, hu⟩
      | silent =>
        rw [hreply] at h
        obtain ⟨rfl, rfl⟩ := ends_fail.mp (ends_modify_bind.mp h)
        exact .inr ⟨⟨_, rfl⟩, hu⟩
    · exact .inr ⟨⟨e, rfl⟩, requireLink_preserves.of_ends he⟩
  · rw [if_neg habsent, if_pos (by simpa using hflag)] at h
    obtain ⟨rfl, rfl⟩ := ends_fail.mp h
    exact .inr ⟨⟨_, rfl⟩, rfl⟩

theorem reset_bind_idle {f : Unit → Action State α} (h : ∀ x, Preserves State.inTransaction (f x))
    (s : State) : ((reset >>= f) s).state.inTransaction = false := by
  have hends := ends_modify_bind.mp (ends_run (reset >>= f) s)
  exact (h ()).of_ends hends

theorem connect_idle (target : String) (s : State) :
    (connect target s).state.inTransaction = false := by
  refine reset_bind_idle (fun _ => ?_) s
  split
  · refine preserves_get.bind fun s => ?_
    split
    · exact Preserves.bind (preserves_modify fun _ => rfl) fun _ => preserves_logAll _
    · exact Preserves.bind (preserves_modify fun _ => rfl) fun _ => preserves_fail _
  · exact preserves_fail _

/-- The scripted server holds no tables, so that only the flag is of interest. -/
theorem adapter_transactional :
    adapter.Transactional (fun _ => True) (fun _ => ())
      (fun s => if s.inTransaction then some () else none) where
  begin_flips := control_flips "BEGIN" false
  commit_flips := control_flips "COMMIT" true
  rollback_flips := control_flips "ROLLBACK" true
  begun h := if_pos ((control_flips "BEGIN" false).after h)
  committed _ := rfl
  rolledBack h := if_pos ((control_flips "ROLLBACK" true).before h)
  touched {s t} h := by
    have hflag : t.inTransaction = s.inTransaction ∨ t.inTransaction = false := by
      cases h with
      | connect target => exact .inr (connect_idle target s)
      | disconnect => exact .inr (reset_bind_idle (fun _ => preserves_logAll _) s)
      | execute => exact .inl (execute_preserves _ _ s)
      | executeWith => exact .inl (execute_preserves _ _ s)
      | query => exact .inl (query_preserves _ _ s)
      | queryWith => exact .inl (query_preserves _ _ s)
    rcases hflag with hsame | hidle
    · exact .inl (by rw [hsame])
    · exact .inr (by rw [hidle]; rfl)

theorem adapter_flagged : adapter.Flagged where
  begin_flips := control_flips "BEGIN" false
  commit_flips := control_flips "COMMIT" true
  rollback_flips := control_flips "ROLLBACK" true
  renewed {use} h s := by
    cases use with
    | connect target => exact connect_idle target s
    | disconnect => rfl
    | begin | commit | rollback | execute | executeWith | query | queryWith => cases h
  worked {use} h s := by
    cases use with
    | execute sql => exact execute_preserves sql [] s
    | executeWith sql params => exact execute_preserves sql params s
    | query sql => exact query_preserves sql [] s
    | queryWith sql params => exact query_preserves sql params s
    | connect | disconnect | begin | commit | rollback => cases h

end Postgres

end Relata
