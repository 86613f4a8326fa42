import Relata.Guard
import Relata.Proofs.Calls

/-!
Calls that are made again. An action that uses a database by recorded calls alone leaves the state
that these calls lead to, and each of them has the answer that the database gives when its turn comes.
-/
namespace Relata

variable {σ α β : Type}

namespace Call

/-- The state that the call leaves when it is made again from `s`. -/
def after (db : Adapter σ) (s : σ) : Call → σ
  | .connect target _ => (db.connect target s).state
  | .disconnect _ => (db.disconnect s).state
  | .execute sql _ => (db.execute sql s).state
  | .executeWith sql params _ => (db.executeWith sql params s).state
  | .query sql _ => (db.query sql s).state
  | .queryWith sql params _ => (db.queryWith sql params s).state
  | .begin _ => (db.begin s).state
  | .commit _ => (db.commit s).state
  | .rollback _ => (db.rollback s).state

/-- The answer is the one that the database gives when the call is made from `s`. -/
def IsGenuine (db : Adapter σ) (s : σ) : Call → Prop
  | .connect target r => (db.connect target s).answer = r
  | .disconnect r => (db.disconnect s).answer = r
  | .execute sql r => (db.execute sql s).answer = r
  | .executeWith sql params r => (db.executeWith sql params s).answer = r
  | .query sql r => (db.query sql s).answer = r
  | .queryWith sql params r => (db.queryWith sql params s).answer = r
  | .begin r => (db.begin s).answer = r
  | .commit r => (db.commit s).answer = r
  | .rollback r => (db.rollback s).answer = r

end Call

/-- The state that the calls leave when they are made again from `s`. -/
def replay (db : Adapter σ) (s : σ) (calls : List Call) : σ := calls.foldl (Call.after db) s

/-- Each call has the answer that the database gives when it is made after those before it. -/
def Genuine (db : Adapter σ) (s : σ) : List Call → Prop
  | [] => True
  | call :: calls => call.IsGenuine db s ∧ Genuine db (call.after db s) calls

theorem replay_append (db : Adapter σ) (s : σ) (calls more : List Call) :
    replay db s (calls ++ more) = replay db (replay db s calls) more := List.foldl_append

theorem genuine_append {db : Adapter σ} {s : σ} {calls more : List Call} :
    Genuine db s (calls ++ more) ↔ Genuine db s calls ∧ Genuine db (replay db s calls) more := by
  induction calls generalizing s with
  | nil => exact (true_and _).symm.to_iff
  | cons call calls ih =>
    rw [List.cons_append, Genuine, Genuine, ih, and_assoc]
    rfl

namespace Action

variable {db : Adapter σ} {a : Action (σ × List Call) α} {f : α → Action (σ × List Call) β}
  {s t u : σ} {calls more : List Call}

/-- Begun in the state `s`, the action answers `r` and makes `calls`, which alone lead to the state
`u` and answer as they did. -/
structure Plays (db : Adapter σ) (a : Action (σ × List Call) α) (s : σ) (r : Except Error α)
    (calls : List Call) (u : σ) : Prop where
  makes : a.Makes s r calls u
  genuine : Genuine db s calls
  replays : replay db s calls = u

theorem plays_pure (x : α) (s : σ) :
    (Pure.pure x : Action (σ × List Call) α).Plays db s (.ok x) [] s :=
  ⟨makes_pure x s, trivial, rfl⟩

theorem plays_fail (e : Error) (s : σ) :
    (fail e : Action (σ × List Call) α).Plays db s (.error e) [] s :=
  ⟨makes_fail e s, trivial, rfl⟩

theorem plays_log (level : Level) (message : String) (fields : List (String × String)) (s : σ) :
    (log level message fields : Action (σ × List Call) Unit).Plays db s (.ok ()) [] s :=
  ⟨fun calls => ends_log.mpr ⟨rfl, by rw [List.append_nil]⟩, trivial, rfl⟩

theorem Plays.bind {x : α} {r : Except Error β} (h : a.Plays db s (.ok x) calls u)
    (h' : (f x).Plays db u r more t) : (a >>= f).Plays db s r (calls ++ more) t where
  makes := h.makes.bind h'.makes
  genuine := genuine_append.mpr ⟨h.genuine, h.replays ▸ h'.genuine⟩
  replays := by rw [replay_append, h.replays, h'.replays]

/-- What comes after makes no calls. -/
theorem Plays.bind_quiet {x : α} {r : Except Error β} (h : a.Plays db s (.ok x) calls u)
    (h' : (f x).Plays db u r [] t) : (a >>= f).Plays db s r calls t := by
  have hall := h.bind h'
  rwa [List.append_nil] at hall

theorem Plays.bind_error {e : Error} (h : a.Plays db s (.error e) calls t) :
    (a >>= f).Plays db s (.error e) calls t := ⟨h.makes.bind_error, h.genuine, h.replays⟩

theorem Plays.attempt {q : Except Error α} (h : a.Plays db s q calls t) :
    a.attempt.Plays db s (.ok q) calls t :=
  ⟨fun log => ends_attempt.mpr ⟨q, h.makes log, rfl⟩, h.genuine, h.replays⟩

@[simp] theorem plays_log_bind {level : Level} {message : String} {fields : List (String × String)}
    {f : Unit → Action (σ × List Call) β} {r : Except Error β} :
    (log level message fields >>= f).Plays db s r calls t ↔ (f ()).Plays db s r calls t := by
  constructor
  · exact fun h => ⟨makes_log_bind.mp h.makes, h.genuine, h.replays⟩
  · exact fun h => ⟨makes_log_bind.mpr h.makes, h.genuine, h.replays⟩

/-- A call that is recorded is what the database does. -/
theorem plays_noting {b : Action σ α} {call : Except Error α → Call}
    (hgenuine : (call (b s).answer).IsGenuine db s)
    (hafter : (call (b s).answer).after db s = (b s).state) :
    (b.noting call).Plays db s (b s).answer [call (b s).answer] (b s).state :=
  ⟨makes_noting (ends_run b s) call, ⟨hgenuine, trivial⟩, hafter⟩

section Controls

variable (db : Adapter σ) (s : σ)

theorem plays_begin : db.recorded.begin.Plays db s (db.begin s).answer
    [.begin (db.begin s).answer] (db.begin s).state := plays_noting rfl rfl

theorem plays_commit : db.recorded.commit.Plays db s (db.commit s).answer
    [.commit (db.commit s).answer] (db.commit s).state := plays_noting rfl rfl

theorem plays_rollback : db.recorded.rollback.Plays db s (db.rollback s).answer
    [.rollback (db.rollback s).answer] (db.rollback s).state := plays_noting rfl rfl

/-- A guard that goes away tries a rollback, once, and answers nothing of it. -/
theorem plays_release : (Guard.release db.recorded).Plays db s (.ok ())
    [.rollback (db.rollback s).answer] (db.rollback s).state := by
  refine plays_log_bind.mpr ((plays_rollback db s).attempt.bind_quiet ?_)
  cases (db.rollback s).answer with
  | ok _ => exact plays_pure () _
  | error e => exact plays_log ..

end Controls

/-- All that the action does with the database it does by calls that it records. -/
def Recounts (db : Adapter σ) (a : Action (σ × List Call) α) : Prop :=
  ∀ s, ∃ r calls u, a.Plays db s r calls u

theorem Recounts.bind (ha : Recounts db a) (hf : ∀ x, Recounts db (f x)) :
    Recounts db (a >>= f) := by
  intro s
  obtain ⟨r, calls, u, h⟩ := ha s
  cases r with
  | ok x =>
    obtain ⟨r, more, t, h'⟩ := hf x u
    exact ⟨r, _, t, h.bind h'⟩
  | error e => exact ⟨_, _, u, h.bind_error⟩

theorem Recounts.attempt (ha : Recounts db a) : Recounts db a.attempt := by
  intro s
  obtain ⟨r, calls, u, h⟩ := ha s
  exact ⟨_, _, _, h.attempt⟩

end Action
end Relata
