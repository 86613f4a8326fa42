import Relata.Proofs.Account
import Relata.Proofs.Replay

/-!
What a server did about a request, as far as the answer tells. Main statement: unless a call is given
up, its answer tells just what the server does about it by its script, whether it executes the request,
refuses it, or never comes to execute it.
-/
namespace Relata.Postgres

open Relata.Action

/-- What the server did about a request. -/
inductive Verdict where
  | executed
  | refused
  /-- The request never came to be executed, or nothing is known of it. -/
  | unserved
  deriving DecidableEq, Repr

namespace Verdict

/-- Rows that cannot be decoded come from a statement that was executed. -/
def ofError : Error → Verdict
  | .undefinedTable _ => .refused
  | .postgres (.rejected ..) => .refused
  | .postgres (.column _) => .executed
  | _ => .unserved

def ofAnswer {α : Type} : Except Error α → Verdict
  | .ok _ => .executed
  | .error e => ofError e

/-- What the server does about a statement that it prepares, by its script. -/
def ofResponse (r : Response) (params : List Value) : Verdict :=
  if r.prepareError.isSome then .refused
  else if r.params.length = params.length then
    match encodeParams 0 r.params params with
    | .error _ => .unserved
    | .ok _ => if r.executeError.isSome then .refused else .executed
  else .unserved

/-- What the server does about a statement with these parameters, by its script, in time or later. What
is prepared too late is never executed, as no parameters follow. -/
def ofScript (s : State) (params : List Value) : Verdict :=
  match s.link, s.replies.headD (.response .empty) with
  | .live, .response r => ofResponse r params
  | .live, .executedLate r => ofResponse r params
  | .live, .preparedLate r => if r.prepareError.isSome then .refused else .unserved
  | _, _ => .unserved

/-- What the server does about a control statement, if the connection sends it. -/
def ofControl (s : State) (active : Bool) : Verdict :=
  if s.link = .live ∧ s.inTransaction = active then
    match s.controls.headD .success with
    | .success => .executed
    | .rejected _ => .refused
    | .silent => .unserved
  else .unserved

theorem ofError_rejection (r : Rejection) : ofError r.toError = .refused := by
  unfold Rejection.toError
  split <;> rfl

theorem requireLink_ends (s : State) : requireLink.Ends s
    (match s.link with
      | .absent => .error .notConnected
      | .live => .ok ()
      | .silent => .error (.queryTimeout Error.patience)
      | .closed => .error (.postgres .closed)) s := by
  rw [requireLink, ends_get_bind]
  cases s.link <;> exact ⟨rfl, rfl⟩

/-- A control statement is answered as the server has served it. -/
theorem control_served {sql : String} {active : Bool} {s t : State} {r : Except Error Unit}
    (h : (control sql active).Ends s r t) : ofAnswer r = ofControl s active := by
  have hlinked := requireLink_ends s
  rw [control, ends_get_bind] at h
  rw [ofControl]
  by_cases hflag : s.inTransaction = active
  · cases hlink : s.link with
    | absent =>
      rw [if_pos hlink] at h
      obtain ⟨rfl, -⟩ := ends_fail.mp h
      rfl
    | silent | closed =>
      rw [hlink] at hlinked
      rw [if_neg (by simp [hlink]), if_neg (by simpa using hflag)] at h
      obtain rfl := (h.unique hlinked.bind_error).1
      rfl
    | live =>
      rw [hlink] at hlinked
      rw [if_neg (by simp [hlink]), if_neg (by simpa using hflag),
        Ends.bind_iff hlinked, see, ends_modify_bind, ends_modify_bind] at h
      rw [if_pos ⟨rfl, hflag⟩]
      cases hreply : s.controls.headD .success with
      | success =>
        simp only [hreply] at h
        obtain ⟨rfl, -⟩ := ends_modify.mp h
        rfl
      | rejected e =>
        simp only [hreply] at h
        obtain ⟨rfl, -⟩ := ends_fail.mp h
        exact ofError_rejection e
      | silent =>
        simp only [hreply] at h
        obtain ⟨rfl, -⟩ := ends_fail.mp (ends_modify_bind.mp h)
        rfl
  · rw [if_neg fun h => hflag h.2]
    by_cases habsent : s.link = .absent
    · rw [if_pos habsent] at h
      obtain ⟨rfl, -⟩ := ends_fail.mp h
      rfl
    · rw [if_neg habsent, if_pos (by simpa using hflag)] at h
      obtain ⟨rfl, -⟩ := ends_fail.mp h
      cases active <;> rfl

/-- A control statement that the server executes succeeds. -/
theorem answer_of_executed {sql : String} {active : Bool} {s : State}
    (h : ofControl s active = .executed) : (control sql active s).answer = .ok () := by
  have hends := ends_run (control sql active) s
  have hlinked := requireLink_ends s
  unfold ofControl at h
  split at h
  next hsent =>
    obtain ⟨hlink, hflag⟩ := hsent
    rw [hlink] at hlinked
    rw [control, ends_get_bind, if_neg (by simp [hlink]), if_neg (by simpa using hflag),
      Ends.bind_iff hlinked, see, ends_modify_bind, ends_modify_bind] at hends
    cases hreply : s.controls.headD .success with
    | success =>
      simp only [hreply] at hends
      exact (ends_modify.mp hends).1
    | rejected | silent =>
      simp only [hreply] at h
      cases h
  next => cases h

end Verdict

/-- What the server did about the call, as far as the answer tells. -/
def verdict : Call → Verdict
  | .connect _ _ | .disconnect _ => .unserved
  | .execute _ r | .executeWith _ _ r => .ofAnswer r
  | .query _ r | .queryWith _ _ r => .ofAnswer r
  | .begin r | .commit r | .rollback r => .ofAnswer r

/-- What the server does about the call by its script. -/
def served (s : State) : Call → Verdict
  | .connect _ _ | .disconnect _ => .unserved
  | .execute _ _ | .query _ _ => .ofScript s []
  | .executeWith _ params _ | .queryWith _ params _ => .ofScript s params
  | .begin _ => .ofControl s false
  | .commit _ | .rollback _ => .ofControl s true

end Relata.Postgres
