import Mathlib.Data.List.Induction
import Relata.Proofs.Saving

/-!
The flag of a connection beside its engine. The connection says by a flag that a transaction is open,
and the engine knows by itself. Main statement: over every sequence of uses, also of such as are given
up and carried out later, the flag stands just if the engine is inside a transaction, or lost one
otherwise than by a commit or rollback since the connection was opened or closed last.
-/
namespace Relata.Sqlite

open Relata.Action Relata.Adapter

variable {ε : Type} {d : Driver ε} {inside : ε → Bool}

namespace Job

/-- The job is one that a connection takes on, with statements that control no transaction. -/
def IsUsual : Job → Prop
  | .openAt _ => True
  | .control sql active => (sql, active) ∈ controls
  | .query sql _ | .execute sql _ => IsPlain sql

theorem IsUsual.runs {job : Job} (h : job.IsUsual) :
    (∃ path, job = .openAt path) ∨
      (∃ sql active, job = .control sql active ∧ (sql, active) ∈ controls) ∨
        job.Runs Sqlite.IsPlain := by
  cases job with
  | openAt path => exact .inl ⟨path, rfl⟩
  | control sql active => exact .inr (.inl ⟨sql, active, rfl, h⟩)
  | query sql params => exact .inr (.inr (.query h params))
  | execute sql params => exact .inr (.inr (.execute h params))

theorem isUsual_ofUse {use : Use} (h : ∀ sql ∈ use.text?, Sqlite.IsPlain sql) :
    ∀ job ∈ ofUse use, job.IsUsual := by
  cases use with
  | connect | disconnect | begin | commit | rollback => simp [ofUse, IsUsual, controls]
  | execute | executeWith | query | queryWith => simpa [ofUse, IsUsual, Use.text?] using h

/-- The ways in which a job can cost the engine its transaction, other than that a commit or rollback
succeeds. -/
inductive Loses (d : Driver ε) (e : ε) : Job → Prop
  | query (sql : String) (params : List Cell) : Loses d e (.query sql params)
  | execute (sql : String) (params : List Cell) : Loses d e (.execute sql params)
  /-- The engine refuses to commit, say, and has rolled back by itself. -/
  | refused {sql message : String} {left : ε} (h : d.execute sql [] e = (.error message, left))
    (active : Bool) : Loses d e (.control sql active)
  /-- A database takes the place of the one that the transaction belongs to. -/
  | replaced {path : String} {left : ε} (h : d.openAt path e = (.ok (), left)) :
    Loses d e (.openAt path)

theorem loses_of_runs {plain : String → Prop} {job : Job} (h : job.Runs plain) (e : ε) :
    job.Loses d e := by
  cases h with
  | query => exact .query ..
  | execute => exact .execute ..

end Job

namespace Link

variable {s t : Link ε}

/-- The engine is inside a transaction of the open database. -/
def isInside (inside : ε → Bool) (s : Link ε) : Bool := s.isOpen && inside s.engine

/-- What a job does to the flag and to the transaction of the engine. -/
inductive Effects (d : Driver ε) (inside : ε → Bool) (job : Job) (s t : Link ε) : Prop
  | stayed (flag : t.inTransaction = s.inTransaction) (inside : isInside inside t = isInside inside s)
  | turned (active : Bool) (before : s.inTransaction = active)
    (insideBefore : isInside inside s = active) (flag : t.inTransaction = !active)
    (inside : isInside inside t = !active) (keeps : ¬job.Loses d s.engine)
  | lost (loses : job.Loses d s.engine) (flag : t.inTransaction = s.inTransaction)
    (insideBefore : isInside inside s = true) (inside : isInside inside t = false)

/-- Which connection of the same engine and flag the job is done on makes no difference. -/
theorem Effects.of_same {job : Job} {u : Link ε} (h : Effects d inside job u t)
    (engine : u.engine = s.engine) (isOpen : u.isOpen = s.isOpen)
    (flag : u.inTransaction = s.inTransaction) : Effects d inside job s t := by
  have hinside : isInside inside u = isInside inside s := by rw [isInside, isInside, engine, isOpen]
  cases h with
  | stayed hflag hsame => exact .stayed (hflag.trans flag) (hsame.trans hinside)
  | turned active before insideBefore hflag hafter keeps =>
    exact .turned active (flag ▸ before) (hinside ▸ insideBefore) hflag hafter (engine ▸ keeps)
  | lost loses hflag insideBefore hafter =>
    exact .lost (engine ▸ loses) (hflag.trans flag) (hinside ▸ insideBefore) hafter

/-- Where no transaction begins, one may be lost. -/
theorem Effects.of_ends {job : Job} (hloses : job.Loses d s.engine)
    (hflag : t.inTransaction = s.inTransaction)
    (hinside : isInside inside t = true → isInside inside s = true) : Effects d inside job s t := by
  by_cases hsame : isInside inside t = isInside inside s
  · exact .stayed hflag hsame
  · cases hafter : isInside inside t with
    | true => exact absurd (hafter.trans (hinside hafter).symm) hsame
    | false =>
      cases hbefore : isInside inside s with
      | true => exact .lost hloses hflag hbefore hafter
      | false => exact absurd (hafter.trans hbefore.symm) hsame

theorem effects_openAt (hd : d.Transacts inside) (path : String) (s : Link ε) :
    Effects d inside (.openAt path) s (after d s (.openAt path)) := by
  change Effects d inside _ s (openNow d path s).state
  obtain ⟨left, ⟨hopened, hleft⟩ | ⟨message, hfailed, hleft⟩⟩ := openNow_cases (d := d) path s
  · rw [hleft]
    refine .of_ends (.replaced hopened) rfl fun hinside => ?_
    have hfresh := hd.opened hopened
    simp [isInside, hfresh] at hinside
  · rw [hleft]
    refine .stayed rfl ?_
    rw [isInside, isInside, hd.unopened hfailed]

theorem effects_control (hd : d.Transacts inside) {sql : String} {active : Bool}
    (hsql : (sql, active) ∈ controls) (s : Link ε) :
    Effects d inside (.control sql active) s (after d s (.control sql active)) := by
  change Effects d inside _ s (controlNow d sql active s).state
  obtain ⟨-, ht⟩ | ⟨left, hopen, hflag, ⟨n, hrun, -, ht⟩ | ⟨message, hrun, -, ht⟩⟩ :=
    controlNow_cases (ends_run (controlNow d sql active) s)
  · rw [ht]
    exact .stayed rfl rfl
  · obtain ⟨hbefore, hafter⟩ := hd.turned hsql hrun
    rw [ht]
    refine .turned active hflag ?_ rfl ?_ ?_
    · rw [isInside, hopen, hbefore, Bool.true_and]
    · simp [isInside, hopen, hafter]
    · rintro ⟨⟩
      next hrefused => cases hrun.symm.trans hrefused
  · rw [ht]
    refine .of_ends (.refused hrun active) rfl fun hinside => ?_
    have hleft : inside left = true := by simpa [isInside, hopen] using hinside
    simp [isInside, hopen, hd.refused hsql hrun hleft]

theorem effects_runs (hd : d.Transacts inside) {job : Job} (hjob : job.Runs IsPlain) (s : Link ε) :
    Effects d inside job s (after d s job) := by
  obtain hsame | ⟨sql, params, left, hsql, hopen, hleaves, hleft⟩ := after_of_runs (d := d) hjob s
  · rw [hsame]
    exact .stayed rfl rfl
  · rw [hleft]
    refine .of_ends (Job.loses_of_runs hjob _) rfl fun hinside => ?_
    have hin : inside left = true := by simpa [isInside, hopen] using hinside
    simp [isInside, hopen, hd.worked hsql hleaves hin]

/-- A job turns over the flag together with the transaction of the engine, or leaves the flag. -/
theorem effects_after (hd : d.Transacts inside) {job : Job} (hjob : job.IsUsual) (s : Link ε) :
    Effects d inside job s (after d s job) := by
  obtain ⟨path, rfl⟩ | ⟨sql, active, rfl, hsql⟩ | hruns := hjob.runs
  · exact effects_openAt hd path s
  · exact effects_control hd hsql s
  · exact effects_runs hd hruns s

theorem late_after (job : Job) (s : Link ε) : (after d s job).late = s.late := by
  obtain ⟨path, rfl⟩ | ⟨sql, active, rfl⟩ | hruns := job.opens_or_controls_or_runs
  · change (openNow d path s).state.late = s.late
    obtain ⟨left, ⟨-, hleft⟩ | ⟨_, -, hleft⟩⟩ := openNow_cases (d := d) path s
    · rw [hleft]
    · rw [hleft]
  · change (controlNow d sql active s).state.late = s.late
    obtain ⟨-, ht⟩ | ⟨left, -, -, ⟨_, -, -, ht⟩ | ⟨_, -, -, ht⟩⟩ :=
      controlNow_cases (ends_run (controlNow d sql active) s)
    · rw [ht]
    · rw [ht]
    · rw [ht]
  · obtain hsame | ⟨_, _, left, -, -, -, hleft⟩ := after_of_runs (d := d) hruns s
    · rw [hsame]
    · rw [hleft]

/-- What happens to a connection: it is used, and fails to do its job in time or not; or it does a job
after all that it gave up before. -/
inductive Step where
  | use (use : Use) (isLate : Bool)
  /-- The job at this place among those that were given up. -/
  | resume (i : Nat)

namespace Step

def text? : Step → Option String
  | .use u _ => u.text?
  | .resume _ => none

def renews : Step → Bool
  | .use u _ => u.renews
  | .resume _ => false

/-- What the caller has run in the step neither begins nor ends a transaction. -/
def IsPlain (step : Step) : Prop := ∀ sql ∈ step.text?, Sqlite.IsPlain sql

instance (step : Step) : Decidable step.IsPlain :=
  inferInstanceAs (Decidable (∀ sql ∈ step.text?, Sqlite.IsPlain sql))

def after (d : Driver ε) (s : Link ε) : Step → Link ε
  | .use u isLate => u.after (adapter d) { s with isStalled := isLate }
  | .resume i => Link.resume d i s

/-- The job that is done in the step, if one is. -/
def job? (s : Link ε) : Step → Option Job
  | .use u isLate => if isLate then none else Job.ofUse u
  | .resume i => s.late[i]?

end Step

/-- What one step does to the flag and to the transaction of the engine. -/
inductive Moves (d : Driver ε) (inside : ε → Bool) (step : Step) (s t : Link ε) : Prop
  | renewed (h : step.renews = true) (flag : t.inTransaction = false)
    (inside : isInside inside t = false)
  | idle (h : step.renews = false) (flag : t.inTransaction = s.inTransaction)
    (inside : isInside inside t = isInside inside s)
  | did (h : step.renews = false) {job : Job} (hjob : step.job? s = some job)
    (effects : Effects d inside job s t)

theorem moves_renewing (hd : d.Transacts inside) {use : Use} (h : use.renews = true)
    (isLate : Bool) (s : Link ε) :
    Moves d inside (.use use isLate) s (Step.after d s (.use use isLate)) := by
  refine .renewed h ((adapter_flagged d).renewed h _) ?_
  rw [Step.after, after_use]
  cases use with
  | connect path =>
    dsimp only [Job.ofUse, doOrLeave]
    split
    · rfl
    · change isInside inside (openNow d path _).state = false
      obtain ⟨left, ⟨hopened, hleft⟩ | ⟨_, -, hleft⟩⟩ :=
        openNow_cases (d := d) path (ready d { s with isStalled := isLate } (.connect path))
      · rw [hleft, isInside, hd.opened hopened, Bool.and_false]
      · rw [hleft]
        rfl
  | disconnect => rfl
  | begin | commit | rollback | execute | executeWith | query | queryWith => cases h

theorem moves_using (hd : d.Transacts inside) {use : Use} (h : use.renews = false)
    (hplain : ∀ sql ∈ use.text?, IsPlain sql) (isLate : Bool) (s : Link ε) :
    Moves d inside (.use use isLate) s (Step.after d s (.use use isLate)) := by
  have hready : ready d { s with isStalled := isLate } use = { s with isStalled := isLate } :=
    if_neg (by simp [h])
  rw [Step.after, after_use, hready]
  cases hjob : Job.ofUse use with
  | none => exact .idle h rfl rfl
  | some job =>
    cases isLate with
    | true => exact .idle h rfl rfl
    | false =>
      have hstep : (Step.use use false).job? s = some job := by simp [Step.job?, hjob]
      -- whether the connection is in time concerns neither the flag nor the engine
      have heffects := effects_after hd (Job.isUsual_ofUse hplain job hjob)
        { s with isStalled := false }
      exact .did h hstep (heffects.of_same rfl rfl rfl)

theorem moves_resume (hd : d.Transacts inside) (hlate : ∀ job ∈ s.late, job.IsUsual) (i : Nat) :
    Moves d inside (.resume i) s (Step.after d s (.resume i)) := by
  rw [Step.after, Link.resume]
  cases hjob : s.late[i]? with
  | none => exact .idle rfl rfl rfl
  | some job =>
    have hstep : (Step.resume i).job? s = some job := hjob
    have heffects := effects_after hd (hlate job (List.mem_of_getElem? hjob))
      { s with late := s.late.eraseIdx i }
    exact .did rfl hstep (heffects.of_same rfl rfl rfl)

theorem moves (hd : d.Transacts inside) {step : Step} (hstep : step.IsPlain)
    (hlate : ∀ job ∈ s.late, job.IsUsual) : Moves d inside step s (step.after d s) := by
  cases step with
  | use use isLate =>
    cases h : use.renews with
    | true => exact moves_renewing hd h isLate s
    | false => exact moves_using hd h hstep isLate s
  | resume i => exact moves_resume hd hlate i

/-- What is given up is what the caller asked for. -/
theorem late_step {step : Step} (hstep : step.IsPlain) (hlate : ∀ job ∈ s.late, job.IsUsual) :
    ∀ job ∈ (step.after d s).late, job.IsUsual := by
  cases step with
  | use use isLate =>
    have hready : (ready d { s with isStalled := isLate } use).late = s.late := by
      unfold ready
      split <;> rfl
    rw [Step.after, after_use]
    cases hjob : Job.ofUse use with
    | none => simpa only [hready] using hlate
    | some new =>
      simp only [doOrLeave]
      split
      · rw [hready]
        intro job hmem
        rcases List.mem_append.mp hmem with hold | hnew
        · exact hlate job hold
        · rw [List.mem_singleton.mp hnew]
          exact Job.isUsual_ofUse hstep new hjob
      · simpa only [late_after, hready] using hlate
  | resume i =>
    rw [Step.after, Link.resume]
    cases hjob : s.late[i]? with
    | none => exact hlate
    | some job =>
      simp only [late_after]
      exact fun other hother => hlate other (List.mem_of_mem_eraseIdx hother)

/-- The connection after the steps, from one that was never opened. -/
def reached (d : Driver ε) (e : ε) (steps : List Step) : Link ε := steps.foldl (Step.after d) (closed e)

theorem reached_concat (d : Driver ε) (e : ε) (steps : List Step) (step : Step) :
    reached d e (steps ++ [step]) = step.after d (reached d e steps) := by
  rw [reached, List.foldl_append]
  rfl

theorem late_reached {e : ε} {steps : List Step} (h : ∀ step ∈ steps, step.IsPlain) :
    ∀ job ∈ (reached d e steps).late, job.IsUsual := by
  induction steps using List.reverseRecOn with
  | nil => exact fun job hjob => absurd hjob List.not_mem_nil
  | append_singleton steps step ih =>
    rw [reached_concat]
    exact late_step (h step (by simp)) (ih fun other hother => h other (List.mem_append_left _ hother))

/-- After the steps before it, the step costs the engine its transaction. -/
structure Costs (d : Driver ε) (inside : ε → Bool) (e : ε) (before : List Step) (step : Step) :
    Prop where
  renews : step.renews = false
  loses : ∃ job ∈ step.job? (reached d e before), job.Loses d (reached d e before).engine
  wasInside : isInside inside (reached d e before) = true
  isOutside : isInside inside (reached d e (before ++ [step])) = false

/-- The engine has lost a transaction, and the connection was neither opened nor closed since. -/
def HasLost (d : Driver ε) (inside : ε → Bool) (e : ε) (steps : List Step) : Prop :=
  ∃ before step later, steps = before ++ step :: later ∧ Costs d inside e before step ∧
    ∀ other ∈ later, other.renews = false

theorem not_hasLost_nil {e : ε} : ¬HasLost d inside e [] := by
  rintro ⟨before, step, later, h, -⟩
  exact List.append_ne_nil_of_right_ne_nil before (List.cons_ne_nil step later) h.symm

theorem hasLost_concat {e : ε} {steps : List Step} {step : Step} :
    HasLost d inside e (steps ++ [step]) ↔
      Costs d inside e steps step ∨ HasLost d inside e steps ∧ step.renews = false := by
  constructor
  · rintro ⟨before, first, later, hsteps, hcosts, hlater⟩
    obtain rfl | ⟨rest, last, rfl⟩ := List.eq_nil_or_concat later
    · obtain ⟨rfl, hstep⟩ := List.append_inj' hsteps rfl
      cases hstep
      exact .inl hcosts
    · rw [List.concat_eq_append] at hsteps hlater
      rw [← List.cons_append, ← List.append_assoc] at hsteps
      obtain ⟨rfl, hstep⟩ := List.append_inj' hsteps rfl
      cases hstep
      refine .inr ⟨⟨before, first, rest, rfl, hcosts, ?_⟩, hlater step (by simp)⟩
      exact fun other hother => hlater other (List.mem_append_left _ hother)
  · rintro (hcosts | ⟨⟨before, first, later, rfl, hcosts, hlater⟩, hstep⟩)
    · exact ⟨steps, step, [], rfl, hcosts, fun _ h => absurd h List.not_mem_nil⟩
    · refine ⟨before, first, later ++ [step], by simp, hcosts, fun other hother => ?_⟩
      rcases List.mem_append.mp hother with hold | hnew
      · exact hlater other hold
      · rw [List.mem_singleton.mp hnew, hstep]

/-- The flag against the engine, where `lost` says that a transaction was lost. -/
structure Tallies (inside : ε → Bool) (s : Link ε) (lost : Prop) : Prop where
  flag : s.inTransaction = true ↔ isInside inside s = true ∨ lost
  apart : isInside inside s = true → ¬lost

theorem Tallies.moved {step : Step} {before after costs : Prop} (h : Tallies inside s before)
    (hmoves : Moves d inside step s t) (hafter : after ↔ costs ∨ before ∧ step.renews = false)
    (hcosts : costs ↔ step.renews = false ∧ (∃ job ∈ step.job? s, job.Loses d s.engine) ∧
      isInside inside s = true ∧ isInside inside t = false) : Tallies inside t after := by
  have hstay (hrenews : step.renews = false) (hflag : t.inTransaction = s.inTransaction)
      (hinside : isInside inside t = isInside inside s) : Tallies inside t after := by
    have hsame : after ↔ before := by
      rw [hafter, hcosts, hrenews, hinside]
      constructor
      · rintro (⟨-, -, hin, hout⟩ | ⟨hbefore, -⟩)
        · exact absurd (hin.symm.trans hout) (by decide)
        · exact hbefore
      · exact fun hbefore => .inr ⟨hbefore, rfl⟩
    rw [hsame]
    exact ⟨by rw [hflag, hinside, h.flag], by rw [hinside]; exact h.apart⟩
  cases hmoves with
  | renewed hrenews hflag hinside =>
    have hnot : ¬after := by simp [hafter, hcosts, hrenews]
    exact ⟨by simp [hflag, hinside, hnot], fun _ => hnot⟩
  | idle hrenews hflag hinside => exact hstay hrenews hflag hinside
  | @did hrenews job hjob heffects =>
    cases heffects with
    | stayed hflag hinside => exact hstay hrenews hflag hinside
    | turned active hbefore hinsideBefore hflag hinside hkeeps =>
      -- the flag and the engine agree here, so nothing has been lost
      have hnone : ¬before := by
        intro hlost
        cases active with
        | true => exact h.apart hinsideBefore hlost
        | false => exact absurd (h.flag.mpr (.inr hlost)) (by simp [hbefore])
      have hnot : ¬after := by simp [hafter, hcosts, hjob, hkeeps, hnone]
      exact ⟨by simp [hflag, hinside, hnot], fun _ => hnot⟩
    | lost hloses hflag hinsideBefore hinside =>
      have hnow : after :=
        hafter.mpr (.inl (hcosts.mpr ⟨hrenews, ⟨job, hjob, hloses⟩, hinsideBefore, hinside⟩))
      have hstood : s.inTransaction = true := h.flag.mpr (.inl hinsideBefore)
      exact ⟨by simp [hflag, hstood, hnow], by simp [hinside]⟩

theorem tallies_reached (hd : d.Transacts inside) (e : ε) (steps : List Step)
    (h : ∀ step ∈ steps, step.IsPlain) :
    Tallies inside (reached d e steps) (HasLost d inside e steps) := by
  induction steps using List.reverseRecOn with
  | nil => exact ⟨by simp [reached, closed, isInside, not_hasLost_nil], fun _ => not_hasLost_nil⟩
  | append_singleton steps step ih =>
    have hearlier : ∀ other ∈ steps, other.IsPlain :=
      fun other hother => h other (List.mem_append_left _ hother)
    have hmoves := moves hd (h step (by simp)) (late_reached (d := d) (e := e) hearlier)
    rw [← reached_concat] at hmoves
    refine (ih hearlier).moved hmoves hasLost_concat ?_
    exact ⟨fun hc => ⟨hc.renews, hc.loses, hc.wasInside, hc.isOutside⟩,
      fun ⟨hrenews, hloses, hin, hout⟩ => ⟨hrenews, hloses, hin, hout⟩⟩

/-- Whatever is done with a connection, and whatever of it is done too late: its flag stands just if
the engine is inside a transaction, or has lost one otherwise than by a commit or rollback, the
connection being neither opened nor closed since. These two never hold together. -/
theorem inTransaction_iff (hd : d.Transacts inside) (e : ε) {steps : List Step}
    (h : ∀ step ∈ steps, step.IsPlain) :
    ((reached d e steps).inTransaction = true ↔
        isInside inside (reached d e steps) = true ∨ HasLost d inside e steps) ∧
      (isInside inside (reached d e steps) = true → ¬HasLost d inside e steps) :=
  ⟨(tallies_reached hd e steps h).flag, (tallies_reached hd e steps h).apart⟩

end Link

namespace Connection

/-- Something would be brought back by a rollback. -/
def isSaved (e : Engine) : Bool := e.saved.isSome

/-- A row is inserted twice in a transaction, the second time so as to roll back. -/
def twice : List Link.Step := [
  .use (.connect ":memory:") false, .use (.execute "CREATE TABLE notes (id INTEGER PRIMARY KEY)") false,
  .use .begin false, .use (.execute "INSERT INTO notes (id) VALUES (1)") false,
  .use (.execute "INSERT OR ROLLBACK INTO notes (id) VALUES (1)") false]

theorem plain_twice : ∀ step ∈ twice, step.IsPlain := by decide +kernel

theorem reached_twice :
    (Link.reached Engine.driver .empty twice).inTransaction = true ∧
      (Link.reached Engine.driver .empty twice).isOpen = true ∧
      Link.isInside isSaved (Link.reached Engine.driver .empty twice) = false := by
  decide +kernel

theorem hasLost_twice :
    (∀ step ∈ twice, step.IsPlain) ∧ Link.HasLost Engine.driver isSaved .empty twice := by
  obtain ⟨hflag, -, hout⟩ := reached_twice
  have hiff := Link.inTransaction_iff Engine.driver_restores.toTransacts .empty plain_twice
  exact ⟨plain_twice, (hiff.1.mp hflag).resolve_left (Bool.eq_false_iff.mp hout)⟩

/-- The flag still stands when the engine has left the transaction. -/
theorem inTransaction_twice :
    (∀ step ∈ twice, step.IsPlain) ∧
      (Link.reached Engine.driver .empty twice).inTransaction = true ∧
      (Link.reached Engine.driver .empty twice).isOpen = true ∧
      Link.isInside isSaved (Link.reached Engine.driver .empty twice) = false :=
  ⟨plain_twice, reached_twice⟩

end Connection

end Relata.Sqlite
