import Mathlib.Data.List.Induction
import Relata.Guard
import Relata.Proofs.Saving

/-!
Guards that share one connection. Each step is one guard's, or opens or closes the connection, or is
none of anyone's as time passes; a rollback that a guard leaves behind may come at any later time, and
so may a control statement that was given up. Main statement: as long as no guard ends a transaction
when its own is over already, each guard ends its own; the first one that does so ends a transaction
of another guard.
-/
namespace Relata

/-- What is left of a connection when a control statement is carried out that was given up before: as
any control statement, it turns over the flag or leaves it. -/
def Adapter.Lands {σ : Type} (db : Adapter σ) (active : Bool) (f : σ → σ) : Prop :=
  ∀ s, (db.inTransaction s = active ∧ db.inTransaction (f s) = !active) ∨
    db.inTransaction (f s) = db.inTransaction s

namespace Guard

/-- How far a guard has come. -/
inductive Phase where
  | fresh
  | held
  /-- Given up, with its rollback still to come. -/
  | released
  | over
  deriving DecidableEq, Repr

/-- One step on a connection that guards share. Guards go by numbers. -/
inductive Move {σ : Type} (db : Adapter σ) where
  | renew (use : Adapter.Use) (h : use.renews = true)
  | work (use : Adapter.Use) (h : use.text?.isSome = true)
  /-- The connection comes to a stop, goes on, or catches up on statements that were given up. -/
  | pass (f : σ → σ) (h : ∀ s, db.inTransaction (f s) = db.inTransaction s)
  | start (g : Nat)
  | commit (g : Nat)
  | rollback (g : Nat)
  | drop (g : Nat)
  | dropOutside (g : Nat)
  /-- The rollback that the guard has left behind is run. -/
  | settle (g : Nat)
  /-- The transaction begins for which the guard has waited in vain. -/
  | lateStart (g : Nat) (f : σ → σ) (h : db.Lands false f)
  /-- A commit or rollback of the guard, given up before, is carried out after all. -/
  | lateEnd (g : Nat) (f : σ → σ) (h : db.Lands true f)

/-- What happens to the transactions of a connection. -/
inductive Incident where
  | renewed
  | began (g : Nat)
  | ended (g : Nat)
  deriving DecidableEq, Repr

/-- A connection beside the guards that share it. -/
structure Shared (σ : Type) where
  connection : σ
  phase : Nat → Phase

namespace Shared

variable {σ : Type} {db : Adapter σ}

def start (s : σ) : Shared σ := ⟨s, fun _ => .fresh⟩

def put (s : Shared σ) (g : Nat) (p : Phase) : Shared σ :=
  { s with phase := Function.update s.phase g p }

/-- The guard has a control statement run. Where that fails, the guard comes as far as `failed`. -/
def control (s : Shared σ) (g : Nat) (statement : Action σ Unit) (failed : Phase) :
    Shared σ × List Incident :=
  let o := statement s.connection
  match o.answer with
  | .ok _ => ({ s with connection := o.state }.put g .over, [.ended g])
  | .error _ => ({ s with connection := o.state }.put g failed, [])

/-- A control statement is carried out for which nobody waits any more. What happens is told by the
flag. -/
def land (db : Adapter σ) (s : Shared σ) (f : σ → σ) (turned : Shared σ × List Incident) :
    Shared σ × List Incident :=
  if db.inTransaction (f s.connection) = db.inTransaction s.connection then
    ({ s with connection := f s.connection }, [])
  else turned

/-- What a step leaves, and what happens in it. A step that is not for the guard to take is none. -/
def perform (s : Shared σ) : Move db → Shared σ × List Incident
  | .renew use _ => ({ s with connection := use.after db s.connection }, [.renewed])
  | .work use _ => ({ s with connection := use.after db s.connection }, [])
  | .pass f _ => ({ s with connection := f s.connection }, [])
  | .start g =>
    if s.phase g = .fresh then
      let o := Guard.start db s.connection
      match o.answer with
      | .ok _ => ({ s with connection := o.state }.put g .held, [.began g])
      | .error _ => ({ s with connection := o.state }, [])
    else (s, [])
  | .commit g => if s.phase g = .held then s.control g db.commit .released else (s, [])
  | .rollback g => if s.phase g = .held then s.control g db.rollback .released else (s, [])
  | .drop g => if s.phase g = .held then (s.put g .released, []) else (s, [])
  | .dropOutside g => if s.phase g = .held then (s.put g .over, []) else (s, [])
  | .settle g => if s.phase g = .released then s.control g db.rollback .over else (s, [])
  | .lateStart g f _ =>
    if s.phase g = .fresh then
      s.land db f ({ s with connection := f s.connection }.put g .over, [.began g])
    else (s, [])
  | .lateEnd g f _ =>
    if s.phase g = .fresh then (s, [])
    else s.land db f ({ s with connection := f s.connection }, [.ended g])

/-- What a number of steps leave, and all that happens in them. -/
def run (s : Shared σ) (moves : List (Move db)) : Shared σ × List Incident :=
  moves.foldl (fun r m => ((r.1.perform m).1, r.2 ++ (r.1.perform m).2)) (s, [])

end Shared

/-- The steps by which a guard is given up, with nothing between them. -/
def movesOf {σ : Type} {db : Adapter σ} (g : Nat) : GuardEnd → List (Move db)
  | .commit => [.commit g, .settle g]
  | .rollback => [.rollback g, .settle g]
  | .drop => [.drop g, .settle g]
  | .dropOutside => [.dropOutside g]

/-- The guard that began the transaction that is open. -/
def openedBy : List Incident → Option Nat :=
  List.foldl (fun _ i => match i with | .began g => some g | _ => none) none

/-- The guard has begun a transaction, and since then has ended one or the connection was opened or
closed. -/
def Outlived (g : Nat) (incidents : List Incident) : Prop :=
  ∃ before later, incidents = before ++ .began g :: later ∧ (.renewed ∈ later ∨ .ended g ∈ later)

/-- Wherever a guard ends a transaction, this holds of the guard and of what has happened before. -/
def AtEnds (P : List Incident → Nat → Prop) (incidents : List Incident) : Prop :=
  ∀ before g later, incidents = before ++ .ended g :: later → P before g

/-- Each guard that ends a transaction has begun it. -/
def EndOwn : List Incident → Prop := AtEnds fun before g => openedBy before = some g

/-- Each transaction that is ended was begun by some guard. -/
def EndBegun : List Incident → Prop := AtEnds fun before _ => (openedBy before).isSome = true

/-- No guard ends a transaction after its own is over, be it by its own doing or because the
connection was opened or closed behind its back. -/
def EndInTime : List Incident → Prop := AtEnds fun before g => ¬Outlived g before

section Incidents

variable {P : List Incident → Nat → Prop} {incidents : List Incident} {i : Incident} {g : Nat}

theorem openedBy_concat (incidents : List Incident) (i : Incident) :
    openedBy (incidents ++ [i]) = match i with | .began g => some g | _ => none := by
  rw [openedBy, List.foldl_append]
  rfl

theorem began_mem_of_openedBy (h : openedBy incidents = some g) : .began g ∈ incidents := by
  obtain rfl | ⟨earlier, i, rfl⟩ := List.eq_nil_or_concat incidents
  · cases h
  · rw [List.concat_eq_append, openedBy_concat] at h
    cases i with
    | began g' =>
      obtain rfl := Option.some.inj h
      simp
    | renewed | ended => cases h

theorem Outlived.began_mem (h : Outlived g incidents) : .began g ∈ incidents := by
  obtain ⟨before, later, rfl, -⟩ := h
  simp

theorem Outlived.append (h : Outlived g incidents) (more : List Incident) :
    Outlived g (incidents ++ more) := by
  obtain ⟨before, later, rfl, hover⟩ := h
  exact ⟨before, later ++ more, by simp,
    hover.imp (List.mem_append_left _) (List.mem_append_left _)⟩

theorem outlived_concat (h : .began g ∈ incidents) (hi : i = .renewed ∨ i = .ended g) :
    Outlived g (incidents ++ [i]) := by
  obtain ⟨before, later, rfl⟩ := List.append_of_mem h
  refine ⟨before, later ++ [i], by simp, ?_⟩
  rcases hi with rfl | rfl
  · exact .inl (by simp)
  · exact .inr (by simp)

/-- The transaction of a guard is over already, or comes to its end now. -/
theorem Outlived.of_concat (h : Outlived g (incidents ++ [i])) :
    Outlived g incidents ∨ i = .renewed ∨ i = .ended g := by
  obtain ⟨before, later, hincidents, hover⟩ := h
  obtain rfl | ⟨rest, last, rfl⟩ := List.eq_nil_or_concat later
  · simp at hover
  · rw [List.concat_eq_append] at hincidents hover
    rw [← List.cons_append, ← List.append_assoc] at hincidents
    obtain ⟨rfl, hlast⟩ := List.append_inj' hincidents rfl
    obtain rfl := (List.cons.inj hlast).1
    rcases hover with hrenewed | hended
    · rcases List.mem_append.mp hrenewed with hrest | hi
      · exact .inl ⟨before, rest, rfl, .inl hrest⟩
      · exact .inr (.inl (List.mem_singleton.mp hi).symm)
    · rcases List.mem_append.mp hended with hrest | hi
      · exact .inl ⟨before, rest, rfl, .inr hrest⟩
      · exact .inr (.inr (List.mem_singleton.mp hi).symm)

theorem atEnds_nil : AtEnds P [] := fun before _ _ h =>
  absurd h.symm (List.append_ne_nil_of_right_ne_nil before (List.cons_ne_nil _ _))

theorem atEnds_concat :
    AtEnds P (incidents ++ [i]) ↔ AtEnds P incidents ∧ ∀ g, i = .ended g → P incidents g := by
  constructor
  · intro h
    refine ⟨fun before g later hsplit => ?_, fun g hi => ?_⟩
    · exact h before g (later ++ [i]) (by rw [hsplit, List.append_assoc, List.cons_append])
    · exact h incidents g [] (by rw [hi])
  · rintro ⟨hearlier, hlast⟩ before g later hsplit
    obtain rfl | ⟨rest, last, rfl⟩ := List.eq_nil_or_concat later
    · obtain ⟨rfl, hi⟩ := List.append_inj' hsplit rfl
      exact hlast g (List.cons.inj hi).1
    · rw [List.concat_eq_append, ← List.cons_append, ← List.append_assoc] at hsplit
      obtain ⟨rfl, -⟩ := List.append_inj' hsplit rfl
      exact hearlier before g rest rfl

theorem atEnds_concat_of_ne (h : ∀ g, i ≠ .ended g) :
    AtEnds P (incidents ++ [i]) ↔ AtEnds P incidents := by
  rw [atEnds_concat]
  exact and_iff_left fun g hi => absurd hi (h g)

end Incidents

section Steps

variable {σ : Type} {db : Adapter σ} {s t : Shared σ}

/-- All that one step can do. -/
inductive Performs (db : Adapter σ) (s t : Shared σ) : List Incident → Prop
  | quietly (flag : db.inTransaction t.connection = db.inTransaction s.connection)
    (fresh : ∀ g, t.phase g = .fresh ↔ s.phase g = .fresh) : Performs db s t []
  | renewing (flag : db.inTransaction t.connection = false)
    (fresh : ∀ g, t.phase g = .fresh ↔ s.phase g = .fresh) : Performs db s t [.renewed]
  | beginning {g : Nat} (started : s.phase g = .fresh)
    (before : db.inTransaction s.connection = false)
    (after : db.inTransaction t.connection = true)
    (fresh : ∀ g', t.phase g' = .fresh ↔ s.phase g' = .fresh ∧ g' ≠ g) : Performs db s t [.began g]
  | ending {g : Nat} (started : s.phase g ≠ .fresh) (before : db.inTransaction s.connection = true)
    (after : db.inTransaction t.connection = false)
    (fresh : ∀ g, t.phase g = .fresh ↔ s.phase g = .fresh) : Performs db s t [.ended g]

theorem performs_none (s : Shared σ) : Performs db s s [] := .quietly rfl fun _ => .rfl

/-- A guard that has begun stays begun. -/
theorem fresh_put {g : Nat} (hg : s.phase g ≠ .fresh) {p : Phase} (hp : p ≠ .fresh) (u : σ)
    (g' : Nat) : ({ s with connection := u }.put g p).phase g' = .fresh ↔ s.phase g' = .fresh := by
  by_cases hsame : g' = g
  · subst hsame
    simp [Shared.put, hg, hp]
  · simp [Shared.put, hsame]

theorem fresh_begin {g : Nat} {p : Phase} (hp : p ≠ .fresh) (u : σ) (g' : Nat) :
    ({ s with connection := u }.put g p).phase g' = .fresh ↔ s.phase g' = .fresh ∧ g' ≠ g := by
  by_cases hsame : g' = g
  · subst hsame
    simp [Shared.put, hp]
  · simp [Shared.put, hsame]

theorem performs_control {g : Nat} (hg : s.phase g ≠ .fresh) {statement : Action σ Unit}
    (hflips : Adapter.Flips db.inTransaction statement true) {failed : Phase}
    (hfailed : failed ≠ .fresh) :
    Performs db s (s.control g statement failed).1 (s.control g statement failed).2 := by
  have hends := Action.ends_run statement s.connection
  unfold Shared.control
  cases hanswer : (statement s.connection).answer with
  | ok _ =>
    rw [hanswer] at hends
    simp only [hanswer]
    exact .ending hg (hflips.before hends) (hflips.after hends) (fresh_put hg (by decide) _)
  | error e =>
    rw [hanswer] at hends
    simp only [hanswer]
    exact .quietly (hflips.stays hends) (fresh_put hg hfailed _)

/-- A step of a guard that it can only take in one phase. -/
theorem performs_in {g : Nat} {p : Phase} (hp : p ≠ .fresh) {step : Shared σ × List Incident}
    (h : s.phase g ≠ .fresh → Performs db s step.1 step.2) :
    Performs db s (if s.phase g = p then step else (s, [])).1
      (if s.phase g = p then step else (s, [])).2 := by
  split
  next hg => exact h (hg ▸ hp)
  next => exact performs_none s

theorem start_flips (h : db.Flagged) :
    Adapter.Flips db.inTransaction (Guard.start db) false := by
  refine .of_cases fun {s t r} hends => ?_
  obtain ⟨_, u, hbegin, hlog⟩ | ⟨e, hbegin, rfl⟩ := Action.ends_bind.mp hends
  · obtain ⟨rfl, rfl⟩ := Action.ends_log.mp hlog
    exact .inl ⟨rfl, h.begin_flips.before hbegin, h.begin_flips.after hbegin⟩
  · exact .inr ⟨⟨e, rfl⟩, h.begin_flips.stays hbegin⟩

theorem performs_land {active : Bool} {f : σ → σ} (hf : db.Lands active f)
    {turned : Shared σ × List Incident}
    (h : db.inTransaction s.connection = active → db.inTransaction (f s.connection) = !active →
      Performs db s turned.1 turned.2) :
    Performs db s (s.land db f turned).1 (s.land db f turned).2 := by
  unfold Shared.land
  split
  next hsame => exact .quietly hsame fun _ => .rfl
  next hturned =>
    obtain ⟨hbefore, hafter⟩ := (hf s.connection).resolve_right hturned
    exact h hbefore hafter

theorem performs (h : db.Flagged) (s : Shared σ) (m : Move db) :
    Performs db s (s.perform m).1 (s.perform m).2 := by
  cases m with
  | renew use hrenews => exact .renewing (h.renewed hrenews _) fun _ => .rfl
  | work use htext => exact .quietly (h.worked htext _) fun _ => .rfl
  | pass f hf => exact .quietly (hf _) fun _ => .rfl
  | start g =>
    by_cases hg : s.phase g = .fresh
    · have hends := Action.ends_run (Guard.start db) s.connection
      simp only [Shared.perform, if_pos hg]
      cases hanswer : (Guard.start db s.connection).answer with
      | ok _ =>
        rw [hanswer] at hends
        exact .beginning hg ((start_flips h).before hends) ((start_flips h).after hends)
          (fresh_begin (by decide) _)
      | error e =>
        rw [hanswer] at hends
        exact .quietly ((start_flips h).stays hends) fun _ => .rfl
    · rw [Shared.perform, if_neg hg]
      exact performs_none s
  | commit g => exact performs_in (by decide) fun hg => performs_control hg h.commit_flips (by decide)
  | rollback g =>
    exact performs_in (by decide) fun hg => performs_control hg h.rollback_flips (by decide)
  | drop g =>
    exact performs_in (by decide) fun hg => .quietly rfl (fresh_put hg (by decide) s.connection)
  | dropOutside g =>
    exact performs_in (by decide) fun hg => .quietly rfl (fresh_put hg (by decide) s.connection)
  | settle g =>
    exact performs_in (by decide) fun hg => performs_control hg h.rollback_flips (by decide)
  | lateStart g f hf =>
    rw [Shared.perform]
    split
    next hg =>
      exact performs_land hf fun hbefore hafter =>
        .beginning hg hbefore hafter (fresh_begin (by decide) _)
    next => exact performs_none s
  | lateEnd g f hf =>
    rw [Shared.perform]
    split
    next => exact performs_none s
    next hg =>
      exact performs_land hf fun hbefore hafter => .ending hg hbefore hafter fun _ => .rfl

end Steps

section Runs

variable {σ : Type} {db : Adapter σ} {s t : Shared σ} {incidents : List Incident}

/-- The guards against what has happened: the flag stands while a transaction is open, a guard that
is not yet begun has begun nothing, and any other has the open transaction or one that is over, as
long as no guard has ended one after its own. -/
structure Books (db : Adapter σ) (s : Shared σ) (incidents : List Incident) : Prop where
  flag : db.inTransaction s.connection = (openedBy incidents).isSome
  fresh {g : Nat} (h : s.phase g = .fresh) : .began g ∉ incidents
  apart {g : Nat} (h : openedBy incidents = some g) : ¬Outlived g incidents
  started {g : Nat} (h : s.phase g ≠ .fresh) (hends : EndInTime incidents) :
    Outlived g incidents ∨ openedBy incidents = some g
  begun : EndBegun incidents
  own : EndOwn incidents ↔ EndInTime incidents

theorem Books.step (h : Books db s incidents) {new : List Incident} (hstep : Performs db s t new) :
    Books db t (incidents ++ new) := by
  cases hstep with
  | quietly flag fresh =>
    rw [List.append_nil]
    exact ⟨flag.trans h.flag, fun hg => h.fresh ((fresh _).mp hg), h.apart,
      fun hg => h.started (mt (fresh _).mpr hg), h.begun, h.own⟩
  | renewing flag fresh =>
    have hnone : openedBy (incidents ++ [.renewed]) = none := openedBy_concat _ _
    have hsame {P : List Incident → Nat → Prop} :
        AtEnds P (incidents ++ [.renewed]) ↔ AtEnds P incidents := atEnds_concat_of_ne (by simp)
    refine ⟨by rw [flag, hnone]; rfl, fun {g} hg => ?_, fun hg => ?_, fun {g} hg hends => ?_,
      hsame.mpr h.begun, hsame.trans (h.own.trans hsame.symm)⟩
    · simpa using h.fresh ((fresh g).mp hg)
    · rw [hnone] at hg
      cases hg
    · have hstarted := h.started (mt (fresh g).mpr hg) (hsame.mp hends)
      have hbegan := hstarted.elim Outlived.began_mem began_mem_of_openedBy
      exact .inl (outlived_concat hbegan (.inl rfl))
  | @beginning g started before after fresh =>
    have hopened : openedBy (incidents ++ [.began g]) = some g := openedBy_concat _ _
    have hsame {P : List Incident → Nat → Prop} :
        AtEnds P (incidents ++ [.began g]) ↔ AtEnds P incidents := atEnds_concat_of_ne (by simp)
    refine ⟨by rw [after, hopened]; rfl, fun {g'} hg => ?_, fun {g'} hg => ?_,
      fun {g'} hg hends => ?_, hsame.mpr h.begun, hsame.trans (h.own.trans hsame.symm)⟩
    · obtain ⟨hg', hne⟩ := (fresh g').mp hg
      simpa [hne] using h.fresh hg'
    · obtain rfl : g = g' := Option.some.inj (hopened.symm.trans hg)
      intro houtlived
      rcases houtlived.of_concat with hearlier | hnow | hnow
      · exact h.fresh started hearlier.began_mem
      · cases hnow
      · cases hnow
    · by_cases hown : g' = g
      · exact .inr (hown ▸ hopened)
      · -- no transaction is open, so that of any other guard is over
        rcases h.started (fun hg' => hg ((fresh g').mpr ⟨hg', hown⟩)) (hsame.mp hends) with
          houtlived | hopen
        · exact .inl (houtlived.append _)
        · rw [h.flag, hopen] at before
          cases before
  | @ending g started before after fresh =>
    have hnone : openedBy (incidents ++ [.ended g]) = none := openedBy_concat _ _
    refine ⟨by rw [after, hnone]; rfl, fun {g'} hg => ?_, fun hg => ?_, fun {g'} hg hends => ?_,
      atEnds_concat.mpr ⟨h.begun, fun _ _ => h.flag.symm.trans before⟩, ?_⟩
    · simpa using h.fresh ((fresh g').mp hg)
    · rw [hnone] at hg
      cases hg
    · obtain ⟨hearlier, hlast⟩ := atEnds_concat.mp hends
      have hown := (h.started started hearlier).resolve_left (hlast g rfl)
      rcases h.started (mt (fresh g').mpr hg) hearlier with houtlived | hopen
      · exact .inl (houtlived.append _)
      · obtain rfl : g' = g := Option.some.inj (hopen.symm.trans hown)
        exact .inl (outlived_concat (began_mem_of_openedBy hown) (.inr rfl))
    · rw [EndOwn, EndInTime, atEnds_concat, atEnds_concat]
      constructor
      · rintro ⟨howns, hlast⟩
        exact ⟨h.own.mp howns, fun g' hg' => h.apart (hlast g' hg')⟩
      · rintro ⟨hintime, hlast⟩
        refine ⟨h.own.mpr hintime, fun g' hg' => ?_⟩
        cases hg'
        exact (h.started started hintime).resolve_left (hlast g rfl)

theorem books_start (c : σ) (hidle : db.inTransaction c = false) : Books db (.start c) [] where
  flag := hidle
  fresh _ := List.not_mem_nil
  apart := nofun
  started h := absurd rfl h
  begun := atEnds_nil
  own := ⟨fun _ => atEnds_nil, fun _ => atEnds_nil⟩

theorem run_concat (s : Shared σ) (moves : List (Move db)) (m : Move db) :
    s.run (moves ++ [m]) = (((s.run moves).1.perform m).1,
      (s.run moves).2 ++ ((s.run moves).1.perform m).2) := by
  rw [Shared.run, List.foldl_append]
  rfl

theorem books_run (h : db.Flagged) {c : σ} (hidle : db.inTransaction c = false)
    (moves : List (Move db)) :
    Books db ((Shared.start c).run moves).1 ((Shared.start c).run moves).2 := by
  induction moves using List.reverseRecOn with
  | nil => exact books_start c hidle
  | append_singleton moves m ih =>
    rw [run_concat]
    exact ih.step (performs h _ m)

theorem release_ends {c c' : σ} {r : Except Error Unit} (h : db.rollback.Ends c r c') :
    (release db).Ends c (.ok ()) c' := by
  refine Action.ends_log_bind.mpr (h.attempt_bind ?_)
  cases r with
  | ok _ => exact Action.ends_pure.mpr ⟨rfl, rfl⟩
  | error e => exact Action.ends_log.mpr ⟨rfl, rfl⟩

theorem perform_settle {s : Shared σ} {g : Nat} (hg : s.phase g = .released) :
    (s.perform (.settle g : Move db)).1.connection = (release db s.connection).state ∧
      (s.perform (.settle g : Move db)).1.phase g = .over := by
  rw [(release_ends (Action.ends_run db.rollback s.connection)).2, Shared.perform, if_pos hg,
    Shared.control]
  split
  · exact ⟨rfl, Function.update_self g _ _⟩
  · exact ⟨rfl, Function.update_self g _ _⟩

/-- A guard that fails to end its transaction, and rolls back at once, does in two steps what it does
when it is given up. -/
theorem settle_control (s : Shared σ) (g : Nat) (statement : Action σ Unit)
    (message : String) :
    let left := ((s.control g statement .released).1.perform (.settle g : Move db)).1
    left.connection = (endBy db statement message s.connection).state ∧ left.phase g = .over := by
  have hends := Action.ends_run statement s.connection
  cases hanswer : (statement s.connection).answer with
  | ok _ =>
    rw [hanswer] at hends
    have hend : (endBy db statement message).Ends s.connection (.ok ()) _ :=
      hends.attempt_bind (Action.ends_log.mpr ⟨rfl, rfl⟩)
    rw [hend.2]
    simp [Shared.control, hanswer, Shared.perform, Shared.put]
  | error e =>
    rw [hanswer] at hends
    have hrelease := release_ends (Action.ends_run db.rollback (statement s.connection).state)
    have hend : (endBy db statement message).Ends s.connection (.error e) _ :=
      hends.attempt_bind (hrelease.bind (Action.ends_fail.mpr ⟨rfl, rfl⟩))
    rw [hend.2, ← hrelease.2]
    simp only [Shared.control, hanswer]
    exact perform_settle (Function.update_self g _ _)

/-- A guard is given up by steps of its own, with nothing between them. -/
theorem run_movesOf {s : Shared σ} {g : Nat} (hg : s.phase g = .held)
    (how : GuardEnd) :
    (s.run (movesOf g how : List (Move db))).1.connection = (Guard.finish db how s.connection).state ∧
      (s.run (movesOf g how : List (Move db))).1.phase g = .over := by
  cases how with
  | commit =>
    have hfirst : s.perform (.commit g : Move db) = s.control g db.commit .released := if_pos hg
    rw [movesOf, Shared.run, List.foldl_cons, hfirst]
    exact settle_control s g db.commit _
  | rollback =>
    have hfirst : s.perform (.rollback g : Move db) = s.control g db.rollback .released := if_pos hg
    rw [movesOf, Shared.run, List.foldl_cons, hfirst]
    exact settle_control s g db.rollback _
  | drop =>
    have hfirst : s.perform (.drop g : Move db) = (s.put g .released, []) := if_pos hg
    rw [movesOf, Shared.run, List.foldl_cons, hfirst]
    exact perform_settle (Function.update_self g _ _)
  | dropOutside =>
    have hfirst : s.perform (.dropOutside g : Move db) = (s.put g .over, []) := if_pos hg
    rw [movesOf, Shared.run, List.foldl_cons, hfirst]
    exact ⟨rfl, Function.update_self g _ _⟩

end Runs

/-- In whatever order guards are begun and given up on one connection, whenever that is opened or
closed, and however late the rollbacks are run that guards leave behind, or what was given up: the
guards end transactions that guards began, and each of them its own just if none of them does so
after its own is over. -/
theorem endOwn_iff_endInTime {σ : Type} {db : Adapter σ} (h : db.Flagged) {c : σ}
    (hidle : db.inTransaction c = false) (moves : List (Move db)) :
    let incidents := ((Shared.start c).run moves).2
    (EndOwn incidents ↔ EndInTime incidents) ∧ EndBegun incidents :=
  ⟨(books_run h hidle moves).own, (books_run h hidle moves).begun⟩

/-- The guard of a connection that was closed commits what another guard has begun since. -/
theorem ends_other :
    let moves : List (Move Sqlite.Connection.adapter) := [.renew (.connect ":memory:") rfl, .start 0,
      .renew .disconnect rfl, .renew (.connect ":memory:") rfl, .start 1, .dropOutside 1, .commit 0]
    let incidents := ((Shared.start Sqlite.Connection.closed).run moves).2
    incidents = [.renewed, .began 0, .renewed, .renewed, .began 1, .ended 0] ∧
      ¬EndOwn incidents := by
  intro moves incidents
  have hincidents : incidents =
      [.renewed, .began 0, .renewed, .renewed, .began 1, .ended 0] := by decide +kernel
  refine ⟨hincidents, fun hown => ?_⟩
  have hopened := hown [.renewed, .began 0, .renewed, .renewed, .began 1] 0 [] hincidents
  exact absurd hopened (by decide)

end Guard

namespace Sqlite

/-- Whether a transaction has to be open before the job, if it is a control statement. -/
def Job.active? : Job → Option Bool
  | .control _ active => some active
  | _ => none

namespace Link

open Relata.Guard

variable {ε : Type} (d : Driver ε)

/-- Carries out the job at this place among those that were given up, if it is of this kind. -/
def resumeIf (kind : Option Bool) (i : Nat) (s : Link ε) : Link ε :=
  if (s.late[i]?).any fun job => job.active? = kind then resume d i s else s

theorem resume_of_active {kind : Option Bool} {i : Nat} {s : Link ε}
    (h : (s.late[i]?).any (fun job => job.active? = kind) = true) :
    ∃ job : Job, job.active? = kind ∧
      resume d i s = after d { s with late := s.late.eraseIdx i } job := by
  obtain ⟨job, hjob, hkind⟩ := (Option.any_eq_true _ _).mp h
  exact ⟨job, by simpa using hkind, by rw [resume, hjob]⟩

/-- Statements and openings that come late leave the flag. -/
theorem inTransaction_resumeIf (i : Nat) (s : Link ε) :
    (resumeIf d none i s).inTransaction = s.inTransaction := by
  unfold resumeIf
  split
  next h =>
    obtain ⟨job, hkind, hresume⟩ := resume_of_active d h
    rw [hresume]
    obtain ⟨path, rfl⟩ | ⟨_, _, rfl⟩ | hruns := job.opens_or_controls_or_runs
    · exact inTransaction_openAt d path _
    · cases hkind
    · exact inTransaction_of_runs d hruns _
  next => rfl

/-- Control statements that come late do what they do in time. -/
theorem lands_resumeIf (active : Bool) (i : Nat) :
    (adapter d).Lands active (resumeIf d (some active) i) := by
  intro s
  unfold resumeIf
  split
  next h =>
    obtain ⟨job, hkind, hresume⟩ := resume_of_active d h
    cases job with
    | control sql active' =>
      obtain rfl : active' = active := Option.some.inj hkind
      rw [hresume]
      change s.inTransaction = _ ∧ (controlNow d sql _ _).state.inTransaction = _ ∨
        (controlNow d sql _ _).state.inTransaction = s.inTransaction
      obtain ⟨-, ht⟩ | ⟨left, -, hflag, ⟨_, -, -, ht⟩ | ⟨_, -, -, ht⟩⟩ := controlNow_cases
        (Action.ends_run (controlNow d sql active') { s with late := s.late.eraseIdx i })
      · exact .inr (by rw [ht])
      · exact .inl ⟨hflag, by rw [ht]⟩
      · exact .inr (by rw [ht])
    | openAt | query | execute => cases hkind
  next => exact .inr rfl

/-- The connection comes to a stop, or goes on. -/
def stop (isStalled : Bool) : Move (adapter d) :=
  .pass (fun s => { s with isStalled := isStalled }) fun _ => rfl

/-- A statement or an opening is carried out late. -/
def catchUp (i : Nat) : Move (adapter d) := .pass (resumeIf d none i) (inTransaction_resumeIf d i)

/-- A commit or rollback of the guard is carried out late. -/
def catchUpEnd (g i : Nat) : Move (adapter d) :=
  .lateEnd g (resumeIf d (some true) i) (lands_resumeIf d true i)

end Link

end Sqlite

namespace Guard

/-- A guard waits in vain for a statement and its commit, which are carried out before the rollback
that it leaves behind; each guard ends its own transaction. -/
theorem endInTime_late :
    let moves : List (Move Sqlite.Connection.adapter) := [.renew (.connect ":memory:") rfl, .start 0,
      Sqlite.Link.stop _ true, .work (.execute "CREATE TABLE notes (id INTEGER PRIMARY KEY)") rfl,
      .commit 0, Sqlite.Link.stop _ false, Sqlite.Link.catchUp _ 0, Sqlite.Link.catchUpEnd _ 0 0,
      .settle 0, .start 1, .rollback 1]
    Sqlite.Connection.adapter.Flagged ∧
      Sqlite.Connection.adapter.inTransaction Sqlite.Connection.closed = false ∧
      ((Shared.start Sqlite.Connection.closed).run moves).2 =
        [.renewed, .began 0, .ended 0, .began 1, .ended 1] ∧
      EndInTime ((Shared.start Sqlite.Connection.closed).run moves).2 := by
  intro moves
  have hincidents : ((Shared.start Sqlite.Connection.closed).run moves).2 =
      [] ++ [.renewed] ++ [.began 0] ++ [.ended 0] ++ [.began 1] ++ [.ended 1] := by decide +kernel
  have hflagged := Sqlite.Connection.adapter_flagged
  obtain ⟨hiff, -⟩ := endOwn_iff_endInTime hflagged (c := Sqlite.Connection.closed) rfl moves
  refine ⟨hflagged, rfl, hincidents, hiff.mp ?_⟩
  rw [hincidents, EndOwn]
  simp only [atEnds_concat]
  refine ⟨⟨⟨⟨⟨atEnds_nil, nofun⟩, nofun⟩, ?_⟩, nofun⟩, ?_⟩
  · rintro g ⟨⟩
    rfl
  · rintro g ⟨⟩
    rfl

end Guard
end Relata
