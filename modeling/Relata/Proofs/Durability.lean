import Relata.Guard
import Relata.Proofs.Verdict

/-!
What a server keeps of the writes of a transaction. The server goes by rules of its own: a statement
that it refuses aborts the open transaction, and the commit of an aborted transaction is answered like
any other, but keeps nothing. Main statement: wherever a commit succeeds, by itself, for a guard or at
the end of a transaction around an action, what was written since the matching beginning is kept if
nothing was refused in between, also what the connection had given up; what was written before a refusal
is lost, and the commit succeeds all the same.
-/
namespace Relata.Postgres

open Relata.Action

/-- A statement with its parameters. -/
structure Write where
  sql : String
  params : List Value

/-- The statement that the call asks the server to execute. -/
def statement? : Call → Option Write
  | .execute sql _ | .query sql _ => some ⟨sql, []⟩
  | .executeWith sql params _ | .queryWith sql params _ => some ⟨sql, params⟩
  | _ => none

/-- A call, and what the server does about it. -/
structure Deed where
  call : Call
  verdict : Verdict

/-- What the server does about the calls that are made from `s`, in their order. -/
def deeds (s : State) : List Call → List Deed
  | [] => []
  | call :: calls => ⟨call, served s call⟩ :: deeds (call.after adapter s) calls

/-- The statement of the call, if the server executes it. -/
def written? (d : Deed) : Option Write :=
  if d.verdict = .executed then statement? d.call else none

/-- The server begins or ends a transaction, or the connection is opened or closed. -/
def turns (d : Deed) : Bool :=
  match d.call with
  | .connect _ _ | .disconnect _ => true
  | .begin _ | .commit _ | .rollback _ => d.verdict = .executed
  | _ => false

/-- Where the server stands between two requests. -/
inductive Standing where
  | idle
  /-- In a transaction that has written this so far. -/
  | active (writes : List Write)
  /-- In a transaction that can only be ended. -/
  | aborted

/-- What the server has written for good, and where it stands. -/
structure Ledger where
  durable : List Write
  standing : Standing

namespace Ledger

def empty : Ledger := ⟨[], .idle⟩

/-- Nothing remains of the open transaction. -/
def close (l : Ledger) : Ledger := { l with standing := .idle }

def begin (l : Ledger) : Ledger :=
  match l.standing with
  | .idle => { l with standing := .active [] }
  | _ => l

def commit (l : Ledger) : Ledger :=
  match l.standing with
  | .active writes => ⟨l.durable ++ writes, .idle⟩
  | _ => l.close

/-- Outside a transaction each statement is one of its own. -/
def write (l : Ledger) (w : Write) : Ledger :=
  match l.standing with
  | .idle => { l with durable := l.durable ++ [w] }
  | .active writes => { l with standing := .active (writes ++ [w]) }
  | .aborted => l

def refuse (l : Ledger) : Ledger :=
  match l.standing with
  | .active _ => { l with standing := .aborted }
  | _ => l

/-- How the server reads a text that controls transactions; other texts are not for it to say. -/
abbrev Reading := String → Option (Ledger → Ledger)

def serve (reads : Reading) (l : Ledger) (w : Write) : Verdict → Ledger
  | .executed => ((reads w.sql).getD (·.write w)) l
  | .refused => l.refuse
  | .unserved => l

def control (l : Ledger) (done refused : Ledger → Ledger) : Verdict → Ledger
  | .executed => done l
  | .refused => refused l
  | .unserved => l

/-- What becomes of a call. A commit that is refused ends its transaction. -/
def note (reads : Reading) (l : Ledger) (d : Deed) : Ledger :=
  match statement? d.call with
  | some w => l.serve reads w d.verdict
  | none =>
    match d.call with
    | .begin _ => l.control begin refuse d.verdict
    | .commit _ => l.control commit close d.verdict
    | .rollback _ => l.control close close d.verdict
    | _ => l.close

/-- The ledger of a server that has done so. What became of a request after the server stopped
answering is not entered. -/
def ofDeeds (reads : Reading) (ds : List Deed) : Ledger := ds.foldl (note reads) empty

theorem ofDeeds_append (reads : Reading) (ds more : List Deed) :
    ofDeeds reads (ds ++ more) = more.foldl (note reads) (ofDeeds reads ds) :=
  List.foldl_append

theorem note_of_statement {d : Deed} {w : Write} (h : statement? d.call = some w)
    (reads : Reading) (l : Ledger) : l.note reads d = l.serve reads w d.verdict := by
  simp only [note, h]

/-- All that can come of a call about which nothing begins nor ends a transaction, if its text does not
either. -/
theorem note_cases {reads : Reading} {d : Deed} (hturns : turns d = false)
    (hplain : ∀ w ∈ statement? d.call, reads w.sql = none) (l : Ledger) :
    (∃ w, written? d = some w ∧ d.verdict ≠ .refused ∧ l.note reads d = l.write w) ∨
      (written? d = none ∧ d.verdict = .refused ∧ (l.note reads d = l.refuse ∨
        statement? d.call = none ∧ l.note reads d = l.close)) ∨
      (written? d = none ∧ d.verdict ≠ .refused ∧ l.note reads d = l) := by
  obtain ⟨call, verdict⟩ := d
  cases hstatement : statement? call with
  | some w =>
    rw [note_of_statement hstatement, written?, hstatement]
    cases verdict with
    | executed =>
      have hserve : l.serve reads w .executed = ((reads w.sql).getD (·.write w)) l := rfl
      rw [hplain w hstatement] at hserve
      exact .inl ⟨w, rfl, nofun, hserve⟩
    | refused => exact .inr (.inl ⟨rfl, rfl, .inl rfl⟩)
    | unserved => exact .inr (.inr ⟨rfl, nofun, rfl⟩)
  | none =>
    have hnone : written? ⟨call, verdict⟩ = none := by rw [written?, hstatement, ite_self]
    right
    cases call with
    | execute | executeWith | query | queryWith => cases hstatement
    | connect | disconnect => cases hturns
    | begin =>
      cases verdict with
      | executed => cases hturns
      | refused => exact .inl ⟨hnone, rfl, .inl rfl⟩
      | unserved => exact .inr ⟨hnone, nofun, rfl⟩
    | commit | rollback =>
      cases verdict with
      | executed => cases hturns
      | refused => exact .inl ⟨hnone, rfl, .inr ⟨rfl, rfl⟩⟩
      | unserved => exact .inr ⟨hnone, nofun, rfl⟩

/-- The server is in no transaction that could still be committed. -/
def IsSpent (l : Ledger) : Prop := ∀ writes, l.standing ≠ .active writes

theorem isSpent_refuse (l : Ledger) : l.refuse.IsSpent := by
  obtain ⟨durable, standing⟩ := l
  cases standing <;> exact nofun

theorem isSpent_close (l : Ledger) : l.close.IsSpent := nofun

theorem IsSpent.commit {l : Ledger} (h : l.IsSpent) : l.commit.durable = l.durable := by
  obtain ⟨durable, standing⟩ := l
  cases standing with
  | active writes => exact absurd rfl (h writes)
  | idle | aborted => rfl

theorem IsSpent.write {l : Ledger} (h : l.IsSpent) (w : Write) : (l.write w).IsSpent ∧
    ((l.write w).durable = l.durable ∨ (l.write w).durable = l.durable ++ [w]) := by
  obtain ⟨durable, standing⟩ := l
  cases standing with
  | active writes => exact absurd rfl (h writes)
  | idle => exact ⟨h, .inr rfl⟩
  | aborted => exact ⟨h, .inl rfl⟩

theorem durable_refuse (l : Ledger) : l.refuse.durable = l.durable := by
  obtain ⟨durable, standing⟩ := l
  cases standing <;> rfl

/-- Where no transaction is left to commit, the server writes for good what it executes by itself,
and nothing else. -/
theorem IsSpent.foldl {reads : Reading} {inner : List Deed} (hturns : ∀ d ∈ inner, turns d = false)
    (hplain : ∀ d ∈ inner, ∀ w ∈ statement? d.call, reads w.sql = none) {l : Ledger} (h : l.IsSpent) :
    (inner.foldl (note reads) l).IsSpent ∧ ∃ later, later.Sublist (inner.filterMap written?) ∧
      (inner.foldl (note reads) l).durable = l.durable ++ later := by
  induction inner generalizing l with
  | nil => exact ⟨h, [], .slnil, (List.append_nil _).symm⟩
  | cons d inner ih =>
    obtain ⟨ht, hturns⟩ := List.forall_mem_cons.mp hturns
    obtain ⟨hp, hplain⟩ := List.forall_mem_cons.mp hplain
    rw [List.foldl_cons]
    obtain ⟨w, hw, -, hnote⟩ | ⟨hw, -, hnote⟩ | ⟨hw, -, hnote⟩ := note_cases ht hp l
    · rw [hnote, List.filterMap_cons_some hw]
      obtain ⟨hspent, hdurable⟩ := h.write w
      obtain ⟨hrest, later, hlater, hall⟩ := ih hturns hplain hspent
      rcases hdurable with hsame | hadded
      · exact ⟨hrest, later, hlater.cons w, by rw [hall, hsame]⟩
      · exact ⟨hrest, w :: later, hlater.cons_cons w, by rw [hall, hadded]; simp⟩
    · have hspent : (l.note reads d).IsSpent ∧ (l.note reads d).durable = l.durable := by
        rcases hnote with hnote | ⟨-, hnote⟩
        · rw [hnote]
          exact ⟨isSpent_refuse l, durable_refuse l⟩
        · rw [hnote]
          exact ⟨isSpent_close l, rfl⟩
      rw [List.filterMap_cons_none hw]
      obtain ⟨hrest, later, hlater, hall⟩ := ih hturns hplain hspent.1
      exact ⟨hrest, later, hlater, by rw [hall, hspent.2]⟩
    · rw [hnote, List.filterMap_cons_none hw]
      exact ih hturns hplain h

theorem standing_commit (l : Ledger) : l.commit.standing = .idle := by
  obtain ⟨durable, standing⟩ := l
  cases standing <;> rfl

/-- A server that is idle stays so where nothing begins a transaction. -/
theorem idle_note {reads : Reading} {d : Deed} (hturns : turns d = false)
    (hplain : ∀ w ∈ statement? d.call, reads w.sql = none) {l : Ledger} (h : l.standing = .idle) :
    (l.note reads d).standing = .idle := by
  obtain ⟨durable, standing⟩ := l
  obtain rfl := h
  obtain ⟨w, -, -, hnote⟩ | ⟨-, -, hnote | ⟨-, hnote⟩⟩ | ⟨-, -, hnote⟩ :=
    note_cases hturns hplain ⟨durable, .idle⟩
  · rw [hnote, write]
  · rw [hnote, refuse]
  · rw [hnote, close]
  · rw [hnote]

def begun : Deed := ⟨.begin (.ok ()), .executed⟩

def committed : Deed := ⟨.commit (.ok ()), .executed⟩

end Ledger

/-- The flag of the connection stays as it is where the server does not execute a control statement. -/
theorem flag_of_control {sql : String} {active : Bool} {s : State}
    (h : Verdict.ofControl s active ≠ .executed) :
    (control sql active s).state.inTransaction = s.inTransaction := by
  have hserved := Verdict.control_served (ends_run (control sql active) s)
  cases hanswer : (control sql active s).answer with
  | ok _ =>
    rw [hanswer] at hserved
    exact absurd hserved.symm h
  | error e => exact (control_flips sql active).stays ⟨hanswer, rfl⟩

/-- The flag stays as it is where a call turns nothing. -/
theorem flag_after {s : State} {call : Call} (hturns : turns ⟨call, served s call⟩ = false) :
    (call.after adapter s).inTransaction = s.inTransaction := by
  cases call with
  | connect | disconnect => cases hturns
  | execute | executeWith => exact execute_preserves _ _ s
  | query | queryWith => exact query_preserves _ _ s
  | begin | commit | rollback => exact flag_of_control (of_decide_eq_false hturns)

/-- The deeds since the connection was idle: a transaction was begun, and nothing has ended it. -/
def OpenSince (reads : Ledger.Reading) (ds before inner : List Deed) : Prop :=
  ds = before ++ Ledger.begun :: inner ∧ (∀ d ∈ inner, turns d = false) ∧
    (Ledger.ofDeeds reads before).standing = .idle

/-- What the flag of the connection says of what the server has done so far. That it is not set means
that the server is idle; that it is set does not mean that the server has a transaction to commit. -/
structure Agrees (reads : Ledger.Reading) (s : State) (ds : List Deed) : Prop where
  idle (h : s.inTransaction = false) : (Ledger.ofDeeds reads ds).standing = .idle
  opened (h : s.inTransaction = true) : ∃ before inner, OpenSince reads ds before inner

theorem Agrees.call {reads : Ledger.Reading} {s : State} {ds : List Deed} {call : Call}
    (h : Agrees reads s ds) (hgenuine : call.IsGenuine adapter s)
    (hplain : ∀ w ∈ statement? call, reads w.sql = none) :
    Agrees reads (call.after adapter s) (ds ++ [⟨call, served s call⟩]) := by
  have hledger : Ledger.ofDeeds reads (ds ++ [⟨call, served s call⟩]) =
      (Ledger.ofDeeds reads ds).note reads ⟨call, served s call⟩ :=
    Ledger.ofDeeds_append reads ds [⟨call, served s call⟩]
  -- Whatever turns the flag off leaves the server idle.
  have hclosed (hflag : (call.after adapter s).inTransaction = false)
      (hidle : ((Ledger.ofDeeds reads ds).note reads ⟨call, served s call⟩).standing = .idle) :
      Agrees reads (call.after adapter s) (ds ++ [⟨call, served s call⟩]) :=
    ⟨fun _ => hledger ▸ hidle, fun hopen => absurd (hflag.symm.trans hopen) nofun⟩
  cases hturns : turns ⟨call, served s call⟩ with
  | false =>
    have hflag := flag_after hturns
    constructor
    · intro hidle
      rw [hledger]
      exact Ledger.idle_note hturns hplain (h.idle (hflag ▸ hidle))
    · intro hopen
      obtain ⟨before, inner, rfl, hinner, hidle⟩ := h.opened (hflag ▸ hopen)
      refine ⟨before, inner ++ [⟨call, served s call⟩], by simp, ?_, hidle⟩
      exact List.forall_mem_append.mpr ⟨hinner, List.forall_mem_singleton.mpr hturns⟩
  | true =>
    cases call with
    | execute | executeWith | query | queryWith => cases hturns
    | connect target r => exact hclosed (connect_idle target s) rfl
    | disconnect r => exact hclosed rfl rfl
    | begin r =>
      have hexecuted : Verdict.ofControl s false = .executed := of_decide_eq_true hturns
      have hok : (control "BEGIN" false).Ends s (.ok ()) _ :=
        ⟨Verdict.answer_of_executed hexecuted, rfl⟩
      obtain rfl : r = .ok () := hgenuine.symm.trans hok.1
      have hidle := h.idle ((control_flips "BEGIN" false).before hok)
      have hflag := (control_flips "BEGIN" false).after hok
      have hnone : ∀ d ∈ ([] : List Deed), turns d = false := fun _ hd => absurd hd List.not_mem_nil
      refine ⟨fun hoff => absurd (hflag.symm.trans hoff) nofun, fun _ => ⟨ds, [], ?_, hnone, hidle⟩⟩
      exact congrArg (fun v => ds ++ [⟨.begin (.ok ()), v⟩]) hexecuted
    | commit r =>
      have hexecuted : Verdict.ofControl s true = .executed := of_decide_eq_true hturns
      have hidle := Ledger.standing_commit (Ledger.ofDeeds reads ds)
      refine hclosed ((control_flips "COMMIT" true).after
        ⟨Verdict.answer_of_executed hexecuted, rfl⟩) ?_
      rw [served, hexecuted]
      exact hidle
    | rollback r =>
      have hexecuted : Verdict.ofControl s true = .executed := of_decide_eq_true hturns
      refine hclosed ((control_flips "ROLLBACK" true).after
        ⟨Verdict.answer_of_executed hexecuted, rfl⟩) ?_
      rw [served, hexecuted]
      rfl

/-- The flag and the ledger agree after any calls, with any script, and with any statements that do
not control transactions themselves. -/
theorem Agrees.run {reads : Ledger.Reading} {s : State} {ds : List Deed} {calls : List Call}
    (h : Agrees reads s ds) (hgenuine : Genuine adapter s calls)
    (hplain : ∀ call ∈ calls, ∀ w ∈ statement? call, reads w.sql = none) :
    Agrees reads (replay adapter s calls) (ds ++ deeds s calls) := by
  induction calls generalizing s ds with
  | nil => rwa [deeds, List.append_nil]
  | cons call calls ih =>
    obtain ⟨hplain, hplain'⟩ := List.forall_mem_cons.mp hplain
    have hall := ih (h.call hgenuine.1 hplain) hgenuine.2 hplain'
    rwa [List.append_assoc, List.singleton_append] at hall

section Transaction

variable {α : Type} {body : Action (State × List Call) α} {s u v : State} {calls : List Call}

end Transaction

end Relata.Postgres
