import Relata.Migration
import Relata.Proofs.Ending

/-!
How a pass ends after its first table, a sequence of passes after its first pass, and a
synchronisation after its passes, whatever the database.
-/
namespace Relata.Migration

open Relata.Action

variable {σ : Type} {db : Adapter σ} {t : Table} {rest out : List Table}
  {report report' : SyncReport} {e : Error} {s u v : σ}

theorem syncPass_synced {done : TableSync} {r : Except Error (List Table × SyncReport)}
    (h : (syncTable db t).Ends s (.ok done) u)
    (hrest : (syncPass db rest (report.add t.name done)).Ends u r v) :
    (syncPass db (t :: rest) report).Ends s r v := h.attempt_bind hrest

theorem syncPass_postponed (h : (syncTable db t).Ends s (.error e) u)
    (he : e.isUndefinedRelation = true)
    (hrest : (syncPass db rest report).Ends u (.ok (out, report')) v) :
    (syncPass db (t :: rest) report).Ends s (.ok (t :: out, report')) v := by
  refine h.attempt_bind ?_
  simp only [he, if_true, ends_log_bind]
  exact hrest.bind (ends_pure.mpr ⟨rfl, rfl⟩)

theorem syncPass_postponed_error {e' : Error} (h : (syncTable db t).Ends s (.error e) u)
    (he : e.isUndefinedRelation = true)
    (hrest : (syncPass db rest report).Ends u (.error e') v) :
    (syncPass db (t :: rest) report).Ends s (.error e') v := by
  refine h.attempt_bind ?_
  simp only [he, if_true, ends_log_bind]
  exact hrest.bind_error

theorem syncPass_failed (h : (syncTable db t).Ends s (.error e) u)
    (he : e.isUndefinedRelation = false) :
    (syncPass db (t :: rest) report).Ends s (.error e) u := by
  refine h.attempt_bind ?_
  simp [he]

@[simp] theorem syncPasses_nil (budget : Nat) (report : SyncReport) :
    syncPasses db budget [] report = pure report := by cases budget <;> rfl

section Again

variable {budget : Nat} {r : Except Error SyncReport}

/-- A pass that postpones all its tables is the last one. -/
theorem syncPasses_stalled
    (h : (syncPass db (t :: rest) { report with passes := report.passes + 1 }).Ends s
      (.ok (out, report')) u) (hlen : out.length = (t :: rest).length) :
    (syncPasses db (budget + 1) (t :: rest) report).Ends s
      (.error (.deadlock (out.map Table.name))) u := by
  unfold syncPasses
  simp only [ends_log_bind]
  refine h.bind ?_
  simp only [if_pos hlen, ends_log_bind, ends_fail, and_self]

theorem syncPasses_again
    (h : (syncPass db (t :: rest) { report with passes := report.passes + 1 }).Ends s
      (.ok (out, report')) u) (hlen : out.length ≠ (t :: rest).length)
    (hrest : (syncPasses db budget out report').Ends u r v) :
    (syncPasses db (budget + 1) (t :: rest) report).Ends s r v := by
  unfold syncPasses
  simp only [ends_log_bind]
  refine h.bind ?_
  simpa only [if_neg hlen] using hrest

theorem syncPasses_failed
    (h : (syncPass db (t :: rest) { report with passes := report.passes + 1 }).Ends s
      (.error e) u) :
    (syncPasses db (budget + 1) (t :: rest) report).Ends s (.error e) u := by
  unfold syncPasses
  simp only [ends_log_bind]
  exact h.bind_error

end Again

/-- A synchronisation is its passes over all registered tables, with more of them than any needs. -/
theorem sync_of_syncPasses {schema : Schema} {r : Except Error SyncReport}
    (h : (syncPasses db (2 * schema.toList.length) schema.toList .empty).Ends s r u) :
    (sync db schema).Ends s r u := by
  unfold sync
  simp only [ends_log_bind]
  cases r with
  | ok report => exact h.bind (by simp)
  | error e => exact h.bind_error

end Relata.Migration
