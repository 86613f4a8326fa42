import Mathlib.Data.List.Nodup
import Mathlib.Data.List.Perm.Basic
import Mathlib.Logic.ExistsUnique
import Relata.Proofs.Passes
import Relata.Proofs.Registry

/-!
How a synchronisation may end, over a database of which nothing is known. Main statement: there are
no more passes than tables, each pass tries the tables that are still pending, and the run ends in
one of three ways.
-/
namespace Relata.Migration

variable {σ : Type}

/-- The tables that none of the attempts has brought about. -/
def pendingAfter (tables : List Table) (tried : List Attempt) : List Table :=
  tables.filter fun t => tried.all fun a => !(a.succeeded && a.table == t)

/-- The ways in which a synchronisation may end. -/
inductive Way where
  | converged
  | deadlocked
  | aborted
  deriving DecidableEq, Repr

/-- What each way means for the attempts of a run and for its answer: every table was brought about
once; or a pass tried all pending tables, and each failed for a missing table; or the last attempt
was the first to fail for another reason. -/
def EndsAs (tables : List Table) (passes : List (List Attempt)) (r : Except Error SyncReport) :
    Way → Prop
  | .converged => (∃ report, r = .ok report) ∧
      ((passes.flatten.filter Attempt.succeeded).map Attempt.table).Perm tables
  | .deadlocked => ∃ earlier pass, passes = earlier ++ [pass] ∧
      (∀ a ∈ earlier.flatten, a.isFatal = false) ∧
      pass.map Attempt.table = pendingAfter tables earlier.flatten ∧
      pass ≠ [] ∧ (∀ a ∈ pass, a.isPostponed = true) ∧
      r = .error (.deadlock ((pendingAfter tables earlier.flatten).map Table.name))
  | .aborted => ∃ tried a e, passes.flatten = tried ++ [a] ∧
      (∀ b ∈ tried, b.isFatal = false) ∧
      a.result = .error e ∧ e.isUndefinedRelation = false ∧ r = .error e

section Consequences

variable {made : Nat} {pending tables : List Table} {pass : List Attempt}
  {passes : List (List Attempt)} {r : Except Error SyncReport}

theorem Complete.ne_nil (h : Complete pending pass) (hne : pending ≠ []) : pass ≠ [] := by
  rintro rfl
  exact hne h.1.symm

/-- Each table is tried once in a pass, so those that failed are those not brought about. -/
theorem failed_eq (hnodup : (pass.map Attempt.table).Nodup) :
    failed pass = pendingAfter (pass.map Attempt.table) pass := by
  unfold pendingAfter
  rw [failed, List.filter_map]
  refine congrArg (List.map Attempt.table) (List.filter_congr fun a ha => ?_)
  rw [Function.comp_apply, Bool.eq_iff_iff, List.all_eq_true]
  constructor
  · intro hs b hb
    by_cases htable : b.table = a.table
    · have hba : b = a := List.inj_on_of_nodup_map hnodup hb ha htable
      rw [hba]
      simp_all
    · simp [htable]
  · intro h
    simpa using h a ha

theorem pendingAfter_append (tables : List Table) (tried more : List Attempt) :
    pendingAfter tables (tried ++ more) = pendingAfter (pendingAfter tables tried) more := by
  simp only [pendingAfter, List.filter_filter, List.all_append, Bool.and_comm]

/-- After a complete pass over tables that differ, what follows is judged by the failed ones. -/
theorem Complete.pendingAfter_eq (h : Complete pending pass) (hnodup : pending.Nodup)
    (more : List Attempt) : pendingAfter pending (pass ++ more) = pendingAfter (failed pass) more := by
  obtain ⟨rfl, -⟩ := h
  rw [pendingAfter_append, ← failed_eq hnodup]

theorem Complete.failed_nodup (h : Complete pending pass) (hnodup : pending.Nodup) :
    (failed pass).Nodup := by
  obtain ⟨rfl, -⟩ := h
  exact (failed_sublist pass).nodup hnodup

theorem Course.length_le (h : Course made pending passes r) : passes.length ≤ pending.length := by
  induction h with
  | converged => exact Nat.le_refl _
  | deadlocked hne => exact List.length_pos_iff.mpr hne
  | aborted h =>
    obtain ⟨htables, before, a, rfl, -⟩ := h
    have hlen := htables.length_le
    simp only [List.length_map, List.length_append] at hlen
    simp only [List.length_singleton] at hlen ⊢
    omega
  | next hp hs _ ih =>
    have hlt := hp.length_failed_lt hs
    rw [List.length_cons]
    omega

theorem Course.nil_iff (h : Course made pending passes r) : passes = [] ↔ pending = [] := by
  cases h with
  | converged => simp
  | deadlocked hne => simp [hne]
  | aborted h =>
    obtain ⟨htables, before, a, rfl, -⟩ := h
    refine ⟨by simp, ?_⟩
    rintro rfl
    simp at htables
  | next hp hs =>
    obtain ⟨a, ha, -⟩ := hs
    refine ⟨by simp, ?_⟩
    rintro rfl
    rw [List.map_eq_nil_iff.mp hp.1] at ha
    cases ha

theorem Course.passes_eq {report : SyncReport} (h : Course made pending passes (.ok report)) :
    report.passes = made + passes.length := by
  generalize hr : (.ok report : Except Error SyncReport) = r at h
  induction h with
  | converged h =>
    cases hr
    exact h
  | next _ _ _ ih =>
    rw [ih hr, List.length_cons]
    omega
  | _ => cases hr

/-- No pass is empty, and each follows the pending tables in order. -/
theorem Course.in_order (h : Course made pending passes r) (hnodup : pending.Nodup)
    (earlier : List (List Attempt)) {later : List (List Attempt)} (hp : passes = earlier ++ pass :: later) :
    pass ≠ [] ∧ pass.map Attempt.table <+: pendingAfter pending earlier.flatten ∧
      (later ≠ [] → pass.map Attempt.table = pendingAfter pending earlier.flatten) := by
  have hself (l : List Table) : pendingAfter l [] = l := by simp [pendingAfter]
  have hone {p : List Attempt} {l : List (List Attempt)} (h : [p] = l ++ pass :: later) :
      l = [] ∧ p = pass ∧ later = [] := by
    cases l with
    | nil => simpa [eq_comm] using h
    | cons _ l => simp at h
  induction h generalizing earlier with
  | converged => simp at hp
  | deadlocked hne hcomplete =>
    obtain ⟨rfl, rfl, rfl⟩ := hone hp
    have htables := hcomplete.1.trans (hself _).symm
    exact ⟨hcomplete.ne_nil hne, htables ▸ List.prefix_rfl, fun h => absurd rfl h⟩
  | aborted h =>
    obtain ⟨rfl, rfl, rfl⟩ := hone hp
    obtain ⟨htables, before, a, rfl, -⟩ := h
    refine ⟨by simp, ?_, fun h => absurd rfl h⟩
    rwa [List.flatten_nil, hself]
  | @next _ pending pass' passes _ hcomplete hs h ih =>
    cases earlier with
    | nil =>
      obtain ⟨rfl, rfl⟩ := List.cons.inj hp
      obtain ⟨a, ha, -⟩ := hs
      have htables := hcomplete.1.trans (hself _).symm
      exact ⟨List.ne_nil_of_mem ha, htables ▸ List.prefix_rfl, fun _ => htables⟩
    | cons p earlier =>
      obtain ⟨rfl, hrest⟩ := List.cons.inj hp
      rw [List.flatten_cons, hcomplete.pendingAfter_eq hnodup]
      exact ih (hcomplete.failed_nodup hnodup) earlier hrest

/-- A complete pass in front changes nothing about how a run ends. -/
theorem EndsAs.cons {way : Way} (hcomplete : Complete pending pass) (hnodup : pending.Nodup)
    (h : EndsAs (failed pass) passes r way) : EndsAs pending (pass :: passes) r way := by
  cases way with
  | converged =>
    obtain ⟨hok, hperm⟩ := h
    refine ⟨hok, ?_⟩
    rw [List.flatten_cons, List.filter_append, List.map_append]
    have hsplit := (List.filter_append_perm Attempt.succeeded pass).map Attempt.table
    rw [List.map_append, hcomplete.1] at hsplit
    exact (hperm.append_left _).trans hsplit
  | deadlocked =>
    obtain ⟨earlier, last, rfl, hfatal, htables, hlast⟩ := h
    refine ⟨pass :: earlier, last, rfl, ?_, ?_⟩
    · rw [List.flatten_cons]
      exact List.forall_mem_append.mpr ⟨hcomplete.2, hfatal⟩
    · rw [List.flatten_cons, hcomplete.pendingAfter_eq hnodup]
      exact ⟨htables, hlast⟩
  | aborted =>
    obtain ⟨tried, a, e, htried, hfatal, hlast⟩ := h
    refine ⟨pass ++ tried, a, e, ?_, List.forall_mem_append.mpr ⟨hcomplete.2, hfatal⟩, hlast⟩
    rw [List.flatten_cons, htried, List.append_assoc]

theorem Course.ends (h : Course made pending passes r) (hnodup : pending.Nodup) :
    ∃ way, EndsAs pending passes r way := by
  induction h with
  | @converged _ report => exact ⟨.converged, ⟨report, rfl⟩, by simp⟩
  | @deadlocked _ pending pass hne hcomplete hfailed =>
    have hself : pendingAfter pending [] = pending := by simp [pendingAfter]
    refine ⟨.deadlocked, [], pass, rfl, by simp, ?_, hcomplete.ne_nil hne, fun a ha => ?_, ?_⟩
    · rw [List.flatten_nil, hself, hcomplete.1]
    · exact Attempt.isPostponed_of (hfailed a ha) (hcomplete.2 a ha)
    · rw [List.flatten_nil, hself]
  | @aborted _ _ pass e h =>
    obtain ⟨-, before, a, rfl, hbefore, hresult, he⟩ := h
    exact ⟨.aborted, before, a, e, by simp, hbefore, hresult, he, rfl⟩
  | next hcomplete _ _ ih =>
    obtain ⟨way, hway⟩ := ih (hcomplete.failed_nodup hnodup)
    exact ⟨way, hway.cons hcomplete hnodup⟩

theorem EndsAs.fatal_iff {way : Way} (h : EndsAs tables passes r way) (hne : way ≠ .converged) :
    (∃ a ∈ passes.flatten, a.isFatal = true) ↔ way = .aborted := by
  cases way with
  | converged => exact absurd rfl hne
  | deadlocked =>
    obtain ⟨earlier, pass, rfl, hfatal, -, -, hpostponed, -⟩ := h
    refine ⟨?_, by simp⟩
    rintro ⟨a, ha, hafatal⟩
    rw [List.flatten_append, List.flatten_singleton] at ha
    rcases List.mem_append.mp ha with ha | ha
    · simp [hfatal a ha] at hafatal
    · have hundefined := hpostponed a ha
      unfold Attempt.isPostponed at hundefined
      unfold Attempt.isFatal at hafatal
      split at hafatal <;> simp_all
  | aborted =>
    obtain ⟨tried, a, e, hpasses, -, hresult, he, -⟩ := h
    refine ⟨fun _ => rfl, fun _ => ⟨a, by simp [hpasses], ?_⟩⟩
    simp [Attempt.isFatal, hresult, he]

theorem EndsAs.ok_iff {way : Way} (h : EndsAs tables passes r way) :
    (∃ report, r = .ok report) ↔ way = .converged := by
  cases way with
  | converged => exact ⟨fun _ => rfl, fun _ => h.1⟩
  | deadlocked =>
    obtain ⟨earlier, pass, -, -, -, -, -, rfl⟩ := h
    simp
  | aborted =>
    obtain ⟨tried, a, e, -, -, -, -, rfl⟩ := h
    simp

/-- A run ends in one way only. -/
theorem EndsAs.unique {way way' : Way} (h : EndsAs tables passes r way)
    (h' : EndsAs tables passes r way') : way = way' := by
  by_cases hc : way = .converged
  · rw [hc, h'.ok_iff.mp (h.ok_iff.mpr hc)]
  · have hc' : way' ≠ .converged := fun heq => hc (h.ok_iff.mp (h'.ok_iff.mpr heq))
    have hiff := (h.fatal_iff hc).symm.trans (h'.fatal_iff hc')
    cases way <;> cases way' <;> simp_all

end Consequences

theorem flatMap_calls_eq_nil_iff {db : Adapter σ} {s u : σ} {l : List Attempt}
    (h : Tries db s l u) : l.flatMap Attempt.calls = [] ↔ l = [] := by
  rw [List.flatMap_eq_nil_iff]
  refine ⟨fun hnil => List.eq_nil_iff_forall_not_mem.mpr fun a ha => ?_, by rintro rfl; simp⟩
  exact h.calls_ne_nil a ha (hnil a ha)

/-- Whatever the database answers, a synchronisation is a sequence of passes over the tables that are
still pending, and makes no call besides. There are no more passes than tables, and none without a
table. It ends in exactly one way, with success, with a deadlock over the tables of its last pass, or
with the error of its last attempt; it never gives up for too many passes by itself. -/
theorem sync_passes (db : Adapter σ) (registered : List Table) (s : σ) :
    let schema := Schema.ofList registered
    let tables := schema.toList
    ∃ passes r u, (sync db schema).Ends s r u ∧
      (∀ log, (sync db.recorded schema).Ends (s, log) r
        (u, log ++ passes.flatten.flatMap Attempt.calls)) ∧
      Tries db s passes.flatten u ∧
      passes.length ≤ tables.length ∧
      (passes = [] ↔ tables = []) ∧
      (passes.flatten.flatMap Attempt.calls = [] ↔ tables = []) ∧
      (∀ earlier pass later, passes = earlier ++ pass :: later →
        pass ≠ [] ∧ pass.map Attempt.table <+: pendingAfter tables earlier.flatten ∧
          (later ≠ [] → pass.map Attempt.table = pendingAfter tables earlier.flatten)) ∧
      (∀ report, r = .ok report → report.passes = passes.length) ∧
      (∀ n names, r = .error (.syncTimeout n names) →
        ∃ a ∈ passes.flatten, a.result = .error (.syncTimeout n names)) ∧
      ∃! way, EndsAs tables passes r way := by
  intro schema tables
  have hnodup : tables.Nodup := List.Nodup.of_map Table.name (Schema.nodup_names registered)
  have hbudget := Nat.le_mul_of_pos_left tables.length Nat.two_pos
  obtain ⟨passes, r, u, htries, hcourse, hends⟩ := syncPasses_course db hbudget .empty s
  have hrecorded (log : List Call) : (sync db.recorded schema).Ends (s, log) r
      (u, log ++ passes.flatten.flatMap Attempt.calls) := sync_of_syncPasses (hends log)
  have hplain : (sync db schema).Ends s r u := by
    obtain ⟨calls, hcalls⟩ := (sync_records db schema).makes s
    obtain ⟨hr, hu⟩ := (hcalls []).unique (hrecorded [])
    exact ⟨hr, (Prod.mk.inj hu).1⟩
  obtain ⟨way, hway⟩ := hcourse.ends hnodup
  have hnone : passes.flatten = [] ↔ passes = [] := by
    refine ⟨fun hflat => ?_, by rintro rfl; rfl⟩
    cases passes with
    | nil => rfl
    | cons pass later =>
      have hpass := (hcourse.in_order hnodup [] rfl).1
      simp [hpass] at hflat
  refine ⟨passes, r, u, hplain, hrecorded, htries, hcourse.length_le, hcourse.nil_iff,
    ?_, fun earlier pass later hp => hcourse.in_order hnodup earlier hp, ?_, ?_,
    way, hway, fun way' hway' => hway'.unique hway⟩
  · rw [flatMap_calls_eq_nil_iff htries, hnone, hcourse.nil_iff]
  · rintro report rfl
    exact hcourse.passes_eq.trans (Nat.zero_add passes.length)
  · rintro n names rfl
    cases way with
    | converged =>
      obtain ⟨⟨report, hreport⟩, -⟩ := hway
      cases hreport
    | deadlocked =>
      obtain ⟨earlier, pass, -, -, -, -, -, herror⟩ := hway
      cases herror
    | aborted =>
      obtain ⟨tried, a, e, hpasses, -, hresult, -, herror⟩ := hway
      cases herror
      exact ⟨a, by simp [hpasses], hresult⟩

end Relata.Migration
