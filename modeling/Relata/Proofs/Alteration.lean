import Relata.Proofs.Folding
import Relata.Proofs.Grounds

/-!
Tables that are there already. Main statement: the columns that such a table misses are all added, in
the order of their declaration and behind those that it has, or none is, as one of them refers to a
table that is not there; and once they have been added there is nothing left to do.
-/
namespace Relata.Catalog

open Migration Relata.Action

variable {db : Adapter Catalog} {c : Catalog} {t : Table} {live : List String}

section Asks

variable {α β : Type} {a : Action (Catalog × List Call) α} {f : α → Action (Catalog × List Call) β}

theorem asks_fail (e : Error) (c : Catalog) :
    Asks (fail e : Action (Catalog × List Call) α) c (.error e) := ⟨[], by simp, makes_fail e c⟩

theorem Asks.bind_error {e : Error} (h : Asks a c (.error e)) : Asks (a >>= f) c (.error e) := by
  obtain ⟨calls, hcalls, hmakes⟩ := h
  exact ⟨calls, hcalls, hmakes.bind_error⟩

end Asks

/-- What comes of requiring the targets: the first that is missing is the error. -/
def required (c : Catalog) (table : String) : List String → Except Error Unit
  | [] => .ok ()
  | d :: rest =>
    if d = table ∨ c.contains d = true then required c table rest else .error (missingTable d)

theorem required_eq_ok_iff {table : String} {targets : List String} :
    c.required table targets = .ok () ↔ ∀ d ∈ targets, d = table ∨ c.contains d = true := by
  induction targets with
  | nil => simp [required]
  | cons d targets ih =>
    rw [List.forall_mem_cons, ← ih, required]
    by_cases hd : d = table ∨ c.contains d = true
    · rw [if_pos hd]
      exact ⟨fun h => ⟨hd, h⟩, And.right⟩
    · rw [if_neg hd]
      exact ⟨nofun, fun h => absurd h.1 hd⟩

theorem required_eq_error {table : String} {targets : List String} {e : Error}
    (h : c.required table targets = .error e) : ∃ d, e = missingTable d := by
  induction targets with
  | nil => cases h
  | cons d targets ih =>
    unfold required at h
    split at h
    · exact ih h
    · exact ⟨d, (Except.error.inj h).symm⟩

theorem requireReferenced_asks (h : Keeps db) (c : Catalog) (table target : String) :
    Asks (requireReferenced db.recorded table target) c
      (if target = table ∨ c.contains target = true then .ok ()
        else .error (missingTable target)) := by
  unfold requireReferenced
  by_cases heq : target = table
  · simpa [heq] using asks_pure () c
  · rw [if_neg heq]
    refine (tableExists_asks h c target).bind ?_
    cases hc : c.contains target with
    | true => simpa using asks_pure () c
    | false => simpa [heq] using asks_fail (missingTable target) c

theorem requireAll_asks (h : Keeps db) (c : Catalog) (table : String) (targets : List String) :
    Asks (requireAll db.recorded table targets) c (c.required table targets) := by
  induction targets with
  | nil => exact asks_pure () c
  | cons d targets ih =>
    have hd := requireReferenced_asks h c table d
    unfold required
    by_cases hready : d = table ∨ c.contains d = true
    · rw [if_pos hready] at hd ⊢
      exact hd.bind ih
    · rw [if_neg hready] at hd ⊢
      exact hd.bind_error

/-- The statements append the columns one by one. -/
theorem addColumns_makes (h : Keeps db) {columns : List (String × Column)}
    (hlive : c.get? t.name = some live)
    (hr : ∀ e ∈ columns, ∀ r ∈ e.2.reference, r.table = t.name ∨ c.contains r.table = true) :
    ∃ sent, List.Forall₂ (Adds db.dialect t) columns sent ∧
      (addColumns db.recorded t columns).Makes c (.ok ()) sent
        (c.insert t.name (live ++ columns.map Prod.fst)) := by
  induction columns generalizing c live with
  | nil =>
    refine ⟨[], .nil, ?_⟩
    rw [List.map_nil, List.append_nil, Keyed.insert_self hlive]
    exact makes_pure () c
  | cons e columns ih =>
    have hadmit := admits_addColumn (contains_iff.mpr ⟨live, hlive⟩) (hr e List.mem_cons_self)
    obtain ⟨n, hexec⟩ := h.execute (.addColumn t e.1 e.2) hadmit
    rw [apply_addColumn hlive] at hexec
    have hnext : (c.insert t.name (live ++ [e.1])).get? t.name = some (live ++ [e.1]) := by
      rw [Keyed.get?_insert, if_pos rfl]
    obtain ⟨sent, hsent, hrest⟩ := ih hnext (fun e' he' r hr' => by
      have hready := hr e' (List.mem_cons_of_mem e he') r hr'
      rw [contains_insert, Bool.or_eq_true]
      exact hready.imp_right .inr)
    rw [Keyed.insert_insert, List.append_assoc] at hrest
    refine ⟨_ :: sent, .cons ⟨n, rfl⟩ hsent, ?_⟩
    unfold addColumns
    exact makes_log_bind.mpr ((makes_noting hexec _).bind (makes_log_bind.mpr hrest))

theorem missing_of_live (hlive : c.get? t.name = some live) :
    c.missing t = t.columns.entries.filter fun e => ∀ n ∈ live, Text.lower n ≠ Text.lower e.1 := by
  simp only [missing, hlive, missingColumns]
  refine List.filter_congr fun e _ => ?_
  rw [Bool.eq_iff_iff]
  simp

/-- The tables that have to come about before this one can be brought up to date. -/
def awaits (c : Catalog) (t : Table) : List String := (c.needs t).filter fun d => !c.contains d

theorem awaits_ne_nil_iff : c.awaits t ≠ [] ↔
    ∃ e ∈ c.missing t, ∃ r ∈ e.2.reference, r.table ≠ t.name ∧ c.contains r.table = false := by
  simp only [ne_eq, awaits, needs, List.filter_eq_nil_iff, List.mem_filter, List.mem_filterMap,
    Option.map_eq_some_iff, Option.mem_def]
  push Not
  constructor
  · rintro ⟨d, ⟨⟨e, he, r, hr, rfl⟩, hne⟩, hc⟩
    exact ⟨e, he, r, hr, by simpa using hne, by simpa using hc⟩
  · rintro ⟨e, he, r, hr, hne, hc⟩
    exact ⟨r.table, ⟨⟨e, he, r, hr, rfl⟩, by simpa using hne⟩, by simpa using hc⟩

theorem required_eq_ok_iff_awaits :
    c.required t.name ((c.missing t).filterMap fun e => e.2.reference.map Reference.table) = .ok () ↔
      c.awaits t = [] := by
  rw [required_eq_ok_iff, awaits, needs, List.filter_filter, List.filter_eq_nil_iff]
  refine forall₂_congr fun d _ => ?_
  by_cases hd : d = t.name <;> simp [hd]

theorem missingColumns_live (hlive : c.get? t.name = some live) :
    missingColumns t (live.map Text.lower) = c.missing t := by simp only [missing, hlive]

theorem tableExists_live (h : Keeps db) (hlive : c.get? t.name = some live) :
    Asks (tableExists db.recorded t.name) c (.ok true) :=
  contains_iff.mpr ⟨live, hlive⟩ ▸ tableExists_asks h c t.name

theorem syncTable_refused (h : Keeps db) (hlive : c.get? t.name = some live)
    (hne : c.awaits t ≠ []) :
    ∃ d, Asks (syncTable db.recorded t) c (.error (missingTable d)) := by
  have hreq := requireAll_asks h c t.name
    ((c.missing t).filterMap fun e => e.2.reference.map Reference.table)
  cases hr : c.required t.name
      ((c.missing t).filterMap fun e => e.2.reference.map Reference.table) with
  | ok => exact absurd (required_eq_ok_iff_awaits.mp hr) hne
  | error e =>
    rw [hr] at hreq
    obtain ⟨d, rfl⟩ := required_eq_error hr
    refine ⟨d, (tableExists_live h hlive).bind (asks_log_bind.mpr ?_)⟩
    refine (liveColumns_asks h hlive).bind ?_
    rw [missingColumns_live hlive]
    exact hreq.bind_error

theorem syncTable_appends (h : Keeps db) (hlive : c.get? t.name = some live)
    (hnone : c.awaits t = []) :
    ∃ asked sent, (∀ call ∈ asked, call.IsQuery) ∧
      List.Forall₂ (Adds db.dialect t) (c.missing t) sent ∧
      (syncTable db.recorded t).Makes c
        (.ok (if c.missing t = [] then .unchanged else .altered ((c.missing t).map Prod.fst)))
        (asked ++ sent) (c.insert t.name (live ++ (c.missing t).map Prod.fst)) := by
  obtain ⟨found, hfound, hexists⟩ := tableExists_live h hlive
  obtain ⟨listed, hlisted, hcolumns⟩ := liveColumns_asks h hlive
  have hready := required_eq_ok_iff_awaits.mpr hnone
  obtain ⟨checks, hchecks, hrequired⟩ := requireAll_asks h c t.name
    ((c.missing t).filterMap fun e => e.2.reference.map Reference.table)
  rw [hready] at hrequired
  have hthere : ∀ e ∈ c.missing t, ∀ r ∈ e.2.reference,
      r.table = t.name ∨ c.contains r.table = true := by
    intro e he r hr
    apply required_eq_ok_iff.mp hready
    exact List.mem_filterMap.mpr ⟨e, he, by simp [Option.mem_def.mp hr]⟩
  obtain ⟨sent, hsent, hadded⟩ := addColumns_makes h hlive hthere
  refine ⟨found ++ listed ++ checks, sent, ?_, hsent, ?_⟩
  · exact List.forall_mem_append.mpr ⟨List.forall_mem_append.mpr ⟨hfound, hlisted⟩, hchecks⟩
  · have hall : found ++ listed ++ checks ++ sent = found ++ (listed ++ (checks ++ (sent ++ []))) := by
      simp
    rw [hall]
    refine hexists.bind (makes_log_bind.mpr (hcolumns.bind ?_))
    rw [missingColumns_live hlive]
    refine hrequired.bind (hadded.bind ?_)
    simpa only [List.isEmpty_iff] using makes_pure _ _

/-- A table that is there is either refused, as a column that it misses refers to another table
that is not there, and then nothing is sent and nothing changes; or just the columns that it misses
are added, once each and in the order of their declaration. Then a second time finds nothing to
do. -/
theorem syncTable_alters (h : Keeps db) (hlive : c.get? t.name = some live) :
    let missing := t.columns.entries.filter fun e => ∀ n ∈ live, Text.lower n ≠ Text.lower e.1
    let blocked := ∃ e ∈ missing, ∃ r ∈ e.2.reference,
      r.table ≠ t.name ∧ c.contains r.table = false
    ((∃ m, Asks (syncTable db.recorded t) c (.error (.undefinedTable m))) ↔ blocked) ∧
    (¬blocked → ∃ asked sent c',
      (syncTable db.recorded t).Makes c
        (.ok (if missing = [] then .unchanged else .altered (missing.map Prod.fst)))
        (asked ++ sent) c' ∧
      (∀ call ∈ asked, call.IsQuery) ∧ List.Forall₂ (Adds db.dialect t) missing sent ∧
      c' = c.insert t.name (live ++ missing.map Prod.fst) ∧
      Asks (syncTable db.recorded t) c' (.ok .unchanged)) := by
  rw [← missing_of_live hlive]
  intro missing blocked
  have hblocked : c.awaits t ≠ [] ↔ blocked := awaits_ne_nil_iff
  have hmakes (hnone : ¬blocked) := syncTable_appends h hlive (not_not.mp (mt hblocked.mp hnone))
  refine ⟨⟨fun hasks => ?_, fun hb => ?_⟩, fun hnone => ?_⟩
  · by_contra hnone
    obtain ⟨m, calls, -, hfails⟩ := hasks
    obtain ⟨asked, sent, -, -, hmade⟩ := hmakes hnone
    exact nomatch (hfails.unique hmade).1
  · obtain ⟨d, hd⟩ := syncTable_refused h hlive (hblocked.mpr hb)
    exact ⟨_, hd⟩
  · obtain ⟨asked, sent, hasked, hsent, hmade⟩ := hmakes hnone
    have hafter : (c.insert t.name (live ++ (c.missing t).map Prod.fst)).get? t.name =
        some (c.columnsAfter t) := by
      rw [Keyed.get?_insert, if_pos rfl, columnsAfter, hlive, Option.getD_some]
    exact ⟨asked, sent, _, hmade, hasked, hsent, rfl,
      syncTable_upToDate h (upToDate_of_columnsAfter hafter)⟩

/-- A table that misses a plain column, one that refers to the table itself and one that refers to
another; the column that it has is spelled otherwise. -/
theorem syncTable_alters_mixed :
    let t := (((Table.ofName "users").column "id" (Column.ofType .integer)).column "note"
      (Column.ofType .text)).column "boss_id" ((Column.ofType .integer).references "users" "id")
      |>.column "team_id" ((Column.ofType .integer).references "teams" "id")
    let sync := syncTable (strict .postgres).recorded t
    (∃ asked sent c', sync.Makes (.ofList [("users", ["ID"]), ("teams", ["id"])])
        (.ok (.altered ["note", "boss_id", "team_id"])) (asked ++ sent) c' ∧
      (∀ call ∈ asked, call.IsQuery) ∧ sent.length = 3 ∧
      c' = .ofList [("users", ["ID", "note", "boss_id", "team_id"]), ("teams", ["id"])] ∧
      Asks sync c' (.ok .unchanged)) ∧
    ∃ m, Asks sync (.ofList [("users", ["ID"])]) (.error (.undefinedTable m)) := by
  intro t sync
  let note : String × Column := ("note", Column.ofType .text)
  let boss := ("boss_id", (Column.ofType .integer).references "users" "id")
  let team := ("team_id", (Column.ofType .integer).references "teams" "id")
  have hmissing : (t.columns.entries.filter fun e => ∀ n ∈ ["ID"], Text.lower n ≠ Text.lower e.1) =
      [note, boss, team] := by decide +kernel
  constructor
  · obtain ⟨-, hmade⟩ := syncTable_alters (strict_keeps .postgres) (t := t)
      (c := .ofList [("users", ["ID"]), ("teams", ["id"])]) rfl
    rw [hmissing] at hmade
    obtain ⟨asked, sent, c', hmakes, hasked, hsent, hc', hagain⟩ := hmade (by decide)
    exact ⟨asked, sent, c', hmakes, hasked, hsent.length_eq.symm, hc', hagain⟩
  · refine (syncTable_alters (strict_keeps .postgres) (t := t) (c := .ofList [("users", ["ID"])])
      rfl).1.mpr ?_
    rw [hmissing]
    exact ⟨team, by decide, by decide⟩

end Relata.Catalog
