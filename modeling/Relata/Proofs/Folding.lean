import Relata.Proofs.Reporting
import Relata.Proofs.Repetition

/-!
Databases that find a table whatever the case of the ASCII letters in its name. They ignore the
creation of a table that is found already, while the catalog queries only know tables as they are
spelled. Main statement: an attempt at a table either is refused, adds columns to it, creates it, or is
ignored for a table in another spelling and still answers that it was created.
-/
namespace Relata

namespace Keyed

variable {α : Type} {k : Keyed α} {name : String} {x y : α}

theorem mem_keys_iff : name ∈ k.keys ↔ ∃ x, k.get? name = some x := by
  unfold keys get?
  rw [← Option.isSome_iff_exists, List.lookup_isSome_iff, List.mem_map]
  constructor
  · rintro ⟨e, he, rfl⟩
    exact ⟨e, he, beq_self_eq_true e.1⟩
  · rintro ⟨e, he, hname⟩
    exact ⟨e, he, (eq_of_beq hname).symm⟩

theorem insert_self (h : k.get? name = some x) : k.insert name x = k := by
  have hentries (l : List (String × α)) (hl : l.lookup name = some x) :
      insertEntry name x l = l := by
    induction l with
    | nil => cases hl
    | cons e l ih =>
      obtain ⟨n, y⟩ := e
      unfold insertEntry
      split
      next hn =>
        subst hn
        rw [List.lookup_cons_self] at hl
        rw [Option.some.inj hl]
      next hn =>
        have hne : (name == n) = false := beq_false_of_ne fun heq => hn heq.symm
        simp only [List.lookup_cons, hne] at hl
        rw [ih hl]
  unfold insert
  rw [hentries k.entries h]

theorem insert_insert : (k.insert name x).insert name y = k.insert name y := by
  have hentries (l : List (String × α)) :
      insertEntry name y (insertEntry name x l) = insertEntry name y l := by
    induction l with
    | nil => simp [insertEntry]
    | cons e l ih =>
      by_cases hn : e.1 = name
      · simp [insertEntry, hn]
      · simp [insertEntry, hn, ih]
  unfold insert
  rw [hentries]

end Keyed

namespace Catalog

variable {c c' : Catalog} {name n : String} {live : List String}

/-- The table that a name stands for, whatever the case of its ASCII letters, as it is spelled. -/
def resolve? (c : Catalog) (name : String) : Option String :=
  c.keys.find? fun n => Text.sameAsciiLetters n name

/-- No two tables have names that differ in the case of ASCII letters only. -/
def Distinct (c : Catalog) : Prop := (c.keys.map Text.lowerAscii).Nodup

theorem resolve?_eq_none_iff :
    c.resolve? name = none ↔ Text.lowerAscii name ∉ c.keys.map Text.lowerAscii := by
  unfold resolve?
  rw [List.find?_eq_none, List.mem_map]
  constructor
  · rintro h ⟨n, hn, heq⟩
    exact h n hn (beq_iff_eq.mpr heq)
  · intro h n hn heq
    exact h ⟨n, hn, beq_iff_eq.mp heq⟩

theorem Distinct.resolve?_eq_some_iff (h : c.Distinct) :
    c.resolve? name = some n ↔ n ∈ c.keys ∧ Text.lowerAscii n = Text.lowerAscii name := by
  have hsound {m : String} (hm : c.resolve? name = some m) :
      m ∈ c.keys ∧ Text.lowerAscii m = Text.lowerAscii name := by
    have hsame : Text.sameAsciiLetters m name = true := by
      unfold resolve? at hm
      simpa using List.find?_some hm
    exact ⟨List.mem_of_find?_eq_some hm, beq_iff_eq.mp hsame⟩
  constructor
  · exact hsound
  · rintro ⟨hn, hfold⟩
    cases hfound : c.resolve? name with
    | none =>
      rw [resolve?_eq_none_iff, ← hfold] at hfound
      exact absurd (List.mem_map_of_mem hn) hfound
    | some m =>
      obtain ⟨hm, hmfold⟩ := hsound hfound
      rw [List.inj_on_of_nodup_map h hm hn (hmfold.trans hfold.symm)]

theorem Distinct.resolve?_self (h : c.Distinct) (hlive : c.get? name = some live) :
    c.resolve? name = some name :=
  h.resolve?_eq_some_iff.mpr ⟨Keyed.mem_keys_iff.mpr ⟨live, hlive⟩, rfl⟩

theorem keys_insert_of_live (hlive : c.get? name = some live) (columns : List String) :
    (c.insert name columns).keys = c.keys := by
  rw [Keyed.keys_insert, if_pos (Keyed.mem_keys_iff.mpr ⟨live, hlive⟩)]

theorem Distinct.insert_of_live (h : c.Distinct) (hlive : c.get? name = some live)
    (columns : List String) : Distinct (c.insert name columns) := by
  unfold Distinct
  rwa [keys_insert_of_live hlive]

theorem Distinct.insert_of_free (h : c.Distinct) (hfree : c.resolve? name = none)
    (columns : List String) : Distinct (c.insert name columns) := by
  rw [resolve?_eq_none_iff] at hfree
  have hnew : name ∉ c.keys := fun hmem => hfree (List.mem_map_of_mem hmem)
  unfold Distinct
  rw [Keyed.keys_insert, if_neg hnew, List.map_append, List.nodup_append]
  refine ⟨h, by simp, ?_⟩
  rintro a ha b hb rfl
  rw [List.map_singleton, List.mem_singleton] at hb
  exact hfree (hb ▸ ha)

end Catalog

/-- What a statement makes of a catalog whose tables are found whatever the case of letters; nothing
if its table is not there. -/
def Ddl.fold? (c : Catalog) : Ddl → Option Catalog
  | .create t columns _ => some (if (c.resolve? t).isSome then c else c.insert t columns)
  | .addColumn t column _ =>
    (c.resolve? t).map fun n => c.insert n ((c.get? n).getD [] ++ [column])

namespace Catalog

open Migration

variable {db : Adapter Catalog} {c c' : Catalog} {t : Table} {live : List String}

/-- The state of the database is its catalog, which the catalog queries answer as it is spelled. The
creation of a table that is found already has no effect; any other statement does as it says, or is
refused and changes nothing. -/
structure Folds (db : Adapter Catalog) : Prop extends Answers db where
  silent {c : Catalog} {t : Table} (hfound : c.resolve? t.name ≠ none) :
    ∃ n, (db.execute (t.createSql db.dialect)).Ends c (.ok n) c
  execute {c : Catalog} {sql : String} {ddl : Ddl} (h : Ddl.IsSent db.dialect ddl sql) :
    (∃ n c', ddl.fold? c = some c' ∧ (db.execute sql).Ends c (.ok n) c') ∨
      ∃ e, (db.execute sql).Ends c (.error e) c

/-- How an attempt at a table may end, and the catalog that it leaves. -/
inductive Turn (c : Catalog) (t : Table) : Except Error TableSync → Catalog → Prop
  | created (hfree : c.resolve? t.name = none) :
    Turn c t (.ok .created) (c.insert t.name t.columnNames)
  | ignored {n : String} (hfound : c.resolve? t.name = some n) (hn : c.contains t.name = false)
    (href : ∀ d ∈ t.dependencies, d = t.name ∨ c.contains d = true) : Turn c t (.ok .created) c
  | updated {live : List String} {done : TableSync} (hlive : c.get? t.name = some live)
    (hdone : done = if (c.missing t).isEmpty then .unchanged
      else .altered ((c.missing t).map Prod.fst)) :
    Turn c t (.ok done) (c.insert t.name (c.columnsAfter t))
  | stopped {live added : List String} {e : Error} (hlive : c.get? t.name = some live) :
    Turn c t (.error e) (c.insert t.name (live ++ added))
  | refused {e : Error} : Turn c t (.error e) c

/-- The columns are appended to the table up to the first that is refused. -/
theorem addColumns_folds (h : Folds db) (hd : c.Distinct) (hlive : c.get? t.name = some live)
    (columns : List (String × Column)) :
    (addColumns db t columns).Ends c (.ok ()) (c.insert t.name (live ++ columns.map Prod.fst)) ∨
      ∃ e added, (addColumns db t columns).Ends c (.error e) (c.insert t.name (live ++ added)) := by
  induction columns generalizing c live with
  | nil =>
    left
    rw [List.map_nil, List.append_nil, Keyed.insert_self hlive]
    exact Action.ends_pure.mpr ⟨rfl, rfl⟩
  | cons e columns ih =>
    unfold addColumns
    simp only [Action.ends_log_bind]
    rcases h.execute (c := c) (.addColumn t e.1 e.2) with
      ⟨n, c', hfold, hexec⟩ | ⟨error, hexec⟩
    · have hc' : c.insert t.name (live ++ [e.1]) = c' := by
        simpa [Ddl.fold?, hd.resolve?_self hlive, hlive] using hfold
      subst hc'
      have hnext : (c.insert t.name (live ++ [e.1])).get? t.name = some (live ++ [e.1]) := by
        rw [Keyed.get?_insert, if_pos rfl]
      have hrest := ih (hd.insert_of_live hlive _) hnext
      simp only [Keyed.insert_insert, List.append_assoc, List.singleton_append] at hrest
      rcases hrest with hall | ⟨error, added, hpart⟩
      · left
        exact hexec.bind (Action.ends_log_bind.mpr hall)
      · right
        exact ⟨error, e.1 :: added, hexec.bind (Action.ends_log_bind.mpr hpart)⟩
    · right
      refine ⟨error, [], ?_⟩
      rw [List.append_nil, Keyed.insert_self hlive]
      exact hexec.bind_error

theorem requireAll_ends (h : Answers db) (c : Catalog) (table : String) (targets : List String) :
    ((∀ d ∈ targets, d = table ∨ c.contains d = true) ∧
        (requireAll db table targets).Ends c (.ok ()) c) ∨
      ∃ e, (requireAll db table targets).Ends c (.error e) c := by
  by_cases hready : ∀ d ∈ targets, d = table ∨ c.contains d = true
  · exact .inl ⟨hready, requireAll_ready h hready⟩
  · push Not at hready
    obtain ⟨d, hmem, hne, hmissing⟩ := hready
    obtain ⟨name, hblocked⟩ := requireAll_blocked h hmem hne (eq_false_of_ne_true hmissing)
    exact .inr ⟨_, hblocked⟩

theorem createTable_turn (h : Folds db) (hn : c.contains t.name = false) :
    ∃ r c', (createTable db t).Ends c r c' ∧ Turn c t r c' := by
  rcases requireAll_ends h.toAnswers c t.name t.dependencies with ⟨href, hready⟩ | ⟨e, hblocked⟩
  · have hrest {r : Except Error TableSync} {c' : Catalog}
        (hexec : (db.execute (t.createSql db.dialect) >>= fun _ => do
          Action.log .info "created table" [("table", t.name)]
          return TableSync.created).Ends c r c') : (createTable db t).Ends c r c' := by
      refine hready.bind ?_
      simpa only [Action.ends_log_bind] using hexec
    cases hfound : c.resolve? t.name with
    | some n =>
      obtain ⟨count, hexec⟩ := h.silent (c := c) (t := t) (by simp [hfound])
      refine ⟨.ok .created, c, hrest (hexec.bind ?_), .ignored hfound hn href⟩
      simp
    | none =>
      rcases h.execute (c := c) (.create t) with ⟨count, c', hfold, hexec⟩ | ⟨e, hexec⟩
      · have hc' : c.insert t.name t.columnNames = c' := by simpa [Ddl.fold?, hfound] using hfold
        subst hc'
        refine ⟨.ok .created, _, hrest (hexec.bind ?_), .created hfound⟩
        simp
      · exact ⟨.error e, c, hrest hexec.bind_error, .refused⟩
  · exact ⟨.error e, c, hblocked.bind_error, .refused⟩

theorem alterTable_turn (h : Folds db) (hd : c.Distinct) (hlive : c.get? t.name = some live) :
    ∃ r c', (alterTable db t).Ends c r c' ∧ Turn c t r c' := by
  have hmissing : missingColumns t (live.map Text.lower) = c.missing t := by simp [missing, hlive]
  have hafter : live ++ (c.missing t).map Prod.fst = c.columnsAfter t := by
    simp [columnsAfter, hlive]
  have hcolumns := liveColumns_ends h.toAnswers hlive
  unfold alterTable
  simp only [Action.ends_log_bind]
  rcases requireAll_ends h.toAnswers c t.name
      ((c.missing t).filterMap fun e => e.2.reference.map Reference.table) with
    ⟨-, hready⟩ | ⟨e, hblocked⟩
  · rcases addColumns_folds h hd hlive (c.missing t) with hall | ⟨e, added, hpart⟩
    · rw [hafter] at hall
      refine ⟨_, _, hcolumns.bind ?_, .updated hlive rfl⟩
      rw [hmissing]
      exact hready.bind (hall.bind (Action.ends_pure.mpr ⟨rfl, rfl⟩))
    · refine ⟨.error e, c.insert t.name (live ++ added), hcolumns.bind ?_, .stopped hlive⟩
      rw [hmissing]
      exact hready.bind hpart.bind_error
  · refine ⟨.error e, c, hcolumns.bind ?_, .refused⟩
    rw [hmissing]
    exact hblocked.bind_error

/-- One attempt. -/
theorem syncTable_turn (h : Folds db) (hd : c.Distinct) (t : Table) :
    ∃ r c', (syncTable db t).Ends c r c' ∧ Turn c t r c' := by
  cases hlive : c.get? t.name with
  | none =>
    have hn : c.contains t.name = false := by simp [Keyed.contains, hlive]
    obtain ⟨r, c', hends, hturn⟩ := createTable_turn h hn
    exact ⟨r, c', syncTable_ends h.toAnswers (by simpa [hn] using hends), hturn⟩
  | some live =>
    have hthere : c.contains t.name = true := contains_iff.mpr ⟨live, hlive⟩
    obtain ⟨r, c', hends, hturn⟩ := alterTable_turn h hd hlive
    exact ⟨r, c', syncTable_ends h.toAnswers (by simpa [hthere] using hends), hturn⟩

end Catalog
end Relata
