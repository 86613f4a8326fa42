import Relata.Proofs.Catalog

/-!
Databases that check the columns referred to. A statement fits if every column that it refers to is
there once it has been run. Main statement: the statements that bring a table up to date all fit,
unless one of its missing columns refers to a column that the table referred to lacks.
-/
namespace Relata

namespace Ddl

/-- What the statement refers to. -/
def references : Ddl → List Reference
  | .create _ _ refs => refs
  | .addColumn _ _ ref => ref.toList

/-- Every column that the statement refers to is there once it has been run. -/
def fits (c : Catalog) (ddl : Ddl) : Bool :=
  ddl.references.all fun r => (((ddl.apply c).get? r.table).getD []).contains r.column

theorem fits_eq_false {c : Catalog} {ddl : Ddl} :
    ddl.fits c = false ↔
      ∃ r ∈ ddl.references, r.column ∉ ((ddl.apply c).get? r.table).getD [] := by
  simp [fits]

end Ddl

namespace Catalog

variable {c : Catalog} {t : Table} {live : List String}

/-- A missing column of the table refers to a column of the target that the target lacks; among the
columns of the table itself also those count that are added before it, and the column itself. -/
def LacksIn (c : Catalog) (t : Table) (target : String) : Prop :=
  ∃ before e after, c.missing t = before ++ e :: after ∧
    ∃ r ∈ e.2.reference, r.table = target ∧ ∃ live, c.get? target = some live ∧ r.column ∉ live ∧
      (target = t.name → r.column ∉ (before ++ [e]).map Prod.fst)

/-- A missing column of the table refers to a column that a live table lacks. -/
def Short (c : Catalog) (t : Table) : Prop := ∃ target, c.LacksIn t target

theorem get?_insert_twice {n : String} {a b : List String} (m : String) :
    ((c.insert n a).insert n b).get? m = (c.insert n b).get? m := by
  rw [Keyed.get?_insert, Keyed.get?_insert, Keyed.get?_insert]
  by_cases h : m = n
  · rw [if_pos h, if_pos h]
  · rw [if_neg h, if_neg h, if_neg h]

/-- Of the columns that are added one by one, one refers to something that is not there even then. -/
theorem fitsAll_additions (hc : c.get? t.name = some live) {columns : List (String × Column)} :
    fitsAll Ddl.fits c (additions t columns) = false ↔
      ∃ before e after, columns = before ++ e :: after ∧ ∃ r ∈ e.2.reference,
        r.column ∉ ((c.insert t.name (live ++ (before ++ [e]).map Prod.fst)).get? r.table).getD [] := by
  induction columns generalizing c live with
  | nil => simp [additions, fitsAll]
  | cons e columns ih =>
    have happly := apply_addColumn hc e.1 e.2.reference
    have hfirst : (Ddl.addColumn t.name e.1 e.2.reference).fits c = false ↔
        ∃ r ∈ e.2.reference, r.column ∉ ((c.insert t.name (live ++ [e.1])).get? r.table).getD [] := by
      simp only [Ddl.fits_eq_false, Ddl.references, happly, Option.mem_toList, Option.mem_def]
    have hinsert : (c.insert t.name (live ++ [e.1])).get? t.name = some (live ++ [e.1]) := by
      simp [Keyed.get?_insert]
    have hrest := ih hinsert
    simp only [additions, List.map_cons, fitsAll, Bool.and_eq_false_iff, hfirst, happly] at hrest ⊢
    rw [hrest]
    constructor
    · rintro (⟨r, hr, hnot⟩ | ⟨before, e', after, rfl, r, hr, hnot⟩)
      · exact ⟨[], e, columns, rfl, r, hr, by simpa using hnot⟩
      · refine ⟨e :: before, e', after, rfl, r, hr, ?_⟩
        rw [get?_insert_twice] at hnot
        simpa using hnot
    · rintro ⟨before, e', after, heq, r, hr, hnot⟩
      cases before with
      | nil =>
        obtain ⟨rfl, rfl⟩ := List.cons.inj heq
        exact .inl ⟨r, hr, by simpa using hnot⟩
      | cons first before =>
        obtain ⟨rfl, rfl⟩ := List.cons.inj heq
        refine .inr ⟨before, e', after, rfl, r, hr, ?_⟩
        rw [get?_insert_twice]
        simpa using hnot

theorem fitsAll_create (hc : c.contains t.name = false) :
    fitsAll Ddl.fits c (c.statements t) = false ↔ ∃ e ∈ t.columns.entries, ∃ r ∈ e.2.reference,
      r.column ∉ ((c.insert t.name t.columnNames).get? r.table).getD [] := by
  have hmissing : ¬ c.contains t.name = true := by simp [hc]
  have happly : (Ddl.create t.name t.columnNames (t.references.map Prod.snd)).apply c =
      c.insert t.name t.columnNames := if_neg hmissing
  rw [statements, if_neg hmissing, fitsAll, fitsAll, Bool.and_true, Ddl.fits_eq_false, happly]
  constructor
  · rintro ⟨r, hr, hnot⟩
    obtain ⟨p, hp, rfl⟩ := List.mem_map.mp hr
    obtain ⟨e, he, hmap⟩ := List.mem_filterMap.mp hp
    obtain ⟨r, href, rfl⟩ := Option.map_eq_some_iff.mp hmap
    exact ⟨e, he, r, href, hnot⟩
  · rintro ⟨e, he, r, href, hnot⟩
    have hp : (e.1, r) ∈ t.references :=
      List.mem_filterMap.mpr ⟨e, he, Option.map_eq_some_iff.mpr ⟨r, href, rfl⟩⟩
    exact ⟨r, List.mem_map_of_mem hp, hnot⟩

/-- The tables referred to are there, and the table declares what it refers to in itself. -/
structure Ready (c : Catalog) (t : Table) : Prop where
  live : ∀ d ∈ c.needs t, c.contains d = true
  own : ∀ e ∈ t.columns.entries, ∀ r ∈ e.2.reference, r.table = t.name → r.column ∈ t.columnNames

theorem mem_needs_of_missing {e : String × Column} {r : Reference} (he : e ∈ c.missing t)
    (hr : r ∈ e.2.reference) (hne : r.table ≠ t.name) : r.table ∈ c.needs t := by
  refine mem_needs.mpr ⟨List.mem_filterMap.mpr ⟨e, he, ?_⟩, hne⟩
  exact Option.map_eq_some_iff.mpr ⟨r, hr, rfl⟩

/-- What the missing column refers to in another table is there, unless the table is short. -/
theorem Ready.lacksIn {before after : List (String × Column)} {e : String × Column} {r : Reference}
    (h : c.Ready t) (heq : c.missing t = before ++ e :: after) (hr : r ∈ e.2.reference)
    (hne : r.table ≠ t.name) (hnot : r.column ∉ (c.get? r.table).getD []) :
    c.LacksIn t r.table := by
  have he : e ∈ c.missing t := by simp [heq]
  obtain ⟨columns, hlive⟩ := contains_iff.mp (h.live _ (mem_needs_of_missing he hr hne))
  rw [hlive, Option.getD_some] at hnot
  exact ⟨before, e, after, heq, r, hr, rfl, columns, hlive, hnot, fun hself => absurd hself hne⟩

theorem Ready.unfit_create (h : c.Ready t) (hnone : c.get? t.name = none) :
    fitsAll Ddl.fits c (c.statements t) = false ↔ c.Short t := by
  have hmissing : c.missing t = t.columns.entries := by simp [missing, hnone]
  rw [fitsAll_create (by simp [Keyed.contains, hnone])]
  constructor
  · rintro ⟨e, he, r, hr, hnot⟩
    have hne : r.table ≠ t.name := by
      intro hself
      rw [hself, Keyed.get?_insert, if_pos rfl, Option.getD_some] at hnot
      exact hnot (h.own e he r hr hself)
    rw [Keyed.get?_insert, if_neg hne] at hnot
    obtain ⟨before, after, heq⟩ := List.append_of_mem (hmissing ▸ he)
    exact ⟨r.table, h.lacksIn heq hr hne hnot⟩
  · rintro ⟨target, before, e, after, heq, r, hr, rfl, live, hlive, hnot, -⟩
    have hne : r.table ≠ t.name := by
      intro hself
      rw [hself, hnone] at hlive
      cases hlive
    refine ⟨e, by simp [← hmissing, heq], r, hr, ?_⟩
    rwa [Keyed.get?_insert, if_neg hne, hlive]

theorem Ready.unfit_alter (h : c.Ready t) (hlive : c.get? t.name = some live) :
    fitsAll Ddl.fits c (c.statements t) = false ↔ c.Short t := by
  rw [statements, if_pos (contains_iff.mpr ⟨live, hlive⟩), fitsAll_additions hlive]
  constructor
  · rintro ⟨before, e, after, heq, r, hr, hnot⟩
    by_cases hself : r.table = t.name
    · rw [hself, Keyed.get?_insert, if_pos rfl, Option.getD_some, List.mem_append, not_or] at hnot
      exact ⟨t.name, before, e, after, heq, r, hr, hself, live, hlive, hnot.1, fun _ => hnot.2⟩
    · rw [Keyed.get?_insert, if_neg hself] at hnot
      exact ⟨r.table, h.lacksIn heq hr hself hnot⟩
  · rintro ⟨target, before, e, after, heq, r, hr, rfl, columns, hcolumns, hnot, hown⟩
    refine ⟨before, e, after, heq, r, hr, ?_⟩
    by_cases hself : r.table = t.name
    · obtain rfl : columns = live := Option.some.inj (by rw [← hcolumns, hself, hlive])
      rw [hself, Keyed.get?_insert, if_pos rfl, Option.getD_some, List.mem_append, not_or]
      exact ⟨hnot, hown hself⟩
    · rwa [Keyed.get?_insert, if_neg hself, hcolumns]

/-- When the tables referred to are there, some statement does not fit just if the table is short. -/
theorem Ready.unfit_iff (h : c.Ready t) : fitsAll Ddl.fits c (c.statements t) = false ↔ c.Short t := by
  cases hlive : c.get? t.name with
  | none => exact h.unfit_create hlive
  | some live => exact h.unfit_alter hlive

/-- Runs a statement that defines a table, if all that it refers to is there. -/
def defineChecked (sql : String) : Action Catalog Nat := fun c =>
  if (Ddl.ofSql? sql).any fun ddl => ddl.admits c && !ddl.fits c then
    ⟨.error (.query "column referenced in foreign key constraint does not exist"), c, []⟩
  else define sql c

/-- A database that is its catalog, and refuses statements that refer to a missing table or column. -/
def checking (d : Dialect) : Adapter Catalog :=
  { strict d with execute := defineChecked, executeWith := fun sql _ => defineChecked sql }

theorem checking_meets (d : Dialect) : Meets (checking d) Ddl.fits where
  tables := (strict_keeps d).tables
  columns := (strict_keeps d).columns
  runs {c sql ddl} h ha hf := by
    obtain ⟨n, hrun⟩ := (strict_keeps d).execute h ha
    have hfit : ((Ddl.ofSql? sql).any fun ddl => ddl.admits c && !ddl.fits c) = false := by
      simp [h.read, hf]
    have hexecute : (checking d).execute sql c = (strict d).execute sql c := by
      simp only [checking, strict, defineChecked, hfit, Bool.false_eq_true, if_false]
    exact ⟨n, by rw [Action.Ends, hexecute]; exact hrun⟩
  refuses {c sql ddl} h ha hf := by
    have hunfit : ((Ddl.ofSql? sql).any fun ddl => ddl.admits c && !ddl.fits c) = true := by
      simp [h.read, ha, hf]
    refine ⟨.query "column referenced in foreign key constraint does not exist", by decide +kernel, ?_⟩
    simp only [checking, defineChecked, hunfit, Action.Ends, if_true, and_self]

end Catalog
end Relata
