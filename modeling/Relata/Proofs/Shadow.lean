import Relata.Proofs.Folding
import Relata.Proofs.Outcome

/-!
Synchronisation with a database that finds tables whatever the case of letters. Main statement: a
table is reported as created with all its columns just if its name stood for no table at that moment;
if it stood for one in another spelling, nothing was created, and every further synchronisation
reports the same again.
-/
namespace Relata

namespace Catalog

open Migration

variable {db : Adapter Catalog} {c c' u v c₀ c₁ : Catalog} {t : Table} {tables : List Table}
  {a : Attempt} {attempts : List Attempt} {r : Except Error TableSync}

/-- The name of the table stands for one in another spelling. -/
def shadows (c : Catalog) (t : Table) : Bool := (c.resolve? t.name).any fun n => n ≠ t.name

/-- Tables stay, and their columns keep their places. -/
def Widens (c c' : Catalog) : Prop :=
  ∀ n live, c.get? n = some live → ∃ more, c'.get? n = some (live ++ more)

theorem Widens.refl (c : Catalog) : Widens c c := by
  intro n live h
  exact ⟨[], by rwa [List.append_nil]⟩

theorem Widens.trans (h : Widens c u) (h' : Widens u c') : Widens c c' := by
  intro n live hlive
  obtain ⟨more, hmore⟩ := h n live hlive
  obtain ⟨rest, hrest⟩ := h' n _ hmore
  exact ⟨more ++ rest, by rwa [List.append_assoc] at hrest⟩

theorem Widens.mem_keys (h : Widens c c') {n : String} (hn : n ∈ c.keys) : n ∈ c'.keys := by
  obtain ⟨live, hlive⟩ := Keyed.mem_keys_iff.mp hn
  obtain ⟨more, hmore⟩ := h n live hlive
  exact Keyed.mem_keys_iff.mpr ⟨_, hmore⟩

theorem Widens.contains (h : Widens c c') {n : String} (hn : c.contains n = true) :
    c'.contains n = true := by
  obtain ⟨live, hlive⟩ := contains_iff.mp hn
  obtain ⟨more, hmore⟩ := h n live hlive
  exact contains_iff.mpr ⟨_, hmore⟩

theorem widens_insert {n : String} {live : List String} (more : List String)
    (h : (c.get? n).getD [] = live) : Widens c (c.insert n (live ++ more)) := by
  intro m columns hm
  rw [Keyed.get?_insert]
  by_cases hmn : m = n
  · subst hmn
    rw [hm, Option.getD_some] at h
    subst h
    exact ⟨more, if_pos rfl⟩
  · exact ⟨[], by rw [if_neg hmn, hm, List.append_nil]⟩

theorem upToDate_iff : c.UpToDate t ↔ ∃ live, c.get? t.name = some live ∧
    ∀ n ∈ t.columnNames, ∃ m ∈ live, Text.lower m = Text.lower n := by
  constructor
  · rintro ⟨hlive, hmissing⟩
    obtain ⟨live, hlive⟩ := contains_iff.mp hlive
    refine ⟨live, hlive, ?_⟩
    intro n hn
    obtain ⟨m, hm, hlower⟩ := mem_columnsAfter (c := c) hn
    rw [columnsAfter, hmissing, hlive] at hm
    exact ⟨m, by simpa using hm, hlower⟩
  · rintro ⟨live, hlive, hall⟩
    refine ⟨contains_iff.mpr ⟨live, hlive⟩, ?_⟩
    simp only [missing, hlive, missingColumns, List.filter_eq_nil_iff]
    intro e he
    obtain ⟨m, hm, hlower⟩ := hall e.1 (List.mem_map_of_mem he)
    simpa using ⟨m, hm, hlower⟩

theorem UpToDate.widens (hc : c.UpToDate t) (h : Widens c c') : c'.UpToDate t := by
  obtain ⟨live, hlive, hall⟩ := upToDate_iff.mp hc
  obtain ⟨more, hmore⟩ := h _ live hlive
  refine upToDate_iff.mpr ⟨_, hmore, ?_⟩
  intro n hn
  obtain ⟨m, hm, hlower⟩ := hall n hn
  exact ⟨m, List.mem_append_left more hm, hlower⟩

theorem shadows_iff (hd : c.Distinct) : c.shadows t = true ↔
    ∃ n ∈ c.keys, Text.lowerAscii n = Text.lowerAscii t.name ∧ n ≠ t.name := by
  unfold shadows
  rw [Option.any_eq_true]
  constructor
  · rintro ⟨n, hn, hne⟩
    obtain ⟨hmem, hfold⟩ := hd.resolve?_eq_some_iff.mp hn
    exact ⟨n, hmem, hfold, of_decide_eq_true hne⟩
  · rintro ⟨n, hmem, hfold, hne⟩
    exact ⟨n, hd.resolve?_eq_some_iff.mpr ⟨hmem, hfold⟩, decide_eq_true hne⟩

/-- A name that stands for another table can never become the name of one. -/
theorem get?_of_shadows (hd : c.Distinct) (hs : c.shadows t = true) : c.get? t.name = none := by
  obtain ⟨n, hmem, hfold, hne⟩ := (shadows_iff hd).mp hs
  cases hlive : c.get? t.name with
  | none => rfl
  | some live =>
    have hself : t.name ∈ c.keys := Keyed.mem_keys_iff.mpr ⟨live, hlive⟩
    exact absurd (List.inj_on_of_nodup_map hd hmem hself hfold) hne

/-- What an attempt that succeeds leaves, and every later one keeps. -/
structure Served (c : Catalog) (t : Table) : Prop where
  live : c.UpToDate t ∨ c.shadows t = true
  references : c.shadows t = true → ∀ d ∈ t.dependencies, d = t.name ∨ c.contains d = true

theorem UpToDate.not_shadows (hd : c.Distinct) (hc : c.UpToDate t) : c.shadows t = false := by
  obtain ⟨live, hlive, -⟩ := upToDate_iff.mp hc
  cases hs : c.shadows t with
  | false => rfl
  | true =>
    rw [get?_of_shadows hd hs] at hlive
    cases hlive

theorem shadows_widens (hd : c.Distinct) (hd' : c'.Distinct) (h : Widens c c')
    (hs : c.shadows t = true) : c'.shadows t = true := by
  obtain ⟨n, hmem, hfold, hne⟩ := (shadows_iff hd).mp hs
  exact (shadows_iff hd').mpr ⟨n, h.mem_keys hmem, hfold, hne⟩

theorem Served.widens (hc : c.Served t) (hd : c.Distinct) (hd' : c'.Distinct) (h : Widens c c') :
    c'.Served t := by
  rcases hc.live with hlive | hs
  · have hlive' := hlive.widens h
    refine ⟨.inl hlive', ?_⟩
    intro hs
    rw [hlive'.not_shadows hd'] at hs
    cases hs
  · refine ⟨.inr (shadows_widens hd hd' h hs), ?_⟩
    intro _ d hmem
    exact (hc.references hs d hmem).imp_right h.contains

/-- What every attempt keeps. -/
structure Evolves (c c' : Catalog) (names : List String) : Prop where
  distinct : c'.Distinct
  widens : Widens c c'
  keys : ∀ n ∈ c'.keys, n ∈ c.keys ∨ n ∈ names

theorem Evolves.refl (hd : c.Distinct) (names : List String) : Evolves c c names where
  distinct := hd
  widens := .refl c
  keys _ hn := .inl hn

theorem Turn.evolves (h : c.Turn t r c') (hd : c.Distinct) : Evolves c c' [t.name] := by
  have hkeys (columns : List String) : ∀ n ∈ (c.insert t.name columns).keys,
      n ∈ c.keys ∨ n ∈ [t.name] := by
    intro n hn
    exact (Keyed.mem_keys_insert hn).symm.imp_right List.mem_singleton.mpr
  cases h with
  | created hfree =>
    have hnone : c.get? t.name = none := by
      rw [← Option.not_isSome_iff_eq_none, Option.isSome_iff_exists]
      rintro ⟨live, hlive⟩
      rw [hd.resolve?_self hlive] at hfree
      cases hfree
    have hwidens : Widens c (c.insert t.name ([] ++ t.columnNames)) :=
      widens_insert t.columnNames (by simp [hnone])
    exact ⟨hd.insert_of_free hfree _, hwidens, hkeys _⟩
  | ignored => exact .refl hd _
  | updated hlive =>
    exact ⟨hd.insert_of_live hlive _, widens_insert _ rfl, hkeys _⟩
  | stopped hlive =>
    exact ⟨hd.insert_of_live hlive _, widens_insert _ (by simp [hlive]), hkeys _⟩
  | refused => exact .refl hd _

theorem Turn.served {done : TableSync} (h : c.Turn t (.ok done) c') (hd : c.Distinct) :
    c'.Served t := by
  have hd' := (h.evolves hd).distinct
  have hlive (hup : c'.UpToDate t) : c'.Served t := by
    refine ⟨.inl hup, ?_⟩
    intro hs
    rw [hup.not_shadows hd'] at hs
    cases hs
  cases h with
  | created hfree =>
    apply hlive
    refine upToDate_iff.mpr ⟨t.columnNames, by rw [Keyed.get?_insert, if_pos rfl], ?_⟩
    intro n hn
    exact ⟨n, hn, rfl⟩
  | @ignored n hfound hn href =>
    refine ⟨.inr ?_, fun _ => href⟩
    obtain ⟨hmem, hfold⟩ := hd.resolve?_eq_some_iff.mp hfound
    refine (shadows_iff hd).mpr ⟨n, hmem, hfold, ?_⟩
    rintro rfl
    obtain ⟨live, hlive'⟩ := Keyed.mem_keys_iff.mp hmem
    rw [contains_iff.mpr ⟨live, hlive'⟩] at hn
    cases hn
  | updated =>
    apply hlive
    exact upToDate_of_columnsAfter (by rw [Keyed.get?_insert, if_pos rfl])

/-- What a run of attempts keeps, and what each of its successes leaves. -/
theorem evolves_of_tries (h : Folds db) (htries : Tries db c attempts c') (hd : c.Distinct) :
    Evolves c c' (attempts.map fun a => a.table.name) ∧
      ∀ a ∈ attempts, a.succeeded = true → c'.Served a.table := by
  induction htries with
  | nil => exact ⟨.refl hd _, by simp⟩
  | @cons c u c' a rest ha _ ih =>
    obtain ⟨r, u', hends, hturn⟩ := syncTable_turn h hd a.table
    obtain ⟨rfl, rfl⟩ := hends.unique (ends_of_recorded ha)
    have hfirst := hturn.evolves hd
    obtain ⟨hrest, hserved⟩ := ih hfirst.distinct
    refine ⟨⟨hrest.distinct, hfirst.widens.trans hrest.widens, ?_⟩, ?_⟩
    · intro n hn
      rw [List.map_cons, List.mem_cons]
      rcases hrest.keys n hn with hn | hn
      · rcases hfirst.keys n hn with hn | hn
        · exact .inl hn
        · exact .inr (.inl (List.mem_singleton.mp hn))
      · exact .inr (.inr hn)
    · intro b hb hs
      rcases List.mem_cons.mp hb with rfl | hb
      · cases hresult : b.result with
        | error e => simp [Attempt.succeeded, hresult] at hs
        | ok done =>
          rw [hresult] at hturn
          exact (hturn.served hd).widens hfirst.distinct hrest.distinct hrest.widens
      · exact hserved b hb hs

end Catalog

namespace Migration

variable {σ : Type} {db : Adapter σ} {s u : σ}

/-- A success tries registered tables only, brings each of them about, and reports what its attempts
created. -/
theorem exists_tries {registered : List Table} {report : SyncReport}
    (h : (sync db (.ofList registered)).Ends s (.ok report) u) :
    ∃ attempts, Tries db s attempts u ∧ report.created = attempts.flatMap Attempt.created ∧
      (∀ a ∈ attempts, a.table ∈ (Schema.ofList registered).toList) ∧
      ∀ t ∈ (Schema.ofList registered).toList, ∃ a ∈ attempts, a.succeeded = true ∧ a.table = t := by
  let tables := (Schema.ofList registered).toList
  have hnodup : tables.Nodup := List.Nodup.of_map Table.name (Schema.nodup_names registered)
  have hbudget := Nat.le_mul_of_pos_left tables.length Nat.two_pos
  obtain ⟨passes, htries, hcourse, hends⟩ := sync_course h
  obtain ⟨report', hextends, hends'⟩ := hcourse.syncPasses_extends htries hbudget .empty
  obtain ⟨hreport, -⟩ := (hends []).unique (hends' [])
  obtain rfl := Except.ok.inj hreport
  refine ⟨passes.flatten, htries, hextends.created, hcourse.tables_subset, ?_⟩
  obtain ⟨way, hway⟩ := hcourse.ends hnodup
  obtain rfl := hway.ok_iff.mp ⟨_, rfl⟩
  intro t ht
  obtain ⟨a, ha, hat⟩ := List.mem_map.mp (hway.2.mem_iff.mpr ht)
  obtain ⟨hmem, hs⟩ := List.mem_filter.mp ha
  exact ⟨a, hmem, hs, hat⟩

end Migration

namespace Catalog

open Migration

variable {db : Adapter Catalog} {c c₀ c₁ : Catalog} {t : Table} {pending tables : List Table}

/-- A table in another spelling is ignored again, and any other is up to date. -/
theorem syncTable_served (h : Folds db) (hd : c.Distinct) (hc : c.Served t) :
    (syncTable db t).Ends c (.ok (if c.shadows t then .created else .unchanged)) c := by
  rcases hc.live with hlive | hs
  · rw [hlive.not_shadows hd, if_neg Bool.false_ne_true]
    obtain ⟨live, hget⟩ := contains_iff.mp hlive.live
    have hnone : missingColumns t (live.map Text.lower) = [] := by
      simpa only [missing, hget] using hlive.complete
    have halter : (alterTable db t).Ends c (.ok .unchanged) c := by
      unfold alterTable
      simp only [Action.ends_log_bind]
      refine (liveColumns_ends h.toAnswers hget).bind ?_
      rw [hnone]
      have hready : (requireAll db t.name []).Ends c (.ok ()) c := requireAll_ready h.toAnswers nofun
      have hadd : (addColumns db t []).Ends c (.ok ()) c := Action.ends_pure.mpr ⟨rfl, rfl⟩
      exact hready.bind (hadd.bind (Action.ends_pure.mpr ⟨rfl, rfl⟩))
    exact syncTable_ends h.toAnswers (by simpa [hlive.live] using halter)
  · rw [hs, if_pos rfl]
    have hn : c.contains t.name = false := by simp [Keyed.contains, get?_of_shadows hd hs]
    have hfound : c.resolve? t.name ≠ none := by
      intro hnone
      simp [shadows, hnone] at hs
    obtain ⟨count, hexec⟩ := h.silent hfound
    have hcreate : (createTable db t).Ends c (.ok .created) c := by
      refine (requireAll_ready h.toAnswers (hc.references hs)).bind ?_
      simp only [Action.ends_log_bind]
      exact hexec.bind (by simp)
    exact syncTable_ends h.toAnswers (by simpa [hn] using hcreate)

theorem syncPass_served (h : Folds db) (hd : c.Distinct) (hc : ∀ t ∈ pending, c.Served t)
    (report : SyncReport) : (syncPass db pending report).Ends c
      (.ok ([], { report with
        created := report.created ++ (pending.filter c.shadows).map Table.name })) c := by
  induction pending generalizing report with
  | nil => simp [syncPass]
  | cons t rest ih =>
    obtain ⟨ht, hrest⟩ := List.forall_mem_cons.mp hc
    have hfirst := syncTable_served h hd ht
    refine syncPass_synced hfirst ?_
    have htail := ih hrest (report.add t.name (if c.shadows t then .created else .unchanged))
    cases hs : c.shadows t with
    | false => simpa [hs, SyncReport.add, List.filter_cons] using htail
    | true => simpa [hs, SyncReport.add, List.filter_cons] using htail

/-- Over tables that are all served, a run changes nothing and reports those in another spelling. -/
theorem sync_served (h : Folds db) (hd : c.Distinct) {schema : Schema}
    (hc : ∀ t ∈ schema.toList, c.Served t) :
    ∃ again, (sync db schema).Ends c (.ok again) c ∧ again.altered = [] ∧
      again.created = (schema.toList.filter c.shadows).map Table.name := by
  cases hlist : schema.toList with
  | nil =>
    refine ⟨.empty, sync_of_syncPasses ?_, rfl, rfl⟩
    rw [hlist, syncPasses_nil]
    exact Action.ends_pure.mpr ⟨rfl, rfl⟩
  | cons t rest =>
    rw [hlist] at hc
    have hpass := syncPass_served h hd hc { SyncReport.empty with passes := 1 }
    have hsome : ([] : List Table).length ≠ (t :: rest).length := by simp
    refine ⟨⟨1, _, []⟩, sync_of_syncPasses ?_, rfl, rfl⟩
    rw [hlist]
    refine syncPasses_again hpass hsome ?_
    rw [syncPasses_nil]
    exact Action.ends_pure.mpr ⟨rfl, rfl⟩

/-- Names that stand for the same table are spelled alike: those of the tables that are there, and
those that are registered. -/
def SpelledAlike (c : Catalog) (tables : List Table) : Prop :=
  ∀ t ∈ tables, ∀ n ∈ c.keys ++ tables.map Table.name,
    Text.sameAsciiLetters n t.name = true → n = t.name

theorem shadows_eq_false_iff {attempts : List Attempt}
    (hevolves : Evolves c₀ c₁ (attempts.map fun a => a.table.name))
    (htable : ∀ a ∈ attempts, a.table ∈ tables) (hserved : ∀ t ∈ tables, c₁.Served t) :
    (∀ t ∈ tables, c₁.shadows t = false) ↔ SpelledAlike c₀ tables := by
  constructor
  · intro hnone t ht n hn hsame
    have hlive {t : Table} (ht : t ∈ tables) : t.name ∈ c₁.keys := by
      rcases (hserved t ht).live with hlive | hs
      · obtain ⟨live, hget⟩ := contains_iff.mp hlive.live
        exact Keyed.mem_keys_iff.mpr ⟨live, hget⟩
      · rw [hnone t ht] at hs
        cases hs
    have hmem : n ∈ c₁.keys := by
      rcases List.mem_append.mp hn with hn | hn
      · exact hevolves.widens.mem_keys hn
      · obtain ⟨t', ht', rfl⟩ := List.mem_map.mp hn
        exact hlive ht'
    exact List.inj_on_of_nodup_map hevolves.distinct hmem (hlive ht) (beq_iff_eq.mp hsame)
  · intro halike t ht
    cases hs : c₁.shadows t with
    | false => rfl
    | true =>
      obtain ⟨n, hmem, hfold, hne⟩ := (shadows_iff hevolves.distinct).mp hs
      have hknown : n ∈ c₀.keys ++ tables.map Table.name := by
        rcases hevolves.keys n hmem with hn | hn
        · exact List.mem_append_left _ hn
        · obtain ⟨a, ha, rfl⟩ := List.mem_map.mp hn
          exact List.mem_append_right _ (List.mem_map_of_mem (htable a ha))
      exact absurd (halike t ht n hknown (beq_iff_eq.mpr hfold)) hne

/-- Whenever a table is reported as created, either its name stood for no table at that moment, and it
is there with all its columns; or it stood for one already, nothing was created, and there is no table
of that spelling. Synchronising again changes nothing and reports the tables of the second kind, of
which there are none just if names that stand for the same table are spelled alike. -/
theorem sync_created (h : Folds db) {registered : List Table} {report : SyncReport}
    (hd : c₀.Distinct) (hsync : (sync db (.ofList registered)).Ends c₀ (.ok report) c₁) :
    let tables := (Schema.ofList registered).toList
    (∃ attempts, Tries db c₀ attempts c₁ ∧ report.created = attempts.flatMap Attempt.created ∧
      ∀ before a after, attempts = before ++ a :: after → a.result = .ok .created →
        ∃ u v, Tries db c₀ before u ∧ (syncTable db a.table).Ends u (.ok .created) v ∧
          Tries db v after c₁ ∧
          ((u.resolve? a.table.name = none ∧
              ∃ live, c₁.get? a.table.name = some live ∧ a.table.columnNames ⊆ live) ∨
            (u.resolve? a.table.name ≠ none ∧ v = u ∧ c₁.get? a.table.name = none ∧
              ¬ SpelledAlike c₀ tables))) ∧
    ∃ again, (sync db (.ofList registered)).Ends c₁ (.ok again) c₁ ∧ again.altered = [] ∧
      again.created = (tables.filter c₁.shadows).map Table.name ∧
      (again.isNoop = true ↔ SpelledAlike c₀ tables) := by
  intro tables
  obtain ⟨attempts, htries, hcreated, htable, hdone⟩ := exists_tries hsync
  obtain ⟨hevolves, hsuccess⟩ := evolves_of_tries h htries hd
  have hserved : ∀ t ∈ tables, c₁.Served t := by
    intro t ht
    obtain ⟨a, ha, hs, rfl⟩ := hdone t ht
    exact hsuccess a ha hs
  have halike : (∀ t ∈ tables, c₁.shadows t = false) ↔ SpelledAlike c₀ tables :=
    shadows_eq_false_iff hevolves htable hserved
  refine ⟨⟨attempts, htries, hcreated, ?_⟩, ?_⟩
  · rintro before a after rfl hresult
    obtain ⟨u, hbefore, hfrom⟩ := htries.split
    cases hfrom with
    | @cons _ v _ _ _ ha hafter =>
      have hends : (syncTable db a.table).Ends u (.ok .created) v := hresult ▸ ends_of_recorded ha
      have hdu := (evolves_of_tries h hbefore hd).1.distinct
      obtain ⟨r, v', hends', hturn⟩ := syncTable_turn h hdu a.table
      obtain ⟨rfl, rfl⟩ := hends.unique hends'
      have hdv := (hturn.evolves hdu).distinct
      have hlater := (evolves_of_tries h hafter hdv).1
      have hserves := hturn.served hdu
      refine ⟨u, v, hbefore, hends, hafter, ?_⟩
      cases hturn with
      | created hfree =>
        left
        obtain ⟨more, hmore⟩ := hlater.widens a.table.name a.table.columnNames (by
          rw [Keyed.get?_insert, if_pos rfl])
        exact ⟨hfree, _, hmore, List.subset_append_left _ _⟩
      | ignored hfound hn =>
        right
        have hshadow : u.shadows a.table = true := by
          rcases hserves.live with hlive | hs
          · rw [hlive.live] at hn
            cases hn
          · exact hs
        have hlast := shadows_widens hdu hevolves.distinct hlater.widens hshadow
        refine ⟨by simp [hfound], rfl, get?_of_shadows hevolves.distinct hlast, ?_⟩
        intro hspelled
        rw [halike.mpr hspelled a.table (htable a (by simp))] at hlast
        cases hlast
      | updated _ hkind =>
        split at hkind <;> cases hkind
  · obtain ⟨again, hends, haltered, hagain⟩ := sync_served h hevolves.distinct hserved
    refine ⟨again, hends, haltered, hagain, ?_⟩
    rw [← halike, SyncReport.isNoop, haltered, hagain]
    simp [tables]

/-- Runs a statement that defines a table, found whatever the case of letters. -/
def foldDefine (sql : String) : Action Catalog Nat :=
  match Ddl.ofSql? sql with
  | none => Action.fail (.unsupported sql)
  | some ddl => fun c =>
    match ddl.fold? c with
    | some c' => ⟨.ok 0, c', []⟩
    | none => ⟨.error (.undefinedTable "no such table"), c, []⟩

/-- A database that finds tables whatever the case of letters, and accepts references to missing
ones. -/
def folding (d : Dialect) : Adapter Catalog :=
  { strict d with
    execute := foldDefine
    executeWith := fun sql _ => foldDefine sql }

theorem folding_folds (d : Dialect) : Folds (folding d) where
  tables := (strict_keeps d).tables
  columns := (strict_keeps d).columns
  silent {c t} hfound := by
    refine ⟨0, ?_⟩
    have hfold : (Ddl.create t.name t.columnNames (t.references.map Prod.snd)).fold? c = some c := by
      simp [Ddl.fold?, Option.isSome_iff_ne_none.mpr hfound]
    change (foldDefine (t.createSql d)).Ends c (.ok 0) c
    simp only [foldDefine, t.ofSql?_createSql d, Action.Ends, hfold, and_self]
  execute {c sql ddl} h := by
    cases hfold : ddl.fold? c with
    | some c' =>
      left
      refine ⟨0, c', rfl, ?_⟩
      simp only [folding, foldDefine, h.read, Action.Ends, hfold, and_self]
    | none =>
      right
      refine ⟨.undefinedTable "no such table", ?_⟩
      simp only [folding, foldDefine, h.read, Action.Ends, hfold, and_self]

/-- A table `users` without a second column is there as `Users`. -/
def capitalized : Catalog := .ofList [("Users", ["id"])]

def users : Table :=
  ((Table.ofName "users").column "id" (Column.ofType .integer)).column "name" (Column.ofType .text)

def notes : Table := (Table.ofName "notes").column "id" (Column.ofType .integer)

/-- Beside `users`, which is there as `Users`, another table is created: the second run reports only
the first. -/
theorem sync_created_beside :
    ∃ c₁ again, (sync (folding .sqlite) (.ofList [users, notes])).Ends capitalized
        (.ok ⟨1, ["users", "notes"], []⟩) c₁ ∧ capitalized.Distinct ∧
      (sync (folding .sqlite) (.ofList [users, notes])).Ends c₁ (.ok again) c₁ ∧
      again.created = ["users"] ∧ again.isNoop = false := by
  let run := sync (folding .sqlite) (.ofList [users, notes]) capitalized
  have hrun : run.answer.toOption = some ⟨1, ["users", "notes"], []⟩ := by decide +kernel
  have hshadows : ((Schema.ofList [users, notes]).toList.filter run.state.shadows).map Table.name =
      ["users"] := by decide +kernel
  have hdistinct : capitalized.Distinct := by
    unfold Distinct
    decide
  cases hanswer : run.answer with
  | error e =>
    rw [hanswer] at hrun
    cases hrun
  | ok report =>
    rw [hanswer] at hrun
    obtain rfl := Option.some.inj hrun
    obtain ⟨-, again, hends, haltered, hagain, -⟩ :=
      sync_created (folding_folds .sqlite) hdistinct ⟨hanswer, rfl⟩
    have hcreated := hagain.trans hshadows
    refine ⟨run.state, again, ⟨hanswer, rfl⟩, hdistinct, hends, hcreated, ?_⟩
    simp [SyncReport.isNoop, hcreated]

/-- A table that is there in another spelling is reported as created, lacks its second column
afterwards, and is reported once more by the second run. -/
theorem users_created_twice :
    let run := sync (folding .sqlite) (.ofList [users])
    Folds (folding .sqlite) ∧ capitalized.Distinct ∧
      capitalized.resolve? users.name = some "Users" ∧
      ∃ report again, run.Ends capitalized (.ok report) capitalized ∧
        run.Ends capitalized (.ok again) capitalized ∧ report.created = ["users"] ∧
        again.isNoop = false ∧ ∀ n live, capitalized.get? n = some live → "name" ∉ live := by
  intro run
  have hrun : (run capitalized).answer.toOption = some ⟨1, ["users"], []⟩ := by decide +kernel
  have hstate : (run capitalized).state = capitalized := by decide +kernel
  have hdistinct : capitalized.Distinct := by
    unfold Distinct
    decide
  refine ⟨folding_folds .sqlite, hdistinct, by decide, ?_⟩
  cases hanswer : (run capitalized).answer with
  | error e =>
    rw [hanswer] at hrun
    cases hrun
  | ok report =>
    rw [hanswer] at hrun
    obtain rfl := Option.some.inj hrun
    refine ⟨_, _, ⟨hanswer, hstate⟩, ⟨hanswer, hstate⟩, rfl, rfl, ?_⟩
    intro n live hlive
    have hmem : (n, live) ∈ capitalized.entries := Keyed.mem_of_get? hlive
    obtain ⟨-, rfl⟩ := Prod.mk.inj (List.mem_singleton.mp hmem)
    decide

end Catalog
end Relata
