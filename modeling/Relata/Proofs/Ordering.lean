import Mathlib.Data.List.Sort
import Mathlib.Data.Set.Card
import Mathlib.Logic.Relation
import Relata.Proofs.Fitting
import Relata.Proofs.Stuck

/-!
The order of registration, where references run in no circle and name declared columns. Main
statement: against a database that checks the columns referred to, every order brings the tables
about just if none of the missing columns refers to a column that a live table lacks. The orders that
do so all end with the same catalog; any other is ended by a statement that the database refuses.
-/
namespace Relata.Catalog

open Migration

variable {db : Adapter Catalog} {c₀ c : Catalog} {tables order pending rest : List Table}
  {t u : Table} {n m : String}

/-- A registered table of the first name refers to the second, which is another. -/
def Refers (tables : List Table) (n m : String) : Prop :=
  ∃ t ∈ tables, t.name = n ∧ m ∈ t.dependencies ∧ m ≠ n

/-- References run in no circle, but from a table to itself, and name declared columns of registered
tables. -/
structure WellReferred (tables : List Table) : Prop where
  acyclic : ∀ n, ¬ Relation.TransGen (Refers tables) n n
  declared : ∀ t ∈ tables, ∀ e ∈ t.columns.entries, ∀ r ∈ e.2.reference,
    ∃ u ∈ tables, u.name = r.table ∧ r.column ∈ u.columnNames

theorem mem_dependencies {d : String} :
    d ∈ t.dependencies ↔ ∃ e ∈ t.columns.entries, ∃ r ∈ e.2.reference, r.table = d := by
  simp only [dependencies_eq, List.mem_filterMap, Option.map_eq_some_iff, Option.mem_def]

theorem mem_entries_of_missing {e : String × Column} (h : e ∈ c.missing t) : e ∈ t.columns.entries := by
  unfold missing at h
  split at h
  · exact List.mem_of_mem_filter h
  · exact h

theorem mem_dependencies_of_needs {d : String} (h : d ∈ c.needs t) :
    d ∈ t.dependencies ∧ d ≠ t.name := by
  obtain ⟨hmem, hne⟩ := mem_needs.mp h
  obtain ⟨e, he, hmap⟩ := List.mem_filterMap.mp hmem
  obtain ⟨r, hr, rfl⟩ := Option.map_eq_some_iff.mp hmap
  exact ⟨mem_dependencies.mpr ⟨e, mem_entries_of_missing he, r, hr, rfl⟩, hne⟩

/-- A table is not short if all that it refers to is there. -/
theorem not_short_of_there (h : ∀ e ∈ t.columns.entries, ∀ r ∈ e.2.reference,
    r.column ∈ (c.get? r.table).getD []) : ¬ c.Short t := by
  rintro ⟨target, before, e, after, heq, r, hr, rfl, live, hlive, hnot, -⟩
  have he : e ∈ t.columns.entries := mem_entries_of_missing (c := c) (by simp [heq])
  have hthere := h e he r hr
  rw [hlive] at hthere
  exact hnot hthere

theorem WellReferred.registered (h : WellReferred tables) (ht : t ∈ tables) {d : String}
    (hd : d ∈ t.dependencies) : ∃ u ∈ tables, u.name = d := by
  obtain ⟨e, he, r, hr, rfl⟩ := mem_dependencies.mp hd
  obtain ⟨u, hu, hname, -⟩ := h.declared t ht e he r hr
  exact ⟨u, hu, hname⟩

theorem WellReferred.perm (h : WellReferred tables) (hperm : order.Perm tables) :
    WellReferred order := by
  have hrefers : Refers order = Refers tables := by
    funext n m
    simp only [Refers, hperm.mem_iff]
  constructor
  · rw [hrefers]
    exact h.acyclic
  · simpa only [hperm.mem_iff] using h.declared

section Rank

/-- The tables that the named one refers to, directly or through others. -/
def below (tables : List Table) (n : String) : Set String := {m | Relation.TransGen (Refers tables) n m}

noncomputable def rank (tables : List Table) (n : String) : Nat := (below tables n).ncard

theorem below_finite (tables : List Table) (n : String) : (below tables n).Finite := by
  refine (List.finite_toSet (tables.flatMap Table.dependencies)).subset fun m hm => ?_
  obtain ⟨k, -, t, ht, -, hd, -⟩ := Relation.TransGen.tail'_iff.mp hm
  exact List.mem_flatMap.mpr ⟨t, ht, hd⟩

/-- A table ranks above all that it refers to. -/
theorem WellReferred.rank_lt (h : WellReferred tables) (hr : Refers tables n m) :
    rank tables m < rank tables n := by
  have hsub : below tables m ⊆ below tables n := fun k hk => Relation.TransGen.head hr hk
  have hnew : m ∈ below tables n := Relation.TransGen.single hr
  have hold : m ∉ below tables m := h.acyclic m
  refine Set.ncard_lt_ncard ?_ (below_finite tables n)
  exact ⟨hsub, fun hback => hold (hback hnew)⟩

/-- Where references run in no circle nothing is stuck. -/
theorem WellReferred.stuck_eq_empty (h : WellReferred tables) (c : Catalog) :
    stuck c tables = ∅ := by
  -- by induction on the rank: what a table waits for is stuck as well, and ranks below it
  have hnone (k : Nat) : ∀ n, rank tables n = k → n ∉ stuck c tables := by
    induction k using Nat.strong_induction_on with
    | h k ih =>
      rintro n rfl hn
      obtain ⟨t, ht, rfl, d, hd, -, hin⟩ := stuck_selfBlocked c tables n hn
      obtain ⟨hdep, hne⟩ := mem_dependencies_of_needs hd
      obtain ⟨u, hu, rfl⟩ := h.registered ht hdep
      have hlt := h.rank_lt ⟨t, ht, rfl, hdep, hne⟩
      exact ih _ hlt u.name rfl (hin (List.mem_map_of_mem hu))
  exact Set.eq_empty_of_forall_notMem fun n => hnone _ n rfl

end Rank

section Short

/-- What a table lacks when its turn comes it lacked in the beginning. -/
theorem Reached.short_start (h : Reached c₀ tables pending c) (hnodup : (tables.map Table.name).Nodup)
    (hwell : WellReferred tables) (ht : t ∈ pending) (hshort : c.Short t) : c₀.Short t := by
  obtain ⟨target, before, e, after, heq, r, hr, rfl, live, hlive, hnot, hown⟩ := hshort
  rw [h.missing_eq hnodup ht] at heq
  have he : e ∈ t.columns.entries := mem_entries_of_missing (c := c₀) (by simp [heq])
  obtain ⟨u, hu, hname, hcolumn⟩ := hwell.declared t (h.sublist.subset ht) e he r hr
  have hlack (columns : List String) (hthere : c₀.get? u.name = some columns)
      (hn : r.column ∉ columns) : c₀.Short t :=
    ⟨r.table, before, e, after, heq, r, hr, rfl, columns, hname ▸ hthere, hn, hown⟩
  rw [← hname] at hlive
  by_cases hpending : u ∈ pending
  · exact hlack live (h.get?_pending hnodup hpending ▸ hlive) hnot
  · obtain rfl := Option.some.inj (hlive.symm.trans (h.done u hu hpending))
    cases hthere : c₀.get? u.name with
    | none =>
      -- such a table was created with all its columns
      have hall : c₀.columnsAfter u = u.columnNames := by
        simp [columnsAfter, missing, hthere, Table.columnNames, Keyed.keys]
      exact absurd (hall ▸ hcolumn) hnot
    | some columns =>
      apply hlack columns hthere
      intro hmem
      apply hnot
      rw [columnsAfter, hthere]
      exact List.mem_append_left _ hmem

/-- What a table lacked in the beginning it lacks as long as the table referred to is pending. -/
theorem Reached.short_of_pending (h : Reached c₀ tables pending c)
    (hnodup : (tables.map Table.name).Nodup) (ht : t ∈ pending) (hu : u ∈ pending)
    (hlacks : c₀.LacksIn t u.name) : c.Short t := by
  obtain ⟨before, e, after, heq, r, hr, htarget, live, hlive, hnot⟩ := hlacks
  rw [← h.missing_eq hnodup ht] at heq
  rw [← h.get?_pending hnodup hu] at hlive
  exact ⟨u.name, before, e, after, heq, r, hr, htarget, live, hlive, hnot⟩

theorem Reached.ready (h : Reached c₀ tables pending c) (hnodup : (tables.map Table.name).Nodup)
    (hwell : WellReferred tables) (ht : t ∈ pending)
    (hlive : ∀ d ∈ c.needs t, c.contains d = true) : c.Ready t := by
  have hmem := h.sublist.subset ht
  refine ⟨hlive, ?_⟩
  intro e he r hr hself
  obtain ⟨u, hu, hname, hcolumn⟩ := hwell.declared t hmem e he r hr
  rwa [eq_of_name hnodup hu hmem (hname.trans hself)] at hcolumn

theorem excuses_short (hnodup : (tables.map Table.name).Nodup) (hwell : WellReferred tables)
    (c₀ : Catalog) : Excuses Ddl.fits c₀ tables (∃ t ∈ tables, c₀.Short t) := by
  intro pending c t hr ht hlive hunfit
  have hshort := (hr.ready hnodup hwell ht hlive).unfit_iff.mp hunfit
  exact ⟨t, hr.sublist.subset ht, hr.short_start hnodup hwell ht hshort⟩

end Short

section Turn

/-- When a table has its turn, those it refers to are there or have had theirs. -/
def InTurn (c : Catalog) (order : List Table) : Prop :=
  ∀ before t after, order = before ++ t :: after → ∀ d ∈ t.dependencies, d ≠ t.name →
    c.contains d = true ∨ d ∈ before.map Table.name

/-- Among tables sorted by rank those of lower rank come first. -/
theorem mem_before {sorted before after : List Table}
    (hsorted : sorted.Pairwise fun a b => rank tables a.name ≤ rank tables b.name)
    (heq : sorted = before ++ t :: after) (hu : u ∈ sorted)
    (hlt : rank tables u.name < rank tables t.name) : u ∈ before := by
  rw [heq] at hsorted hu
  obtain ⟨-, hbehind, -⟩ := List.pairwise_append.mp hsorted
  obtain ⟨hafter, -⟩ := List.pairwise_cons.mp hbehind
  rcases List.mem_append.mp hu with hu | hu
  · exact hu
  · rcases List.mem_cons.mp hu with rfl | hu
    · exact absurd hlt (Nat.lt_irrefl _)
    · exact absurd hlt (Nat.not_lt.mpr (hafter u hu))

/-- The tables by rank, but a live one last, are in turn. -/
theorem WellReferred.exists_inTurn (h : WellReferred tables) (hu : u ∈ tables)
    (hlive : c.contains u.name = true) :
    ∃ front, (front ++ [u]).Perm tables ∧ InTurn c (front ++ [u]) := by
  let le (a b : Table) : Prop := rank tables a.name ≤ rank tables b.name
  have : DecidableRel le := fun a b => Nat.decLe _ _
  have : Std.Total le := ⟨fun a b => Nat.le_total _ _⟩
  have : IsTrans Table le := ⟨fun _ _ _ => Nat.le_trans⟩
  let front := (tables.erase u).insertionSort le
  have hsorted : front.Pairwise le := List.pairwise_insertionSort le _
  have hfront : front.Perm (tables.erase u) := List.perm_insertionSort le _
  have hperm : (front ++ [u]).Perm tables :=
    List.perm_append_comm.trans ((hfront.cons u).trans (List.perm_cons_erase hu).symm)
  refine ⟨front, hperm, ?_⟩
  intro before t after heq d hd hne
  have ht : t ∈ tables := hperm.mem_iff.mp (heq ▸ by simp)
  obtain ⟨v, hv, rfl⟩ := h.registered ht hd
  have hlt := h.rank_lt ⟨t, ht, rfl, hd, hne⟩
  rcases List.mem_append.mp (hperm.mem_iff.mpr hv) with hv | hv
  · right
    apply List.mem_map_of_mem
    rcases List.append_eq_append_iff.mp heq with ⟨later, hbefore, -⟩ | ⟨later, hsplit, hlast⟩
    · exact hbefore ▸ List.mem_append_left later hv
    · cases later with
      | nil => simpa [hsplit] using hv
      | cons t' later =>
        obtain ⟨rfl, -⟩ := List.cons.inj hlast
        exact mem_before hsorted hsplit hv hlt
  · left
    rwa [List.mem_singleton.mp hv]

theorem InTurn.ready {sofar : List Table} (h : InTurn c₀ (sofar ++ t :: rest))
    (hr : Reached c₀ (sofar ++ t :: rest) (t :: rest) c)
    (hnodup : ((sofar ++ t :: rest).map Table.name).Nodup) :
    ∀ d ∈ c.needs t, c.contains d = true := by
  intro d hd
  obtain ⟨hdep, hne⟩ := mem_dependencies_of_needs hd
  rcases h sofar t rest rfl d hdep hne with hlive | hbefore
  · exact hr.contains_mono hlive
  · obtain ⟨v, hv, rfl⟩ := List.mem_map.mp hbefore
    have hdisjoint := (List.nodup_append.mp hnodup.of_map).2.2
    have hgone : v ∉ t :: rest := fun hmem => hdisjoint v hv v hmem rfl
    exact contains_iff.mpr ⟨_, hr.done v (List.mem_append_left _ hv) hgone⟩

/-- A pass over tables in turn is refused if one of them lacks what the last one is yet to get. -/
theorem syncPass_refused (h : Meets db Ddl.fits) (hwell : WellReferred tables)
    (hnodup : (tables.map Table.name).Nodup) (hturn : InTurn c₀ tables) (hu : tables.getLast? = some u)
    (hlacks : c₀.LacksIn t u.name) (sofar : List Table) (heq : tables = sofar ++ rest)
    (hr : Reached c₀ tables rest c) (ht : t ∈ rest) (report : SyncReport) :
    Refused db (syncPass db rest report) c := by
  -- as the tables are in turn, none is postponed: each is brought about, unless it is refused
  induction rest generalizing sofar c report with
  | nil => cases ht
  | cons first rest ih =>
    have hlast : u ∈ first :: rest := by
      rw [heq, List.getLast?_append_of_ne_nil _ (List.cons_ne_nil first rest)] at hu
      exact List.mem_of_getLast? hu
    have hlive : ∀ d ∈ c.needs first, c.contains d = true := by
      subst heq
      exact hturn.ready hr hnodup
    obtain ⟨done, c', htried, hget⟩ := syncTable_tried h hlive
    cases hfits : fitsAll Ddl.fits c (c.statements first) with
    | false =>
      rw [hfits] at htried
      obtain ⟨e, left, he, hsync⟩ := htried
      exact ⟨e, left, he, syncPass_failed hsync he.1⟩
    | true =>
      rw [hfits] at htried
      have hsync : (syncTable db first).Ends c (.ok done) c' := htried
      have hother : t ≠ first := by
        rintro rfl
        have hshort := hr.short_of_pending hnodup ht hlast hlacks
        rw [(hr.ready hnodup hwell ht hlive).unfit_iff.mpr hshort] at hfits
        cases hfits
      have hr' : Reached c₀ tables rest c' := hr.synced [] hnodup hlive hget
      obtain ⟨e, left, he, hpass⟩ := ih (sofar ++ [first]) (by simp [heq]) hr'
        ((List.mem_cons.mp ht).resolve_left hother) (report.add first.name done)
      exact ⟨e, left, he, syncPass_synced hsync hpass⟩

/-- If a table is short, some order of registration is refused. -/
theorem exists_refused (h : Meets db Ddl.fits) (hwell : WellReferred tables)
    (hnodup : (tables.map Table.name).Nodup) (ht : t ∈ tables) (hshort : c.Short t) :
    ∃ order : List Table, order.Perm tables ∧ Refused db (sync db (.ofList order)) c := by
  obtain ⟨target, hlacks⟩ := hshort
  obtain ⟨before, e, after, heq, r, hr, rfl, live, hlive, -⟩ := id hlacks
  have he : e ∈ t.columns.entries := mem_entries_of_missing (c := c) (by simp [heq])
  obtain ⟨u, hu, hname, -⟩ := hwell.declared t ht e he r hr
  rw [← hname] at hlive hlacks
  obtain ⟨front, hperm, hturn⟩ := hwell.exists_inTurn hu (contains_iff.mpr ⟨live, hlive⟩)
  have hnodup' : ((front ++ [u]).map Table.name).Nodup :=
    (hperm.map Table.name).nodup_iff.mpr hnodup
  have hlast : (front ++ [u]).getLast? = some u := List.getLast?_concat
  refine ⟨front ++ [u], hperm, ?_⟩
  have hpass (report : SyncReport) : Refused db (syncPass db (front ++ [u]) report) c :=
    syncPass_refused h (hwell.perm hperm) hnodup' hturn hlast hlacks [] rfl (.start c _)
      (hperm.mem_iff.mpr ht) report
  obtain ⟨first, rest, hcons⟩ := List.exists_cons_of_ne_nil (List.append_ne_nil_of_right_ne_nil front
    (List.cons_ne_nil u []))
  rw [hcons] at hpass hnodup' ⊢
  obtain ⟨e, left, he, hends⟩ := hpass { SyncReport.empty with passes := 1 }
  refine ⟨e, left, he, sync_of_syncPasses ?_⟩
  rw [Schema.toList_ofList hnodup']
  exact syncPasses_failed hends

end Turn

/-- The tables have all their columns, in one order, and no other table has changed. -/
structure Migrated (c : Catalog) (tables : List Table) (c' : Catalog) : Prop where
  listed : ∀ t ∈ tables, c'.get? t.name = some (c.columnsAfter t)
  others : ∀ n, n ∉ tables.map Table.name → c'.get? n = c.get? n

theorem sync_order_ends (h : Meets db Ddl.fits) (hwell : WellReferred tables)
    (hnodup : (tables.map Table.name).Nodup) (hperm : order.Perm tables) (c : Catalog) :
    ∃ r c', (sync db (.ofList order)).Ends c r c' ∧
      (((∃ report, r = .ok report) ∧ Migrated c tables c') ∨
        ∃ e, r = .error e ∧ Refuses db e ∧ ∃ t ∈ tables, c.Short t) := by
  have hnodup' : (order.map Table.name).Nodup := (hperm.map Table.name).nodup_iff.mpr hnodup
  have hlist := Schema.toList_ofList hnodup'
  have hwell' := hwell.perm hperm
  have hexcuse : Excuses Ddl.fits c (Schema.ofList order).toList (∃ t ∈ order, c.Short t) := by
    rw [hlist]
    exact excuses_short hnodup' hwell' c
  rcases sync_refused_or_settles h (Schema.nodup_names order) hexcuse with
    ⟨⟨t, ht, hshort⟩, e, c', he, hends⟩ | ⟨r, c', hends, pending, hr, hstuck, hanswer⟩
  · exact ⟨_, c', hends, .inr ⟨e, rfl, he, t, hperm.mem_iff.mp ht, hshort⟩⟩
  · rw [hlist] at hr hstuck
    rw [hwell'.stuck_eq_empty c] at hstuck
    obtain rfl : pending = [] := List.eq_nil_iff_forall_not_mem.mpr hstuck
    obtain ⟨-, hok⟩ | ⟨hne, -⟩ := hanswer
    · have hmigrated : Migrated c tables c' := by
        constructor
        · intro t ht
          exact hr.done t (hperm.mem_iff.mpr ht) List.not_mem_nil
        · intro n hn
          apply hr.kept
          rintro t ht rfl
          exact absurd (List.mem_map_of_mem (hperm.mem_iff.mp ht)) hn
      exact ⟨r, c', hends, .inl ⟨hok, hmigrated⟩⟩
    · exact absurd rfl hne

/-- Every order of registration brings the tables about just if none of them is short. The orders that
do so all leave the same tables with the same columns. Any other ends with the error of a statement
that the database refuses, and some table is short. -/
theorem sync_any_order (h : Meets db Ddl.fits) {registered : List Table}
    (hwell : WellReferred (Schema.ofList registered).toList) (c : Catalog) :
    let tables := (Schema.ofList registered).toList
    ((∀ order : List Table, order.Perm tables →
        ∃ report c', (sync db (.ofList order)).Ends c (.ok report) c') ↔
      ∀ t ∈ tables, ¬ c.Short t) ∧
    ∀ order : List Table, order.Perm tables → ∃ r c', (sync db (.ofList order)).Ends c r c' ∧
      (((∃ report, r = .ok report) ∧ Migrated c tables c') ∨
        ∃ e, r = .error e ∧ Refuses db e ∧ ∃ t ∈ tables, c.Short t) := by
  intro tables
  have hnodup : (tables.map Table.name).Nodup := Schema.nodup_names registered
  constructor
  · constructor
    · intro hall t ht hshort
      obtain ⟨order, hperm, e, left, -, hfails⟩ := exists_refused h hwell hnodup ht hshort
      obtain ⟨report, c', hok⟩ := hall order hperm
      obtain ⟨hanswer, -⟩ := hok.unique hfails
      cases hanswer
    · intro hnone order hperm
      obtain ⟨r, c', hends, ⟨⟨report, rfl⟩, -⟩ | ⟨e, -, -, t, ht, hshort⟩⟩ :=
        sync_order_ends h hwell hnodup hperm c
      · exact ⟨report, c', hends⟩
      · exact absurd hshort (hnone t ht)
  · intro order hperm
    exact sync_order_ends h hwell hnodup hperm c

/-- References that lead down by some measure run in no circle. -/
theorem acyclic_of_measure (f : String → Nat)
    (hf : ∀ t ∈ tables, ∀ d ∈ t.dependencies, d ≠ t.name → f d < f t.name) (n : String) :
    ¬ Relation.TransGen (Refers tables) n n := by
  have hstep {n m : String} (h : Refers tables n m) : f m < f n := by
    obtain ⟨t, ht, rfl, hd, hne⟩ := h
    exact hf t ht m hd hne
  have hlt {m : String} (h : Relation.TransGen (Refers tables) n m) : f m < f n := by
    induction h with
    | single h => exact hstep h
    | tail _ h ih => exact (hstep h).trans ih
  exact fun h => Nat.lt_irrefl _ (hlt h)

/-- The first table refers to the second. -/
def authored : List Table :=
  [((Table.ofName "posts").column "id" (Column.ofType .integer)).column "author"
      ((Column.ofType .text).references "users" "email"),
    ((Table.ofName "users").column "id" (Column.ofType .integer)).column "email"
      (Column.ofType .text)]

theorem authored_wellReferred : WellReferred (Schema.ofList authored).toList := by
  rw [Schema.toList_ofList (by decide)]
  constructor
  · exact acyclic_of_measure (fun n => if n = "posts" then 1 else 0) (by decide)
  · decide

/-- Where the column referred to is there, either order will do. -/
theorem sync_any_order_authored :
    Meets (checking .postgres) Ddl.fits ∧ WellReferred (Schema.ofList authored).toList ∧
      ∀ order : List Table, order.Perm (Schema.ofList authored).toList → ∃ report c',
        (sync (checking .postgres) (.ofList order)).Ends (.ofList [("users", ["id", "email"])])
          (.ok report) c' := by
  have hwell := authored_wellReferred
  refine ⟨checking_meets .postgres, hwell, ?_⟩
  obtain ⟨hall, -⟩ := sync_any_order (checking_meets .postgres) hwell
    (.ofList [("users", ["id", "email"])])
  have hthere : ∀ t ∈ (Schema.ofList authored).toList, ∀ e ∈ t.columns.entries,
      ∀ r ∈ e.2.reference, r.column ∈
        ((Keyed.ofList [("users", ["id", "email"])]).get? r.table).getD [] := by decide
  apply hall.mpr
  intro t ht
  exact not_short_of_there (hthere t ht)

/-- Where it is not there yet, the order decides. -/
theorem sync_depends_on_order :
    let c : Catalog := .ofList [("users", ["id"])]
    Meets (checking .postgres) Ddl.fits ∧ WellReferred (Schema.ofList authored).toList ∧
      authored.reverse.Perm authored ∧
      (∃ e c', e.isUndefinedRelation = false ∧
        (sync (checking .postgres) (.ofList authored)).Ends c (.error e) c') ∧
      ∃ report c', (sync (checking .postgres) (.ofList authored.reverse)).Ends c (.ok report) c' := by
  intro c
  refine ⟨checking_meets .postgres, authored_wellReferred, List.reverse_perm authored, ?_, ?_⟩
  · let run := sync (checking .postgres) (.ofList authored) c
    have hrun : (match run.answer with
        | .ok _ => true
        | .error e => e.isUndefinedRelation) = false := by decide +kernel
    cases hanswer : run.answer with
    | ok report => rw [hanswer] at hrun; cases hrun
    | error e => rw [hanswer] at hrun; exact ⟨e, run.state, hrun, hanswer, rfl⟩
  · let run := sync (checking .postgres) (.ofList authored.reverse) c
    have hrun : run.answer.toOption.isSome = true := by decide +kernel
    cases hanswer : run.answer with
    | ok report => exact ⟨report, run.state, hanswer, rfl⟩
    | error e => rw [hanswer] at hrun; cases hrun

end Relata.Catalog
