import Mathlib.Data.List.Nodup
import Mathlib.Data.Set.Basic
import Mathlib.Order.Bounds.Defs
import Mathlib.Tactic.Push
import Relata.Proofs.Catalog
import Relata.Proofs.Registry
import Relata.Proofs.Synchronisation

/-!
Which tables a synchronisation leaves behind. The tables that cannot be brought about are the largest
set whose members wait for each other or for tables that nobody declares. Main statement: the passes
end with an error that names just these tables, and with success if there are none.
-/
namespace Relata

namespace Catalog

open Migration

variable {db : Adapter Catalog} {fits : Catalog → Ddl → Bool} {c₀ c c' : Catalog}
  {tables pending rest : List Table} {t : Table} {S : Set String} {R : Prop}

/-- Each member is registered, and needs a table that is not there and not registered outside of the
set. -/
def SelfBlocked (c : Catalog) (tables : List Table) (S : Set String) : Prop :=
  ∀ n ∈ S, ∃ t ∈ tables, t.name = n ∧
    ∃ d ∈ c.needs t, c.contains d = false ∧ (d ∈ tables.map Table.name → d ∈ S)

def stuck (c : Catalog) (tables : List Table) : Set String := {n | ∃ S, SelfBlocked c tables S ∧ n ∈ S}

theorem subset_stuck (h : SelfBlocked c tables S) : S ⊆ stuck c tables := fun _ hn => ⟨S, h, hn⟩

theorem stuck_selfBlocked (c : Catalog) (tables : List Table) :
    SelfBlocked c tables (stuck c tables) := by
  rintro n ⟨S, hS, hn⟩
  obtain ⟨t, ht, hname, d, hd, hmissing, hin⟩ := hS n hn
  exact ⟨t, ht, hname, d, hd, hmissing, fun hmem => subset_stuck hS (hin hmem)⟩

theorem isGreatest_stuck (c : Catalog) (tables : List Table) :
    IsGreatest {S | SelfBlocked c tables S} (stuck c tables) :=
  ⟨stuck_selfBlocked c tables, fun _ => subset_stuck⟩

/-- What holds between two attempts of a synchronisation that began with the catalog `c₀`. -/
structure Reached (c₀ : Catalog) (tables pending : List Table) (c : Catalog) : Prop where
  sublist : pending.Sublist tables
  kept : ∀ n, (∀ t ∈ tables, t.name = n → t ∈ pending) → c.get? n = c₀.get? n
  done : ∀ t ∈ tables, t ∉ pending → c.get? t.name = some (c₀.columnsAfter t)
  left : ∀ t ∈ tables, t.name ∈ stuck c₀ tables → t ∈ pending

theorem Reached.start (c₀ : Catalog) (tables : List Table) : Reached c₀ tables tables c₀ where
  sublist := .refl tables
  kept _ _ := rfl
  done _ ht hn := absurd ht hn
  left _ ht _ := ht

theorem eq_of_name (hnodup : (tables.map Table.name).Nodup) {u : Table} (ht : t ∈ tables)
    (hu : u ∈ tables) (hname : t.name = u.name) : t = u :=
  List.inj_on_of_nodup_map hnodup ht hu hname

theorem Reached.get?_pending (h : Reached c₀ tables pending c)
    (hnodup : (tables.map Table.name).Nodup) (ht : t ∈ pending) : c.get? t.name = c₀.get? t.name :=
  h.kept t.name fun _ hu hname => eq_of_name hnodup hu (h.sublist.subset ht) hname ▸ ht

theorem Reached.contains_mono (h : Reached c₀ tables pending c) {d : String}
    (hd : c₀.contains d = true) : c.contains d = true := by
  by_cases hkept : ∀ t ∈ tables, t.name = d → t ∈ pending
  · rwa [Keyed.contains, h.kept d hkept]
  · push Not at hkept
    obtain ⟨t, ht, rfl, hn⟩ := hkept
    exact contains_iff.mpr ⟨_, h.done t ht hn⟩

theorem Reached.missing_eq (h : Reached c₀ tables pending c)
    (hnodup : (tables.map Table.name).Nodup) (ht : t ∈ pending) : c.missing t = c₀.missing t := by
  simp only [missing, h.get?_pending hnodup ht]

/-- A table that has not been tried with success is judged as in the beginning. -/
theorem Reached.needs_eq (h : Reached c₀ tables pending c)
    (hnodup : (tables.map Table.name).Nodup) (ht : t ∈ pending) :
    c.needs t = c₀.needs t ∧ c.columnsAfter t = c₀.columnsAfter t := by
  have hmissing := h.missing_eq hnodup ht
  exact ⟨by rw [needs, hmissing, needs], by
    rw [columnsAfter, hmissing, h.get?_pending hnodup ht, columnsAfter]⟩

/-- No success ever frees a stuck table. -/
theorem Reached.stuck_blocked (h : Reached c₀ tables pending c)
    (hnodup : (tables.map Table.name).Nodup) (ht : t ∈ tables) (hs : t.name ∈ stuck c₀ tables) :
    ∃ d ∈ c.needs t, c.contains d = false := by
  obtain ⟨u, hu, hname, d, hd, hmissing, hin⟩ := stuck_selfBlocked c₀ tables t.name hs
  obtain rfl := eq_of_name hnodup hu ht hname
  refine ⟨d, (h.needs_eq hnodup (h.left u ht hs)).1 ▸ hd, ?_⟩
  have hkept : ∀ v ∈ tables, v.name = d → v ∈ pending := by
    rintro v hv rfl
    exact h.left v hv (hin (List.mem_map_of_mem hv))
  rwa [Keyed.contains, h.kept d hkept]

/-- The invariant after one success. -/
theorem Reached.synced (pre : List Table) (h : Reached c₀ tables (pre ++ t :: rest) c)
    (hnodup : (tables.map Table.name).Nodup) (hready : ∀ d ∈ c.needs t, c.contains d = true)
    (hget : ∀ n, c'.get? n = if n = t.name then some (c.columnsAfter t) else c.get? n) :
    Reached c₀ tables (pre ++ rest) c' := by
  have hsub : (pre ++ rest).Sublist (pre ++ t :: rest) :=
    (List.sublist_cons_self t rest).append_left pre
  have hmem : t ∈ pre ++ t :: rest := by simp
  have ht : t ∈ tables := h.sublist.subset hmem
  have hgone : t ∉ pre ++ rest := by
    have hpending : ((pre ++ t :: rest).map Table.name).Nodup :=
      (h.sublist.map Table.name).nodup hnodup
    have hperm : (t :: (pre ++ rest)).Nodup :=
      List.perm_middle.nodup_iff.mp (List.Nodup.of_map _ hpending)
    exact (List.nodup_cons.mp hperm).1
  have hother {u : Table} (hu : u ∈ pre ++ t :: rest) (hne : u ≠ t) : u ∈ pre ++ rest := by
    simp only [List.mem_append, List.mem_cons] at hu ⊢
    rcases hu with hu | rfl | hu
    · exact .inl hu
    · exact absurd rfl hne
    · exact .inr hu
  constructor
  · exact hsub.trans h.sublist
  · intro n hn
    have hne : n ≠ t.name := fun heq => hgone (hn t ht heq.symm)
    rw [hget, if_neg hne]
    exact h.kept n fun u hu hname => hsub.subset (hn u hu hname)
  · intro u hu hn
    by_cases hut : u = t
    · rw [hut, hget, if_pos rfl, (h.needs_eq hnodup hmem).2]
    · have hne : u.name ≠ t.name := fun heq => hut (eq_of_name hnodup hu ht heq)
      rw [hget, if_neg hne]
      exact h.done u hu fun hmem => hn (hother hmem hut)
  · intro u hu hs
    refine hother (h.left u hu hs) ?_
    rintro rfl
    obtain ⟨d, hd, hmissing⟩ := h.stuck_blocked hnodup hu hs
    rw [hready d hd] at hmissing
    cases hmissing

/-- If ever a table is refused although its references are there, `R` holds. -/
def Excuses (fits : Catalog → Ddl → Bool) (c₀ : Catalog) (tables : List Table) (R : Prop) : Prop :=
  ∀ {pending : List Table} {c : Catalog} {t : Table}, Reached c₀ tables pending c → t ∈ pending →
    (∀ d ∈ c.needs t, c.contains d = true) → fitsAll fits c (c.statements t) = false → R

/-- The action fails, as the database refuses a statement. -/
def Refused (db : Adapter Catalog) {α : Type} (a : Action Catalog α) (c : Catalog) : Prop :=
  ∃ e c', Refuses db e ∧ a.Ends c (.error e) c'

/-- One pass. When it postpones every table, nothing has changed, and each of them misses a
reference. -/
theorem syncPass_ends (h : Meets db fits) (hexcuse : Excuses fits c₀ tables R)
    (hnodup : (tables.map Table.name).Nodup) (pre : List Table)
    (hr : Reached c₀ tables (pre ++ rest) c) (report : SyncReport) :
    (R ∧ Refused db (syncPass db rest report) c) ∨
    ∃ out report' c', (syncPass db rest report).Ends c (.ok (out, report')) c' ∧
      Reached c₀ tables (pre ++ out) c' ∧ out.length ≤ rest.length ∧
      (out.length = rest.length →
        out = rest ∧ c' = c ∧ ∀ t ∈ rest, ∃ d ∈ c.needs t, c.contains d = false) := by
  induction rest generalizing pre c report with
  | nil => exact .inr ⟨[], report, c, by simp [syncPass], hr, by simp⟩
  | cons t rest ih =>
    by_cases hready : ∀ d ∈ c.needs t, c.contains d = true
    · obtain ⟨done, c₁, htried, hget⟩ := syncTable_tried h hready
      cases hfits : fitsAll fits c (c.statements t) with
      | false =>
        rw [hfits] at htried
        obtain ⟨e, left, he, hsync⟩ := htried
        exact .inl ⟨hexcuse hr (by simp) hready hfits, e, left, he, syncPass_failed hsync he.1⟩
      | true =>
        rw [hfits] at htried
        have hsync : (syncTable db t).Ends c (.ok done) c₁ := htried
        rcases ih pre (hr.synced pre hnodup hready hget) (report.add t.name done) with
          ⟨hR, e, left, he, hpass⟩ | ⟨out, report', c', hpass, hr', hlen, -⟩
        · exact .inl ⟨hR, e, left, he, syncPass_synced hsync hpass⟩
        · refine .inr ⟨out, report', c', syncPass_synced hsync hpass, hr', ?_, fun heq => ?_⟩
          · exact Nat.le_succ_of_le hlen
          · simp only [List.length_cons] at heq
            omega
    · obtain ⟨d, hd, hmissing⟩ : ∃ d ∈ c.needs t, c.contains d = false := by simpa using hready
      obtain ⟨name, hsync⟩ := syncTable_blocked h.toAnswers hd hmissing
      rcases ih (pre ++ [t]) (by simpa using hr) report with
        ⟨hR, e, left, he, hpass⟩ | ⟨out, report', c', hpass, hr', hlen, hall⟩
      · exact .inl ⟨hR, e, left, he, syncPass_postponed_error hsync rfl hpass⟩
      · refine .inr ⟨t :: out, report', c', syncPass_postponed hsync rfl hpass, by simpa using hr',
          ?_, fun heq => ?_⟩
        · simpa using hlen
        · obtain ⟨rfl, hc, hblocked⟩ := hall (by simpa using heq)
          exact ⟨rfl, hc, List.forall_mem_cons.mpr ⟨⟨d, hd, hmissing⟩, hblocked⟩⟩

/-- Tables that all miss a reference at one time are stuck. -/
theorem Reached.all_stuck (h : Reached c₀ tables pending c)
    (hnodup : (tables.map Table.name).Nodup)
    (hblocked : ∀ t ∈ pending, ∃ d ∈ c.needs t, c.contains d = false) :
    ∀ t ∈ pending, t.name ∈ stuck c₀ tables := by
  have hself : SelfBlocked c₀ tables {n | n ∈ pending.map Table.name} := by
    intro n hn
    obtain ⟨t, ht, rfl⟩ := List.mem_map.mp hn
    obtain ⟨d, hd, hmissing⟩ := hblocked t ht
    refine ⟨t, h.sublist.subset ht, rfl, d, (h.needs_eq hnodup ht).1 ▸ hd, ?_, fun hmem => ?_⟩
    · cases hlive : c₀.contains d with
      | false => rfl
      | true => rw [h.contains_mono hlive] at hmissing; cases hmissing
    · obtain ⟨u, hu, rfl⟩ := List.mem_map.mp hmem
      by_cases hpending : u ∈ pending
      · exact List.mem_map_of_mem hpending
      · rw [contains_iff.mpr ⟨_, h.done u hu hpending⟩] at hmissing
        cases hmissing
  exact fun t ht => subset_stuck hself (List.mem_map_of_mem ht)

/-- How a synchronisation ends: with success when no table is left, else with the tables left. -/
def Settled (c₀ : Catalog) (tables : List Table) (r : Except Error SyncReport) (c : Catalog) : Prop :=
  ∃ pending, Reached c₀ tables pending c ∧ (∀ t ∈ pending, t.name ∈ stuck c₀ tables) ∧
    ((pending = [] ∧ ∃ report, r = .ok report) ∨
      (pending ≠ [] ∧ r = .error (.deadlock (pending.map Table.name))))

theorem syncPasses_ends (h : Meets db fits) (hexcuse : Excuses fits c₀ tables R)
    (hnodup : (tables.map Table.name).Nodup) {budget : Nat} (hbudget : pending.length ≤ budget)
    (hr : Reached c₀ tables pending c) (report : SyncReport) :
    (R ∧ Refused db (syncPasses db budget pending report) c) ∨
    ∃ r c', (syncPasses db budget pending report).Ends c r c' ∧ Settled c₀ tables r c' := by
  induction budget generalizing pending c report with
  | zero =>
    obtain rfl := List.eq_nil_of_length_eq_zero (Nat.le_zero.mp hbudget)
    exact .inr ⟨.ok report, c, by simp [syncPasses], [], hr, by simp, .inl ⟨rfl, report, rfl⟩⟩
  | succ budget ih =>
    cases pending with
    | nil =>
      exact .inr ⟨.ok report, c, by simp [syncPasses], [], hr, by simp, .inl ⟨rfl, report, rfl⟩⟩
    | cons t rest =>
      rcases syncPass_ends h hexcuse hnodup [] hr { report with passes := report.passes + 1 } with
        ⟨hR, e, left, he, hpass⟩ | ⟨out, report', c', hpass, hr', hlen, hall⟩
      · exact .inl ⟨hR, e, left, he, syncPasses_failed hpass⟩
      simp only [List.nil_append] at hr'
      by_cases hstall : out.length = (t :: rest).length
      · obtain ⟨rfl, rfl, hblocked⟩ := hall hstall
        exact .inr ⟨_, c', syncPasses_stalled hpass rfl, t :: rest, hr',
          hr'.all_stuck hnodup hblocked, .inr ⟨List.cons_ne_nil t rest, rfl⟩⟩
      · have hshorter : out.length ≤ budget := by
          simp only [List.length_cons] at hbudget hlen hstall
          omega
        rcases ih hshorter hr' report' with ⟨hR, e, left, he, hends⟩ | ⟨r, c'', hends, hsettled⟩
        · exact .inl ⟨hR, e, left, he, syncPasses_again hpass hstall hends⟩
        · exact .inr ⟨r, c'', syncPasses_again hpass hstall hends, hsettled⟩

/-- A synchronisation brings about what can be, unless a statement of its is refused. -/
theorem sync_refused_or_settles (h : Meets db fits) {schema : Schema}
    (hnodup : (schema.toList.map Table.name).Nodup) (hexcuse : Excuses fits c schema.toList R) :
    (R ∧ Refused db (sync db schema) c) ∨
      ∃ r c', (sync db schema).Ends c r c' ∧ Settled c schema.toList r c' := by
  have hbudget := Nat.le_mul_of_pos_left schema.toList.length Nat.two_pos
  rcases syncPasses_ends h hexcuse hnodup hbudget (.start c _) .empty with
    ⟨hR, e, left, he, hends⟩ | ⟨r, c', hends, hsettled⟩
  · exact .inl ⟨hR, e, left, he, sync_of_syncPasses hends⟩
  · exact .inr ⟨r, c', sync_of_syncPasses hends, hsettled⟩

theorem sync_settles (h : Keeps db) (registered : List Table) (c : Catalog) :
    ∃ r c', (sync db (.ofList registered)).Ends c r c' ∧
      Settled c (Schema.ofList registered).toList r c' := by
  have hnever : Excuses (fun _ _ => true) c (Schema.ofList registered).toList False := by
    intro pending c t _ _ _ hrefused
    rw [fitsAll_always] at hrefused
    cases hrefused
  rcases sync_refused_or_settles h.meets (Schema.nodup_names registered) hnever with ⟨hfalse, -⟩ | hall
  · cases hfalse
  · exact hall

/-- The passes find the largest set of registered tables that wait for each other or for tables that
nobody declares. They fail with its members, in the order of registration, and leave these as they
were; if it has none they succeed. All other registered tables have their declared columns. -/
theorem sync_leaves_stuck (h : Keeps db) (registered : List Table) (c : Catalog) :
    let schema := Schema.ofList registered
    let S := stuck c schema.toList
    IsGreatest {S | SelfBlocked c schema.toList S} S ∧
    ∃ r c', (sync db schema).Ends c r c' ∧
      (S = ∅ → ∃ report, r = .ok report) ∧
      (S ≠ ∅ → ∃ names, r = .error (.deadlock names) ∧
        names.Sublist (schema.toList.map Table.name) ∧ ∀ n, n ∈ names ↔ n ∈ S) ∧
      (∀ t ∈ schema.toList, t.name ∉ S → ∃ live, c'.get? t.name = some live ∧
        ∀ n ∈ t.columnNames, ∃ m ∈ live, Text.lower m = Text.lower n) ∧
      ∀ n, n ∈ S ∨ n ∉ schema.toList.map Table.name → c'.get? n = c.get? n := by
  intro schema S
  refine ⟨isGreatest_stuck c schema.toList, ?_⟩
  obtain ⟨r, c', hends, pending, hr, hstuck, hanswer⟩ := sync_settles h registered c
  have hmem (n : String) : n ∈ pending.map Table.name ↔ n ∈ S := by
    constructor
    · intro hn
      obtain ⟨t, ht, rfl⟩ := List.mem_map.mp hn
      exact hstuck t ht
    · intro hn
      obtain ⟨t, ht, rfl, -⟩ := stuck_selfBlocked c schema.toList n hn
      exact List.mem_map_of_mem (hr.left t ht hn)
  refine ⟨r, c', hends, fun hempty => ?_, fun hsome => ?_, fun t ht hn => ?_, fun n hn => ?_⟩
  · rcases hanswer with ⟨-, hok⟩ | ⟨hne, -⟩
    · exact hok
    · obtain ⟨t, ht⟩ := List.exists_mem_of_ne_nil pending hne
      have hin := hstuck t ht
      rw [show stuck c _ = ∅ from hempty] at hin
      cases hin
  · rcases hanswer with ⟨rfl, -⟩ | ⟨-, herror⟩
    · obtain ⟨n, hn⟩ := Set.nonempty_iff_ne_empty.mpr hsome
      cases (hmem n).mpr hn
    · exact ⟨_, herror, hr.sublist.map Table.name, hmem⟩
  · have hdone := hr.done t ht fun hpending => hn (hstuck t hpending)
    exact ⟨_, hdone, fun n hn => mem_columnsAfter hn⟩
  · refine hr.kept n fun t ht hname => ?_
    rcases hn with hn | hn
    · exact hr.left t ht (hname ▸ hn)
    · exact absurd (hname ▸ List.mem_map_of_mem ht) hn

/-- Two tables that refer to each other are both left behind, beside one that refers to itself. -/
theorem sync_leaves_cycle :
    let a := (Table.ofName "a").column "b_id" ((Column.ofType .integer).references "b" "id")
    let b := (Table.ofName "b").column "a_id" ((Column.ofType .integer).references "a" "id")
    let own := (Table.ofName "own").column "id" ((Column.ofType .integer).references "own" "id")
    Keeps (strict .postgres) ∧
      ∃ names c', (sync (strict .postgres) (.ofList [a, own, b])).Ends .empty
        (.error (.deadlock names)) c' ∧ "a" ∈ names ∧ "b" ∈ names := by
  intro a b own
  have hself : SelfBlocked .empty (Schema.ofList [a, own, b]).toList {"a", "b"} := by
    rintro n (rfl | rfl)
    · exact ⟨a, by decide, rfl, "b", by decide, rfl, fun _ => .inr rfl⟩
    · exact ⟨b, by decide, rfl, "a", by decide, rfl, fun _ => .inl rfl⟩
  obtain ⟨-, r, c', hends, -, hstuck, -⟩ :=
    sync_leaves_stuck (strict_keeps .postgres) [a, own, b] .empty
  have ha := subset_stuck hself (.inl rfl)
  have hb := subset_stuck hself (.inr rfl)
  obtain ⟨names, rfl, -, hnames⟩ := hstuck (Set.nonempty_iff_ne_empty.mp ⟨"a", ha⟩)
  exact ⟨strict_keeps .postgres, names, c', hends, (hnames "a").mpr ha, (hnames "b").mpr hb⟩

end Catalog
end Relata
