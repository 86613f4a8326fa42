import Relata.Proofs.Calls
import Relata.Proofs.Stuck

/-!
Synchronising again. Main statement: once a synchronisation has succeeded, another one of the same
tables takes a single pass, only asks, and finds nothing to do.
-/
namespace Relata

/-- The call asks for rows. -/
def Call.IsQuery (call : Call) : Prop := ∃ sql params answer, call = .queryWith sql params answer

namespace Catalog

open Migration Relata.Action

variable {db : Adapter Catalog} {c c₀ : Catalog} {t : Table} {tables pending : List Table}

/-- The table is there with all its declared columns. -/
structure UpToDate (c : Catalog) (t : Table) : Prop where
  live : c.contains t.name = true
  complete : c.missing t = []

/-- The names of columns are compared in lower case, but statements spell them as they are
declared. -/
theorem upToDate_of_columnsAfter (h : c.get? t.name = some (c₀.columnsAfter t)) : c.UpToDate t where
  live := contains_iff.mpr ⟨_, h⟩
  complete := by
    simp only [missing, h, missingColumns, List.filter_eq_nil_iff]
    intro e he
    obtain ⟨m, hm, hlower⟩ := mem_columnsAfter (c := c₀) (t := t) (List.mem_map_of_mem he)
    simpa using ⟨m, hm, hlower⟩

/-- The action only asks, and leaves the catalog as it is. -/
def Asks {α : Type} (a : Action (Catalog × List Call) α) (c : Catalog) (r : Except Error α) :
    Prop :=
  ∃ calls, (∀ call ∈ calls, call.IsQuery) ∧ a.Makes c r calls c

section Asks

variable {α β : Type} {a : Action (Catalog × List Call) α} {f : α → Action (Catalog × List Call) β}

theorem asks_pure (x : α) (c : Catalog) : Asks (Pure.pure x) c (.ok x) :=
  ⟨[], by simp, makes_pure x c⟩

theorem asks_query {sql : String} {params : List Value} {rows : List Row}
    (h : (db.queryWith sql params).Ends c (.ok rows) c) :
    Asks (db.recorded.queryWith sql params) c (.ok rows) := by
  refine ⟨_, ?_, makes_noting h _⟩
  exact List.forall_mem_singleton.mpr ⟨sql, params, .ok rows, rfl⟩

theorem Asks.bind {x : α} {r : Except Error β} (h : Asks a c (.ok x)) (h' : Asks (f x) c r) :
    Asks (a >>= f) c r := by
  obtain ⟨calls, hcalls, hmakes⟩ := h
  obtain ⟨more, hmore, hmakes'⟩ := h'
  exact ⟨calls ++ more, List.forall_mem_append.mpr ⟨hcalls, hmore⟩, hmakes.bind hmakes'⟩

theorem Asks.attempt {r : Except Error α} (h : Asks a c r) : Asks a.attempt c (.ok r) := by
  obtain ⟨calls, hcalls, hmakes⟩ := h
  exact ⟨calls, hcalls, fun log => ends_attempt.mpr ⟨r, hmakes log, rfl⟩⟩

@[simp] theorem asks_log_bind {level : Level} {message : String} {fields : List (String × String)}
    {g : Unit → Action (Catalog × List Call) β} {r : Except Error β} :
    Asks (log level message fields >>= g) c r ↔ Asks (g ()) c r := by
  simp only [Asks, makes_log_bind]

end Asks

theorem tableExists_asks (h : Keeps db) (c : Catalog) (name : String) :
    Asks (tableExists db.recorded name) c (.ok (c.contains name)) := by
  obtain ⟨rows, hrows, hempty⟩ := h.tables c name
  refine (asks_query hrows).bind ?_
  rw [hempty, Bool.not_not]
  exact asks_pure _ c

theorem liveColumns_asks (h : Keeps db) {name : String} {live : List String}
    (hc : c.get? name = some live) :
    Asks (liveColumns db.recorded name) c (.ok (live.map Text.lower)) := by
  obtain ⟨rows, hrows, hlive⟩ := h.columns hc
  refine (asks_query hrows).bind ?_
  rw [← filterMap_liveColumn? hlive]
  exact asks_pure _ c

theorem syncTable_upToDate (h : Keeps db) (hc : c.UpToDate t) :
    Asks (syncTable db.recorded t) c (.ok .unchanged) := by
  obtain ⟨live, hlive⟩ := contains_iff.mp hc.live
  have hnone : missingColumns t (live.map Text.lower) = [] := by
    simpa only [missing, hlive] using hc.complete
  have hfound := tableExists_asks h c t.name
  rw [hc.live] at hfound
  refine hfound.bind (asks_log_bind.mpr ((liveColumns_asks h hlive).bind ?_))
  simp only [hnone]
  exact (asks_pure () c).bind ((asks_pure () c).bind (asks_pure _ c))

/-- One pass over tables that are up to date. -/
theorem syncPass_upToDate (h : Keeps db) (hc : ∀ t ∈ pending, c.UpToDate t) (report : SyncReport) :
    Asks (syncPass db.recorded pending report) c (.ok ([], report)) := by
  induction pending with
  | nil => exact asks_pure _ c
  | cons t rest ih =>
    obtain ⟨ht, hrest⟩ := List.forall_mem_cons.mp hc
    exact (syncTable_upToDate h ht).attempt.bind (ih hrest)

theorem sync_upToDate (h : Keeps db) {schema : Schema} (hne : schema.toList ≠ [])
    (hc : ∀ t ∈ schema.toList, c.UpToDate t) :
    Asks (sync db.recorded schema) c (.ok ⟨1, [], []⟩) := by
  have hpass := syncPass_upToDate h hc { SyncReport.empty with passes := 1 }
  have hpasses : Asks (syncPasses db.recorded (2 * schema.toList.length) schema.toList .empty) c
      (.ok ⟨1, [], []⟩) := by
    cases hlist : schema.toList with
    | nil => exact absurd hlist hne
    | cons t rest =>
      rw [hlist] at hpass
      have hsome : ([] : List Table).length ≠ (t :: rest).length := by simp
      refine asks_log_bind.mpr (hpass.bind ?_)
      simp only [if_neg hsome, syncPasses_nil]
      exact asks_pure _ c
  exact asks_log_bind.mpr (hpasses.bind (asks_log_bind.mpr (asks_pure _ c)))

/-- Whatever the first run created, added or postponed, the second takes one pass, asks for each
table and its columns and nothing else, and leaves the catalog as it is. -/
theorem sync_repeats (h : Keeps db) {registered : List Table} (hne : registered ≠ [])
    {report : SyncReport} (hfirst : (sync db (.ofList registered)).Ends c₀ (.ok report) c) :
    ∃ again calls, (sync db (.ofList registered)).Ends c (.ok again) c ∧
      (sync db.recorded (.ofList registered)).Makes c (.ok again) calls c ∧
      again.passes = 1 ∧ again.isNoop = true ∧ ∀ call ∈ calls, call.IsQuery := by
  obtain ⟨r, c', hends, pending, hreached, -, hanswer⟩ := sync_settles h registered c₀
  obtain ⟨rfl, rfl⟩ := hfirst.unique hends
  have hdone : pending = [] := by
    rcases hanswer with ⟨hnil, -⟩ | ⟨-, herror⟩
    · exact hnil
    · cases herror
  subst hdone
  obtain ⟨calls, hcalls, hmakes⟩ := sync_upToDate h (Schema.ofList_toList_ne_nil hne) fun t ht =>
    upToDate_of_columnsAfter (hreached.done t ht List.not_mem_nil)
  obtain ⟨more, hplain⟩ := (sync_records db (.ofList registered)).makes c
  obtain ⟨hr, hc, -⟩ := hmakes.unique hplain
  exact ⟨_, calls, ⟨hr.symm, hc.symm⟩, hmakes, rfl, rfl, hcalls⟩

/-- A run that postpones one table and adds a column to another, beside one that is spelled
otherwise. -/
theorem sync_repeats_mixed :
    let a := (Table.ofName "a").column "b_id" ((Column.ofType .integer).references "b" "id")
    let b := ((Table.ofName "b").column "Id" (Column.ofType .integer)).column "note"
      ((Column.ofType .text).references "c" "id")
    let c := (Table.ofName "c").column "ID" (Column.ofType .integer)
    let schema := Schema.ofList [a, b, c]
    ∃ c' again calls,
      (sync (strict .postgres) schema).Ends (.ofList [("b", ["ID"])])
        (.ok ⟨2, ["a", "c"], [("b", "note")]⟩) c' ∧
      (sync (strict .postgres).recorded schema).Makes c' (.ok again) calls c' ∧
      again.passes = 1 ∧ again.isNoop = true ∧ ∀ call ∈ calls, call.IsQuery := by
  intro a b c schema
  have hrun : (sync (strict .postgres) schema (.ofList [("b", ["ID"])])).answer.toOption =
      some ⟨2, ["a", "c"], [("b", "note")]⟩ := by decide +kernel
  obtain ⟨r, c', hends⟩ : ∃ r c', (sync (strict .postgres) schema).Ends (.ofList [("b", ["ID"])])
      r c' := ⟨_, _, ends_run ..⟩
  rw [hends.1] at hrun
  cases r with
  | error e => cases hrun
  | ok report =>
    obtain rfl := Option.some.inj hrun
    obtain ⟨again, calls, -, hmakes, hagain⟩ :=
      sync_repeats (strict_keeps .postgres) (List.cons_ne_nil a [b, c]) hends
    exact ⟨c', again, calls, hends, hmakes, hagain⟩

end Catalog
end Relata
