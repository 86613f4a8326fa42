import Mathlib.Data.List.Induction
import Relata.Proofs.Assembly
import Relata.Proofs.Blueprint
import Relata.Proofs.Passes

/-!
Names that are given more than once: columns of a record, columns and relations of a table, tables of a
registry. Main statement: each stands once, in the order in which the names first came, with the last
item that was given for it; and just so are they written, bound and brought about.
-/
namespace Relata

open Query

namespace Keyed

variable {α : Type}

/-- What is left of items that are given by name, where an item takes the place of the one that was
given for its name before. -/
structure Digest (items : List (String × α)) (names : List String) (left : List α) : Prop where
  nodup : names.Nodup
  mem_iff : ∀ n, n ∈ names ↔ n ∈ items.map Prod.fst
  ordered : names.Pairwise fun m n => (items.map Prod.fst).idxOf m < (items.map Prod.fst).idxOf n
  last : left.map some = names.map fun n => items.reverse.lookup n

theorem ofList_concat (items : List (String × α)) (e : String × α) :
    ofList (items ++ [e]) = (ofList items).insert e.1 e.2 := List.foldl_concat ..

theorem keys_ofList (items : List (String × α)) :
    (ofList items).keys = firsts [] (items.map Prod.fst) := by
  induction items using List.reverseRecOn with
  | nil => rfl
  | append_singleton items e ih =>
    have hmem : e.1 ∈ firsts [] (items.map Prod.fst) ↔
        ([] ++ items.map Prod.fst).contains e.1 = true := by
      rw [mem_firsts, List.contains_iff_mem]
      simp
    rw [ofList_concat, keys_insert, ih, List.map_append, List.map_singleton, firsts_concat]
    simp only [hmem]

/-- Of several items for a name, the last is found. -/
theorem get?_ofList (items : List (String × α)) (name : String) :
    (ofList items).get? name = items.reverse.lookup name := by
  induction items using List.reverseRecOn with
  | nil => rfl
  | append_singleton items e ih =>
    rw [ofList_concat, get?_insert, ih, List.reverse_append, List.reverse_singleton,
      List.singleton_append]
    exact (lookup_cons_eq_ite name e.1 e.2 _).symm

/-- Where names are distinct, each item is found by its own. -/
theorem map_get?_keys {k : Keyed α} (h : k.keys.Nodup) : k.keys.map k.get? = k.values.map some := by
  unfold keys values
  rw [List.map_map, List.map_map]
  exact List.map_congr_left fun e he => (lookup_eq_some_iff_mem h).mpr he

theorem ofList_digest (items : List (String × α)) :
    Digest items (ofList items).keys (ofList items).values where
  nodup := nodup_keys_ofList items
  mem_iff n := by rw [keys_ofList, mem_firsts]; simp
  ordered := by
    rw [keys_ofList]
    exact firsts_pairwise [] _
  last := by
    rw [← map_get?_keys (nodup_keys_ofList items)]
    exact List.map_congr_left fun n _ => get?_ofList items n

end Keyed

/-- Something that a table is declared with. -/
inductive Declaration where
  | column (name : String) (c : Column)
  | relation (name : String) (r : Relation)

namespace Declaration

def column? : Declaration → Option (String × Column)
  | .column name c => some (name, c)
  | .relation .. => none

def relation? : Declaration → Option (String × Relation)
  | .column .. => none
  | .relation name r => some (name, r)

end Declaration

namespace Table

def declare (t : Table) : Declaration → Table
  | .column name c => t.column name c
  | .relation name r => t.relation name r

/-- The table of a name, after the declarations in order. -/
def ofDeclarations (name : String) (ds : List Declaration) : Table := ds.foldl declare (ofName name)

variable (name : String) (ds : List Declaration)

/-- Columns and relations are gathered apart. -/
theorem ofDeclarations_eq : ofDeclarations name ds =
    ⟨name, .ofList (ds.filterMap Declaration.column?), .ofList (ds.filterMap Declaration.relation?)⟩ := by
  induction ds using List.reverseRecOn with
  | nil => rfl
  | append_singleton ds d ih =>
    have hstep : ofDeclarations name (ds ++ [d]) = (ofDeclarations name ds).declare d :=
      List.foldl_concat ..
    rw [hstep, ih, List.filterMap_append, List.filterMap_append]
    cases d with
    | column n c =>
      have hrelations : [Declaration.column n c].filterMap Declaration.relation? = [] := rfl
      have hcolumns : [Declaration.column n c].filterMap Declaration.column? = [(n, c)] := rfl
      rw [hrelations, hcolumns, List.append_nil, Keyed.ofList_concat]
      rfl
    | relation n r =>
      have hrelations : [Declaration.relation n r].filterMap Declaration.relation? = [(n, r)] := rfl
      have hcolumns : [Declaration.relation n r].filterMap Declaration.column? = [] := rfl
      rw [hrelations, hcolumns, List.append_nil, Keyed.ofList_concat]
      rfl

end Table

namespace Schema

theorem toList_digest (tables : List Table) :
    Keyed.Digest (tables.map fun t => (t.name, t)) ((ofList tables).toList.map Table.name)
      (ofList tables).toList := by
  rw [(proper_ofList tables).map_name, toList, tables_ofList]
  exact Keyed.ofList_digest _

end Schema

open QueryBuilder Migration

/-- However often names are given again, each is left once, in the order in which they first came, with
the last item given for it. An insertion lists the columns of its record in that order, each with a
placeholder for its last value, and so does an update what it sets; the statement for a new table
declares its columns in that order; and a synchronisation starts from the tables so left. -/
theorem repeats_override :
    (∀ (b : QueryBuilder) (record : List (String × Value)), ∃ columns values,
      Keyed.Digest record columns values ∧
      (b.insert (.ofList record)).compile = .ok ⟨insertText b.dialect b.table.name columns, values⟩ ∧
      (b.update (.ofList record)).compile =
        if record = [] then
          .error (.query ("UPDATE on " ++ quoteIdent b.table.name ++ " requires at least one column"))
        else .ok ⟨updateText b.dialect b.table.name columns b.comparisons, values ++ b.operands⟩) ∧
    (∀ (name : String) (ds : List Declaration) (d : Dialect),
      let t := Table.ofDeclarations name ds
      t.name = name ∧
      Keyed.Digest (ds.filterMap Declaration.column?) t.columns.keys t.columns.values ∧
      Keyed.Digest (ds.filterMap Declaration.relation?) t.relations.keys t.relations.values ∧
      Blueprint.ofSql? (t.createSql d) = some (t.blueprint d) ∧
      (t.blueprint d).columns.map Declared.name = t.columns.keys) ∧
    ∀ tables : List Table, ∃ pending,
      Keyed.Digest (tables.map fun t => (t.name, t)) (pending.map Table.name) pending ∧
      (Schema.ofList tables).toList = pending ∧
      ∀ (σ : Type) (db : Adapter σ) (s : σ), ∃ passes r u,
        (sync db (.ofList tables)).Ends s r u ∧ Tries db s passes.flatten u ∧
          Course 0 pending passes r := by
  refine ⟨fun b record => ⟨_, _, Keyed.ofList_digest record, ?_, ?_⟩, fun name ds d => ?_,
    fun tables => ⟨_, Schema.toList_digest tables, rfl, fun σ db s => ?_⟩⟩
  · rw [compile_eq, if_neg (fun h => nomatch h.1)]
    rfl
  · have hempty : (Keyed.ofList record).isEmpty = true ↔ record = [] := by
      refine ⟨fun h => ?_, by rintro rfl; rfl⟩
      by_contra hne
      exact Keyed.ofList_ne_nil hne (List.isEmpty_iff.mp h)
    have hcompile := (b.update (.ofList record)).compile_eq
    simp only [QueryBuilder.update, true_and, hempty] at hcompile ⊢
    rw [hcompile]
    rfl
  · intro t
    have ht : t = _ := Table.ofDeclarations_eq name ds
    rw [ht]
    refine ⟨rfl, Keyed.ofList_digest _, Keyed.ofList_digest _, Table.ofSql?_create _ d, ?_⟩
    simp [Table.blueprint, Keyed.keys, Function.comp_def]
  · obtain ⟨passes, htries, hcourse, -⟩ := sync_course (Action.ends_run (sync db (.ofList tables)) s)
    exact ⟨passes, _, _, Action.ends_run _ s, htries, hcourse⟩

/-- The column that is declared again keeps its place and takes the new type. -/
example :
    let integer := Column.ofType .integer
    (Table.ofDeclarations "t" [.column "a" integer, .column "b" integer,
      .column "a" (Column.ofType .text)]).createSql .postgres =
        "CREATE TABLE IF NOT EXISTS \"t\" (\"a\" TEXT, \"b\" INTEGER)" := by
  decide +kernel

end Relata
