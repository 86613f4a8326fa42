import Mathlib.Data.Set.List
import Relata.Proofs.Assembly
import Relata.Proofs.Dml

/-!
Compiled queries as tokens. Main statement: where every key is bare, a query is read as the items that
it lists, the tables that it joins, its conditions, the keys that it groups and orders by, and its
bounds, each of them token by token.
-/
namespace Relata

open Sql

namespace Sql

variable {d : Dialect} {p q : List Piece} {s sep : String} {ts us lts : List Token} {used : Nat}

theorem read_render_text (hs : ∀ rest, read (s.toList ++ rest) = (read rest).map (lts ++ ·))
    (hp : read (render d used p) = some ts) :
    read (render d used (.text s :: p)) = some (lts ++ ts) := by
  rw [render, hs, hp, Option.map_some]

/-- Fragments with a text between them that separates them. -/
theorem read_render_divided (hp : read (render d used p) = some ts) (hs : Divides s lts)
    (hq : read (render d (used + (operands p).length) q) = some us) :
    read (render d used (p ++ .text s :: q)) = some (ts ++ (lts ++ us)) := by
  rw [render_append, render, read_append hp (hs.apart _), hs.read, hq, Option.map_some, Option.map_some]

theorem read_render_append (hp : read (render d used p) = some ts)
    (ha : Apart (render d (used + (operands p).length) q))
    (hq : read (render d (used + (operands p).length) q) = some us) :
    read (render d used (p ++ q)) = some (ts ++ us) := by
  rw [render_append, read_append hp ha, hq, Option.map_some]

theorem apart_render_append (hp : ∀ used, Apart (render d used p)) (hq : ∀ used, Apart (render d used q))
    (used : Nat) : Apart (render d used (p ++ q)) := by
  rw [render_append]
  exact (hp used).append (hq _)

theorem read_render_name (n : String) : read (render d used [.name n]) = some [.name n] := by
  rw [render, render, List.append_nil]
  exact Dml.read_name n

theorem Reads.list {items : List (List Piece)} {parts : List (List Token)} {t : Token}
    (h : Reads d used items parts) (hsep : Divides sep [t]) :
    read (render d used (Sql.separated sep items)) = some (List.intercalate [t] parts) := by
  cases h with
  | nil => exact read_nil
  | cons hp hrest => exact (Reads.cons hp hrest).separated hsep (List.cons_ne_nil _ _)

/-- Items without slots are read wherever they stand. -/
theorem reads_map {ι : Type} {f : ι → List Piece} {g : ι → List Token} {items : List ι}
    (hnone : ∀ i ∈ items, operands (f i) = [])
    (h : ∀ i ∈ items, ∀ used, read (render d used (f i)) = some (g i)) (used : Nat) :
    Reads d used (items.map f) (items.map g) := by
  induction items with
  | nil => exact .nil
  | cons i items ih =>
    obtain ⟨hi, hitems⟩ := List.forall_mem_cons.mp h
    obtain ⟨hnone, hnones⟩ := List.forall_mem_cons.mp hnone
    refine .cons (hi used) ?_
    rw [hnone]
    exact ih hnones hitems

/-- A column with its table. -/
def columnTokens (table column : String) : List Token := [.name table, .symbol '.', .name column]

theorem read_column (table column : String) (used : Nat) :
    read (render d used (Sql.column table column)) = some (columnTokens table column) := by
  have hkey := Query.Key.read_own table column
  rwa [← Query.Key.render_pieces d used] at hkey

/-- Characters of words go on with the word that has been begun. -/
theorem tokens_word {run cs : List Char} (hrun : run.getLast?.any isWordChar = true)
    (h : ∀ c ∈ cs, isWordChar c = true) : tokens run (cs.map .other) = ofRun (run ++ cs) := by
  induction cs generalizing run with
  | nil => rw [List.map_nil, List.append_nil, tokens]
  | cons c cs ih =>
    obtain ⟨hc, hcs⟩ := List.forall_mem_cons.mp h
    obtain ⟨l, hlast, hl⟩ := (Option.any_eq_true _ _).mp hrun
    have hgoes : continues run c = true := by simp [continues, hlast, hl, hc]
    rw [List.map_cons, tokens, if_pos hgoes, ih (by simpa using hc) hcs, List.append_assoc]
    rfl

theorem digits_repr (n : Nat) : ∀ c ∈ (Nat.repr n).toList, c.isDigit = true := by
  rw [Nat.repr_eq_ofList_toDigits, String.toList_ofList]
  exact fun c hc => Nat.isDigit_of_mem_toDigits (by decide) (by decide) hc

theorem read_number (n : Nat) : read (Nat.repr n).toList = some [.word (Nat.repr n)] := by
  have hplain : (Nat.repr n).toList.all isPlain = true :=
    List.all_eq_true.mpr fun c hc => isPlain_of_isDigit (digits_repr n c hc)
  have hword {c : Char} (hc : c.isDigit = true) : isWordChar c = true := by
    simp [isWordChar, Char.isAlphanum, hc]
  have hdigits := digits_repr n
  rw [read_plain hplain]
  cases hcs : (Nat.repr n).toList with
  | nil =>
    rw [Nat.repr_eq_ofList_toDigits, String.toList_ofList] at hcs
    exact absurd hcs Nat.toDigits_ne_nil
  | cons c cs =>
    rw [hcs] at hdigits
    obtain ⟨hc, hcs'⟩ := List.forall_mem_cons.mp hdigits
    have hone : tokens [] ((c :: cs).map .other) = tokens [c] (cs.map .other) := by
      simp [tokens, continues, hword hc, ofRun]
    have hall : Nat.repr n = String.ofList (c :: cs) := by rw [← hcs, String.ofList_toList]
    rw [hone, tokens_word (by simpa using hword hc) fun c' hc' => hword (hcs' c' hc'), hall]
    simp [ofRun, hword hc]

end Sql

namespace Query

variable {d : Dialect} {used : Nat}

namespace Load

def fieldTokens (l : Load) (f : String) : List Token :=
  .literal f :: .symbol ',' :: columnTokens l.relation.target f

def objectTokens (d : Dialect) (l : Load) : List Token :=
  match d with
  | .postgres => [.name l.relation.target, .symbol '.', .sign "*"]
  | .sqlite => [.word "json_object", .symbol '('] ++
      (List.intercalate [.symbol ','] (l.fields.map l.fieldTokens) ++ [.symbol ')'])

/-- The item of a loaded relation, the name aside. -/
def valueTokens (d : Dialect) (l : Load) : List Token :=
  match l.relation.kind, d with
  | .belongsTo, .postgres =>
    [.word "to_json", .symbol '('] ++ (l.objectTokens .postgres ++ [.symbol ')'])
  | .belongsTo, .sqlite =>
    [.word "CASE", .word "WHEN"] ++ (columnTokens l.relation.target l.relation.key ++
      ([.word "IS", .word "NULL", .word "THEN", .word "NULL", .word "ELSE"] ++
        (l.objectTokens .sqlite ++ [.word "END"])))
  | .hasMany, d =>
    [.word "COALESCE", .symbol '(', .word (aggregate d), .symbol '('] ++ (l.objectTokens d ++
      ([.symbol ')', .word "FILTER", .symbol '(', .word "WHERE"] ++
        (columnTokens l.relation.target l.relation.foreignKey ++
          [.word "IS", .word "NOT", .word "NULL", .symbol ')', .symbol ',', .literal "[]",
            .symbol ')'])))

def itemTokens (d : Dialect) (l : Load) : List Token :=
  l.valueTokens d ++ [.word "AS", .name l.name]

def joinTokens (table : String) (l : Load) : List Token :=
  [.word "LEFT", .word "JOIN", .name l.relation.target, .word "ON"] ++
    (columnTokens table l.joinKeys.1 ++ (.sign "=" :: columnTokens l.relation.target l.joinKeys.2))

variable (l : Load)

theorem read_fieldPieces (f : String) (used : Nat) :
    read (render d used (l.fieldPieces f)) = some (l.fieldTokens f) := by
  have hliteral : read (render d used [.literal f]) = some [.literal f] := by
    rw [read_render (.of_closes rfl)]
    simp [lexemes, tokens, ofRun]
  exact read_render_divided hliteral divides_comma (read_column l.relation.target f _)

theorem read_objectPieces (used : Nat) :
    read (render d used (l.objectPieces d)) = some (l.objectTokens d) := by
  cases d with
  | postgres =>
    have hstar : scanned ".*" = [.other '.', .other '*'] := scanned_plain rfl
    rw [objectPieces, read_render (.of_closes rfl)]
    simp only [lexemes, hstar]
    rfl
  | sqlite =>
    have hopen (rest : List Char) : read ("json_object(".toList ++ rest) =
        (read rest).map ([.word "json_object", .symbol '('] ++ ·) :=
      read_plain_append rfl (fun _ => rfl) rest
    have hclose : Divides ")" [.symbol ')'] := .of_plain rfl rfl fun _ => rfl
    have hfields : Reads .sqlite used (l.fields.map l.fieldPieces) (l.fields.map l.fieldTokens) :=
      reads_map (fun _ _ => rfl) (fun f _ => l.read_fieldPieces f) used
    exact read_render_text hopen
      (read_render_divided (hfields.list divides_comma) hclose (q := []) read_nil)

theorem divides_emptyArray : Divides " IS NOT NULL), '[]')"
    [.word "IS", .word "NOT", .word "NULL", .symbol ')', .symbol ',', .literal "[]", .symbol ')'] where
  head := rfl
  read rest := by
    have hlead := scan_plain (s := " IS NOT NULL), ".toList) rfl
    have hlast := scan_plain (s := ")".toList) rfl
    have hdetached : Detached (")".toList ++ rest) := detached_cons.mpr (by decide)
    have hliteral := scan_token (q := '\'') rfl "[]".toList hdetached
    have htext : " IS NOT NULL), '[]')".toList ++ rest = " IS NOT NULL), ".toList ++
        (Text.Quoted.token '\'' "[]".toList ++ (")".toList ++ rest)) := rfl
    unfold Sql.read
    rw [htext, hlead, hliteral, hlast, Option.map_map, Option.map_map, Option.map_map, Option.map_map]
    rfl

theorem read_valuePieces (used : Nat) :
    read (render d used (l.valuePieces d)) = some (l.valueTokens d) := by
  have hobject (d : Dialect) (used : Nat) := l.read_objectPieces (d := d) used
  have hcolumn (c : String) (used : Nat) := read_column (d := d) l.relation.target c used
  unfold valuePieces valueTokens
  cases l.relation.kind with
  | belongsTo =>
    cases d with
    | postgres =>
      have hopen (rest : List Char) : read ("to_json(".toList ++ rest) =
          (read rest).map ([.word "to_json", .symbol '('] ++ ·) :=
        read_plain_append rfl (fun _ => rfl) rest
      have hclose : Divides ")" [.symbol ')'] := .of_plain rfl rfl fun _ => rfl
      exact read_render_text hopen (read_render_divided (hobject _ _) hclose (q := []) read_nil)
    | sqlite =>
      have hcase (rest : List Char) : read ("CASE WHEN ".toList ++ rest) =
          (read rest).map ([.word "CASE", .word "WHEN"] ++ ·) :=
        read_plain_append rfl (fun _ => rfl) rest
      have hnull : Divides " IS NULL THEN NULL ELSE "
          [.word "IS", .word "NULL", .word "THEN", .word "NULL", .word "ELSE"] :=
        .of_plain rfl rfl fun _ => rfl
      have hend (used : Nat) : read (render .sqlite used [.text " END"]) = some [.word "END"] :=
        read_plain rfl
      have hvalue := read_render_append (hobject .sqlite used) (apart_of_head rfl _) (hend _)
      have hall := read_render_text hcase (read_render_divided (hcolumn l.relation.key _) hnull hvalue)
      simpa [targetColumn] using hall
  | hasMany =>
    have hopen (rest : List Char) : read (("COALESCE(" ++ aggregate d ++ "(").toList ++ rest) =
        (read rest).map
          ([.word "COALESCE", .symbol '(', .word (aggregate d), .symbol '('] ++ ·) := by
      cases d <;> exact read_plain_append rfl (fun _ => rfl) rest
    have hfilter : Divides ") FILTER (WHERE "
        [.symbol ')', .word "FILTER", .symbol '(', .word "WHERE"] := .of_plain rfl rfl fun _ => rfl
    have hcondition (used : Nat) := read_render_divided (hcolumn l.relation.foreignKey used)
      divides_emptyArray (q := []) read_nil
    have hall := read_render_text hopen (read_render_divided (hobject d used) hfilter (hcondition _))
    simpa [targetColumn] using hall

theorem read_projectionPieces (used : Nat) :
    read (render d used (l.projectionPieces d)) = some (l.itemTokens d) := by
  have has : Divides " AS " [.word "AS"] := .of_plain rfl rfl fun _ => rfl
  rw [projectionPieces_eq]
  exact read_render_divided (l.read_valuePieces used) has (read_render_name l.name)

theorem read_joinPieces (table : String) (used : Nat) :
    read (render d used (l.joinPieces table)) = some (l.joinTokens table) := by
  have hdot : scanned "." = [.other '.'] := scanned_plain rfl
  have hjoin : scanned "LEFT JOIN " = "LEFT JOIN ".toList.map .other := scanned_plain rfl
  have hon : scanned " ON " = " ON ".toList.map .other := scanned_plain rfl
  have hequals : scanned " = " = " = ".toList.map .other := scanned_plain rfl
  rw [read_render (.of_closes rfl)]
  simp only [joinPieces, targetColumn, Sql.column, List.cons_append, List.nil_append, lexemes, hdot,
    hjoin, hon, hequals]
  rfl

end Load

/-- A bound, or none. -/
def countTokens (lead : String) : Option Nat → List Token
  | some n => [.word lead, .word (Nat.repr n)]
  | none => []

theorem read_countPieces {lead word : String} (h : Divides lead [.word word]) (n : Option Nat) :
    read (render d used (countPieces lead n)) = some (countTokens word n) := by
  cases n with
  | none => exact read_nil
  | some n =>
    rw [countPieces, render, render, List.append_nil, String.toList_append, h.read, read_number]
    rfl

namespace Select

/-- An order by one of the own columns. -/
def ownOrder (o : String × Direction) : Key × Direction := (.own o.1, o.2)

def orderTokens (table : String) (o : String × Direction) : List Token :=
  columnTokens table o.1 ++ [.word o.2.sql]

variable {s : Select} {tests : List ((String × Operator) × Value)} {order : List (String × Direction)}

theorem reads_ownOrder (table : String) (order : List (String × Direction)) (used : Nat) :
    Reads d used ((order.map ownOrder).map fun o => o.1.pieces table ++ [.text (" " ++ o.2.sql)])
      (order.map (orderTokens table)) := by
  rw [List.map_map]
  refine reads_map (fun o _ => rfl) (fun o _ used => ?_) used
  have hdir : read (render d used [.text (" " ++ o.2.sql)]) = some [.word o.2.sql] := by
    cases o.2 <;> exact read_plain rfl
  have happart : Apart (render d used [.text (" " ++ o.2.sql)]) := by
    cases o.2 <;> exact apart_of_head rfl _
  exact read_render_append (read_column table o.1 used) happart hdir

/-- The keys that a query with this order groups and orders by. -/
def keyTokens (s : Select) (order : List (String × Direction)) : List Token :=
  clauseTokens [.word "GROUP", .word "BY"] (.symbol ',')
      (s.groupKeys.map fun k => columnTokens k.1 k.2) ++
    clauseTokens [.word "ORDER", .word "BY"] (.symbol ',') (order.map (orderTokens s.table))

def boundTokens (s : Select) : List Token :=
  countTokens "LIMIT" s.limit ++ countTokens "OFFSET" s.offset

/-- A query with these tests on its own columns and this order, up to its bounds. -/
def bodyTokens (d : Dialect) (s : Select) (tests : List (String × Operator))
    (order : List (String × Direction)) : List Token :=
  .word "SELECT" :: (List.intercalate [.symbol ',']
      ([.name s.table, .symbol '.', .sign "*"] :: s.loads.map fun l => l.itemTokens d) ++
    (.word "FROM" :: .name s.table :: ((s.loads.flatMap fun l => l.joinTokens s.table) ++
      (clauseTokens [.word "WHERE"] (.word "AND")
          ((tests.zip (Dml.places d 0 tests.length)).map (Dml.testTokens s.table)) ++
        s.keyTokens order))))

def tokens (d : Dialect) (s : Select) (tests : List (String × Operator))
    (order : List (String × Direction)) : List Token :=
  s.bodyTokens d tests order ++ s.boundTokens

theorem read_after (horder : s.order = order.map ownOrder) (used : Nat) :
    read (render d used s.after) = some (s.keyTokens order ++ s.boundTokens) ∧
      Apart (render d used s.after) := by
  let groups := clause " GROUP BY " ", " (s.groupKeys.map fun k => Sql.column k.1 k.2)
  let sorted := orderPieces s.table (order.map ownOrder)
  let bounds := countPieces " LIMIT " s.limit ++ countPieces " OFFSET " s.offset
  have hby : Divides " ORDER BY " [.word "ORDER", .word "BY"] := .of_plain rfl rfl fun _ => rfl
  have hgroup : Divides " GROUP BY " [.word "GROUP", .word "BY"] := .of_plain rfl rfl fun _ => rfl
  have hcolumns (used : Nat) : Reads d used (s.groupKeys.map fun k => Sql.column k.1 k.2)
      (s.groupKeys.map fun k => columnTokens k.1 k.2) :=
    reads_map (fun _ _ => rfl) (fun k _ => read_column k.1 k.2) used
  have hgroups (used : Nat) := (hcolumns used).clause hgroup divides_comma
  have hsorted (used : Nat) := (reads_ownOrder (d := d) s.table order used).clause hby divides_comma
  have hbounds (used : Nat) : read (render d used bounds) = some s.boundTokens :=
    read_render_append (read_countPieces (.of_plain rfl rfl fun _ => rfl) s.limit)
      (QueryBuilder.apart_count rfl s.offset)
      (read_countPieces (.of_plain rfl rfl fun _ => rfl) s.offset)
  have hcut (used : Nat) : Apart (render d used bounds) :=
    apart_render_append (fun _ => QueryBuilder.apart_count rfl _)
      (fun _ => QueryBuilder.apart_count rfl _) used
  have hends (used : Nat) : Apart (render d used (sorted ++ bounds)) :=
    apart_render_append (fun _ => apart_clause rfl _) hcut used
  have hafter : s.after = groups ++ (sorted ++ bounds) := by
    simp [after, horder, groups, sorted, bounds]
  rw [hafter, keyTokens, List.append_assoc]
  exact ⟨read_render_append (hgroups used) (hends _)
    (read_render_append (hsorted _) (hcut _) (hbounds _)),
    apart_render_append (fun _ => apart_clause rfl _) hends used⟩

theorem read_joins (table : String) (loads : List Load) {q : List Piece} {us : List Token}
    (hq : read (render d used q) = some us) (ha : Apart (render d used q)) :
    read (render d used ((loads.flatMap fun l => .text " " :: l.joinPieces table) ++ q)) =
        some ((loads.flatMap fun l => l.joinTokens table) ++ us) ∧
      Apart (render d used ((loads.flatMap fun l => .text " " :: l.joinPieces table) ++ q)) := by
  have hblank : Divides " " [] := .of_plain rfl rfl fun _ => rfl
  induction loads with
  | nil => exact ⟨hq, ha⟩
  | cons l loads ih =>
    have hjoin := read_render_append (l.read_joinPieces (d := d) table used) ih.2 ih.1
    have hall := read_render_text hblank.read hjoin
    simp only [List.flatMap_cons, List.cons_append, List.append_assoc, List.nil_append] at hall ⊢
    exact ⟨hall, apart_of_head rfl _⟩

/-- Every column of the table, and an item for each relation. -/
theorem read_items (s : Select) : read (render d 0 (separated ", "
    (Selection.all.pieces s.table ++ s.loads.map fun l => l.projectionPieces d))) =
      some (List.intercalate [.symbol ',']
        ([.name s.table, .symbol '.', .sign "*"] :: s.loads.map fun l => l.itemTokens d)) := by
  have hstar : read (render d 0 [.name s.table, .text ".*"]) =
      some [.name s.table, .symbol '.', .sign "*"] := by
    have hdot : scanned ".*" = [.other '.', .other '*'] := scanned_plain rfl
    rw [read_render (.of_closes rfl)]
    simp only [lexemes, hdot]
    rfl
  exact (Reads.cons hstar (reads_map (fun l _ => l.operands_projectionPieces)
    (fun l _ => l.read_projectionPieces) 0)).list divides_comma

/-- A query whose keys are bare is read token by token. -/
theorem read_pieces (hselection : s.selection = .all) (htests : s.conditions = tests.map Dml.condition)
    (horder : s.order = order.map ownOrder) :
    read (render d 0 (s.pieces d)) = some (s.tokens d (tests.map Prod.fst) order) := by
  let items := separated ", "
    (Selection.all.pieces s.table ++ s.loads.map fun l => l.projectionPieces d)
  let joins := s.loads.flatMap fun l => .text " " :: l.joinPieces s.table
  let filters := wherePieces s.table (tests.map Dml.condition)
  have hfrom : Divides " FROM " [.word "FROM"] := .of_plain rfl rfl fun _ => rfl
  have hafter (used : Nat) := read_after (d := d) horder used
  have hwhere : read (render d 0 filters) = some (clauseTokens [.word "WHERE"] (.word "AND")
      (((tests.map Prod.fst).zip (Dml.places d 0 tests.length)).map (Dml.testTokens s.table))) :=
    Dml.read_where 0 tests
  have hfiltered := read_render_append hwhere (hafter _).2 (hafter _).1
  have hjoined := read_joins (d := d) s.table s.loads hfiltered
    (apart_render_append (fun _ => Dml.apart_where _ _) (fun used => (hafter used).2) 0)
  have hname : read (render d 0 [.name s.table]) = some [.name s.table] := read_render_name s.table
  have hsource := read_render_append hname hjoined.2 hjoined.1
  have hnone : operands items = [] := by
    rw [operands_separated, List.flatMap_eq_nil_iff]
    exact List.forall_mem_cons.mpr ⟨rfl, List.forall_mem_map.mpr fun l _ => l.operands_projectionPieces⟩
  have hlisted := read_render_divided (read_items s) hfrom (by rw [hnone]; exact hsource)
  have hpieces : s.pieces d = .text "SELECT " :: (items ++ .text " FROM " ::
      ([.name s.table] ++ (joins ++ (filters ++ s.after)))) := by
    simp [pieces_eq, before, hselection, htests, items, joins, filters]
  rw [hpieces, read_render_text read_select_append hlisted]
  simp [tokens, bodyTokens]

/-- A query without conditions and without an order. -/
theorem read_plain_pieces (hselection : s.selection = .all) (htests : s.conditions = [])
    (horder : s.order = []) : read (render d 0 (s.pieces d)) = some (s.tokens d [] []) := by
  have hnone : s.conditions = List.map Dml.condition [] := htests
  exact read_pieces hselection hnone horder

end Select

theorem exists_tests {cs : List Condition} {A : String → Prop} (h : ∀ c ∈ cs, c.key.Within A) :
    ∃ tests : List ((String × Operator) × Value), tests.map Dml.condition = cs := by
  have hrange : cs ∈ Set.range (List.map Dml.condition) := by
    rw [Set.range_list_map]
    intro c hc
    obtain ⟨column, hkey, -⟩ := h c hc
    exact ⟨((column, c.operator), c.operand), by rw [Dml.condition, ← hkey]⟩
  exact hrange

theorem exists_order {order : List (Key × Direction)} {A : String → Prop}
    (h : ∀ o ∈ order, o.1.Within A) : ∃ own : List (String × Direction), own.map Select.ownOrder = order := by
  have hrange : order ∈ Set.range (List.map Select.ownOrder) := by
    rw [Set.range_list_map]
    intro o ho
    obtain ⟨column, hkey, -⟩ := h o ho
    exact ⟨(column, o.2), by rw [Select.ownOrder, ← hkey]⟩
  exact hrange

end Query

open Query

namespace QueryBuilder

variable {A : String → Prop} {b : QueryBuilder} {d : Dialect} {stmt : Statement}

/-- A compiled query whose keys are bare is read token by token. -/
theorem read_query (h : b.Within A d) (hselect : b.operation = .select) (hc : b.compile = .ok stmt) :
    ∃ tests order, read stmt.sql.toList = some (b.toSelect.tokens d tests order) := by
  obtain ⟨c, hcommand, hsql⟩ := exists_command hc
  obtain ⟨tests, htests⟩ := exists_tests h.conditions
  obtain ⟨order, horder⟩ := exists_order h.order
  have hquery : c = .select b.toSelect := by
    simpa [command, hselect, eq_comm] using hcommand
  rw [hsql, h.dialect, hquery]
  exact ⟨_, _, Select.read_pieces h.selection htests.symm horder.symm⟩

end QueryBuilder
end Relata
