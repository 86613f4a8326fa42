import Relata.Proofs.Binding
import Relata.Proofs.Clauses
import Relata.Proofs.Interleaving

/-!
What a query that loads relations is put together of: one item and one join for each relation, and the
keys that rows are grouped by. Main statement: in whatever order and however often a chain asks for
relations, each stands once, in the order of the first requests, with its own item and its own join;
rows are grouped just if an array is loaded; and asking once more changes nothing.
-/
namespace Relata

open Sql

namespace Sql

variable {p q : List Piece}

theorem textOf_append (h : operands p = []) : textOf (p ++ q) = textOf p ++ textOf q := by
  have htext : textOf (p ++ q) = textFrom .sqlite 0 (p ++ q) := rfl
  rw [htext, textFrom_append, h]
  rfl

@[simp] theorem textOf_text (s : String) (p : List Piece) : textOf (.text s :: p) = s ++ textOf p :=
  textFrom_text .sqlite 0 s p

@[simp] theorem textOf_name (n : String) (p : List Piece) :
    textOf (.name n :: p) = quoteIdent n ++ textOf p := textFrom_name .sqlite 0 n p

@[simp] theorem textOf_nil : textOf [] = "" := rfl

theorem textOf_separated (sep : String) {items : List (List Piece)} (h : ∀ p ∈ items, operands p = []) :
    textOf (separated sep items) = Text.joinWith sep (items.map textOf) := by
  induction items with
  | nil => rfl
  | cons p items ih =>
    obtain ⟨hp, hitems⟩ := List.forall_mem_cons.mp h
    cases items with
    | nil => rfl
    | cons q items =>
      rw [separated, textOf_append hp, textOf_text, ih hitems]
      simp [Text.joinWith, String.append_assoc]

end Sql

namespace Query

theorem firsts_pairwise {α : Type} [BEq α] [LawfulBEq α] (seen l : List α) :
    (firsts seen l).Pairwise fun x y => l.idxOf x < l.idxOf y := by
  induction l generalizing seen with
  | nil => exact .nil
  | cons z l ih =>
    have hlater {x : α} (hx : z ≠ x) : (z :: l).idxOf x = l.idxOf x + 1 := List.idxOf_cons_ne l hx
    rw [firsts]
    split
    next hz =>
      refine (ih seen).imp_of_mem fun {x y} hx hy hlt => ?_
      have hne {x : α} (hx : x ∈ firsts seen l) : z ≠ x := by
        rintro rfl
        exact (mem_firsts.mp hx).2 (List.contains_iff_mem.mp hz)
      rw [hlater (hne hx), hlater (hne hy)]
      omega
    next =>
      have hne {x : α} (hx : x ∈ firsts (seen ++ [z]) l) : z ≠ x := by
        rintro rfl
        exact (mem_firsts.mp hx).2 (by simp)
      refine List.pairwise_cons.mpr ⟨fun x hx => ?_, (ih _).imp_of_mem fun {x y} hx hy hlt => ?_⟩
      · rw [hlater (hne hx), List.idxOf_cons_self]
        omega
      · rw [hlater (hne hx), hlater (hne hy)]
        omega

theorem nodup_firsts {α : Type} [BEq α] [LawfulBEq α] (seen l : List α) : (firsts seen l).Nodup :=
  (firsts_pairwise seen l).imp fun {x y} hlt heq => by
    rw [heq] at hlt
    exact Nat.lt_irrefl _ hlt

/-- How a column is written, with its table. -/
def columnText (q : String × String) : String := (Key.own q.2).text q.1

theorem columnText_injective : Function.Injective columnText := by
  rintro ⟨t, c⟩ ⟨t', c'⟩ h
  have hread := Key.read_own t c
  have htext : (Key.own c).text t = (Key.own c').text t' := h
  rw [htext, Key.read_own t' c'] at hread
  simp only [Option.some.injEq, List.cons.injEq, Token.name.injEq, true_and, and_true] at hread
  exact Prod.ext hread.1.symm hread.2.symm

namespace Load

/-- The item of a loaded relation, the name aside. -/
def valuePieces (d : Dialect) (l : Load) : List Piece :=
  match l.relation.kind, d with
  | .belongsTo, .postgres => [.text "to_json("] ++ l.objectPieces .postgres ++ [.text ")"]
  | .belongsTo, .sqlite =>
    [.text "CASE WHEN "] ++ l.targetColumn l.relation.key ++ [.text " IS NULL THEN NULL ELSE "] ++
      l.objectPieces .sqlite ++ [.text " END"]
  | .hasMany, d =>
    [.text ("COALESCE(" ++ aggregate d ++ "(")] ++ l.objectPieces d ++
      [.text ") FILTER (WHERE "] ++ l.targetColumn l.relation.foreignKey ++
      [.text " IS NOT NULL), '[]')"]

def valueText (d : Dialect) (l : Load) : String := textOf (l.valuePieces d)

theorem projectionPieces_eq (d : Dialect) (l : Load) :
    l.projectionPieces d = l.valuePieces d ++ [.text " AS ", .name l.name] := rfl

theorem textOf_projectionPieces (d : Dialect) (l : Load) :
    textOf (l.projectionPieces d) = l.valueText d ++ " AS " ++ quoteIdent l.name := by
  have hnone : operands (l.valuePieces d) = [] := by
    have hall := l.operands_projectionPieces (d := d)
    rw [projectionPieces_eq, operands_append] at hall
    exact (List.append_eq_nil_iff.mp hall).1
  rw [projectionPieces_eq, textOf_append hnone, textOf_text, textOf_name, textOf_nil, valueText]
  simp only [String.append_assoc, String.append_empty]

theorem textOf_joinPieces (table : String) (l : Load) : textOf (l.joinPieces table) =
    "LEFT JOIN " ++ quoteIdent l.relation.target ++ " ON " ++ columnText (table, l.joinKeys.1) ++
      " = " ++ columnText (l.relation.target, l.joinKeys.2) := by
  simp [joinPieces, targetColumn, Sql.column, columnText, Key.text, String.append_assoc]

end Load

namespace Select

variable {s : Select} {d : Dialect}

/-- A clause that lists texts, or nothing if there are none. -/
def listText (lead : String) (items : List String) : String :=
  if items.isEmpty then "" else lead ++ Text.joinWith ", " items

/-- How a query is ordered and cut. -/
def endText (s : Select) : String :=
  listText " ORDER BY " (s.order.map fun o => o.1.text s.table ++ " " ++ o.2.sql) ++
    s.limit.elim "" (fun n => " LIMIT " ++ Nat.repr n) ++
    s.offset.elim "" fun n => " OFFSET " ++ Nat.repr n

theorem textOf_clause (lead : String) {items : List (List Piece)} (h : ∀ p ∈ items, operands p = []) :
    textOf (clause lead ", " items) = listText lead (items.map textOf) := by
  cases items with
  | nil => rfl
  | cons p items =>
    have hclause : clause lead ", " (p :: items) = .text lead :: separated ", " (p :: items) := rfl
    rw [hclause, textOf_text, textOf_separated ", " h]
    rfl

/-- The items that a query lists of itself. -/
def itemTexts (s : Select) : List String :=
  match s.selection with
  | .all => [quoteIdent s.table ++ ".*"]
  | .columns texts => texts

/-- The item of each loaded relation. -/
def projectionTexts (d : Dialect) (s : Select) : List String :=
  s.loads.map fun l => textOf (l.projectionPieces d)

/-- The join of each loaded relation. -/
def joinTexts (s : Select) : List String := s.loads.map fun l => textOf (l.joinPieces s.table)

def groupTexts (s : Select) : List String := s.groupKeys.map columnText

theorem textOf_before (s : Select) : textOf (s.before d) =
    "SELECT " ++ Text.joinWith ", " (s.itemTexts ++ s.projectionTexts d) ++ " " ++
      Text.joinWith " " (("FROM " ++ quoteIdent s.table) :: s.joinTexts) := by
  have hitems : (s.selection.pieces s.table ++ s.loads.map fun l => l.projectionPieces d).map textOf =
      s.itemTexts ++ s.projectionTexts d := by
    rw [List.map_append, List.map_map]
    refine congrArg₂ (· ++ ·) ?_ rfl
    unfold itemTexts
    cases s.selection with
    | all => simp [Selection.pieces]
    | columns texts => simp [Selection.pieces, Function.comp_def]
  have hnone : ∀ p ∈ s.selection.pieces s.table ++ s.loads.map fun l => l.projectionPieces d,
      operands p = [] := by
    refine List.forall_mem_append.mpr ⟨?_, List.forall_mem_map.mpr fun l _ => l.operands_projectionPieces⟩
    cases s.selection with
    | all => simp [Selection.pieces, operands]
    | columns texts => simp [Selection.pieces, operands]
  have hjoins (ls : List Load) (lead : String) :
      lead ++ textOf (ls.flatMap fun l => .text " " :: l.joinPieces s.table) =
        Text.joinWith " " (lead :: ls.map fun l => textOf (l.joinPieces s.table)) := by
    induction ls generalizing lead with
    | nil => simp
    | cons l ls ih =>
      have hl : operands (.text " " :: l.joinPieces s.table) = [] := rfl
      rw [List.flatMap_cons, textOf_append hl, textOf_text, List.map_cons, Text.joinWith, ← ih]
      simp only [String.append_assoc]
  have hlist : operands (separated ", "
      (s.selection.pieces s.table ++ s.loads.map fun l => l.projectionPieces d)) = [] := by
    rw [operands_separated]
    exact List.flatMap_eq_nil_iff.mpr hnone
  have hfrom : " FROM " = " " ++ "FROM " := rfl
  rw [joinTexts, ← hjoins, ← hitems, ← textOf_separated ", " hnone, before]
  simp only [List.append_assoc, List.cons_append, List.nil_append, textOf_text, textOf_append hlist,
    textOf_name, hfrom, String.append_assoc]

theorem textOf_after (s : Select) :
    textOf s.after = listText " GROUP BY " s.groupTexts ++ s.endText := by
  have hgroups : (s.groupKeys.map fun k => Sql.column k.1 k.2).map textOf = s.groupTexts := by
    rw [List.map_map]
    exact List.map_congr_left fun k _ => Key.textFrom_pieces (d := .sqlite) (.own k.2) 0
  have hplain (k : String × String) : operands (Sql.column k.1 k.2) = [] := rfl
  have horder (o : Key × Direction) :
      operands (o.1.pieces s.table ++ [.text (" " ++ o.2.sql)]) = [] := by simp [operands]
  have hitem (o : Key × Direction) :
      textOf (o.1.pieces s.table ++ [.text (" " ++ o.2.sql)]) = o.1.text s.table ++ " " ++ o.2.sql := by
    have hkey : textOf (o.1.pieces s.table) = o.1.text s.table := Key.textFrom_pieces (d := .sqlite) o.1 0
    rw [textOf_append (Key.operands_pieces o.1), hkey]
    simp [String.append_assoc]
  have hcount (lead : String) (n : Option Nat) (p : List Piece) :
      textOf (countPieces lead n ++ p) = n.elim "" (fun n => lead ++ Nat.repr n) ++ textOf p := by
    cases n with
    | none => simp [countPieces]
    | some n => simp [countPieces]
  have hlast := hcount " OFFSET " s.offset []
  rw [List.append_nil, textOf_nil, String.append_empty] at hlast
  have hnone : operands (clause " GROUP BY " ", " (s.groupKeys.map fun k => Sql.column k.1 k.2)) = [] := by
    simp [List.flatMap_map, hplain]
  have hnone' : operands (orderPieces s.table s.order) = [] := by
    simp [orderPieces, List.flatMap_map, horder]
  rw [after, List.append_assoc, List.append_assoc, textOf_append hnone, textOf_append hnone', hcount,
    hlast, textOf_clause _ (List.forall_mem_map.mpr fun k _ => hplain k), hgroups, orderPieces,
    textOf_clause _ (List.forall_mem_map.mpr fun o _ => horder o), List.map_map, endText]
  simp only [Function.comp_def, hitem, String.append_assoc]

/-- A query is put together of its own items, those of the relations, the joins and the keys. -/
theorem sqlText_eq (s : Select) : s.sqlText d =
    "SELECT " ++ Text.joinWith ", " (s.itemTexts ++ s.projectionTexts d) ++ " " ++
      Text.joinWith " " (("FROM " ++ quoteIdent s.table) :: s.joinTexts) ++
      whereText d s.table 0 (s.conditions.map Condition.comparison) ++
      listText " GROUP BY " s.groupTexts ++ s.endText := by
  rw [sqlText, textOf_before, textOf_after]
  simp only [String.append_assoc]

/-- Rows are grouped just if an array is loaded. -/
theorem groupKeys_ne_nil : s.groupKeys ≠ [] ↔ ∃ l ∈ s.loads, l.relation.kind = .hasMany := by
  have harrays : s.arrayKeys = [] ↔ ∀ l ∈ s.loads, l.relation.kind ≠ .hasMany := by
    simp [arrayKeys, List.filter_eq_nil_iff]
  unfold groupKeys
  split
  next hempty =>
    have hnone := harrays.mp (List.isEmpty_iff.mp hempty)
    simpa using hnone
  next hsome =>
    obtain ⟨k, hk⟩ := List.exists_mem_of_ne_nil s.arrayKeys (by simpa using hsome)
    have hmem : k ∈ firsts [] (s.arrayKeys ++ s.objectKeys) :=
      mem_firsts.mpr ⟨List.mem_append_left _ hk, List.not_mem_nil⟩
    have hany := mt harrays.mpr (by simpa using hsome)
    push Not at hany
    exact iff_of_true (List.ne_nil_of_mem hmem) hany

/-- The keys of the table that the arrays belong to, and the keys that single rows are found by. -/
theorem mem_groupKeys {k : String × String} : k ∈ s.groupKeys ↔
    (∃ l ∈ s.loads, l.relation.kind = .hasMany) ∧
      ((∃ l ∈ s.loads, l.relation.kind = .hasMany ∧ k = (s.table, s.primaryKey.getD l.relation.key)) ∨
        ∃ l ∈ s.loads, l.relation.kind = .belongsTo ∧ k = (l.relation.target, l.relation.key)) := by
  have hmem : k ∈ s.arrayKeys ++ s.objectKeys ↔
      (∃ l ∈ s.loads, l.relation.kind = .hasMany ∧ k = (s.table, s.primaryKey.getD l.relation.key)) ∨
        ∃ l ∈ s.loads, l.relation.kind = .belongsTo ∧ k = (l.relation.target, l.relation.key) := by
    simp [arrayKeys, objectKeys, and_assoc, eq_comm]
  rw [← groupKeys_ne_nil, ← hmem]
  constructor
  · intro hk
    refine ⟨List.ne_nil_of_mem hk, ?_⟩
    unfold groupKeys at hk
    split at hk
    · cases hk
    · exact (mem_firsts.mp hk).1
  · rintro ⟨hne, hk⟩
    unfold groupKeys at hne ⊢
    split at hne
    · exact absurd rfl hne
    next hsome =>
      rw [if_neg hsome]
      exact mem_firsts.mpr ⟨hk, List.not_mem_nil⟩

theorem nodup_groupTexts (s : Select) : s.groupTexts.Nodup := by
  have hnodup : s.groupKeys.Nodup := by
    unfold groupKeys
    split
    · exact List.nodup_nil
    · exact nodup_firsts [] _
  exact hnodup.map columnText_injective

end Select
end Query

open Query

theorem BuildStep.mem_loaded {steps : List BuildStep} {name : String} :
    name ∈ steps.filterMap loaded? ↔ .load name ∈ steps := by
  refine List.mem_filterMap.trans ⟨fun ⟨s, hs, heq⟩ => ?_, fun hs => ⟨_, hs, rfl⟩⟩
  cases s with
  | load => cases heq; exact hs
  | _ => cases heq

namespace QueryBuilder

variable {t : Table} {d : Dialect} {b : QueryBuilder} {steps : List BuildStep} {name : String}

theorem applyAll_append (b : QueryBuilder) (steps rest : List BuildStep) :
    BuildStep.applyAll b (steps ++ rest) =
      (BuildStep.applyAll b steps).bind fun b' => BuildStep.applyAll b' rest := by
  induction steps generalizing b with
  | nil => rfl
  | cons s steps ih =>
    rw [List.cons_append, BuildStep.applyAll, BuildStep.applyAll]
    cases s.apply b with
    | error e => rfl
    | ok b₁ => exact ih b₁

/-- The relations that any chain loads: those that it asks for, each once, in the order of the first
requests. -/
theorem loads_of_applyAll (hb : BuildStep.applyAll (ofTable t d) steps = .ok b) :
    b.loads.map Load.name = firsts [] (steps.filterMap BuildStep.loaded?) ∧
      ∀ l ∈ b.loads, l.IsDeclared t d (steps.filterMap BuildStep.schema?) := by
  -- only steps of this part matter, and they are steps of a reading chain
  let loading := steps.filter fun s => s.kind.part = .loads
  have hreading : ∀ s ∈ loading, s.reads = true := by
    intro s hs
    have hpart : s.kind.part = .loads := of_decide_eq_true (List.mem_filter.mp hs).2
    cases s <;> first | rfl | cases hpart
  have hloaded : loading.filterMap BuildStep.loaded? = steps.filterMap BuildStep.loaded? := by
    rw [List.filterMap_filter]
    congr 1
    funext s
    cases s <;> rfl
  have hgiven : loading.filterMap BuildStep.schema? = steps.filterMap BuildStep.schema? := by
    rw [List.filterMap_filter]
    congr 1
    funext s
    cases s <;> rfl
  have hreads := applyAll_reads (ofTable_reads t d) hreading (applyAll_filter .loads hb)
  rw [← hloaded, ← hgiven]
  exact ⟨hreads.loads, hreads.declared⟩

theorem load_loaded (hname : name ∈ b.loads.map Load.name)
    (hdeclared : ∀ l ∈ b.loads, b.table.relations.get? l.name = some l.relation) :
    b.load name = .ok b := by
  obtain ⟨l, hl, rfl⟩ := List.mem_map.mp hname
  have hany : (b.loads.any fun l' => l'.name == l.name) = true :=
    List.any_eq_true.mpr ⟨l, hl, beq_self_eq_true _⟩
  unfold load
  rw [hdeclared l hl]
  dsimp only
  rw [if_pos hany]

/-- Each relation that is asked for is loaded once, in the order of the first requests, and a compiled
query has for it one item under its name and one join with its target. Rows are grouped just if an
array is loaded: by the primary key of the table, or else by the key that each array is found by, and
by the key of each single row, and by none of them twice. To ask again for a relation changes nothing,
whatever has been done since the first request and whatever is done afterwards. -/
theorem compile_loads (hb : BuildStep.applyAll (ofTable t d) steps = .ok b) :
    let requests := steps.filterMap BuildStep.loaded?
    (∀ name, name ∈ b.loads.map Load.name ↔ .load name ∈ steps) ∧
      (b.loads.map Load.name).Nodup ∧
      (b.loads.map Load.name).Pairwise (fun m n => requests.idxOf m < requests.idxOf n) ∧
      (∀ l ∈ b.loads, l.IsDeclared t d (steps.filterMap BuildStep.schema?)) ∧
      (BuildStep.operation steps = .select → ∃ groups,
        (b.compile.toOption.map Statement.sql =
          some ("SELECT " ++ Text.joinWith ", "
              (b.toSelect.itemTexts ++ b.loads.map fun l => l.valueText d ++ " AS " ++ quoteIdent l.name) ++
            " " ++ Text.joinWith " " (("FROM " ++ quoteIdent t.name) ::
              b.loads.map fun l => "LEFT JOIN " ++ quoteIdent l.relation.target ++ " ON " ++
                columnText (t.name, l.joinKeys.1) ++ " = " ++
                columnText (l.relation.target, l.joinKeys.2)) ++
            whereText d t.name 0 ((steps.flatMap BuildStep.conditions).map Condition.comparison) ++
            Select.listText " GROUP BY " (groups.map columnText) ++ b.toSelect.endText)) ∧
        (groups ≠ [] ↔ ∃ l ∈ b.loads, l.relation.kind = .hasMany) ∧
        (groups.map columnText).Nodup ∧
        ∀ k, k ∈ groups ↔ (∃ l ∈ b.loads, l.relation.kind = .hasMany) ∧
          ((∃ l ∈ b.loads, l.relation.kind = .hasMany ∧
              k = (t.name, t.primaryKey?.getD l.relation.key)) ∨
            ∃ l ∈ b.loads, l.relation.kind = .belongsTo ∧ k = (l.relation.target, l.relation.key))) ∧
      ∀ name, .load name ∈ steps → ∀ rest,
        BuildStep.applyAll (ofTable t d) (steps ++ .load name :: rest) =
          BuildStep.applyAll (ofTable t d) (steps ++ rest) := by
  intro requests
  obtain ⟨hloads, hdeclared⟩ := loads_of_applyAll hb
  have hfollows : b.Follows t d steps := applyAll_follows (ofTable_follows t d) hb
  have hmem (name : String) : name ∈ b.loads.map Load.name ↔ .load name ∈ steps := by
    rw [hloads, mem_firsts, BuildStep.mem_loaded]
    simp
  refine ⟨hmem, hloads ▸ nodup_firsts [] _, hloads ▸ firsts_pairwise [] _, hdeclared, fun hselect => ?_,
    fun name hname rest => ?_⟩
  · have hoperation : b.operation = .select := hfollows.operation.trans hselect
    have htable : b.toSelect.table = t.name := congrArg Table.name hfollows.table
    have hprimary : b.toSelect.primaryKey = t.primaryKey? := congrArg Table.primaryKey? hfollows.table
    refine ⟨b.toSelect.groupKeys, ?_, Select.groupKeys_ne_nil, b.toSelect.nodup_groupTexts, fun k => ?_⟩
    · have hsql : b.sqlText = b.toSelect.sqlText d := by
        unfold sqlText
        rw [hoperation, hfollows.dialect]
      have hconditions : b.toSelect.conditions = steps.flatMap BuildStep.conditions := hfollows.conditions
      rw [compile_eq, if_neg (by simp [hoperation]), hsql, Select.sqlText_eq, hconditions,
        Select.projectionTexts, Select.joinTexts, htable]
      simp only [Load.textOf_projectionPieces, Load.textOf_joinPieces]
      rfl
    · rw [Select.mem_groupKeys, htable, hprimary]
      rfl
  · have hagain : b.load name = .ok b :=
      load_loaded ((hmem name).mpr hname) fun l hl => hfollows.table ▸ (hdeclared l hl).1
    have hstep : BuildStep.applyAll b (.load name :: rest) = BuildStep.applyAll b rest := by
      rw [BuildStep.applyAll, BuildStep.apply, hagain]
    rw [applyAll_append, applyAll_append, hb]
    exact hstep

/-- An author and an array of comments, each asked for twice, the second time with no registry that
has them. -/
theorem compile_loads_post :
    let users := (Table.ofName "users").column "id" (Column.ofType .integer).primaryKey
    let comments := (Table.ofName "comments").column "post_id" (.ofType .integer)
    let posts := (((Table.ofName "posts").column "id" (Column.ofType .integer).primaryKey).relation
      "author" (.belongsTo "users" "author_id")).relation "comments" (.hasMany "comments" "post_id")
    let steps : List BuildStep := [.schema (.ofList [users, posts, comments]), .load "comments",
      .delete, .load "author", .schema .empty, .load "comments", .select ["title"], .limit 5]
    ∃ b, BuildStep.applyAll (ofTable posts .sqlite) steps = .ok b ∧
      b.loads.map Load.name = ["comments", "author"] ∧
      b.toSelect.groupKeys = [("posts", "id"), ("users", "id")] ∧
      BuildStep.applyAll (ofTable posts .sqlite) (steps ++ [.load "author", .offset 1]) =
        BuildStep.applyAll (ofTable posts .sqlite) (steps ++ [.offset 1]) := by
  intro users comments posts steps
  let l₁ : Load := ⟨"comments", .hasMany "comments" "post_id", ["post_id"]⟩
  let l₂ : Load := ⟨"author", .belongsTo "users" "author_id", ["id"]⟩
  let b : QueryBuilder := { ofTable posts .sqlite with
    schema := some .empty, loads := [l₁, l₂], selection := .columns ["title"], limit := some 5 }
  have hb : BuildStep.applyAll (ofTable posts .sqlite) steps = .ok b := rfl
  obtain ⟨-, -, -, -, -, hagain⟩ := compile_loads hb
  exact ⟨b, hb, rfl, by decide, hagain "author" (by simp [steps]) [.offset 1]⟩

end QueryBuilder
end Relata
