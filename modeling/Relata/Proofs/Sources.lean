import Relata.Proofs.Grammar

/-!
What the qualified columns of a query mean. Main statement: a query takes rows from its table and from
the target of each loaded relation, each under its own name, and qualifies columns with just these
names; so every column is that of one source just if no two of these tables are the same.
-/
namespace Relata

open Sql Query

namespace Sql

variable {f : Token → Token → Option String} {xs ys ts : List Token} {A : String → Prop}

/-- What is found in any two tokens that stand side by side. -/
def adjacent (f : Token → Token → Option String) : List Token → List String
  | t :: u :: rest => (f t u).toList ++ adjacent f (u :: rest)
  | _ => []

theorem adjacent_cons (t : Token) (ts : List Token) :
    adjacent f (t :: ts) = (ts.head?.bind (f t)).toList ++ adjacent f ts := by
  cases ts <;> rfl

theorem adjacent_append (h : ∀ t ∈ xs, ∀ u ∈ ys.head?, f t u = none) :
    adjacent f (xs ++ ys) = adjacent f xs ++ adjacent f ys := by
  induction xs with
  | nil => rfl
  | cons t xs ih =>
    obtain ⟨ht, hxs⟩ := List.forall_mem_cons.mp h
    rw [List.cons_append, adjacent_cons, adjacent_cons, ih hxs, List.append_assoc]
    cases xs with
    | nil =>
      have hnone : ys.head?.bind (f t) = none := Option.bind_eq_none_iff.mpr fun u hu => ht u hu
      rw [List.nil_append, hnone]
      rfl
    | cons u xs => rfl

theorem adjacent_eq_nil (h : ∀ t ∈ xs, ∀ u, f t u = none) : adjacent f xs = [] := by
  induction xs with
  | nil => rfl
  | cons t xs ih =>
    obtain ⟨ht, hxs⟩ := List.forall_mem_cons.mp h
    have hnone : xs.head?.bind (f t) = none := Option.bind_eq_none_iff.mpr fun u _ => ht u
    rw [adjacent_cons, hnone, ih hxs]
    rfl

/-- What is found in a part is found in the whole. -/
theorem adjacent_subset (h : xs <:+: ts) : adjacent f xs ⊆ adjacent f ts := by
  have hbefore (xs ys : List Token) : adjacent f ys ⊆ adjacent f (xs ++ ys) := by
    induction xs with
    | nil => exact List.Subset.refl _
    | cons t xs ih =>
      rw [List.cons_append, adjacent_cons]
      exact List.subset_append_of_subset_right _ ih
  have hbehind (xs ys : List Token) : adjacent f xs ⊆ adjacent f (xs ++ ys) := by
    induction xs with
    | nil => exact List.nil_subset _
    | cons t xs ih =>
      rw [List.cons_append, adjacent_cons, adjacent_cons]
      cases xs with
      | nil => exact List.nil_subset _
      | cons u xs =>
        exact List.append_subset.mpr
          ⟨List.subset_append_left _ _, List.subset_append_of_subset_right _ ih⟩
  obtain ⟨before, behind, rfl⟩ := h
  exact List.Subset.trans (hbefore before xs) (hbehind _ behind)

def source? : Token → Token → Option String
  | .word w, .name n => if w ∈ Grammar.sourceWords then some n else none
  | _, _ => none

/-- The names that rows are taken from. -/
def sources : List Token → List String := adjacent source?

def qualifier? : Token → Token → Option String
  | .name n, .symbol '.' => some n
  | _, _ => none

/-- The names that columns are qualified with. -/
def qualifiers : List Token → List String := adjacent qualifier?

theorem source?_eq_none {t : Token} (h : ∀ w ∈ Grammar.sourceWords, t ≠ .word w) (u : Token) :
    source? t u = none := by
  cases t with
  | word w =>
    have hw : w ∉ Grammar.sourceWords := fun hmem => h w hmem rfl
    cases u <;> simp [source?, hw]
  | _ => rfl

/-- Without a word in front of it no name is a source. -/
theorem sources_append (h : ∀ w ∈ Grammar.sourceWords, Token.word w ∉ xs) (ys : List Token) :
    sources (xs ++ ys) = sources ys := by
  have hnone : ∀ t ∈ xs, ∀ u, source? t u = none := fun t ht =>
    source?_eq_none fun w hw heq => h w hw (heq ▸ ht)
  have hsplit : sources (xs ++ ys) = sources xs ++ sources ys :=
    adjacent_append fun t ht u _ => hnone t ht u
  rw [hsplit, sources, adjacent_eq_nil hnone]
  rfl

/-- A fragment that qualifies columns with names that satisfy `A` only. -/
structure Refers (A : String → Prop) (ts : List Token) : Prop where
  head : ts.head? ≠ some (.symbol '.')
  names : ∀ n ∈ qualifiers ts, A n

namespace Refers

theorem fixed (hh : ts.head? ≠ some (.symbol '.')) (hq : qualifiers ts = []) : Refers A ts :=
  ⟨hh, by simp [hq]⟩

theorem append (hx : Refers A xs) (hy : Refers A ys) : Refers A (xs ++ ys) where
  head := by
    cases xs with
    | nil => exact hy.head
    | cons t xs => exact hx.head
  names := by
    have hseam : ∀ t ∈ xs, ∀ u ∈ ys.head?, qualifier? t u = none := by
      intro t _ u hu
      have hdot : u ≠ .symbol '.' := fun heq => hy.head (heq ▸ hu)
      unfold qualifier?
      split
      · exact absurd rfl hdot
      · rfl
    have hsplit : qualifiers (xs ++ ys) = qualifiers xs ++ qualifiers ys := adjacent_append hseam
    rw [hsplit]
    exact List.forall_mem_append.mpr ⟨hx.names, hy.names⟩

theorem intercalate {sep : Token} (hsep : Refers A [sep]) {parts : List (List Token)}
    (h : ∀ p ∈ parts, Refers A p) : Refers A (List.intercalate [sep] parts) := by
  induction parts with
  | nil => exact .fixed (by simp) rfl
  | cons p parts ih =>
    obtain ⟨hp, hparts⟩ := List.forall_mem_cons.mp h
    cases parts with
    | nil => simpa using hp
    | cons q parts =>
      rw [List.intercalate_cons_cons]
      exact (hp.append hsep).append (ih hparts)

theorem clause {lead : List Token} {sep : Token} (hlead : Refers A lead) (hsep : Refers A [sep])
    {parts : List (List Token)} (h : ∀ p ∈ parts, Refers A p) :
    Refers A (clauseTokens lead sep parts) := by
  unfold clauseTokens
  split
  · exact .fixed (by simp) rfl
  · exact hlead.append (intercalate hsep h)

theorem column {table : String} (h : A table) (column : String) :
    Refers A (columnTokens table column) where
  head := by simp [columnTokens]
  names := by simpa [columnTokens, qualifiers, adjacent, qualifier?] using h

theorem star {table : String} (h : A table) : Refers A [.name table, .symbol '.', .sign "*"] where
  head := by simp
  names := by simpa [qualifiers, adjacent, qualifier?] using h

theorem flatMap {ι : Type} {items : List ι} {g : ι → List Token} (h : ∀ i ∈ items, Refers A (g i)) :
    Refers A (items.flatMap g) := by
  induction items with
  | nil => exact .fixed (by simp) rfl
  | cons i items ih =>
    obtain ⟨hi, hitems⟩ := List.forall_mem_cons.mp h
    rw [List.flatMap_cons]
    exact hi.append (ih hitems)

end Refers
end Sql

namespace Query

variable {d : Dialect} {A : String → Prop}

namespace Load

variable {l : Load} (h : A l.relation.target)

include h

theorem objectTokens_refers : Refers A (l.objectTokens d) := by
  cases d with
  | postgres => exact .star h
  | sqlite =>
    have hfield (f : String) : Refers A (l.fieldTokens f) :=
      have hname : Refers A [.literal f, .symbol ','] := .fixed (by simp) rfl
      hname.append (.column h f)
    exact Refers.append (.fixed (by simp) rfl) (.append (.intercalate (.fixed (by simp) rfl)
      (List.forall_mem_map.mpr fun f _ => hfield f)) (.fixed (by simp) rfl))

theorem itemTokens_refers : Refers A (l.itemTokens d) := by
  have hobject (d : Dialect) : Refers A (l.objectTokens d) := objectTokens_refers h
  have hcolumn (c : String) : Refers A (columnTokens l.relation.target c) := .column h c
  refine Refers.append ?_ (.fixed (by simp) rfl)
  unfold valueTokens
  cases l.relation.kind with
  | belongsTo =>
    cases d with
    | postgres => exact .append (.fixed (by simp) rfl) ((hobject _).append (.fixed (by simp) rfl))
    | sqlite =>
      exact .append (.fixed (by simp) rfl) ((hcolumn _).append (.append (.fixed (by simp) rfl)
        ((hobject _).append (.fixed (by simp) rfl))))
  | hasMany =>
    exact .append (.fixed (by simp) rfl) ((hobject _).append (.append (.fixed (by simp) rfl)
      ((hcolumn _).append (.fixed (by simp) rfl))))

theorem joinTokens_refers {table : String} (ht : A table) : Refers A (l.joinTokens table) :=
  have hequals : Refers A [.sign "="] := .fixed (by simp) rfl
  .append (.fixed (by simp) rfl) ((Refers.column ht _).append (hequals.append (.column h _)))

end Load

namespace Select

variable (s : Select) (tests : List (String × Operator)) (order : List (String × Direction))

/-- The tables of a query. -/
def tables (s : Select) : List String := s.table :: s.loads.map fun l => l.relation.target

theorem sources_lead {w : String} (hw : w ∈ Grammar.sourceWords) (n : String) (ts : List Token) :
    sources (.word w :: .name n :: ts) = n :: sources ts := by
  have hname : sources ([.name n] ++ ts) = sources ts := sources_append (by simp) ts
  have hstep : sources (.word w :: .name n :: ts) = n :: sources (.name n :: ts) := by
    simp [sources, adjacent, source?, hw]
  rw [hstep]
  exact congrArg (n :: ·) hname

/-- A clause word that tables stand behind. -/
theorem clauseWord {w : String} (hw : w ∈ Grammar.sourceWords) : w ∈ Grammar.clauseWords :=
  List.mem_append_left _ hw

theorem sources_joins (table : String) (loads : List Load) (ts : List Token) :
    sources ((loads.flatMap fun l => l.joinTokens table) ++ ts) =
      (loads.map fun l => l.relation.target) ++ sources ts := by
  induction loads with
  | nil => rfl
  | cons l loads ih =>
    let condition := .word "ON" :: (columnTokens table l.joinKeys.1 ++
      (.sign "=" :: columnTokens l.relation.target l.joinKeys.2))
    have hcondition : ∀ w ∈ Grammar.sourceWords, Token.word w ∉ condition := by
      have hon : ∀ w ∈ Grammar.sourceWords, w ≠ "ON" := by decide
      intro w hw
      simp [condition, columnTokens, hon w hw]
    have htokens (ts : List Token) : l.joinTokens table ++ ts =
        [.word "LEFT"] ++ (.word "JOIN" :: .name l.relation.target :: (condition ++ ts)) := by
      simp [Load.joinTokens, condition]
    rw [List.flatMap_cons, List.append_assoc, htokens, sources_append (by decide),
      sources_lead (by decide), sources_append hcondition, ih]
    rfl

theorem not_mem_boundTokens {w : String} (hw : w ∈ Grammar.sourceWords) :
    Token.word w ∉ s.boundTokens := by
  have hword {lead : String} (h : ∀ w ∈ Grammar.sourceWords, w ∉ [lead]) :
      Grammar.Avoids (.word w) (Grammar.words [lead]) := .tokens (by simpa using h w hw)
  have hnumber := Grammar.avoids_number (clauseWord hw)
  have hbounds : Grammar.Avoids (.word w) (Grammar.bounds .postgres) :=
    ((hword (by decide)).mul hnumber).opt.mul ((hword (by decide)).mul hnumber).opt
  exact hbounds _ (Grammar.mem_bounds nofun)

/-- What a query selects. -/
def selectTokens (d : Dialect) (s : Select) : List Token :=
  .word "SELECT" :: List.intercalate [.symbol ',']
    ([.name s.table, .symbol '.', .sign "*"] :: s.loads.map fun l => l.itemTokens d)

/-- What stands behind the tables of a query. -/
def restTokens (d : Dialect) (s : Select) (tests : List (String × Operator))
    (order : List (String × Direction)) : List Token :=
  clauseTokens [.word "WHERE"] (.word "AND")
    ((tests.zip (Dml.places d 0 tests.length)).map (Dml.testTokens s.table)) ++
      (s.keyTokens order ++ s.boundTokens)

theorem tokens_eq : s.tokens d tests order = s.selectTokens d ++ (.word "FROM" :: .name s.table ::
    ((s.loads.flatMap fun l => l.joinTokens s.table) ++ s.restTokens d tests order)) := by
  simp [tokens, bodyTokens, selectTokens, restTokens]

theorem sources_tokens : sources (s.tokens d tests order) = s.tables := by
  have hitems : ∀ w ∈ Grammar.sourceWords, Token.word w ∉ s.selectTokens d := by
    intro w hw
    have hlist := (Grammar.avoids_item (d := d) (clauseWord hw)).listOf (by simp) _ (Grammar.mem_items s)
    have hselect : ∀ w ∈ Grammar.sourceWords, Token.word w ≠ .word "SELECT" := by decide
    exact List.not_mem_cons_of_ne_of_not_mem (hselect w hw) hlist
  have hrest : ∀ w ∈ Grammar.sourceWords, Token.word w ∉ s.restTokens d tests order := by
    intro w hw
    have hfilter := Grammar.avoids_filter (d := d) (clauseWord hw) _
      (Grammar.mem_filter (Grammar.expr_tests s.table tests 0 tests.length))
    have hkeys := Grammar.avoids_keys (d := d) (clauseWord hw) _ (Grammar.mem_keys s order)
    exact List.not_mem_append hfilter (List.not_mem_append hkeys (s.not_mem_boundTokens hw))
  have hnone : sources (s.restTokens d tests order) = [] := by
    have hall := sources_append hrest []
    rwa [List.append_nil] at hall
  rw [tokens_eq, sources_append hitems, sources_lead (by decide), sources_joins, hnone, List.append_nil]
  rfl

theorem tokens_refers : Refers (· ∈ s.tables) (s.tokens d tests order) := by
  have htable : s.table ∈ s.tables := List.mem_cons_self
  have htarget : ∀ l ∈ s.loads, l.relation.target ∈ s.tables := fun l hl =>
    List.mem_cons_of_mem _ (List.mem_map_of_mem hl)
  have hword (w : String) : Refers (· ∈ s.tables) [.word w] := .fixed (by simp) rfl
  have hitems : ∀ p ∈ [.name s.table, .symbol '.', .sign "*"] :: s.loads.map fun l => l.itemTokens d,
      Refers (· ∈ s.tables) p :=
    List.forall_mem_cons.mpr ⟨.star htable,
      List.forall_mem_map.mpr fun l hl => Load.itemTokens_refers (htarget l hl)⟩
  have hjoins : Refers (· ∈ s.tables) (s.loads.flatMap fun l => l.joinTokens s.table) :=
    .flatMap fun l hl => Load.joinTokens_refers (htarget l hl) htable
  have htests : ∀ p ∈ (tests.zip (Dml.places d 0 tests.length)).map (Dml.testTokens s.table),
      Refers (· ∈ s.tables) p := by
    refine List.forall_mem_map.mpr fun e _ => (Refers.column htable e.1.1).append ?_
    cases e.1.2 <;> exact .fixed (by simp [Operator.token]) rfl
  have hgroups : ∀ p ∈ s.groupKeys.map fun k => columnTokens k.1 k.2, Refers (· ∈ s.tables) p := by
    refine List.forall_mem_map.mpr fun k hk => .column ?_ k.2
    obtain ⟨-, ⟨_, -, -, rfl⟩ | ⟨l, hl, -, rfl⟩⟩ := mem_groupKeys.mp hk
    · exact htable
    · exact htarget l hl
  have horder : ∀ p ∈ order.map (orderTokens s.table), Refers (· ∈ s.tables) p :=
    List.forall_mem_map.mpr fun o _ => (Refers.column htable o.1).append (hword _)
  have hcount (lead : String) (n : Option Nat) : Refers (· ∈ s.tables) (countTokens lead n) := by
    cases n <;> exact .fixed (by simp [countTokens]) rfl
  have hcomma : Refers (· ∈ s.tables) [.symbol ','] := .fixed (by simp) rfl
  have hkeys : Refers (· ∈ s.tables) (s.keyTokens order) :=
    (Refers.clause (.fixed (by simp) rfl) hcomma hgroups).append
      (.clause (.fixed (by simp) rfl) hcomma horder)
  have hsource : Refers (· ∈ s.tables) [.word "FROM", .name s.table] := .fixed (by simp) rfl
  have hbody : Refers (· ∈ s.tables) (s.bodyTokens d tests order) :=
    (hword "SELECT").append ((Refers.intercalate hcomma hitems).append (hsource.append
      (hjoins.append ((Refers.clause (hword _) (hword _) htests).append hkeys))))
  exact hbody.append ((hcount _ _).append (hcount _ _))

/-- The columns are qualified with the tables of the query, each of which occurs so. -/
theorem mem_qualifiers_tokens {n : String} :
    n ∈ qualifiers (s.tokens d tests order) ↔ n ∈ s.tables := by
  refine ⟨(s.tokens_refers tests order).names n, fun hn => ?_⟩
  rcases List.mem_cons.mp hn with rfl | hn
  · have hstar : [.name s.table, .symbol '.', .sign "*"] <:+: s.selectTokens d := by
      rw [selectTokens, Grammar.intercalate_eq_flatten]
      exact ⟨[.word "SELECT"], _, rfl⟩
    have hall : s.selectTokens d <+: s.tokens d tests order := tokens_eq s tests order ▸ List.prefix_append _ _
    exact adjacent_subset (hstar.trans hall.isInfix) (by simp [adjacent, qualifier?])
  · obtain ⟨l, hl, rfl⟩ := List.mem_map.mp hn
    have hcolumn : columnTokens l.relation.target l.joinKeys.2 <:+ l.joinTokens s.table :=
      ⟨[.word "LEFT", .word "JOIN", .name l.relation.target, .word "ON"] ++
        (columnTokens s.table l.joinKeys.1 ++ [.sign "="]), by simp [Load.joinTokens]⟩
    have hjoin : l.joinTokens s.table <:+: s.loads.flatMap fun l => l.joinTokens s.table :=
      List.infix_of_mem_flatten (List.mem_map_of_mem hl)
    have hjoins : (s.loads.flatMap fun l => l.joinTokens s.table) <:+: s.tokens d tests order :=
      ⟨s.selectTokens d ++ [.word "FROM", .name s.table], s.restTokens d tests order,
        by simp [tokens_eq]⟩
    exact adjacent_subset (hcolumn.isInfix.trans (hjoin.trans hjoins))
      (by simp [columnTokens, adjacent, qualifier?])

end Select
end Query

/-- A quoted name as the database tells it from others: SQLite leaves the case of ASCII letters aside. -/
def Dialect.folded : Dialect → String → String
  | .postgres, n => n
  | .sqlite, n => Text.lowerAscii n

namespace QueryBuilder

variable {t : Table} {d : Dialect} {b : QueryBuilder} {steps : List BuildStep}

/-- The targets of relations, in the order of the first requests. -/
def targets (t : Table) (steps : List BuildStep) : List String :=
  (firsts [] (steps.filterMap BuildStep.loaded?)).filterMap fun name =>
    (t.relations.get? name).map Relation.target

theorem targets_eq (hb : BuildStep.applyAll (ofTable t d) steps = .ok b) :
    targets t steps = b.loads.map fun l => l.relation.target := by
  obtain ⟨hnames, hdeclared⟩ := loads_of_applyAll hb
  have htarget : ∀ l ∈ b.loads, ((fun name => (t.relations.get? name).map Relation.target) ∘ Load.name) l =
      some l.relation.target := by
    intro l hl
    rw [Function.comp_apply, (hdeclared l hl).1, Option.map_some]
  rw [targets, ← hnames, List.filterMap_map, List.filterMap_congr htarget, ← List.filterMap_eq_map]
  rfl

/-- A query takes rows from its table and from the target of each relation that was asked for, and
qualifies columns with just their names. Each such column is that of one source if and only if no two
of the sources are the same table: no two relations have one target, and none leads back to the table
itself. -/
theorem compile_sources (hs : ∀ s ∈ steps, s.IsBare)
    (hb : BuildStep.applyAll (ofTable t d) steps = .ok b)
    (hselect : BuildStep.operation steps = .select) :
    ∃ stmt ts, b.compile = .ok stmt ∧ read stmt.sql.toList = some ts ∧
      sources ts = t.name :: targets t steps ∧ (∀ n, n ∈ qualifiers ts ↔ n ∈ sources ts) ∧
      (((sources ts).map d.folded).Nodup ↔
        ∀ n ∈ qualifiers ts, ((sources ts).map d.folded).count (d.folded n) = 1) ∧
      (((sources ts).map d.folded).Nodup ↔ ((targets t steps).map d.folded).Nodup ∧
        d.folded t.name ∉ (targets t steps).map d.folded) := by
  have hwithin : b.Within (fun _ => True) d :=
    applyAll_within (ofTable_within fun _ _ => trivial) hs (fun _ _ => trivial) hb
  have hfollows : b.Follows t d steps := applyAll_follows (ofTable_follows t d) hb
  have hoperation : b.operation = .select := hfollows.operation.trans hselect
  have hcompile : b.compile = .ok ((Command.select b.toSelect).statement b.dialect) := by
    simp only [compile, command, hoperation, Except.map]
  obtain ⟨tests, order, hread⟩ := read_query hwithin hoperation hcompile
  have htables : b.toSelect.tables = t.name :: targets t steps := by
    rw [targets_eq hb, ← hfollows.table]
    rfl
  have hsources : sources (b.toSelect.tokens d tests order) = t.name :: targets t steps :=
    (b.toSelect.sources_tokens tests order).trans htables
  have hqualifiers (n : String) :
      n ∈ qualifiers (b.toSelect.tokens d tests order) ↔
        n ∈ sources (b.toSelect.tokens d tests order) := by
    rw [b.toSelect.mem_qualifiers_tokens, b.toSelect.sources_tokens]
  refine ⟨_, _, hcompile, hread, hsources, hqualifiers, ?_, ?_⟩
  · simp only [hqualifiers, List.nodup_iff_count_eq_one, List.forall_mem_map]
  · rw [hsources, List.map_cons, List.nodup_cons, and_comm]

/-- An author and an array of comments. -/
theorem compile_sources_post :
    let posts := (((Table.ofName "posts").column "id" (Column.ofType .integer).primaryKey).relation
      "author" (.belongsTo "users" "author_id")).relation "comments" (.hasMany "comments" "post_id")
    let steps : List BuildStep := [.load "comments", .compare "id" .gt (.int 1), .load "author"]
    ∃ b stmt ts, (∀ s ∈ steps, s.IsBare) ∧ BuildStep.applyAll (ofTable posts .postgres) steps = .ok b ∧
      BuildStep.operation steps = .select ∧ b.compile = .ok stmt ∧ read stmt.sql.toList = some ts ∧
      sources ts = ["posts", "comments", "users"] ∧
      ∀ n ∈ qualifiers ts, ((sources ts).map Dialect.postgres.folded).count n = 1 := by
  intro posts steps
  have hbare : ∀ s ∈ steps, s.IsBare := by
    simp only [steps, List.forall_mem_cons, BuildStep.IsBare, BuildStep.keys, BuildStep.selectsAll]
    decide
  let b : QueryBuilder := { ofTable posts .postgres with
    conditions := [⟨.own "id", .gt, .int 1⟩],
    loads := [⟨"comments", .hasMany "comments" "post_id", []⟩,
      ⟨"author", .belongsTo "users" "author_id", []⟩] }
  have hb : BuildStep.applyAll (ofTable posts .postgres) steps = .ok b := rfl
  obtain ⟨stmt, ts, hc, hread, hsources, -, hone, hdistinct⟩ := compile_sources hbare hb rfl
  have htargets : targets posts steps = ["comments", "users"] := by decide
  rw [htargets] at hsources hdistinct
  exact ⟨b, stmt, ts, hbare, hb, rfl, hc, hread, hsources, hone.mp (hdistinct.mpr (by decide))⟩

/-- An author and an editor: both are users, who are joined twice under one name. -/
theorem users_joined_twice :
    let users := (Table.ofName "users").column "id" (Column.ofType .integer).primaryKey
    let posts := ((Table.ofName "posts").relation "author" (.belongsTo "users" "author_id")).relation
      "editor" (.belongsTo "users" "editor_id")
    ∃ b stmt ts, BuildStep.applyAll (ofTable posts .sqlite)
        [.schema (.ofList [users, posts]), .load "author", .load "editor"] = .ok b ∧
      b.compile = .ok stmt ∧ read stmt.sql.toList = some ts ∧
      sources ts = ["posts", "users", "users"] ∧ "users" ∈ qualifiers ts := by
  intro users posts
  let b : QueryBuilder := { ofTable posts .sqlite with
    schema := some (.ofList [users, posts]),
    loads := [⟨"author", .belongsTo "users" "author_id", ["id"]⟩,
      ⟨"editor", .belongsTo "users" "editor_id", ["id"]⟩] }
  have hread : read (render .sqlite 0 (b.toSelect.pieces .sqlite)) =
      some (b.toSelect.tokens .sqlite [] []) := Select.read_plain_pieces rfl rfl rfl
  refine ⟨b, (Command.select b.toSelect).statement .sqlite, b.toSelect.tokens .sqlite [] [], rfl, rfl,
    ?_, b.toSelect.sources_tokens [] [], (b.toSelect.mem_qualifiers_tokens [] []).mpr (by decide)⟩
  rw [Command.statement, Sql.statement, String.toList_ofList]
  exact hread

end QueryBuilder
end Relata
