import Relata.Proofs.Chain
import Relata.Proofs.Loading

/-!
Chains that load relations. Main statement: the statement of such a chain answers with one row for
each row of the table that meets its conditions, and with one field for each relation that was asked
for; an array shows each row once just if all other loaded arrays are at most one row long.
-/
namespace Relata

open Query

def Predicate.conditions (cs : List (String × Predicate)) : List Condition :=
  cs.flatMap fun c => c.2.comparisons.map fun p => ⟨Key.ofText c.1, p.1, p.2⟩

namespace BuildStep

/-- The conditions that a step adds. -/
def conditions : BuildStep → List Condition
  | .whereAll cs => Predicate.conditions cs
  | .whereJson doc => (Predicate.allOfJson doc).toOption.elim [] Predicate.conditions
  | .compare key operator operand => [⟨Key.ofText key, operator, operand⟩]
  | _ => []

def loaded? : BuildStep → Option String
  | .load name => some name
  | _ => none

def schema? : BuildStep → Option Schema
  | .schema s => some s
  | _ => none

/-- The step states conditions, loads a relation or gives the registry. -/
def reads : BuildStep → Bool
  | .whereAll _ | .whereJson _ | .compare .. | .load _ | .schema _ => true
  | _ => false

end BuildStep

namespace Query

/-- The relation is one of the table, with the columns that its target has in a registry that was
given, where they have to be listed. -/
def Load.IsDeclared (t : Table) (d : Dialect) (given : List Schema) (l : Load) : Prop :=
  t.relations.get? l.name = some l.relation ∧ (d = .sqlite → ∃ s ∈ given, ∃ target,
    s.get? l.relation.target = some target ∧ l.fields = target.columnNames)

theorem Load.IsDeclared.mono {t : Table} {d : Dialect} {given given' : List Schema} {l : Load}
    (h : l.IsDeclared t d given) (hsub : given ⊆ given') : l.IsDeclared t d given' :=
  ⟨h.1, fun hd => (h.2 hd).imp fun _ hs => ⟨hsub hs.1, hs.2⟩⟩

end Query

namespace QueryBuilder

variable {t : Table} {d : Dialect} {b b' : QueryBuilder} {s : BuildStep} {steps : List BuildStep}

theorem whereAll_eq (b : QueryBuilder) (cs : List (String × Predicate)) :
    b.whereAll cs = { b with conditions := b.conditions ++ Predicate.conditions cs } := by
  have hone (b : QueryBuilder) (key : String) (l : List (Operator × Value)) :
      l.foldl (fun b c => b.addCondition key c.1 c.2) b =
        { b with conditions := b.conditions ++ l.map fun p => ⟨Key.ofText key, p.1, p.2⟩ } := by
    induction l generalizing b with
    | nil => simp
    | cons c l ih =>
      rw [List.foldl_cons, ih]
      simp [addCondition]
  unfold whereAll
  induction cs generalizing b with
  | nil => simp [Predicate.conditions]
  | cons c cs ih =>
    rw [List.foldl_cons, ih, satisfy, hone]
    simp [Predicate.conditions]

/-- What reading steps make of a query that selects all of a table. -/
structure Reads (t : Table) (d : Dialect) (steps : List BuildStep) (b : QueryBuilder) : Prop where
  dialect : b.dialect = d
  operation : b.operation = .select
  table : b.table = t
  selection : b.selection = .all
  conditions : b.conditions = steps.flatMap BuildStep.conditions
  order : b.order = []
  limit : b.limit = none
  offset : b.offset = none
  schema : ∀ s ∈ b.schema, s ∈ steps.filterMap BuildStep.schema?
  loads : b.loads.map Load.name = firsts [] (steps.filterMap BuildStep.loaded?)
  declared : ∀ l ∈ b.loads, l.IsDeclared t d (steps.filterMap BuildStep.schema?)

theorem ofTable_reads (t : Table) (d : Dialect) : (ofTable t d).Reads t d [] where
  dialect := rfl
  operation := rfl
  table := rfl
  selection := rfl
  conditions := rfl
  order := rfl
  limit := rfl
  offset := rfl
  schema := by simp [ofTable]
  loads := rfl
  declared := by simp [ofTable]

/-- A step that loads no relation and gives no registry is one of conditions. -/
theorem conditions_reads {cs : List Condition} (h : b.Reads t d steps) (hc : s.conditions = cs)
    (hl : s.loaded? = none) (hs : s.schema? = none) :
    Reads t d (steps ++ [s]) { b with conditions := b.conditions ++ cs } where
  __ := h
  conditions := by simp [h.conditions, hc]
  schema := by simpa [List.filterMap_append, hs] using h.schema
  loads := by simpa [List.filterMap_append, hl] using h.loads
  declared := by simpa [List.filterMap_append, hs] using h.declared

theorem targetFields_cases {target : String} {fields : List String}
    (hf : b.targetFields target = .ok fields) (hd : b.dialect = .sqlite) :
    ∃ s ∈ b.schema, ∃ u, s.get? target = some u ∧ fields = u.columnNames := by
  unfold targetFields at hf
  rw [hd] at hf
  dsimp only at hf
  split at hf
  next u hu =>
    obtain ⟨s, hs, hget⟩ := Option.bind_eq_some_iff.mp hu
    exact ⟨s, hs, u, hget, (Except.ok.inj hf).symm⟩
  next => cases hf

theorem load_reads {name : String} (h : b.Reads t d steps) (he : b.load name = .ok b') :
    b'.Reads t d (steps ++ [BuildStep.load name]) := by
  have hschemas : (steps ++ [BuildStep.load name]).filterMap BuildStep.schema? =
      steps.filterMap BuildStep.schema? := by
    simp [List.filterMap_append, BuildStep.schema?]
  have hconditions :
      b.conditions = (steps ++ [BuildStep.load name]).flatMap BuildStep.conditions := by
    simp [h.conditions, BuildStep.conditions]
  have hnames : (∃ l ∈ b.loads, l.name = name) ↔ name ∈ steps.filterMap BuildStep.loaded? := by
    rw [← List.mem_map, h.loads]
    simp [mem_firsts]
  have hloaded : (steps ++ [BuildStep.load name]).filterMap BuildStep.loaded? =
      steps.filterMap BuildStep.loaded? ++ [name] := by
    simp [List.filterMap_append, BuildStep.loaded?]
  obtain ⟨rfl, hold⟩ | ⟨relation, fields, hr, hf, hnew, rfl⟩ := load_cases he
  · refine { h with
      conditions := hconditions, schema := hschemas ▸ h.schema, declared := hschemas ▸ h.declared,
      loads := ?_ }
    have hmem := hnames.mp hold
    rw [hloaded, firsts_concat, if_pos (by simpa using hmem), h.loads]
  · refine { h with
      conditions := hconditions, schema := hschemas ▸ h.schema, loads := ?_, declared := ?_ }
    · have hmem : name ∉ steps.filterMap BuildStep.loaded? := fun hm =>
        let ⟨l, hl, heq⟩ := hnames.mpr hm
        hnew l hl heq
      rw [hloaded, firsts_concat, if_neg (by simpa using hmem), ← h.loads]
      simp
    · rw [hschemas]
      intro l hl
      rcases List.mem_append.mp hl with hl | hl
      · exact h.declared l hl
      · rw [List.mem_singleton.mp hl]
        refine ⟨h.table ▸ hr, fun hd => ?_⟩
        obtain ⟨s, hs, u, hget, hfields⟩ := targetFields_cases hf (h.dialect.trans hd)
        exact ⟨s, h.schema s hs, u, hget, hfields⟩

/-- What one step adds. -/
theorem apply_reads (h : b.Reads t d steps) (hs : s.reads = true) (he : s.apply b = .ok b') :
    b'.Reads t d (steps ++ [s]) := by
  cases s with
  | whereAll cs =>
    cases he
    rw [whereAll_eq]
    exact conditions_reads h rfl rfl rfl
  | whereJson doc =>
    simp only [BuildStep.apply, whereJson] at he
    cases hc : Predicate.allOfJson doc with
    | error e => simp [hc, Except.map] at he
    | ok cs =>
      simp only [hc, Except.map, Except.ok.injEq] at he
      rw [← he, whereAll_eq]
      exact conditions_reads h (by simp [BuildStep.conditions, hc, Except.toOption]) rfl rfl
  | compare key operator operand =>
    rw [BuildStep.apply_compare] at he
    cases he
    exact conditions_reads h rfl rfl rfl
  | load name => exact load_reads h he
  | schema s =>
    cases he
    have hsub : steps.filterMap BuildStep.schema? ⊆
        (steps ++ [BuildStep.schema s]).filterMap BuildStep.schema? := by
      simp [List.filterMap_append]
    have hloaded : (steps ++ [BuildStep.schema s]).filterMap BuildStep.loaded? =
        steps.filterMap BuildStep.loaded? := by
      simp [List.filterMap_append, BuildStep.loaded?]
    exact { h with
      conditions := by simp [h.conditions, withSchema, BuildStep.conditions]
      schema := by simp [withSchema, List.filterMap_append, BuildStep.schema?]
      loads := hloaded ▸ h.loads
      declared := fun l hl => (h.declared l hl).mono hsub }
  | select | insert | update | delete | orderBy | limit | offset => cases hs

theorem applyAll_reads {rest : List BuildStep} (h : b.Reads t d steps)
    (hs : ∀ s ∈ rest, s.reads = true) (he : BuildStep.applyAll b rest = .ok b') :
    b'.Reads t d (steps ++ rest) := by
  induction rest generalizing b steps with
  | nil =>
    cases he
    rwa [List.append_nil]
  | cons s rest ih =>
    obtain ⟨hstep, hrest⟩ := List.forall_mem_cons.mp hs
    unfold BuildStep.applyAll at he
    split at he
    next b₁ hb₁ =>
      rw [List.append_cons]
      exact ih (apply_reads h hstep hb₁) hrest he
    next => cases he

/-- The statement is the written form of a tree. -/
theorem compile_reads (h : b.Reads t d steps) :
    b.compile = .ok (Sql.statement d ((b.toSelect.tree d).pieces d)) := by
  have hcommand : b.command = .ok (.select b.toSelect) := by simp only [command, h.operation]
  rw [Select.tree_pieces d h.selection h.order h.limit h.offset]
  simp only [compile, hcommand, Except.map, h.dialect]
  rfl

section Answers

variable {κ γ : Type} [DecidableEq γ] {m : Meaning κ γ} {db : Database κ} {key : String}

/-- What a chain that loads relations answers, on data that keep what is declared: one row for each
row of the table that meets the conditions, with one field for each relation that was asked for. -/
theorem loaded_answers (hs : ∀ s ∈ steps, s.reads = true)
    (hb : BuildStep.applyAll (ofTable t d) steps = .ok b) (h : b.toSelect.Sound m db key) :
    b.compile = .ok (Sql.statement d ((b.toSelect.tree d).pieces d)) ∧
      b.loads.map Load.name = firsts [] (steps.filterMap BuildStep.loaded?) ∧
      (∀ l ∈ b.loads, l.IsDeclared t d (steps.filterMap BuildStep.schema?)) ∧
      (∃ out, (b.toSelect.tree d).Answers m db out) ∧
      ∀ out, (b.toSelect.tree d).Answers m db out → ∃ rows,
        rows.Perm ((db t.name).filter fun r =>
          (steps.flatMap BuildStep.conditions).all (Condition.meets m t.name r)) ∧
        List.Forall₂ (fun r fields => ∃ loaded, fields = .row (some r) :: loaded ∧
          List.Forall₂ (b.toSelect.Shows m db d r) b.loads loaded) rows out := by
  have hreads : b.Reads t d steps := applyAll_reads (ofTable_reads t d) hs hb
  have hwanted : b.toSelect.wanted m db = (db t.name).filter fun r =>
      (steps.flatMap BuildStep.conditions).all (Condition.meets m t.name r) := by
    simp only [Select.wanted, toSelect, hreads.table, hreads.conditions]
  refine ⟨compile_reads hreads, hreads.loads, hreads.declared, ⟨_, _, .refl _, .refl _⟩, ?_⟩
  intro out hout
  rw [← hwanted]
  exact Select.answers_loads h hout

end Answers

/-! Data of numbers, on which arrays are shown once, and repeated. -/

/-- Cells that hold a number or null. -/
def numeric : Meaning (Option Nat) Nat where
  value := id
  holds
    | .gt, some n, .int k => decide (k.toInt < n)
    | _, _, _ => false
  resolve _ := none

/-- Tables of such cells, each row by the names of its columns. -/
def numericTables (tables : List (String × List (List (String × Nat)))) : Database (Option Nat) :=
  fun name => ((tables.lookup name).getD []).map fun cells column => cells.lookup column

def keyed (name : String) (others : List String) : Table :=
  others.foldl (fun t c => t.column c (.ofType .integer))
    ((Table.ofName name).column "id" (Column.ofType .integer).primaryKey)

theorem exists_of_forall₂_singleton {α β : Type} {R : α → β → Prop} {x : α} {ys : List β}
    (h : List.Forall₂ R [x] ys) : ∃ y, ys = [y] ∧ R x y := by
  obtain ⟨y, _, hy, hrest, rfl⟩ := List.forall₂_cons_left_iff.mp h
  cases hrest
  exact ⟨y, rfl, hy⟩

theorem exists_of_forall₂_pair {α β : Type} {R : α → β → Prop} {x x' : α} {ys : List β}
    (h : List.Forall₂ R [x, x'] ys) : ∃ y y', ys = [y, y'] ∧ R x y ∧ R x' y' := by
  obtain ⟨y, _, hy, hrest, rfl⟩ := List.forall₂_cons_left_iff.mp h
  obtain ⟨y', rfl, hy'⟩ := exists_of_forall₂_singleton hrest
  exact ⟨y, y', rfl, hy, hy'⟩

/-- One array and one single row are loaded: of two posts the second is wanted, which has two of the
three comments. -/
theorem loaded_answers_post :
    let users := keyed "users" []
    let comments := keyed "comments" ["post_id"]
    let posts := ((keyed "posts" ["author_id"]).relation
      "author" (.belongsTo "users" "author_id")).relation
      "comments" (.hasMany "comments" "post_id")
    let db := numericTables [("users", [[("id", 7)]]),
      ("posts", [[("id", 1)], [("id", 2), ("author_id", 7)]]),
      ("comments",
        [[("id", 4), ("post_id", 2)], [("id", 5), ("post_id", 1)], [("id", 6), ("post_id", 2)]])]
    let post : Tuple (Option Nat) := fun column => [("id", 2), ("author_id", 7)].lookup column
    let author := Document.object [("id", some (some 7))]
    let comment (n : Nat) := Document.object [("id", some (some n)), ("post_id", some (some 2))]
    let steps : List BuildStep := [.schema (.ofList [users, posts, comments]), .load "author",
      .compare "id" .gt (.int 1), .load "comments"]
    ∃ b, (∀ s ∈ steps, s.reads = true) ∧ BuildStep.applyAll (ofTable posts .sqlite) steps = .ok b ∧
      b.toSelect.Sound numeric db "id" ∧ (∃ out, (b.toSelect.tree .sqlite).Answers numeric db out) ∧
      ∀ out, (b.toSelect.tree .sqlite).Answers numeric db out → ∃ ds,
        out = [[.row (some post), .document (some author), .array ds]] ∧
          ds.Perm [some (comment 4), some (comment 6)] := by
  intro users comments posts db post author comment steps
  have hs : ∀ s ∈ steps, s.reads = true := by simp [steps, BuildStep.reads]
  let l₁ : Load := ⟨"author", .belongsTo "users" "author_id", ["id"]⟩
  let l₂ : Load := ⟨"comments", .hasMany "comments" "post_id", ["id", "post_id"]⟩
  let b : QueryBuilder := { ofTable posts .sqlite with
    schema := some (.ofList [users, posts, comments]), loads := [l₁, l₂],
    conditions := [⟨.own "id", .gt, .int 1⟩] }
  have hb : BuildStep.applyAll (ofTable posts .sqlite) steps = .ok b := rfl
  have hsound : b.toSelect.Sound numeric db "id" := {
    primary := rfl
    distinct := by decide
    own := fun c hc => ⟨"id", by rw [List.mem_singleton.mp hc]; rfl⟩
    present := by decide
    unique := by decide
    single := by decide }
  obtain ⟨-, -, -, hexists, hall⟩ := loaded_answers hs hb hsound
  refine ⟨b, hs, hb, hsound, hexists, fun out hout => ?_⟩
  obtain ⟨rows, hrows, hout⟩ := hall out hout
  have hwanted : ((db posts.name).filter fun r => (steps.flatMap BuildStep.conditions).all
      (Condition.meets numeric posts.name r)) = [post] := rfl
  rw [hwanted] at hrows
  rw [List.perm_singleton.mp hrows] at hout
  obtain ⟨_, rfl, loaded, rfl, hloaded⟩ := exists_of_forall₂_singleton hout
  obtain ⟨_, _, rfl, ⟨-, rfl⟩, ⟨ds, rfl, hds, -⟩⟩ := exists_of_forall₂_pair hloaded
  exact ⟨ds, rfl, hds⟩

/-- Two arrays are loaded: the only post of the user is shown twice, as there are two comments. -/
theorem posts_repeated_beside_comments :
    let posts := keyed "posts" ["author_id"]
    let comments := keyed "comments" ["author_id"]
    let users := ((keyed "users" []).relation "posts" (.hasMany "posts" "author_id")).relation
      "comments" (.hasMany "comments" "author_id")
    let db := numericTables [("users", [[("id", 1)]]), ("posts", [[("id", 1), ("author_id", 1)]]),
      ("comments", [[("id", 1), ("author_id", 1)], [("id", 2), ("author_id", 1)]])]
    let user : Tuple (Option Nat) := fun column => [("id", 1)].lookup column
    let l : Load := ⟨"posts", .hasMany "posts" "author_id", ["id", "author_id"]⟩
    let post := Document.object [("id", some (some 1)), ("author_id", some (some 1))]
    ∃ b, BuildStep.applyAll (ofTable users .sqlite)
        [.schema (.ofList [users, posts, comments]), .load "posts", .load "comments"] = .ok b ∧
      b.toSelect.Sound numeric db "id" ∧ l ∈ b.loads ∧
      (∃ out, (b.toSelect.tree .sqlite).Answers numeric db out) ∧
      ∀ out, (b.toSelect.tree .sqlite).Answers numeric db out → ∃ cs,
        out = [[.row (some user), .array [some post, some post], .array cs]] ∧
          ¬ [some post, some post].Perm ((l.partners numeric db user).map fun u =>
            some (l.document .sqlite u)) := by
  intro posts comments users db user l post
  let l' : Load := ⟨"comments", .hasMany "comments" "author_id", ["id", "author_id"]⟩
  let b : QueryBuilder := { ofTable users .sqlite with
    schema := some (.ofList [users, posts, comments]), loads := [l, l'] }
  have hsound : b.toSelect.Sound numeric db "id" := {
    primary := rfl
    distinct := by decide
    own := fun c hc => by cases hc
    present := by decide
    unique := by decide
    single := by decide }
  refine ⟨b, rfl, hsound, List.mem_cons_self, ⟨_, _, .refl _, .refl _⟩, fun out hout => ?_⟩
  obtain ⟨rows, hrows, hout⟩ := Select.answers_loads hsound hout
  have hwanted : b.toSelect.wanted numeric db = [user] := rfl
  have hcopies : ((l.partners numeric db user).flatMap fun u =>
      List.replicate (b.toSelect.copies numeric db l user) (some (l.document .sqlite u))) =
        List.replicate 2 (some post) := rfl
  rw [hwanted] at hrows
  rw [List.perm_singleton.mp hrows] at hout
  obtain ⟨_, rfl, loaded, rfl, hloaded⟩ := exists_of_forall₂_singleton hout
  obtain ⟨_, _, rfl, ⟨ds, rfl, hds, -⟩, ⟨cs, rfl, -⟩⟩ := exists_of_forall₂_pair hloaded
  rw [hcopies] at hds
  refine ⟨cs, by rw [List.perm_replicate.mp hds]; rfl, fun hperm => ?_⟩
  exact absurd hperm.length_eq (by decide)

end QueryBuilder
end Relata
