import Mathlib.Data.List.Forall2
import Relata.Proofs.Confined
import Relata.Proofs.Registry
import Relata.Query.Builder

/-!
Chains of the query builder under hostile names. Main statement: whatever characters the names of
the table, the registry and the chain hold, a lexer finds in the compiled statement only names that
were given, and one placeholder for each parameter, in order.
-/
namespace Relata

open Sql Query

/-- The names that statements on a table may be written with. -/
def Table.names (t : Table) : List String :=
  t.name :: t.columnNames ++
    t.relations.entries.flatMap fun e => [e.1, e.2.target, e.2.foreignKey, e.2.key]

def Schema.names (s : Schema) : List String := s.toList.flatMap Table.names

namespace BuildStep

/-- The keys that a step states conditions or an order on. -/
def keys : BuildStep → List String
  | .whereAll conditions => conditions.map Prod.fst
  | .whereJson (.object members) => members.map Prod.fst
  | .compare key _ _ => [key]
  | .orderBy key _ => [key]
  | _ => []

/-- The names that a step adds to those of the table. -/
def names : BuildStep → List String
  | .insert record => record.map Prod.fst
  | .update record => record.map Prod.fst
  | .schema s => s.names
  | s => s.keys

def selectsAll : BuildStep → Bool
  | .select columns => Selection.ofTexts columns = .all
  | _ => true

/-- The step writes no text of the caller as it stands: it selects everything, and none of its keys
has a dot. -/
def IsBare (s : BuildStep) : Prop := s.selectsAll = true ∧ ∀ k ∈ s.keys, '.' ∉ k.toList

end BuildStep

theorem Query.Key.within_ofText {A : String → Prop} {k : String} (hdot : '.' ∉ k.toList) (hk : A k) :
    (Key.ofText k).Within A :=
  ⟨k, by simp [Key.ofText, hdot], hk⟩

/-- A traversal succeeds with what each item comes to. -/
theorem mapM_eq_ok_iff {α β ε : Type} {f : α → Except ε β} {l : List α} {r : List β} :
    l.mapM f = .ok r ↔ List.Forall₂ (fun x y => f x = .ok y) l r := by
  induction l generalizing r with
  | nil =>
    simp [pure, Except.pure, eq_comm]
  | cons x l ih =>
    rw [List.mapM_cons]
    cases hx : f x with
    | error e => simp [bind, Except.bind, List.forall₂_cons_left_iff, hx]
    | ok y =>
      cases hl : l.mapM f with
      | error e => simp [bind, Except.bind, List.forall₂_cons_left_iff, hx, ← ih, hl]
      | ok ys =>
        simp [bind, Except.bind, pure, Except.pure, List.forall₂_cons_left_iff, hx, ← ih, hl,
          eq_comm]

theorem mem_of_mapM {α β ε : Type} {f : α → Except ε β} {l : List α} {r : List β}
    (h : l.mapM f = .ok r) : ∀ y ∈ r, ∃ x ∈ l, f x = .ok y := by
  have hall := mapM_eq_ok_iff.mp h
  clear h
  induction hall with
  | nil => simp
  | cons hx _ ih =>
    refine List.forall_mem_cons.mpr ⟨⟨_, List.mem_cons_self, hx⟩, fun y hy => ?_⟩
    obtain ⟨x, hmem, hread⟩ := ih y hy
    exact ⟨x, List.mem_cons_of_mem _ hmem, hread⟩

/-- Conditions that are read from an object are on its members. -/
theorem Predicate.key_of_allOfJson {doc : Json} {cs : List (String × Predicate)} (h : allOfJson doc = .ok cs) :
    ∀ c ∈ cs, c.1 ∈ (BuildStep.whereJson doc).keys := by
  cases doc with
  | object members =>
    intro c hc
    obtain ⟨m, hm, hread⟩ := mem_of_mapM h c hc
    cases hp : ofJson m.1 m.2 with
    | error e => simp [hp, Except.map] at hread
    | ok p =>
      simp only [hp, Except.map, Except.ok.injEq] at hread
      exact hread ▸ List.mem_map_of_mem hm
  | _ => cases h

namespace QueryBuilder

variable {A : String → Prop} {d : Dialect} {b b' : QueryBuilder}

/-- What every chain of bare steps keeps when the names it is given satisfy `A`. -/
structure Within (A : String → Prop) (d : Dialect) (b : QueryBuilder) : Prop where
  dialect : b.dialect = d
  table : ∀ n ∈ b.table.names, A n
  schema : ∀ s ∈ b.schema, ∀ n ∈ s.names, A n
  selection : b.selection = .all
  conditions : ∀ c ∈ b.conditions, c.key.Within A
  loads : ∀ l ∈ b.loads, ∀ n ∈ l.names, A n
  order : ∀ o ∈ b.order, o.1.Within A
  record : ∀ k ∈ b.record.keys, A k

theorem ofTable_within {t : Table} (h : ∀ n ∈ t.names, A n) : (ofTable t d).Within A d where
  dialect := rfl
  table := h
  schema := by simp [ofTable]
  selection := rfl
  conditions := by simp [ofTable]
  loads := by simp [ofTable]
  order := by simp [ofTable]
  record := by simp [ofTable]

theorem addCondition_within {key : String} (h : b.Within A d) (hdot : '.' ∉ key.toList) (hk : A key)
    (op : Operator) (v : Value) : (b.addCondition key op v).Within A d := by
  refine { h with conditions := fun c hc => ?_ }
  rcases List.mem_append.mp hc with hc | hc
  · exact h.conditions c hc
  · rw [List.mem_singleton.mp hc]
    exact Key.within_ofText hdot hk

theorem whereAll_within {cs : List (String × Predicate)} (h : b.Within A d)
    (hcs : ∀ c ∈ cs, '.' ∉ c.1.toList ∧ A c.1) : (b.whereAll cs).Within A d := by
  have hone {key : String} (hdot : '.' ∉ key.toList) (hk : A key) (l : List (Operator × Value))
      {b : QueryBuilder} (h : b.Within A d) :
      (l.foldl (fun b c => b.addCondition key c.1 c.2) b).Within A d := by
    induction l generalizing b with
    | nil => exact h
    | cons c l ih => exact ih (addCondition_within h hdot hk c.1 c.2)
  unfold whereAll
  induction cs generalizing b with
  | nil => exact h
  | cons c cs ih =>
    obtain ⟨hdot, hk⟩ := hcs c List.mem_cons_self
    exact ih (hone hdot hk _ h) fun c' hc' => hcs c' (List.mem_cons_of_mem c hc')

theorem targetFields_within {target : String} {fields : List String} (h : b.Within A d)
    (hf : b.targetFields target = .ok fields) : ∀ n ∈ fields, A n := by
  unfold targetFields at hf
  split at hf
  · cases hf
    simp
  split at hf
  next t ht =>
    cases hf
    obtain ⟨s, hs, hget⟩ := Option.bind_eq_some_iff.mp ht
    intro n hn
    refine h.schema s hs n (List.mem_flatMap.mpr ⟨t, Schema.mem_toList_of_get? hget, ?_⟩)
    simp [Table.names, hn]
  next => cases hf

/-- Loading changes nothing, or adds one relation as the table declares it. -/
theorem load_cases {name : String} (he : b.load name = .ok b') :
    (b' = b ∧ ∃ l ∈ b.loads, l.name = name) ∨
      ∃ relation fields, b.table.relations.get? name = some relation ∧
        b.targetFields relation.target = .ok fields ∧ (∀ l ∈ b.loads, l.name ≠ name) ∧
        b' = { b with loads := b.loads ++ [⟨name, relation, fields⟩] } := by
  unfold load at he
  split at he
  · cases he
  next relation hr =>
  split at he
  next hany =>
    cases he
    exact .inl ⟨rfl, by simpa using hany⟩
  next hany =>
    cases hf : b.targetFields relation.target with
    | error e => simp [hf, Except.map] at he
    | ok fields =>
      have hb' : { b with loads := b.loads ++ [⟨name, relation, fields⟩] } = b' := by
        simpa [hf, Except.map] using he
      exact .inr ⟨relation, fields, hr, hf, by simpa using hany, hb'.symm⟩

theorem load_within {name : String} (h : b.Within A d) (he : b.load name = .ok b') :
    b'.Within A d := by
  obtain ⟨rfl, -⟩ | ⟨relation, fields, hr, hf, -, rfl⟩ := load_cases he
  · exact h
  · have hrelation {n : String} :
        n ∈ [name, relation.target, relation.foreignKey, relation.key] → A n := fun hn =>
      h.table n (List.mem_append_right _ (List.mem_flatMap.mpr ⟨_, Keyed.mem_of_get? hr, hn⟩))
    refine { h with loads := fun l hl n hn => ?_ }
    rcases List.mem_append.mp hl with hl | hl
    · exact h.loads l hl n hn
    · rw [List.mem_singleton.mp hl] at hn
      rcases List.mem_append.mp hn with hn | hn
      · exact hrelation hn
      · exact targetFields_within h hf n hn

/-- What one step keeps. -/
theorem apply_within {s : BuildStep} (h : b.Within A d) (hs : s.IsBare) (hn : ∀ n ∈ s.names, A n)
    (he : s.apply b = .ok b') : b'.Within A d := by
  obtain ⟨hall, hdots⟩ := hs
  have hrecord {items : List (String × Value)} (hi : ∀ n ∈ items.map Prod.fst, A n) :
      ∀ k ∈ (Keyed.ofList items).keys, A k := fun k hk => hi k (Keyed.mem_keys_ofList hk)
  cases s with
  | select columns =>
    cases he
    exact { h with selection := of_decide_eq_true hall }
  | whereAll cs =>
    cases he
    exact whereAll_within h fun c hc =>
      ⟨hdots c.1 (List.mem_map_of_mem hc), hn c.1 (List.mem_map_of_mem hc)⟩
  | whereJson doc =>
    simp only [BuildStep.apply, whereJson] at he
    cases hc : Predicate.allOfJson doc with
    | error e => simp [hc, Except.map] at he
    | ok cs =>
      simp only [hc, Except.map, Except.ok.injEq] at he
      have hkeys := Predicate.key_of_allOfJson hc
      exact he ▸ whereAll_within h fun c hc => ⟨hdots c.1 (hkeys c hc), hn c.1 (hkeys c hc)⟩
  | compare key op v =>
    rw [BuildStep.apply_compare] at he
    cases he
    exact addCondition_within h (hdots key List.mem_cons_self) (hn key List.mem_cons_self) op v
  | load relation => exact load_within h he
  | insert record | update record =>
    cases he
    exact { h with record := hrecord hn }
  | orderBy key dir =>
    cases he
    refine { h with order := fun o ho => ?_ }
    rcases List.mem_append.mp ho with ho | ho
    · exact h.order o ho
    · rw [List.mem_singleton.mp ho]
      exact Key.within_ofText (hdots key List.mem_cons_self) (hn key List.mem_cons_self)
  | schema s =>
    cases he
    exact { h with schema := fun s' hs' => Option.mem_some.mp hs' ▸ hn }
  | delete | limit | offset =>
    cases he
    exact { h with }

theorem applyAll_within {steps : List BuildStep} (h : b.Within A d) (hs : ∀ s ∈ steps, s.IsBare)
    (hn : ∀ n ∈ steps.flatMap BuildStep.names, A n) (he : BuildStep.applyAll b steps = .ok b') :
    b'.Within A d := by
  induction steps generalizing b with
  | nil =>
    cases he
    exact h
  | cons s steps ih =>
    simp only [List.flatMap_cons, List.mem_append] at hn
    unfold BuildStep.applyAll at he
    split at he
    next b₁ hb₁ =>
      have h₁ := apply_within h (hs s List.mem_cons_self) (fun n hm => hn n (.inl hm)) hb₁
      exact ih h₁ (fun s' hs' => hs s' (List.mem_cons_of_mem s hs')) (fun n hm => hn n (.inr hm)) he
    next => cases he

theorem command_confined {c : Command} (h : b.Within A d) (hc : b.command = .ok c) :
    Confined A (c.pieces d) := by
  have hname : A b.table.name := h.table _ (by simp [Table.names])
  unfold command at hc
  split at hc
  · cases hc
    refine Select.pieces_confined d ⟨hname, ?_, h.selection, h.loads, h.conditions, h.order⟩
    intro k hk
    obtain ⟨e, he, rfl⟩ := Option.map_eq_some_iff.mp hk
    have hcolumn : e.1 ∈ b.table.columnNames := List.mem_map_of_mem (List.mem_of_find?_eq_some he)
    exact h.table _ (by simp [Table.names, hcolumn])
  · cases hc
    exact Command.insertPieces_confined hname h.record
  · split at hc
    · cases hc
    · cases hc
      exact Command.updatePieces_confined hname h.record h.conditions
  · cases hc
    exact Command.deletePieces_confined hname h.conditions

/-- Names and operands stay apart from the text around them, whatever characters they hold: read
from left to right, the compiled statement leaves no quote open, each name in it was given with the
table, the registry or the chain, and its placeholders are those of its parameters in order. -/
theorem scan_compiled_chain {t : Table} {steps : List BuildStep} {stmt : Statement}
    (hs : ∀ s ∈ steps, s.IsBare) (hb : BuildStep.applyAll (ofTable t d) steps = .ok b)
    (hc : b.compile = .ok stmt) :
    ∃ ls, scan stmt.sql.toList = some ls ∧
      (∀ n ∈ ls.filterMap Lexeme.name?, n ∈ t.names ++ steps.flatMap BuildStep.names) ∧
      ls.filterMap Lexeme.mark? = (List.range stmt.params.length).map d.placeholder := by
  have hwithin : b.Within (· ∈ t.names ++ steps.flatMap BuildStep.names) d :=
    applyAll_within (ofTable_within fun n hn => List.mem_append_left _ hn) hs
      (fun n hn => List.mem_append_right _ hn) hb
  obtain ⟨c, hcommand, rfl⟩ : ∃ c, b.command = .ok c ∧ c.statement b.dialect = stmt := by
    unfold compile at hc
    cases hcommand : b.command with
    | error e => simp [hcommand, Except.map] at hc
    | ok c => exact ⟨c, rfl, by simpa [hcommand, Except.map] using hc⟩
  obtain ⟨hclosed, hnames⟩ := command_confined hwithin hcommand
  rw [hwithin.dialect]
  refine ⟨lexemes d 0 (c.pieces d), ?_, ?_, ?_⟩
  · rw [Command.statement, Sql.statement, String.toList_ofList, scan_render d hclosed]
  · rwa [filterMap_name_lexemes d hclosed]
  · rw [filterMap_mark_lexemes d hclosed, List.range_eq_range']
    rfl

/-- Quote marks and placeholders in every name: one array is loaded and two operands are given. -/
theorem scan_compiled_hostile :
    let target := (Table.ofName "a\"b").column "$1" (.ofType .text)
    let table := (Table.ofName "u'; --").relation "p\"?" (.hasMany "a\"b" "$2")
    let steps : List BuildStep := [.schema (.ofList [target]), .load "p\"?",
      .compare "n\"$3'" .eq (.string "'"), .compare "?" .gt .null, .orderBy "\"\"" .descending]
    ∃ b stmt, (∀ s ∈ steps, s.IsBare) ∧ BuildStep.applyAll (ofTable table .sqlite) steps = .ok b ∧
      b.compile = .ok stmt ∧ ∃ ls, scan stmt.sql.toList = some ls ∧
        (∀ n ∈ ls.filterMap Lexeme.name?, n ∈ table.names ++ steps.flatMap BuildStep.names) ∧
        ls.filterMap Lexeme.mark? = ["?", "?"] := by
  intro target table steps
  have hbare : ∀ s ∈ steps, s.IsBare := by
    simp only [steps, List.forall_mem_cons, BuildStep.IsBare, BuildStep.keys, BuildStep.selectsAll]
    decide
  have hrun : ((BuildStep.applyAll (ofTable table .sqlite) steps).bind compile).toOption.map
      (fun stmt => stmt.params.length) = some 2 := by decide +kernel
  cases hb : BuildStep.applyAll (ofTable table .sqlite) steps with
  | error e => simp [hb, Except.bind, Except.toOption] at hrun
  | ok b =>
    cases hc : b.compile with
    | error e => simp [hb, hc, Except.bind, Except.toOption] at hrun
    | ok stmt =>
      have hlen : stmt.params.length = 2 := by simpa [hb, hc, Except.bind, Except.toOption] using hrun
      have hscan := scan_compiled_chain hbare hb hc
      rw [hlen] at hscan
      exact ⟨b, stmt, hbare, rfl, hc, hscan⟩

end QueryBuilder
end Relata
