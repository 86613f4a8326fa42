import Mathlib.Data.List.Forall2
import Relata.Proofs.Placement
import Relata.Proofs.Relations

/-!
What a chain binds. Main statement: in whatever order a chain states conditions, gives records and
says what it is to become, the compiled statement binds each value beside its own column; and another
chain that differs in values only compiles to the same text, with its own values in their places.
-/
namespace Relata

open Query

namespace BuildStep

/-- What a step turns the chain into. -/
def operation? : BuildStep → Option Operation
  | .select _ => some .select
  | .insert _ => some .insert
  | .update _ => some .update
  | .delete => some .delete
  | _ => none

def record? : BuildStep → Option (Keyed Value)
  | .insert record | .update record => some (.ofList record)
  | _ => none

/-- The last step that says so decides what becomes of a chain. -/
def operation (steps : List BuildStep) : Operation :=
  (steps.filterMap operation?).getLastD .select

/-- A record takes the place of all that were given before it. -/
def record (steps : List BuildStep) : Keyed Value := (steps.filterMap record?).getLastD .empty

theorem operation_concat (steps : List BuildStep) (s : BuildStep) :
    operation (steps ++ [s]) = s.operation?.getD (operation steps) := by
  cases h : s.operation? <;> simp [operation, List.filterMap_append, h]

theorem record_concat (steps : List BuildStep) (s : BuildStep) :
    record (steps ++ [s]) = s.record?.getD (record steps) := by
  cases h : s.record? <;> simp [record, List.filterMap_append, h]

end BuildStep

namespace QueryBuilder

variable {t : Table} {d : Dialect} {b b' : QueryBuilder} {s : BuildStep} {steps : List BuildStep}

/-- What steps leave in a query, as far as it binds values. -/
structure Follows (t : Table) (d : Dialect) (steps : List BuildStep) (b : QueryBuilder) : Prop where
  dialect : b.dialect = d
  table : b.table = t
  operation : b.operation = BuildStep.operation steps
  conditions : b.conditions = steps.flatMap BuildStep.conditions
  record : b.record = BuildStep.record steps

theorem ofTable_follows (t : Table) (d : Dialect) : (ofTable t d).Follows t d [] :=
  ⟨rfl, rfl, rfl, rfl, rfl⟩

theorem Follows.concat (h : b.Follows t d steps) (hd : b'.dialect = b.dialect)
    (ht : b'.table = b.table) (ho : b'.operation = s.operation?.getD b.operation)
    (hc : b'.conditions = b.conditions ++ s.conditions)
    (hr : b'.record = s.record?.getD b.record) : b'.Follows t d (steps ++ [s]) where
  dialect := hd.trans h.dialect
  table := ht.trans h.table
  operation := by rw [ho, h.operation, BuildStep.operation_concat]
  conditions := by simp [hc, h.conditions]
  record := by rw [hr, h.record, BuildStep.record_concat]

/-- What one step adds. -/
theorem apply_follows (h : b.Follows t d steps) (he : s.apply b = .ok b') :
    b'.Follows t d (steps ++ [s]) := by
  cases s with
  | whereAll cs =>
    cases he
    rw [whereAll_eq]
    exact h.concat rfl rfl rfl rfl rfl
  | whereJson doc =>
    simp only [BuildStep.apply, whereJson] at he
    cases hc : Predicate.allOfJson doc with
    | error e => simp [hc, Except.map] at he
    | ok cs =>
      simp only [hc, Except.map, Except.ok.injEq] at he
      rw [← he, whereAll_eq]
      exact h.concat rfl rfl rfl (by simp [BuildStep.conditions, hc, Except.toOption]) rfl
  | compare key operator operand =>
    rw [BuildStep.apply_compare] at he
    cases he
    exact h.concat rfl rfl rfl rfl rfl
  | load name =>
    obtain ⟨rfl, -⟩ | ⟨relation, fields, -, -, -, rfl⟩ := load_cases he
    · exact h.concat rfl rfl rfl (List.append_nil _).symm rfl
    · exact h.concat rfl rfl rfl (List.append_nil _).symm rfl
  | select | insert | update | delete | orderBy | limit | offset | schema =>
    cases he
    exact h.concat rfl rfl rfl (List.append_nil _).symm rfl

theorem applyAll_follows {rest : List BuildStep} (h : b.Follows t d steps)
    (he : BuildStep.applyAll b rest = .ok b') : b'.Follows t d (steps ++ rest) := by
  induction rest generalizing b steps with
  | nil =>
    cases he
    rwa [List.append_nil]
  | cons s rest ih =>
    unfold BuildStep.applyAll at he
    split at he
    next b₁ hb₁ =>
      rw [List.append_cons]
      exact ih (apply_follows h hb₁) he
    next => cases he

end QueryBuilder
section Alike

variable {κ α β : Type} {S : α → β → Prop}

/-- Items of one name that `S` relates. -/
def Paired (S : α → β → Prop) (e : κ × α) (e' : κ × β) : Prop := e.1 = e'.1 ∧ S e.2 e'.2

theorem map_fst_of_paired {l : List (κ × α)} {l' : List (κ × β)}
    (h : List.Forall₂ (Paired S) l l') : l.map Prod.fst = l'.map Prod.fst := by
  induction h with
  | nil => rfl
  | cons he _ ih => rw [List.map_cons, List.map_cons, he.1, ih]

theorem map_snd_of_paired {l : List (κ × α)} {l' : List (κ × β)}
    (h : List.Forall₂ (Paired S) l l') : List.Forall₂ S (l.map Prod.snd) (l'.map Prod.snd) := by
  induction h with
  | nil => exact .nil
  | cons he _ ih => exact .cons he.2 ih

theorem Keyed.insertEntry_paired {l : List (String × α)} {l' : List (String × β)}
    (h : List.Forall₂ (Paired S) l l') (name : String) {x : α} {y : β} (hxy : S x y) :
    List.Forall₂ (Paired S) (insertEntry name x l) (insertEntry name y l') := by
  induction h with
  | nil => exact .cons ⟨rfl, hxy⟩ .nil
  | @cons e e' l l' he hl ih =>
    obtain ⟨n, a⟩ := e
    obtain ⟨n', b⟩ := e'
    obtain ⟨rfl, hab⟩ : n = n' ∧ S a b := he
    by_cases hn : n = name
    · simpa only [insertEntry, if_pos hn] using List.Forall₂.cons ⟨rfl, hxy⟩ hl
    · simpa only [insertEntry, if_neg hn] using List.Forall₂.cons ⟨rfl, hab⟩ ih

/-- Records of the same names in the same order list the same columns. -/
theorem Keyed.ofList_paired {l : List (String × α)} {l' : List (String × β)}
    (h : List.Forall₂ (Paired S) l l') :
    List.Forall₂ (Paired S) (ofList l).entries (ofList l').entries := by
  have hfold {k : Keyed α} {k' : Keyed β} (hk : List.Forall₂ (Paired S) k.entries k'.entries) :
      List.Forall₂ (Paired S) (l.foldl (fun k e => k.insert e.1 e.2) k).entries
        (l'.foldl (fun k e => k.insert e.1 e.2) k').entries := by
    induction h generalizing k k' with
    | nil => exact hk
    | @cons e e' l l' he _ ih =>
      have hnext := insertEntry_paired hk e.1 he.2
      exact ih (by simpa only [insert, ← he.1] using hnext)
  exact hfold .nil

/-- Lists that are read item by item: if each item of the one can be read, so can that of the
other. -/
theorem forall₂_mapM {ε γ δ : Type} {T : γ → δ → Prop} {f : α → Except ε γ} {g : β → Except ε δ}
    (hfg : ∀ {x y z}, S x y → f x = .ok z → ∃ w, g y = .ok w ∧ T z w) {l : List α} {l' : List β}
    (h : List.Forall₂ S l l') {r : List γ} (hr : l.mapM f = .ok r) :
    ∃ r', l'.mapM g = .ok r' ∧ List.Forall₂ T r r' := by
  rw [mapM_eq_ok_iff] at hr
  induction h generalizing r with
  | nil =>
    cases hr
    exact ⟨[], rfl, .nil⟩
  | cons hxy _ ih =>
    cases hr with
    | cons hx hrest =>
      obtain ⟨w, hw, hzw⟩ := hfg hxy hx
      obtain ⟨ws, hws, hall⟩ := ih hrest
      exact ⟨w :: ws, mapM_eq_ok_iff.mpr (.cons hw (mapM_eq_ok_iff.mp hws)), .cons hzw hall⟩

end Alike

/-! Chains that differ in values only. In each definition `R` relates the values place by place. -/

variable {R : Value → Value → Prop}

/-- Documents that stand for operands: both are compared for equality, or both map the same
operators. -/
inductive OperandLike (R : Value → Value → Prop) : Json → Json → Prop
  | plain {d d' : Json} (h : ∀ ms, d ≠ .object ms) (h' : ∀ ms, d' ≠ .object ms)
    (hR : R (.ofJson d) (.ofJson d')) : OperandLike R d d'
  | operators {ms ms' : List (String × Json)}
    (h : List.Forall₂ (Paired fun d d' => R (.ofJson d) (.ofJson d')) ms ms') :
    OperandLike R (.object ms) (.object ms')

inductive Predicate.Like (R : Value → Value → Prop) : Predicate → Predicate → Prop
  | eq {v v' : Value} (h : R v v') : Like R (.eq v) (.eq v')
  | ops {cs cs' : List (Operator × Value)} (h : List.Forall₂ (Paired R) cs cs') :
    Like R (.ops cs) (.ops cs')

/-- The same comparison, with an operand of its own. -/
def Query.Condition.Like (R : Value → Value → Prop) (c c' : Condition) : Prop :=
  c.comparison = c'.comparison ∧ R c.operand c'.operand

/-- Steps that differ in the values that they bind only. -/
inductive BuildStep.Like (R : Value → Value → Prop) : BuildStep → BuildStep → Prop
  | whereAll {cs cs' : List (String × Predicate)}
    (h : List.Forall₂ (Paired (Predicate.Like R)) cs cs') : Like R (.whereAll cs) (.whereAll cs')
  | whereJson {ms ms' : List (String × Json)} (h : List.Forall₂ (Paired (OperandLike R)) ms ms') :
    Like R (.whereJson (.object ms)) (.whereJson (.object ms'))
  | compare {v v' : Value} (key : String) (operator : Operator) (h : R v v') :
    Like R (.compare key operator v) (.compare key operator v')
  | insert {r r' : List (String × Value)} (h : List.Forall₂ (Paired R) r r') :
    Like R (.insert r) (.insert r')
  | update {r r' : List (String × Value)} (h : List.Forall₂ (Paired R) r r') :
    Like R (.update r) (.update r')
  | select (columns : List String) : Like R (.select columns) (.select columns)
  | delete : Like R .delete .delete
  | load (relation : String) : Like R (.load relation) (.load relation)
  | orderBy (key : String) (direction : Direction) :
    Like R (.orderBy key direction) (.orderBy key direction)
  | limit (n : Nat) : Like R (.limit n) (.limit n)
  | offset (n : Nat) : Like R (.offset n) (.offset n)
  | schema (s : Schema) : Like R (.schema s) (.schema s)

theorem Predicate.Like.comparisons {p p' : Predicate} (h : p.Like R p') :
    List.Forall₂ (Paired R) p.comparisons p'.comparisons := by
  cases h with
  | eq h => exact .cons ⟨rfl, h⟩ .nil
  | ops h => exact h

theorem Predicate.conditions_like {cs cs' : List (String × Predicate)}
    (h : List.Forall₂ (Paired (Predicate.Like R)) cs cs') :
    List.Forall₂ (Condition.Like R) (conditions cs) (conditions cs') := by
  refine List.rel_flatMap h fun c c' hc => ?_
  refine List.rel_map (fun p p' hp => ?_) hc.2.comparisons
  exact ⟨by simp only [Condition.comparison, hc.1, hp.1], hp.2⟩

theorem Predicate.comparisonOfJson_like {key : String} {m m' : String × Json}
    {c : Operator × Value} (hm : Paired (fun d d' => R (.ofJson d) (.ofJson d')) m m')
    (hc : comparisonOfJson key m = .ok c) :
    ∃ c', comparisonOfJson key m' = .ok c' ∧ Paired R c c' := by
  unfold comparisonOfJson at hc ⊢
  rw [← hm.1]
  cases hop : Operator.ofName? m.1 with
  | none =>
    rw [hop] at hc
    cases hc
  | some operator =>
    rw [hop] at hc
    cases hc
    exact ⟨_, rfl, rfl, hm.2⟩

theorem Predicate.ofJson_like {key : String} {d d' : Json} (h : OperandLike R d d') {p : Predicate}
    (hp : ofJson key d = .ok p) : ∃ p', ofJson key d' = .ok p' ∧ p.Like R p' := by
  cases h with
  | plain h h' hR =>
    have heq {d : Json} (h : ∀ ms, d ≠ .object ms) : ofJson key d = .ok (.eq (.ofJson d)) := by
      cases d with
      | object ms => exact absurd rfl (h ms)
      | _ => rfl
    rw [heq h] at hp
    cases hp
    exact ⟨_, heq h', .eq hR⟩
  | @operators ms ms' h =>
    simp only [ofJson] at hp ⊢
    cases hcs : ms.mapM (comparisonOfJson key) with
    | error e => simp [hcs, Except.map] at hp
    | ok cs =>
      obtain ⟨cs', hcs', hlike⟩ := forall₂_mapM (fun hm hc => comparisonOfJson_like hm hc) h hcs
      simp only [hcs, Except.map, Except.ok.injEq] at hp
      subst hp
      exact ⟨.ops cs', by simp only [hcs', Except.map], .ops hlike⟩

theorem Predicate.allOfJson_like {ms ms' : List (String × Json)}
    (h : List.Forall₂ (Paired (OperandLike R)) ms ms') {cs : List (String × Predicate)}
    (hcs : Predicate.allOfJson (.object ms) = .ok cs) :
    ∃ cs', Predicate.allOfJson (.object ms') = .ok cs' ∧
      List.Forall₂ (Paired (Predicate.Like R)) cs cs' := by
  refine forall₂_mapM (fun {m m' c} hm hc => ?_) h hcs
  cases hp : ofJson m.1 m.2 with
  | error e => simp [hp, Except.map] at hc
  | ok p =>
    obtain ⟨p', hp', hlike⟩ := ofJson_like hm.2 hp
    simp only [hp, Except.map, Except.ok.injEq] at hc
    subst hc
    exact ⟨(m'.1, p'), by simp only [← hm.1, hp', Except.map], hm.1, hlike⟩

namespace QueryBuilder

variable {b b' b₁ : QueryBuilder} {s s' : BuildStep} {steps steps' : List BuildStep}

/-- The same query but for the operands of its conditions and the values of its record. -/
inductive Like (R : Value → Value → Prop) (b : QueryBuilder) : QueryBuilder → Prop
  | intro {cs : List Condition} {record : Keyed Value}
    (hc : List.Forall₂ (Condition.Like R) b.conditions cs)
    (hr : List.Forall₂ (Paired R) b.record.entries record.entries) :
    Like R b { b with conditions := cs, record := record }

/-- Loading a relation reads neither conditions nor order nor record. -/
theorem load_frame (b : QueryBuilder) (cs : List Condition) (order : List (Key × Direction))
    (record : Keyed Value) (name : String) :
    ({ b with conditions := cs, order := order, record := record } : QueryBuilder).load name =
      (b.load name).map fun b₁ => { b₁ with conditions := cs, order := order, record := record } := by
  unfold load
  cases b.table.relations.get? name with
  | none => rfl
  | some relation =>
    have hfields : ({ b with conditions := cs, order := order, record := record } :
        QueryBuilder).targetFields relation.target = b.targetFields relation.target := rfl
    by_cases hany : b.loads.any fun l => l.name == name
    · simp only [hany, if_true]
      rfl
    · simp only [hany, hfields]
      cases b.targetFields relation.target <;> rfl

/-- One step on alike queries. -/
theorem apply_like (h : b.Like R b') (hs : s.Like R s') (he : s.apply b = .ok b₁) :
    ∃ b₁', s'.apply b' = .ok b₁' ∧ b₁.Like R b₁' := by
  obtain ⟨hc, hr⟩ := h
  cases hs with
  | whereAll hcs =>
    cases he
    refine ⟨_, rfl, ?_⟩
    rw [whereAll_eq, whereAll_eq]
    exact .intro (List.rel_append hc (Predicate.conditions_like hcs)) hr
  | @whereJson ms ms' hms =>
    simp only [BuildStep.apply, whereJson] at he ⊢
    cases hcs : Predicate.allOfJson (.object ms) with
    | error e => simp [hcs, Except.map] at he
    | ok cs =>
      obtain ⟨cs', hcs', hlike⟩ := Predicate.allOfJson_like hms hcs
      simp only [hcs, Except.map, Except.ok.injEq] at he
      rw [hcs']
      refine ⟨_, rfl, ?_⟩
      rw [← he, whereAll_eq, whereAll_eq]
      exact .intro (List.rel_append hc (Predicate.conditions_like hlike)) hr
  | compare key operator hv =>
    rw [BuildStep.apply_compare] at he
    cases he
    exact ⟨_, BuildStep.apply_compare .., .intro (List.rel_append hc (.cons ⟨rfl, hv⟩ .nil)) hr⟩
  | insert hrecord | update hrecord =>
    cases he
    exact ⟨_, rfl, .intro hc (Keyed.ofList_paired hrecord)⟩
  | load relation =>
    simp only [BuildStep.apply] at he ⊢
    rw [load_frame, he]
    refine ⟨_, rfl, ?_⟩
    obtain ⟨rfl, -⟩ | ⟨_, _, -, -, -, rfl⟩ := load_cases he
    · exact .intro hc hr
    · exact .intro hc hr
  | select columns | delete | orderBy key direction | limit n | offset n | schema s =>
    cases he
    exact ⟨_, rfl, .intro hc hr⟩

theorem applyAll_like (h : b.Like R b') (hs : List.Forall₂ (BuildStep.Like R) steps steps')
    (he : BuildStep.applyAll b steps = .ok b₁) :
    ∃ b₁', BuildStep.applyAll b' steps' = .ok b₁' ∧ b₁.Like R b₁' := by
  induction hs generalizing b b' with
  | nil =>
    cases he
    exact ⟨b', rfl, h⟩
  | cons hs _ ih =>
    unfold BuildStep.applyAll at he
    split at he
    next b₂ hb₂ =>
      obtain ⟨b₂', hb₂', h₂⟩ := apply_like h hs hb₂
      obtain ⟨b₁', hb₁', h₁⟩ := ih h₂ he
      exact ⟨b₁', by rw [BuildStep.applyAll, hb₂']; exact hb₁', h₁⟩
    next => cases he

theorem comparisons_like (h : b.Like R b') : b'.comparisons = b.comparisons := by
  obtain ⟨hc, -⟩ := h
  have hall : List.Forall₂ Eq (b.conditions.map Condition.comparison)
      (_ : List (Key × Operator)) := List.rel_map (fun _ _ hc => hc.1) hc
  exact ((congrFun₂ List.forall₂_eq_eq_eq _ _).mp hall).symm

theorem sqlText_like (h : b.Like R b') : b'.sqlText = b.sqlText := by
  have hcomparisons := comparisons_like h
  obtain @⟨cs, record, hc, hr⟩ := h
  have hkeys : record.keys = b.record.keys := (map_fst_of_paired hr).symm
  simp only [comparisons] at hcomparisons
  unfold sqlText
  dsimp only
  cases b.operation with
  | select => simp only [Select.sqlText, toSelect, hcomparisons]; rfl
  | insert => simp only [hkeys]
  | update => simp only [comparisons, hkeys, hcomparisons]
  | delete => simp only [comparisons, hcomparisons]

theorem bound_like (h : b.Like R b') : List.Forall₂ R b.bound b'.bound := by
  obtain @⟨cs, record, hc, hr⟩ := h
  have hoperands : List.Forall₂ R b.operands (cs.map Condition.operand) :=
    List.rel_map (fun _ _ hc => hc.2) hc
  have hvalues : List.Forall₂ R b.record.values record.values := map_snd_of_paired hr
  unfold bound
  dsimp only
  cases b.operation with
  | select | delete => exact hoperands
  | insert => exact hvalues
  | update => exact List.rel_append hvalues hoperands

/-- Alike queries compile to one text, with values that are alike place by place. -/
theorem compile_like (h : b.Like R b') :
    b'.compile.map Statement.sql = b.compile.map Statement.sql ∧
      ∀ stmt stmt', b.compile = .ok stmt → b'.compile = .ok stmt' →
        List.Forall₂ R stmt.params stmt'.params := by
  have hsql := sqlText_like h
  have hbound := bound_like h
  have hempty : b'.record.isEmpty = b.record.isEmpty := by
    obtain ⟨-, hr⟩ := h
    have hkeys (r : Keyed Value) : r.isEmpty = r.keys.isEmpty := by simp [Keyed.isEmpty, Keyed.keys]
    rw [hkeys, hkeys, Keyed.keys, ← map_fst_of_paired hr]
    rfl
  have hop : b'.operation = b.operation ∧ b'.table = b.table := by
    obtain ⟨-, -⟩ := h
    exact ⟨rfl, rfl⟩
  rw [compile_eq, compile_eq, hempty, hop.1, hop.2, hsql]
  split
  · refine ⟨rfl, fun _ _ hs => ?_⟩
    cases hs
  · refine ⟨rfl, fun stmt stmt' hs hs' => ?_⟩
    cases hs
    cases hs'
    exact hbound

/-- Where a statement on `table` has the values of a record and the operands of conditions: the
parameters stand in the order of the placeholders, and each of these beside its column. -/
inductive Places (d : Dialect) (table : String) (record : Keyed Value) (cs : List Condition) :
    Operation → Statement → Prop
  | select (before after : List Sql.Piece) (hb : Sql.operands before = [])
    (ha : Sql.operands after = []) :
    Places d table record cs .select
      ⟨Sql.textOf before ++ whereText d table 0 (cs.map Condition.comparison) ++ Sql.textOf after,
        cs.map Condition.operand⟩
  | insert :
    Places d table record cs .insert ⟨insertText d table record.keys, record.values⟩
  | update :
    Places d table record cs .update
      ⟨updateText d table record.keys (cs.map Condition.comparison),
        record.values ++ cs.map Condition.operand⟩
  | delete :
    Places d table record cs .delete
      ⟨deleteText d table (cs.map Condition.comparison), cs.map Condition.operand⟩

theorem places_of_follows {t : Table} {d : Dialect} (h : b.Follows t d steps) :
    Places d t.name (BuildStep.record steps) (steps.flatMap BuildStep.conditions)
      (BuildStep.operation steps) ⟨b.sqlText, b.bound⟩ := by
  obtain ⟨rfl, rfl, hop, hc, hr⟩ := h
  rw [← hop, ← hc, ← hr]
  unfold sqlText bound
  cases b.operation with
  | select => exact .select _ _ b.toSelect.operands_before b.toSelect.operands_after
  | insert => exact .insert
  | update => exact .update
  | delete => exact .delete

/-- In whatever order the steps come, every value is bound beside its own column: an insertion binds
its record, an update its record and then the operands of all conditions, and a selection or deletion
those operands. Only an update that sets nothing does not compile. Steps that differ in values only,
by whatever `R` relates the values, compile to the same text, and `R` relates the parameters. -/
theorem compile_chain {t : Table} {d : Dialect}
    (hb : BuildStep.applyAll (ofTable t d) steps = .ok b) :
    b.conditions = steps.flatMap BuildStep.conditions ∧
      b.comparisons.length = b.operands.length ∧
      ((∃ stmt, b.compile = .ok stmt) ↔
        ¬(BuildStep.operation steps = .update ∧ (BuildStep.record steps).isEmpty)) ∧
      (∀ stmt, b.compile = .ok stmt →
        Places d t.name (BuildStep.record steps) (steps.flatMap BuildStep.conditions)
          (BuildStep.operation steps) stmt) ∧
      ∀ (R : Value → Value → Prop) (steps' : List BuildStep),
        List.Forall₂ (BuildStep.Like R) steps steps' →
        ∃ b', BuildStep.applyAll (ofTable t d) steps' = .ok b' ∧
          b'.compile.map Statement.sql = b.compile.map Statement.sql ∧
          ∀ stmt stmt', b.compile = .ok stmt → b'.compile = .ok stmt' →
            List.Forall₂ R stmt.params stmt'.params := by
  have hfollows : b.Follows t d steps := applyAll_follows (ofTable_follows t d) hb
  have hcompile := b.compile_eq
  rw [hfollows.operation, hfollows.record] at hcompile
  refine ⟨hfollows.conditions, by simp [comparisons, operands], ?_, fun stmt hs => ?_,
    fun R steps' hlike => ?_⟩
  · rw [hcompile]
    split
    next hempty => simp [hempty]
    next hsets => simpa using hsets
  · rw [hcompile] at hs
    split at hs
    · cases hs
    · cases hs
      exact places_of_follows hfollows
  · obtain ⟨b', hb', halike⟩ := applyAll_like (.intro .nil .nil) hlike hb
    exact ⟨b', hb', compile_like halike⟩

/-- A chain that is a selection, an insertion and a deletion before it ends as an update, with
conditions before and after; two values are left open. -/
def switching (name : Value) (least : Json) : List BuildStep :=
  [.compare "active" .eq (.bool true), .insert [("email", .null)],
    .whereJson (.object [("age", .object [("gte", least)])]), .delete,
    .update [("name", name), ("age", .null), ("name", name)], .compare "name" .contains (.string "a%")]

/-- The name and the bound on the age are replaced: the text stays, and so do the other values. -/
theorem compile_chain_switching :
    let users := Table.ofName "users"
    let sql := "UPDATE \"users\" SET \"name\" = $1, \"age\" = $2 WHERE \"users\".\"active\" = $3 AND " ++
      "\"users\".\"age\" >= $4 AND \"users\".\"name\" LIKE $5 RETURNING *"
    ∃ b b' stmt stmt',
      BuildStep.applyAll (ofTable users .postgres) (switching (.string "x") (.bool true)) = .ok b ∧
      BuildStep.applyAll (ofTable users .postgres) (switching .null (.array [])) = .ok b' ∧
      b.compile = .ok stmt ∧ b'.compile = .ok stmt' ∧ stmt.sql = sql ∧ stmt'.sql = sql ∧
      stmt.params = [.string "x", .null, .bool true, .bool true, .string "a%"] ∧
      stmt'.params = [.null, .null, .bool true, .json (.array []), .string "a%"] := by
  intro users sql
  have htext : updateText .postgres "users" ["name", "age"]
      [(.own "active", .eq), (.own "age", .gte), (.own "name", .contains)] = sql := by decide +kernel
  have hplaced (name : Value) (least : Json) {b : QueryBuilder} (hb : BuildStep.applyAll
      (ofTable users .postgres) (switching name least) = .ok b) : ∃ stmt, b.compile = .ok stmt ∧
        stmt.sql = sql ∧
        stmt.params = [name, .null, .bool true, Value.ofJson least, .string "a%"] := by
    have hrecord : BuildStep.record (switching name least) = ⟨[("name", name), ("age", .null)]⟩ := by
      rfl
    have hconditions : (switching name least).flatMap BuildStep.conditions =
        [⟨.own "active", .eq, .bool true⟩, ⟨.own "age", .gte, .ofJson least⟩,
          ⟨.own "name", .contains, .string "a%"⟩] := by
      simp [switching, BuildStep.conditions, Predicate.allOfJson, Predicate.ofJson,
        Predicate.comparisonOfJson, Operator.ofName?, Predicate.conditions, Key.ofText, Except.map,
        bind, Except.bind, pure, Except.pure, Except.toOption, Predicate.comparisons]
    obtain ⟨-, -, hcompiles, hplaces, -⟩ := compile_chain hb
    have hsets : (BuildStep.record (switching name least)).isEmpty = false := by rw [hrecord]; rfl
    obtain ⟨stmt, hs⟩ := hcompiles.mpr (by simp [hsets])
    have hupdate : BuildStep.operation (switching name least) = .update := rfl
    have hat := hplaces stmt hs
    rw [hupdate, hrecord, hconditions] at hat
    cases hat
    exact ⟨_, hs, htext, rfl⟩
  obtain ⟨stmt, hs, hsql, hparams⟩ := hplaced (.string "x") (.bool true) rfl
  obtain ⟨stmt', hs', hsql', hparams'⟩ := hplaced .null (.array []) rfl
  exact ⟨_, _, stmt, stmt', rfl, rfl, hs, hs', hsql, hsql', hparams, hparams'⟩

end QueryBuilder
end Relata
