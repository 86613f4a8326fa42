import Relata.Proofs.Relations

/-!
Chains whose steps are interleaved in other ways. Each step writes one part of a query and reads no
other. Main statement: where the steps of each kind keep their order among themselves, and those that
give a registry or load a relation keep theirs, a chain is taken alike and compiles to the same
result.
-/
namespace Relata

namespace BuildStep

/-- What a step is about. -/
inductive Kind where
  | condition
  | load
  | order
  | limit
  | offset
  | operation
  | schema
  deriving DecidableEq, Repr

def kind : BuildStep → Kind
  | .whereAll _ | .whereJson _ | .compare .. => .condition
  | .load _ => .load
  | .orderBy .. => .order
  | .limit _ => .limit
  | .offset _ => .offset
  | .select _ | .insert _ | .update _ | .delete => .operation
  | .schema _ => .schema

/-- The parts that a query has for its steps to write. -/
inductive Part where
  | conditions
  | loads
  | order
  | limit
  | offset
  | operation
  deriving DecidableEq, Repr

/-- A registry and the relations that are looked up in it are one part. -/
def Kind.part : Kind → Part
  | .condition => .conditions
  | .load | .schema => .loads
  | .order => .order
  | .limit => .limit
  | .offset => .offset
  | .operation => .operation

end BuildStep

open BuildStep

namespace QueryBuilder

variable {b b' b₁ b₂ c c' : QueryBuilder} {p q : Part} {s s' : BuildStep} {steps steps' : List BuildStep}

/-- The query with one part as another has it. -/
def withPart (b : QueryBuilder) (p : Part) (c : QueryBuilder) : QueryBuilder :=
  match p with
  | .conditions => { b with conditions := c.conditions }
  | .loads => { b with schema := c.schema, loads := c.loads }
  | .order => { b with order := c.order }
  | .limit => { b with limit := c.limit }
  | .offset => { b with offset := c.offset }
  | .operation =>
    { b with operation := c.operation, selection := c.selection, record := c.record }

theorem withPart_comm (h : p ≠ q) (b c c' : QueryBuilder) :
    (b.withPart p c).withPart q c' = (b.withPart q c').withPart p c := by
  cases p <;> cases q <;> first | rfl | exact absurd rfl h

/-- A step writes no part but its own. -/
theorem apply_writes (he : s.apply b = .ok b') : b' = b.withPart s.kind.part b' := by
  cases s with
  | whereAll cs =>
    cases he
    rw [whereAll_eq]
    rfl
  | whereJson doc =>
    simp only [BuildStep.apply, whereJson] at he
    cases hc : Predicate.allOfJson doc with
    | error e => simp [hc, Except.map] at he
    | ok cs =>
      simp only [hc, Except.map, Except.ok.injEq] at he
      rw [← he, whereAll_eq]
      rfl
  | load name =>
    obtain ⟨rfl, -⟩ | ⟨_, _, -, -, -, rfl⟩ := load_cases he
    · rfl
    · rfl
  | compare key operator operand =>
    rw [BuildStep.apply_compare] at he
    cases he
    rfl
  | select | insert | update | delete | orderBy | limit | offset | schema =>
    cases he
    rfl

theorem load_withPart (h : p ≠ .loads) (b c : QueryBuilder) (name : String) :
    (b.withPart p c).load name = (b.load name).map fun b' => b'.withPart p c := by
  have hsame : (b.withPart p c).table = b.table ∧ (b.withPart p c).loads = b.loads ∧
      (b.withPart p c).dialect = b.dialect ∧ (b.withPart p c).schema = b.schema := by
    cases p <;> first | exact ⟨rfl, rfl, rfl, rfl⟩ | exact absurd rfl h
  obtain ⟨htable, hloads, hdialect, hschema⟩ := hsame
  have hfields : (b.withPart p c).targetFields = b.targetFields := by
    funext target
    unfold targetFields
    rw [hdialect, hschema]
  unfold load
  rw [htable, hloads, hfields]
  cases b.table.relations.get? name with
  | none => rfl
  | some relation =>
    dsimp only
    split
    · rfl
    · cases b.targetFields relation.target with
      | error e => rfl
      | ok fields => cases p <;> first | rfl | exact absurd rfl h

/-- Nor does it read any other. -/
theorem apply_withPart (h : s.kind.part ≠ p) (b c : QueryBuilder) :
    s.apply (b.withPart p c) = (s.apply b).map fun b' => b'.withPart p c := by
  have hconditions (cs : List (String × Predicate)) (hp : p ≠ .conditions) :
      (b.withPart p c).whereAll cs = (b.whereAll cs).withPart p c := by
    rw [whereAll_eq, whereAll_eq]
    cases p <;> first | rfl | exact absurd rfl hp
  cases s with
  | whereAll cs => exact congrArg Except.ok (hconditions cs h.symm)
  | whereJson doc =>
    simp only [BuildStep.apply, whereJson]
    cases Predicate.allOfJson doc with
    | error e => rfl
    | ok cs => exact congrArg Except.ok (hconditions cs h.symm)
  | load name => exact load_withPart h.symm b c name
  | compare key operator operand =>
    simp only [BuildStep.apply_compare]
    cases p <;> first | rfl | exact absurd rfl h
  | select | insert | update | delete | orderBy | limit | offset | schema =>
    cases p <;> first | rfl | exact absurd rfl h

/-- Steps that write different parts may change places. -/
theorem apply_comm (h : s.kind.part ≠ s'.kind.part) (hs : s.apply b = .ok b₁)
    (hs' : s'.apply b₁ = .ok b₂) : ∃ b', s'.apply b = .ok b' ∧ s.apply b' = .ok b₂ := by
  have hfirst : b₁ = b.withPart s.kind.part b₁ := apply_writes hs
  rw [hfirst, apply_withPart h.symm] at hs'
  cases hb' : s'.apply b with
  | error e => simp [hb', Except.map] at hs'
  | ok b' =>
    have hsecond : b' = b.withPart s'.kind.part b' := apply_writes hb'
    have hend : b'.withPart s.kind.part b₁ = b₂ := by simpa [hb', Except.map] using hs'
    refine ⟨b', rfl, ?_⟩
    calc s.apply b' = s.apply (b.withPart s'.kind.part b') := by rw [← hsecond]
      _ = .ok (b₁.withPart s'.kind.part b') := by rw [apply_withPart h, hs]; rfl
      _ = .ok ((b.withPart s.kind.part b₁).withPart s'.kind.part b') := by rw [← hfirst]
      _ = .ok ((b.withPart s'.kind.part b').withPart s.kind.part b₁) := by rw [withPart_comm h]
      _ = .ok b₂ := by rw [← hsecond, hend]

/-- A step may be put off until after steps that write other parts. -/
theorem applyAll_behind {before after : List BuildStep}
    (h : ∀ s' ∈ before, s'.kind.part ≠ s.kind.part)
    (hb : applyAll b (s :: (before ++ after)) = .ok b') :
    applyAll b (before ++ s :: after) = .ok b' := by
  induction before generalizing b with
  | nil => exact hb
  | cons s' before ih =>
    obtain ⟨hother, hothers⟩ := List.forall_mem_cons.mp h
    rw [List.cons_append, applyAll] at hb
    split at hb
    next b₁ hb₁ =>
      rw [applyAll] at hb
      split at hb
      next b₂ hb₂ =>
        obtain ⟨b₃, hb₃, hb₂'⟩ := apply_comm hother.symm hb₁ hb₂
        have hrest : applyAll b₃ (s :: (before ++ after)) = .ok b' := by
          rw [applyAll, hb₂']
          exact hb
        rw [List.cons_append, applyAll, hb₃]
        exact ih hothers hrest
      next => cases hb
    next => cases hb

/-- Chains with the same steps for each part, in the same order, are taken alike. -/
theorem applyAll_interleaved
    (h : ∀ p, steps.filter (fun s => s.kind.part = p) = steps'.filter fun s => s.kind.part = p)
    (hb : applyAll b steps = .ok b') : applyAll b steps' = .ok b' := by
  induction steps generalizing b steps' with
  | nil =>
    have hnil : steps' = [] := by
      refine List.eq_nil_iff_forall_not_mem.mpr fun s hs => ?_
      have hmem : s ∈ steps'.filter fun s' => s'.kind.part = s.kind.part :=
        List.mem_filter.mpr ⟨hs, decide_eq_true rfl⟩
      rw [← h s.kind.part] at hmem
      cases hmem
    rw [hnil]
    exact hb
  | cons s steps ih =>
    -- the first step for this part stands in the other chain behind steps for other parts
    have hfirst := (h s.kind.part).symm
    rw [List.filter_cons_of_pos (by simp)] at hfirst
    obtain ⟨before, after, rfl, hbefore, -, hafter⟩ := List.filter_eq_cons_iff.mp hfirst
    refine applyAll_behind (fun s' hs' => by simpa using hbefore s' hs') ?_
    rw [applyAll] at hb ⊢
    split at hb
    next b₁ hb₁ =>
      refine ih (fun p => ?_) hb
      rw [List.filter_append]
      by_cases hp : s.kind.part = p
      · subst hp
        rw [List.filter_eq_nil_iff.mpr hbefore, List.nil_append, hafter]
      · have hrest := h p
        rwa [List.filter_cons_of_neg (by simpa using hp), List.filter_append,
          List.filter_cons_of_neg (by simpa using hp)] at hrest
    next => cases hb

theorem withPart_self (b : QueryBuilder) (p : Part) : b.withPart p b = b := by cases p <;> rfl

theorem withPart_withPart (b : QueryBuilder) (p : Part) (c c' : QueryBuilder) :
    (b.withPart p c).withPart p c' = b.withPart p c' := by cases p <;> rfl

theorem applyAll_withPart (h : ∀ s ∈ steps, s.kind.part ≠ p) (b c : QueryBuilder) :
    applyAll (b.withPart p c) steps = (applyAll b steps).map fun b' => b'.withPart p c := by
  induction steps generalizing b with
  | nil => rfl
  | cons s steps ih =>
    obtain ⟨hs, hsteps⟩ := List.forall_mem_cons.mp h
    rw [applyAll, applyAll, apply_withPart hs]
    cases s.apply b with
    | error e => rfl
    | ok b₁ => exact ih hsteps b₁

/-- The steps for one part by themselves leave of it what the whole chain does. -/
theorem applyAll_filter (p : Part) (hb : applyAll b steps = .ok b') :
    applyAll b (steps.filter fun s => s.kind.part = p) = .ok (b.withPart p b') := by
  induction steps generalizing b with
  | nil =>
    cases hb
    rw [withPart_self]
    rfl
  | cons s steps ih =>
    rw [applyAll] at hb
    split at hb
    next b₁ hb₁ =>
      have hwrites : b₁ = b.withPart s.kind.part b₁ := apply_writes hb₁
      have hrest := ih hb
      by_cases hp : s.kind.part = p
      · rw [List.filter_cons_of_pos (by simpa using hp), applyAll, hb₁]
        rw [hp] at hwrites
        rw [hwrites, withPart_withPart] at hrest
        rwa [← hwrites] at hrest
      · -- the rest does not see what this step has written, so it may as well be undone
        have hundo : b = b₁.withPart s.kind.part b := by
          rw [hwrites, withPart_withPart, withPart_self]
        have hother : ∀ s' ∈ steps.filter (fun s' => s'.kind.part = p),
            s'.kind.part ≠ s.kind.part := by
          intro s' hs' heq
          exact hp (heq ▸ of_decide_eq_true (List.mem_filter.mp hs').2)
        rw [List.filter_cons_of_neg (by simpa using hp)]
        calc applyAll b (steps.filter fun s => s.kind.part = p)
          _ = applyAll (b₁.withPart s.kind.part b) (steps.filter fun s => s.kind.part = p) := by
            rw [← hundo]
          _ = .ok ((b₁.withPart p b').withPart s.kind.part b) := by
            rw [applyAll_withPart hother, hrest]
            rfl
          _ = .ok (b.withPart p b') := by rw [withPart_comm (Ne.symm hp), ← hundo]
    next => cases hb

/-- The steps for one part are those of one kind, or those that give a registry or load a relation. -/
theorem filter_part (hkind : ∀ k, steps.filter (fun s => s.kind = k) = steps'.filter fun s => s.kind = k)
    (hloads : steps.filter (fun s => s.kind = .schema ∨ s.kind = .load) =
      steps'.filter fun s => s.kind = .schema ∨ s.kind = .load) (p : Part) :
    steps.filter (fun s => s.kind.part = p) = steps'.filter fun s => s.kind.part = p := by
  have hkinds (k : Kind) (hk : ∀ k', k'.part = p ↔ k' = k) :
      steps.filter (fun s => s.kind.part = p) = steps'.filter fun s => s.kind.part = p := by
    simpa only [hk] using hkind k
  cases p with
  | conditions => exact hkinds .condition fun k => by cases k <;> decide
  | order => exact hkinds .order fun k => by cases k <;> decide
  | limit => exact hkinds .limit fun k => by cases k <;> decide
  | offset => exact hkinds .offset fun k => by cases k <;> decide
  | operation => exact hkinds .operation fun k => by cases k <;> decide
  | loads =>
    have hpart (k : Kind) : k.part = .loads ↔ k = .schema ∨ k = .load := by cases k <;> decide
    simpa only [hpart] using hloads

/-- How the steps of different kinds are interleaved does not matter, but for registries and the
relations that are loaded after them: either no order of the chain is taken, or each is, and compiles
to the same statement or the same error. -/
theorem compile_interleaved {t : Table} {d : Dialect}
    (hkind : ∀ k, steps.filter (fun s => s.kind = k) = steps'.filter fun s => s.kind = k)
    (hloads : steps.filter (fun s => s.kind = .schema ∨ s.kind = .load) =
      steps'.filter fun s => s.kind = .schema ∨ s.kind = .load) :
    (applyAll (ofTable t d) steps').toOption.map compile =
      (applyAll (ofTable t d) steps).toOption.map compile := by
  have hparts := filter_part hkind hloads
  cases hb : applyAll (ofTable t d) steps with
  | ok b => rw [applyAll_interleaved hparts hb]
  | error e =>
    cases hb' : applyAll (ofTable t d) steps' with
    | error e' => rfl
    | ok b' =>
      rw [applyAll_interleaved (fun p => (hparts p).symm) hb'] at hb
      cases hb

/-- The same steps, with the registry given before the first relation and after the second step. -/
theorem compile_interleaved_posts :
    let users := (Table.ofName "users").column "id" (Column.ofType .integer).primaryKey
    let posts := (Table.ofName "posts").relation "author" (.belongsTo "users" "author_id")
    let registry := Schema.ofList [users, posts]
    let steps : List BuildStep := [.schema registry, .load "author", .compare "id" .gt (.int 1),
      .insert [("title", .null)], .orderBy "id" .descending, .select [], .limit 2, .offset 4,
      .compare "title" .eq .null, .limit 3]
    let steps' : List BuildStep := [.limit 2, .compare "id" .gt (.int 1), .offset 4, .schema registry,
      .insert [("title", .null)], .compare "title" .eq .null, .limit 3, .select [], .load "author",
      .orderBy "id" .descending]
    (∀ k, steps.filter (fun s => s.kind = k) = steps'.filter fun s => s.kind = k) ∧
      steps.filter (fun s => s.kind = .schema ∨ s.kind = .load) =
        steps'.filter (fun s => s.kind = .schema ∨ s.kind = .load) ∧
      ((applyAll (ofTable posts .sqlite) steps).toOption.map compile).isSome ∧
      (applyAll (ofTable posts .sqlite) steps').toOption.map compile =
        (applyAll (ofTable posts .sqlite) steps).toOption.map compile := by
  intro users posts registry steps steps'
  have hkind : ∀ k, steps.filter (fun s => s.kind = k) = steps'.filter fun s => s.kind = k := by
    intro k
    cases k <;> rfl
  have hloads : steps.filter (fun s => s.kind = .schema ∨ s.kind = .load) =
      steps'.filter fun s => s.kind = .schema ∨ s.kind = .load := rfl
  exact ⟨hkind, hloads, by decide +kernel, compile_interleaved hkind hloads⟩

end QueryBuilder
end Relata
