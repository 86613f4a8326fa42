import Relata.Proofs.Clauses

/-!
Chains that differ in keys and operands only. Main statement: where each key is written as a path,
they are taken alike, and compile to statements of one skeleton.
-/
namespace Relata

open Sql Query

namespace Query

/-- The same operator, on whatever key and operand. -/
def SameOperator (c c' : Condition) : Prop := c.operator = c'.operator

def SameDirection (o o' : Key × Direction) : Prop := o.2 = o'.2

end Query

namespace Predicate

variable {key key' : String}

/-- Whether a predicate can be read does not depend on the key that it stands under. -/
theorem ofJson_renamed {doc : Json} {p : Predicate} (h : ofJson key doc = .ok p) :
    ofJson key' doc = .ok p := by
  cases doc with
  | object ms =>
    simp only [ofJson] at h ⊢
    cases hcs : ms.mapM (comparisonOfJson key) with
    | error e => simp [hcs, Except.map] at h
    | ok cs =>
      have hone (m m' : String × Json) (c : Operator × Value) (hm : m = m')
          (hc : comparisonOfJson key m = .ok c) :
          ∃ c', comparisonOfJson key' m' = .ok c' ∧ c = c' := by
        subst hm
        unfold comparisonOfJson at hc ⊢
        split at hc
        next => exact ⟨c, hc, rfl⟩
        next => cases hc
      obtain ⟨cs', hcs', heq⟩ := forall₂_mapM (S := Eq) (T := Eq) (f := comparisonOfJson key)
        (g := comparisonOfJson key') (hone _ _ _) (List.forall₂_refl ms) hcs
      obtain rfl : cs = cs' := (congrFun₂ List.forall₂_eq_eq_eq _ _).mp heq
      rw [hcs']
      rw [hcs] at h
      exact h
  | _ => exact h

/-- Documents that are alike under other keys are read alike. -/
theorem allOfJson_sameForm {ms ms' : List (String × Json)}
    (h : List.Forall₂ (fun m m' => OperandLike (fun _ _ => True) m.2 m'.2) ms ms')
    {cs : List (String × Predicate)} (hcs : allOfJson (.object ms) = .ok cs) :
    ∃ cs', allOfJson (.object ms') = .ok cs' ∧
      List.Forall₂ (fun c c' => c.2.Like (fun _ _ => True) c'.2) cs cs' := by
  refine forall₂_mapM (fun {m m' c} hm hc => ?_) h hcs
  cases hp : ofJson m.1 m.2 with
  | error e => simp [hp, Except.map] at hc
  | ok p =>
    obtain ⟨p', hp', hlike⟩ := ofJson_like hm hp
    simp only [hp, Except.map, Except.ok.injEq] at hc
    subst hc
    exact ⟨(m'.1, p'), by rw [ofJson_renamed hp']; rfl, hlike⟩

theorem conditions_sameOperator {cs cs' : List (String × Predicate)}
    (h : List.Forall₂ (fun c c' => c.2.Like (fun _ _ => True) c'.2) cs cs') :
    List.Forall₂ SameOperator (conditions cs) (conditions cs') :=
  List.rel_flatMap h fun _ _ hc => List.rel_map (fun _ _ hp => hp.1) hc.comparisons

end Predicate

namespace BuildStep

/-- Steps that differ in keys and operands only. -/
inductive SameForm : BuildStep → BuildStep → Prop
  | whereAll {cs cs' : List (String × Predicate)}
    (h : List.Forall₂ (fun c c' => c.2.Like (fun _ _ => True) c'.2) cs cs') :
    SameForm (.whereAll cs) (.whereAll cs')
  | whereJson {ms ms' : List (String × Json)}
    (h : List.Forall₂ (fun m m' => OperandLike (fun _ _ => True) m.2 m'.2) ms ms') :
    SameForm (.whereJson (.object ms)) (.whereJson (.object ms'))
  | compare (key key' : String) (operator : Operator) (v v' : Value) :
    SameForm (.compare key operator v) (.compare key' operator v')
  | orderBy (key key' : String) (direction : Direction) :
    SameForm (.orderBy key direction) (.orderBy key' direction)
  | same (s : BuildStep) : SameForm s s

/-- The keys that a step orders by. -/
def order : BuildStep → List (Key × Direction)
  | .orderBy key direction => [(Key.ofText key, direction)]
  | _ => []

/-- What the step lists to be selected. -/
def selection? : BuildStep → Option Selection
  | .select columns => some (.ofTexts columns)
  | _ => none

/-- Each key of the step writes a path, and what it selects can be read. -/
structure Spelled (table : String) (s : BuildStep) : Prop where
  conditions : ∀ c ∈ s.conditions, c.key.IsPath table
  order : ∀ o ∈ s.order, o.1.IsPath table
  selection : ∀ l ∈ s.selection?, l.Readable

end BuildStep

namespace QueryBuilder

variable {t : Table} {d : Dialect} {b b' b₁ : QueryBuilder} {s s' : BuildStep}
  {steps steps' : List BuildStep}

/-- What one step adds to the keys and the selection. -/
theorem apply_adds (he : s.apply b = .ok b') : b'.table = b.table ∧ b'.dialect = b.dialect ∧
    b'.conditions = b.conditions ++ s.conditions ∧ b'.order = b.order ++ s.order ∧
    b'.selection = s.selection?.getD b.selection := by
  cases s with
  | whereAll cs =>
    cases he
    rw [whereAll_eq]
    exact ⟨rfl, rfl, rfl, (List.append_nil _).symm, rfl⟩
  | whereJson doc =>
    simp only [BuildStep.apply, whereJson] at he
    cases hc : Predicate.allOfJson doc with
    | error e => simp [hc, Except.map] at he
    | ok cs =>
      simp only [hc, Except.map, Except.ok.injEq] at he
      rw [← he, whereAll_eq]
      exact ⟨rfl, rfl, by simp [BuildStep.conditions, hc, Except.toOption],
        (List.append_nil _).symm, rfl⟩
  | load name =>
    obtain ⟨rfl, -⟩ | ⟨relation, fields, -, -, -, rfl⟩ := load_cases he
    · exact ⟨rfl, rfl, (List.append_nil _).symm, (List.append_nil _).symm, rfl⟩
    · exact ⟨rfl, rfl, (List.append_nil _).symm, (List.append_nil _).symm, rfl⟩
  | compare =>
    rw [BuildStep.apply_compare] at he
    cases he
    exact ⟨rfl, rfl, rfl, (List.append_nil _).symm, rfl⟩
  | orderBy =>
    cases he
    exact ⟨rfl, rfl, (List.append_nil _).symm, rfl, rfl⟩
  | select | insert | update | delete | limit | offset | schema =>
    cases he
    exact ⟨rfl, rfl, (List.append_nil _).symm, (List.append_nil _).symm, rfl⟩

theorem Spelled.apply (h : b.Spelled) (hs : s.Spelled b.table.name) (he : s.apply b = .ok b') :
    b'.Spelled := by
  obtain ⟨htable, -, hconditions, horder, hselection⟩ := apply_adds he
  constructor
  · rw [hselection]
    cases hsel : s.selection? with
    | none => exact h.selection
    | some l => exact hs.selection l hsel
  · rw [htable, hconditions]
    exact List.forall_mem_append.mpr ⟨h.conditions, hs.conditions⟩
  · rw [htable, horder]
    exact List.forall_mem_append.mpr ⟨h.order, hs.order⟩

theorem Spelled.applyAll (h : b.Spelled) (hs : ∀ s ∈ steps, s.Spelled b.table.name)
    (he : BuildStep.applyAll b steps = .ok b') : b'.Spelled := by
  induction steps generalizing b with
  | nil =>
    cases he
    exact h
  | cons s steps ih =>
    obtain ⟨hfirst, hrest⟩ := List.forall_mem_cons.mp hs
    unfold BuildStep.applyAll at he
    split at he
    next b₁ hb₁ =>
      have htable := (apply_adds hb₁).1
      exact ih (h.apply hfirst hb₁) (by rwa [htable]) he
    next => cases he

theorem applyAll_order (he : BuildStep.applyAll b steps = .ok b') :
    b'.order = b.order ++ steps.flatMap BuildStep.order := by
  induction steps generalizing b with
  | nil =>
    cases he
    exact (List.append_nil _).symm
  | cons s steps ih =>
    unfold BuildStep.applyAll at he
    split at he
    next b₁ hb₁ =>
      obtain ⟨-, -, -, horder, -⟩ := apply_adds hb₁
      rw [ih he, horder, List.append_assoc, List.flatMap_cons]
    next => cases he

/-- The same query but for its keys and the operands of its conditions. -/
inductive Twin (b : QueryBuilder) : QueryBuilder → Prop
  | intro {cs : List Condition} {order : List (Key × Direction)}
    (hc : List.Forall₂ SameOperator b.conditions cs)
    (ho : List.Forall₂ SameDirection b.order order) :
    Twin b { b with conditions := cs, order := order }

theorem Twin.whereAll (h : b.Twin b') {cs cs' : List (String × Predicate)}
    (hcs : List.Forall₂ SameOperator (Predicate.conditions cs) (Predicate.conditions cs')) :
    (b.whereAll cs).Twin (b'.whereAll cs') := by
  obtain ⟨hc, ho⟩ := h
  rw [whereAll_eq, whereAll_eq]
  exact .intro (List.rel_append hc hcs) ho

theorem Twin.same (h : b.Twin b') (he : s.apply b = .ok b₁) :
    ∃ b₁', s.apply b' = .ok b₁' ∧ b₁.Twin b₁' := by
  have hrefl (cs : List Condition) : List.Forall₂ SameOperator cs cs :=
    List.forall₂_same.mpr fun _ _ => rfl
  cases s with
  | whereAll cs =>
    cases he
    exact ⟨_, rfl, h.whereAll (hrefl _)⟩
  | whereJson doc =>
    simp only [BuildStep.apply, whereJson] at he ⊢
    cases hcs : Predicate.allOfJson doc with
    | error e => simp [hcs, Except.map] at he
    | ok cs =>
      simp only [hcs, Except.map, Except.ok.injEq] at he
      exact ⟨_, rfl, he ▸ h.whereAll (hrefl _)⟩
  | load name =>
    obtain ⟨hc, ho⟩ := h
    simp only [BuildStep.apply] at he ⊢
    rw [load_frame, he]
    refine ⟨_, rfl, ?_⟩
    obtain ⟨rfl, -⟩ | ⟨_, _, -, -, -, rfl⟩ := load_cases he
    · exact .intro hc ho
    · exact .intro hc ho
  | compare key operator v =>
    obtain ⟨hc, ho⟩ := h
    rw [BuildStep.apply_compare] at he
    cases he
    exact ⟨_, BuildStep.apply_compare .., .intro (List.rel_append hc (hrefl [_])) ho⟩
  | orderBy key direction =>
    obtain ⟨hc, ho⟩ := h
    cases he
    exact ⟨_, rfl, .intro hc (List.rel_append ho (.cons rfl .nil))⟩
  | select | insert | update | delete | limit | offset | schema =>
    obtain ⟨hc, ho⟩ := h
    cases he
    exact ⟨_, rfl, .intro hc ho⟩

/-- One step on twins. -/
theorem Twin.apply (h : b.Twin b') (hs : s.SameForm s') (he : s.apply b = .ok b₁) :
    ∃ b₁', s'.apply b' = .ok b₁' ∧ b₁.Twin b₁' := by
  cases hs with
  | same s => exact h.same he
  | whereAll hcs =>
    cases he
    exact ⟨_, rfl, h.whereAll (Predicate.conditions_sameOperator hcs)⟩
  | @whereJson ms ms' hms =>
    simp only [BuildStep.apply, whereJson] at he ⊢
    cases hcs : Predicate.allOfJson (.object ms) with
    | error e => simp [hcs, Except.map] at he
    | ok cs =>
      obtain ⟨cs', hcs', hform⟩ := Predicate.allOfJson_sameForm hms hcs
      simp only [hcs, Except.map, Except.ok.injEq] at he
      rw [hcs']
      exact ⟨_, rfl, he ▸ h.whereAll (Predicate.conditions_sameOperator hform)⟩
  | compare key key' operator v v' =>
    obtain ⟨hc, ho⟩ := h
    rw [BuildStep.apply_compare] at he
    cases he
    exact ⟨_, BuildStep.apply_compare .., .intro (List.rel_append hc (.cons rfl .nil)) ho⟩
  | orderBy key key' direction =>
    obtain ⟨hc, ho⟩ := h
    cases he
    exact ⟨_, rfl, .intro hc (List.rel_append ho (.cons rfl .nil))⟩

theorem Twin.applyAll (h : b.Twin b') (hs : List.Forall₂ BuildStep.SameForm steps steps')
    (he : BuildStep.applyAll b steps = .ok b₁) :
    ∃ b₁', BuildStep.applyAll b' steps' = .ok b₁' ∧ b₁.Twin b₁' := by
  induction hs generalizing b b' with
  | nil =>
    cases he
    exact ⟨b', rfl, h⟩
  | cons hs _ ih =>
    unfold BuildStep.applyAll at he
    split at he
    next b₂ hb₂ =>
      obtain ⟨b₂', hb₂', h₂⟩ := h.apply hs hb₂
      obtain ⟨b₁', hb₁', h₁⟩ := ih h₂ he
      exact ⟨b₁', by rw [BuildStep.applyAll, hb₂']; exact hb₁', h₁⟩
    next => cases he

theorem Twin.compiles (h : b.Twin b') {stmt : Statement} (hc : b.compile = .ok stmt) :
    ∃ stmt', b'.compile = .ok stmt' := by
  obtain ⟨-, -⟩ := h
  rw [compile_eq] at hc ⊢
  split at hc
  next => cases hc
  next hsets =>
    rw [if_neg hsets]
    exact ⟨_, rfl⟩

/-- What twins are compiled to around their conditions and their order is the same. -/
theorem Twin.frame_eq (h : b.Twin b') : b'.frame = b.frame ∧ b'.leadCount = b.leadCount := by
  obtain @⟨cs, order, hc, ho⟩ := h
  have hlead : ({ b with conditions := cs, order := order } : QueryBuilder).lead = b.lead := rfl
  have hgrouping : ({ b with conditions := cs, order := order } : QueryBuilder).grouping =
      b.grouping := rfl
  have htrailer : ({ b with conditions := cs, order := order } : QueryBuilder).trailer =
      b.trailer := rfl
  have hfilters : ({ b with conditions := cs, order := order } : QueryBuilder).filters.length =
      b.filters.length := by
    unfold filters
    dsimp only
    cases b.operation with
    | insert => rfl
    | _ => exact hc.length_eq.symm
  constructor
  · funext conditions sorted
    simp only [frame, boundCount, leadCount, hlead, hgrouping, htrailer, hfilters]
  · simp only [leadCount, hlead]

theorem Twin.filters (h : b.Twin b') : List.Forall₂ SameOperator b.filters b'.filters := by
  obtain ⟨hc, -⟩ := h
  unfold QueryBuilder.filters
  dsimp only
  cases b.operation with
  | insert => exact .nil
  | _ => exact hc

theorem Twin.sorting (h : b.Twin b') : List.Forall₂ SameDirection b.sorting b'.sorting := by
  obtain ⟨-, ho⟩ := h
  unfold QueryBuilder.sorting
  dsimp only
  cases b.operation with
  | select => exact ho
  | _ => exact .nil

/-- Comparisons and orders on other paths leave the skeleton of a statement as it is. -/
theorem shapes_frame (b : QueryBuilder) {parts parts' sorted sorted' : List (List Token)}
    (hparts : List.Forall₂ Swaps parts parts') (hsorted : List.Forall₂ Swaps sorted sorted') :
    shapes (b.frame (clauseTokens [.word "WHERE"] (.word "AND") parts)
        (clauseTokens [.word "ORDER", .word "BY"] (.symbol ',') sorted)) =
      shapes (b.frame (clauseTokens [.word "WHERE"] (.word "AND") parts')
        (clauseTokens [.word "ORDER", .word "BY"] (.symbol ',') sorted')) := by
  have hwhere : Exchangeable (clauseTokens [.word "WHERE"] (.word "AND") parts)
      (clauseTokens [.word "WHERE"] (.word "AND") parts') :=
    exchangeable_clause [] (by decide) (by decide) hparts
  have horder : Exchangeable (clauseTokens [.word "ORDER", .word "BY"] (.symbol ',') sorted)
      (clauseTokens [.word "ORDER", .word "BY"] (.symbol ',') sorted') :=
    exchangeable_clause [.word "ORDER"] (by decide) (by decide) hsorted
  unfold frame
  exact ((((Exchangeable.refl _).append hwhere).append (.refl _)).append horder).append
    (.refl _) |>.shapes_eq

/-- A bare key is written as the path of the table and itself, whatever it is, and a key with a dot
as it stands. Where all keys of a chain are written as paths, the conditions are read as one
comparison each, of the path of the key with the placeholder whose turn it is. Chains that differ in
keys and operands only, with keys that are written as paths, are taken and compiled alike: around
their own comparisons and orders the tokens are the same, and so is the skeleton. -/
theorem compile_skeleton {stmt : Statement} (hb : BuildStep.applyAll (ofTable t d) steps = .ok b)
    (hs : ∀ s ∈ steps, s.Spelled t.name) (hc : b.compile = .ok stmt) :
    (∀ key : String, '.' ∉ key.toList →
      read ((Key.ofText key).text t.name).toList = some [.name t.name, .symbol '.', .name key]) ∧
    (∀ key : String, '.' ∈ key.toList → (Key.ofText key).text t.name = key) ∧
    ∃ sk, ∀ steps', List.Forall₂ BuildStep.SameForm steps steps' →
      (∀ s ∈ steps', s.Spelled t.name) →
      ∃ b' stmt' parts sorted, BuildStep.applyAll (ofTable t d) steps' = .ok b' ∧
        b'.compile = .ok stmt' ∧ skeleton stmt'.sql = some sk ∧
        read stmt'.sql.toList = some (b.frame (clauseTokens [.word "WHERE"] (.word "AND") parts)
          (clauseTokens [.word "ORDER", .word "BY"] (.symbol ',') sorted)) ∧
        (BuildStep.operation steps ≠ .insert →
          Compares d t.name b.leadCount (steps'.flatMap BuildStep.conditions) parts) ∧
        (BuildStep.operation steps = .select →
          List.Forall₂ (Orders t.name) (steps'.flatMap BuildStep.order) sorted) := by
  refine ⟨?_, ?_, ?_⟩
  · intro key hdot
    rw [Key.ofText_bare hdot]
    exact Key.read_own t.name key
  · intro key hdot
    rw [Key.ofText_dotted hdot]
    rfl
  have hempty : (ofTable t d).Spelled := ⟨trivial, nofun, nofun⟩
  have hspelled : b.Spelled := hempty.applyAll hs hb
  obtain ⟨parts, sorted, hcompares, horders, -⟩ := read_compiled hspelled hc
  have hbegin : (ofTable t d).Twin (ofTable t d) := .intro .nil .nil
  refine ⟨shapes (b.frame (clauseTokens [.word "WHERE"] (.word "AND") parts)
    (clauseTokens [.word "ORDER", .word "BY"] (.symbol ',') sorted)), ?_⟩
  intro steps' hform hs'
  obtain ⟨b', hb', htwin⟩ := hbegin.applyAll hform hb
  obtain ⟨stmt', hc'⟩ := htwin.compiles hc
  have hspelled' : b'.Spelled := hempty.applyAll hs' hb'
  obtain ⟨parts', sorted', hcompares', horders', hread'⟩ := read_compiled hspelled' hc'
  obtain ⟨hframe, hcount⟩ := htwin.frame_eq
  have hfollows : b.Follows t d steps := applyAll_follows (ofTable_follows t d) hb
  have hfollows' : b'.Follows t d steps' := applyAll_follows (ofTable_follows t d) hb'
  have hop : b'.operation = BuildStep.operation steps := by
    rw [← hfollows.operation]
    obtain ⟨-, -⟩ := htwin
    rfl
  rw [hfollows.dialect, hfollows.table] at hcompares
  rw [hfollows.table] at horders
  rw [hfollows'.dialect, hfollows'.table, hcount] at hcompares'
  rw [hfollows'.table] at horders'
  rw [hframe] at hread'
  refine ⟨b', stmt', parts', sorted', hb', hc', ?_, hread', ?_, ?_⟩
  · have hparts := hcompares.swaps hcompares' htwin.filters
    have hsorted := swaps_of_orders horders horders' htwin.sorting
    unfold skeleton
    rw [hread', Option.map_some, shapes_frame b hparts hsorted]
  · intro hinsert
    rw [← hfollows'.conditions, ← filters_eq (hop ▸ hinsert)]
    exact hcompares'
  · intro hselect
    have horder := applyAll_order hb'
    rw [sorting_eq (hop.trans hselect), horder] at horders'
    exact horders'

/-- Keys that are stated as if to close a quoted name, a condition and the statement. -/
def hostile : List BuildStep :=
  [.whereJson (.object [("id\" = 1 OR \"x", .null),
      ("public.users.age", .object [("gte", .bool true), ("lt", .bool false)])]),
    .orderBy "name; DROP TABLE users --" .descending]

def harmless : List BuildStep :=
  [.whereJson (.object [("id", .string "1 OR 1 = 1"),
      ("age", .object [("gte", .null), ("lt", .null)])]),
    .orderBy "users.name" .descending]

theorem compile_skeleton_hostile : ∃ b b' stmt stmt',
    BuildStep.applyAll (ofTable (.ofName "users") .postgres) hostile = .ok b ∧
      BuildStep.applyAll (ofTable (.ofName "users") .postgres) harmless = .ok b' ∧
      b.compile = .ok stmt ∧ b'.compile = .ok stmt' ∧ skeleton stmt'.sql = skeleton stmt.sql := by
  have hspelled : ∀ s ∈ hostile, s.Spelled "users" :=
    List.forall_mem_cons.mpr ⟨⟨by decide +kernel, nofun, nofun⟩,
      List.forall_mem_singleton.mpr ⟨nofun, by decide +kernel, nofun⟩⟩
  have hspelled' : ∀ s ∈ harmless, s.Spelled "users" :=
    List.forall_mem_cons.mpr ⟨⟨by decide +kernel, nofun, nofun⟩,
      List.forall_mem_singleton.mpr ⟨nofun, by decide +kernel, nofun⟩⟩
  have hform : List.Forall₂ BuildStep.SameForm hostile harmless := by
    refine .cons (.whereJson (.cons ?_ (.cons ?_ .nil))) (.cons (.orderBy _ _ _) .nil)
    · exact .plain nofun nofun trivial
    · exact .operators (.cons ⟨rfl, trivial⟩ (.cons ⟨rfl, trivial⟩ .nil))
  have hrefl : List.Forall₂ BuildStep.SameForm hostile hostile :=
    List.forall₂_same.mpr fun s _ => .same s
  obtain ⟨b, hb⟩ : ∃ b, BuildStep.applyAll (ofTable (.ofName "users") .postgres) hostile = .ok b :=
    ⟨_, rfl⟩
  obtain ⟨stmt, hc⟩ : ∃ stmt, b.compile = .ok stmt := by
    cases hb
    exact ⟨_, rfl⟩
  obtain ⟨-, -, sk, hall⟩ := compile_skeleton hb hspelled hc
  obtain ⟨b₁, stmt₁, -, -, hb₁, hc₁, hsk₁, -⟩ := hall _ hrefl hspelled
  obtain ⟨b', stmt', -, -, hb', hc', hsk', -⟩ := hall _ hform hspelled'
  exact ⟨b₁, b', stmt₁, stmt', hb₁, hb', hc₁, hc', hsk'.trans hsk₁.symm⟩

/-- A key with a dot that is no path: one operand, but two comparisons. -/
theorem compile_adds_comparison : ∃ stmt stmt',
    (BuildStep.applyAll (ofTable (.ofName "users") .postgres)
        [.whereJson (.object [("users.id > 0 OR users.id", .bool true)])]).bind compile = .ok stmt ∧
      (BuildStep.applyAll (ofTable (.ofName "users") .postgres)
        [.whereJson (.object [("id", .bool true)])]).bind compile = .ok stmt' ∧
      stmt.sql = "SELECT \"users\".* FROM \"users\" WHERE users.id > 0 OR users.id = $1" ∧
      stmt'.sql = "SELECT \"users\".* FROM \"users\" WHERE \"users\".\"id\" = $1" ∧
      stmt.params.length = 1 ∧
      ¬IsPathText ((Key.ofText "users.id > 0 OR users.id").text "users") ∧
      skeleton stmt.sql ≠ skeleton stmt'.sql := by
  refine ⟨_, _, rfl, rfl, ?_, ?_, rfl, ?_, ?_⟩
  all_goals decide +kernel

end QueryBuilder
end Relata
