import Mathlib.Algebra.BigOperators.Group.List.Lemmas
import Mathlib.Data.List.Forall2
import Relata.Proofs.Spread

/-!
The groups of a query that loads relations, in whatever order the database visits rows. Main
statement: each row of the table that meets the conditions has one group, and this holds all that the
joins put beside the row.
-/
namespace Relata.Query

theorem exists_perm_map {α ρ : Type} {K : ρ → α} {rows : List ρ} {l : List α}
    (h : l.Perm (rows.map K)) :
    ∃ rows' : List ρ, rows'.Perm rows ∧ l = rows'.map K := by
  have hcomp := congrFun (congrFun (List.eq_map_comp_perm K) l) rows
  obtain ⟨rows', heq, hperm⟩ := hcomp ▸ h
  exact ⟨rows', hperm, heq⟩

section Groups

variable {α ε ρ : Type} [DecidableEq α] {key : ε → α} {K : ρ → α} {S : ρ → List ε} {rows : List ρ}
  {visited : List ε}

theorem filter_key_flatMap (hkey : ∀ r ∈ rows, ∀ e ∈ S r, key e = K r)
    (hinj : (rows.map K).Nodup) {r : ρ} (hr : r ∈ rows) :
    (rows.flatMap S).filter (fun e => key e = K r) = S r := by
  induction rows with
  | nil => cases hr
  | cons a rows ih =>
    obtain ⟨ha, hrest⟩ := List.forall_mem_cons.mp hkey
    obtain ⟨hnot, hnodup⟩ := List.nodup_cons.mp hinj
    rw [List.flatMap_cons, List.filter_append]
    rcases List.mem_cons.mp hr with rfl | hr
    · have hself : (S r).filter (fun e => key e = K r) = S r :=
        List.filter_eq_self.mpr fun e he => by simpa using ha e he
      have hother : (rows.flatMap S).filter (fun e => key e = K r) = [] := by
        refine List.filter_eq_nil_iff.mpr fun e he heq => hnot ?_
        obtain ⟨b, hb, hmem⟩ := List.mem_flatMap.mp he
        rw [← of_decide_eq_true heq, hrest b hb e hmem]
        exact List.mem_map_of_mem hb
      rw [hself, hother, List.append_nil]
    · have hnone : (S a).filter (fun e => key e = K r) = [] := by
        refine List.filter_eq_nil_iff.mpr fun e he heq => hnot ?_
        rw [← ha e he, of_decide_eq_true heq]
        exact List.mem_map_of_mem hr
      rw [hnone, List.nil_append]
      exact ih hrest hnodup hr

/-- Each row has one group, whatever order its parts are visited in. -/
theorem exists_groups (hv : visited.Perm (rows.flatMap S))
    (hkey : ∀ r ∈ rows, ∀ e ∈ S r, key e = K r) (hne : ∀ r ∈ rows, S r ≠ [])
    (hinj : (rows.map K).Nodup) :
    ∃ rows' : List ρ, rows'.Perm rows ∧ List.Forall₂ (fun r g => g.Perm (S r)) rows'
      ((visited.map key).dedup.map fun k => visited.filter fun e => key e = k) := by
  have hkeys : (visited.map key).dedup.Perm (rows.map K) := by
    refine (List.perm_ext_iff_of_nodup (List.nodup_dedup _) hinj).mpr fun k => ?_
    rw [List.mem_dedup, (hv.map key).mem_iff]
    constructor
    · intro hk
      obtain ⟨e, he, rfl⟩ := List.mem_map.mp hk
      obtain ⟨r, hr, hmem⟩ := List.mem_flatMap.mp he
      exact hkey r hr e hmem ▸ List.mem_map_of_mem hr
    · intro hk
      obtain ⟨r, hr, rfl⟩ := List.mem_map.mp hk
      obtain ⟨e, he⟩ := List.exists_mem_of_ne_nil _ (hne r hr)
      exact hkey r hr e he ▸ List.mem_map_of_mem (List.mem_flatMap.mpr ⟨r, hr, he⟩)
  obtain ⟨rows', hperm, heq⟩ := exists_perm_map hkeys
  refine ⟨rows', hperm, ?_⟩
  rw [heq, List.map_map, List.forall₂_map_right_iff, List.forall₂_same]
  intro r hr
  rw [Function.comp_apply, ← filter_key_flatMap hkey hinj (hperm.mem_iff.mp hr)]
  exact hv.filter _

end Groups

variable {κ γ : Type} [DecidableEq γ] {m : Meaning κ γ} {db : Database κ}

/-- The condition is stated on a column of the table. -/
def Condition.IsOn (m : Meaning κ γ) (table : String) (c : Condition) : Prop :=
  ∃ column, m.column table c.key = some (table, column)

/-- The row of the table meets the condition. -/
def Condition.meets (m : Meaning κ γ) (table : String) (r : Tuple κ) (c : Condition) : Bool :=
  (m.column table c.key).any fun q => m.holds c.operator (r q.2) c.operand

/-- A row of the table with nothing beside it. -/
def start (table : String) (r : Tuple κ) : Beside κ :=
  Function.update (fun _ => none) table (some r)

namespace Select

variable {s : Select} {key : String} {d : Dialect} {r r' : Tuple κ} {e e' : Beside κ} {l : Load}

/-- What the declarations promise of the data: each row of the table has its own key, the loaded
tables differ from it and from each other, conditions are on the table, and a row refers to at most
one other. -/
structure Sound (m : Meaning κ γ) (db : Database κ) (s : Select) (key : String) : Prop where
  primary : s.primaryKey = some key
  distinct : (s.table :: targets s.loads).Nodup
  own : ∀ c ∈ s.conditions, c.IsOn m s.table
  present : ∀ r ∈ db s.table, m.value (r key) ≠ none
  unique : ((db s.table).map fun r => m.value (r key)).Nodup
  single : ∀ l ∈ s.loads, l.relation.kind = .belongsTo →
    ((db l.relation.target).filterMap fun u => m.value (u l.relation.key)).Nodup

/-- The joined rows that one row of the table stands in. -/
def parts (m : Meaning κ γ) (db : Database κ) (s : Select) (r : Tuple κ) : List (Beside κ) :=
  spread m db r s.loads (start s.table r)

theorem parts_table (h : s.Sound m db key) (he : e ∈ s.parts m db r) : e s.table = some r := by
  rw [spread_frame he (List.nodup_cons.mp h.distinct).1]
  exact Function.update_self ..

theorem joined_eq (h : s.Sound m db key) :
    (s.tree d).joined m db = (db s.table).flatMap (s.parts m db) := by
  unfold Tree.joined
  rw [foldl_flatMap, List.flatMap_map]
  refine List.flatMap_congr fun r _ => foldl_extend ?_ (List.nodup_cons.mp h.distinct).1
  exact Function.update_self ..

omit [DecidableEq γ] in
theorem conditions_all (h : s.Sound m db key) (he : e s.table = some r) :
    s.conditions.all (Condition.holds m s.table e) = s.conditions.all (Condition.meets m s.table r) := by
  rw [Bool.eq_iff_iff, List.all_eq_true, List.all_eq_true]
  refine forall₂_congr fun c hc => ?_
  obtain ⟨column, hcolumn⟩ := h.own c hc
  simp [Condition.holds, Condition.meets, hcolumn, Meaning.cell, he]

theorem flatMap_filter {α β : Type} (p : α → Bool) (f : α → List β) (l : List α) :
    (l.filter p).flatMap f = l.flatMap fun a => if p a then f a else [] := by
  induction l with
  | nil => rfl
  | cons a l ih => cases hp : p a <;> simp [hp, ih]

/-- The rows of the table that meet all conditions. -/
def wanted (m : Meaning κ γ) (db : Database κ) (s : Select) : List (Tuple κ) :=
  (db s.table).filter fun r => s.conditions.all (Condition.meets m s.table r)

theorem kept_eq (h : s.Sound m db key) :
    (s.tree d).kept m db = (s.wanted m db).flatMap (s.parts m db) := by
  unfold Tree.kept wanted
  rw [joined_eq h, List.filter_flatMap, flatMap_filter]
  refine List.flatMap_congr fun r _ => ?_
  have hall : (s.parts m db r).filter
      (fun e => (s.tree d).conditions.all (Condition.holds m (s.tree d).table e)) =
        (s.parts m db r).filter fun _ => s.conditions.all (Condition.meets m s.table r) :=
    List.filter_congr fun e he => conditions_all h (parts_table h he)
  rw [hall]
  cases s.conditions.all (Condition.meets m s.table r) <;> simp

/-- A row refers to one other at most. -/
theorem partners_length (h : s.Sound m db key) (hl : l ∈ s.loads)
    (hk : l.relation.kind = .belongsTo) (r : Tuple κ) : (l.partners m db r).length ≤ 1 := by
  have hkey : l.joinKeys.2 = l.relation.key := by simp [Load.joinKeys, hk]
  cases hv : m.value (r l.joinKeys.1) with
  | none => simp [Load.partners, Meaning.same, hv]
  | some v =>
    have hvalues : (l.partners m db r).filterMap (fun u => m.value (u l.relation.key)) =
        List.replicate (l.partners m db r).length v := by
      rw [← List.map_const', ← List.filterMap_eq_map]
      refine List.filterMap_congr fun u hu => ?_
      have hsame := (List.mem_filter.mp hu).2
      rw [hkey] at hsame
      cases hu' : m.value (u l.relation.key) with
      | none => simp [Meaning.same, hv, hu'] at hsame
      | some w =>
        have hvw : v = w := by simpa [Meaning.same, hv, hu'] using hsame
        rw [hvw]
        rfl
    have hsub : (l.partners m db r).Sublist (db l.relation.target) := List.filter_sublist
    have hnodup := (hsub.filterMap fun u => m.value (u l.relation.key)).nodup (h.single l hl hk)
    rw [hvalues] at hnodup
    exact List.nodup_replicate.mp hnodup

/-- What a row refers to stands beside it in every part. -/
theorem parts_target (h : s.Sound m db key) (hl : l ∈ s.loads)
    (hk : l.relation.kind = .belongsTo) (he : e ∈ s.parts m db r) :
    e l.relation.target = (l.partners m db r).head? := by
  have hmem := mem_choices_of_mem_spread (List.nodup_cons.mp h.distinct).2 hl he
  rw [Load.choices_eq_head m db (partners_length h hl hk r)] at hmem
  exact List.mem_singleton.mp hmem

theorem groupKeys_eq (h : s.Sound m db key) (he : e ∈ s.parts m db r) (he' : e' ∈ s.parts m db r) :
    s.groupKeys.map (m.valueAt e) = s.groupKeys.map (m.valueAt e') := by
  refine List.map_congr_left fun q hq => ?_
  suffices e q.1 = e' q.1 by simp only [Meaning.valueAt, Meaning.cell, this]
  unfold groupKeys at hq
  split at hq
  · cases hq
  rcases List.mem_append.mp (mem_firsts.mp hq).1 with hq | hq
  · obtain ⟨l, -, rfl⟩ := List.mem_map.mp hq
    exact (parts_table h he).trans (parts_table h he').symm
  · obtain ⟨l, hl, rfl⟩ := List.mem_map.mp hq
    obtain ⟨hmem, hkind⟩ := List.mem_filter.mp hl
    have hk := of_decide_eq_true hkind
    exact (parts_target h hmem hk he).trans (parts_target h hmem hk he').symm

omit [DecidableEq γ] in
/-- With an array to load, rows are grouped by the key of the table. -/
theorem key_mem_groupKeys (h : s.Sound m db key) (hl : l ∈ s.loads)
    (hk : l.relation.kind = .hasMany) : (s.table, key) ∈ s.groupKeys := by
  have hmem : (s.table, key) ∈ s.arrayKeys :=
    List.mem_map.mpr ⟨l, List.mem_filter.mpr ⟨hl, by simp [hk]⟩, by simp [h.primary]⟩
  unfold groupKeys
  rw [if_neg (by simpa using List.ne_nil_of_mem hmem)]
  exact mem_firsts.mpr ⟨List.mem_append_left _ hmem, by simp⟩

theorem groupKeys_inj (h : s.Sound m db key) (hl : l ∈ s.loads) (hk : l.relation.kind = .hasMany)
    (he : e ∈ s.parts m db r) (he' : e' ∈ s.parts m db r')
    (heq : s.groupKeys.map (m.valueAt e) = s.groupKeys.map (m.valueAt e')) :
    m.value (r key) = m.value (r' key) := by
  have hkey := List.map_inj_left.mp heq _ (key_mem_groupKeys h hl hk)
  simpa [Meaning.valueAt, Meaning.cell, parts_table h he, parts_table h he'] using hkey

omit [DecidableEq γ] in
theorem nodup_wanted (h : s.Sound m db key) :
    ((s.wanted m db).map fun r => m.value (r key)).Nodup :=
  (List.filter_sublist.map _).nodup h.unique

/-- The part that stands for a row. -/
def first (m : Meaning κ γ) (db : Database κ) (s : Select) (r : Tuple κ) : Beside κ :=
  (s.parts m db r).head (spread_ne_nil s.loads _)

theorem first_mem (r : Tuple κ) : s.first m db r ∈ s.parts m db r := List.head_mem _

/-- Without arrays, a row stands in one part only. -/
theorem parts_single (h : s.Sound m db key) (hnone : ∀ l ∈ s.loads, l.relation.kind = .belongsTo)
    (r : Tuple κ) : s.parts m db r = [s.first m db r] := by
  have hlen : (s.parts m db r).length = 1 := by
    rw [parts, length_spread]
    refine List.prod_eq_one fun n hn => ?_
    obtain ⟨l, hl, rfl⟩ := List.mem_map.mp hn
    rw [Load.choices_eq_head m db (partners_length h hl (hnone l hl) r)]
    rfl
  obtain ⟨e, he⟩ := List.length_eq_one_iff.mp hlen
  simp only [first, he, List.head_cons]

theorem gather_single (hnone : ∀ l ∈ s.loads, l.relation.kind = .belongsTo)
    (es : List (Beside κ)) : (s.tree d).gather m es = es.map fun e => [e] := by
  have hgroups : (s.tree d).groups = [] := by
    have harrays : s.arrayKeys = [] := by
      rw [arrayKeys, List.map_eq_nil_iff, List.filter_eq_nil_iff]
      intro l hl
      simp [hnone l hl]
    simp [tree, groupKeys, harrays]
  have hitems : (s.tree d).items.any Item.isAggregate = false := by
    simp only [tree, List.any_cons, List.any_map, Bool.or_eq_false_iff, List.any_eq_false]
    refine ⟨rfl, fun l hl => ?_⟩
    simp only [Function.comp_apply, Load.item, hnone l hl]
    cases d <;> simp [Item.isAggregate]
  unfold Tree.gather
  simp [hgroups, hitems]

section Visited

variable {visited : List (Beside κ)}

/-- Without arrays, each row stands alone. -/
theorem exists_gather_single (h : s.Sound m db key)
    (hnone : ∀ l ∈ s.loads, l.relation.kind = .belongsTo)
    (hv : visited.Perm ((s.wanted m db).flatMap (s.parts m db))) :
    ∃ rows, rows.Perm (s.wanted m db) ∧
      List.Forall₂ (fun r g => g.Perm (s.parts m db r)) rows ((s.tree d).gather m visited) := by
  have hparts : (s.wanted m db).flatMap (s.parts m db) = (s.wanted m db).map (s.first m db) := by
    rw [← List.flatMap_singleton' ((s.wanted m db).map _), List.flatMap_map]
    exact List.flatMap_congr fun r _ => parts_single h hnone r
  rw [hparts] at hv
  obtain ⟨rows, hperm, rfl⟩ := exists_perm_map hv
  refine ⟨rows, hperm, ?_⟩
  rw [gather_single hnone, List.map_map, List.forall₂_map_right_iff, List.forall₂_same]
  intro r _
  exact .of_eq (parts_single h hnone r).symm

/-- With an array, the key of the table tells its rows apart. -/
theorem exists_gather_grouped (h : s.Sound m db key) (hl : l ∈ s.loads)
    (hk : l.relation.kind = .hasMany)
    (hv : visited.Perm ((s.wanted m db).flatMap (s.parts m db))) :
    ∃ rows, rows.Perm (s.wanted m db) ∧
      List.Forall₂ (fun r g => g.Perm (s.parts m db r)) rows ((s.tree d).gather m visited) := by
  have hgroups : (s.tree d).groups.isEmpty = false := by
    rw [List.isEmpty_eq_false_iff]
    exact List.ne_nil_of_mem (key_mem_groupKeys h hl hk)
  have hinj : ((s.wanted m db).map fun r =>
      s.groupKeys.map (m.valueAt (s.first m db r))).Nodup := by
    have hkeys := nodup_wanted h
    rw [List.Nodup, List.pairwise_map] at hkeys ⊢
    exact hkeys.imp fun hne heq => hne (groupKeys_inj h hl hk (first_mem _) (first_mem _) heq)
  unfold Tree.gather grouped
  simp only [hgroups, Bool.not_false, if_true]
  exact exists_groups hv (fun r _ e he => groupKeys_eq h he (first_mem r))
    (fun r _ => spread_ne_nil s.loads _) hinj

/-- Each wanted row has one group, which holds all parts that the row stands in. -/
theorem exists_gather (h : s.Sound m db key) (hv : visited.Perm ((s.tree d).kept m db)) :
    ∃ rows, rows.Perm (s.wanted m db) ∧
      List.Forall₂ (fun r g => g.Perm (s.parts m db r)) rows ((s.tree d).gather m visited) := by
  rw [kept_eq h] at hv
  by_cases hnone : ∀ l ∈ s.loads, l.relation.kind = .belongsTo
  · exact exists_gather_single h hnone hv
  · obtain ⟨l, hl, hk⟩ : ∃ l ∈ s.loads, l.relation.kind ≠ .belongsTo := by simpa using hnone
    refine exists_gather_grouped h hl ?_ hv
    cases hkind : l.relation.kind with
    | belongsTo => exact absurd hkind hk
    | hasMany => rfl

end Visited

end Select
end Relata.Query
