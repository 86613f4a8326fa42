import Mathlib.Algebra.BigOperators.Group.List.Lemmas
import Mathlib.Data.List.Forall2
import Relata.Proofs.Gathering

/-!
What a query that loads relations answers, in whatever order the database visits rows. Main
statement: there is one row in the answer for each row of the table that meets the conditions; it
shows the row that each relation refers to, and each row that refers to it, as often as the other
loaded arrays repeat that one.
-/
namespace Relata.Query

variable {κ γ : Type} [DecidableEq γ] {m : Meaning κ γ} {db : Database κ}

namespace Load

/-- A row of the target as the document that a query makes of it. -/
def document (d : Dialect) (l : Load) (u : Tuple κ) : Document κ :=
  match d with
  | .postgres => .whole u
  | .sqlite => .object (l.fields.map fun f => (f, some (u f)))

variable {l : Load} {d : Dialect} {e : Beside κ} {r u : Tuple κ}

theorem form_eval (he : e l.relation.target = some u) :
    (l.form d).eval e = some (l.document d u) := by
  cases d with
  | postgres => simp [form, Form.eval, document, he]
  | sqlite => simp [form, Form.eval, document, Meaning.cell, he]

/-- A partner has a value in the column that it was joined on. -/
theorem value_of_partner (hu : u ∈ l.partners m db r) :
    (m.value (u l.joinKeys.2)).isSome = true := by
  have hsame := (List.mem_filter.mp hu).2
  unfold Meaning.same at hsame
  split at hsame
  next hv => rw [hv]; rfl
  next => cases hsame

end Load

namespace Select

variable {s : Select} {key : String} {d : Dialect} {r : Tuple κ} {l : Load} {g : List (Beside κ)}

/-- How often the joins repeat a partner of one relation: once for each choice of partners from the
other loaded arrays. -/
def copies (m : Meaning κ γ) (db : Database κ) (s : Select) (l : Load) (r : Tuple κ) : Nat :=
  ((s.loads.filter fun o => o.relation.kind = .hasMany ∧ o ≠ l).map fun o =>
    max 1 (o.partners m db r).length).prod

theorem prod_map_filter {α : Type} {p : α → Bool} {f : α → Nat} {xs : List α}
    (h : ∀ x ∈ xs, p x = false → f x = 1) : ((xs.filter p).map f).prod = (xs.map f).prod := by
  induction xs with
  | nil => rfl
  | cons x xs ih =>
    obtain ⟨hx, hxs⟩ := List.forall_mem_cons.mp h
    cases hp : p x with
    | true => simp [hp, ih hxs]
    | false => simp [hp, ih hxs, hx hp]

theorem copies_eq (h : s.Sound m db key) (l : Load) (r : Tuple κ) :
    ((s.loads.erase l).map fun o => (o.choices m db r).length).prod = s.copies m db l r := by
  have hnodup : s.loads.Nodup := List.Nodup.of_map _ (List.nodup_cons.mp h.distinct).2
  have hone : ∀ o ∈ s.loads.filter (· != l),
      decide (o.relation.kind = .hasMany) = false → max 1 (o.partners m db r).length = 1 := by
    intro o ho hkind
    have hk : o.relation.kind = .belongsTo := by
      cases hkind' : o.relation.kind with
      | belongsTo => rfl
      | hasMany => simp [hkind'] at hkind
    have hle := partners_length h (List.mem_filter.mp ho).1 hk r
    omega
  simp only [Load.choices_length]
  rw [hnodup.erase_eq_filter, ← prod_map_filter hone, List.filter_filter]
  refine congrArg (fun xs => (List.map _ xs).prod) (List.filter_congr fun o _ => ?_)
  by_cases ho : o = l <;> simp [ho]

/-- Each partner stands once where every other loaded array has at most one row. -/
theorem copies_eq_one_iff : s.copies m db l r = 1 ↔
    ∀ o ∈ s.loads, o.relation.kind = .hasMany → o ≠ l → (o.partners m db r).length ≤ 1 := by
  unfold copies
  constructor
  · intro hprod o ho hk hne
    have hmem : max 1 (o.partners m db r).length ∈ (s.loads.filter fun o =>
        o.relation.kind = .hasMany ∧ o ≠ l).map fun o => max 1 (o.partners m db r).length :=
      List.mem_map_of_mem (List.mem_filter.mpr ⟨ho, by simp [hk, hne]⟩)
    have hdvd := List.dvd_prod hmem
    rw [hprod] at hdvd
    have hone := Nat.dvd_one.mp hdvd
    omega
  · intro hle
    refine List.prod_eq_one fun n hn => ?_
    obtain ⟨o, ho, rfl⟩ := List.mem_map.mp hn
    obtain ⟨hmem, hcond⟩ := List.mem_filter.mp ho
    obtain ⟨hk, hne⟩ := of_decide_eq_true hcond
    have hone := hle o hmem hk hne
    omega

/-- What a query adds to the answer for one row by loading a relation: the row it refers to, or null;
or an array of its partners, each as often as the joins repeat it. -/
def Shows (m : Meaning κ γ) (db : Database κ) (d : Dialect) (s : Select) (r : Tuple κ) (l : Load)
    (f : Field κ) : Prop :=
  match l.relation.kind with
  | .belongsTo => (l.partners m db r).length ≤ 1 ∧
      f = .document ((l.partners m db r).head?.map (l.document d))
  | .hasMany => ∃ ds, f = .array ds ∧
      ds.Perm ((l.partners m db r).flatMap fun u =>
        List.replicate (s.copies m db l r) (some (l.document d u))) ∧
      (ds.Perm ((l.partners m db r).map fun u => some (l.document d u)) ↔
        l.partners m db r = [] ∨ ∀ o ∈ s.loads, o.relation.kind = .hasMany → o ≠ l →
          (o.partners m db r).length ≤ 1)

theorem exists_head (hg : g.Perm (s.parts m db r)) : ∃ e ∈ s.parts m db r, g.head? = some e := by
  cases g with
  | nil => exact absurd hg.symm.eq_nil (spread_ne_nil s.loads _)
  | cons e g => exact ⟨e, hg.mem_iff.mp List.mem_cons_self, rfl⟩

theorem eval_belongsTo (h : s.Sound m db key) (hl : l ∈ s.loads)
    (hk : l.relation.kind = .belongsTo) (hg : g.Perm (s.parts m db r)) :
    Item.eval m g (l.item d) = .document ((l.partners m db r).head?.map (l.document d)) := by
  obtain ⟨e, he, hhead⟩ := exists_head hg
  have htarget := parts_target h hl hk he
  have hjoin : l.joinKeys.2 = l.relation.key := by simp [Load.joinKeys, hk]
  unfold Load.item
  cases hp : (l.partners m db r).head? with
  | none =>
    rw [hp] at htarget
    cases d <;> simp [hk, Item.eval, hhead, Form.eval, htarget, Meaning.valueAt, Meaning.cell]
  | some u =>
    rw [hp] at htarget
    have hvalue := Load.value_of_partner (List.mem_of_head? hp)
    rw [hjoin] at hvalue
    have hform := Load.form_eval (d := d) htarget
    cases d with
    | postgres => simpa [hk, Item.eval, hhead, Load.form] using hform
    | sqlite => simpa [hk, Item.eval, hhead, Meaning.valueAt, Meaning.cell, htarget, hvalue] using hform

/-- The document for what stands in the place of a relation, if the filter lets it pass. -/
def pick (m : Meaning κ γ) (d : Dialect) (l : Load) (o : Option (Tuple κ)) :
    Option (Option (Document κ)) :=
  o.bind fun u => if (m.value (u l.joinKeys.2)).isSome then some (some (l.document d u)) else none

omit [DecidableEq γ] in
theorem collect_eq (l : Load) (g : List (Beside κ)) :
    ((g.filter fun e => (m.valueAt e (l.relation.target, l.joinKeys.2)).isSome).map fun e =>
      (l.form d).eval e) = (g.map fun e => e l.relation.target).filterMap (pick m d l) := by
  have hpick (e : Beside κ) : pick m d l (e l.relation.target) =
      if (m.valueAt e (l.relation.target, l.joinKeys.2)).isSome then some ((l.form d).eval e)
      else none := by
    cases he : e l.relation.target with
    | none => simp [pick, Meaning.valueAt, Meaning.cell, he]
    | some u => simp [pick, Meaning.valueAt, Meaning.cell, he, Load.form_eval he]
  induction g with
  | nil => rfl
  | cons e g ih =>
    rw [List.map_cons, List.filterMap_cons, hpick, List.filter_cons]
    cases (m.valueAt e (l.relation.target, l.joinKeys.2)).isSome with
    | true => simpa using ih
    | false => simpa using ih

theorem filterMap_pick (l : Load) (r : Tuple κ) (n : Nat) :
    ((l.choices m db r).flatMap (List.replicate n)).filterMap (pick m d l) =
      (l.partners m db r).flatMap fun u => List.replicate n (some (l.document d u)) := by
  unfold Load.choices
  split
  next hempty =>
    rw [List.isEmpty_iff.mp hempty]
    simp [pick]
  next =>
    rw [List.flatMap_map, List.filterMap_flatMap]
    refine List.flatMap_congr fun u hu => ?_
    have hpick : pick m d l (some u) = some (some (l.document d u)) := by
      simp [pick, Load.value_of_partner hu]
    exact List.filterMap_replicate_of_some hpick

theorem eval_hasMany (h : s.Sound m db key) (hl : l ∈ s.loads)
    (hk : l.relation.kind = .hasMany) (hg : g.Perm (s.parts m db r)) :
    ∃ ds, Item.eval m g (l.item d) = .array ds ∧
      ds.Perm ((l.partners m db r).flatMap fun u =>
        List.replicate (s.copies m db l r) (some (l.document d u))) := by
  have hjoin : l.joinKeys.2 = l.relation.foreignKey := by simp [Load.joinKeys, hk]
  refine ⟨(g.map fun e => e l.relation.target).filterMap (pick m d l), ?_, ?_⟩
  · rw [← collect_eq, hjoin]
    simp only [Load.item, hk, Item.eval]
  · have hspread : ((s.parts m db r).map fun e => e l.relation.target).Perm _ :=
      spread_target_perm (List.nodup_cons.mp h.distinct).2 hl (start s.table r)
    rw [copies_eq h] at hspread
    rw [← filterMap_pick]
    exact ((hg.map _).trans hspread).filterMap (pick m d l)

/-- Documents that are each repeated are those of the partners just if nothing is repeated. -/
theorem replicate_perm_iff {α β : Type} {xs : List α} {f : α → β} {n : Nat} :
    (xs.flatMap fun x => List.replicate n (f x)).Perm (xs.map f) ↔ xs = [] ∨ n = 1 := by
  constructor
  · intro hperm
    have hlen := hperm.length_eq
    simp only [List.length_flatMap, List.length_replicate, List.map_const', List.sum_replicate_nat,
      List.length_map] at hlen
    cases xs with
    | nil => exact .inl rfl
    | cons x xs =>
      exact .inr (Nat.eq_of_mul_eq_mul_left (Nat.succ_pos xs.length) (by simpa using hlen))
  · rintro (rfl | rfl)
    · simp
    · simp only [List.replicate_one]
      exact .of_eq List.map_eq_flatMap.symm

theorem shows_eval (h : s.Sound m db key) (hl : l ∈ s.loads) (hg : g.Perm (s.parts m db r)) :
    s.Shows m db d r l (Item.eval m g (l.item d)) := by
  unfold Shows
  cases hk : l.relation.kind with
  | belongsTo => exact ⟨partners_length h hl hk r, eval_belongsTo h hl hk hg⟩
  | hasMany =>
    obtain ⟨ds, heval, hperm⟩ := eval_hasMany h hl hk hg
    refine ⟨ds, heval, hperm, ?_⟩
    rw [← copies_eq_one_iff, ← replicate_perm_iff (f := fun u => some (l.document d u))]
    exact ⟨hperm.symm.trans, hperm.trans⟩

theorem answers_loads (h : s.Sound m db key) {out : List (List (Field κ))}
    (hout : (s.tree d).Answers m db out) :
    ∃ rows, rows.Perm (s.wanted m db) ∧ List.Forall₂ (fun r fields => ∃ loaded,
      fields = .row (some r) :: loaded ∧ List.Forall₂ (s.Shows m db d r) s.loads loaded) rows out := by
  obtain ⟨visited, hv, hperm⟩ := hout
  obtain ⟨rows, hrows, hgroups⟩ := exists_gather h hv
  have hfields : List.Forall₂ (fun fields r => ∃ loaded, fields = .row (some r) :: loaded ∧
      List.Forall₂ (s.Shows m db d r) s.loads loaded)
      (((s.tree d).gather m visited).map fun g => (s.tree d).items.map (Item.eval m g)) rows := by
    refine List.forall₂_map_left_iff.mpr (hgroups.flip.imp fun g r hg => ?_)
    refine ⟨s.loads.map fun l => Item.eval m g (l.item d), ?_, ?_⟩
    · obtain ⟨e, he, hhead⟩ := exists_head hg
      have htable := parts_table h he
      simp [tree, Item.eval, hhead, htable, Function.comp_def]
    · rw [List.forall₂_map_right_iff, List.forall₂_same]
      exact fun l hl => shows_eval h hl hg
  obtain ⟨rows', hshown, hrows'⟩ := List.perm_comp_forall₂ hperm hfields
  exact ⟨rows', hrows'.trans hrows, hshown.flip⟩

end Select
end Relata.Query
