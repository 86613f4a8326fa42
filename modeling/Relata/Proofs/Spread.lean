import Mathlib.Algebra.BigOperators.Group.List.Basic
import Mathlib.Data.List.Nodup
import Mathlib.Data.List.Perm.Basic
import Relata.Proofs.Relational

/-!
How one row of a table spreads over the joins that load its relations: it stands once beside each
choice of a partner from every loaded table. Main statement: a partner of one relation is chosen as
often as there are choices for all the others.
-/
namespace Relata.Query

variable {κ γ : Type} [DecidableEq γ] (m : Meaning κ γ) (db : Database κ)

namespace Load

/-- The rows of the target that belong to a row of the table. -/
def partners (l : Load) (r : Tuple κ) : List (Tuple κ) :=
  (db l.relation.target).filter fun u => m.same (r l.joinKeys.1) (u l.joinKeys.2)

/-- What a left join puts beside a row: its partners, or nothing if it has none. -/
def choices (l : Load) (r : Tuple κ) : List (Option (Tuple κ)) :=
  if (l.partners m db r).isEmpty then [none] else (l.partners m db r).map some

theorem choices_length (l : Load) (r : Tuple κ) :
    (l.choices m db r).length = max 1 (l.partners m db r).length := by
  unfold choices
  split
  next h => simp [List.isEmpty_iff.mp h]
  next h =>
    have hpos : 0 < (l.partners m db r).length := List.length_pos_iff.mpr (by simpa using h)
    rw [List.length_map]
    omega

theorem choices_ne_nil (l : Load) (r : Tuple κ) : l.choices m db r ≠ [] := by
  rw [← List.length_pos_iff, choices_length]
  omega

theorem choices_eq_head {l : Load} {r : Tuple κ} (h : (l.partners m db r).length ≤ 1) :
    l.choices m db r = [(l.partners m db r).head?] := by
  unfold choices
  match hp : l.partners m db r with
  | [] => rfl
  | [u] => rfl
  | u :: v :: rest =>
    rw [hp] at h
    simp at h

end Load

/-- The rows beside `e` after all joins, one for each choice of partners of `r`. -/
def spread (r : Tuple κ) : List Load → Beside κ → List (Beside κ)
  | [], e => [e]
  | l :: ls, e =>
    (l.choices m db r).flatMap fun o => spread r ls (Function.update e l.relation.target o)

def targets (ls : List Load) : List String := ls.map fun l => l.relation.target

variable {m db} {table : String} {r : Tuple κ} {ls : List Load} {l : Load} {e e' : Beside κ}

theorem extend_eq_choices (he : e table = some r) (hne : l.relation.target ≠ table) :
    (l.join table).extend m db e =
      (l.choices m db r).map fun o => Function.update e l.relation.target o := by
  have hfound : ((db l.relation.target).map fun u => Function.update e l.relation.target (some u)).filter
        (fun e' => m.sameAt e' (l.join table).left (l.join table).right) =
      (l.partners m db r).map fun u => Function.update e l.relation.target (some u) := by
    rw [List.filter_map]
    refine congrArg (List.map _) (List.filter_congr fun u _ => ?_)
    simp [Meaning.sameAt, Meaning.cell, Load.join, Function.update_of_ne (Ne.symm hne), he]
  unfold Join.extend Load.choices
  simp only [show (l.join table).table = l.relation.target from rfl, hfound, List.isEmpty_map]
  split
  · rfl
  · rw [List.map_map]
    rfl

theorem foldl_flatMap {α ι : Type} (f : ι → α → List α) (js : List ι) (es : List α) :
    js.foldl (fun es j => es.flatMap (f j)) es =
      es.flatMap fun e => js.foldl (fun es j => es.flatMap (f j)) [e] := by
  induction js generalizing es with
  | nil => simp
  | cons j js ih =>
    rw [List.foldl_cons, ih, List.flatMap_assoc]
    refine List.flatMap_congr fun e _ => ?_
    rw [List.foldl_cons, ih ([e].flatMap (f j)), List.flatMap_singleton]

theorem foldl_extend (he : e table = some r) (hne : table ∉ targets ls) :
    (ls.map fun l => l.join table).foldl (fun es j => es.flatMap (j.extend m db)) [e] =
      spread m db r ls e := by
  induction ls generalizing e with
  | nil => rfl
  | cons l ls ih =>
    obtain ⟨hl, hls⟩ : table ≠ l.relation.target ∧ table ∉ targets ls := by
      simpa [targets] using hne
    rw [List.map_cons, List.foldl_cons, List.flatMap_singleton,
      extend_eq_choices he (Ne.symm hl), foldl_flatMap, List.flatMap_map]
    refine List.flatMap_congr fun o _ => ih ?_ hls
    rwa [Function.update_of_ne hl]

/-- Only the loaded tables change. -/
theorem spread_frame (h : e' ∈ spread m db r ls e) {x : String} (hx : x ∉ targets ls) :
    e' x = e x := by
  induction ls generalizing e with
  | nil => rw [List.mem_singleton.mp h]
  | cons l ls ih =>
    obtain ⟨hl, hls⟩ : x ≠ l.relation.target ∧ x ∉ targets ls := by simpa [targets] using hx
    obtain ⟨o, -, ho⟩ := List.mem_flatMap.mp h
    rw [ih ho hls, Function.update_of_ne hl]

theorem mem_choices_of_mem_spread (hnodup : (targets ls).Nodup) (hl : l ∈ ls)
    (h : e' ∈ spread m db r ls e) : e' l.relation.target ∈ l.choices m db r := by
  induction ls generalizing e with
  | nil => cases hl
  | cons l' ls ih =>
    obtain ⟨hnot, hrest⟩ := List.nodup_cons.mp hnodup
    obtain ⟨o, ho, hmem⟩ := List.mem_flatMap.mp h
    rcases List.mem_cons.mp hl with rfl | hl
    · rwa [spread_frame hmem hnot, Function.update_self]
    · exact ih hrest hl hmem

theorem length_spread (ls : List Load) (e : Beside κ) :
    (spread m db r ls e).length = (ls.map fun l => (l.choices m db r).length).prod := by
  induction ls generalizing e with
  | nil => rfl
  | cons l ls ih =>
    simp only [spread, List.length_flatMap, ih, List.map_const', List.sum_replicate_nat,
      List.map_cons, List.prod_cons]

theorem spread_ne_nil (ls : List Load) (e : Beside κ) : spread m db r ls e ≠ [] := by
  induction ls generalizing e with
  | nil => simp [spread]
  | cons l ls ih =>
    obtain ⟨o, ho⟩ := List.exists_mem_of_ne_nil _ (l.choices_ne_nil m db r)
    obtain ⟨e', he'⟩ := List.exists_mem_of_ne_nil _ (ih (Function.update e l.relation.target o))
    exact List.ne_nil_of_mem (List.mem_flatMap.mpr ⟨o, ho, he'⟩)

theorem flatMap_const_perm {α β : Type} (os : List β) (xs : List α) (n : Nat) :
    (os.flatMap fun _ => xs.flatMap (List.replicate n)).Perm
      (xs.flatMap (List.replicate (os.length * n))) := by
  induction os with
  | nil => simp
  | cons o os ih =>
    have hsplit : (List.replicate ((o :: os).length * n) : α → List α) =
        fun x => List.replicate n x ++ List.replicate (os.length * n) x := by
      funext x
      rw [List.replicate_append_replicate, List.length_cons, Nat.add_mul, Nat.one_mul, Nat.add_comm]
    rw [List.flatMap_cons, hsplit]
    exact (ih.append_left _).trans (List.flatMap_append_perm xs _ _)

/-- What stands in the place of one relation: each of its choices, as often as there are choices for
all the others. -/
theorem spread_target_perm (hnodup : (targets ls).Nodup) (hl : l ∈ ls) (e : Beside κ) :
    ((spread m db r ls e).map fun e' => e' l.relation.target).Perm
      ((l.choices m db r).flatMap
        (List.replicate ((ls.erase l).map fun o => (o.choices m db r).length).prod)) := by
  induction ls generalizing e with
  | nil => cases hl
  | cons l' ls ih =>
    obtain ⟨hnot, hrest⟩ := List.nodup_cons.mp hnodup
    rw [spread, List.map_flatMap]
    by_cases heq : l' = l
    · subst heq
      rw [List.erase_cons_head]
      refine .of_eq (List.flatMap_congr fun o _ => ?_)
      have hlen : (spread m db r ls (Function.update e l'.relation.target o)).length = _ :=
        length_spread ls _
      rw [← hlen]
      refine List.eq_replicate_iff.mpr ⟨List.length_map _, fun x hx => ?_⟩
      obtain ⟨e', he', rfl⟩ := List.mem_map.mp hx
      rw [spread_frame he' hnot, Function.update_self]
    · have hmem : l ∈ ls := (List.mem_cons.mp hl).resolve_left (Ne.symm heq)
      rw [List.erase_cons_tail (by simpa using heq), List.map_cons, List.prod_cons]
      refine (List.Perm.flatMap_left _ fun o _ => ih hrest hmem _).trans ?_
      exact flatMap_const_perm _ _ _

end Relata.Query
