import Relata.Schema.Registry

/-!
What every registry has by construction: each table stands once, under its own name.
-/
namespace Relata

namespace Keyed

variable {α : Type}

theorem lookup_cons_eq_ite (name n : String) (x : α) (l : List (String × α)) :
    ((n, x) :: l).lookup name = if name = n then some x else l.lookup name := by
  rw [List.lookup_cons]
  by_cases h : name = n
  · simp [h]
  · simp [h, beq_false_of_ne]

theorem lookup_eq_some_iff_mem {l : List (String × α)} (h : (l.map Prod.fst).Nodup) {name : String}
    {x : α} : l.lookup name = some x ↔ (name, x) ∈ l := by
  induction l with
  | nil => simp
  | cons e l ih =>
    obtain ⟨n, y⟩ := e
    obtain ⟨hhead, htail⟩ := List.nodup_cons.mp h
    rw [lookup_cons_eq_ite, List.mem_cons, Prod.mk.injEq]
    by_cases hname : name = n
    · subst hname
      have hrest : (name, x) ∉ l := fun hmem => hhead (List.mem_map.mpr ⟨_, hmem, rfl⟩)
      simp [hrest, eq_comm]
    · simp [hname, ih htail]

theorem mem_of_get? {k : Keyed α} {name : String} {x : α} (h : k.get? name = some x) :
    (name, x) ∈ k.entries := by
  unfold get? at h
  obtain ⟨l₁, l₂, hk, -⟩ := List.lookup_eq_some_iff.mp h
  simp [hk]

theorem mem_insertEntry {name : String} {item : α} {l : List (String × α)} {e : String × α}
    (h : e ∈ insertEntry name item l) : e = (name, item) ∨ e ∈ l := by
  induction l with
  | nil => exact .inl (List.mem_singleton.mp h)
  | cons f l ih =>
    obtain ⟨n, x⟩ := f
    by_cases hn : n = name
    · subst hn
      rw [insertEntry, if_pos rfl] at h
      rcases List.mem_cons.mp h with rfl | h
      · exact .inl rfl
      · exact .inr (List.mem_cons_of_mem _ h)
    · rw [insertEntry, if_neg hn] at h
      rcases List.mem_cons.mp h with rfl | h
      · exact .inr List.mem_cons_self
      · exact (ih h).imp_right (List.mem_cons_of_mem _)

theorem keys_insert_nodup {k : Keyed α} (h : k.keys.Nodup) (name : String) (item : α) :
    (k.insert name item).keys.Nodup := by
  rw [keys_insert]
  split
  · exact h
  next hn => exact List.nodup_append.mpr ⟨h, by simp, by
      intro a ha b hb
      rw [List.mem_singleton.mp hb]
      exact fun hab => hn (hab ▸ ha)⟩

theorem mem_keys_insert {k : Keyed α} {name other : String} {item : α}
    (h : other ∈ (k.insert name item).keys) : other = name ∨ other ∈ k.keys := by
  rw [keys_insert] at h
  split at h
  · exact .inr h
  · exact (List.mem_append.mp h).symm.imp_left List.mem_singleton.mp

theorem mem_keys_ofList {items : List (String × α)} {name : String}
    (h : name ∈ (ofList items).keys) : name ∈ items.map Prod.fst := by
  have hfold (k : Keyed α) : ∀ n ∈ (items.foldl (fun k item => k.insert item.1 item.2) k).keys,
      n ∈ k.keys ∨ n ∈ items.map Prod.fst := by
    clear h
    induction items generalizing k with
    | nil => exact fun n hn => .inl hn
    | cons item items ih =>
      intro n hn
      rcases ih (k.insert item.1 item.2) n hn with hn | hn
      · rcases mem_keys_insert hn with rfl | hn
        · exact .inr List.mem_cons_self
        · exact .inl hn
      · exact .inr (List.mem_cons_of_mem _ hn)
  exact (hfold empty name h).resolve_left (by simp)

theorem nodup_keys_ofList (items : List (String × α)) : (ofList items).keys.Nodup := by
  have hfold (k : Keyed α) (h : k.keys.Nodup) :
      (items.foldl (fun k item => k.insert item.1 item.2) k).keys.Nodup := by
    induction items generalizing k with
    | nil => exact h
    | cons item items ih => exact ih _ (keys_insert_nodup h item.1 item.2)
  exact hfold empty (by simp)

theorem insert_ne_nil (k : Keyed α) (name : String) (item : α) : (k.insert name item).entries ≠ [] := by
  have hkey : name ∈ (k.insert name item).keys := by
    rw [keys_insert]
    split
    next hmem => exact hmem
    next => simp
  intro hnil
  simp [keys, hnil] at hkey

theorem ofList_ne_nil {items : List (String × α)} (h : items ≠ []) : (ofList items).entries ≠ [] := by
  rw [ofList, ← List.dropLast_concat_getLast h, List.foldl_append]
  exact insert_ne_nil _ _ _

theorem mem_entries_ofList {items : List (String × α)} {e : String × α}
    (h : e ∈ (ofList items).entries) : e ∈ items := by
  have hfold (k : Keyed α) :
      ∀ e ∈ (items.foldl (fun k item => k.insert item.1 item.2) k).entries,
        e ∈ k.entries ∨ e ∈ items := by
    clear h
    induction items generalizing k with
    | nil => exact fun e he => .inl he
    | cons item items ih =>
      intro e he
      rcases ih (k.insert item.1 item.2) e he with he | he
      · rcases mem_insertEntry he with rfl | he
        · exact .inr List.mem_cons_self
        · exact .inl he
      · exact .inr (List.mem_cons_of_mem _ he)
  exact (hfold empty e h).resolve_left (by simp)

theorem insertEntry_of_not_mem {name : String} {l : List (String × α)}
    (h : name ∉ l.map Prod.fst) (item : α) : insertEntry name item l = l ++ [(name, item)] := by
  induction l with
  | nil => rfl
  | cons e l ih =>
    obtain ⟨n, x⟩ := e
    rw [List.map_cons, List.mem_cons, not_or] at h
    rw [insertEntry, if_neg fun hn => h.1 hn.symm, ih h.2]
    rfl

/-- Items of distinct names all stay, in their order. -/
theorem entries_ofList {items : List (String × α)} (h : (items.map Prod.fst).Nodup) :
    (ofList items).entries = items := by
  have hfold (k : Keyed α) (hk : (k.entries.map Prod.fst ++ items.map Prod.fst).Nodup) :
      (items.foldl (fun k item => k.insert item.1 item.2) k).entries = k.entries ++ items := by
    clear h
    induction items generalizing k with
    | nil => simp
    | cons item items ih =>
      have hnew : item.1 ∉ k.entries.map Prod.fst := by
        intro hmem
        rw [List.nodup_append] at hk
        exact hk.2.2 _ hmem item.1 (by simp) rfl
      have hinsert : (k.insert item.1 item.2).entries = k.entries ++ [item] :=
        insertEntry_of_not_mem hnew item.2
      rw [List.foldl_cons, ih, hinsert]
      · simp
      · simpa [hinsert] using hk
  exact hfold empty (by simpa using h)

end Keyed

namespace Schema

/-- Each table stands once, under its own name. -/
structure Proper (s : Schema) : Prop where
  named : ∀ e ∈ s.tables.entries, e.2.name = e.1
  nodup : s.tables.keys.Nodup

theorem Proper.register {s : Schema} (h : s.Proper) (t : Table) : (s.register t).Proper where
  named e he := by
    rcases Keyed.mem_insertEntry he with rfl | he
    · rfl
    · exact h.named e he
  nodup := Keyed.keys_insert_nodup h.nodup t.name t

theorem proper_foldl {s : Schema} (h : s.Proper) (tables : List Table) :
    (tables.foldl Schema.register s).Proper := by
  induction tables generalizing s with
  | nil => exact h
  | cons t tables ih => exact ih (h.register t)

theorem proper_ofList (tables : List Table) : (ofList tables).Proper :=
  proper_foldl ⟨by simp [empty], by simp [empty]⟩ tables

theorem Proper.map_name {s : Schema} (h : s.Proper) : s.toList.map Table.name = s.tables.keys := by
  simp only [toList, Keyed.values, Keyed.keys, List.map_map]
  exact List.map_congr_left h.named

/-- No two registered tables share a name. -/
theorem nodup_names (tables : List Table) : ((ofList tables).toList.map Table.name).Nodup := by
  have h := proper_ofList tables
  rw [h.map_name]
  exact h.nodup

theorem tables_ofList (tables : List Table) :
    (ofList tables).tables = Keyed.ofList (tables.map fun t => (t.name, t)) := by
  have hfold (s : Schema) : (tables.foldl register s).tables =
      (tables.map fun t => (t.name, t)).foldl (fun k item => k.insert item.1 item.2) s.tables := by
    induction tables generalizing s with
    | nil => rfl
    | cons t tables ih => exact ih (s.register t)
  exact hfold empty

/-- Tables of distinct names are registered in their order. -/
theorem toList_ofList {tables : List Table} (h : (tables.map Table.name).Nodup) :
    (ofList tables).toList = tables := by
  have hkeys : ((tables.map fun t => (t.name, t)).map Prod.fst).Nodup := by
    rwa [List.map_map]
  rw [toList, tables_ofList, Keyed.values, Keyed.entries_ofList hkeys, List.map_map]
  exact List.map_id tables

theorem register_toList_ne_nil (s : Schema) (t : Table) : (s.register t).toList ≠ [] :=
  mt List.map_eq_nil_iff.mp (Keyed.insert_ne_nil s.tables t.name t)

theorem ofList_toList_ne_nil {tables : List Table} (h : tables ≠ []) :
    (ofList tables).toList ≠ [] := by
  rw [ofList, ← List.dropLast_concat_getLast h, List.foldl_append]
  exact register_toList_ne_nil _ _

theorem mem_toList_of_get? {s : Schema} {name : String} {t : Table} (h : s.get? name = some t) :
    t ∈ s.toList := List.mem_map.mpr ⟨_, Keyed.mem_of_get? h, rfl⟩

end Schema
end Relata
