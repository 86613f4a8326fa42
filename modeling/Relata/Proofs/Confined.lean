import Relata.Proofs.Lexeme
import Relata.Query.Command

/-!
Statements of the builder under hostile names. Every fragment of a statement is closed: whatever
characters the names, literals and keys hold, a lexer finds each of them as one token, and the
placeholders between them. Main statement: the names and placeholders that a lexer finds in a
compiled statement are the names that were given and one placeholder for each parameter.
-/
namespace Relata

namespace Sql

/-- Closed pieces of which every name satisfies `A`. -/
def Confined (A : String → Prop) (p : List Piece) : Prop := Closed p ∧ ∀ n ∈ names p, A n

/-- Confined pieces that may stand after any others. -/
def Tail (A : String → Prop) (p : List Piece) : Prop := Confined A p ∧ opens p

variable {A : String → Prop} {p q : List Piece} {s sep : String}

theorem names_append (p q : List Piece) : names (p ++ q) = names p ++ names q := by
  induction p with
  | nil => rfl
  | cons x p ih => cases x <;> simp [names, ih]

namespace Confined

theorem nil : Confined A [] := ⟨trivial, by simp [names]⟩

/-- Fixed fragments are checked by evaluation. -/
theorem of_closes (h : closes p = true) (hn : ∀ n ∈ names p, A n) : Confined A p :=
  ⟨.of_closes h, hn⟩

theorem text (hs : Clean s) (hp : Confined A p) : Confined A (.text s :: p) :=
  ⟨⟨hs, hp.1⟩, hp.2⟩

theorem append (hp : Confined A p) (hq : Tail A q) : Confined A (p ++ q) := by
  refine ⟨hp.1.append hq.1.1 hq.2, fun n hn => ?_⟩
  rw [names_append] at hn
  exact (List.mem_append.mp hn).elim (hp.2 n) (hq.1.2 n)

theorem separated (hsep : Clean sep) (ho : opens [.text sep]) {items : List (List Piece)}
    (h : ∀ p ∈ items, Confined A p) : Confined A (separated sep items) := by
  induction items with
  | nil => exact nil
  | cons p items ih =>
    have hp := h p List.mem_cons_self
    have hitems := ih fun q hq => h q (List.mem_cons_of_mem p hq)
    cases items with
    | nil => exact hp
    | cons q rest => exact hp.append ⟨text hsep hitems, ho⟩

end Confined

namespace Tail

theorem nil : Tail A [] := ⟨.nil, rfl⟩

theorem text (hs : Clean s) (ho : opens [.text s]) (hp : Confined A p) : Tail A (.text s :: p) :=
  ⟨hp.text hs, ho⟩

theorem of_closes (h : closes p = true) (ho : opens p) (hn : ∀ n ∈ names p, A n) : Tail A p :=
  ⟨.of_closes h hn, ho⟩

theorem append (hp : Tail A p) (hq : Tail A q) : Tail A (p ++ q) :=
  ⟨hp.1.append hq, opens_append hp.2 hq.2⟩

theorem flatMap {ι : Type} {items : List ι} {f : ι → List Piece} (h : ∀ i ∈ items, Tail A (f i)) :
    Tail A (items.flatMap f) := by
  induction items with
  | nil => exact nil
  | cons i items ih =>
    rw [List.flatMap_cons]
    exact (h i List.mem_cons_self).append (ih fun j hj => h j (List.mem_cons_of_mem i hj))

end Tail

theorem column_confined {t c : String} (ht : A t) (hc : A c) : Confined A (column t c) :=
  .of_closes rfl (by simpa [names, column] using ⟨ht, hc⟩)

theorem isPlain_of_isDigit {c : Char} (h : c.isDigit = true) : isPlain c = true := by
  have hne (x : Char) (hx : x.isDigit = false) : (c == x) = false := by
    refine beq_eq_false_iff_ne.mpr fun heq => ?_
    rw [heq, hx] at h
    cases h
  simp only [isPlain, isQuote, isMarkLead, hne '"' rfl, hne '\'' rfl, hne '$' rfl, hne '?' rfl,
    hne ':' rfl, hne '@' rfl, Bool.or_self, Bool.not_false, Bool.and_self]

/-- Plain text around a literal that it does not touch with a quote mark. -/
theorem Clean.around (lead lit tail : String) (hl : lead.toList.all isPlain = true)
    (ht : tail.toList.all isPlain = true) (ho : opens [.text tail]) :
    Clean (lead ++ quoteLiteral lit ++ tail) := by
  have hscan (rest : List Char) : scan ((lead ++ quoteLiteral lit ++ tail).toList ++ rest) =
      (scan rest).map ((lead.toList.map .other ++ [.literal lit] ++ tail.toList.map .other) ++ ·) := by
    have hdet : Detached (tail.toList ++ rest) := by
      obtain ⟨c, hc, hplain⟩ := (Option.any_eq_true _ _).mp ho
      obtain ⟨cs, hs⟩ := List.head?_eq_some_iff.mp hc
      simpa [hs] using hplain
    rw [String.toList_append, String.toList_append, toList_quoteLiteral, List.append_assoc,
      List.append_assoc, List.append_assoc, scan_plain hl, scan_token rfl _ hdet, scan_plain ht]
    simp [Function.comp_def, Lexeme.quoted]
  have hself := hscan []
  simp only [List.append_nil, scan_nil, Option.map_some] at hself
  have hscanned : scanned (lead ++ quoteLiteral lit ++ tail) =
      lead.toList.map .other ++ [.literal lit] ++ tail.toList.map .other := by
    simp only [scanned, hself, Option.getD_some]
  refine ⟨fun rest => by rw [hscanned, hscan], fun l hmem => ?_⟩
  rw [hscanned] at hmem
  simp only [List.mem_append, List.mem_map, List.mem_singleton] at hmem
  rcases hmem with (⟨c, -, rfl⟩ | rfl) | ⟨c, -, rfl⟩ <;> exact ⟨rfl, rfl⟩

end Sql

namespace Query

open Sql

variable {A : String → Prop} {t : String}

/-- A bare key whose name satisfies `A`. -/
def Key.Within (A : String → Prop) (k : Key) : Prop := ∃ c, k = .own c ∧ A c

theorem Key.confined {k : Key} (ht : A t) (hk : k.Within A) : Confined A (k.pieces t) := by
  obtain ⟨c, rfl, hc⟩ := hk
  exact column_confined ht hc

theorem Condition.confined {c : Condition} (ht : A t) (hc : c.key.Within A) :
    Confined A (c.pieces t) := by
  refine (Key.confined ht hc).append (.of_closes ?_ ?_ (by simp [names]))
  all_goals cases c.operator <;> rfl

/-- Whether listed or left out, a clause may stand after any pieces. -/
theorem clause_tail {lead sep : String} (hl : closes [.text lead] = true) (hol : opens [.text lead])
    (hs : closes [.text sep] = true) (hos : opens [.text sep]) {items : List (List Piece)}
    (h : ∀ p ∈ items, Confined A p) : Tail A (clause lead sep items) := by
  unfold clause
  split
  · exact .nil
  · exact .text (Closed.of_closes hl).1 hol (.separated (Closed.of_closes hs).1 hos h)

theorem wherePieces_tail {cs : List Condition} (ht : A t) (hc : ∀ c ∈ cs, c.key.Within A) :
    Tail A (wherePieces t cs) :=
  clause_tail rfl rfl rfl rfl (List.forall_mem_map.mpr fun c h => c.confined ht (hc c h))

theorem orderPieces_tail {order : List (Key × Direction)} (ht : A t)
    (ho : ∀ o ∈ order, o.1.Within A) : Tail A (orderPieces t order) := by
  refine clause_tail rfl rfl rfl rfl (List.forall_mem_map.mpr fun o h => ?_)
  refine (Key.confined ht (ho o h)).append (.of_closes ?_ ?_ (by simp [names]))
  all_goals cases o.2 <;> rfl

theorem countPieces_tail {lead : String} (hl : lead.toList.all isPlain = true)
    (ho : opens [.text lead]) (n : Option Nat) : Tail A (countPieces lead n) := by
  cases n with
  | none => exact .nil
  | some n =>
    have hdigits : (Nat.repr n).toList.all isPlain = true := by
      rw [Nat.repr_eq_ofList_toDigits, String.toList_ofList, List.all_eq_true]
      intro c hc
      exact isPlain_of_isDigit (Nat.isDigit_of_mem_toDigits (by decide) (by decide) hc)
    refine .text (.of_plain ?_) ?_ .nil
    · rw [String.toList_append, List.all_append, hl, hdigits]
      rfl
    · obtain ⟨c, hc, hplain⟩ := (Option.any_eq_true _ _).mp ho
      obtain ⟨cs, hcs⟩ := List.head?_eq_some_iff.mp hc
      simpa [opens, hcs] using hplain

namespace Load

/-- The names that loading a relation writes. -/
def names (l : Load) : List String :=
  [l.name, l.relation.target, l.relation.foreignKey, l.relation.key] ++ l.fields

variable {l : Load}

theorem targetColumn_confined {c : String} (h : ∀ n ∈ l.names, A n) (hc : A c) :
    Confined A (l.targetColumn c) :=
  column_confined (h _ (by simp [names])) hc

theorem joinKeys_within (h : ∀ n ∈ l.names, A n) : A l.joinKeys.1 ∧ A l.joinKeys.2 := by
  have hf : A l.relation.foreignKey := h _ (by simp [names])
  have hk : A l.relation.key := h _ (by simp [names])
  unfold joinKeys
  split
  · exact ⟨hf, hk⟩
  · exact ⟨hk, hf⟩

theorem joinPieces_confined (ht : A t) (h : ∀ n ∈ l.names, A n) : Confined A (l.joinPieces t) := by
  obtain ⟨h1, h2⟩ := joinKeys_within h
  have htarget : A l.relation.target := h _ (by simp [names])
  refine .of_closes rfl ?_
  simp only [joinPieces, targetColumn, Sql.column, List.cons_append, List.nil_append, Sql.names,
    List.forall_mem_cons]
  exact ⟨htarget, ht, h1, htarget, h2, by simp⟩

theorem fieldPieces_confined {field : String} (h : ∀ n ∈ l.names, A n) (hf : A field) :
    Confined A (l.fieldPieces field) := by
  have htarget : A l.relation.target := h _ (by simp [names])
  exact .of_closes rfl (by simpa [fieldPieces, targetColumn, Sql.column, Sql.names] using ⟨htarget, hf⟩)

theorem objectPieces_confined (d : Dialect) (h : ∀ n ∈ l.names, A n) :
    Confined A (l.objectPieces d) := by
  cases d with
  | postgres => exact .of_closes rfl (by simpa [objectPieces, Sql.names] using h _ (by simp [names]))
  | sqlite =>
    have hfields : ∀ p ∈ l.fields.map l.fieldPieces, Confined A p :=
      List.forall_mem_map.mpr fun f hf => fieldPieces_confined h (h f (by simp [names, hf]))
    exact (Confined.text (.of_plain rfl) (.separated (.of_plain rfl) rfl hfields)).append
      (.of_closes rfl rfl (by simp [Sql.names]))

/-- The empty array is the one literal among the fixed texts. -/
theorem clean_emptyArray : Clean " IS NOT NULL), '[]')" :=
  Clean.around " IS NOT NULL), " "[]" ")" rfl rfl rfl

theorem projectionPieces_confined (d : Dialect) (h : ∀ n ∈ l.names, A n) :
    Confined A (l.projectionPieces d) := by
  have hobject := objectPieces_confined d h
  have halias : Tail A [.text " AS ", .name l.name] :=
    .of_closes rfl rfl (by simpa [Sql.names] using h _ (by simp [names]))
  have hcolumn {c : String} (hc : c ∈ l.names) : Confined A (l.targetColumn c) :=
    targetColumn_confined h (h c hc)
  unfold projectionPieces
  refine Confined.append ?_ halias
  cases hk : l.relation.kind with
  | belongsTo =>
    cases d with
    | postgres => exact hobject.text (.of_plain rfl) |>.append (.of_closes rfl rfl (by simp [Sql.names]))
    | sqlite =>
      have hcase := (hcolumn (c := l.relation.key) (by simp [names])).text (s := "CASE WHEN ")
        (.of_plain rfl)
      have helse : Tail A [.text " IS NULL THEN NULL ELSE "] :=
        .of_closes rfl rfl (by simp [Sql.names])
      exact ((hcase.append helse).append ⟨hobject, rfl⟩).append
        (.of_closes rfl rfl (by simp [Sql.names]))
  | hasMany =>
    have hlead : Clean ("COALESCE(" ++ aggregate d ++ "(") := .of_plain (by cases d <;> rfl)
    have hfilter : Tail A (.text ") FILTER (WHERE " :: (l.targetColumn l.relation.foreignKey ++
        [.text " IS NOT NULL), '[]')"])) :=
      .text (.of_plain rfl) rfl
        ((hcolumn (by simp [names])).append (.text clean_emptyArray rfl .nil))
    simpa using (hobject.text hlead).append hfilter

end Load

namespace Select

variable {s : Select}

/-- The names that a query is stated with. -/
structure Within (A : String → Prop) (s : Select) : Prop where
  table : A s.table
  primaryKey : ∀ k ∈ s.primaryKey, A k
  selection : s.selection = .all
  loads : ∀ l ∈ s.loads, ∀ n ∈ l.names, A n
  conditions : ∀ c ∈ s.conditions, c.key.Within A
  order : ∀ o ∈ s.order, o.1.Within A

theorem groupKeys_within (h : s.Within A) : ∀ k ∈ s.groupKeys, A k.1 ∧ A k.2 := by
  intro k hk
  unfold groupKeys at hk
  split at hk
  · cases hk
  rcases List.mem_append.mp (mem_firsts.mp hk).1 with hk | hk
  · obtain ⟨l, hl, rfl⟩ := List.mem_map.mp hk
    have hkey : A l.relation.key := h.loads l (List.mem_filter.mp hl).1 _ (by simp [Load.names])
    refine ⟨h.table, ?_⟩
    cases hp : s.primaryKey with
    | none => exact hkey
    | some p => exact h.primaryKey p hp
  · obtain ⟨l, hl, rfl⟩ := List.mem_map.mp hk
    have hnames := h.loads l (List.mem_filter.mp hl).1
    exact ⟨hnames _ (by simp [Load.names]), hnames _ (by simp [Load.names])⟩

theorem pieces_confined (d : Dialect) (h : s.Within A) : Confined A (s.pieces d) := by
  have hitems : ∀ p ∈ s.selection.pieces s.table ++ s.loads.map fun l => l.projectionPieces d,
      Confined A p := by
    rw [h.selection]
    intro p hp
    rcases List.mem_append.mp hp with hp | hp
    · obtain rfl := List.mem_singleton.mp hp
      exact .of_closes rfl (by simpa [names] using h.table)
    · obtain ⟨l, hl, rfl⟩ := List.mem_map.mp hp
      exact l.projectionPieces_confined d (h.loads l hl)
  have hselect : Confined A (.text "SELECT " :: separated ", " _) :=
    .text (.of_plain rfl) (.separated (.of_plain rfl) rfl hitems)
  have hfrom : Tail A [.text " FROM ", .name s.table] :=
    .of_closes rfl rfl (by simpa [names] using h.table)
  have hjoins : Tail A (s.loads.flatMap fun l => .text " " :: l.joinPieces s.table) :=
    .flatMap fun l hl => .text (.of_plain rfl) rfl (l.joinPieces_confined h.table (h.loads l hl))
  have hgroup : Tail A (clause " GROUP BY " ", " (s.groupKeys.map fun k => Sql.column k.1 k.2)) :=
    clause_tail rfl rfl rfl rfl (List.forall_mem_map.mpr fun k hk =>
      column_confined (groupKeys_within h k hk).1 (groupKeys_within h k hk).2)
  exact ((((((hselect.append hfrom).append hjoins).append (wherePieces_tail h.table h.conditions)).append
    hgroup).append (orderPieces_tail h.table h.order)).append (countPieces_tail rfl rfl s.limit)).append
    (countPieces_tail rfl rfl s.offset)

end Select

namespace Command

variable {record : Keyed Value} {cs : List Condition}

theorem insertPieces_confined (ht : A t) (hr : ∀ k ∈ record.keys, A k) :
    Confined A (insertPieces t record) := by
  have hinto : Confined A [.text "INSERT INTO ", .name t] :=
    .of_closes rfl (by simpa [names] using ht)
  have hkeys : Confined A (separated ", " (record.keys.map fun k => [.name k])) :=
    .separated (.of_plain rfl) rfl
      (List.forall_mem_map.mpr fun k hk => .of_closes rfl (by simpa [names] using hr k hk))
  have hvalues : Confined A (separated ", " (record.values.map fun v => [.slot v])) :=
    .separated (.of_plain rfl) rfl
      (List.forall_mem_map.mpr fun v _ => .of_closes rfl (by simp [names]))
  refine (hinto.append ?_).append (.of_closes rfl rfl (by simp [names]))
  split
  · exact .of_closes rfl rfl (by simp [names])
  · have hlist := hvalues.append (.of_closes (p := [.text ")"]) rfl rfl (by simp [names]))
    simpa using Tail.text (.of_plain rfl) rfl (hkeys.append (.text (.of_plain rfl) rfl hlist))

theorem updatePieces_confined (ht : A t) (hr : ∀ k ∈ record.keys, A k)
    (hc : ∀ c ∈ cs, c.key.Within A) : Confined A (updatePieces t record cs) := by
  have hset : Confined A
      (separated ", " (record.entries.map fun e => [.name e.1, .text " = ", .slot e.2])) :=
    .separated (.of_plain rfl) rfl (List.forall_mem_map.mpr fun e he =>
      .of_closes rfl (by simpa [names] using hr e.1 (List.mem_map_of_mem he)))
  have hlead : Confined A (.text "UPDATE " :: .name t :: .text " SET " :: _) :=
    ⟨⟨.of_plain rfl, rfl, .of_plain rfl, hset.1⟩, by simpa [names] using ⟨ht, hset.2⟩⟩
  exact (hlead.append (wherePieces_tail ht hc)).append (.of_closes rfl rfl (by simp [names]))

theorem deletePieces_confined (ht : A t) (hc : ∀ c ∈ cs, c.key.Within A) :
    Confined A (deletePieces t cs) :=
  Confined.append (.of_closes rfl (by simpa [names] using ht)) (wherePieces_tail ht hc)

end Command
end Query
end Relata
