import Relata.Proofs.Projections
import Relata.Proofs.Tables

/-!
Rows by their key. Main statement: where a database answers the compiled statements with what they
mean, and no two rows share a key, a row that a model adds is the row that it gets by its key; an update
by key changes the row with that key in the columns of the record, and a deletion by key removes it.
-/
namespace Relata

open Query

variable {σ γ : Type} {m : Model} {db : Adapter σ} {ρ : Rules γ} {store : σ → Keyed Content}
  {s u : σ} {v : Value}

/-- The text of a statement is read as `dml`, with these parameters. -/
structure Statement.IsRead (stmt : Statement) (d : Dialect) (dml : Dml) (params : List Value) :
    Prop where
  read : Dml.ofSql? d stmt.sql stmt.params = some dml
  params_eq : stmt.params = params

namespace Model

theorem query_eq (m : Model) (d : Dialect) :
    m.query d = { QueryBuilder.ofTable m.table d with schema := m.schema } := by
  unfold query
  cases hs : m.schema with
  | none => rfl
  | some s => rfl

/-- The query of the rows with a key. -/
def keySelect (m : Model) (v : Value) : Select where
  table := m.table.name
  primaryKey := m.table.primaryKey?
  selection := .all
  loads := []
  conditions := [⟨Key.ofText m.key, .eq, v⟩]
  order := []
  limit := none
  offset := none

section Compile

variable (m : Model) (d : Dialect)

theorem compile_insert (record : Keyed Value) :
    ∃ stmt, ((m.query d).insert record).compile = .ok stmt ∧
      stmt.IsRead d (.insert m.table.name record.keys) record.values := by
  have hcompile : ((m.query d).insert record).compile =
      .ok ((Command.insert m.table.name record).statement d) := by
    rw [query_eq]
    rfl
  have hparams : Sql.operands (Command.insertPieces m.table.name record) = record.values :=
    Command.operands_insertPieces
  exact ⟨_, hcompile, Dml.ofSql?_insert d m.table.name record, hparams⟩

variable {m} (hkey : '.' ∉ m.key.toList)

include hkey

/-- The condition on the key as one on a column of the table itself. -/
theorem condition_key (v : Value) :
    (⟨Key.ofText m.key, .eq, v⟩ : Condition) = Dml.condition ((m.key, .eq), v) := by
  rw [Key.ofText_bare hkey]
  rfl

theorem compile_get (v : Value) : ∃ stmt, ((m.query d).whereEq m.key v).compile = .ok stmt ∧
    stmt.IsRead d (.select m.table.name [(m.key, .eq)]) [v] := by
  have htests : (m.keySelect v).conditions = [((m.key, .eq), v)].map Dml.condition :=
    congrArg (fun c => [c]) (condition_key hkey v)
  have hcompile : ((m.query d).whereEq m.key v).compile =
      .ok ((Command.select (m.keySelect v)).statement d) := by
    rw [query_eq]
    rfl
  refine ⟨_, hcompile, Dml.ofSql?_select d rfl rfl rfl rfl rfl htests, ?_⟩
  simp only [Command.statement, Sql.statement, Command.pieces, Select.operands_pieces]
  rfl

theorem compile_update {record : Keyed Value} (hne : record.entries ≠ []) (v : Value) :
    ∃ stmt, (((m.query d).update record).whereEq m.key v).compile = .ok stmt ∧
      stmt.IsRead d (.update m.table.name record.keys [(m.key, .eq)]) (record.values ++ [v]) := by
  have hempty : record.isEmpty = false := by simpa [Keyed.isEmpty] using hne
  have hcompile : (((m.query d).update record).whereEq m.key v).compile = .ok
      ((Command.update m.table.name record ([((m.key, .eq), v)].map Dml.condition)).statement d) := by
    rw [List.map_singleton, ← condition_key hkey, query_eq]
    unfold QueryBuilder.compile QueryBuilder.command
    simp only [QueryBuilder.whereEq, QueryBuilder.addCondition, QueryBuilder.update, hempty]
    rfl
  exact ⟨_, hcompile, Dml.ofSql?_update d m.table.name hne _, Command.operands_updatePieces⟩

theorem compile_delete (v : Value) :
    ∃ stmt, ((m.query d).delete.whereEq m.key v).compile = .ok stmt ∧
      stmt.IsRead d (.delete m.table.name [(m.key, .eq)]) [v] := by
  have hcompile : ((m.query d).delete.whereEq m.key v).compile =
      .ok ((Command.delete m.table.name ([((m.key, .eq), v)].map Dml.condition)).statement d) := by
    rw [List.map_singleton, ← condition_key hkey, query_eq]
    rfl
  exact ⟨_, hcompile, Dml.ofSql?_delete d m.table.name _, Command.operands_deletePieces⟩

end Compile

theorem decode_nil (table : String) (rows : List Row) : decode table [] rows = (rows, []) := by
  induction rows with
  | nil => rfl
  | cons row rows ih => simp [decode, decodeRow, ih]

/-- A query without options ends as its statement does. -/
theorem fetch_ends {b : QueryBuilder} {stmt : Statement} {r : Except Error (List Row)}
    (hb : b.compile = .ok stmt) (he : (db.fetch stmt).Ends s r u) :
    (m.fetch db (.ok b) .none).Ends s r u := by
  have happly : FindOptions.none.apply b = .ok b := rfl
  unfold fetch
  rw [Action.ends_ofExcept_bind, happly, Action.ends_ofExcept_bind, hb, Action.ends_ofExcept_bind]
  cases r with
  | error e => exact he.bind_error
  | ok rows =>
    refine he.bind ?_
    rw [FindOptions.none, decode_nil]
    exact (Action.ends_logAll.mpr ⟨rfl, rfl⟩).bind (Action.ends_pure.mpr ⟨rfl, rfl⟩)

end Model

/-- Begun in the state `s`, the action ends as `c` does: with the same error, or where that has an
answer, with one such that `P` holds of it and of the state. -/
structure Action.Follows {α β : Type} (a : Action σ β) (c : Action σ α) (s : σ)
    (P : β → σ → Prop) : Prop where
  fails {e : Error} {t : σ} (h : c.Ends s (.error e) t) : a.Ends s (.error e) t
  answers {x : α} {t : σ} (h : c.Ends s (.ok x) t) : ∃ y, a.Ends s (.ok y) t ∧ P y t

section Meaning

variable {b : QueryBuilder} {dml : Dml} {params : List Value} {stmt : Statement}

theorem Adapter.Fetches.means {rows : List Row} (h : db.Fetches ρ store b s)
    (hb : b.compile = .ok stmt) (hread : stmt.IsRead db.dialect dml params)
    (he : (db.fetch stmt).Ends s (.ok rows) u) :
    ∃ n, ρ.Means (store s) dml params rows n (store u) := by
  obtain ⟨n, hmeans⟩ := h stmt dml rows u hb hread.read he
  rw [hread.params_eq] at hmeans
  exact ⟨n, hmeans⟩

theorem Adapter.Tallies.means {n : Nat} (h : db.Tallies ρ store b s)
    (hb : b.compile = .ok stmt) (hread : stmt.IsRead db.dialect dml params)
    (he : (db.run stmt).Ends s (.ok n) u) :
    ∃ rows, ρ.Means (store s) dml params rows n (store u) := by
  obtain ⟨rows, hmeans⟩ := h stmt dml n u hb hread.read he
  rw [hread.params_eq] at hmeans
  exact ⟨rows, hmeans⟩

end Meaning

theorem Keyed.zip_values {α : Type} (k : Keyed α) (l : List α) :
    k.keys.zip (k.values ++ l) = k.entries := by
  unfold keys values
  induction k.entries with
  | nil => rfl
  | cons e entries ih => simp [ih]

theorem Keyed.drop_values {α : Type} (k : Keyed α) (l : List α) :
    (k.values ++ l).drop k.keys.length = l := by
  have hlength : k.keys.length = k.values.length := by simp [keys, values]
  rw [hlength, List.drop_left]

namespace Rules

variable {tables after : Keyed Content} {name key t c : String} {content : Content} {out : List Row}
  {n : Nat}

theorem table?_insert (ht : ρ.table? tables name = some (t, content)) (y : Content) :
    ρ.table? (tables.insert t y) name = some (t, y) :=
  Keyed.find?_insert (p := fun n => ρ.fold n = ρ.fold name) ht y

theorem Means.insert_adds {columns : List String} {params : List Value}
    (h : ρ.Means tables (.insert name columns) params out n after) :
    ∃ t content row, ρ.table? tables name = some (t, content) ∧ row.keys = content.columns ∧
      out = [row] ∧ after = tables.insert t { content with rows := row ::ₘ content.rows } := by
  cases h with
  | insert ht hrow => exact ⟨_, _, _, ht, hrow, rfl, rfl⟩

section Key

variable (ht : ρ.table? tables name = some (t, content))
  (hc : ρ.column? content.columns key = some c)

include ht hc

theorem Means.select_key (h : ρ.Means tables (.select name [(key, .eq)]) [v] out n after) :
    (out : Multiset Row) = content.rows.filter (ρ.meets t c .eq v ·) ∧ after = tables := by
  have hpicks : ρ.picks t content.columns ([(key, .eq)].zip [v]) = ρ.meets t c .eq v := picks_key hc
  cases h with
  | select ht' hout =>
    obtain ⟨rfl, rfl⟩ := Prod.mk.inj (Option.some.inj (ht.symm.trans ht'))
    rw [hpicks] at hout
    exact ⟨hout, rfl⟩

theorem Means.update_key {record : Keyed Value}
    (h : ρ.Means tables (.update name record.keys [(key, .eq)]) (record.values ++ [v]) out n after) :
    (out : Multiset Row) = (content.rows.filter (ρ.meets t c .eq v ·)).map
        (ρ.assign t content.columns record.entries) ∧
      after = tables.insert t (ρ.updated t content record.entries (ρ.meets t c .eq v)) := by
  have hsets : record.keys.zip (record.values ++ [v]) = record.entries := record.zip_values [v]
  have hpicks : ρ.picks t content.columns
      ([(key, .eq)].zip ((record.values ++ [v]).drop record.keys.length)) = ρ.meets t c .eq v := by
    rw [record.drop_values]
    exact picks_key hc
  cases h with
  | update ht' hp hout =>
    obtain ⟨rfl, rfl⟩ := Prod.mk.inj (Option.some.inj (ht.symm.trans ht'))
    rw [hpicks] at hp
    subst hp
    rw [hsets] at hout ⊢
    exact ⟨hout, rfl⟩

theorem Means.delete_key (h : ρ.Means tables (.delete name [(key, .eq)]) [v] out n after) :
    n = (content.rows.filter (ρ.meets t c .eq v ·)).card ∧
      after = tables.insert t { content with rows := content.rows.filter (!ρ.meets t c .eq v ·) } := by
  have hpicks : ρ.picks t content.columns ([(key, .eq)].zip [v]) = ρ.meets t c .eq v := picks_key hc
  cases h with
  | delete ht' hp =>
    obtain ⟨rfl, rfl⟩ := Prod.mk.inj (Option.some.inj (ht.symm.trans ht'))
    rw [hpicks] at hp
    subst hp
    exact ⟨rfl, rfl⟩

end Key

end Rules

namespace Model

/-- What a successful creation adds. -/
theorem create_adds {record : List (String × Value)} {row : Row}
    (h : db.Fetches ρ store ((m.query db.dialect).insert (.ofList record)) s)
    (he : (m.create db record).Ends s (.ok row) u) :
    ∃ t content, ρ.table? (store s) m.table.name = some (t, content) ∧ row.keys = content.columns ∧
      store u = (store s).insert t { content with rows := row ::ₘ content.rows } := by
  obtain ⟨stmt, hstmt, hread⟩ := m.compile_insert db.dialect (.ofList record)
  unfold create at he
  rw [hstmt] at he
  obtain ⟨rows, w, hrows, hrest⟩ | ⟨e, -, hfail⟩ := Action.ends_bind.mp (Action.ends_ofExcept_bind.mp he)
  · obtain ⟨n, hmeans⟩ := h.means hstmt hread hrows
    obtain ⟨t, content, row', ht, hkeys, rfl, hafter⟩ := hmeans.insert_adds
    obtain ⟨hrow, rfl⟩ := Action.ends_pure.mp hrest
    cases hrow
    exact ⟨t, content, ht, hkeys, hafter⟩
  · cases hfail

section Key

variable {t c : String} {content : Content} (hkey : '.' ∉ m.key.toList)
  (ht : ρ.table? (store s) m.table.name = some (t, content))
  (hc : ρ.column? content.columns m.key = some c)

include hkey ht hc

/-- Getting a row by its key answers with the first of the rows that have it, and changes nothing. -/
theorem get_rows (h : db.Fetches ρ store ((m.query db.dialect).whereEq m.key v) s) :
    ∃ stmt, ((m.query db.dialect).whereEq m.key v).compile = .ok stmt ∧
      (m.get db v .none).Follows (db.fetch stmt) s fun found u => store u = store s ∧
        ∃ out : List Row, found = out.head? ∧
          (out : Multiset Row) = content.rows.filter (ρ.meets t c .eq v ·) := by
  obtain ⟨stmt, hstmt, hread⟩ := compile_get db.dialect hkey v
  refine ⟨stmt, hstmt, fun he => (fetch_ends hstmt he).bind_error, fun {rows u} he => ?_⟩
  obtain ⟨n, hmeans⟩ := h.means hstmt hread he
  obtain ⟨hrows, hstore⟩ := hmeans.select_key ht hc
  exact ⟨_, (fetch_ends hstmt he).bind (Action.ends_pure.mpr ⟨rfl, rfl⟩), hstore, rows, rfl, hrows⟩

theorem update_rows {record : List (String × Value)} (hne : (Keyed.ofList record).entries ≠ [])
    (h : db.Fetches ρ store (((m.query db.dialect).update (.ofList record)).whereEq m.key v) s) :
    ∃ stmt, (((m.query db.dialect).update (.ofList record)).whereEq m.key v).compile = .ok stmt ∧
      (m.update db v record).Follows (db.fetch stmt) s fun out u =>
        store u = (store s).insert t
            (ρ.updated t content (Keyed.ofList record).entries (ρ.meets t c .eq v)) ∧
          (out : Multiset Row) = (content.rows.filter (ρ.meets t c .eq v ·)).map
            (ρ.assign t content.columns (Keyed.ofList record).entries) := by
  obtain ⟨stmt, hstmt, hread⟩ := compile_update db.dialect hkey hne v
  have hupdate {r : Except Error (List Row)} {w : σ} (he : (db.fetch stmt).Ends s r w) :
      (m.update db v record).Ends s r w := by
    unfold update
    simp only [hstmt]
    exact Action.ends_ofExcept_bind.mpr he
  refine ⟨stmt, hstmt, hupdate, fun {rows u} he => ?_⟩
  obtain ⟨n, hmeans⟩ := h.means hstmt hread he
  obtain ⟨hrows, hstore⟩ := hmeans.update_key ht hc
  exact ⟨rows, hupdate he, hstore, hrows⟩

theorem delete_rows (h : db.Tallies ρ store ((m.query db.dialect).delete.whereEq m.key v) s) :
    ∃ stmt, ((m.query db.dialect).delete.whereEq m.key v).compile = .ok stmt ∧
      (m.delete db v).Follows (db.run stmt) s fun n u =>
        n = (content.rows.filter (ρ.meets t c .eq v ·)).card ∧
          store u = (store s).insert t
            { content with rows := content.rows.filter (!ρ.meets t c .eq v ·) } := by
  obtain ⟨stmt, hstmt, hread⟩ := compile_delete db.dialect hkey v
  have hdelete {r : Except Error Nat} {w : σ} (he : (db.run stmt).Ends s r w) :
      (m.delete db v).Ends s r w := by
    unfold delete
    simp only [hstmt]
    exact Action.ends_ofExcept_bind.mpr he
  refine ⟨stmt, hstmt, hdelete, fun {n u} he => ?_⟩
  obtain ⟨rows, hmeans⟩ := h.means hstmt hread he
  obtain ⟨hcount, hstore⟩ := hmeans.delete_key ht hc
  exact ⟨n, hdelete he, hcount, hstore⟩

end Key

/-- An update that sets nothing fails before anything is done, logging included. -/
theorem update_nothing (m : Model) (db : Adapter σ) (v : Value) (s : σ) :
    ∃ e, m.update db v [] s = ⟨.error e, s, []⟩ := by
  have hcompile : ∃ e, (((m.query db.dialect).update (.ofList [])).whereEq m.key v).compile =
      .error e := by
    rw [query_eq]
    exact ⟨_, rfl⟩
  obtain ⟨e, he⟩ := hcompile
  refine ⟨e, ?_⟩
  unfold update
  simp only [he]
  rfl

/-- A created row that has a key is the row that is got by it. -/
theorem get_created (hkey : '.' ∉ m.key.toList) {record : List (String × Value)} {row : Row}
    (hinsert : db.Fetches ρ store ((m.query db.dialect).insert (.ofList record)) s)
    (he : (m.create db record).Ends s (.ok row) u)
    (hunique : ρ.Unique (store u) m.table.name m.key) (hv : row.get? m.key = some v)
    (hnull : v ≠ .null)
    (hselect : db.Fetches ρ store ((m.query db.dialect).whereEq m.key v) u) :
    ∃ stmt, ((m.query db.dialect).whereEq m.key v).compile = .ok stmt ∧
      (m.get db v .none).Follows (db.fetch stmt) u fun found w =>
        found = some row ∧ store w = store u := by
  obtain ⟨t, content, ht, hkeys, hafter⟩ := create_adds hinsert he
  have hmem : m.key ∈ content.columns := by
    rw [← hkeys]
    exact Keyed.mem_keys_iff.mpr ⟨v, hv⟩
  have hc : ρ.column? content.columns m.key = some m.key := Rules.column?_of_mem hmem
  have htable : ρ.table? (store u) m.table.name =
      some (t, { content with rows := row ::ₘ content.rows }) := by
    rw [hafter]
    exact Rules.table?_insert ht _
  have hapart := hunique t _ m.key htable hc
  obtain ⟨g, hg⟩ := Option.isSome_iff_exists.mp
    (hapart.isSome (Multiset.mem_cons_self row content.rows) hv hnull)
  have hpick : ρ.meets t m.key .eq v row = true :=
    Rules.meets_eq_iff.mpr ⟨g, by rw [hv, Option.bind_some, hg], hg⟩
  have hone : (row ::ₘ content.rows).filter (ρ.meets t m.key .eq v ·) = {row} := by
    refine filter_eq_singleton (g := g) (fun a ha => ?_) hapart.nodup
      (Multiset.mem_cons_self _ _) hpick
    obtain ⟨g', hg', hvg⟩ := Rules.meets_eq_iff.mp ha
    rwa [← Option.some.inj (hg.symm.trans hvg)] at hg'
  obtain ⟨stmt, hstmt, hget⟩ := get_rows hkey htable hc hselect
  refine ⟨stmt, hstmt, hget.fails, fun hw => ?_⟩
  obtain ⟨found, hfound, hsame, out, rfl, hout⟩ := hget.answers hw
  rw [hone, Multiset.coe_eq_singleton] at hout
  subst hout
  exact ⟨_, hfound, rfl, hsame⟩

end Model

namespace Rules

/-- At most one row has a given key. -/
theorem card_keyed_le_one {t c : String} {content : Content} {tables : Keyed Content}
    {name key : String} (hunique : ρ.Unique tables name key)
    (ht : ρ.table? tables name = some (t, content)) (hc : ρ.column? content.columns key = some c)
    (v : Value) : (content.rows.filter (ρ.meets t c .eq v ·)).card ≤ 1 := by
  cases hv : ρ.value t c v with
  | none =>
    have hempty : content.rows.filter (ρ.meets t c .eq v ·) = 0 := by
      apply Multiset.filter_eq_nil.mpr
      intro row _ hrow
      obtain ⟨g, -, hg⟩ := meets_eq_iff.mp hrow
      rw [hv] at hg
      cases hg
    rw [hempty, Multiset.card_zero]
    exact Nat.zero_le 1
  | some g =>
    refine card_filter_le_one (g := g) (fun row hrow => ?_) (hunique t content c ht hc).nodup
    obtain ⟨g', hg', hvg⟩ := meets_eq_iff.mp hrow
    rwa [← Option.some.inj (hv.symm.trans hvg)] at hg'

end Rules

namespace Model

/-- Rows by key, over any database that answers the compiled statements with what they mean, if it
answers. A created row with a key is got by it, exactly. An update with nothing to set fails with
nothing done. Where no two rows share a key, an update changes just the row with the key, and in it
just the columns that the record names, and returns it as it is then; a deletion removes just that row
and counts it. All three fail only where their statement does, with its error. -/
theorem rows_by_key (hkey : '.' ∉ m.key.toList) :
    (∀ record s row u v, db.Fetches ρ store ((m.query db.dialect).insert (.ofList record)) s →
      (m.create db record).Ends s (.ok row) u → ρ.Unique (store u) m.table.name m.key →
      row.get? m.key = some v → v ≠ .null →
      db.Fetches ρ store ((m.query db.dialect).whereEq m.key v) u →
        ∃ stmt, ((m.query db.dialect).whereEq m.key v).compile = .ok stmt ∧
          (m.get db v .none).Follows (db.fetch stmt) u fun found w =>
            found = some row ∧ store w = store u) ∧
    (∀ v s, ∃ e, m.update db v [] s = ⟨.error e, s, []⟩) ∧
    ∀ s t content c, ρ.table? (store s) m.table.name = some (t, content) →
      ρ.column? content.columns m.key = some c → ρ.Unique (store s) m.table.name m.key →
      ∀ v, (content.rows.filter (ρ.meets t c .eq v ·)).card ≤ 1 ∧
        (∀ record ≠ [], ∀ b sets, b = ((m.query db.dialect).update (.ofList record)).whereEq m.key v →
          sets = (Keyed.ofList record).entries →
          (db.Fetches ρ store b s → ∃ stmt, b.compile = .ok stmt ∧
            (m.update db v record).Follows (db.fetch stmt) s fun out u =>
              store u = (store s).insert t (ρ.updated t content sets (ρ.meets t c .eq v)) ∧
                (out : Multiset Row) = (content.rows.filter (ρ.meets t c .eq v ·)).map
                  (ρ.assign t content.columns sets)) ∧
          ∀ row : Row, (ρ.assign t content.columns sets row).keys = row.keys ∧
            ∀ c' ∈ row.keys,
              ((∀ n ∈ sets.map Prod.fst, ρ.column? content.columns n ≠ some c') →
                (ρ.assign t content.columns sets row).get? c' = row.get? c') ∧
              ∀ e ∈ sets, ρ.column? content.columns e.1 = some c' →
                (∀ e' ∈ sets, ρ.column? content.columns e'.1 = some c' → e' = e) →
                (ρ.assign t content.columns sets row).get? c' = some (ρ.stored t c' e.2)) ∧
        ∀ b, b = (m.query db.dialect).delete.whereEq m.key v → db.Tallies ρ store b s →
          ∃ stmt, b.compile = .ok stmt ∧
            (m.delete db v).Follows (db.run stmt) s fun n u =>
              n = (content.rows.filter (ρ.meets t c .eq v ·)).card ∧
                store u = (store s).insert t
                  { content with rows := content.rows.filter (!ρ.meets t c .eq v ·) } := by
  refine ⟨?_, ?_, ?_⟩
  · intro record s row u v hinsert he hunique hv hnull hselect
    exact get_created hkey hinsert he hunique hv hnull hselect
  · intro v s
    exact update_nothing m db v s
  intro s t content c ht hc hunique v
  refine ⟨Rules.card_keyed_le_one hunique ht hc v, ?_, ?_⟩
  · rintro record hrecord b sets rfl rfl
    refine ⟨update_rows hkey ht hc (Keyed.ofList_ne_nil hrecord), ?_⟩
    intro row
    refine ⟨Rules.keys_assign, ?_⟩
    intro c' hc'
    constructor
    · exact Rules.get?_assign_of_not_given
    · intro e he hcolumn hone
      exact Rules.get?_assign_of_given he hcolumn hone hc'
  · rintro b rfl htallies
    exact delete_rows hkey ht hc htallies

end Model

namespace Sqlite

/-- A table of users with these keys and names. -/
def userTable (users : List (Int64 × String)) : Content :=
  ⟨[⟨⟨"users", [⟨"id", "INTEGER", .integer, true, false, false⟩,
    ⟨"name", "TEXT", .text, false, false, false⟩], some 0, []⟩,
    users.map fun e => ⟨e.1.toInt, [.integer e.1, .text e.2]⟩⟩]⟩

def userFields (e : Int64 × String) : Row :=
  Link.rowOf ["id", "name"] [.integer e.1, .text e.2]

def userContent (users : List (Int64 × String)) : Relata.Content :=
  ⟨["id", "name"], (users.map userFields : List Row)⟩

def userRules : Rules Cell := (userTable []).rules

section Users

variable {users : List (Int64 × String)} {e : Int64 × String}

theorem byName_userTable : (userTable users).byName = ⟨[("users", userContent users)]⟩ := by
  have hrows : (users.map fun e => (⟨e.1.toInt, [.integer e.1, .text e.2]⟩ : StoredRow)).map
      (fun r => Link.rowOf ["id", "name"] r.cells) = users.map userFields := List.map_map
  rw [userContent, ← hrows]
  rfl

theorem table?_userTable :
    userRules.table? (userTable users).byName "users" = some ("users", userContent users) := by
  rw [byName_userTable]
  simp [Rules.table?]

theorem insert_userTable (content : Relata.Content) :
    (userTable users).byName.insert "users" content = ⟨[("users", content)]⟩ := by
  rw [byName_userTable]
  simp [Keyed.insert, Keyed.insertEntry]

theorem get?_userFields : (userFields e).get? "id" = some (.long e.1) := rfl

theorem value_userRules (n : Int64) : userRules.value "users" "id" (.long n) = some (.integer n) := by
  have haffinity : (userTable []).affinity "users" "id" = .integer := by decide +kernel
  change ((((userTable []).affinity "users" "id").operand (.integer n)).counted?) = _
  rw [haffinity]
  rfl

theorem meets_userRules (n : Int64) :
    userRules.meets "users" "id" .eq (.long n) (userFields e) = decide (e.1 = n) := by
  rw [Bool.eq_iff_iff, Rules.meets_eq_iff, get?_userFields, Option.bind_some, value_userRules,
    value_userRules]
  simp [eq_comm]

/-- Users with different keys are told apart by them. -/
theorem unique_userTable (h : (users.map Prod.fst).Nodup) :
    userRules.Unique (userTable users).byName "users" "id" := by
  intro t content c ht hc
  cases table?_userTable.symm.trans ht
  have hid : userRules.column? ["id", "name"] "id" = some "id" := if_pos (by decide)
  cases hid.symm.trans hc
  have hvalue (e : Int64 × String) : ((userFields e).get? "id").bind (userRules.value "users" "id") =
      some (.integer e.1) := by
    rw [get?_userFields, Option.bind_some, value_userRules]
  constructor
  · intro row x hrow hx _
    obtain ⟨e, -, rfl⟩ := List.mem_map.mp (Multiset.mem_coe.mp hrow)
    have hisSome := hvalue e
    rw [hx, Option.bind_some] at hisSome
    rw [hisSome]
    rfl
  · have hvalues : (users.map userFields).filterMap
        (fun row => (row.get? "id").bind (userRules.value "users" "id")) =
          (users.map Prod.fst).map Cell.integer := by
      rw [List.filterMap_map, List.map_map, ← List.filterMap_eq_map]
      exact List.filterMap_congr fun e _ => hvalue e
    rw [userContent, Multiset.filterMap_coe, hvalues, Multiset.coe_nodup]
    exact h.map fun m n hmn => Cell.integer.inj hmn

/-! What statements by key mean there. -/

theorem picks_userRules (n : Int64) (e : Int64 × String) :
    userRules.picks "users" ["id", "name"] [(("id", .eq), .long n)] (userFields e) =
      decide (e.1 = n) := by
  have hid : userRules.column? ["id", "name"] "id" = some "id" := if_pos (by decide)
  rw [Rules.picks_key hid, meets_userRules]

theorem means_insert (columns : List String) (params : List Value) (e : Int64 × String) :
    userRules.Means (userTable users).byName (.insert "users" columns) params [userFields e] 1
      (userTable (users ++ [e])).byName := by
  have hrows : ((users ++ [e]).map userFields).Perm (userFields e :: users.map userFields) := by
    rw [List.map_append, List.map_singleton]
    exact List.perm_append_singleton (userFields e) (users.map userFields)
  have hafter : (userTable (users ++ [e])).byName = (userTable users).byName.insert "users"
      { userContent users with rows := userFields e ::ₘ (userContent users).rows } := by
    rw [insert_userTable, byName_userTable, userContent, Multiset.coe_eq_coe.mpr hrows]
    rfl
  rw [hafter]
  exact .insert table?_userTable rfl

theorem means_select (n : Int64) :
    userRules.Means (userTable users).byName (.select "users" [("id", .eq)]) [.long n]
      ((users.filter fun e => e.1 = n).map userFields)
      ((users.filter fun e => e.1 = n).map userFields).length (userTable users).byName := by
  refine .select table?_userTable ?_
  rw [userContent, Multiset.filter_coe, List.filter_map]
  simp [Function.comp_def, picks_userRules]

theorem assign_userFields (name : String) (e : Int64 × String) :
    userRules.assign "users" ["id", "name"] [("name", .string name)] (userFields e) =
      userFields (e.1, name) := by
  have haffinity : (userTable []).affinity "users" "name" = .text := by decide +kernel
  have hid : userRules.given "users" ["id", "name"] [("name", .string name)] "id" = none := rfl
  have hname : userRules.given "users" ["id", "name"] [("name", .string name)] "name" =
      some (.string name) := by
    change some ((((userTable []).affinity "users" "name").apply (.text name)).toValue) = _
    rw [haffinity]
    rfl
  have hentries : (userFields e).entries = [("id", .long e.1), ("name", .string e.2)] := rfl
  rw [Rules.assign, hentries, List.map_cons, List.map_singleton, hid, hname]
  rfl

theorem means_update (n : Int64) (name : String) :
    userRules.Means (userTable users).byName (.update "users" ["name"] [("id", .eq)])
      [.string name, .long n] ((users.filter fun e => e.1 = n).map fun e => userFields (e.1, name))
      ((users.filter fun e => e.1 = n).map fun e => userFields (e.1, name)).length
      (userTable (users.map fun e => if e.1 = n then (e.1, name) else e)).byName := by
  have hupdated : (userTable (users.map fun e => if e.1 = n then (e.1, name) else e)).byName =
      (userTable users).byName.insert "users" (userRules.updated "users" (userContent users)
        [("name", .string name)]
        (userRules.picks "users" ["id", "name"] [(("id", .eq), .long n)])) := by
    rw [insert_userTable, byName_userTable]
    simp only [Rules.updated, userContent, Multiset.map_coe, List.map_map, Function.comp_def,
      picks_userRules, assign_userFields, decide_eq_true_eq, apply_ite userFields]
  rw [hupdated]
  refine .update table?_userTable rfl ?_
  rw [userContent, Multiset.filter_coe, List.filter_map]
  simp [Function.comp_def, picks_userRules, assign_userFields]

theorem means_delete (n : Int64) :
    userRules.Means (userTable users).byName (.delete "users" [("id", .eq)]) [.long n] []
      (users.filter fun e => e.1 = n).length
      (userTable (users.filter fun e => e.1 ≠ n)).byName := by
  have hmeans : userRules.Means (userTable users).byName (.delete "users" [("id", .eq)])
      [.long n] _ _ _ := .delete table?_userTable rfl
  rw [insert_userTable, userContent, Multiset.filter_coe, Multiset.filter_coe, List.filter_map,
    List.filter_map] at hmeans
  simpa [Function.comp_def, picks_userRules, byName_userTable, userContent] using hmeans

end Users

/-- A connection to a database of users, with the count of the rows of the last change. -/
def linkOf (users : List (Int64 × String)) (changes : Nat) : Connection :=
  ⟨⟨userTable users, none, changes⟩, true, false, [], false⟩

def held (s : Connection) : Keyed Relata.Content := s.engine.content.byName

section Users

variable {users after : List (Int64 × String)} {changes changes' n : Nat} {b : QueryBuilder}
  {stmt : Relata.Statement} {dml : Dml}

theorem fetches_users {found : ResultSet} {rows : List Row} (hb : b.compile = .ok stmt)
    (hread : Dml.ofSql? .sqlite stmt.sql stmt.params = some dml)
    (hquery : Engine.driver.query stmt.sql (cellsOf stmt) (linkOf users changes).engine =
      (.ok found, (linkOf after changes').engine))
    (hrows : found.rows.map (Link.rowOf found.columns) = rows)
    (hmeans : userRules.Means (userTable users).byName dml stmt.params rows n (userTable after).byName) :
    Connection.adapter.Fetches userRules held b (linkOf users changes) ∧
      (Connection.adapter.fetch stmt).Ends (linkOf users changes) (.ok rows)
        (linkOf after changes') := by
  subst hrows
  constructor
  · refine Link.fetches (fun e : Engine => e.content.byName) hb hread fun found' left hquery' => ?_
    cases hquery.symm.trans hquery'
    exact ⟨n, hmeans⟩
  · have hends := Link.ends_fetch (s := linkOf users changes) Engine.driver stmt rfl rfl
    rwa [hquery] at hends

theorem tallies_users {rows : List Row} (hb : b.compile = .ok stmt)
    (hread : Dml.ofSql? .sqlite stmt.sql stmt.params = some dml)
    (hexecute : Engine.driver.execute stmt.sql (cellsOf stmt) (linkOf users changes).engine =
      (.ok n, (linkOf after changes').engine))
    (hmeans : userRules.Means (userTable users).byName dml stmt.params rows n
      (userTable after).byName) :
    Connection.adapter.Tallies userRules held b (linkOf users changes) ∧
      (Connection.adapter.run stmt).Ends (linkOf users changes) (.ok n) (linkOf after changes') := by
  constructor
  · refine Link.tallies (fun e : Engine => e.content.byName) hb hread fun n' left hexecute' => ?_
    cases hexecute.symm.trans hexecute'
    exact ⟨rows, hmeans⟩
  · have hends := Link.ends_execute (s := linkOf users changes) Engine.driver stmt rfl rfl
    rwa [hexecute] at hends

end Users

end Sqlite

namespace Model

open Sqlite

def users : Model := ⟨.ofName "users", none⟩

section Bob

def bob : Connection := linkOf [(1, "Bob")] 0

def bobAndAda : Connection := linkOf [(1, "Bob"), (2, "Ada")] 1

/-- The engine adds Ada with the next key. -/
theorem fetches_ada :
    Connection.adapter.Fetches userRules held
        ((users.query .sqlite).insert (.ofList [("name", .string "Ada")])) bob ∧
      (Connection.adapter.fetch ⟨"INSERT INTO \"users\" (\"name\") VALUES (?) RETURNING *",
        [.string "Ada"]⟩).Ends bob (.ok [userFields (2, "Ada")]) bobAndAda := by
  have hquery : Engine.driver.query "INSERT INTO \"users\" (\"name\") VALUES (?) RETURNING *"
      [.text "Ada"] bob.engine =
        (.ok ⟨["id", "name"], [[.integer 2, .text "Ada"]]⟩, bobAndAda.engine) := by decide +kernel
  have hread : Dml.ofSql? .sqlite "INSERT INTO \"users\" (\"name\") VALUES (?) RETURNING *"
      [.string "Ada"] = some (.insert "users" ["name"]) := by decide +kernel
  exact fetches_users rfl hread hquery rfl (means_insert _ _ _)

theorem fetches_second :
    Connection.adapter.Fetches userRules held ((users.query .sqlite).whereEq users.key (.long 2))
        bobAndAda ∧
      (Connection.adapter.fetch ⟨"SELECT \"users\".* FROM \"users\" WHERE \"users\".\"id\" = ?",
        [.long 2]⟩).Ends bobAndAda (.ok [userFields (2, "Ada")]) bobAndAda := by
  have hquery : Engine.driver.query "SELECT \"users\".* FROM \"users\" WHERE \"users\".\"id\" = ?"
      [.integer 2] bobAndAda.engine =
        (.ok ⟨["id", "name"], [[.integer 2, .text "Ada"]]⟩, bobAndAda.engine) := by decide +kernel
  have hread : Dml.ofSql? .sqlite "SELECT \"users\".* FROM \"users\" WHERE \"users\".\"id\" = ?"
      [.long 2] = some (.select "users" [("id", .eq)]) := by decide +kernel
  exact fetches_users rfl hread hquery rfl (means_select 2)

theorem fetches_renamed :
    Connection.adapter.Fetches userRules held
        (((users.query .sqlite).update (.ofList [("name", .string "Eve")])).whereEq users.key (.long 1))
        bob ∧
      (Connection.adapter.fetch
        ⟨"UPDATE \"users\" SET \"name\" = ? WHERE \"users\".\"id\" = ? RETURNING *",
          [.string "Eve", .long 1]⟩).Ends bob (.ok [userFields (1, "Eve")]) (linkOf [(1, "Eve")] 1) := by
  have hquery : Engine.driver.query
      "UPDATE \"users\" SET \"name\" = ? WHERE \"users\".\"id\" = ? RETURNING *"
      [.text "Eve", .integer 1] bob.engine =
        (.ok ⟨["id", "name"], [[.integer 1, .text "Eve"]]⟩, (linkOf [(1, "Eve")] 1).engine) := by
    decide +kernel
  have hread : Dml.ofSql? .sqlite
      "UPDATE \"users\" SET \"name\" = ? WHERE \"users\".\"id\" = ? RETURNING *"
      [.string "Eve", .long 1] = some (.update "users" ["name"] [("id", .eq)]) := by decide +kernel
  exact fetches_users rfl hread hquery rfl (means_update 1 "Eve")

theorem tallies_removed :
    Connection.adapter.Tallies userRules held
        ((users.query .sqlite).delete.whereEq users.key (.long 1)) bob ∧
      (Connection.adapter.run ⟨"DELETE FROM \"users\" WHERE \"users\".\"id\" = ?",
        [.long 1]⟩).Ends bob (.ok 1) (linkOf [] 1) := by
  have hexecute : Engine.driver.execute "DELETE FROM \"users\" WHERE \"users\".\"id\" = ?"
      [.integer 1] bob.engine = (.ok 1, (linkOf [] 1).engine) := by decide +kernel
  have hread : Dml.ofSql? .sqlite "DELETE FROM \"users\" WHERE \"users\".\"id\" = ?"
      [.long 1] = some (.delete "users" [("id", .eq)]) := by decide +kernel
  exact tallies_users rfl hread hexecute (means_delete 1)

/-- Beside Bob, whose key is 1, another user is created and got by the key that it is given; Bob is
renamed by his key, and removed by it. -/
theorem rows_by_key_bob : ∃ w u₁ u₂,
    (users.create Connection.adapter [("name", .string "Ada")]).Ends bob (.ok (userFields (2, "Ada")))
        bobAndAda ∧
      (users.get Connection.adapter (.long 2) .none).Ends bobAndAda
        (.ok (some (userFields (2, "Ada")))) w ∧
      (∃ out : List Row, (users.update Connection.adapter (.long 1) [("name", .string "Eve")]).Ends bob
        (.ok out) u₁ ∧ out.length = 1) ∧
      (users.delete Connection.adapter (.long 1)).Ends bob (.ok 1) u₂ := by
  obtain ⟨hinsert, hadded⟩ := fetches_ada
  obtain ⟨hselect, hfound⟩ := fetches_second
  obtain ⟨hupdate, hrenamed⟩ := fetches_renamed
  obtain ⟨hdelete, hremoved⟩ := tallies_removed
  obtain ⟨hcreated, -, hkeyed⟩ := rows_by_key (m := users) (by decide)
  have hcreate : (users.create Connection.adapter [("name", .string "Ada")]).Ends bob
      (.ok (userFields (2, "Ada"))) bobAndAda :=
    Action.ends_ofExcept_bind.mpr (hadded.bind (Action.ends_pure.mpr ⟨rfl, rfl⟩))
  obtain ⟨_, hstmt, hget⟩ := hcreated _ _ _ _ (.long 2) hinsert hcreate
    (unique_userTable (by decide)) get?_userFields nofun hselect
  cases hstmt
  obtain ⟨_, hgot, rfl, -⟩ := hget.answers hfound
  have hid : userRules.column? ["id", "name"] "id" = some "id" := if_pos (by decide)
  obtain ⟨-, hkeyed, hgone⟩ := hkeyed bob "users" (userContent [(1, "Bob")]) "id" table?_userTable hid
    (unique_userTable (by decide)) (.long 1)
  obtain ⟨hchanges, -⟩ := hkeyed [("name", .string "Eve")] (List.cons_ne_nil _ _) _ _ rfl rfl
  obtain ⟨_, hstmt, hchange⟩ := hchanges hupdate
  cases hstmt
  obtain ⟨out, hout, -, hrows⟩ := hchange.answers hrenamed
  obtain ⟨_, hstmt, hgone⟩ := hgone _ rfl hdelete
  cases hstmt
  obtain ⟨_, hleft, rfl, -⟩ := hgone.answers hremoved
  have hone : ((userContent [(1, "Bob")]).rows.filter
      (userRules.meets "users" "id" .eq (.long 1) ·)).card = 1 := by decide +kernel
  have hlength : out.length = 1 := by
    rw [← Multiset.coe_card, hrows, Multiset.card_map, hone]
  rw [hone] at hleft
  exact ⟨_, _, _, hcreate, hgot, ⟨out, hout, hlength⟩, hleft⟩

end Bob

end Model
end Relata
