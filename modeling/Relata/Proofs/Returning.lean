import Relata.Proofs.Trailing

/-!
What compiled statements return. Main statements: an insertion returns every row that it inserts; an
update returns every row and a deletion none, as long as their conditions are on columns of the table
itself; and what returns anything at all returns something for each row that it counts.
-/
namespace Relata.Sqlite

open Relata.Sqlite.Token Relata.Sqlite.Parser
open Relata.Sql (render render_append)

namespace Parser

variable {ts left : Rest}

theorem returning?_cons {columns : List ResultColumn} (h : returning? ts = some (columns, left))
    (hcolumns : columns ≠ []) :
    ∃ t ∈ ts, ∃ w, t.kind = .word w ∧ Text.lowerAscii w = "returning" := by
  obtain ⟨⟨found, last⟩, hfound, hpair⟩ := Option.map_eq_some_iff.mp h
  cases hpair
  unfold after? at hfound
  split at hfound
  next =>
    cases hfound
    exact absurd rfl hcolumns
  next mid hwords =>
    obtain ⟨mid', hword, -⟩ := of_bind_some hwords
    obtain ⟨t, w, rfl, ht, hw⟩ := word?_some hword
    exact ⟨t, List.mem_cons_self, w, ht, hw⟩

/-- A deletion returns nothing unless it says so. -/
theorem delete?_silent {table : String} {condition : Option Expr} {returning : List ResultColumn}
    (h : delete? ts = some (.delete table condition returning, left))
    (hsilent : ∀ t ∈ ts, ∀ w, t.kind = .word w → Text.lowerAscii w ≠ "returning") :
    returning = [] := by
  obtain ⟨afterFrom, hfrom, h⟩ := of_bind_some h
  obtain ⟨⟨table', afterTable⟩, htable, h⟩ := of_bind_some h
  obtain ⟨⟨condition', afterCondition⟩, hcondition, h⟩ := of_bind_some h
  obtain ⟨⟨returning', last⟩, hreturning, h⟩ := of_bind_some h
  cases h
  have hfront := ((word?_closed hfrom).trans (nameText?_closed htable)).more
    (after?_closed expression?_closed hcondition)
  by_contra hne
  obtain ⟨t, ht, w, hkind, hw⟩ := returning?_cons hreturning hne
  exact hsilent t (hfront.suffix.subset ht) w hkind hw

end Parser

section Texts

variable {b : QueryBuilder} {stmt : Relata.Statement} {sql : String} {x : List Char}

theorem Token.Meets.open {t : Token} {ts : List Token} (h : Meets .returns (t :: ts)) :
    ¬ Closed ts [] := by
  rintro ⟨front, u, rfl, hu⟩
  obtain ⟨k, hk, hopen⟩ := h.last
  rw [← List.cons_append, List.getLast?_concat] at hk
  cases hk
  exact absurd (hu.symm.trans hopen) nofun

theorem returning_insert (hsql : sql.toList = "INSERT".toList ++ ' ' :: x)
    (htrails : Trails .returns sql.toList) {conflict : Conflict} {table : String}
    {columns : Option (List String)} {rows : List (List Expr)} {returning : List ResultColumn}
    (h : Statement.ofTokens? (Token.ofText sql) =
      some (.insert conflict table columns rows returning)) : returning ≠ [] := by
  obtain ⟨t, fuel, rest, htext, hread, -⟩ := reads_of_lead (by decide) rfl hsql h
  have hmeets := htrails.ofText Demand.returns_isFair
  rw [htext] at hmeets
  rintro rfl
  exact hmeets.open (insert?_closed hread)

theorem returning_update (hsql : sql.toList = "UPDATE".toList ++ ' ' :: x)
    (htrails : Trails .returns sql.toList) {conflict : Conflict} {table : String}
    {sets : List (String × Expr)} {condition : Option Expr} {returning : List ResultColumn}
    (h : Statement.ofTokens? (Token.ofText sql) =
      some (.update conflict table sets condition returning)) : returning ≠ [] := by
  obtain ⟨t, fuel, rest, htext, hread, -⟩ := reads_of_lead (by decide) rfl hsql h
  have hmeets := htrails.ofText Demand.returns_isFair
  rw [htext] at hmeets
  rintro rfl
  exact hmeets.open (update?_closed hread)

theorem returning_delete (hsql : sql.toList = "DELETE".toList ++ ' ' :: x)
    (htrails : Trails .silent sql.toList) {table : String} {condition : Option Expr}
    {returning : List ResultColumn}
    (h : Statement.ofTokens? (Token.ofText sql) = some (.delete table condition returning)) :
    returning = [] := by
  obtain ⟨t, fuel, rest, htext, hread, -⟩ := reads_of_lead (by decide) rfl hsql h
  have hmeets := htrails.ofText Demand.silent_isFair
  rw [htext] at hmeets
  exact delete?_silent hread fun u hu => (hmeets.each u (List.mem_cons_of_mem t hu)).2

theorem trails_returning : Trails .returns "RETURNING *".toList := by
  have hstar : Trails .returns ['*'] := by
    intro fuel hfuel
    have hread : untilZero ['*'] = ['*'] := rfl
    rw [hread] at hfuel ⊢
    obtain ⟨fuel, rfl⟩ : ∃ f, fuel = f + 1 := ⟨fuel - 1, by simp at hfuel; omega⟩
    have hsymbol : readOne ['*'] = (.symbol "*", 1) := readOne_symbol (by decide) (by decide) rfl
    rw [scan_cons (starts_of_head rfl (by decide) (by decide)) hsymbol fuel, List.drop_one,
      List.tail_cons, scan_nil]
    exact ⟨List.forall_mem_singleton.mpr nofun, _, rfl, rfl⟩
  exact trails_word Demand.returns_isFair "RETURNING" (by decide) (Demand.returns_word _)
    (trails_space hstar)

theorem trails_insert (hd : b.dialect = .sqlite) (hop : b.operation = .insert)
    (hc : b.compile = .ok stmt) : Trails .returns stmt.sql.toList := by
  have hfair := Demand.returns_isFair
  obtain ⟨cmd, hcmd, htext⟩ := QueryBuilder.exists_command hc
  simp only [QueryBuilder.command, hop] at hcmd
  cases hcmd
  rw [htext, hd]
  by_cases hempty : b.record.isEmpty = true
  · have hrender : render .sqlite 0 (Query.Command.insertPieces b.table.name b.record) =
        "INSERT INTO ".toList ++ (Text.Quoted.token '"' b.table.name.toList ++
          " DEFAULT VALUES RETURNING *".toList) := by
      simp [Query.Command.insertPieces, hempty, render]
    have hvalues := trails_space (trails_words hfair "DEFAULT" "VALUES" (by decide) (by decide)
      (Demand.returns_word _) (Demand.returns_word _) trails_returning)
    rw [Query.Command.pieces, hrender]
    exact trails_words hfair "INSERT" "INTO" (by decide) (by decide) (Demand.returns_word _)
      (Demand.returns_word _)
      (trails_name hfair _ (apart_of_parts rfl _) hvalues)
  · have hrender : render .sqlite 0 (Query.Command.insertPieces b.table.name b.record) =
        "INSERT INTO ".toList ++ (render .sqlite 0 ([.name b.table.name] ++ .text " (" ::
            Sql.separated ", " (b.record.keys.map fun k => [.name k]) ++
          .text ") VALUES (" :: Sql.separated ", " (b.record.values.map fun v => [.slot v])) ++
          (")".toList ++ " RETURNING *".toList)) := by
      simp [Query.Command.insertPieces, hempty, render, render_append]
    have hclose : Trails .returns (")".toList ++ " RETURNING *".toList) :=
      trails_symbol hfair ")" (by decide) (.inl (by decide)) rfl (trails_space trails_returning)
    rw [Query.Command.pieces, hrender]
    exact trails_words hfair "INSERT" "INTO" (by decide) (by decide) (Demand.returns_word _)
      (Demand.returns_word _)
      (runs_insert hfair b.table.name b.record 0 (apart_of_parts rfl _) hclose)

/-- Every condition is on a column of the table itself. -/
def FiltersOwn (b : QueryBuilder) : Prop := ∀ c ∈ b.conditions, ∃ column, c.key = .own column

theorem trails_update (hd : b.dialect = .sqlite) (hop : b.operation = .update) (hown : FiltersOwn b)
    (hc : b.compile = .ok stmt) : Trails .returns stmt.sql.toList := by
  have hfair := Demand.returns_isFair
  obtain ⟨cmd, hcmd, htext⟩ := QueryBuilder.exists_command hc
  simp only [QueryBuilder.command, hop] at hcmd
  split at hcmd
  · cases hcmd
  cases hcmd
  rw [htext, hd]
  have hrender : render .sqlite 0 (Query.Command.updatePieces b.table.name b.record b.conditions) =
      "UPDATE ".toList ++ (render .sqlite 0 ([.name b.table.name] ++ .text " SET " ::
          Sql.separated ", " (b.record.entries.map fun e => [.name e.1, .text " = ", .slot e.2]) ++
        Query.wherePieces b.table.name b.conditions) ++ " RETURNING *".toList) := by
    simp [Query.Command.updatePieces, render, render_append]
  have hset := runs_record hfair b.record (runs_name hfair b.table.name)
  have hruns := runs_where hfair b.table.name hown hset
  rw [Query.Command.pieces, hrender]
  exact trails_word hfair "UPDATE" (by decide) (Demand.returns_word _)
    (trails_space (hruns 0 (apart_of_parts rfl _) (trails_space trails_returning)))

theorem trails_delete (hd : b.dialect = .sqlite) (hop : b.operation = .delete) (hown : FiltersOwn b)
    (hc : b.compile = .ok stmt) : Trails .silent stmt.sql.toList := by
  have hfair := Demand.silent_isFair
  obtain ⟨cmd, hcmd, htext⟩ := QueryBuilder.exists_command hc
  simp only [QueryBuilder.command, hop] at hcmd
  cases hcmd
  rw [htext, hd]
  have hrender : render .sqlite 0 (Query.Command.deletePieces b.table.name b.conditions) =
      "DELETE FROM ".toList ++ (render .sqlite 0 ([.name b.table.name] ++
        Query.wherePieces b.table.name b.conditions) ++ []) := by
    simp [Query.Command.deletePieces, render]
  have hruns := runs_where hfair b.table.name hown (runs_name hfair b.table.name)
  rw [Query.Command.pieces, hrender]
  exact trails_words hfair "DELETE" "FROM" (by decide) (by decide) (hfair.word (by decide))
    (hfair.word (by decide)) (hruns 0 apart_nil (trails_nil trivial))

end Texts

/-- Something is returned wherever columns are, from a table that has any. -/
theorem Scope.outputs_ne_nil {s : Scope} (hstar : s.star none ≠ []) {aggregates : Bool}
    {columns : List ResultColumn} (hcolumns : columns ≠ []) {found : List Scope.Output}
    (h : s.outputs aggregates columns = .ok found) : found ≠ [] := by
  cases columns with
  | nil => exact absurd rfl hcolumns
  | cons column rest =>
    cases column with
    | star =>
      obtain ⟨more, -, h⟩ := of_bind_ok h
      cases h
      exact List.append_ne_nil_of_left_ne_nil hstar more
    | tableStar t =>
      simp only [Scope.outputs] at h
      split at h
      · cases h
      next hfound =>
        obtain ⟨more, -, h⟩ := of_bind_ok h
        cases h
        exact List.append_ne_nil_of_left_ne_nil (fun hnil => hfound (by simp [hnil])) more
    | expr e label source =>
      obtain ⟨t, -, h⟩ := of_bind_ok h
      obtain ⟨more, -, h⟩ := of_bind_ok h
      cases h
      exact List.cons_ne_nil _ _

namespace Change

def returning : Change → List Scope.Output
  | .insert _ _ _ _ returning => returning
  | .update _ _ _ _ returning => returning
  | .delete _ _ returning => returning

variable {p p' : Progress} {returning : List Scope.Output} {params : List Cell} {c : Content}
  {conflict : Conflict}

/-- For each row that is counted there is something to return. -/
def IsCounted (p : Progress) : Prop := p.returned.length = p.changed

theorem IsCounted.advance {row : StoredRow} {stored : Option TableContent} (hp : IsCounted p)
    (h : advance p returning params row stored = .ok p') : IsCounted p' := by
  cases stored with
  | none =>
    cases h
    exact hp
  | some t =>
    obtain ⟨cells, -, h⟩ := of_bind_ok h
    cases h
    exact congrArg Nat.succ hp

theorem IsCounted.insertRow {layout : Layout} {row : List Term} (hp : IsCounted p)
    (h : insertRow conflict layout returning params p row = .ok p') : IsCounted p' := by
  obtain ⟨values, -, h⟩ := of_bind_ok h
  -- the number is read from a value, or the next one is taken
  split at h
  all_goals
    obtain ⟨number, -, h⟩ := of_bind_ok h
    obtain ⟨stored, -, h⟩ := of_bind_ok h
    exact hp.advance h

theorem IsCounted.updateRow {sets : List Assignment} {n : Int} (hp : IsCounted p)
    (h : updateRow conflict sets returning params p n = .ok p') : IsCounted p' := by
  unfold Change.updateRow at h
  split at h
  · cases h
    exact hp
  · obtain ⟨values, -, h⟩ := of_bind_ok h
    split at h
    all_goals
      obtain ⟨number, -, h⟩ := of_bind_ok h
      obtain ⟨stored, -, h⟩ := of_bind_ok h
      exact hp.advance h

theorem IsCounted.deleteRow {n : Int} (hp : IsCounted p)
    (h : deleteRow returning params p n = .ok p') : IsCounted p' := by
  unfold Change.deleteRow at h
  split at h
  · cases h
    exact hp
  · exact hp.advance h

/-- What each step keeps, the whole change keeps, however far it comes. -/
theorem IsCounted.each {α : Type} {step : Progress → α → Except Fault Progress}
    (hstep : ∀ {p p' : Progress} {x : α}, IsCounted p → step p x = .ok p' → IsCounted p')
    (xs : List α) (hp : IsCounted p) : IsCounted (each step p xs).1 := by
  induction xs generalizing p with
  | nil => exact hp
  | cons x xs ih =>
    unfold Change.each
    cases hx : step p x with
    | error f => exact hp
    | ok q => exact ih (hstep hp hx)

/-- There is something returned for each row that was changed, or for none. -/
def Tells (returning : List Scope.Output) (f : Effect) : Prop :=
  ∀ found, f.answer = .ok found → found.rows.length = if returning.isEmpty then 0 else f.changed

theorem tells_undone (f : Fault) : Tells returning (undone c f) := nofun

theorem tells_conclude {end_ : Progress × Option Fault} (h : IsCounted end_.1) :
    Tells returning (conclude c conflict returning end_) := by
  obtain ⟨p, fault⟩ := end_
  unfold conclude
  cases fault with
  | none =>
    dsimp only
    split
    · exact tells_undone _
    · rintro found ⟨⟩
      dsimp only
      split
      · rfl
      · rw [List.length_reverse, h]
  | some f =>
    dsimp only
    split
    · exact tells_undone _
    · cases conflict with
      | fail =>
        dsimp only
        split
        · exact tells_undone _
        · nofun
      | rollback => nofun
      | abort | ignore | replace => exact tells_undone _

theorem tells_run (c : Content) (params : List Cell) (ch : Change) :
    Tells ch.returning (ch.run c params) := by
  have hstart (s : Shape) : IsCounted (startOf c s) := rfl
  cases ch with
  | insert conflict shape layout rows returning =>
    exact tells_conclude ((hstart shape).each (fun hp h => hp.insertRow h) rows)
  | update conflict shape sets condition returning =>
    simp only [run]
    split
    · exact tells_undone _
    · exact tells_conclude ((hstart shape).each (fun hp h => hp.updateRow h) _)
  | delete shape condition returning =>
    simp only [run]
    split
    · exact tells_undone _
    · exact tells_conclude ((hstart shape).each (fun hp h => hp.deleteRow h) _)

end Change

namespace Plan

variable {c : Content} {table : String} {returning : List ResultColumn} {ch : Change}

theorem changedShape_ok {s : Shape} (h : changedShape c table = .ok s) :
    ∃ t ∈ c.tables, t.shape = s := by
  unfold changedShape at h
  split at h
  next t ht =>
    cases h
    exact ⟨t, List.mem_of_find?_eq_some ht, rfl⟩
  next => split at h <;> cases h

theorem star_ne_nil {s : Shape} (h : s.columns ≠ []) (name : String) :
    (Origin.storedScope name s).star none ≠ [] := by
  obtain ⟨column, columns, hcolumns⟩ := List.exists_cons_of_ne_nil h
  simp [Origin.storedScope, Scope.star, hcolumns, Scope.inTable]

theorem ofInsert_ok {conflict : Conflict} {columns : Option (List String)} {rows : List (List Expr)}
    (h : ofInsert c conflict table columns rows returning = .ok ch) :
    ∃ s, changedShape c table = .ok s ∧
      (Origin.storedScope s.name s).outputs false returning = .ok ch.returning := by
  obtain ⟨s, hs, h⟩ := of_bind_ok h
  cases columns with
  | none | some names =>
    obtain ⟨targets, -, h⟩ := of_bind_ok h
    obtain ⟨values, -, h⟩ := of_bind_ok h
    obtain ⟨_, -, h⟩ := of_bind_ok h
    obtain ⟨_, -, h⟩ := of_bind_ok h
    obtain ⟨found, hfound, h⟩ := of_bind_ok h
    cases h
    exact ⟨s, hs, hfound⟩

theorem ofUpdate_ok {conflict : Conflict} {sets : List (String × Expr)} {condition : Option Expr}
    (h : ofUpdate c conflict table sets condition returning = .ok ch) :
    ∃ s, changedShape c table = .ok s ∧
      (Origin.storedScope s.name s).outputs false returning = .ok ch.returning := by
  obtain ⟨s, hs, h⟩ := of_bind_ok h
  obtain ⟨assigned, -, h⟩ := of_bind_ok h
  obtain ⟨chosen, -, h⟩ := of_bind_ok h
  obtain ⟨_, -, h⟩ := of_bind_ok h
  obtain ⟨found, hfound, h⟩ := of_bind_ok h
  cases h
  exact ⟨s, hs, hfound⟩

theorem ofDelete_ok {condition : Option Expr}
    (h : ofDelete c table condition returning = .ok ch) :
    ∃ s, changedShape c table = .ok s ∧
      (Origin.storedScope s.name s).outputs false returning = .ok ch.returning := by
  obtain ⟨s, hs, h⟩ := of_bind_ok h
  obtain ⟨chosen, -, h⟩ := of_bind_ok h
  obtain ⟨_, -, h⟩ := of_bind_ok h
  obtain ⟨found, hfound, h⟩ := of_bind_ok h
  cases h
  exact ⟨s, hs, hfound⟩

/-- Each table has a column. -/
def HasColumns (c : Content) : Prop := ∀ t ∈ c.tables, t.shape.columns ≠ []

instance (c : Content) : Decidable (HasColumns c) :=
  inferInstanceAs (Decidable (∀ t ∈ c.tables, t.shape.columns ≠ []))

/-- Whatever is returned of a table, it is not nothing. -/
theorem outputs_ne_nil (hcolumns : HasColumns c) {s : Shape} (hs : changedShape c table = .ok s)
    (hreturning : returning ≠ []) {found : List Scope.Output}
    (h : (Origin.storedScope s.name s).outputs false returning = .ok found) : found ≠ [] := by
  obtain ⟨t, ht, rfl⟩ := changedShape_ok hs
  exact Scope.outputs_ne_nil (star_ne_nil (hcolumns t ht) _) hreturning h

variable {b : QueryBuilder} {stmt : Relata.Statement} {p : Plan} {wanted : Nat}

theorem ofText_select {sql : String} {x : List Char}
    (hsql : sql.toList = "SELECT".toList ++ ' ' :: x) (h : ofText c sql = .ok (p, wanted)) :
    ∃ q, p = .query q := by
  obtain ⟨st, hst, hplan⟩ := ofText_ok h
  obtain ⟨s, rfl⟩ := opens_select hsql hst
  obtain ⟨q, -, hplan⟩ := of_bind_ok hplan
  cases hplan
  exact ⟨q, rfl⟩

/-- A compiled insertion returns the rows that it inserts. -/
theorem ofText_insert (hcolumns : HasColumns c) (hd : b.dialect = .sqlite)
    (hop : b.operation = .insert) (hc : b.compile = .ok stmt)
    (h : ofText c stmt.sql = .ok (p, wanted)) : ∃ ch : Change, ch.returning ≠ [] ∧ p = .change ch := by
  obtain ⟨st, hst, hplan⟩ := ofText_ok h
  obtain ⟨x, hx⟩ := toList_compiled hc
  rw [hop] at hx
  obtain ⟨conflict, table, columns, rows, returning, rfl⟩ := opens_insert hx hst
  have hreturning := returning_insert hx (trails_insert hd hop hc) hst
  obtain ⟨ch, hch, hplan⟩ := of_bind_ok hplan
  cases hplan
  obtain ⟨s, hs, hfound⟩ := ofInsert_ok hch
  exact ⟨ch, outputs_ne_nil hcolumns hs hreturning hfound, rfl⟩

/-- A compiled update returns the rows that it changes. -/
theorem ofText_update (hcolumns : HasColumns c) (hd : b.dialect = .sqlite)
    (hop : b.operation = .update) (hown : FiltersOwn b) (hc : b.compile = .ok stmt)
    (h : ofText c stmt.sql = .ok (p, wanted)) : ∃ ch : Change, ch.returning ≠ [] ∧ p = .change ch := by
  obtain ⟨st, hst, hplan⟩ := ofText_ok h
  obtain ⟨x, hx⟩ := toList_compiled hc
  rw [hop] at hx
  obtain ⟨conflict, table, sets, condition, returning, rfl⟩ := opens_update hx hst
  have hreturning := returning_update hx (trails_update hd hop hown hc) hst
  obtain ⟨ch, hch, hplan⟩ := of_bind_ok hplan
  cases hplan
  obtain ⟨s, hs, hfound⟩ := ofUpdate_ok hch
  exact ⟨ch, outputs_ne_nil hcolumns hs hreturning hfound, rfl⟩

/-- A compiled deletion returns nothing. -/
theorem ofText_delete (hd : b.dialect = .sqlite) (hop : b.operation = .delete)
    (hown : FiltersOwn b) (hc : b.compile = .ok stmt) (h : ofText c stmt.sql = .ok (p, wanted)) :
    ∃ ch : Change, ch.returning = [] ∧ p = .change ch := by
  obtain ⟨st, hst, hplan⟩ := ofText_ok h
  obtain ⟨x, hx⟩ := toList_compiled hc
  rw [hop] at hx
  obtain ⟨table, condition, returning, rfl⟩ := opens_delete hx hst
  obtain rfl := returning_delete hx (trails_delete hd hop hown hc) hst
  obtain ⟨ch, hch, hplan⟩ := of_bind_ok hplan
  cases hplan
  obtain ⟨s, -, hfound⟩ := ofDelete_ok hch
  exact ⟨ch, (Except.ok.inj hfound).symm, rfl⟩

end Plan
end Relata.Sqlite
