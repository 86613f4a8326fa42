import Relata.Proofs.Binding
import Relata.Proofs.Tokens

/-!
What a lexer reads in a compiled statement. A bare key is written as a path of two quoted names; a
key with a dot is written as it stands. Main statement: where each key is written as a path, the
statement is read as one comparison of a path with a placeholder for each condition, and one path for
each key to order by, in the frame that the rest of it makes.
-/
namespace Relata

namespace Sql

variable {d : Dialect} {p q : List Piece} {s : String} {ts : List Token}

theorem Closed.left {p q : List Piece} (h : Closed (p ++ q)) : Closed p := by
  induction p with
  | nil => trivial
  | cons x p ih =>
    have hopens : opens (p ++ q) = true → opens p = true := by
      intro ho
      cases p with
      | nil => rfl
      | cons y p => cases y <;> exact ho
    cases x with
    | text s => exact ⟨h.1, ih h.2⟩
    | name | literal | slot => exact ⟨hopens h.1, ih h.2⟩

theorem read_render (h : Closed p) (used : Nat) :
    read (render d used p) = some (tokens [] (lexemes d used p)) := by
  unfold read
  rw [scan_render d h, Option.map_some]

@[simp] theorem read_nil : read [] = some [] := by simp [read, tokens, ofRun]

theorem read_plain {s : List Char} (h : s.all isPlain = true) :
    read s = some (tokens [] (s.map Lexeme.other)) := by
  have hscan := scan_plain h []
  rw [List.append_nil, scan_nil, Option.map_some, List.append_nil] at hscan
  unfold read
  rw [hscan, Option.map_some]

theorem read_placeholder (d : Dialect) (i : Nat) :
    read (d.placeholder i).toList = some [.mark (d.placeholder i)] := by
  have hscan := scan_placeholder d i detached_nil
  rw [List.append_nil, scan_nil, Option.map_some] at hscan
  unfold read
  rw [hscan]
  rfl

theorem apart_of_head {a : List Char} (h : a.head?.any separates = true) (b : List Char) :
    Apart (a ++ b) := by
  cases a with
  | nil => cases h
  | cons c a => exact apart_cons.mpr h

/-- Text that is the tokens `ts` wherever it stands, and separates what is around it. -/
structure Divides (s : String) (ts : List Token) : Prop where
  head : s.toList.head?.any separates = true
  read (rest : List Char) : read (s.toList ++ rest) = (read rest).map (ts ++ ·)

theorem read_plain_append (hp : s.toList.all isPlain = true)
    (ht : ∀ ls, tokens [] (s.toList.map .other ++ ls) = ts ++ tokens [] ls) (rest : List Char) :
    read (s.toList ++ rest) = (read rest).map (ts ++ ·) := by
  unfold read
  rw [scan_plain hp, Option.map_map, Option.map_map]
  simp only [Function.comp_def, ht]

theorem Divides.of_plain (hp : s.toList.all isPlain = true)
    (hh : s.toList.head?.any separates = true)
    (ht : ∀ ls, tokens [] (s.toList.map .other ++ ls) = ts ++ tokens [] ls) : Divides s ts :=
  ⟨hh, read_plain_append hp ht⟩

theorem divides_comma : Divides ", " [.symbol ','] := .of_plain rfl rfl fun _ => rfl

theorem divides_where : Divides " WHERE " [.word "WHERE"] := .of_plain rfl rfl fun _ => rfl

theorem divides_and : Divides " AND " [.word "AND"] := .of_plain rfl rfl fun _ => rfl

theorem read_select_append (rest : List Char) : read ("SELECT ".toList ++ rest) =
    (read rest).map ([.word "SELECT"] ++ ·) := read_plain_append rfl (fun _ => rfl) rest

theorem Divides.apart (h : Divides s ts) (rest : List Char) : Apart (s.toList ++ rest) :=
  apart_of_head h.head rest

/-- The items are read one by one as these tokens, when `used` placeholders stand before them. -/
inductive Reads (d : Dialect) : (used : Nat) → List (List Piece) → List (List Token) → Prop
  | nil {used : Nat} : Reads d used [] []
  | cons {used : Nat} {p : List Piece} {ts : List Token} {items : List (List Piece)}
    {parts : List (List Token)} (h : read (render d used p) = some ts)
    (hrest : Reads d (used + (operands p).length) items parts) :
    Reads d used (p :: items) (ts :: parts)

theorem Reads.separated {used : Nat} {items : List (List Piece)} {parts : List (List Token)}
    {sep : String} {t : Token} (h : Reads d used items parts) (hsep : Divides sep [t])
    (hne : items ≠ []) :
    read (render d used (separated sep items)) = some (List.intercalate [t] parts) := by
  induction h with
  | nil => exact absurd rfl hne
  | @cons used p ts items parts hp hrest ih =>
    cases hrest with
    | nil =>
      rw [List.intercalate_singleton]
      exact hp
    | @cons _ q ts' items parts hq hrest =>
      have htail := ih (List.cons_ne_nil q items)
      rw [Sql.separated, render_append, render, read_append hp (hsep.apart _), hsep.read, htail,
        List.intercalate_cons_cons]
      simp

theorem reads_of {items : List (List Piece)}
    (h : ∀ p ∈ items, ∀ used, ∃ ts, read (render d used p) = some ts) (used : Nat) :
    ∃ parts, Reads d used items parts := by
  induction items generalizing used with
  | nil => exact ⟨[], .nil⟩
  | cons p items ih =>
    obtain ⟨hp, hitems⟩ := List.forall_mem_cons.mp h
    obtain ⟨ts, hts⟩ := hp used
    obtain ⟨parts, hparts⟩ := ih hitems (used + (operands p).length)
    exact ⟨ts :: parts, .cons hts hparts⟩

theorem readable_separated {items : List (List Piece)} {sep : String} {t : Token}
    (h : ∀ p ∈ items, ∀ used, ∃ ts, read (render d used p) = some ts) (hsep : Divides sep [t])
    (used : Nat) : ∃ ts, read (render d used (separated sep items)) = some ts := by
  obtain ⟨parts, hparts⟩ := reads_of h used
  cases items with
  | nil => exact ⟨[], read_nil⟩
  | cons p items => exact ⟨_, hparts.separated hsep (List.cons_ne_nil p items)⟩

/-- The tokens of a clause, which is left out when there is nothing to list. -/
def clauseTokens (lead : List Token) (sep : Token) (parts : List (List Token)) : List Token :=
  if parts.isEmpty then [] else lead ++ List.intercalate [sep] parts

theorem Reads.clause {used : Nat} {items : List (List Piece)} {parts : List (List Token)}
    {lead sep : String} {lts : List Token} {t : Token} (h : Reads d used items parts)
    (hlead : Divides lead lts) (hsep : Divides sep [t]) :
    read (render d used (Query.clause lead sep items)) = some (clauseTokens lts t parts) := by
  cases h with
  | nil => exact read_nil
  | @cons _ p ts items parts hp hrest =>
    have hall := (Reads.cons hp hrest).separated hsep (List.cons_ne_nil p items)
    have hclause : Query.clause lead sep (p :: items) =
        .text lead :: Sql.separated sep (p :: items) := rfl
    rw [hclause, render, hlead.read, hall]
    rfl

/-- Parts that are alike but for the path in front. -/
def Swaps (x y : List Token) : Prop := ∃ p q t rest, isPath p = true ∧ isPath q = true ∧
  t.bounds = true ∧ x = p ++ t :: rest ∧ y = q ++ t :: rest

theorem exchangeable_intercalate {sep : Token} (hsep : sep.bounds = true)
    {parts parts' : List (List Token)} (h : List.Forall₂ Swaps parts parts') {k : Token}
    (hk : k.bounds = true) :
    Exchangeable (k :: List.intercalate [sep] parts) (k :: List.intercalate [sep] parts') := by
  induction h generalizing k with
  | nil => exact .refl _
  | @cons x y xs ys hswap hrest ih =>
    obtain ⟨p, q, t, rest, hp, hq, ht, rfl, rfl⟩ := hswap
    have hfirst := exchangeable_path hp hq hk ht
    cases hrest with
    | nil => simpa using hfirst.append (.refl rest)
    | cons _ _ =>
      have hall := (hfirst.append (.refl rest)).append (ih hsep)
      simp only [List.intercalate_cons_cons]
      simpa using hall

theorem exchangeable_clause (lead : List Token) {k sep : Token} (hk : k.bounds = true)
    (hsep : sep.bounds = true) {parts parts' : List (List Token)}
    (h : List.Forall₂ Swaps parts parts') :
    Exchangeable (clauseTokens (lead ++ [k]) sep parts)
      (clauseTokens (lead ++ [k]) sep parts') := by
  cases h with
  | nil => exact .refl _
  | cons hswap hrest =>
    have hall := (Exchangeable.refl lead).append
      (exchangeable_intercalate hsep (.cons hswap hrest) hk)
    simpa [clauseTokens] using hall

end Sql

open Sql

/-- The operator as a token. -/
def Operator.token : Operator → Token
  | .contains => .word "LIKE"
  | op => .sign op.sql

theorem Operator.token_bounds (op : Operator) : op.token.bounds = true := by cases op <;> decide

theorem Operator.divides (op : Operator) : Divides (" " ++ op.sql ++ " ") [op.token] := by
  cases op <;> exact .of_plain rfl rfl fun _ => rfl

theorem Direction.word_bounds (dir : Direction) : (Token.word dir.sql).bounds = true := by
  cases dir <;> decide

namespace Query

variable {d : Dialect} {table : String} {used : Nat}

/-- The text is a path of identifiers. -/
def IsPathText (text : String) : Prop := ∃ p, read text.toList = some p ∧ isPath p = true

instance (text : String) : Decidable (IsPathText text) :=
  decidable_of_iff ((read text.toList).any isPath = true) (Option.any_eq_true _ _)

/-- What the key writes is a path of identifiers. -/
def Key.IsPath (table : String) (k : Key) : Prop := IsPathText (k.text table)

instance (table : String) (k : Key) : Decidable (k.IsPath table) :=
  inferInstanceAs (Decidable (IsPathText _))

/-- The text of a key, whatever it is put between, is that of its pieces. -/
theorem Key.render_pieces (d : Dialect) (used : Nat) (k : Key) :
    render d used (k.pieces table) = (k.text table).toList := by
  rw [← Key.textFrom_pieces (d := d) k used, textFrom, String.toList_ofList]

theorem Key.read_own (table column : String) :
    read ((Key.own column).text table).toList = some [.name table, .symbol '.', .name column] := by
  have hclosed : Closed (Sql.column table column) := .of_closes rfl
  have hdot : scanned "." = [.other '.'] := scanned_plain rfl
  rw [← Key.render_pieces .sqlite 0, Key.pieces, read_render hclosed]
  simp only [Sql.column, lexemes, hdot]
  rfl

theorem Key.ofText_bare {key : String} (h : '.' ∉ key.toList) : Key.ofText key = .own key := by
  simp [Key.ofText, h]

theorem Key.ofText_dotted {key : String} (h : '.' ∈ key.toList) : Key.ofText key = .dotted key := by
  simp [Key.ofText, h]

theorem apart_clause {lead sep : String} (h : lead.toList.head?.any separates = true)
    (items : List (List Piece)) : Apart (render d used (clause lead sep items)) := by
  unfold clause
  split
  · exact apart_nil
  · exact apart_of_head h _

/-- Whatever is listed to be selected can be read by itself. -/
def Selection.Readable : Selection → Prop
  | .all => True
  | .columns texts => ∀ text ∈ texts, ∃ ts, read text.toList = some ts

/-- One part for each condition: the path that its key writes, its operator, and the placeholder
whose turn it is. -/
inductive Compares (d : Dialect) (table : String) :
    (used : Nat) → List Condition → List (List Token) → Prop
  | nil {used : Nat} : Compares d table used [] []
  | cons {used : Nat} {c : Condition} {cs : List Condition} {p : List Token}
    {parts : List (List Token)} (hp : read (c.key.text table).toList = some p)
    (hpath : isPath p = true) (h : Compares d table (used + 1) cs parts) :
    Compares d table used (c :: cs) ((p ++ [c.operator.token, .mark (d.placeholder used)]) :: parts)

/-- No key adds a comparison. -/
theorem Compares.length_eq {cs : List Condition} {parts : List (List Token)}
    (h : Compares d table used cs parts) : parts.length = cs.length := by
  induction h with
  | nil => rfl
  | cons _ _ _ ih => rw [List.length_cons, List.length_cons, ih]

theorem reads_conditions {cs : List Condition} (h : ∀ c ∈ cs, c.key.IsPath table) (used : Nat) :
    ∃ parts, Compares d table used cs parts ∧
      Reads d used (cs.map fun c => c.pieces table) parts := by
  induction cs generalizing used with
  | nil => exact ⟨[], .nil, .nil⟩
  | cons c cs ih =>
    obtain ⟨⟨p, hp, hpath⟩, hrest⟩ := List.forall_mem_cons.mp h
    obtain ⟨parts, hcompares, hreads⟩ := ih hrest (used + 1)
    refine ⟨_, .cons hp hpath hcompares, .cons ?_ ?_⟩
    · have hop := c.operator.divides
      unfold Condition.pieces
      rw [render_append, Key.render_pieces, Key.operands_pieces, render, render, render,
        read_append hp (hop.apart _), hop.read, List.append_nil]
      simp [read_placeholder]
    · rw [Condition.operands_pieces]
      exact hreads

/-- The path that a key to order by writes, and the direction. -/
def Orders (table : String) (o : Key × Direction) (ts : List Token) : Prop :=
  ∃ p, read (o.1.text table).toList = some p ∧ isPath p = true ∧ ts = p ++ [.word o.2.sql]

theorem reads_order {order : List (Key × Direction)} (h : ∀ o ∈ order, o.1.IsPath table)
    (used : Nat) : ∃ parts, List.Forall₂ (Orders table) order parts ∧
      Reads d used (order.map fun o => o.1.pieces table ++ [.text (" " ++ o.2.sql)]) parts := by
  induction order with
  | nil => exact ⟨[], .nil, .nil⟩
  | cons o order ih =>
    obtain ⟨⟨p, hp, hpath⟩, hrest⟩ := List.forall_mem_cons.mp h
    obtain ⟨parts, horders, hreads⟩ := ih hrest
    refine ⟨_, .cons ⟨p, hp, hpath, rfl⟩ horders, .cons ?_ ?_⟩
    · have hdir : read (" " ++ o.2.sql).toList = some [.word o.2.sql] := by
        cases o.2 <;> exact read_plain rfl
      have hapart : Apart (" " ++ o.2.sql).toList := by cases o.2 <;> exact apart_cons.mpr rfl
      rw [render_append, Key.render_pieces, Key.operands_pieces, render, render, List.append_nil,
        read_append hp hapart, hdir, Option.map_some]
    · rw [operands_append, Key.operands_pieces]
      exact hreads

theorem Compares.swaps {cs cs' : List Condition} {parts parts' : List (List Token)}
    (h : Compares d table used cs parts) (h' : Compares d table used cs' parts')
    (hop : List.Forall₂ (fun c c' => c.operator = c'.operator) cs cs') :
    List.Forall₂ Swaps parts parts' := by
  induction h generalizing cs' parts' with
  | nil =>
    cases hop
    cases h'
    exact .nil
  | cons _ hpath _ ih =>
    cases hop with
    | cons heq hrest =>
      cases h' with
      | cons _ hpath' h' =>
        rw [heq]
        exact .cons ⟨_, _, _, _, hpath, hpath', Operator.token_bounds _, rfl, rfl⟩ (ih h' hrest)

theorem swaps_of_orders {order order' : List (Key × Direction)} {parts parts' : List (List Token)}
    (h : List.Forall₂ (Orders table) order parts) (h' : List.Forall₂ (Orders table) order' parts')
    (hdir : List.Forall₂ (fun o o' => o.2 = o'.2) order order') :
    List.Forall₂ Swaps parts parts' := by
  induction hdir generalizing parts parts' with
  | nil =>
    cases h
    cases h'
    exact .nil
  | cons heq _ ih =>
    cases h with
    | cons hp h =>
      cases h' with
      | cons hp' h' =>
        obtain ⟨p, -, hp, rfl⟩ := hp
        obtain ⟨p', -, hp', rfl⟩ := hp'
        rw [heq]
        exact .cons ⟨p, p', _, [], hp, hp', Direction.word_bounds _, rfl, rfl⟩ (ih h h')

end Query

open Query

namespace QueryBuilder

variable {t : Table} {d : Dialect} {b b' b₁ : QueryBuilder}

/-- The statement up to its conditions. -/
def lead (b : QueryBuilder) : List Piece :=
  match b.operation with
  | .select => b.toSelect.before b.dialect
  | .insert => Command.insertPieces b.table.name b.record
  | .update => [.text "UPDATE ", .name b.table.name, .text " SET "] ++
      separated ", " (b.record.entries.map fun e => [.name e.1, .text " = ", .slot e.2])
  | .delete => [.text "DELETE FROM ", .name b.table.name]

/-- The conditions that the statement has. -/
def filters (b : QueryBuilder) : List Condition :=
  match b.operation with
  | .insert => []
  | _ => b.conditions

theorem filters_eq (h : b.operation ≠ .insert) : b.filters = b.conditions := by
  unfold filters
  split
  next hinsert => exact absurd hinsert h
  next => rfl

def grouping (b : QueryBuilder) : List Piece :=
  match b.operation with
  | .select =>
    clause " GROUP BY " ", " (b.toSelect.groupKeys.map fun k => Sql.column k.1 k.2)
  | _ => []

/-- The order that the statement has. -/
def sorting (b : QueryBuilder) : List (Key × Direction) :=
  match b.operation with
  | .select => b.order
  | _ => []

theorem sorting_eq (h : b.operation = .select) : b.sorting = b.order := by
  unfold sorting
  rw [h]

/-- The statement behind its order. -/
def trailer (b : QueryBuilder) : List Piece :=
  match b.operation with
  | .select => countPieces " LIMIT " b.limit ++ countPieces " OFFSET " b.offset
  | .update => [.text " RETURNING *"]
  | _ => []

theorem command_pieces {c : Command} (hc : b.command = .ok c) : c.pieces b.dialect =
    b.lead ++ (wherePieces b.table.name b.filters ++ (b.grouping ++
      (orderPieces b.table.name b.sorting ++ b.trailer))) := by
  unfold command at hc
  unfold lead filters grouping sorting trailer
  cases hop : b.operation with
  | select =>
    simp only [hop, Except.ok.injEq] at hc
    subst hc
    simp [Command.pieces, Select.pieces_eq, Select.after, toSelect, List.append_assoc]
  | insert =>
    simp only [hop, Except.ok.injEq] at hc
    subst hc
    simp [Command.pieces, wherePieces, orderPieces, clause]
  | update =>
    simp only [hop] at hc
    split at hc
    · cases hc
    · cases hc
      simp [Command.pieces, Command.updatePieces, orderPieces, clause]
  | delete =>
    simp only [hop, Except.ok.injEq] at hc
    subst hc
    simp [Command.pieces, Command.deletePieces, orderPieces, clause]

section Closed

/-- What is selected can be read text by text. -/
theorem readable_selection (h : b.selection.Readable) (d : Dialect) :
    ∀ p ∈ b.selection.pieces b.table.name ++ b.loads.map fun l => l.projectionPieces d,
      ∀ used, ∃ ts, read (render d used p) = some ts := by
  intro p hp used
  rcases List.mem_append.mp hp with hp | hp
  · cases hs : b.selection with
    | all =>
      rw [hs] at hp
      obtain rfl := List.mem_singleton.mp hp
      exact ⟨_, read_render (.of_closes rfl) used⟩
    | columns texts =>
      rw [hs] at hp h
      obtain ⟨text, ht, rfl⟩ := List.mem_map.mp hp
      obtain ⟨ts, hts⟩ := h text ht
      refine ⟨ts, ?_⟩
      rwa [render, render, List.append_nil]
  · obtain ⟨l, -, rfl⟩ := List.mem_map.mp hp
    have hconfined : Confined (fun _ => True) (l.projectionPieces d) :=
      l.projectionPieces_confined d fun _ _ => trivial
    exact ⟨_, read_render hconfined.1 used⟩

theorem read_before (h : b.selection.Readable) (d : Dialect) :
    ∃ ts, read (render d 0 (b.toSelect.before d)) = some ts := by
  let projections := b.selection.pieces b.table.name ++ b.loads.map fun l => l.projectionPieces d
  let joins := b.loads.flatMap fun l => .text " " :: l.joinPieces b.table.name
  obtain ⟨ts, hts⟩ := readable_separated (readable_selection h d) divides_comma 0
  have hfrom : Tail (fun _ => True) [.text " FROM ", .name b.table.name] :=
    .of_closes rfl rfl fun _ _ => trivial
  have hjoins : Tail (fun _ => True) joins :=
    .flatMap fun l _ => .text (.of_plain rfl) rfl (l.joinPieces_confined trivial fun _ _ => trivial)
  have hrest (used : Nat) : Apart (render d used ([.text " FROM ", .name b.table.name] ++ joins)) :=
    apart_of_head rfl _
  have hbefore : b.toSelect.before d = .text "SELECT " :: (separated ", " projections ++
      ([.text " FROM ", .name b.table.name] ++ joins)) := by
    simp [Select.before, toSelect, projections, joins]
  rw [hbefore, render, read_select_append, render_append, read_append hts (hrest _),
    read_render (hfrom.append hjoins).1.1]
  exact ⟨_, rfl⟩

/-- The statement can be read up to its conditions. -/
theorem read_lead (h : b.selection.Readable) :
    ∃ ts, read (render b.dialect 0 b.lead) = some ts := by
  unfold lead
  cases b.operation with
  | select => exact read_before h b.dialect
  | insert =>
    have hconfined : Confined (fun _ => True) (Command.insertPieces b.table.name b.record) :=
      Command.insertPieces_confined trivial fun _ _ => trivial
    exact ⟨_, read_render hconfined.1 0⟩
  | update =>
    have hconfined : Confined (fun _ => True) (Command.updatePieces b.table.name b.record []) :=
      Command.updatePieces_confined trivial (fun _ _ => trivial) nofun
    have hclosed := hconfined.1
    unfold Command.updatePieces at hclosed
    rw [List.append_assoc] at hclosed
    exact ⟨_, read_render hclosed.left 0⟩
  | delete =>
    have hconfined : Confined (fun _ => True) (Command.deletePieces b.table.name []) :=
      Command.deletePieces_confined trivial nofun
    exact ⟨_, read_render hconfined.1.left 0⟩

theorem closed_grouping (b : QueryBuilder) : Closed b.grouping := by
  unfold grouping
  cases b.operation with
  | select =>
    refine (clause_tail (A := fun _ => True) rfl rfl rfl rfl ?_).1.1
    exact List.forall_mem_map.mpr fun k _ => column_confined trivial trivial
  | _ => trivial

theorem closed_trailer (b : QueryBuilder) : Closed b.trailer := by
  unfold trailer
  cases b.operation with
  | select =>
    have hlimit : Tail (fun _ => True) (countPieces " LIMIT " b.limit) := countPieces_tail rfl rfl _
    exact (hlimit.append (countPieces_tail rfl rfl b.offset)).1.1
  | update => exact .of_closes rfl
  | _ => trivial

end Closed

section Apart

variable {used : Nat}

theorem apart_count {lead : String} (h : lead.toList.head?.any separates = true) (n : Option Nat) :
    Apart (render d used (countPieces lead n)) := by
  cases n with
  | none => exact apart_nil
  | some n =>
    rw [countPieces, render, String.toList_append, List.append_assoc]
    exact apart_of_head h _

theorem apart_trailer (b : QueryBuilder) : Apart (render d used b.trailer) := by
  unfold trailer
  cases b.operation with
  | select =>
    rw [render_append]
    exact (apart_count rfl b.limit).append (apart_count rfl b.offset)
  | update => exact apart_of_head rfl _
  | _ => exact apart_nil

theorem apart_grouping (b : QueryBuilder) : Apart (render d used b.grouping) := by
  unfold grouping
  cases b.operation with
  | select => exact apart_clause rfl _
  | _ => exact apart_nil

end Apart

/-- How many values are bound before the conditions. -/
def leadCount (b : QueryBuilder) : Nat := (Sql.operands b.lead).length

/-- How many values are bound before the end. -/
def boundCount (b : QueryBuilder) : Nat := b.leadCount + b.filters.length

/-- The tokens of a statement around those of its conditions and its order. -/
def frame (b : QueryBuilder) (conditions order : List Token) : List Token :=
  (read (render b.dialect 0 b.lead)).getD [] ++ conditions ++
    tokens [] (lexemes b.dialect b.boundCount b.grouping) ++ order ++
    tokens [] (lexemes b.dialect b.boundCount b.trailer)

/-- What is selected can be read, and each key writes a path. -/
structure Spelled (b : QueryBuilder) : Prop where
  selection : b.selection.Readable
  conditions : ∀ c ∈ b.conditions, c.key.IsPath b.table.name
  order : ∀ o ∈ b.order, o.1.IsPath b.table.name

theorem operands_grouping (b : QueryBuilder) : Sql.operands b.grouping = [] := by
  have hcolumn (k : String × String) : Sql.operands (Sql.column k.1 k.2) = [] := rfl
  unfold grouping
  cases b.operation with
  | select => simp [operands_clause, List.flatMap_map, hcolumn]
  | _ => rfl

theorem operands_sorting (b : QueryBuilder) :
    Sql.operands (orderPieces b.table.name b.sorting) = [] := by
  have hone (o : Key × Direction) :
      Sql.operands (o.1.pieces b.table.name ++ [.text (" " ++ o.2.sql)]) = [] := by
    simp [Sql.operands]
  simp [orderPieces, operands_clause, List.flatMap_map, hone]

theorem exists_command {stmt : Statement} (hc : b.compile = .ok stmt) :
    ∃ c, b.command = .ok c ∧ stmt.sql.toList = render b.dialect 0 (c.pieces b.dialect) := by
  cases hcommand : b.command with
  | error e => simp [compile, hcommand, Except.map] at hc
  | ok c =>
    have hstmt : c.statement b.dialect = stmt := by simpa [compile, hcommand, Except.map] using hc
    refine ⟨c, rfl, ?_⟩
    rw [← hstmt, Command.statement, Sql.statement, String.toList_ofList]

theorem compiled_text {stmt : Statement} (hc : b.compile = .ok stmt) :
    stmt.sql.toList = render b.dialect 0 b.lead ++
      (render b.dialect b.leadCount (wherePieces b.table.name b.filters) ++
        (render b.dialect b.boundCount b.grouping ++
          (render b.dialect b.boundCount (orderPieces b.table.name b.sorting) ++
            render b.dialect b.boundCount b.trailer))) := by
  obtain ⟨c, hcommand, hsql⟩ := exists_command hc
  rw [hsql, command_pieces hcommand]
  simp only [render_append, operands_wherePieces, operands_grouping, operands_sorting,
    List.length_map, List.length_nil, Nat.zero_add, Nat.add_zero]
  rfl

/-- A compiled statement is read as its frame around one comparison for each condition, and one path
for each key to order by. -/
theorem read_compiled {stmt : Statement} (h : b.Spelled) (hc : b.compile = .ok stmt) :
    ∃ parts sorted, Compares b.dialect b.table.name b.leadCount b.filters parts ∧
      List.Forall₂ (Orders b.table.name) b.sorting sorted ∧
      read stmt.sql.toList = some (b.frame (clauseTokens [.word "WHERE"] (.word "AND") parts)
        (clauseTokens [.word "ORDER", .word "BY"] (.symbol ',') sorted)) := by
  have horder : Divides " ORDER BY " [.word "ORDER", .word "BY"] := .of_plain rfl rfl fun _ => rfl
  have hfilters : ∀ c ∈ b.filters, c.key.IsPath b.table.name := by
    unfold filters
    cases b.operation with
    | insert => exact nofun
    | _ => exact h.conditions
  have hsorting : ∀ o ∈ b.sorting, o.1.IsPath b.table.name := by
    unfold sorting
    cases b.operation with
    | select => exact h.order
    | _ => exact nofun
  obtain ⟨parts, hcompares, hparts⟩ := reads_conditions (d := b.dialect) hfilters b.leadCount
  obtain ⟨sorted, hsorted, hkeys⟩ := reads_order (d := b.dialect) hsorting b.boundCount
  refine ⟨parts, sorted, hcompares, hsorted, ?_⟩
  have hconditions : read (render b.dialect b.leadCount (wherePieces b.table.name b.filters)) =
      some (clauseTokens [.word "WHERE"] (.word "AND") parts) := hparts.clause divides_where divides_and
  have horders : read (render b.dialect b.boundCount (orderPieces b.table.name b.sorting)) =
      some (clauseTokens [.word "ORDER", .word "BY"] (.symbol ',') sorted) :=
    hkeys.clause horder divides_comma
  -- each part separates what stands before it, so the text is read from the front
  have htrailer : Apart (render b.dialect b.boundCount b.trailer) := apart_trailer b
  have hafter : Apart (render b.dialect b.boundCount (orderPieces b.table.name b.sorting) ++
      render b.dialect b.boundCount b.trailer) := (apart_clause rfl _).append htrailer
  have hgroup : Apart (render b.dialect b.boundCount b.grouping ++
      (render b.dialect b.boundCount (orderPieces b.table.name b.sorting) ++
        render b.dialect b.boundCount b.trailer)) := (apart_grouping b).append hafter
  have hrest : Apart (render b.dialect b.leadCount (wherePieces b.table.name b.filters) ++
      (render b.dialect b.boundCount b.grouping ++
        (render b.dialect b.boundCount (orderPieces b.table.name b.sorting) ++
          render b.dialect b.boundCount b.trailer))) := (apart_clause rfl _).append hgroup
  obtain ⟨lts, hlead⟩ := read_lead h.selection
  rw [compiled_text hc, read_append hlead hrest,
    read_append hconditions hgroup, read_append (read_render (closed_grouping b) _) hafter,
    read_append horders htrailer, read_render (closed_trailer b)]
  simp [frame, hlead, List.append_assoc]

end QueryBuilder

end Relata
