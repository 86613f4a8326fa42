import Relata.Proofs.Clauses

/-!
Statements on the rows of a table, as a database reads them. Main statements: what is compiled to
insert a record, and to select, update or delete rows by their columns, is read back as just that,
whatever characters the names hold, with the parameters in the order of what they are for.
-/
namespace Relata

open Sql Query

/-- A statement on the rows of a table. Its operands stand apart: first those of the columns that it
sets, then those that it tests columns with. -/
inductive Dml where
  | insert (table : String) (columns : List String)
  | select (table : String) (tests : List (String × Operator))
  | update (table : String) (columns : List String) (tests : List (String × Operator))
  | delete (table : String) (tests : List (String × Operator))
  deriving DecidableEq, Repr

namespace Dml

/-! How tokens are read. Operands are read as the placeholders that stand for them. -/

def ofName? : List Token → Option String
  | [.name n] => some n
  | _ => none

def ofMark? : List Token → Option String
  | [.mark p] => some p
  | _ => none

def ofAssignment? : List Token → Option (String × String)
  | [.name n, .sign "=", .mark p] => some (n, p)
  | _ => none

def ofOperator? (t : Token) : Option Operator :=
  [Operator.eq, .gt, .lt, .gte, .lte, .contains].find? fun op => op.token = t

def ofTest? (table : String) : List Token → Option ((String × Operator) × String)
  | [.name t, .symbol '.', .name c, op, .mark p] =>
    if t = table then (ofOperator? op).map fun op => ((c, op), p) else none
  | _ => none

/-- Each of the parts between `sep`. -/
def listOf {α : Type} (sep : Token) (part : List Token → Option α) (l : List Token) :
    Option (List α) :=
  (l.splitOn sep).mapM part

def ofWhere? (table : String) : List Token → Option (List (String × Operator) × List String)
  | [] => some ([], [])
  | .word "WHERE" :: l => (listOf (.word "AND") (ofTest? table) l).map List.unzip
  | _ => none

def ofInsert? (table : String) : List Token → Option (Dml × List String)
  | [.word "DEFAULT", .word "VALUES", .word "RETURNING", .sign "*"] => some (.insert table [], [])
  | .symbol '(' :: l =>
    match l.splitOn (.symbol ')') with
    | [names, .word "VALUES" :: .symbol '(' :: marks, [.word "RETURNING", .sign "*"]] =>
      match listOf (.symbol ',') ofName? names, listOf (.symbol ',') ofMark? marks with
      | some columns, some marks =>
        if columns.length = marks.length then some (.insert table columns, marks) else none
      | _, _ => none
    | _ => none
  | _ => none

def ofUpdate? (table : String) (l : List Token) : Option (Dml × List String) :=
  match l.splitOn (.word "RETURNING") with
  | [l, [.sign "*"]] =>
    match listOf (.symbol ',') ofAssignment? (l.takeWhile (· ≠ .word "WHERE")),
      ofWhere? table (l.dropWhile (· ≠ .word "WHERE")) with
    | some sets, some tests => some (.update table sets.unzip.1 tests.1, sets.unzip.2 ++ tests.2)
    | _, _ => none
  | _ => none

/-- The statement that tokens make, and its placeholders in order. -/
def ofTokens? : List Token → Option (Dml × List String)
  | .word "INSERT" :: .word "INTO" :: .name t :: l => ofInsert? t l
  | .word "SELECT" :: .name t :: .symbol '.' :: .sign "*" :: .word "FROM" :: .name t' :: l =>
    if t' = t then (ofWhere? t l).map fun r => (.select t r.1, r.2) else none
  | .word "UPDATE" :: .name t :: .word "SET" :: l => ofUpdate? t l
  | .word "DELETE" :: .word "FROM" :: .name t :: l =>
    (ofWhere? t l).map fun r => (.delete t r.1, r.2)
  | _ => none

/-- The placeholders of `n` parameters that `used` others stand before. -/
def places (d : Dialect) (used n : Nat) : List String := (List.range' used n).map d.placeholder

/-- The statement that a text makes, if its placeholders are those of the parameters in order. -/
def ofSql? (d : Dialect) (sql : String) (params : List Value) : Option Dml :=
  ((read sql.toList).bind ofTokens?).bind fun r =>
    if r.2 = places d 0 params.length then some r.1 else none

section Tokens

variable {d : Dialect} {table : String}

@[simp] theorem length_places (d : Dialect) (used n : Nat) : (places d used n).length = n := by
  simp [places]

theorem places_append (d : Dialect) (used m n : Nat) :
    places d used m ++ places d (used + m) n = places d used (m + n) := by
  unfold places
  rw [← List.map_append, List.range'_append_1]

def nameTokens (n : String) : List Token := [.name n]

def markTokens (p : String) : List Token := [.mark p]

def assignmentTokens (e : String × String) : List Token := [.name e.1, .sign "=", .mark e.2]

def testTokens (table : String) (e : (String × Operator) × String) : List Token :=
  [.name table, .symbol '.', .name e.1.1, e.1.2.token, .mark e.2]

theorem ofName?_tokens (n : String) : ofName? (nameTokens n) = some n := rfl

theorem ofMark?_tokens (p : String) : ofMark? (markTokens p) = some p := rfl

theorem ofAssignment?_tokens (e : String × String) :
    ofAssignment? (assignmentTokens e) = some e := rfl

@[simp] theorem ofOperator?_token (op : Operator) : ofOperator? op.token = some op := by
  cases op <;> decide

theorem ofTest?_tokens (table : String) (e : (String × Operator) × String) :
    ofTest? table (testTokens table e) = some e := by
  simp [ofTest?, testTokens]

/-- A list that is written with `sep` between its parts is read back. -/
theorem listOf_intercalate {α : Type} {sep : Token} {part : List Token → Option α}
    {tokens : α → List Token} (hpart : ∀ x, part (tokens x) = some x)
    (hsep : ∀ x, sep ∉ tokens x) {l : List α} (hl : l ≠ []) :
    listOf sep part (List.intercalate [sep] (l.map tokens)) = some l := by
  have hall : (l.map tokens).mapM part = some l := by
    clear hl
    induction l with
    | nil => rfl
    | cons x l ih => simp [hpart, ih]
  unfold listOf
  rw [List.splitOn_intercalate sep (List.forall_mem_map.mpr fun x _ => hsep x) (by simpa using hl)]
  exact hall

theorem not_mem_intercalate {t sep : Token} (ht : t ≠ sep) {l : List (List Token)}
    (h : ∀ x ∈ l, t ∉ x) : t ∉ List.intercalate [sep] l := by
  induction l with
  | nil => simp
  | cons x l ih =>
    obtain ⟨hx, hl⟩ := List.forall_mem_cons.mp h
    cases l with
    | nil => simpa using hx
    | cons y l =>
      rw [List.intercalate_cons_cons]
      simp [hx, ht, ih hl]

theorem ofWhere?_clause (l : List ((String × Operator) × String)) :
    ofWhere? table (clauseTokens [.word "WHERE"] (.word "AND") (l.map (testTokens table))) =
      some l.unzip := by
  cases l with
  | nil => rfl
  | cons e l =>
    have hand (e : (String × Operator) × String) : Token.word "AND" ∉ testTokens table e := by
      obtain ⟨⟨c, op⟩, p⟩ := e
      cases op <;> simp [testTokens, Operator.token]
    have hlist := listOf_intercalate (ofTest?_tokens table) hand (List.cons_ne_nil e l)
    rw [List.map_cons] at hlist ⊢
    have hclause (parts : List (List Token)) (p : List Token) :
        clauseTokens [.word "WHERE"] (.word "AND") (p :: parts) =
          .word "WHERE" :: List.intercalate [.word "AND"] (p :: parts) := rfl
    rw [hclause, ofWhere?, hlist]
    rfl

theorem ofInsert?_columns (table : String) {columns marks : List String}
    (hlength : columns.length = marks.length)
    (hne : columns ≠ []) :
    ofInsert? table (.symbol '(' :: (List.intercalate [.symbol ','] (columns.map nameTokens) ++
      .symbol ')' :: (.word "VALUES" :: .symbol '(' ::
        List.intercalate [.symbol ','] (marks.map markTokens) ++
          .symbol ')' :: [.word "RETURNING", .sign "*"]))) = some (.insert table columns, marks) := by
  have hmarks : marks ≠ [] := by
    rintro rfl
    exact hne (List.eq_nil_of_length_eq_zero hlength)
  have hnames : listOf (.symbol ',') ofName?
      (List.intercalate [.symbol ','] (columns.map nameTokens)) = some columns :=
    listOf_intercalate ofName?_tokens (by simp [nameTokens]) hne
  have hplaces : listOf (.symbol ',') ofMark?
      (List.intercalate [.symbol ','] (marks.map markTokens)) = some marks :=
    listOf_intercalate ofMark?_tokens (by simp [markTokens]) hmarks
  have hfirst : Token.symbol ')' ∉ List.intercalate [.symbol ','] (columns.map nameTokens) :=
    not_mem_intercalate (by decide) (by simp [nameTokens])
  have hsecond : Token.symbol ')' ∉ .word "VALUES" :: .symbol '(' ::
      List.intercalate [.symbol ','] (marks.map markTokens) := by
    have hnot : Token.symbol ')' ∉ List.intercalate [.symbol ','] (marks.map markTokens) :=
      not_mem_intercalate (by decide) (by simp [markTokens])
    simpa using hnot
  have hlast : Token.symbol ')' ∉ [Token.word "RETURNING", .sign "*"] := by decide
  unfold ofInsert?
  simp only [List.splitOn_append_cons_self_of_not_mem hfirst,
    List.splitOn_append_cons_self_of_not_mem hsecond, List.splitOn_eq_singleton hlast, hnames, hplaces,
    hlength, if_true]

theorem takeWhile_clause {t : Token} (sep : Token) {l : List Token} (hl : t ∉ l)
    (parts : List (List Token)) :
    (l ++ clauseTokens [t] sep parts).takeWhile (· ≠ t) = l ∧
      (l ++ clauseTokens [t] sep parts).dropWhile (· ≠ t) = clauseTokens [t] sep parts := by
  have hall : ∀ x ∈ l, decide (x ≠ t) = true := by
    intro x hx
    exact decide_eq_true (ne_of_mem_of_not_mem hx hl)
  rw [List.takeWhile_append_of_pos hall, List.dropWhile_append_of_pos hall]
  cases parts with
  | nil => simp [clauseTokens]
  | cons p parts => simp [clauseTokens]

theorem ofUpdate?_sets (table : String) {sets : List (String × String)} (hne : sets ≠ [])
    (tests : List ((String × Operator) × String)) :
    ofUpdate? table (List.intercalate [.symbol ','] (sets.map assignmentTokens) ++
      clauseTokens [.word "WHERE"] (.word "AND") (tests.map (testTokens table)) ++
        .word "RETURNING" :: [.sign "*"]) =
      some (.update table sets.unzip.1 tests.unzip.1, sets.unzip.2 ++ tests.unzip.2) := by
  have hsets : listOf (.symbol ',') ofAssignment?
      (List.intercalate [.symbol ','] (sets.map assignmentTokens)) = some sets :=
    listOf_intercalate ofAssignment?_tokens (by simp [assignmentTokens]) hne
  have hnot (w : String) : Token.word w ∉
      List.intercalate [.symbol ','] (sets.map assignmentTokens) := by
    refine not_mem_intercalate (by simp) (List.forall_mem_map.mpr fun e _ => ?_)
    simp [assignmentTokens]
  have hclause : Token.word "RETURNING" ∉
      clauseTokens [.word "WHERE"] (.word "AND") (tests.map (testTokens table)) := by
    unfold clauseTokens
    split
    · simp
    · have htests : Token.word "RETURNING" ∉
          List.intercalate [.word "AND"] (tests.map (testTokens table)) := by
        refine not_mem_intercalate (by decide) (List.forall_mem_map.mpr ?_)
        rintro ⟨⟨c, op⟩, p⟩ -
        cases op <;> simp [testTokens, Operator.token]
      simpa using htests
  have hbody := List.not_mem_append (hnot _) hclause
  have hlast : Token.word "RETURNING" ∉ [Token.sign "*"] := by decide
  obtain ⟨htake, hdrop⟩ :=
    takeWhile_clause (.word "AND") (hnot "WHERE") (tests.map (testTokens table))
  unfold ofUpdate?
  simp only [List.splitOn_append_cons_self_of_not_mem hbody, List.splitOn_eq_singleton hlast, htake,
    hdrop, hsets, ofWhere?_clause]

end Tokens

/-! What is compiled, as tokens. -/

section Compiled

variable {d : Dialect} {table : String}

theorem reads_names (used : Nat) (names : List String) :
    Reads d used (names.map fun k => [.name k]) (names.map nameTokens) := by
  induction names with
  | nil => exact .nil
  | cons n names ih =>
    refine .cons ?_ ih
    rw [read_render (.of_closes rfl)]
    simp [lexemes, tokens, ofRun, nameTokens]

theorem reads_slots (used : Nat) (values : List Value) :
    Reads d used (values.map fun v => [.slot v])
      ((places d used values.length).map markTokens) := by
  induction values generalizing used with
  | nil => exact .nil
  | cons v values ih =>
    refine .cons ?_ (ih (used + 1))
    rw [read_render (.of_closes rfl)]
    simp [lexemes, tokens, ofRun, markTokens]

theorem reads_assignments (used : Nat) (entries : List (String × Value)) :
    Reads d used (entries.map fun e => [.name e.1, .text " = ", .slot e.2])
      (((entries.map Prod.fst).zip (places d used entries.length)).map assignmentTokens) := by
  have hequals : scanned " = " = [.other ' ', .other '=', .other ' '] := scanned_plain rfl
  induction entries generalizing used with
  | nil => exact .nil
  | cons e entries ih =>
    refine .cons ?_ (ih (used + 1))
    rw [read_render (.of_closes rfl)]
    simp only [lexemes, hequals]
    rfl

/-- A condition on a column of the table itself. -/
def condition (test : (String × Operator) × Value) : Condition :=
  ⟨.own test.1.1, test.1.2, test.2⟩

theorem reads_tests (used : Nat) (tests : List ((String × Operator) × Value)) :
    Reads d used ((tests.map condition).map fun c => c.pieces table)
      (((tests.map Prod.fst).zip (places d used tests.length)).map (testTokens table)) := by
  have hcompares {parts : List (List Token)}
      (h : Compares d table used (tests.map condition) parts) :
      parts = ((tests.map Prod.fst).zip (places d used tests.length)).map (testTokens table) := by
    induction tests generalizing used parts with
    | nil =>
      cases h
      rfl
    | cons e tests ih =>
      cases h with
      | cons hp _ h =>
        have hown := (Key.read_own table e.1.1).symm.trans hp
        obtain rfl := Option.some.inj hown
        rw [ih (used + 1) h]
        rfl
  have hpaths : ∀ c ∈ tests.map condition, c.key.IsPath table :=
    List.forall_mem_map.mpr fun e _ => ⟨_, Key.read_own table e.1.1, rfl⟩
  obtain ⟨parts, hparts, hreads⟩ := reads_conditions (d := d) hpaths used
  rwa [hcompares hparts] at hreads

theorem read_returning : read " RETURNING *".toList = some [.word "RETURNING", .sign "*"] :=
  read_plain rfl

theorem apart_returning : Apart " RETURNING *".toList := apart_cons.mpr rfl

theorem read_name (n : String) : read (Text.Quoted.token '"' n.toList) = some [.name n] := by
  have hname := read_render (d := .sqlite) (p := [.name n]) (.of_closes rfl) 0
  rw [render, render, List.append_nil] at hname
  rw [hname]
  rfl

theorem read_where (used : Nat) (tests : List ((String × Operator) × Value)) :
    read (render d used (wherePieces table (tests.map condition))) =
      some (clauseTokens [.word "WHERE"] (.word "AND")
        (((tests.map Prod.fst).zip (places d used tests.length)).map (testTokens table))) := by
  exact (reads_tests used tests).clause divides_where divides_and

theorem apart_where (used : Nat) (cs : List Condition) :
    Apart (render d used (wherePieces table cs)) := apart_clause rfl _

theorem read_insert_append (rest : List Char) : read ("INSERT INTO ".toList ++ rest) =
    (read rest).map ([.word "INSERT", .word "INTO"] ++ ·) := read_plain_append rfl (fun _ => rfl) rest

theorem read_insert (record : Keyed Value) (hne : record.entries ≠ []) :
    read (render d 0 (Command.insertPieces table record)) =
      some (.word "INSERT" :: .word "INTO" :: .name table ::
        .symbol '(' :: (List.intercalate [.symbol ','] (record.keys.map nameTokens) ++
          .symbol ')' :: (.word "VALUES" :: .symbol '(' ::
            List.intercalate [.symbol ','] ((places d 0 record.values.length).map markTokens) ++
              .symbol ')' :: [.word "RETURNING", .sign "*"]))) := by
  let names : List (List Piece) := record.keys.map fun k => [.name k]
  let slots : List (List Piece) := record.values.map fun v => [.slot v]
  have hempty : record.isEmpty = false := by simpa [Keyed.isEmpty] using hne
  have htext : render d 0 (Command.insertPieces table record) =
      "INSERT INTO ".toList ++ (Text.Quoted.token '"' table.toList ++ (" (".toList ++
        (render d 0 (separated ", " names) ++ (") VALUES (".toList ++
          (render d 0 (separated ", " slots) ++ (")".toList ++ " RETURNING *".toList)))))) := by
    simp [Command.insertPieces, hempty, render, render_append, Command.operands_columns, names, slots]
  have hopen : Divides " (" [.symbol '('] := .of_plain rfl rfl fun _ => rfl
  have hmiddle : Divides ") VALUES (" [.symbol ')', .word "VALUES", .symbol '('] :=
    .of_plain rfl rfl fun _ => rfl
  have hclose : Divides ")" [.symbol ')'] := .of_plain rfl rfl fun _ => rfl
  have hnames : read (render d 0 (separated ", " names)) =
      some (List.intercalate [.symbol ','] (record.keys.map nameTokens)) :=
    (reads_names 0 record.keys).separated divides_comma (by simpa [names, Keyed.keys] using hne)
  have hslots : read (render d 0 (separated ", " slots)) =
      some (List.intercalate [.symbol ','] ((places d 0 record.values.length).map markTokens)) :=
    (reads_slots 0 record.values).separated divides_comma (by simpa [slots, Keyed.values] using hne)
  rw [htext, read_insert_append, read_append (read_name table) (hopen.apart _), hopen.read,
    read_append hnames (hmiddle.apart _), hmiddle.read, read_append hslots (hclose.apart _),
    hclose.read, read_returning]
  simp

theorem read_insert_default :
    read (render d 0 (Command.insertPieces table .empty)) =
      some [.word "INSERT", .word "INTO", .name table, .word "DEFAULT", .word "VALUES",
        .word "RETURNING", .sign "*"] := by
  have htext : render d 0 (Command.insertPieces table .empty) = "INSERT INTO ".toList ++
      (Text.Quoted.token '"' table.toList ++ " DEFAULT VALUES RETURNING *".toList) := by
    simp [Command.insertPieces, Keyed.isEmpty, render]
  have hdefault : read " DEFAULT VALUES RETURNING *".toList =
      some [.word "DEFAULT", .word "VALUES", .word "RETURNING", .sign "*"] := read_plain rfl
  have happart : Apart " DEFAULT VALUES RETURNING *".toList := apart_cons.mpr rfl
  rw [htext, read_insert_append, read_append (read_name table) happart, hdefault]
  rfl

theorem read_update (record : Keyed Value) (hne : record.entries ≠ [])
    (tests : List ((String × Operator) × Value)) :
    read (render d 0 (Command.updatePieces table record (tests.map condition))) =
      some (.word "UPDATE" :: .name table :: .word "SET" ::
        (List.intercalate [.symbol ',']
            ((record.keys.zip (places d 0 record.entries.length)).map assignmentTokens) ++
          clauseTokens [.word "WHERE"] (.word "AND")
            (((tests.map Prod.fst).zip (places d record.entries.length tests.length)).map
              (testTokens table)) ++
          .word "RETURNING" :: [.sign "*"])) := by
  let sets : List (List Piece) := record.entries.map fun e => [.name e.1, .text " = ", .slot e.2]
  let n := record.entries.length
  have hcount : (Sql.operands (separated ", " sets)).length = n := by
    simp [sets, n, operands_separated, List.flatMap_map, Sql.operands]
  have htext : render d 0 (Command.updatePieces table record (tests.map condition)) =
      "UPDATE ".toList ++ (Text.Quoted.token '"' table.toList ++ (" SET ".toList ++
        (render d 0 (separated ", " sets) ++
          (render d n (wherePieces table (tests.map condition)) ++ " RETURNING *".toList)))) := by
    simp [Command.updatePieces, render, render_append, hcount, sets]
  have hset : Divides " SET " [.word "SET"] := .of_plain rfl rfl fun _ => rfl
  have hsets : read (render d 0 (separated ", " sets)) = some (List.intercalate [.symbol ',']
      ((record.keys.zip (places d 0 n)).map assignmentTokens)) :=
    (reads_assignments 0 record.entries).separated divides_comma (by simpa [sets] using hne)
  have happart : Apart (render d n (wherePieces table (tests.map condition)) ++
      " RETURNING *".toList) := (apart_where _ _).append apart_returning
  have hupdate (rest : List Char) : read ("UPDATE ".toList ++ rest) =
      (read rest).map ([.word "UPDATE"] ++ ·) := read_plain_append rfl (fun _ => rfl) rest
  rw [htext, hupdate, read_append (read_name table) (hset.apart _), hset.read,
    read_append hsets happart, read_append (read_where n tests) apart_returning, read_returning]
  simp [n]

theorem read_delete (tests : List ((String × Operator) × Value)) :
    read (render d 0 (Command.deletePieces table (tests.map condition))) =
      some (.word "DELETE" :: .word "FROM" :: .name table ::
        clauseTokens [.word "WHERE"] (.word "AND")
          (((tests.map Prod.fst).zip (places d 0 tests.length)).map (testTokens table))) := by
  have htext : render d 0 (Command.deletePieces table (tests.map condition)) =
      "DELETE FROM ".toList ++ (Text.Quoted.token '"' table.toList ++
        render d 0 (wherePieces table (tests.map condition))) := by
    simp [Command.deletePieces, render]
  have hdelete (rest : List Char) : read ("DELETE FROM ".toList ++ rest) =
      (read rest).map ([.word "DELETE", .word "FROM"] ++ ·) :=
    read_plain_append rfl (fun _ => rfl) rest
  rw [htext, hdelete, read_append (read_name table) (apart_where _ _), read_where]
  rfl

theorem read_select {s : Select} (hselection : s.selection = .all) (hloads : s.loads = [])
    (horder : s.order = []) (hlimit : s.limit = none) (hoffset : s.offset = none)
    {tests : List ((String × Operator) × Value)} (htests : s.conditions = tests.map condition) :
    read (render d 0 (s.pieces d)) =
      some (.word "SELECT" :: .name s.table :: .symbol '.' :: .sign "*" :: .word "FROM" ::
        .name s.table :: clauseTokens [.word "WHERE"] (.word "AND")
          (((tests.map Prod.fst).zip (places d 0 tests.length)).map (testTokens s.table))) := by
  have hgroups : s.groupKeys = [] := by
    simp [Select.groupKeys, Select.arrayKeys, hloads]
  have htext : render d 0 (s.pieces d) = "SELECT ".toList ++ (Text.Quoted.token '"' s.table.toList ++
      (".*".toList ++ (" FROM ".toList ++ (Text.Quoted.token '"' s.table.toList ++
        render d 0 (wherePieces s.table (tests.map condition)))))) := by
    simp [Select.pieces, hselection, hloads, horder, hlimit, hoffset, htests, hgroups, render,
      Selection.pieces, separated, clause, orderPieces, countPieces]
  have hstar : read ".*".toList = some [.symbol '.', .sign "*"] := read_plain rfl
  have hfrom : Divides " FROM " [.word "FROM"] := .of_plain rfl rfl fun _ => rfl
  rw [htext, read_select_append, read_append (read_name s.table) (apart_of_head rfl _),
    read_append hstar (hfrom.apart _), hfrom.read, read_append (read_name s.table) (apart_where _ _),
    read_where]
  rfl

theorem unzip_zip_places {α : Type} (l : List α) (used : Nat) :
    (l.zip (places d used l.length)).unzip = (l, places d used l.length) :=
  List.unzip_zip (length_places d used l.length).symm

theorem ofWhere?_tests (table : String) (used : Nat) (tests : List ((String × Operator) × Value)) :
    ofWhere? table (clauseTokens [.word "WHERE"] (.word "AND")
        (((tests.map Prod.fst).zip (places d used tests.length)).map (testTokens table))) =
      some (tests.map Prod.fst, places d used tests.length) := by
  have hunzip := unzip_zip_places (d := d) (tests.map Prod.fst) used
  rw [List.length_map] at hunzip
  rw [ofWhere?_clause, hunzip]

theorem ofSql?_statement {pieces : List Piece} {ts : List Token} {r : Dml × List String}
    (hread : read (render d 0 pieces) = some ts) (htokens : ofTokens? ts = some r)
    (hplaces : r.2 = places d 0 (Sql.operands pieces).length) :
    ofSql? d (Sql.statement d pieces).sql (Sql.statement d pieces).params = some r.1 := by
  simp [ofSql?, Sql.statement, hread, htokens, hplaces]

/-- What is compiled to insert a record is read as an insertion into its columns. -/
theorem ofSql?_insert (d : Dialect) (table : String) (record : Keyed Value) :
    ofSql? d ((Command.insert table record).statement d).sql
      ((Command.insert table record).statement d).params = some (.insert table record.keys) := by
  have hparams : Sql.operands (Command.insertPieces table record) = record.values :=
    Command.operands_insertPieces
  have hlength : record.keys.length = record.values.length := by simp [Keyed.keys, Keyed.values]
  cases hentries : record.entries with
  | nil =>
    obtain rfl : record = .empty := congrArg Keyed.mk hentries
    exact ofSql?_statement (r := (.insert table [], [])) read_insert_default rfl rfl
  | cons e entries =>
    have hne : record.entries ≠ [] := by simp [hentries]
    have hkeys : record.keys ≠ [] := by simp [Keyed.keys, hentries]
    have hcount : record.keys.length = (places d 0 record.values.length).length := by simp [hlength]
    have htokens := ofInsert?_columns table hcount hkeys
    exact ofSql?_statement (read_insert record hne) htokens (by rw [hparams])

/-- What is compiled to update the rows with these columns is read as just that. -/
theorem ofSql?_update (d : Dialect) (table : String) {record : Keyed Value} (hne : record.entries ≠ [])
    (tests : List ((String × Operator) × Value)) :
    ofSql? d ((Command.update table record (tests.map condition)).statement d).sql
      ((Command.update table record (tests.map condition)).statement d).params =
        some (.update table record.keys (tests.map Prod.fst)) := by
  have hparams : Sql.operands (Command.updatePieces table record (tests.map condition)) =
      record.values ++ (tests.map condition).map Condition.operand := Command.operands_updatePieces
  have hkeys : record.keys.length = record.entries.length := by simp [Keyed.keys]
  have hvalues : record.values.length = record.entries.length := by simp [Keyed.values]
  have htests : (tests.map Prod.fst).length = tests.length := List.length_map ..
  have hsets : (record.keys.zip (places d 0 record.entries.length)).unzip =
      (record.keys, places d 0 record.entries.length) := by
    rw [← hkeys]
    exact unzip_zip_places record.keys 0
  have hconditions : ((tests.map Prod.fst).zip (places d record.entries.length tests.length)).unzip =
      (tests.map Prod.fst, places d record.entries.length tests.length) := by
    rw [← htests]
    exact unzip_zip_places (tests.map Prod.fst) _
  have hnonempty : record.keys.zip (places d 0 record.entries.length) ≠ [] := by
    intro hnil
    have hlength := congrArg List.length hnil
    rw [List.length_zip, hkeys, length_places, Nat.min_self] at hlength
    exact hne (List.eq_nil_of_length_eq_zero hlength)
  have htokens := ofUpdate?_sets table hnonempty
    ((tests.map Prod.fst).zip (places d record.entries.length tests.length))
  rw [hsets, hconditions] at htokens
  refine ofSql?_statement (read_update record hne tests) htokens ?_
  have hplaces := places_append d 0 record.entries.length tests.length
  rw [Nat.zero_add] at hplaces
  rw [hparams]
  simp [hplaces, hvalues]

/-- What is compiled to delete the rows with these columns is read as just that. -/
theorem ofSql?_delete (d : Dialect) (table : String) (tests : List ((String × Operator) × Value)) :
    ofSql? d ((Command.delete table (tests.map condition)).statement d).sql
      ((Command.delete table (tests.map condition)).statement d).params =
        some (.delete table (tests.map Prod.fst)) := by
  have hparams : Sql.operands (Command.deletePieces table (tests.map condition)) =
      (tests.map condition).map Condition.operand := Command.operands_deletePieces
  have htokens := congrArg (Option.map fun r => (Dml.delete table r.1, r.2))
    (ofWhere?_tests (d := d) table 0 tests)
  refine ofSql?_statement (read_delete tests) htokens ?_
  simp [hparams]

/-- What is compiled to select the rows with these columns is read as just that. -/
theorem ofSql?_select (d : Dialect) {s : Select} (hselection : s.selection = .all)
    (hloads : s.loads = []) (horder : s.order = []) (hlimit : s.limit = none)
    (hoffset : s.offset = none) {tests : List ((String × Operator) × Value)}
    (htests : s.conditions = tests.map condition) :
    ofSql? d ((Command.select s).statement d).sql ((Command.select s).statement d).params =
      some (.select s.table (tests.map Prod.fst)) := by
  have htokens : ofTokens? (.word "SELECT" :: .name s.table :: .symbol '.' :: .sign "*" ::
      .word "FROM" :: .name s.table :: clauseTokens [.word "WHERE"] (.word "AND")
        (((tests.map Prod.fst).zip (places d 0 tests.length)).map (testTokens s.table))) =
      some (.select s.table (tests.map Prod.fst), places d 0 tests.length) := by
    rw [ofTokens?, if_pos rfl, ofWhere?_tests]
    rfl
  refine ofSql?_statement (read_select hselection hloads horder hlimit hoffset htests) htokens ?_
  simp [s.operands_pieces, htests]

end Compiled

end Dml
end Relata
