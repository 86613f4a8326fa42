import Mathlib.Computability.Language
import Relata.Proofs.Layout

/-!
The statements of the two dialects as languages of tokens: what the grammar of each says of queries,
insertions, updates and deletions. Main statement: what is compiled under bare keys can be derived as a
statement of its dialect, but for queries of SQLite that have an offset and no limit; these cannot.
-/
namespace Relata

open Sql Query
open scoped Computability

namespace Grammar

variable {d : Dialect} {l m : Language Token} {ts us : List Token} {t : Token}

/-- These words, one behind the other. -/
def words (ws : List String) : Language Token := {ws.map Token.word}

def symbol (c : Char) : Language Token := {[.symbol c]}

def sign (s : String) : Language Token := {[.sign s]}

def name : Language Token := {ts | ∃ n, ts = [Token.name n]}

def number : Language Token := {ts | ∃ n, ts = [Token.word (Nat.repr n)]}

def opt (l : Language Token) : Language Token := 1 + l

/-- One or more, with commas between them. -/
def listOf (l : Language Token) : Language Token := l * (symbol ',' * l)∗

/-- The signs and words that compare two values. -/
def comparisons : List Token :=
  [.sign "=", .sign "<>", .sign ">", .sign "<", .sign ">=", .sign "<=", .word "LIKE"]

/-- Expressions. A row as a whole is a value in PostgreSQL only. -/
inductive Expr (d : Dialect) : List Token → Prop
  | column (table column : String) : Expr d [.name table, .symbol '.', .name column]
  | row (table : String) (h : d = .postgres) : Expr d [.name table, .symbol '.', .sign "*"]
  | parameter (i : Nat) : Expr d [.mark (d.placeholder i)]
  | literal (s : String) : Expr d [.literal s]
  | null : Expr d [.word "NULL"]
  | call {f : String} {args : List (List Token)} (hf : (Token.word f).isIdentifier = true)
    (h : ∀ ts ∈ args, Expr d ts) :
    Expr d ([.word f, .symbol '('] ++ (List.intercalate [.symbol ','] args ++ [.symbol ')']))
  | filtered {f : String} {args : List (List Token)} {ts : List Token}
    (hf : (Token.word f).isIdentifier = true) (h : ∀ ts ∈ args, Expr d ts) (hts : Expr d ts) :
    Expr d ([.word f, .symbol '('] ++ (List.intercalate [.symbol ','] args ++
      ([.symbol ')', .word "FILTER", .symbol '(', .word "WHERE"] ++ (ts ++ [.symbol ')']))))
  | choice {cs ts us : List Token} (hcs : Expr d cs) (hts : Expr d ts) (hus : Expr d us) :
    Expr d ([.word "CASE", .word "WHEN"] ++ (cs ++ ([.word "THEN"] ++ (ts ++
      ([.word "ELSE"] ++ (us ++ [.word "END"]))))))
  | isNull {ts : List Token} (hts : Expr d ts) : Expr d (ts ++ [.word "IS", .word "NULL"])
  | isNotNull {ts : List Token} (hts : Expr d ts) :
    Expr d (ts ++ [.word "IS", .word "NOT", .word "NULL"])
  | compare {ts us : List Token} {t : Token} (ht : t ∈ comparisons) (hts : Expr d ts)
    (hus : Expr d us) : Expr d (ts ++ ([t] ++ us))
  | and {ts us : List Token} (hts : Expr d ts) (hus : Expr d us) :
    Expr d (ts ++ ([.word "AND"] ++ us))

def expr (d : Dialect) : Language Token := {ts | Expr d ts}

/-- Every column of a table, or an expression that may be given a name. -/
def item (d : Dialect) : Language Token :=
  name * (symbol '.' * sign "*") + expr d * opt (words ["AS"] * name)

def join (d : Dialect) : Language Token :=
  words ["LEFT", "JOIN"] * (name * (words ["ON"] * expr d))

def filter (d : Dialect) : Language Token := opt (words ["WHERE"] * expr d)

def grouping (d : Dialect) : Language Token := opt (words ["GROUP", "BY"] * listOf (expr d))

def ordering (d : Dialect) : Language Token :=
  opt (words ["ORDER", "BY"] * listOf (expr d * opt (words ["ASC"] + words ["DESC"])))

def limit : Language Token := words ["LIMIT"] * number

def offset : Language Token := words ["OFFSET"] * number

/-- In SQLite an offset is a part of a limit; in PostgreSQL it may stand alone. -/
def bounds : Dialect → Language Token
  | .sqlite => opt (limit * opt offset)
  | .postgres => opt limit * opt offset

/-- A query up to its bounds. -/
def body (d : Dialect) : Language Token :=
  words ["SELECT"] * (listOf (item d) * (words ["FROM"] * (name * ((join d)∗ *
    (filter d * (grouping d * ordering d))))))

def returning : Language Token := opt (words ["RETURNING"] * sign "*")

/-- Columns and values for them, or the defaults alone. -/
def inserted (d : Dialect) : Language Token :=
  symbol '(' * (listOf name * (symbol ')' * (words ["VALUES"] *
    (symbol '(' * (listOf (expr d) * symbol ')'))))) + words ["DEFAULT", "VALUES"]

/-- The statements of each operation. -/
def statement (d : Dialect) : Operation → Language Token
  | .select => body d * bounds d
  | .insert => words ["INSERT", "INTO"] * (name * (inserted d * returning))
  | .update => words ["UPDATE"] * (name * (words ["SET"] *
      (listOf (name * (sign "=" * expr d)) * (filter d * returning))))
  | .delete => words ["DELETE", "FROM"] * (name * (filter d * returning))

/-! What can be derived. -/

theorem mem_name (n : String) : [Token.name n] ∈ name := ⟨n, rfl⟩

theorem mem_opt (h : ts ∈ l) : ts ∈ opt l := (Language.mem_add _ _ _).mpr (.inr h)

theorem nil_mem_opt : [] ∈ opt l := (Language.mem_add _ _ _).mpr (.inl Language.nil_mem_one)

theorem words_mem_mul (ws : List String) (h : ts ∈ l) : ws.map Token.word ++ ts ∈ words ws * l :=
  Language.append_mem_mul rfl h

theorem name_mem_mul (n : String) (h : ts ∈ l) : .name n :: ts ∈ name * l :=
  Language.append_mem_mul (mem_name n) h

theorem intercalate_eq_flatten (sep : Token) (p : List Token) (parts : List (List Token)) :
    List.intercalate [sep] (p :: parts) = p ++ (parts.map ([sep] ++ ·)).flatten := by
  induction parts generalizing p with
  | nil => simp
  | cons q parts ih =>
    rw [List.intercalate_cons_cons, ih]
    simp

theorem mem_listOf {parts : List (List Token)} (h : ∀ p ∈ parts, p ∈ l) (hne : parts ≠ []) :
    List.intercalate [.symbol ','] parts ∈ listOf l := by
  obtain ⟨p, parts, rfl⟩ := List.exists_cons_of_ne_nil hne
  obtain ⟨hp, hparts⟩ := List.forall_mem_cons.mp h
  rw [intercalate_eq_flatten]
  refine Language.append_mem_mul hp (Language.join_mem_kstar (List.forall_mem_map.mpr fun q hq => ?_))
  exact Language.append_mem_mul rfl (hparts q hq)

/-- A clause that lists what may stand in it, or is left out. -/
theorem mem_clause (ws : List String) {parts : List (List Token)} (h : ∀ p ∈ parts, p ∈ l) :
    clauseTokens (ws.map Token.word) (.symbol ',') parts ∈ opt (words ws * listOf l) := by
  cases parts with
  | nil => exact nil_mem_opt
  | cons p parts => exact mem_opt (words_mem_mul ws (mem_listOf h (List.cons_ne_nil p parts)))

theorem Expr.all {p : List Token} {parts : List (List Token)} (h : ∀ q ∈ p :: parts, Expr d q) :
    Expr d (List.intercalate [.word "AND"] (p :: parts)) := by
  induction parts generalizing p with
  | nil => simpa using h
  | cons q parts ih =>
    obtain ⟨hp, hparts⟩ := List.forall_mem_cons.mp h
    have hall := hp.and (ih hparts)
    rwa [← List.append_assoc, ← List.intercalate_cons_cons] at hall

theorem mem_filter {parts : List (List Token)} (h : ∀ p ∈ parts, Expr d p) :
    clauseTokens [.word "WHERE"] (.word "AND") parts ∈ filter d := by
  cases parts with
  | nil => exact nil_mem_opt
  | cons p parts => exact mem_opt (words_mem_mul ["WHERE"] (Expr.all h))

theorem operator_mem (op : Operator) : op.token ∈ comparisons := by cases op <;> decide

theorem Expr.test (table : String) {e : (String × Operator) × String} {i : Nat}
    (he : e.2 = d.placeholder i) : Expr d (Dml.testTokens table e) := by
  have hall := (Expr.column (d := d) table e.1.1).compare (operator_mem e.1.2) (.parameter i)
  rwa [← he] at hall

theorem expr_tests (table : String) (tests : List (String × Operator)) (used n : Nat) :
    ∀ p ∈ (tests.zip (Dml.places d used n)).map (Dml.testTokens table), Expr d p := by
  refine List.forall_mem_map.mpr fun e he => ?_
  obtain ⟨i, -, hi⟩ := List.mem_map.mp (List.of_mem_zip he).2
  exact .test table hi.symm

/-- The columns of a target are the arguments of the document, each behind its name. -/
theorem intercalate_fieldTokens (load : Load) (fields : List String) :
    List.intercalate [.symbol ','] (fields.map load.fieldTokens) =
      List.intercalate [.symbol ','] (fields.flatMap fun f =>
        [[Token.literal f], columnTokens load.relation.target f]) := by
  induction fields with
  | nil => rfl
  | cons f fields ih =>
    cases fields with
    | nil => simp [Load.fieldTokens, List.intercalate_cons_cons]
    | cons g fields =>
      simp only [List.map_cons, List.flatMap_cons, List.cons_append, List.nil_append,
        List.intercalate_cons_cons] at ih ⊢
      rw [ih]
      simp [Load.fieldTokens]

theorem Expr.object (load : Load) : Expr d (load.objectTokens d) := by
  cases d with
  | postgres => exact .row _ rfl
  | sqlite =>
    have hargs : ∀ ts ∈ load.fields.flatMap fun f =>
        [[Token.literal f], columnTokens load.relation.target f], Expr .sqlite ts := by
      intro ts hts
      obtain ⟨f, -, hf⟩ := List.mem_flatMap.mp hts
      simp only [List.mem_cons, List.not_mem_nil, or_false] at hf
      rcases hf with rfl | rfl
      · exact .literal f
      · exact .column _ f
    rw [Load.objectTokens, intercalate_fieldTokens]
    exact .call (by decide) hargs

theorem Expr.value (load : Load) : Expr d (load.valueTokens d) := by
  have hobject (d : Dialect) : Expr d (load.objectTokens d) := .object load
  have hcolumn (d : Dialect) (c : String) : Expr d (columnTokens load.relation.target c) :=
    .column _ c
  unfold Load.valueTokens
  cases load.relation.kind with
  | belongsTo =>
    cases d with
    | postgres =>
      have hall := Expr.call (d := .postgres) (f := "to_json") (by decide)
        (List.forall_mem_singleton.mpr (hobject .postgres))
      rwa [List.intercalate_singleton] at hall
    | sqlite =>
      have hall := (hcolumn .sqlite load.relation.key).isNull.choice .null (hobject .sqlite)
      simpa using hall
  | hasMany =>
    have haggregate : (Token.word (Load.aggregate d)).isIdentifier = true := by cases d <;> decide
    have hrows := Expr.filtered haggregate (List.forall_mem_singleton.mpr (hobject d))
      (hcolumn d load.relation.foreignKey).isNotNull
    have hall := Expr.call (f := "COALESCE") (by decide)
      (List.forall_mem_cons.mpr ⟨hrows, List.forall_mem_singleton.mpr (.literal "[]")⟩)
    simpa [List.intercalate_cons_cons] using hall

theorem mem_item (load : Load) : load.itemTokens d ∈ item d :=
  (Language.mem_add _ _ _).mpr
    (.inr (Language.append_mem_mul (Expr.value load) (mem_opt (words_mem_mul ["AS"] (mem_name _)))))

theorem mem_join (table : String) (load : Load) : load.joinTokens table ∈ join d := by
  have hon : Expr d (columnTokens table load.joinKeys.1 ++
      ([.sign "="] ++ columnTokens load.relation.target load.joinKeys.2)) :=
    (Expr.column _ _).compare (by decide) (.column _ _)
  exact words_mem_mul ["LEFT", "JOIN"] (name_mem_mul _ (words_mem_mul ["ON"] hon))

theorem mem_count (word : String) (n : Option Nat) : countTokens word n ∈ opt (words [word] * number) := by
  cases n with
  | none => exact nil_mem_opt
  | some n => exact mem_opt (words_mem_mul [word] ⟨n, rfl⟩)

theorem mem_bounds {s : Select} (h : d = .sqlite → s.offset.isSome → s.limit.isSome) :
    s.boundTokens ∈ bounds d := by
  have hoffset : countTokens "OFFSET" s.offset ∈ opt offset := mem_count "OFFSET" s.offset
  unfold Select.boundTokens
  cases d with
  | postgres => exact Language.append_mem_mul (mem_count "LIMIT" s.limit) hoffset
  | sqlite =>
    cases hlimit : s.limit with
    | some n =>
      have hbound : countTokens "LIMIT" (some n) ∈ limit := words_mem_mul ["LIMIT"] ⟨n, rfl⟩
      exact mem_opt (Language.append_mem_mul hbound hoffset)
    | none =>
      have hnone : s.offset = none := by
        by_contra hsome
        simpa [hlimit] using h rfl (Option.isSome_iff_ne_none.mpr hsome)
      rw [hnone]
      exact nil_mem_opt

theorem mem_items (s : Select) : List.intercalate [.symbol ',']
    ([.name s.table, .symbol '.', .sign "*"] :: s.loads.map fun l => l.itemTokens d) ∈
      listOf (item d) := by
  refine mem_listOf (List.forall_mem_cons.mpr ⟨?_, List.forall_mem_map.mpr fun l _ => mem_item l⟩)
    (List.cons_ne_nil _ _)
  exact (Language.mem_add _ _ _).mpr (.inl (name_mem_mul s.table
    (Language.append_mem_mul (a := [Token.symbol '.']) (b := [Token.sign "*"]) rfl rfl)))

theorem mem_keys (s : Select) (order : List (String × Direction)) :
    s.keyTokens order ∈ grouping d * ordering d := by
  have hdirection (dir : Direction) : [Token.word dir.sql] ∈ words ["ASC"] + words ["DESC"] := by
    cases dir
    · exact (Language.mem_add _ _ _).mpr (.inl rfl)
    · exact (Language.mem_add _ _ _).mpr (.inr rfl)
  have hgroups : ∀ p ∈ s.groupKeys.map fun k => columnTokens k.1 k.2, p ∈ expr d :=
    List.forall_mem_map.mpr fun k _ => Expr.column k.1 k.2
  have horder : ∀ p ∈ order.map (Select.orderTokens s.table),
      p ∈ expr d * opt (words ["ASC"] + words ["DESC"]) :=
    List.forall_mem_map.mpr fun o _ =>
      Language.append_mem_mul (Expr.column s.table o.1) (mem_opt (hdirection o.2))
  exact Language.append_mem_mul (mem_clause ["GROUP", "BY"] hgroups) (mem_clause ["ORDER", "BY"] horder)

theorem mem_body (s : Select) (tests : List (String × Operator)) (order : List (String × Direction)) :
    s.bodyTokens d tests order ∈ body d := by
  have hjoins : (s.loads.flatMap fun l => l.joinTokens s.table) ∈ (join d)∗ := by
    rw [List.flatMap_def]
    exact Language.join_mem_kstar (List.forall_mem_map.mpr fun l _ => mem_join s.table l)
  exact words_mem_mul ["SELECT"] (Language.append_mem_mul (mem_items s)
    (words_mem_mul ["FROM"] (name_mem_mul s.table (Language.append_mem_mul hjoins
      (Language.append_mem_mul (mem_filter (expr_tests s.table tests 0 tests.length))
        (mem_keys s order))))))

theorem mem_returning : [Token.word "RETURNING", .sign "*"] ∈ returning :=
  mem_opt (words_mem_mul ["RETURNING"] rfl)

theorem mem_insert_default (table : String) :
    [.word "INSERT", .word "INTO", .name table, .word "DEFAULT", .word "VALUES", .word "RETURNING",
      .sign "*"] ∈ statement d .insert := by
  have hdefault : [Token.word "DEFAULT", .word "VALUES"] ∈ inserted d :=
    (Language.mem_add _ _ _).mpr (.inr rfl)
  exact words_mem_mul ["INSERT", "INTO"]
    (name_mem_mul table (Language.append_mem_mul hdefault mem_returning))

theorem mem_insert (table : String) {columns : List String} (hne : columns ≠ []) {n : Nat}
    (hn : n ≠ 0) : .word "INSERT" :: .word "INTO" :: .name table ::
        .symbol '(' :: (List.intercalate [.symbol ','] (columns.map Dml.nameTokens) ++
          .symbol ')' :: (.word "VALUES" :: .symbol '(' ::
            List.intercalate [.symbol ','] ((Dml.places d 0 n).map Dml.markTokens) ++
              .symbol ')' :: [.word "RETURNING", .sign "*"])) ∈ statement d .insert := by
  have hcolumns := mem_listOf (l := name)
    (List.forall_mem_map.mpr fun c (_ : c ∈ columns) => mem_name c) (by simpa using hne)
  have hplaces : (Dml.places d 0 n).map Dml.markTokens ≠ [] := by
    simpa [Dml.places] using hn
  have hmarks : ∀ p ∈ (Dml.places d 0 n).map Dml.markTokens, p ∈ expr d := by
    refine List.forall_mem_map.mpr fun p hp => ?_
    obtain ⟨i, -, rfl⟩ := List.mem_map.mp hp
    exact Expr.parameter i
  have hvalues := mem_listOf hmarks hplaces
  have hclose : [Token.symbol ')'] ∈ symbol ')' := rfl
  have hopen : [Token.symbol '('] ∈ symbol '(' := rfl
  have hinserted := (Language.mem_add _ (words ["DEFAULT", "VALUES"]) _).mpr (.inl
    (Language.append_mem_mul hopen (Language.append_mem_mul hcolumns (Language.append_mem_mul hclose
      (words_mem_mul ["VALUES"] (Language.append_mem_mul hopen
        (Language.append_mem_mul hvalues hclose)))))))
  have hall := words_mem_mul ["INSERT", "INTO"]
    (name_mem_mul table (Language.append_mem_mul hinserted mem_returning))
  simp only [List.map_cons, List.map_nil, List.cons_append, List.nil_append, List.append_assoc]
    at hall ⊢
  exact hall

theorem mem_update (table : String) {sets : List (String × String)} (hne : sets ≠ [])
    (hsets : ∀ e ∈ sets, ∃ i, e.2 = d.placeholder i) {tests : List (List Token)}
    (htests : ∀ p ∈ tests, Expr d p) : .word "UPDATE" :: .name table :: .word "SET" ::
        (List.intercalate [.symbol ','] (sets.map Dml.assignmentTokens) ++
          clauseTokens [.word "WHERE"] (.word "AND") tests ++
          .word "RETURNING" :: [.sign "*"]) ∈ statement d .update := by
  have hassignments : ∀ p ∈ sets.map Dml.assignmentTokens, p ∈ name * (sign "=" * expr d) := by
    refine List.forall_mem_map.mpr fun e he => ?_
    obtain ⟨i, hi⟩ := hsets e he
    have hvalue : [Token.mark e.2] ∈ expr d := hi ▸ Expr.parameter i
    exact name_mem_mul e.1 (Language.append_mem_mul (a := [Token.sign "="]) rfl hvalue)
  have hall := words_mem_mul ["UPDATE"] (name_mem_mul table (words_mem_mul ["SET"]
    (Language.append_mem_mul (mem_listOf hassignments (by simpa using hne))
      (Language.append_mem_mul (mem_filter htests) mem_returning))))
  rw [List.append_assoc]
  exact hall

theorem mem_delete (table : String) {tests : List (List Token)} (htests : ∀ p ∈ tests, Expr d p) :
    .word "DELETE" :: .word "FROM" :: .name table ::
      clauseTokens [.word "WHERE"] (.word "AND") tests ∈ statement d .delete := by
  have hall := words_mem_mul ["DELETE", "FROM"] (name_mem_mul table
    (Language.append_mem_mul (mem_filter htests) (nil_mem_opt (l := words ["RETURNING"] * sign "*"))))
  rw [List.append_nil] at hall
  exact hall

/-! What cannot. -/

/-- The token stands nowhere in the language. -/
def Avoids (t : Token) (l : Language Token) : Prop := ∀ ts ∈ l, t ∉ ts

namespace Avoids

theorem mul (hl : Avoids t l) (hm : Avoids t m) : Avoids t (l * m) := by
  rintro _ ⟨a, ha, b, hb, rfl⟩
  exact List.not_mem_append (hl a ha) (hm b hb)

theorem add (hl : Avoids t l) (hm : Avoids t m) : Avoids t (l + m) := fun ts hts =>
  ((Language.mem_add _ _ _).mp hts).elim (hl ts) (hm ts)

theorem opt (hl : Avoids t l) : Avoids t (opt l) :=
  add (fun _ hts => (Language.mem_one _).mp hts ▸ List.not_mem_nil) hl

theorem kstar (hl : Avoids t l) : Avoids t l∗ := by
  rintro _ ⟨parts, rfl, hparts⟩ hmem
  obtain ⟨p, hp, ht⟩ := List.mem_flatten.mp hmem
  exact hl p (hparts p hp) ht

theorem tokens (h : t ∉ ts) : Avoids t {ts} := fun _ hts => (Set.mem_singleton_iff.mp hts) ▸ h

theorem listOf (ht : t ≠ .symbol ',') (hl : Avoids t l) : Avoids t (listOf l) :=
  mul hl (kstar (mul (tokens (by simpa using ht)) hl))

end Avoids

/-- The words that the tables of a query stand behind. -/
def sourceWords : List String := ["FROM", "JOIN"]

/-- The words that bounds begin with. -/
def boundWords : List String := ["LIMIT", "OFFSET"]

def clauseWords : List String := sourceWords ++ boundWords

theorem avoids_name (w : String) : Avoids (.word w) name := by
  rintro _ ⟨n, rfl⟩
  simp

theorem avoids_symbol (w : String) (c : Char) : Avoids (.word w) (symbol c) := .tokens (by simp)

theorem avoids_sign (w s : String) : Avoids (.word w) (sign s) := .tokens (by simp)

section Clauses

variable {w : String} (hw : w ∈ clauseWords)

include hw

theorem avoids_words {ws : List String} (h : ∀ w ∈ clauseWords, w ∉ ws) :
    Avoids (.word w) (words ws) := .tokens (by simpa using h w hw)

theorem avoids_number : Avoids (.word w) number := by
  rintro _ ⟨n, rfl⟩ hmem
  obtain rfl : w = Nat.repr n := by simpa using hmem
  have hletters : ∀ w ∈ clauseWords, w.toList.all Char.isDigit = false := by decide
  have hdigits : (Nat.repr n).toList.all Char.isDigit = true := List.all_eq_true.mpr (digits_repr n)
  rw [hletters _ hw] at hdigits
  cases hdigits

/-- No expression has a word in it that a clause begins with. -/
theorem Expr.avoids (h : Expr d ts) : Token.word w ∉ ts := by
  have hfixed {us : List Token} (hus : ∀ w ∈ clauseWords, Token.word w ∉ us) : Token.word w ∉ us :=
    hus w hw
  have hfunction {f : String} (hf : (Token.word f).isIdentifier = true) :
      Token.word w ∉ [Token.word f, .symbol '('] := by
    have hreserved : ∀ w ∈ clauseWords, (Token.word w).isIdentifier = false := by decide
    have hne : w ≠ f := by
      rintro rfl
      rw [hreserved w hw] at hf
      cases hf
    simpa using hne
  have hargs {args : List (List Token)} (hargs : ∀ ts ∈ args, Token.word w ∉ ts) :
      Token.word w ∉ List.intercalate [.symbol ','] args := Dml.not_mem_intercalate (by simp) hargs
  induction h with
  | column | row | parameter | literal => simp
  | null => exact hfixed (by decide)
  | call hf _ ih => exact List.not_mem_append (hfunction hf) (List.not_mem_append (hargs ih) (by simp))
  | filtered hf _ _ ih ihc =>
    exact List.not_mem_append (hfunction hf) (List.not_mem_append (hargs ih)
      (List.not_mem_append (hfixed (by decide)) (List.not_mem_append ihc (by simp))))
  | choice _ _ _ ihc iht ihe =>
    exact List.not_mem_append (hfixed (by decide)) (List.not_mem_append ihc
      (List.not_mem_append (hfixed (by decide)) (List.not_mem_append iht
        (List.not_mem_append (hfixed (by decide)) (List.not_mem_append ihe (hfixed (by decide)))))))
  | isNull _ ih | isNotNull _ ih => exact List.not_mem_append ih (hfixed (by decide))
  | compare ht _ _ iht ihu =>
    have hsign : ∀ w ∈ clauseWords, ∀ t ∈ comparisons, Token.word w ∉ [t] := by decide
    exact List.not_mem_append iht (List.not_mem_append (hsign w hw _ ht) ihu)
  | and _ _ iht ihu => exact List.not_mem_append iht (List.not_mem_append (hfixed (by decide)) ihu)

theorem avoids_expr : Avoids (.word w) (expr d) := fun _ hts => hts.avoids hw

theorem avoids_item : Avoids (.word w) (item d) :=
  ((avoids_name w).mul ((avoids_symbol w '.').mul (avoids_sign w "*"))).add
    ((avoids_expr hw).mul ((avoids_words hw (by decide)).mul (avoids_name w)).opt)

theorem avoids_filter : Avoids (.word w) (filter d) :=
  ((avoids_words hw (by decide)).mul (avoids_expr hw)).opt

theorem avoids_keys : Avoids (.word w) (grouping d * ordering d) :=
  .mul ((avoids_words hw (by decide)).mul ((avoids_expr hw).listOf (by simp))).opt
    ((avoids_words hw (by decide)).mul (((avoids_expr hw).mul
      ((avoids_words hw (by decide)).add (avoids_words hw (by decide))).opt).listOf (by simp))).opt

end Clauses

section Bounds

variable {w : String} (hw : w ∈ boundWords)

include hw

theorem avoids_body : Avoids (.word w) (body d) := by
  have hclause : w ∈ clauseWords := List.mem_append_right _ hw
  have hfixed {ws : List String} (h : ∀ w ∈ boundWords, w ∉ ws) : Avoids (.word w) (words ws) :=
    .tokens (by simpa using h w hw)
  have hjoin : Avoids (.word w) (join d) :=
    (hfixed (by decide)).mul ((avoids_name w).mul ((hfixed (by decide)).mul (avoids_expr hclause)))
  exact (hfixed (by decide)).mul (((avoids_item hclause).listOf (by simp)).mul
    ((hfixed (by decide)).mul ((avoids_name w).mul (hjoin.kstar.mul
      ((avoids_filter hclause).mul (avoids_keys hclause))))))

theorem avoids_statement {op : Operation} (hop : op ≠ .select) :
    Avoids (.word w) (statement d op) := by
  have hclause : w ∈ clauseWords := List.mem_append_right _ hw
  have hfixed {ws : List String} (h : ∀ w ∈ boundWords, w ∉ ws) : Avoids (.word w) (words ws) :=
    .tokens (by simpa using h w hw)
  have hname := avoids_name w
  have hexpr := avoids_expr (d := d) hclause
  have hsymbol := avoids_symbol w
  have hfilter := avoids_filter (d := d) hclause
  have hreturning : Avoids (.word w) returning := ((hfixed (by decide)).mul (avoids_sign w "*")).opt
  cases op with
  | select => exact absurd rfl hop
  | insert =>
    have hinserted : Avoids (.word w) (inserted d) :=
      ((hsymbol _).mul ((hname.listOf (by simp)).mul ((hsymbol _).mul ((hfixed (by decide)).mul
        ((hsymbol _).mul ((hexpr.listOf (by simp)).mul (hsymbol _))))))).add (hfixed (by decide))
    exact (hfixed (by decide)).mul (hname.mul (hinserted.mul hreturning))
  | update =>
    have hset : Avoids (.word w) (listOf (name * (sign "=" * expr d))) :=
      (hname.mul ((avoids_sign w "=").mul hexpr)).listOf (by simp)
    exact (hfixed (by decide)).mul (hname.mul ((hfixed (by decide)).mul
      (hset.mul (hfilter.mul hreturning))))
  | delete => exact (hfixed (by decide)).mul (hname.mul (hfilter.mul hreturning))

end Bounds

/-- In SQLite a query with an offset and no limit is no statement at all. -/
theorem not_mem_statement {ts : List Token} (hts : ts ∈ body .sqlite) (n : Nat) (op : Operation) :
    ts ++ [.word "OFFSET", .word (Nat.repr n)] ∉ statement .sqlite op := by
  have hoffset : Token.word "OFFSET" ∈ ts ++ [.word "OFFSET", .word (Nat.repr n)] := by simp
  have hlimit : Token.word "LIMIT" ∉ ts ++ [.word "OFFSET", .word (Nat.repr n)] := by
    have hbody := avoids_body (w := "LIMIT") (by decide) ts hts
    have hnumber := avoids_number (w := "LIMIT") (by decide) _ ⟨n, rfl⟩
    exact List.not_mem_append hbody (List.not_mem_cons_of_ne_of_not_mem (by decide) hnumber)
  by_cases hop : op = .select
  · subst hop
    intro hmem
    obtain ⟨front, hfront, bound, hbound, heq⟩ := Language.mem_mul.mp hmem
    rcases (Language.mem_add _ _ _).mp hbound with hnone | ⟨first, hfirst, rest, -, rfl⟩
    · -- nothing but the query up to its bounds has been read, and it has no offset
      obtain rfl := (Language.mem_one _).mp hnone
      rw [List.append_nil] at heq
      exact avoids_body (w := "OFFSET") (by decide) front hfront (heq ▸ hoffset)
    · obtain ⟨_, hword, _, -, rfl⟩ := hfirst
      obtain rfl := Set.mem_singleton_iff.mp hword
      exact hlimit (heq ▸ by simp)
  · exact fun hmem => avoids_statement (w := "OFFSET") (by decide) hop _ hmem hoffset

end Grammar

open Grammar

namespace QueryBuilder

variable {t : Table} {A : String → Prop} {d : Dialect} {b b' : QueryBuilder} {s : BuildStep}
  {steps : List BuildStep} {stmt : Statement}

/-- Only steps that say so bound a query. -/
theorem apply_bounds (he : s.apply b = .ok b') :
    (b'.limit.isSome ↔ b.limit.isSome ∨ ∃ n, s = .limit n) ∧
      (b'.offset.isSome ↔ b.offset.isSome ∨ ∃ n, s = .offset n) := by
  have hwrites := apply_writes he
  cases s with
  | limit n =>
    cases he
    simp [limitTo]
  | offset n =>
    cases he
    simp [startAt]
  | _ =>
    rw [hwrites]
    simp [BuildStep.kind, BuildStep.Kind.part, withPart]

theorem applyAll_bounds (he : BuildStep.applyAll b steps = .ok b') :
    (b'.limit.isSome ↔ b.limit.isSome ∨ ∃ n, .limit n ∈ steps) ∧
      (b'.offset.isSome ↔ b.offset.isSome ∨ ∃ n, .offset n ∈ steps) := by
  induction steps generalizing b with
  | nil =>
    cases he
    simp
  | cons s steps ih =>
    rw [BuildStep.applyAll] at he
    split at he
    next b₁ hb₁ =>
      obtain ⟨hlimit, hoffset⟩ := apply_bounds hb₁
      obtain ⟨hlimits, hoffsets⟩ := ih he
      rw [hlimits, hoffsets, hlimit, hoffset]
      simp only [List.mem_cons, exists_or, or_assoc, eq_comm, and_self]
    next => cases he

/-- A compiled statement that is no query is a statement of its dialect. -/
theorem mem_statement (h : b.Within A d) (hc : b.compile = .ok stmt) (hop : b.operation ≠ .select) :
    ∃ ts, read stmt.sql.toList = some ts ∧ ts ∈ Grammar.statement d b.operation := by
  obtain ⟨c, hcommand, hsql⟩ := exists_command hc
  obtain ⟨tests, htests⟩ := exists_tests h.conditions
  have hexprs (used : Nat) : ∀ p ∈ ((tests.map Prod.fst).zip (Dml.places d used tests.length)).map
      (Dml.testTokens b.table.name), Expr d p := expr_tests b.table.name _ used _
  rw [hsql, h.dialect]
  unfold command at hcommand
  cases hb : b.operation with
  | select => exact absurd hb hop
  | insert =>
    simp only [hb, Except.ok.injEq] at hcommand
    subst hcommand
    rcases eq_or_ne b.record.entries [] with hempty | hne
    · have hrecord : b.record = .empty := congrArg Keyed.mk hempty
      rw [hrecord]
      exact ⟨_, Dml.read_insert_default, mem_insert_default b.table.name⟩
    · exact ⟨_, Dml.read_insert b.record hne, mem_insert b.table.name (by simpa [Keyed.keys] using hne)
        (by simpa [Keyed.values] using hne)⟩
  | update =>
    simp only [hb] at hcommand
    split at hcommand
    · cases hcommand
    next hsome =>
      cases hcommand
      have hne : b.record.entries ≠ [] := by simpa [Keyed.isEmpty] using hsome
      have hsets : b.record.keys.zip (Dml.places d 0 b.record.entries.length) ≠ [] := by
        simpa [Keyed.keys, Dml.places] using hne
      rw [← htests]
      refine ⟨_, Dml.read_update b.record hne tests, mem_update b.table.name hsets (fun e he => ?_)
        (hexprs _)⟩
      obtain ⟨i, -, hi⟩ := List.mem_map.mp (List.of_mem_zip he).2
      exact ⟨i, hi.symm⟩
  | delete =>
    simp only [hb, Except.ok.injEq] at hcommand
    subst hcommand
    rw [← htests]
    exact ⟨_, Dml.read_delete tests, mem_delete b.table.name (hexprs 0)⟩

/-- What is compiled under bare keys can be derived as a statement of its dialect, unless it is a query
of SQLite that was given an offset and no limit; such a text is no statement of any kind. -/
theorem compile_derivable (hs : ∀ s ∈ steps, s.IsBare)
    (hb : BuildStep.applyAll (ofTable t d) steps = .ok b) (hc : b.compile = .ok stmt) :
    let unlimited := d = .sqlite ∧ BuildStep.operation steps = .select ∧
      (∃ n, .offset n ∈ steps) ∧ ∀ n, .limit n ∉ steps
    ∃ ts, read stmt.sql.toList = some ts ∧
      (¬ unlimited → ts ∈ Grammar.statement d (BuildStep.operation steps)) ∧
      (unlimited → ∀ op, ts ∉ Grammar.statement d op) := by
  intro unlimited
  have hwithin : b.Within (fun _ => True) d :=
    applyAll_within (ofTable_within fun _ _ => trivial) hs (fun _ _ => trivial) hb
  have hfollows : b.Follows t d steps := applyAll_follows (ofTable_follows t d) hb
  obtain ⟨hlimit, hoffset⟩ := applyAll_bounds hb
  simp only [ofTable, Option.isSome_none, Bool.false_eq_true, false_or] at hlimit hoffset
  by_cases hselect : b.operation = .select
  · obtain ⟨tests, order, hread⟩ := read_query hwithin hselect hc
    have hbody := mem_body (d := d) b.toSelect tests order
    refine ⟨_, hread, fun hbounded => ?_, fun hunlimited op => ?_⟩
    · rw [← hfollows.operation, hselect]
      refine Language.append_mem_mul hbody (mem_bounds fun hd hoffset' => ?_)
      by_contra hnone
      refine hbounded ⟨hd, hfollows.operation ▸ hselect, hoffset.mp hoffset', fun n hn => ?_⟩
      exact hnone (hlimit.mpr ⟨n, hn⟩)
    · obtain ⟨rfl, -, hsome, hnone⟩ := hunlimited
      obtain ⟨n, hn⟩ := Option.isSome_iff_exists.mp (hoffset.mpr hsome)
      have hlimit' : b.limit = none := by
        by_contra hsome
        obtain ⟨n, hn⟩ := hlimit.mp (Option.isSome_iff_ne_none.mpr hsome)
        exact hnone n hn
      have hbound : b.toSelect.boundTokens = [.word "OFFSET", .word (Nat.repr n)] := by
        simp [Select.boundTokens, toSelect, hn, hlimit', countTokens]
      rw [Select.tokens, hbound]
      exact not_mem_statement hbody n op
  · obtain ⟨ts, hread, hmem⟩ := mem_statement hwithin hc hselect
    rw [← hfollows.operation]
    refine ⟨ts, hread, fun _ => hmem, fun hunlimited => ?_⟩
    exact absurd (hfollows.operation.trans hunlimited.2.1) hselect

def accounts : Table := (Table.ofName "users").column "id" (Column.ofType .integer).primaryKey

/-- An offset with its limit. -/
theorem compile_derivable_accounts :
    let steps : List BuildStep := [.offset 1, .compare "id" .gt (.int 1), .orderBy "id" .descending,
      .limit 2]
    ∃ b stmt ts, (∀ s ∈ steps, s.IsBare) ∧ BuildStep.applyAll (ofTable accounts .sqlite) steps = .ok b ∧
      b.compile = .ok stmt ∧ read stmt.sql.toList = some ts ∧
      ts ∈ Grammar.statement .sqlite .select := by
  intro steps
  have hbare : ∀ s ∈ steps, s.IsBare := by
    simp only [steps, List.forall_mem_cons, BuildStep.IsBare, BuildStep.keys, BuildStep.selectsAll]
    decide
  let b : QueryBuilder := { ofTable accounts .sqlite with
    conditions := [⟨.own "id", .gt, .int 1⟩], order := [(.own "id", .descending)],
    limit := some 2, offset := some 1 }
  have hb : BuildStep.applyAll (ofTable accounts .sqlite) steps = .ok b := rfl
  have hc : b.compile = .ok ((Command.select b.toSelect).statement .sqlite) := rfl
  obtain ⟨ts, hread, hmem, -⟩ := compile_derivable hbare hb hc
  exact ⟨b, _, ts, hbare, hb, hc, hread, hmem fun h => h.2.2.2 2 (by simp [steps])⟩

/-- An offset alone. -/
theorem offset_underivable : ∃ b stmt ts,
    BuildStep.applyAll (ofTable accounts .sqlite) [.offset 1] = .ok b ∧ b.compile = .ok stmt ∧
      stmt.sql = "SELECT \"users\".* FROM \"users\" OFFSET 1" ∧ read stmt.sql.toList = some ts ∧
      ∀ op, ts ∉ Grammar.statement .sqlite op := by
  let b : QueryBuilder := { ofTable accounts .sqlite with offset := some 1 }
  have hread : read (render .sqlite 0 (b.toSelect.pieces .sqlite)) =
      some (b.toSelect.tokens .sqlite [] []) := Select.read_plain_pieces rfl rfl rfl
  refine ⟨b, (Command.select b.toSelect).statement .sqlite, b.toSelect.tokens .sqlite [] [], rfl, rfl,
    by decide +kernel, ?_, not_mem_statement (mem_body b.toSelect [] []) 1⟩
  rw [Command.statement, Sql.statement, String.toList_ofList]
  exact hread

end QueryBuilder
end Relata
