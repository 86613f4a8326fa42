import Relata.Proofs.Clauses
import Relata.Proofs.Scanning
import Relata.Sqlite.Plan

/-!
Statements by the words they begin with. Main statements: only a text that begins with the word of a
control statement is one; and a compiled statement is read as what its operation is.
-/
namespace Relata.Sqlite

theorem of_bind_ok {α β : Type} {x : Except Fault α} {f : α → Except Fault β} {b : β}
    (h : (x >>= f) = .ok b) : ∃ a, x = .ok a ∧ f a = .ok b := by
  cases x with
  | error e => cases h
  | ok a => exact ⟨a, rfl, h⟩

theorem of_bind_some {α β : Type} {x : Option α} {f : α → Option β} {b : β}
    (h : (x >>= f) = some b) : ∃ a, x = some a ∧ f a = some b :=
  Option.bind_eq_some_iff.mp h

/-- The statement begins or ends a transaction. -/
def Statement.isControl : Statement → Bool
  | .begin | .commit | .rollback => true
  | _ => false

namespace Parser

variable {t : Token} {rest ts left : Rest} {st : Statement}

/-- The readers of statements, each with the words before it. -/
def readers : List (List String × (Rest → Option (Statement × Rest))) :=
  [(["select"], select?), (["insert"], insert?), (["update"], update?), (["delete"], delete?),
    (["create", "table"], createTable?), (["alter", "table"], alterTable?),
    (["begin"], fun ts => some (.begin, control? (beginMode? ts))),
    (["commit"], fun ts => some (.commit, control? ts)),
    (["end"], fun ts => some (.commit, control? ts)),
    (["rollback"], fun ts => some (.rollback, control? ts))]

theorem statement?_eq (ts : Rest) :
    statement? ts = readers.findSome? fun r => (words? r.1 ts).bind r.2 := rfl

theorem word?_of_kind {w s : String} (h : t.kind = .word s) :
    word? w (t :: rest) = if Text.lowerAscii s = w then some rest else none := by
  simp [word?, h]

theorem word?_some {w : String} (h : word? w ts = some left) :
    ∃ t s, ts = t :: left ∧ t.kind = .word s ∧ Text.lowerAscii s = w := by
  unfold word? at h
  split at h
  next t rest =>
    split at h
    next s hs =>
      split at h
      next hw =>
        cases h
        exact ⟨t, s, rfl, hs, hw⟩
      next => cases h
    next => cases h
  next => cases h

section Results

theorem select?_some (h : select? ts = some (st, left)) : ∃ s, st = .select s := by
  obtain ⟨⟨columns, ts⟩, -, h⟩ := of_bind_some h
  obtain ⟨⟨source, ts⟩, -, h⟩ := of_bind_some h
  dsimp only at h
  split at h
  all_goals
    obtain ⟨⟨joins, ts⟩, -, h⟩ := of_bind_some h
    obtain ⟨⟨condition, ts⟩, -, h⟩ := of_bind_some h
    obtain ⟨⟨groupBy, ts⟩, -, h⟩ := of_bind_some h
    obtain ⟨⟨orderBy, ts⟩, -, h⟩ := of_bind_some h
    obtain ⟨⟨limit, ts⟩, -, h⟩ := of_bind_some h
    dsimp only at h
    split at h
    all_goals
      obtain ⟨⟨offset, ts⟩, -, h⟩ := of_bind_some h
      cases h
      exact ⟨_, rfl⟩

theorem insert?_some (h : insert? ts = some (st, left)) :
    ∃ conflict table columns rows returning, st = .insert conflict table columns rows returning := by
  obtain ⟨⟨conflict, ts'⟩, -, h⟩ := of_bind_some h
  obtain ⟨into, -, h⟩ := of_bind_some h
  obtain ⟨⟨table, ts⟩, -, h⟩ := of_bind_some h
  dsimp only at h
  split at h
  · obtain ⟨⟨returning, ts⟩, -, h⟩ := of_bind_some h
    cases h
    exact ⟨_, _, _, _, _, rfl⟩
  · split at h
    all_goals
      obtain ⟨⟨columns, ts⟩, -, h⟩ := of_bind_some h
      obtain ⟨ts, -, h⟩ := of_bind_some h
      obtain ⟨⟨rows, ts⟩, -, h⟩ := of_bind_some h
      obtain ⟨⟨returning, ts⟩, -, h⟩ := of_bind_some h
      cases h
      exact ⟨_, _, _, _, _, rfl⟩

theorem update?_some (h : update? ts = some (st, left)) :
    ∃ conflict table sets condition returning,
      st = .update conflict table sets condition returning := by
  obtain ⟨⟨conflict, ts'⟩, -, h⟩ := of_bind_some h
  obtain ⟨⟨table, ts⟩, -, h⟩ := of_bind_some h
  obtain ⟨ts, -, h⟩ := of_bind_some h
  obtain ⟨⟨sets, ts⟩, -, h⟩ := of_bind_some h
  obtain ⟨⟨condition, ts⟩, -, h⟩ := of_bind_some h
  obtain ⟨⟨returning, ts⟩, -, h⟩ := of_bind_some h
  cases h
  exact ⟨_, _, _, _, _, rfl⟩

theorem delete?_some (h : delete? ts = some (st, left)) :
    ∃ table condition returning, st = .delete table condition returning := by
  obtain ⟨from_, -, h⟩ := of_bind_some h
  obtain ⟨⟨table, ts⟩, -, h⟩ := of_bind_some h
  obtain ⟨⟨condition, ts⟩, -, h⟩ := of_bind_some h
  obtain ⟨⟨returning, ts⟩, -, h⟩ := of_bind_some h
  cases h
  exact ⟨_, _, _, rfl⟩

theorem createTable?_some (h : createTable? ts = some (st, left)) :
    ∃ ifNotExists name columns keys, st = .createTable ifNotExists name columns keys := by
  unfold createTable? at h
  dsimp only at h
  split at h
  all_goals
    obtain ⟨⟨name, ts⟩, -, h⟩ := of_bind_some h
    obtain ⟨⟨parts, ts⟩, -, h⟩ := of_bind_some h
    obtain ⟨⟨columns, keys⟩, -, h⟩ := of_bind_some h
    dsimp only at h
    split at h
    · cases h
    · cases h
      exact ⟨_, _, _, _, rfl⟩

theorem alterTable?_some (h : alterTable? ts = some (st, left)) :
    ∃ table column, st = .addColumn table column := by
  obtain ⟨⟨table, ts⟩, -, h⟩ := of_bind_some h
  obtain ⟨ts, -, h⟩ := of_bind_some h
  obtain ⟨⟨column, ts⟩, -, h⟩ := of_bind_some h
  cases h
  exact ⟨_, _, rfl⟩

end Results

theorem statement?_of_ofTokens? (h : Statement.ofTokens? ts = some st) :
    statement? ts = some (st, []) := by
  unfold Statement.ofTokens? at h
  split at h
  next hst =>
    cases h
    exact hst
  next => cases h

theorem words?_some {w : String} {ws : List String} (h : words? (w :: ws) ts = some left) :
    ∃ t rest s, ts = t :: rest ∧ t.kind = .word s ∧ Text.lowerAscii s = w := by
  obtain ⟨mid, hmid, -⟩ := of_bind_some h
  obtain ⟨t, s, hts, hkind, hw⟩ := word?_some hmid
  exact ⟨t, mid, s, hts, hkind, hw⟩

/-- Only the words of control statements begin one. -/
theorem word_of_control (h : Statement.ofTokens? ts = some st) (hst : st.isControl = true) :
    ∃ t rest w, ts = t :: rest ∧ t.kind = .word w ∧
      Text.lowerAscii w ∈ ["begin", "commit", "end", "rollback"] := by
  have hread := statement?_of_ofTokens? h
  rw [statement?_eq] at hread
  obtain ⟨r, hr, hread⟩ := List.exists_of_findSome?_eq_some hread
  obtain ⟨ts', hwords, hread⟩ := Option.bind_eq_some_iff.mp hread
  simp only [readers, List.mem_cons, List.not_mem_nil, or_false] at hr
  rcases hr with rfl | rfl | rfl | rfl | rfl | rfl | rfl | rfl | rfl | rfl
  · obtain ⟨_, rfl⟩ := select?_some hread
    cases hst
  · obtain ⟨_, _, _, _, _, rfl⟩ := insert?_some hread
    cases hst
  · obtain ⟨_, _, _, _, _, rfl⟩ := update?_some hread
    cases hst
  · obtain ⟨_, _, _, rfl⟩ := delete?_some hread
    cases hst
  · obtain ⟨_, _, _, _, rfl⟩ := createTable?_some hread
    cases hst
  · obtain ⟨_, _, rfl⟩ := alterTable?_some hread
    cases hst
  all_goals
    obtain ⟨t, rest, w, rfl, hkind, hw⟩ := words?_some hwords
    exact ⟨t, rest, w, rfl, hkind, by simp [hw]⟩

section Leads

theorem findSome?_filter {α β : Type} {f : α → Option β} {p : α → Bool} {l : List α}
    (h : ∀ x ∈ l, p x = false → f x = none) : (l.filter p).findSome? f = l.findSome? f := by
  induction l with
  | nil => rfl
  | cons x l ih =>
    obtain ⟨hx, hl⟩ := List.forall_mem_cons.mp h
    cases hp : p x with
    | false => rw [List.filter_cons_of_neg (by simp [hp]), ih hl, List.findSome?_cons, hx hp]
    | true => rw [List.filter_cons_of_pos hp, List.findSome?_cons, List.findSome?_cons, ih hl]

theorem words?_none {w w' : String} {ws : List String} (h : t.kind = .word w)
    (hne : Text.lowerAscii w ≠ w') : words? (w' :: ws) (t :: rest) = none := by
  simp [words?, word?_of_kind h, hne]

theorem words_of_readers : ∀ r ∈ readers, ∃ w ws, r.1 = w :: ws := by
  intro r hr
  simp only [readers, List.mem_cons, List.not_mem_nil, or_false] at hr
  rcases hr with rfl | rfl | rfl | rfl | rfl | rfl | rfl | rfl | rfl | rfl
  all_goals exact ⟨_, _, rfl⟩

/-- What follows a word is for the reader with that word, if it is the only one. -/
theorem statement?_lead {w : String} {reader : Rest → Option (Statement × Rest)}
    (hreader : (readers.filter fun r => r.1.head? == some (Text.lowerAscii w)) =
      [([Text.lowerAscii w], reader)])
    (h : t.kind = .word w) : statement? (t :: rest) = reader rest := by
  have hother : ∀ r ∈ readers, (r.1.head? == some (Text.lowerAscii w)) = false →
      (words? r.1 (t :: rest)).bind r.2 = none := by
    intro r hr hhead
    obtain ⟨w', ws, hws⟩ := words_of_readers r hr
    have hne : Text.lowerAscii w ≠ w' := by
      rintro rfl
      simp [hws] at hhead
    rw [hws, words?_none h hne, Option.bind_none]
  rw [statement?_eq, ← findSome?_filter hother, hreader]
  simp [words?, word?_of_kind h]

end Leads

end Parser

open Relata.Sqlite.Token Relata.Sqlite.Parser

variable {sql : String} {x : List Char} {st : Statement}

/-- A statement that begins with the word of a reader is what that reads after it. -/
theorem reads_of_lead {w : String} {reader : Rest → Option (Statement × Rest)} (hw : leads w = true)
    (hreader : (readers.filter fun r => r.1.head? == some (Text.lowerAscii w)) =
      [([Text.lowerAscii w], reader)])
    (hsql : sql.toList = w.toList ++ ' ' :: x)
    (h : Statement.ofTokens? (Token.ofText sql) = some st) :
    ∃ t fuel rest, Token.ofText sql = t :: rest ∧ reader rest = some (st, []) ∧
      rest = numberParameters 0 ((scan (fuel + 1) (' ' :: untilZero x)).takeWhile
        fun t => t.kind != .symbol ";") := by
  obtain ⟨t, fuel, ht, htext⟩ := ofText_lead hw hsql
  have hread := statement?_of_ofTokens? h
  rw [htext, statement?_lead hreader ht] at hread
  exact ⟨t, fuel, _, htext, hread, rfl⟩

theorem opens_select (hsql : sql.toList = "SELECT".toList ++ ' ' :: x)
    (h : Statement.ofTokens? (Token.ofText sql) = some st) : ∃ s, st = .select s := by
  obtain ⟨t, fuel, rest, -, hread, -⟩ := reads_of_lead (by decide) rfl hsql h
  exact select?_some hread

theorem opens_delete (hsql : sql.toList = "DELETE".toList ++ ' ' :: x)
    (h : Statement.ofTokens? (Token.ofText sql) = some st) :
    ∃ table condition returning, st = .delete table condition returning := by
  obtain ⟨t, fuel, rest, -, hread, -⟩ := reads_of_lead (by decide) rfl hsql h
  exact delete?_some hread

theorem opens_insert (hsql : sql.toList = "INSERT".toList ++ ' ' :: x)
    (h : Statement.ofTokens? (Token.ofText sql) = some st) :
    ∃ conflict table columns rows returning, st = .insert conflict table columns rows returning := by
  obtain ⟨t, fuel, rest, -, hread, -⟩ := reads_of_lead (by decide) rfl hsql h
  exact insert?_some hread

theorem opens_update (hsql : sql.toList = "UPDATE".toList ++ ' ' :: x)
    (h : Statement.ofTokens? (Token.ofText sql) = some st) :
    ∃ conflict table sets condition returning,
      st = .update conflict table sets condition returning := by
  obtain ⟨t, fuel, rest, -, hread, -⟩ := reads_of_lead (by decide) rfl hsql h
  exact update?_some hread

theorem Plan.ofText_ok {c : Content} {p : Plan} {wanted : Nat}
    (h : ofText c sql = .ok (p, wanted)) :
    ∃ s, Statement.ofTokens? (Token.ofText sql) = some s ∧ ofStatement c s = .ok p := by
  change (if (Token.ofText sql).isEmpty then _ else _) = _ at h
  split at h
  · cases h
  cases hs : Statement.ofTokens? (Token.ofText sql) with
  | none =>
    rw [hs] at h
    cases h
  | some s =>
    rw [hs] at h
    obtain ⟨q, hq, h⟩ := of_bind_ok h
    cases h
    exact ⟨s, rfl, hq⟩

/-- The text of a compiled statement begins as its operation wants. -/
theorem toList_compiled {b : QueryBuilder} {stmt : Relata.Statement} (hc : b.compile = .ok stmt) :
    ∃ x : List Char, stmt.sql.toList =
      (match b.operation with
        | .select => "SELECT"
        | .insert => "INSERT"
        | .update => "UPDATE"
        | .delete => "DELETE").toList ++ ' ' :: x := by
  obtain ⟨cmd, hcmd, htext⟩ := QueryBuilder.exists_command hc
  rw [htext]
  unfold QueryBuilder.command at hcmd
  cases hop : b.operation with
  | select =>
    simp only [hop] at hcmd
    cases hcmd
    simp [Query.Command.pieces, Query.Select.pieces, Sql.render]
  | insert =>
    simp only [hop] at hcmd
    cases hcmd
    simp [Query.Command.pieces, Query.Command.insertPieces, Sql.render]
  | update =>
    simp only [hop] at hcmd
    split at hcmd
    · cases hcmd
    cases hcmd
    simp [Query.Command.pieces, Query.Command.updatePieces, Sql.render, Text.Quoted.token]
  | delete =>
    simp only [hop] at hcmd
    cases hcmd
    simp [Query.Command.pieces, Query.Command.deletePieces, Sql.render]

end Relata.Sqlite
