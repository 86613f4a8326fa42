import Relata.Proofs.Closing

/-!
How a text ends that is put together from words, quoted names, marks and places for parameters. Main
statement: if each kind of token in it is allowed and the last one is as wanted, then so are the
tokens of its first statement, whatever the names in it are.
-/
namespace Relata.Sqlite.Token

open Relata.Number

/-- What is asked of the tokens of a text, and of the last one if there is any. -/
structure Demand where
  each : TokenKind → Prop
  last : Option TokenKind → Prop

namespace Demand

/-- A name may be anything, and may break off so that it cannot be read; a parameter may have any
number; and if nothing is asked of the end of an empty text, then neither is of any other. -/
structure IsFair (d : Demand) : Prop where
  quoted (name : String) : d.each (.quoted name)
  illegal : d.each .illegal
  cut : d.last (some .illegal)
  place (number : Option Nat) : d.each (.parameter number)
  numbered (number : Option Nat) (h : d.last (some (.parameter none))) :
    d.last (some (.parameter number))
  more (k : TokenKind) (h : d.last none) : d.last (some k)
  word {w : String} (h : Text.lowerAscii w ≠ "returning") : d.each (.word w)
  symbol {s : String} (h : s ≠ ";") : d.each (.symbol s)
  whole : ¬ d.each (.symbol ";")

end Demand

/-- A parameter may be given a number; nothing else becomes of a token. -/
theorem numberParameters_cons (highest : Nat) (t : Token) (rest : List Token) :
    ∃ u next, numberParameters highest (t :: rest) = u :: numberParameters next rest ∧
      (u.kind = t.kind ∨ t.kind = .parameter none ∧ ∃ number, u.kind = .parameter number) := by
  cases hkind : t.kind with
  | parameter number =>
    cases number with
    | none =>
      exact ⟨{ t with kind := .parameter (some (highest + 1)) }, highest + 1,
        by simp only [numberParameters, hkind], .inr ⟨rfl, _, rfl⟩⟩
    | some n => exact ⟨t, max highest n, by simp only [numberParameters, hkind], .inl hkind⟩
  | _ => exact ⟨t, highest, by simp only [numberParameters, hkind], .inl hkind⟩

structure Meets (d : Demand) (ts : List Token) : Prop where
  each : ∀ t ∈ ts, d.each t.kind
  last : d.last (ts.getLast?.map Token.kind)

namespace Meets

variable {d : Demand} {t : Token} {ts : List Token}

theorem cons (hfair : d.IsFair) (ht : d.each t.kind) (h : Meets d ts) : Meets d (t :: ts) := by
  refine ⟨List.forall_mem_cons.mpr ⟨ht, h.each⟩, ?_⟩
  cases ts with
  | nil => exact hfair.more _ h.last
  | cons u us => simpa [List.getLast?_cons_cons] using h.last

/-- What stands before a token does not matter. -/
theorem spaced (h : Meets d ts) : Meets d (spaced ts) := by
  cases ts with
  | nil => exact h
  | cons t ts =>
    refine ⟨List.forall_mem_cons.mpr (List.forall_mem_cons.mp h.each), ?_⟩
    have hlast := h.last
    cases ts with
    | nil => exact hlast
    | cons u us => simpa [Token.spaced, List.getLast?_cons_cons] using hlast

theorem numbered (hfair : d.IsFair) (h : Meets d ts) (highest : Nat) :
    Meets d (numberParameters highest ts) := by
  induction ts generalizing highest with
  | nil => exact h
  | cons t ts ih =>
    obtain ⟨u, next, heq, hu⟩ := numberParameters_cons highest t ts
    obtain ⟨ht, hts⟩ := List.forall_mem_cons.mp h.each
    have hallowed : d.each u.kind := by
      rcases hu with hu | ⟨-, number, hu⟩
      · exact hu ▸ ht
      · exact hu ▸ hfair.place number
    rw [heq]
    cases ts with
    | nil =>
      refine ⟨List.forall_mem_singleton.mpr hallowed, ?_⟩
      have hlast : d.last (some t.kind) := h.last
      rcases hu with hu | ⟨ht, number, hu⟩
      · exact (congrArg (d.last <| some ·) hu).mpr hlast
      · exact (congrArg (d.last <| some ·) hu).mpr (hfair.numbered number (ht ▸ hlast))
    | cons v vs =>
      have hrest : Meets d (v :: vs) := ⟨hts, by simpa [List.getLast?_cons_cons] using h.last⟩
      exact (ih hrest next).cons hfair hallowed

end Meets

/-- The tokens of a text are as asked, as far as it is read. -/
def Trails (d : Demand) (s : List Char) : Prop :=
  ∀ fuel, (untilZero s).length < fuel → Meets d (scan fuel (untilZero s))

/-- What may follow a name or a place for a parameter. -/
def parts (c : Char) : Bool := [' ', ',', ')', '.'].contains c

/-- A text that does not go on with the name or the place before it. -/
def Apart (s : List Char) : Prop := ∀ c ∈ (untilZero s).head?, parts c = true

theorem apart_nil : Apart [] := fun _ hc => absurd hc (Option.not_mem_none _)

theorem apart_of_parts {c : Char} (h : parts c = true) (s : List Char) : Apart (c :: s) := by
  intro d hd
  by_cases hzero : c.toNat = 0
  · simp [untilZero, hzero] at hd
  · simp only [untilZero, bne_iff_ne, ne_eq, hzero, not_false_eq_true, List.takeWhile_cons_of_pos,
      List.head?_cons, Option.mem_def, Option.some.injEq] at hd
    exact hd ▸ h

section Texts

variable {d : Demand} {s w : List Char} {k : TokenKind}

/-- The tokens of a text are those of its first statement if a semicolon is not allowed. -/
theorem Trails.ofText {sql : String} (hfair : d.IsFair) (h : Trails d sql.toList) :
    Meets d (ofText sql) := by
  have hmeets := h _ (Nat.lt_succ_self _)
  rw [ofText_eq]
  generalize scan ((untilZero sql.toList).length + 1) (untilZero sql.toList) = ts at hmeets
  have hnone : ∀ t ∈ ts, t.kind ≠ .symbol ";" :=
    fun t ht hkind => hfair.whole (hkind ▸ hmeets.each t ht)
  have hdrop : ts.dropWhile (fun t => t.kind = .symbol ";") = ts :=
    List.dropWhile_eq_self_iff.mpr fun hl => by simpa using hnone _ (List.getElem_mem hl)
  have htake : ts.takeWhile (fun t => t.kind != .symbol ";") = ts :=
    List.takeWhile_eq_self_iff.mpr fun t ht => by simpa using hnone t ht
  rw [hdrop, htake]
  exact hmeets.numbered hfair 0

theorem trails_nil (h : d.last none) : Trails d [] := by
  intro fuel _
  have hnil : scan fuel (untilZero []) = [] := scan_nil fuel
  rw [hnil]
  exact ⟨nofun, h⟩

theorem trails_space (h : Trails d s) : Trails d (' ' :: s) := by
  intro fuel hfuel
  have hlength : (untilZero s).length + 1 < fuel := hfuel
  obtain ⟨fuel, rfl⟩ : ∃ f, fuel = f + 1 := ⟨fuel - 1, by omega⟩
  have hread : untilZero (' ' :: s) = ' ' :: untilZero s := rfl
  rw [hread, scan_space]
  exact (h (fuel + 1) (by omega)).spaced

variable (hfair : d.IsFair)

include hfair

/-- One token, and what comes after it. -/
theorem trails_token (hzero : ∀ c ∈ w, c.toNat ≠ 0) (hw : w ≠ [])
    (hstarts : Starts (w ++ untilZero s)) (hread : readOne (w ++ untilZero s) = (k, w.length))
    (hk : d.each k) (h : Trails d s) : Trails d (w ++ s) := by
  intro fuel hfuel
  rw [untilZero_append hzero, List.length_append] at hfuel
  rw [untilZero_append hzero]
  cases w with
  | nil => exact absurd rfl hw
  | cons c w =>
    rw [List.length_cons] at hfuel
    obtain ⟨fuel, rfl⟩ : ∃ f, fuel = f + 1 := ⟨fuel - 1, by omega⟩
    have hdrop : (c :: (w ++ untilZero s)).drop (c :: w).length = untilZero s := List.drop_left
    rw [List.cons_append] at hstarts hread ⊢
    rw [scan_cons hstarts hread, hdrop]
    exact (h fuel (by omega)).cons hfair hk

theorem trails_word (w : String) (hw : leads w = true) (hk : d.each (.word w))
    (h : Trails d (' ' :: s)) : Trails d (w.toList ++ ' ' :: s) := by
  obtain ⟨c, cs, hcs, hbegins, hall⟩ := leads_cons hw
  have hchars : cs.all isWordChar = true :=
    List.all_eq_true.mpr fun d hd => (hall d (List.mem_cons_of_mem c hd)).1
  have hword : String.ofList (c :: cs) = w := by rw [← hcs, String.ofList_toList]
  have hstop : ∀ d ∈ (untilZero (' ' :: s)).head?, isWordChar d = false := by
    rintro d ⟨⟩
    rfl
  have hread := readOne_word hbegins hchars (hall c List.mem_cons_self).1 hstop
  rw [hword] at hread
  rw [hcs]
  exact trails_token hfair (fun d hd => (hall d hd).2) (List.cons_ne_nil c cs)
    (starts_word hbegins) hread hk h

/-- A mark that begins like no other token, but for a point, which a number may begin with. -/
def isMark (sym : String) : Bool :=
  sym != ";" && sym.toList.all (fun c => c.toNat != 0) &&
    match sym.toList with
    | c :: cs => beginsMark c && !isSpace c && c != '-' && c != '/' && (c != '.' || cs.isEmpty)
    | [] => false

omit hfair in
theorem isMark_cons {sym : String} (h : isMark sym = true) : ∃ c cs, sym.toList = c :: cs ∧
    sym ≠ ";" ∧ (∀ d ∈ c :: cs, d.toNat ≠ 0) ∧ (c = '.' → cs = []) ∧ beginsMark c = true ∧
    isSpace c = false ∧ c ≠ '-' ∧ c ≠ '/' := by
  cases hsym : sym.toList with
  | nil => simp [isMark, hsym] at h
  | cons c cs =>
    simp only [isMark, hsym, Bool.and_eq_true, List.all_eq_true, bne_iff_ne, ne_eq, Bool.or_eq_true,
      Bool.not_eq_true', List.isEmpty_iff] at h
    obtain ⟨⟨hne, hzero⟩, ⟨⟨⟨hbegins, hspace⟩, hminus⟩, hslash⟩, hpoint⟩ := h
    exact ⟨c, cs, rfl, hne, hzero, fun hc => hpoint.resolve_left fun hnot => hnot hc, hbegins, hspace,
      hminus, hslash⟩

/-- A mark, if no longer mark begins where it does. -/
theorem trails_symbol (sym : String) (hmark : isMark sym = true)
    (hdot : sym ≠ "." ∨ ∀ d ∈ (untilZero s).head?, isDigit d = false)
    (hfirst : (symbols.find? fun m =>
      (Text.stripPrefix? m.toList ((sym.toList ++ untilZero s).take 2)).isSome) = some sym)
    (h : Trails d s) : Trails d (sym.toList ++ s) := by
  obtain ⟨c, cs, hcs, hne, hzero, hpoint, hplain, hspace, hminus, hslash⟩ := isMark_cons hmark
  have hlength : sym.length = (c :: cs).length := by rw [← hcs, String.length_toList]
  have hnumber : (c == '.' && (cs ++ untilZero s).head?.any isDigit) = false := by
    by_cases hc : c = '.'
    · obtain rfl := hpoint hc
      have hsym : sym = "." := String.toList_injective (hcs.trans (hc ▸ rfl))
      have hdigit := hdot.resolve_left fun hne => hne hsym
      cases hhead : (untilZero s).head? with
      | none => simp [hhead]
      | some d => simp [hhead, hdigit d hhead]
    · simp [hc]
  rw [hcs] at hfirst ⊢
  have hread := readOne_symbol hplain hnumber hfirst
  rw [hlength] at hread
  exact trails_token hfair hzero (List.cons_ne_nil c cs) (starts_of_head hspace hminus hslash) hread
    (hfair.symbol hne) h

/-- A place for a parameter. -/
theorem trails_place (hs : Apart s) (h : Trails d s) : Trails d ('?' :: s) := by
  have hstop : ∀ c ∈ (untilZero s).head?, isDigit c = false := by
    intro c hc
    have hparts := hs c hc
    simp only [parts, List.contains_eq_mem, decide_eq_true_eq, List.mem_cons, List.not_mem_nil,
      or_false] at hparts
    rcases hparts with rfl | rfl | rfl | rfl <;> rfl
  have hzero : ∀ c ∈ ['?'], c.toNat ≠ 0 := List.forall_mem_singleton.mpr (by decide)
  have hstarts : Starts ('?' :: untilZero s) := starts_of_head rfl (by decide) (by decide)
  exact trails_token hfair hzero (List.cons_ne_nil _ _) hstarts (readOne_place hstop)
    (hfair.place none) h

omit hfair in
/-- What is read inside quote marks, if they are closed before the text breaks off, is followed by the
text after the name. -/
theorem readInside_untilZero (name : List Char) (hs : Apart s) {inside rest : List Char}
    (h : Text.Quoted.readInside '"' (untilZero (Text.Quoted.double '"' name ++ '"' :: s)) =
      some (inside, rest)) : rest = untilZero s := by
  induction name generalizing inside with
  | nil =>
    have hclose : untilZero (Text.Quoted.double '"' [] ++ '"' :: s) = '"' :: untilZero s := rfl
    have hhead : (untilZero s).head? ≠ some '"' := fun hc => absurd (hs _ hc) (by decide)
    rw [hclose, Text.Quoted.readInside_close hhead] at h
    cases h
    rfl
  | cons c name ih =>
    by_cases hquote : c = '"'
    · subst hquote
      have hopen : untilZero (Text.Quoted.double '"' ('"' :: name) ++ '"' :: s) =
          '"' :: '"' :: untilZero (Text.Quoted.double '"' name ++ '"' :: s) := rfl
      rw [hopen, Text.Quoted.readInside, if_pos rfl, if_pos rfl] at h
      obtain ⟨r, hr, hpair⟩ := Option.map_eq_some_iff.mp h
      cases hpair
      exact ih hr
    · rw [Text.Quoted.double, if_neg hquote] at h
      by_cases hzero : c.toNat = 0
      · have hnil : untilZero (c :: Text.Quoted.double '"' name ++ '"' :: s) = [] := by
          simp [untilZero, hzero]
        rw [hnil] at h
        cases h
      · have hcons : untilZero (c :: Text.Quoted.double '"' name ++ '"' :: s) =
            c :: untilZero (Text.Quoted.double '"' name ++ '"' :: s) := by
          simp [untilZero, hzero]
        rw [hcons] at h
        by_cases hnil : untilZero (Text.Quoted.double '"' name ++ '"' :: s) = []
        · rw [hnil, Text.Quoted.readInside, if_neg hquote] at h
          cases h
        · rw [Text.Quoted.readInside_cons hquote hnil] at h
          obtain ⟨r, hr, hpair⟩ := Option.map_eq_some_iff.mp h
          cases hpair
          exact ih hr

/-- A quoted name, which is one token whether it can be read or not. -/
theorem trails_name (name : List Char) (hs : Apart s) (h : Trails d s) :
    Trails d (Text.Quoted.token '"' name ++ s) := by
  have htoken : Text.Quoted.token '"' name ++ s =
      '"' :: (Text.Quoted.double '"' name ++ '"' :: s) := by simp [Text.Quoted.token]
  have hrest := @readInside_untilZero s name hs
  rw [htoken]
  intro fuel hfuel
  have hread : untilZero ('"' :: (Text.Quoted.double '"' name ++ '"' :: s)) =
      '"' :: untilZero (Text.Quoted.double '"' name ++ '"' :: s) := rfl
  rw [hread] at hfuel ⊢
  generalize untilZero (Text.Quoted.double '"' name ++ '"' :: s) = x at hfuel hrest ⊢
  obtain ⟨fuel, rfl⟩ : ∃ f, fuel = f + 1 := ⟨fuel - 1, by omega⟩
  have hstarts : Starts ('"' :: x) := starts_of_head rfl (by decide) (by decide)
  have hscan : scan (fuel + 1) ('"' :: x) = ⟨(readQuoted '"' .quoted x).1, [], _⟩ ::
      scan fuel (('"' :: x).drop (readQuoted '"' .quoted x).2) :=
    scan_cons hstarts (readOne_quote x) fuel
  rw [hscan]
  rcases readQuoted_cases x with ⟨inside, rest, hinside, hkind, hdrop⟩ | hcut
  · obtain rfl := hrest hinside
    have hlength := Text.Quoted.length_readInside hinside
    rw [List.length_cons] at hfuel
    rw [hdrop]
    exact (h fuel (by omega)).cons hfair (hkind ▸ hfair.quoted _)
  · rw [hcut, List.drop_eq_nil_of_le (by rw [List.length_cons]; omega), scan_nil]
    exact ⟨List.forall_mem_singleton.mpr hfair.illegal, hfair.cut⟩

end Texts

section Pieces

open Relata.Sql (Piece render render_append separated)
open Relata.Query (clause wherePieces)

variable {d : Demand} {s : List Char} {p q : List Piece}

/-- Text that is apart from what is before it, and leads on to whatever comes next. -/
structure Divides (d : Demand) (w : String) : Prop where
  apart (s : List Char) : Apart (w.toList ++ s)
  trails {s : List Char} (h : Trails d s) : Trails d (w.toList ++ s)

/-- Pieces that can be followed by anything that is apart from them. -/
def Runs (d : Demand) (p : List Piece) : Prop :=
  ∀ (used : Nat) {s : List Char}, Apart s → Trails d s → Trails d (render .sqlite used p ++ s)

theorem Runs.divided {w : String} (hp : Runs d p) (hw : Divides d w) (hq : Runs d q) :
    Runs d (p ++ .text w :: q) := by
  intro used s hs h
  rw [render_append, render, List.append_assoc, List.append_assoc]
  exact hp used (hw.apart _) (hw.trails (hq _ hs h))

theorem runs_nil : Runs d [] := fun _ {_} _ h => h

theorem runs_separated {sep : String} (hsep : Divides d sep) {items : List (List Piece)}
    (h : ∀ p ∈ items, Runs d p) : Runs d (separated sep items) := by
  induction items with
  | nil => exact runs_nil
  | cons p items ih =>
    obtain ⟨hp, hitems⟩ := List.forall_mem_cons.mp h
    cases items with
    | nil => exact hp
    | cons q items => exact hp.divided hsep (ih hitems)

theorem Runs.clause {lead sep : String} (hp : Runs d p) (hlead : Divides d lead)
    (hsep : Divides d sep) {items : List (List Piece)} (h : ∀ p ∈ items, Runs d p) :
    Runs d (p ++ clause lead sep items) := by
  cases items with
  | nil => rwa [Query.clause, List.isEmpty_nil, if_pos rfl, List.append_nil]
  | cons q items => exact hp.divided hlead (runs_separated hsep h)

variable (hfair : d.IsFair)

include hfair

theorem runs_name (n : String) : Runs d [.name n] := by
  intro used s hs h
  rw [render, render, List.append_nil]
  exact trails_name hfair n.toList hs h

theorem runs_slot (v : Value) : Runs d [.slot v] := by
  intro used s hs h
  have hrender : render .sqlite used [.slot v] ++ s = '?' :: s := by simp [render, Dialect.placeholder]
  rw [hrender]
  exact trails_place hfair hs h

theorem runs_column (table column : String) : Runs d (Sql.column table column) := by
  intro used s hs h
  have hcolumn := trails_name hfair column.toList hs h
  have hdotted := trails_symbol hfair "." (by decide) (.inr (by rintro c ⟨⟩; rfl)) rfl hcolumn
  have hrender : render .sqlite used (Sql.column table column) ++ s =
      Text.Quoted.token '"' table.toList ++
        (".".toList ++ (Text.Quoted.token '"' column.toList ++ s)) := by
    simp [Sql.column, render]
  rw [hrender]
  exact trails_name hfair table.toList (apart_of_parts rfl _) hdotted

theorem divides_comma : Divides d ", " where
  apart s := apart_of_parts rfl _
  trails h := trails_symbol hfair "," (by decide) (.inl (by decide)) rfl (trails_space h)

/-- A word between blanks. -/
theorem divides_word (w : String) {text : String} (hw : leads w = true)
    (hreturning : Text.lowerAscii w ≠ "returning")
    (htext : text.toList = ' ' :: (w.toList ++ [' '])) : Divides d text where
  apart s := by
    rw [htext]
    exact apart_of_parts rfl _
  trails {s} h := by
    have hspaced : text.toList ++ s = ' ' :: (w.toList ++ ' ' :: s) := by simp [htext]
    rw [hspaced]
    exact trails_space (trails_word hfair w hw (hfair.word hreturning) (trails_space h))

/-- A mark between blanks. -/
theorem divides_symbol (sym : String) {text : String} (hmark : isMark sym = true) (hdot : sym ≠ ".")
    (hfirst : ∀ s, (symbols.find? fun m =>
      (Text.stripPrefix? m.toList ((sym.toList ++ ' ' :: s).take 2)).isSome) = some sym)
    (htext : text.toList = ' ' :: (sym.toList ++ [' '])) : Divides d text where
  apart s := by
    rw [htext]
    exact apart_of_parts rfl _
  trails {s} h := by
    have hspaced : text.toList ++ s = ' ' :: (sym.toList ++ ' ' :: s) := by simp [htext]
    rw [hspaced]
    exact trails_space (trails_symbol hfair sym hmark (.inl hdot) (hfirst _) (trails_space h))

theorem divides_operator (op : Operator) : Divides d (" " ++ op.sql ++ " ") := by
  cases op with
  | contains => exact divides_word hfair "LIKE" (by decide) (by decide) rfl
  | eq => exact divides_symbol hfair "=" (by decide) (by decide) (fun _ => rfl) rfl
  | gt => exact divides_symbol hfair ">" (by decide) (by decide) (fun _ => rfl) rfl
  | lt => exact divides_symbol hfair "<" (by decide) (by decide) (fun _ => rfl) rfl
  | gte => exact divides_symbol hfair ">=" (by decide) (by decide) (fun _ => rfl) rfl
  | lte => exact divides_symbol hfair "<=" (by decide) (by decide) (fun _ => rfl) rfl

theorem divides_open : Divides d " (" where
  apart s := apart_of_parts rfl _
  trails {s} h := by
    have hfirst : (symbols.find? fun m =>
        (Text.stripPrefix? m.toList (("(".toList ++ untilZero s).take 2)).isSome) = some "(" := by
      cases untilZero s <;> rfl
    exact trails_space (trails_symbol hfair "(" (by decide) (.inl (by decide)) hfirst h)

theorem divides_values : Divides d ") VALUES (" where
  apart s := apart_of_parts rfl _
  trails h := by
    have hwords := trails_word hfair "VALUES" (by decide) (hfair.word (by decide))
      ((divides_open hfair).trails h)
    exact trails_symbol hfair ")" (by decide) (.inl (by decide)) rfl (trails_space hwords)

/-- A condition on a column of the table itself. -/
theorem runs_condition (table column : String) (op : Operator) (v : Value) :
    Runs d (Relata.Query.Condition.pieces table ⟨.own column, op, v⟩) :=
  (runs_column hfair table column).divided (divides_operator hfair op) (runs_slot hfair v)

theorem runs_where (table : String) {conditions : List Relata.Query.Condition}
    (hown : ∀ c ∈ conditions, ∃ column, c.key = .own column) (hp : Runs d p) :
    Runs d (p ++ wherePieces table conditions) := by
  refine hp.clause (divides_word hfair "WHERE" (by decide) (by decide) rfl)
    (divides_word hfair "AND" (by decide) (by decide) rfl) fun item hitem => ?_
  obtain ⟨⟨key, op, v⟩, hc, rfl⟩ := List.mem_map.mp hitem
  obtain ⟨column, rfl⟩ := hown _ hc
  exact runs_condition hfair table column op v

theorem runs_record (record : Keyed Value) (hp : Runs d p) :
    Runs d (p ++ .text " SET " ::
      separated ", " (record.entries.map fun e => [.name e.1, .text " = ", .slot e.2])) := by
  refine hp.divided (divides_word hfair "SET" (by decide) (by decide) rfl)
    (runs_separated (divides_comma hfair) fun item hitem => ?_)
  obtain ⟨e, -, rfl⟩ := List.mem_map.mp hitem
  have hequal : Divides d " = " :=
    divides_symbol hfair "=" (by decide) (by decide) (fun _ => rfl) rfl
  exact (runs_name hfair e.1).divided hequal (runs_slot hfair e.2)

/-- An insertion, as far as its closing parenthesis. -/
theorem runs_insert (table : String) (record : Keyed Value) :
    Runs d ([.name table] ++ .text " (" :: separated ", " (record.keys.map fun k => [.name k]) ++
      .text ") VALUES (" :: separated ", " (record.values.map fun v => [.slot v])) := by
  have hnames : Runs d (separated ", " (record.keys.map fun k => [.name k])) := by
    refine runs_separated (divides_comma hfair) fun item hitem => ?_
    obtain ⟨k, -, rfl⟩ := List.mem_map.mp hitem
    exact runs_name hfair k
  have hslots : Runs d (separated ", " (record.values.map fun v => [.slot v])) := by
    refine runs_separated (divides_comma hfair) fun item hitem => ?_
    obtain ⟨v, -, rfl⟩ := List.mem_map.mp hitem
    exact runs_slot hfair v
  exact ((runs_name hfair table).divided (divides_open hfair) hnames).divided
    (divides_values hfair) hslots

/-- Two words before a name. -/
theorem trails_words (w w' : String) (hw : leads w = true) (hw' : leads w' = true)
    (hk : d.each (.word w)) (hk' : d.each (.word w')) (h : Trails d s) :
    Trails d (w.toList ++ ' ' :: (w'.toList ++ ' ' :: s)) :=
  trails_word hfair w hw hk (trails_space (trails_word hfair w' hw' hk' (trails_space h)))

end Pieces

/-- A statement that returns something. -/
def Demand.returns : Demand where
  each k := k ≠ .symbol ";"
  last k := ∃ k', k = some k' ∧ k'.closes = false

theorem Demand.returns_word (w : String) : Demand.returns.each (.word w) := nofun

theorem Demand.returns_isFair : Demand.returns.IsFair where
  quoted _ := nofun
  illegal := nofun
  cut := ⟨_, rfl, rfl⟩
  place _ := nofun
  numbered _ h := by
    obtain ⟨_, heq, h⟩ := h
    cases heq
    cases h
  more _ h := by
    obtain ⟨_, h, -⟩ := h
    cases h
  word {w} _ := Demand.returns_word w
  symbol hs heq := hs (TokenKind.symbol.inj heq)
  whole h := h rfl

/-- A statement that does not say what it returns. -/
def Demand.silent : Demand where
  each k := k ≠ .symbol ";" ∧ ∀ w, k = .word w → Text.lowerAscii w ≠ "returning"
  last _ := True

theorem Demand.silent_isFair : Demand.silent.IsFair where
  quoted _ := ⟨nofun, nofun⟩
  illegal := ⟨nofun, nofun⟩
  cut := trivial
  place _ := ⟨nofun, nofun⟩
  numbered _ _ := trivial
  more _ _ := trivial
  word hw := ⟨nofun, fun _ heq => TokenKind.word.inj heq ▸ hw⟩
  symbol hs := ⟨fun heq => hs (TokenKind.symbol.inj heq), nofun⟩
  whole h := h.1 rfl

end Relata.Sqlite.Token
