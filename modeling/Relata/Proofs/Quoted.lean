import Relata.Text.Quoted

/-!
Reading quoted tokens. Main statement: what is read from the front of a text is a name just if the
text begins with that name quoted and does not go on with a quote mark there, so that a text can be
read in one way only; and no two names are quoted alike.
-/
namespace Relata.Text.Quoted

theorem double_append_ne_nil (q : Char) (s rest : List Char) : double q s ++ q :: rest ≠ [] := by
  simp

theorem readInside_close {q : Char} {rest : List Char} (h : rest.head? ≠ some q) :
    readInside q (q :: rest) = some ([], rest) := by
  cases rest with
  | nil => simp [readInside]
  | cons d rest =>
    have hd : d ≠ q := fun hd => h (by simp [hd])
    simp [readInside, hd]

theorem readInside_cons {q c : Char} {s : List Char} (hc : c ≠ q) (hs : s ≠ []) :
    readInside q (c :: s) = (readInside q s).map fun r => (c :: r.1, r.2) := by
  cases s with
  | nil => exact absurd rfl hs
  | cons d s => simp [readInside, hc]

/-- Undoes the doubling of quote marks up to the closing mark. -/
theorem readInside_double {q : Char} (s : List Char) {rest : List Char}
    (h : rest.head? ≠ some q) : readInside q (double q s ++ q :: rest) = some (s, rest) := by
  induction s with
  | nil => exact readInside_close h
  | cons c s ih =>
    by_cases hc : c = q
    · subst hc
      simp [double, readInside, ih]
    · have hne := double_append_ne_nil q s rest
      simp only [double, if_neg hc, List.cons_append]
      rw [readInside_cons hc hne, ih]
      rfl

/-- Whatever is read was written by doubling the quote marks, and does not go on with one. -/
theorem eq_of_readInside {q : Char} {s inside rest : List Char}
    (h : readInside q s = some (inside, rest)) :
    s = double q inside ++ q :: rest ∧ rest.head? ≠ some q := by
  fun_induction readInside q s generalizing inside rest with
  | case1 => cases h
  | case2 =>
    cases h
    exact ⟨rfl, nofun⟩
  | case3 => cases h
  | case4 s ih =>
    obtain ⟨r, hr, hpair⟩ := Option.map_eq_some_iff.mp h
    cases hpair
    obtain ⟨hs, hhead⟩ := ih hr
    refine ⟨?_, hhead⟩
    simp [double, ← hs]
  | case5 d s hd =>
    cases h
    exact ⟨rfl, by simpa using hd⟩
  | case6 c d s hc ih =>
    obtain ⟨r, hr, hpair⟩ := Option.map_eq_some_iff.mp h
    cases hpair
    obtain ⟨hs, hhead⟩ := ih hr
    refine ⟨?_, hhead⟩
    simp [double, hc, ← hs]

/-- What follows a token is the end of the text. -/
theorem suffix_readInside {q : Char} {s inside rest : List Char}
    (h : readInside q s = some (inside, rest)) : rest <:+ s := by
  obtain ⟨rfl, -⟩ := eq_of_readInside h
  exact (List.suffix_cons q rest).trans (List.suffix_append _ _)

/-- Reading always moves on. -/
theorem length_readInside {q : Char} {s inside rest : List Char}
    (h : readInside q s = some (inside, rest)) : rest.length < s.length := by
  obtain ⟨rfl, -⟩ := eq_of_readInside h
  simp only [List.length_append, List.length_cons]
  omega

/-- Reading takes exactly one token, and takes it in one way only. -/
theorem read_eq_some_iff {q : Char} {text s rest : List Char} :
    read q text = some (s, rest) ↔ text = token q s ++ rest ∧ rest.head? ≠ some q := by
  constructor
  · intro h
    cases text with
    | nil => cases h
    | cons c text =>
      by_cases hc : c = q
      · subst hc
        rw [read, if_pos rfl] at h
        obtain ⟨htext, hhead⟩ := eq_of_readInside h
        exact ⟨by simp [token, htext], hhead⟩
      · rw [read, if_neg hc] at h
        cases h
  · rintro ⟨rfl, hhead⟩
    have hinside := readInside_double s hhead
    simpa [read, token] using hinside

/-- A text splits in one way into a token and a rest that does not go on with a quote mark. -/
theorem token_append_inj {q : Char} {s t rest rest' : List Char}
    (h : token q s ++ rest = token q t ++ rest') (hrest : rest.head? ≠ some q)
    (hrest' : rest'.head? ≠ some q) : s = t ∧ rest = rest' := by
  have hleft : read q (token q t ++ rest') = some (s, rest) :=
    read_eq_some_iff.mpr ⟨h.symm, hrest⟩
  have hright : read q (token q t ++ rest') = some (t, rest') :=
    read_eq_some_iff.mpr ⟨rfl, hrest'⟩
  rw [hleft] at hright
  exact Prod.mk.inj (Option.some.inj hright)

/-- Two quote marks in a row become one, from the left. -/
def undouble (q : Char) : List Char → List Char
  | [] => []
  | [c] => [c]
  | c :: d :: s => if c = q ∧ d = q then q :: undouble q s else c :: undouble q (d :: s)

theorem undouble_cons {q c : Char} (hc : c ≠ q) (s : List Char) :
    undouble q (c :: s) = c :: undouble q s := by
  cases s with
  | nil => rfl
  | cons d s => simp [undouble, hc]

theorem undouble_double (q : Char) (s : List Char) : undouble q (double q s) = s := by
  induction s with
  | nil => rfl
  | cons c s ih =>
    by_cases hc : c = q
    · subst hc
      simp [double, undouble, ih]
    · rw [double, if_neg hc, undouble_cons hc, ih]

end Relata.Text.Quoted

namespace Relata

open Text

/-- What is read from the front of a text is a name just if the text is the name quoted and a rest
that does not go on with a quote mark; there is only one way to split a text so, and no two names
are quoted alike. Undoubling what stands between the quote marks gives the name back. -/
theorem read_quoteIdent :
    (∀ text name rest : String, Quoted.read '"' text.toList = some (name.toList, rest.toList) ↔
      text = quoteIdent name ++ rest ∧ rest.toList.head? ≠ some '"') ∧
    (∀ name name' rest rest' : String, quoteIdent name ++ rest = quoteIdent name' ++ rest' →
      rest.toList.head? ≠ some '"' → rest'.toList.head? ≠ some '"' → name = name' ∧ rest = rest') ∧
    (∀ name name' : String, quoteIdent name = quoteIdent name' → name = name') ∧
    ∀ name : String, ∃ inside, (quoteIdent name).toList = '"' :: (inside ++ ['"']) ∧
      Quoted.undouble '"' inside = name.toList := by
  have hsplit {name name' rest rest' : String}
      (h : quoteIdent name ++ rest = quoteIdent name' ++ rest')
      (hrest : rest.toList.head? ≠ some '"') (hrest' : rest'.toList.head? ≠ some '"') :
      name = name' ∧ rest = rest' := by
    have hlists : Quoted.token '"' name.toList ++ rest.toList =
        Quoted.token '"' name'.toList ++ rest'.toList := by
      simpa using congrArg String.toList h
    obtain ⟨hname, hrests⟩ := Quoted.token_append_inj hlists hrest hrest'
    exact ⟨String.toList_inj.mp hname, String.toList_inj.mp hrests⟩
  refine ⟨fun text name rest => ?_, fun _ _ _ _ => hsplit, fun name name' h => ?_, fun name => ?_⟩
  · rw [Quoted.read_eq_some_iff, ← String.toList_inj, String.toList_append, toList_quoteIdent]
  · have hends : quoteIdent name ++ "" = quoteIdent name' ++ "" := by rw [h]
    exact (hsplit hends (by decide) (by decide)).1
  · exact ⟨Quoted.double '"' name.toList, by rw [toList_quoteIdent, Quoted.token],
      Quoted.undouble_double '"' name.toList⟩

/-- Quote marks at the start, in a row and at the end; what follows begins with one of another kind. -/
theorem read_quoteIdent_marks :
    Quoted.read '"' (quoteIdent "\"a\"\"b\"" ++ "'\"").toList =
        some ("\"a\"\"b\"".toList, "'\"".toList) ∧
      ("'\"" : String).toList.head? ≠ some '"' := by
  have hhead : ("'\"" : String).toList.head? ≠ some '"' := by decide
  exact ⟨(read_quoteIdent.1 _ _ _).mpr ⟨rfl, hhead⟩, hhead⟩

/-- One quoted name may begin another, but only where that goes on with a quote mark. -/
example : quoteIdent "\"" = quoteIdent "" ++ "\"\"" := by decide

end Relata
