import Relata.Error

/-!
Messages that speak of a table that does not exist: by one phrase, or by another with the name between
quote marks, which does not count behind the word `of`, as it is then about a column. Main statement:
an error says that a table is missing just if it is of the kind that does, or if one of the phrases
stands anywhere in its message, whatever else stands there.
-/
namespace Relata

namespace Text

variable {lead needle s inside rest : List Char} {q : Char}

theorem stripPrefix?_eq_some_iff : stripPrefix? lead s = some rest ↔ s = lead ++ rest :=
  ⟨eq_append_of_stripPrefix?, fun h => h ▸ stripPrefix?_append lead rest⟩

theorem isSome_stripPrefix?_iff : (stripPrefix? lead s).isSome = true ↔ lead <+: s := by
  rw [Option.isSome_iff_exists]
  exact exists_congr fun _ => stripPrefix?_eq_some_iff.trans eq_comm

theorem isSome_splitFirst?_iff : (splitFirst? needle s).isSome = true ↔ needle <:+: s := by
  induction s with
  | nil =>
    rw [splitFirst?, Option.isSome_map, isSome_stripPrefix?_iff, List.prefix_nil, List.infix_nil]
  | cons c s ih =>
    rw [splitFirst?, List.infix_cons_iff, ← isSome_stripPrefix?_iff, ← ih]
    cases stripPrefix? needle (c :: s) with
    | some rest => simp
    | none => simp

theorem contains_iff (s needle : String) : contains s needle = true ↔ needle.toList <:+: s.toList :=
  isSome_splitFirst?_iff

/-- Cut at the first `q`, a text has none before the cut. -/
theorem splitFirst?_singleton_iff :
    splitFirst? [q] s = some (inside, rest) ↔ s = inside ++ q :: rest ∧ q ∉ inside := by
  induction s generalizing inside with
  | nil => simp [splitFirst?, stripPrefix?]
  | cons c s ih =>
    by_cases hc : q = c
    · subst hc
      cases inside with
      | nil => simp [splitFirst?, stripPrefix?]
      | cons d inside => simp +contextual [splitFirst?, stripPrefix?, eq_comm]
    · have hstep : splitFirst? [q] (c :: s) =
          (splitFirst? [q] s).map fun parts => (c :: parts.1, parts.2) := by
        simp [splitFirst?, stripPrefix?, hc]
      rw [hstep, Option.map_eq_some_iff]
      cases inside with
      | nil => simp [Ne.symm hc]
      | cons d inside =>
        rw [List.cons_append, List.cons.injEq, List.mem_cons, not_or]
        constructor
        · rintro ⟨parts, hparts, heq⟩
          cases heq
          obtain ⟨hs, hq⟩ := ih.mp hparts
          exact ⟨⟨rfl, hs⟩, hc, hq⟩
        · rintro ⟨⟨rfl, hs⟩, -, hq⟩
          exact ⟨(inside, rest), ih.mpr ⟨hs, hq⟩, rfl⟩

end Text

namespace Error

variable {before s : List Char}

/-- Behind `before`, the text says of a relation by its name that it does not exist. -/
def Denies (before s : List Char) : Prop :=
  (∃ name after, s = "relation \"".toList ++ name ++ "\" does not exist".toList ++ after ∧
    '"' ∉ name) ∧ ¬" of".toList <:+ Text.trimRight before

theorem missingAfter_iff : missingAfter s = true ↔
    ∃ name after, s = name ++ "\" does not exist".toList ++ after ∧ '"' ∉ name := by
  have hphrase : "\" does not exist".toList = '"' :: " does not exist".toList := rfl
  simp only [hphrase]
  constructor
  · intro h
    unfold missingAfter at h
    split at h
    next name rest hsplit =>
      obtain ⟨after, hafter⟩ := Option.isSome_iff_exists.mp h
      obtain ⟨rfl, hname⟩ := Text.splitFirst?_singleton_iff.mp hsplit
      obtain rfl := Text.stripPrefix?_eq_some_iff.mp hafter
      exact ⟨name, after, by simp, hname⟩
    next => cases h
  · rintro ⟨name, after, rfl, hname⟩
    have hsplit : Text.splitFirst? ['"'] (name ++ '"' :: " does not exist".toList ++ after) =
        some (name, " does not exist".toList ++ after) :=
      Text.splitFirst?_singleton_iff.mpr ⟨by simp, hname⟩
    rw [missingAfter, hsplit]
    exact Text.isSome_stripPrefix?_iff.mpr (List.prefix_append _ _)

theorem endsInOf_reverse : endsInOf s.reverse = true ↔ " of".toList <:+ Text.trimRight s := by
  rw [endsInOf, Text.isSome_stripPrefix?_iff, Text.trimRight, ← List.reverse_prefix]
  rw [List.reverse_reverse]
  rfl

/-- Each place of the text is looked at, with all that stands before it. -/
theorem namesMissingRelation_cons (before : List Char) (c : Char) (s : List Char) :
    namesMissingRelation before.reverse (c :: s) = true ↔
      Denies before (c :: s) ∨ namesMissingRelation (before ++ [c]).reverse s = true := by
  have hplace : (∃ rest, Text.stripPrefix? "relation \"".toList (c :: s) = some rest ∧
      missingAfter rest = true) ↔
      ∃ name after, c :: s = "relation \"".toList ++ name ++ "\" does not exist".toList ++ after ∧
        '"' ∉ name := by
    simp only [Text.stripPrefix?_eq_some_iff, missingAfter_iff]
    constructor
    · rintro ⟨_, hs, name, after, rfl, hname⟩
      exact ⟨name, after, by simpa only [List.append_assoc] using hs, hname⟩
    · rintro ⟨name, after, hs, hname⟩
      exact ⟨_, by simpa only [List.append_assoc] using hs, name, after, rfl, hname⟩
  rw [Denies, ← hplace, ← endsInOf_reverse, List.reverse_append, namesMissingRelation,
    Bool.or_eq_true]
  cases Text.stripPrefix? "relation \"".toList (c :: s) with
  | none => simp
  | some rest => simp

theorem namesMissingRelation_iff : namesMissingRelation before.reverse s = true ↔
    ∃ left right, s = left ++ right ∧ Denies (before ++ left) right := by
  induction s generalizing before with
  | nil =>
    refine iff_of_false Bool.false_ne_true ?_
    rintro ⟨left, right, hs, ⟨name, after, rfl, -⟩, -⟩
    simp at hs
  | cons c s ih =>
    rw [namesMissingRelation_cons, ih]
    constructor
    · rintro (hhere | ⟨left, right, rfl, hlater⟩)
      · exact ⟨[], c :: s, rfl, by rwa [List.append_nil]⟩
      · exact ⟨c :: left, right, rfl, by rwa [List.append_cons]⟩
    · rintro ⟨left, right, hs, hdenies⟩
      cases left with
      | nil =>
        subst hs
        exact .inl (by rwa [List.append_nil] at hdenies)
      | cons d left =>
        obtain ⟨rfl, rfl⟩ := List.cons.inj hs
        exact .inr ⟨left, right, rfl, by rwa [List.append_cons] at hdenies⟩

theorem speaksOfMissingTable_iff (message : String) : speaksOfMissingTable message = true ↔
    "no such table".toList <:+: (Text.lower message).toList ∨
      ∃ before name after, (Text.lower message).toList =
          before ++ "relation \"".toList ++ name ++ "\" does not exist".toList ++ after ∧
        '"' ∉ name ∧ ¬" of".toList <:+ Text.trimRight before := by
  have hnames := @namesMissingRelation_iff [] (Text.lower message).toList
  rw [List.reverse_nil] at hnames
  rw [speaksOfMissingTable, Bool.or_eq_true, Text.contains_iff, hnames]
  refine or_congr_right ⟨?_, ?_⟩
  · rintro ⟨before, right, hs, ⟨name, after, rfl, hname⟩, hof⟩
    exact ⟨before, name, after, by simpa only [List.append_assoc] using hs, hname, hof⟩
  · rintro ⟨before, name, after, hs, hname, hof⟩
    exact ⟨before, _, by simpa only [List.append_assoc] using hs, ⟨name, after, rfl, hname⟩, hof⟩

/-- An error says that a table is missing just if it is of the kind that does, or if its message in
lower case has one of the two phrases in it. The name in the second goes up to the next quote mark,
and what stands before this phrase must not end in the word `of`, white space aside. -/
theorem isUndefinedRelation_iff (e : Error) : e.isUndefinedRelation = true ↔
    (∃ m, e = .undefinedTable m) ∨
      "no such table".toList <:+: (Text.lower e.message).toList ∨
      ∃ before name after, (Text.lower e.message).toList =
          before ++ "relation \"".toList ++ name ++ "\" does not exist".toList ++ after ∧
        '"' ∉ name ∧ ¬" of".toList <:+ Text.trimRight before := by
  by_cases hkind : ∃ m, e = .undefinedTable m
  · obtain ⟨m, rfl⟩ := hkind
    exact iff_of_true rfl (.inl ⟨m, rfl⟩)
  · have hmessage : e.isUndefinedRelation = speaksOfMissingTable e.message := by
      unfold isUndefinedRelation
      split
      next m => exact absurd ⟨m, rfl⟩ hkind
      next => rfl
    rw [hmessage, speaksOfMissingTable_iff, or_iff_right hkind]

/-- What is said of a column does not count, but neither does it hide what is said of another table. -/
example :
    (Error.query "column \"age\" of relation \"users\" does not exist").isUndefinedRelation = false ∧
      (Error.query ("column \"age\" of relation \"users\" does not exist; " ++
        "Relation \"posts\" does not exist")).isUndefinedRelation = true := by
  decide +kernel

end Error
end Relata
