import Relata.Json.Parser
import Relata.Proofs.Numeral
import Relata.Proofs.Registry

/-!
Documents read back from their compact text. Main statement: a document that is nested as deep as
can be read, and names each member once, is what its text reads as if this is so for each of its
numbers. What was read from a text is such a document.
-/
namespace Relata

open Number

namespace Json

open JsonNumeral

theorem hexUnit?_control :
    ∀ n < 0x20, hexUnit? '0' '0' (hexDigit (n / 16)) (hexDigit (n % 16)) = some n := by
  decide

/-- An escaped character is read back, whatever follows. -/
theorem readString?_escapeChar (c : Char) (rest : List Char) :
    readString? (escapeChar c ++ rest) = (readString? rest).map fun r => (c :: r.1, r.2) := by
  by_cases hquote : c = '"'
  · subst hquote
    rfl
  by_cases hslash : c = '\\'
  · subst hslash
    rfl
  by_cases hback : c.toNat = 8
  · obtain rfl : c = Char.ofNat 8 := by rw [← hback, Char.ofNat_toNat]
    rfl
  by_cases hfeed : c.toNat = 12
  · obtain rfl : c = Char.ofNat 12 := by rw [← hfeed, Char.ofNat_toNat]
    rfl
  by_cases hline : c = '\n'
  · subst hline
    rfl
  by_cases hreturn : c = '\r'
  · subst hreturn
    rfl
  by_cases htab : c = '\t'
  · subst htab
    rfl
  by_cases hcontrol : c.toNat < 0x20
  · have hunit := hexUnit?_control c.toNat hcontrol
    have hhigh : isHighSurrogate c.toNat = false := by simp [isHighSurrogate]; omega
    have hlow : isLowSurrogate c.toNat = false := by simp [isLowSurrogate]; omega
    simp only [escapeChar, hquote, hslash, hback, hfeed, hline, hreturn, htab, hcontrol, if_false,
      if_true, List.cons_append, List.nil_append, readString?, hunit, hhigh, hlow,
      Bool.false_eq_true, Char.ofNat_toNat]
  · simp only [escapeChar, hquote, hslash, hback, hfeed, hline, hreturn, htab, hcontrol, if_false,
      List.cons_append, List.nil_append]
    rw [readString?]
    · simp [hslash, hcontrol]
    all_goals simp_all

theorem readString?_escaped (s rest : List Char) :
    readString? (s.flatMap escapeChar ++ '"' :: rest) = some (s, rest) := by
  induction s with
  | nil => rfl
  | cons c s ih =>
    rw [List.flatMap_cons, List.append_assoc, readString?_escapeChar, ih]
    rfl

theorem readString?_stringChars (s : String) (rest : List Char) :
    ∃ inside, stringChars s ++ rest = '"' :: inside ∧ readString? inside = some (s.toList, rest) := by
  refine ⟨s.toList.flatMap escapeChar ++ '"' :: rest, ?_, readString?_escaped s.toList rest⟩
  simp [stringChars]

theorem skipBlanks_cons {c : Char} (h : isBlank c = false) (s : List Char) :
    skipBlanks (c :: s) = c :: s := by
  simp [skipBlanks, h]

theorem stops_cons {c : Char} {s : List Char} (h : c = ',' ∨ c = ']' ∨ c = '\x7d') :
    Stops (c :: s) := by
  intro d hd
  obtain rfl : c = d := Option.some.inj hd
  exact h

section Items

variable {α : Type} {element : List Char → Option (α × List Char)} {text : α → List Char}
  {close : Char}

/-- The texts of the items after the first, and the end. -/
def tailText (text : α → List Char) (close : Char) (xs : List α) : List Char :=
  xs.flatMap (fun x => ',' :: text x) ++ [close]

theorem length_lt_tailText (text : α → List Char) (close : Char) (xs : List α) : xs.length < (tailText text close xs).length := by
  induction xs with
  | nil => simp [tailText]
  | cons x xs ih =>
    simp only [tailText, List.flatMap_cons, List.length_append, List.length_cons] at ih ⊢
    omega

theorem readItems?_tail (hclose : close = ']' ∨ close = '\x7d') {x : α} {xs : List α}
    (hread : ∀ y ∈ x :: xs, ∀ rest, Stops rest → element (text y ++ rest) = some (y, rest))
    {fuel : Nat} (hfuel : xs.length < fuel) (rest : List Char) :
    readItems? element close fuel (text x ++ (tailText text close xs ++ rest)) =
      some (x :: xs, rest) := by
  induction xs generalizing x fuel with
  | nil =>
    obtain ⟨fuel, rfl⟩ := Nat.exists_eq_add_one_of_ne_zero (Nat.ne_of_gt hfuel)
    have hblank : isBlank close = false := by rcases hclose with rfl | rfl <;> rfl
    have hx := hread x (by simp) (close :: rest) (stops_cons (.inr hclose))
    rw [tailText, List.flatMap_nil, List.nil_append, List.cons_append, List.nil_append, readItems?, hx]
    simp only [skipBlanks_cons hblank, if_true]
  | cons y ys ih =>
    obtain ⟨fuel, rfl⟩ := Nat.exists_eq_add_one_of_ne_zero (Nat.ne_zero_of_lt hfuel)
    have hcomma : ',' ≠ close := by rcases hclose with rfl | rfl <;> decide
    have hrest := ih (x := y) (fun z hz => hread z (List.mem_cons_of_mem _ hz))
      (Nat.lt_of_succ_lt_succ hfuel)
    have hx := hread x (by simp) (',' :: (text y ++ (tailText text close ys ++ rest)))
      (stops_cons (.inl rfl))
    have htail : tailText text close (y :: ys) ++ rest =
        ',' :: (text y ++ (tailText text close ys ++ rest)) := by
      simp [tailText]
    rw [htail, readItems?, hx]
    simp only [skipBlanks_cons (c := ',') rfl, if_neg hcomma, if_true, hrest]
    rfl

theorem readBody?_tail (hclose : close = ']' ∨ close = '\x7d') {x : α} {xs : List α}
    (hread : ∀ y ∈ x :: xs, ∀ rest, Stops rest → element (text y ++ rest) = some (y, rest))
    {c : Char} {more : List Char} (hbegin : text x = c :: more) (hblank : isBlank c = false)
    (hc : c ≠ close) (rest : List Char) :
    readBody? element close (text x ++ (tailText text close xs ++ rest)) = some (x :: xs, rest) := by
  have hlength : xs.length < (text x ++ (tailText text close xs ++ rest)).length := by
    have htail := length_lt_tailText text close xs
    rw [List.length_append, List.length_append]
    omega
  have hitems := readItems?_tail hclose hread hlength rest
  have hskip : skipBlanks (text x ++ (tailText text close xs ++ rest)) =
      c :: (more ++ (tailText text close xs ++ rest)) := by
    rw [hbegin, List.cons_append, skipBlanks_cons hblank]
  rw [readBody?, hskip]
  simp only [if_neg hc]
  exact hitems

end Items

theorem charsItems_eq (xs : List Json) : charsItems xs = tailText chars ']' xs := by
  induction xs with
  | nil => simp [charsItems, tailText]
  | cons x xs ih => simp [charsItems, ih, tailText]

/-- A member as it is written. -/
def memberText (m : String × Json) : List Char := stringChars m.1 ++ ':' :: m.2.chars

theorem charsMembers_eq (members : List (String × Json)) :
    charsMembers members = tailText memberText '\x7d' members := by
  induction members with
  | nil => simp [charsMembers, tailText]
  | cons m members ih =>
    obtain ⟨name, x⟩ := m
    simp [charsMembers, ih, tailText, memberText]

mutual

/-- The numbers of a document, at every depth. -/
def numbers : Json → List JsonNumber
  | .number n => [n]
  | .array items => numbersItems items
  | .object members => numbersMembers members
  | _ => []

def numbersItems : List Json → List JsonNumber
  | [] => []
  | x :: xs => x.numbers ++ numbersItems xs

def numbersMembers : List (String × Json) → List JsonNumber
  | [] => []
  | (_, x) :: rest => x.numbers ++ numbersMembers rest

end

theorem mem_numbersItems {x : Json} {items : List Json} (hx : x ∈ items) {n : JsonNumber}
    (hn : n ∈ x.numbers) : n ∈ numbersItems items := by
  induction items with
  | nil => cases hx
  | cons y ys ih =>
    rw [numbersItems, List.mem_append]
    rcases List.mem_cons.mp hx with rfl | hx
    · exact .inl hn
    · exact .inr (ih hx)

theorem mem_numbersMembers {m : String × Json} {members : List (String × Json)} (hm : m ∈ members)
    {n : JsonNumber} (hn : n ∈ m.2.numbers) : n ∈ numbersMembers members := by
  induction members with
  | nil => cases hm
  | cons o rest ih =>
    rw [numbersMembers, List.mem_append]
    rcases List.mem_cons.mp hm with rfl | hm
    · exact .inl hn
    · exact .inr (ih hm)

theorem depth_le_depthItems {x : Json} {items : List Json} (hx : x ∈ items) :
    x.depth ≤ depthItems items := by
  induction items with
  | nil => cases hx
  | cons y ys ih =>
    rw [depthItems]
    rcases List.mem_cons.mp hx with rfl | hx
    · exact Nat.le_max_left ..
    · exact Nat.le_trans (ih hx) (Nat.le_max_right ..)

theorem depth_le_depthMembers {m : String × Json} {members : List (String × Json)}
    (hm : m ∈ members) : m.2.depth ≤ depthMembers members := by
  induction members with
  | nil => cases hm
  | cons o rest ih =>
    rw [depthMembers]
    rcases List.mem_cons.mp hm with rfl | hm
    · exact Nat.le_max_left ..
    · exact Nat.le_trans (ih hm) (Nat.le_max_right ..)

/-- A blank, or a character with which values of other kinds begin or end. -/
def isOpening (c : Char) : Bool :=
  isBlank c || ['[', ']', '\x7b', '\x7d', '"', 'n', 't', 'f'].contains c

/-- No numeral begins like a value of another kind. -/
theorem isOpening_of_numeral {c : Char} (h : c = '-' ∨ Number.isDigit c = true) :
    isOpening c = false := by
  rcases h with rfl | h
  · decide
  · by_contra hopening
    rw [Bool.not_eq_false, isOpening, Bool.or_eq_true, List.contains_iff_mem] at hopening
    rcases hopening with hblank | hmem
    · simp only [isBlank, Bool.or_eq_true, beq_iff_eq] at hblank
      rcases hblank with ((rfl | rfl) | rfl) | rfl <;> exact absurd h (by decide)
    · simp only [List.mem_cons, List.not_mem_nil, or_false] at hmem
      rcases hmem with rfl | rfl | rfl | rfl | rfl | rfl | rfl | rfl <;> exact absurd h (by decide)

theorem numberText_begins {n : JsonNumber} (h : n.Rereads) :
    ∃ c more, (numberText n).toList = c :: more ∧ isOpening c = false := by
  obtain ⟨c, more, htext, hc⟩ := head_of_read? h
  exact ⟨c, more, htext, isOpening_of_numeral hc⟩

theorem chars_begin {d : Json} (h : ∀ n ∈ d.numbers, n.Rereads) :
    ∃ c more, d.chars = c :: more ∧ isBlank c = false ∧ c ≠ ']' := by
  cases d with
  | null => exact ⟨'n', _, rfl, by decide⟩
  | bool b =>
    cases b with
    | true => exact ⟨'t', _, rfl, by decide⟩
    | false => exact ⟨'f', _, rfl, by decide⟩
  | number n =>
    obtain ⟨c, more, htext, hc⟩ := numberText_begins (h n (by simp [numbers]))
    refine ⟨c, more, htext, ?_⟩
    simp only [isOpening, Bool.or_eq_false_iff] at hc
    refine ⟨hc.1, ?_⟩
    rintro rfl
    exact absurd hc.2 (by decide)
  | string s => exact ⟨'"', _, rfl, by decide⟩
  | array items =>
    cases items with
    | nil => exact ⟨'[', _, rfl, by decide⟩
    | cons x xs => exact ⟨'[', _, rfl, by decide⟩
  | object members =>
    cases members with
    | nil => exact ⟨'\x7b', _, rfl, by decide⟩
    | cons m rest => exact ⟨'\x7b', _, rfl, by decide⟩

theorem readValue?_of_scalar {c : Char} (hblank : isBlank c = false) (hbracket : c ≠ '[')
    (hbrace : c ≠ '\x7b') (limit : Nat) (s : List Char) :
    readValue? limit (c :: s) = readScalar? (c :: s) := by
  cases limit with
  | zero => rfl
  | succ limit =>
    rw [readValue?, skipBlanks_cons hblank]
    simp [hbracket, hbrace]

theorem readScalar?_number {n : JsonNumber} (h : n.Rereads) {rest : List Char}
    (hrest : Stops rest) :
    readScalar? ((numberText n).toList ++ rest) = some (.number n, rest) := by
  obtain ⟨c, more, htext, hc⟩ := numberText_begins h
  have hread := read?_append hrest (s := (numberText n).toList) (by simp [htext])
  rw [h] at hread
  have hblank : isBlank c = false := (Bool.or_eq_false_iff.mp hc).1
  have hnone : ∀ d ∈ ['"', 'n', 't', 'f'], c ≠ d := by
    rintro d hd rfl
    simp only [List.mem_cons, List.not_mem_nil, or_false] at hd
    rcases hd with rfl | rfl | rfl | rfl <;> exact absurd hc (by decide)
  have hquote := hnone '"' (by simp)
  have hn := hnone 'n' (by simp)
  have ht := hnone 't' (by simp)
  have hf := hnone 'f' (by simp)
  rw [htext, List.cons_append] at hread ⊢
  rw [readScalar?, skipBlanks_cons hblank]
  simp [hquote, hn, ht, hf, hread]

theorem readValue?_scalar {d : Json} (h : ∀ n ∈ d.numbers, n.Rereads) (hdepth : d.depth = 0)
    (limit : Nat) {rest : List Char} (hrest : Stops rest) :
    readValue? limit (d.chars ++ rest) = some (d, rest) := by
  cases d with
  | null => exact readValue?_of_scalar (by decide) (by decide) (by decide) limit _
  | bool b =>
    cases b with
    | true => exact readValue?_of_scalar (by decide) (by decide) (by decide) limit _
    | false => exact readValue?_of_scalar (by decide) (by decide) (by decide) limit _
  | number n =>
    have hn := h n (by simp [numbers])
    obtain ⟨c, more, htext, hc⟩ := numberText_begins hn
    rw [chars, ← readScalar?_number hn hrest, htext, List.cons_append]
    simp only [isOpening, Bool.or_eq_false_iff] at hc
    refine readValue?_of_scalar hc.1 ?_ ?_ limit _
    · rintro rfl
      exact absurd hc.2 (by decide)
    · rintro rfl
      exact absurd hc.2 (by decide)
  | string s =>
    obtain ⟨inside, htext, hread⟩ := readString?_stringChars s rest
    rw [chars, htext, readValue?_of_scalar (by decide) (by decide) (by decide), readScalar?,
      skipBlanks_cons (by decide)]
    simp only [hread, Option.map_some, String.ofList_toList]
  | array items => exact absurd hdepth (by simp [depth])
  | object members => exact absurd hdepth (by simp [depth])

theorem readMember?_memberText {value : List Char → Option (Json × List Char)} {m : String × Json}
    {rest : List Char} (h : value (m.2.chars ++ rest) = some (m.2, rest)) :
    readMember? value (memberText m ++ rest) = some (m, rest) := by
  obtain ⟨inside, htext, hread⟩ := readString?_stringChars m.1 (':' :: (m.2.chars ++ rest))
  have hall : memberText m ++ rest = '"' :: inside := by
    rw [← htext, memberText]
    simp
  rw [hall, readMember?, skipBlanks_cons (by decide)]
  simp only [hread, skipBlanks_cons (c := ':') (by decide), h, Option.map_some,
    String.ofList_toList]

/-- Inside a longer text, a document is read back to its end. -/
theorem readValue?_chars {d : Json} (h : ∀ n ∈ d.numbers, n.Rereads) {limit : Nat}
    (hdepth : d.depth ≤ limit) {rest : List Char} (hrest : Stops rest) :
    readValue? limit (d.chars ++ rest) = some (d, rest) := by
  induction limit generalizing d rest with
  | zero => exact readValue?_scalar h (Nat.le_zero.mp hdepth) 0 hrest
  | succ limit ih =>
    cases d with
    | null | bool b | number n | string s => exact readValue?_scalar h rfl _ hrest
    | array items =>
      cases items with
      | nil => rfl
      | cons x xs =>
        have hitems : ∀ y ∈ x :: xs, ∀ rest, Stops rest →
            readValue? limit (y.chars ++ rest) = some (y, rest) := by
          intro y hy rest hrest
          have hlow := depth_le_depthItems hy
          rw [depth] at hdepth
          exact ih (fun n hn => h n (mem_numbersItems hy hn)) (by omega) hrest
        obtain ⟨c, more, hbegin, hblank, hc⟩ :=
          chars_begin fun n hn => h n (mem_numbersItems (List.mem_cons_self (a := x)) hn)
        have hbody := readBody?_tail (.inl rfl) hitems hbegin hblank hc rest
        have htext : (array (x :: xs)).chars ++ rest =
            '[' :: (x.chars ++ (tailText chars ']' xs ++ rest)) := by
          simp [chars, charsItems_eq]
        rw [htext, readValue?, skipBlanks_cons (by decide)]
        simp only [hbody, Option.map_some]
    | object members =>
      cases members with
      | nil => rfl
      | cons m others =>
        have hmembers : ∀ o ∈ m :: others, ∀ rest, Stops rest →
            readMember? (readValue? limit) (memberText o ++ rest) = some (o, rest) := by
          intro o ho rest hrest
          have hlow := depth_le_depthMembers ho
          rw [depth] at hdepth
          exact readMember?_memberText
            (ih (fun n hn => h n (mem_numbersMembers ho hn)) (by omega) hrest)
        have hbody := readBody?_tail (.inr rfl) hmembers (c := '"') rfl (by decide) (by decide) rest
        have htext : (object (m :: others)).chars ++ rest =
            '\x7b' :: (memberText m ++ (tailText memberText '\x7d' others ++ rest)) := by
          obtain ⟨name, x⟩ := m
          simp [chars, charsMembers_eq, memberText]
        rw [htext, readValue?, skipBlanks_cons (by decide)]
        simp only [hbody, Option.map_some]

/-- A document is what its text reads as, members as they stand, if this is so for each of its
numbers, and if it is nested as deep as can be read. -/
theorem parseMembers?_render {d : Json} (h : ∀ n ∈ d.numbers, n.Rereads) (hdepth : d.depth ≤ maxDepth) :
    parseMembers? d.render = some d := by
  have hstop : Stops [] := nofun
  have hread := readValue?_chars h hdepth hstop
  rw [List.append_nil] at hread
  rw [parseMembers?, render, String.toList_ofList, hread]
  rfl

/-- Members named twice are merged then. -/
theorem parse?_render {d : Json} (h : ∀ n ∈ d.numbers, n.Rereads) (hdepth : d.depth ≤ maxDepth) :
    parse? d.render = some d.merged := by
  rw [parse?, parseMembers?_render h hdepth]
  rfl

/-- The document is what its text reads as. -/
def Rereads (d : Json) : Prop := parse? d.render = some d

/-- A document of moderate depth that names each member once is what its text reads as, if this is
so for each of its numbers. -/
theorem rereads_of_numbers {d : Json} (h : ∀ n ∈ d.numbers, n.Rereads) (hdepth : d.depth ≤ maxDepth)
    (hmerged : d.merged = d) : d.Rereads := by
  rw [Rereads, parse?_render h hdepth, hmerged]

theorem mergedMembers_eq_self {members : List (String × Json)}
    (h : ∀ m ∈ members, m.2.merged = m.2) : mergedMembers members = members := by
  induction members with
  | nil => rfl
  | cons m rest ih =>
    obtain ⟨name, x⟩ := m
    rw [mergedMembers, h (name, x) (by simp), ih fun o ho => h o (List.mem_cons_of_mem _ ho)]

mutual

theorem merged_merged : (d : Json) → d.merged.merged = d.merged
  | .null => rfl
  | .bool _ => rfl
  | .number _ => rfl
  | .string _ => rfl
  | .array items => congrArg Json.array (mergedItems_merged items)
  | .object members => by
    have hfixed : ∀ m ∈ (Keyed.ofList (mergedMembers members)).entries, m.2.merged = m.2 :=
      fun m hm => merged_of_mem members m (Keyed.mem_entries_ofList hm)
    have hnodup := Keyed.nodup_keys_ofList (mergedMembers members)
    rw [merged, merged, mergedMembers_eq_self hfixed, Keyed.entries_ofList hnodup]

theorem mergedItems_merged : (items : List Json) → mergedItems (mergedItems items) = mergedItems items
  | [] => rfl
  | x :: xs => congrArg₂ List.cons (merged_merged x) (mergedItems_merged xs)

theorem merged_of_mem : (members : List (String × Json)) →
    ∀ m ∈ mergedMembers members, m.2.merged = m.2
  | [], _, hm => nomatch hm
  | (name, x) :: rest, m, hm => by
    rw [mergedMembers, List.mem_cons] at hm
    rcases hm with rfl | hm
    · exact merged_merged x
    · exact merged_of_mem rest m hm

end

theorem depthMembers_le {members : List (String × Json)} {limit : Nat}
    (h : ∀ m ∈ members, m.2.depth ≤ limit) : depthMembers members ≤ limit := by
  induction members with
  | nil => exact Nat.zero_le limit
  | cons m rest ih =>
    rw [depthMembers]
    have hfirst := h m (by simp)
    have hothers := ih fun o ho => h o (List.mem_cons_of_mem _ ho)
    omega

mutual

theorem depth_merged_le : (d : Json) → d.merged.depth ≤ d.depth
  | .null => Nat.le_refl _
  | .bool _ => Nat.le_refl _
  | .number _ => Nat.le_refl _
  | .string _ => Nat.le_refl _
  | .array items => Nat.succ_le_succ (depthItems_merged_le items)
  | .object members => by
    have hall := depth_of_mem_merged members
    rw [merged, depth, depth]
    have hlow := depthMembers_le fun m hm => hall m (Keyed.mem_entries_ofList hm)
    omega

theorem depthItems_merged_le : (items : List Json) →
    depthItems (mergedItems items) ≤ depthItems items
  | [] => Nat.le_refl _
  | x :: xs => by
    have hx := depth_merged_le x
    have hxs := depthItems_merged_le xs
    rw [mergedItems, depthItems, depthItems]
    omega

theorem depth_of_mem_merged : (members : List (String × Json)) →
    ∀ m ∈ mergedMembers members, m.2.depth ≤ depthMembers members
  | [], _, hm => nomatch hm
  | (name, x) :: rest, m, hm => by
    rw [mergedMembers, List.mem_cons] at hm
    rw [depthMembers]
    rcases hm with rfl | hm
    · exact Nat.le_trans (depth_merged_le x) (Nat.le_max_left ..)
    · exact Nat.le_trans (depth_of_mem_merged rest m hm) (Nat.le_max_right ..)

end

section Items

variable {α : Type} {element : List Char → Option (α × List Char)} {close : Char} {P : α → Prop}

theorem readItems?_forall (h : ∀ s x rest, element s = some (x, rest) → P x) {fuel : Nat}
    {s rest : List Char} {xs : List α} (hread : readItems? element close fuel s = some (xs, rest)) :
    ∀ x ∈ xs, P x := by
  induction fuel generalizing s xs with
  | zero => cases hread
  | succ fuel ih =>
    rw [readItems?] at hread
    cases hx : element s with
    | none =>
      rw [hx] at hread
      cases hread
    | some r =>
      obtain ⟨x, left⟩ := r
      have hfirst := h s x left hx
      simp only [hx] at hread
      split at hread
      · cases hread
      · split at hread
        · cases hread
          simpa using hfirst
        · split at hread
          · obtain ⟨r, hr, heq⟩ := Option.map_eq_some_iff.mp hread
            cases heq
            intro y hy
            rcases List.mem_cons.mp hy with rfl | hy
            · exact hfirst
            · exact ih hr y hy
          · cases hread

theorem readBody?_forall (h : ∀ s x rest, element s = some (x, rest) → P x) {s rest : List Char}
    {xs : List α} (hread : readBody? element close s = some (xs, rest)) : ∀ x ∈ xs, P x := by
  rw [readBody?] at hread
  split at hread
  · cases hread
  · split at hread
    · cases hread
      intro x hx
      cases hx
    · exact readItems?_forall h hread

end Items

theorem depth_of_readScalar? {s rest : List Char} {d : Json}
    (h : readScalar? s = some (d, rest)) : d.depth = 0 := by
  rw [readScalar?] at h
  split at h
  all_goals
    obtain ⟨r, -, heq⟩ := Option.map_eq_some_iff.mp h
    cases heq
    rfl

theorem depthItems_le {items : List Json} {limit : Nat} (h : ∀ x ∈ items, x.depth ≤ limit) :
    depthItems items ≤ limit := by
  induction items with
  | nil => exact Nat.zero_le limit
  | cons x xs ih =>
    rw [depthItems]
    have hfirst := h x (by simp)
    have hothers := ih fun y hy => h y (List.mem_cons_of_mem _ hy)
    omega

theorem depth_of_readMember? {value : List Char → Option (Json × List Char)} {limit : Nat}
    (h : ∀ s d rest, value s = some (d, rest) → d.depth ≤ limit) (s : List Char)
    (m : String × Json) (rest : List Char) (hread : readMember? value s = some (m, rest)) :
    m.2.depth ≤ limit := by
  rw [readMember?] at hread
  split at hread
  · split at hread
    · cases hread
    · split at hread
      · obtain ⟨r, hr, heq⟩ := Option.map_eq_some_iff.mp hread
        cases heq
        exact h _ _ _ hr
      · cases hread
  · cases hread

/-- No document is read that is nested deeper than the limit. -/
theorem depth_of_readValue? {limit : Nat} {s rest : List Char} {d : Json}
    (h : readValue? limit s = some (d, rest)) : d.depth ≤ limit := by
  induction limit generalizing s rest d with
  | zero => exact Nat.le_of_eq (depth_of_readScalar? h)
  | succ limit ih =>
    rw [readValue?] at h
    split at h
    · obtain ⟨r, hr, heq⟩ := Option.map_eq_some_iff.mp h
      cases heq
      have hitems := readBody?_forall (fun _ _ _ => ih) hr
      exact Nat.succ_le_succ (depthItems_le hitems)
    · obtain ⟨r, hr, heq⟩ := Option.map_eq_some_iff.mp h
      cases heq
      have hmembers := readBody?_forall (depth_of_readMember? fun _ _ _ => ih) hr
      exact Nat.succ_le_succ (depthMembers_le hmembers)
    · have hzero := depth_of_readScalar? h
      omega

theorem depth_of_parseMembers? {s : String} {d : Json} (h : parseMembers? s = some d) :
    d.depth ≤ maxDepth := by
  rw [parseMembers?] at h
  split at h
  next d rest hread =>
    split at h
    · cases h
      exact depth_of_readValue? hread
    · cases h
  next => cases h

/-- A document that was read is what its text reads as, if this is so for each of its numbers. -/
theorem rereads_of_parse? {s : String} {d : Json} (hparse : parse? s = some d)
    (h : ∀ n ∈ d.numbers, n.Rereads) : d.Rereads := by
  obtain ⟨e, he, rfl⟩ := Option.map_eq_some_iff.mp hparse
  have hdepth := Nat.le_trans (depth_merged_le e) (depth_of_parseMembers? he)
  exact rereads_of_numbers h hdepth (merged_merged e)

end Json
end Relata
