import Relata.Proofs.Opening

/-!
What expressions and lists of them end with. Main statement: an insertion or an update whose last
token can end no expression has a clause for what it returns.
-/
namespace Relata.Sqlite

/-- Tokens that an expression can end with. -/
def TokenKind.closes : TokenKind → Bool
  | .symbol s => s == ")"
  | .illegal => false
  | _ => true

namespace Parser

variable {ts mid left : Rest} {t : Token}

/-- What was read before `left` is not empty, and ends as an expression can. -/
def Closed (ts left : Rest) : Prop := ∃ front t, ts = front ++ t :: left ∧ t.kind.closes = true

theorem closed_head (h : t.kind.closes = true) : Closed (t :: left) left := ⟨[], t, rfl, h⟩

theorem Closed.after (hts : mid <:+ ts) (h : Closed mid left) : Closed ts left := by
  obtain ⟨more, rfl⟩ := hts
  obtain ⟨front, t, rfl, ht⟩ := h
  exact ⟨more ++ front, t, (List.append_assoc ..).symm, ht⟩

theorem Closed.suffix (h : Closed ts left) : left <:+ ts := by
  obtain ⟨front, t, rfl, -⟩ := h
  exact ⟨front ++ [t], by simp⟩

theorem Closed.trans (h : Closed ts mid) (h' : Closed mid left) : Closed ts left := h'.after h.suffix

/-- Nothing more, or more that ends as an expression can. -/
theorem Closed.more (h : Closed ts mid) (h' : left = mid ∨ Closed mid left) : Closed ts left := by
  rcases h' with rfl | h'
  · exact h
  · exact h.trans h'

section Small

theorem word?_closed {w : String} (h : word? w ts = some left) : Closed ts left := by
  obtain ⟨t, s, rfl, ht, -⟩ := word?_some h
  exact closed_head (by rw [ht]; rfl)

theorem symbol?_some {s : String} (h : symbol? s ts = some left) :
    ∃ t, ts = t :: left ∧ t.kind = .symbol s := by
  unfold symbol? at h
  split at h
  next t rest =>
    split at h
    next hs =>
      cases h
      exact ⟨t, rfl, hs⟩
    next => cases h
  next => cases h

theorem symbol?_suffix {s : String} (h : symbol? s ts = some left) : left <:+ ts := by
  obtain ⟨t, rfl, -⟩ := symbol?_some h
  exact List.suffix_cons t left

theorem close?_closed (h : symbol? ")" ts = some left) : Closed ts left := by
  obtain ⟨t, rfl, ht⟩ := symbol?_some h
  exact closed_head (by rw [ht]; rfl)

theorem words?_closed {w : String} {ws : List String} (h : words? (w :: ws) ts = some left) :
    Closed ts left := by
  induction ws generalizing w ts with
  | nil =>
    obtain ⟨mid, hmid, h⟩ := of_bind_some h
    cases h
    exact word?_closed hmid
  | cons w' ws ih =>
    obtain ⟨mid, hmid, h⟩ := of_bind_some h
    exact (word?_closed hmid).trans (ih h)

theorem name?_closed {n : Name} (h : name? ts = some (n, left)) : Closed ts left := by
  unfold name? at h
  split at h
  next t rest =>
    split at h
    next s hs =>
      split at h
      · cases h
      · cases h
        exact closed_head (by rw [hs]; rfl)
    next s hs =>
      cases h
      exact closed_head (by rw [hs]; rfl)
    next => cases h
  next => cases h

theorem nameText?_closed {n : String} (h : nameText? ts = some (n, left)) : Closed ts left := by
  obtain ⟨r, hr, hpair⟩ := Option.map_eq_some_iff.mp h
  cases hpair
  exact name?_closed hr

theorem firstOf_some {α : Type} {choices : List (α × Option Rest)} {x : α}
    (h : firstOf choices = some (x, left)) : ∃ c ∈ choices, c.2 = some left := by
  obtain ⟨c, hc, hmap⟩ := List.exists_of_findSome?_eq_some h
  obtain ⟨ts, hts, hpair⟩ := Option.map_eq_some_iff.mp hmap
  cases hpair
  exact ⟨c, hc, hts⟩

theorem nullTest?_closed {op : BinaryOp} (h : nullTest? ts = some (op, left)) : Closed ts left := by
  obtain ⟨c, hc, h⟩ := firstOf_some h
  simp only [List.mem_cons, List.not_mem_nil, or_false] at hc
  rcases hc with rfl | rfl | rfl
  · exact word?_closed h
  · exact word?_closed h
  · exact words?_closed h

/-- What is left after a choice is a suffix, if it is after each of them. -/
theorem firstOf_suffix {α : Type} {choices : List (α × Option Rest)} {x : α}
    (hall : ∀ c ∈ choices, ∀ left, c.2 = some left → left <:+ ts)
    (h : firstOf choices = some (x, left)) : left <:+ ts := by
  obtain ⟨c, hc, h⟩ := firstOf_some h
  exact hall c hc left h

theorem operator?_suffix {level : Nat} {op : BinaryOp} (h : operator? level ts = some (op, left)) :
    left <:+ ts := by
  have hsymbol (s : String) : ∀ left, symbol? s ts = some left → left <:+ ts :=
    fun _ => symbol?_suffix
  have hword (w : String) : ∀ left, word? w ts = some left → left <:+ ts :=
    fun _ hw => (word?_closed hw).suffix
  have hwords (w : String) (ws : List String) :
      ∀ left, words? (w :: ws) ts = some left → left <:+ ts :=
    fun _ hw => (words?_closed hw).suffix
  unfold operator? at h
  split at h
  case h_8 => cases h
  all_goals
    refine firstOf_suffix ?_ h
    simp only [List.forall_mem_cons, List.not_mem_nil, false_implies, implies_true, and_true]
    and_intros
  all_goals first | exact hsymbol _ | exact hword _ | exact hwords _ _

end Small

/-- What each part of the reading of expressions leaves, within so much fuel. -/
structure Ended (fuel : Nat) : Prop where
  expr {level : Nat} {ts left : Rest} {e : Expr} (h : expr? fuel level ts = some (e, left)) :
    Closed ts left
  operations {level : Nat} {a : Expr} {ts left : Rest} {e : Expr}
    (h : operations? fuel level a ts = some (e, left)) : left = ts ∨ Closed ts left
  primary {ts left : Rest} {e : Expr} (h : primary? fuel ts = some (e, left)) : Closed ts left
  named {ts left : Rest} {e : Expr} (h : named? fuel ts = some (e, left)) : Closed ts left
  call {f : String} {ts left : Rest} {e : Expr} (h : call? fuel f ts = some (e, left)) :
    Closed ts left
  args {ts left : Rest} {es : List Expr} (h : args? fuel ts = some (es, left)) : Closed ts left
  caseOf {ts left : Rest} {e : Expr} (h : caseOf? fuel ts = some (e, left)) : Closed ts left
  branches {ts left : Rest} {bs : List (Expr × Expr)} (h : branches? fuel ts = some (bs, left)) :
    left = ts ∨ Closed ts left

section Steps

variable {fuel level : Nat} {e a : Expr} (ih : Ended fuel)

include ih

theorem Ended.expr_succ (h : expr? (fuel + 1) level ts = some (e, left)) : Closed ts left := by
  unfold expr? at h
  split at h
  · split at h
    next ts' hnot =>
      obtain ⟨r, hr, hpair⟩ := Option.map_eq_some_iff.mp h
      cases hpair
      exact (word?_closed hnot).trans (ih.expr hr)
    next => exact ih.expr h
  split at h
  · split at h
    next ts' hminus =>
      obtain ⟨r, hr, hpair⟩ := Option.map_eq_some_iff.mp h
      cases hpair
      exact (ih.expr hr).after (symbol?_suffix hminus)
    next ts' hplus _ => exact (ih.expr h).after (symbol?_suffix hplus)
    next => exact ih.primary h
  · split at h
    next a mid ha => exact (ih.expr ha).more (ih.operations h)
    next => cases h

theorem Ended.operations_succ (h : operations? (fuel + 1) level a ts = some (e, left)) :
    left = ts ∨ Closed ts left := by
  unfold operations? at h
  split at h
  next op ts' hop =>
    split at h
    next b mid hb =>
      exact .inr (((ih.expr hb).more (ih.operations h)).after (operator?_suffix hop))
    next => cases h
  next =>
    split at h
    next op ts' hop =>
      split at hop
      · exact .inr ((nullTest?_closed hop).more (ih.operations h))
      · cases hop
    next =>
      cases h
      exact .inl rfl

theorem Ended.primary_succ (h : primary? (fuel + 1) ts = some (e, left)) : Closed ts left := by
  cases ts with
  | nil => cases h
  | cons t rest =>
    unfold primary? at h
    split at h
    next s hs =>
      cases h
      exact closed_head (by rw [hs]; rfl)
    next bs hs =>
      cases h
      exact closed_head (by rw [hs]; rfl)
    next c hs =>
      cases h
      exact closed_head (by rw [hs]; rfl)
    next n hs =>
      obtain ⟨m, -, hpair⟩ := Option.map_eq_some_iff.mp h
      cases hpair
      exact closed_head (by rw [hs]; rfl)
    next hs =>
      split at h
      next a mid ha =>
        obtain ⟨ts, hts, hpair⟩ := Option.map_eq_some_iff.mp h
        cases hpair
        exact ((ih.expr ha).trans (close?_closed hts)).after (List.suffix_cons t rest)
      next => cases h
    next => cases h
    next => cases h
    next =>
      split at h
      next ts hnull =>
        cases h
        exact word?_closed hnull
      next ts hcase _ => exact (word?_closed hcase).trans (ih.caseOf h)
      next => exact ih.named h

theorem Ended.named_succ (h : named? (fuel + 1) ts = some (e, left)) : Closed ts left := by
  unfold named? at h
  split at h
  next => cases h
  next n mid hn =>
    have hname := name?_closed hn
    split at h
    next ts' hdot =>
      obtain ⟨r, hr, hpair⟩ := Option.map_eq_some_iff.mp h
      cases hpair
      exact hname.trans ((name?_closed hr).after (symbol?_suffix hdot))
    next ts' hopen _ =>
      split at h
      next => cases h
      next found last hcall =>
        split at hcall
        · cases hcall
        · cases h
          exact hname.trans ((ih.call hcall).after (symbol?_suffix hopen))
    next =>
      cases h
      exact hname

theorem Ended.call_succ {f : String} (h : call? (fuel + 1) f ts = some (e, left)) :
    Closed ts left := by
  unfold call? at h
  dsimp only at h
  split at h
  next => cases h
  next star es mid hargs =>
    have hclosed : Closed ts mid := by
      split at hargs
      next ts' hstar =>
        obtain ⟨r, hr, hpair⟩ := Option.map_eq_some_iff.mp hargs
        cases hpair
        exact (close?_closed hr).after (symbol?_suffix hstar)
      next ts' hclose _ =>
        cases hargs
        exact close?_closed hclose
      next =>
        split at hargs
        next es last hes =>
          cases hargs
          exact ih.args hes
        next => cases hargs
    split at h
    next =>
      cases h
      exact hclosed
    next ts' hfilter =>
      split at h
      next => cases h
      next ts'' hwhere =>
        split at h
        next => cases h
        next e' last he =>
          obtain ⟨r, hr, hpair⟩ := Option.map_eq_some_iff.mp h
          cases hpair
          obtain ⟨opened, hopen, hwhere⟩ := Option.bind_eq_some_iff.mp hwhere
          have hinside := (ih.expr he).trans (close?_closed hr)
          have hcondition := ((word?_closed hwhere).trans hinside).after (symbol?_suffix hopen)
          exact hclosed.trans ((word?_closed hfilter).trans hcondition)

theorem Ended.args_succ {es : List Expr} (h : args? (fuel + 1) ts = some (es, left)) :
    Closed ts left := by
  unfold args? at h
  split at h
  next => cases h
  next a mid ha =>
    split at h
    next ts' hclose =>
      cases h
      exact (ih.expr ha).trans (close?_closed hclose)
    next ts' hcomma _ =>
      obtain ⟨r, hr, hpair⟩ := Option.map_eq_some_iff.mp h
      cases hpair
      exact (ih.expr ha).trans ((ih.args hr).after (symbol?_suffix hcomma))
    next => cases h

theorem Ended.branches_succ {bs : List (Expr × Expr)}
    (h : branches? (fuel + 1) ts = some (bs, left)) : left = ts ∨ Closed ts left := by
  unfold branches? at h
  split at h
  next =>
    cases h
    exact .inl rfl
  next ts' hwhen =>
    split at h
    next => cases h
    next c mid hc =>
      split at h
      next result last hthen =>
        obtain ⟨r, hr, hpair⟩ := Option.map_eq_some_iff.mp h
        cases hpair
        obtain ⟨inside, hword, hresult⟩ := Option.map_eq_some_iff.mp hthen
        have hbranch := (ih.expr hc).trans ((word?_closed hword).trans (ih.expr hresult))
        exact .inr ((word?_closed hwhen).trans (hbranch.more (ih.branches hr)))
      next => cases h

theorem Ended.caseOf_succ (h : caseOf? (fuel + 1) ts = some (e, left)) : Closed ts left := by
  unfold caseOf? at h
  dsimp only at h
  split at h
  next => cases h
  next operand mid hoperand =>
    have hmid : mid = ts ∨ Closed ts mid := by
      split at hoperand
      next =>
        cases hoperand
        exact .inl rfl
      next =>
        obtain ⟨r, hr, hpair⟩ := Option.map_eq_some_iff.mp hoperand
        cases hpair
        exact .inr (ih.expr hr)
    have hsuffix : mid <:+ ts := hmid.elim (fun heq => heq ▸ List.suffix_refl _) Closed.suffix
    split at h
    next => cases h
    next => cases h
    next bs last _ hbranches =>
      have hlast : last <:+ ts := (ih.branches hbranches).elim (fun heq => heq ▸ hsuffix)
        fun hclosed => hclosed.suffix.trans hsuffix
      split at h
      next =>
        obtain ⟨r, hr, hpair⟩ := Option.map_eq_some_iff.mp h
        cases hpair
        exact (word?_closed hr).after hlast
      next ts' helse =>
        split at h
        next => cases h
        next e' inside he =>
          obtain ⟨r, hr, hpair⟩ := Option.map_eq_some_iff.mp h
          cases hpair
          exact ((word?_closed helse).trans ((ih.expr he).trans (word?_closed hr))).after hlast

end Steps

theorem ended (fuel : Nat) : Ended fuel := by
  induction fuel with
  | zero =>
    constructor
    all_goals
      intros
      rename_i h
      cases h
  | succ fuel ih =>
    exact ⟨ih.expr_succ, ih.operations_succ, ih.primary_succ, ih.named_succ, ih.call_succ,
      ih.args_succ, ih.caseOf_succ, ih.branches_succ⟩

theorem expression?_closed {e : Expr} (h : expression? ts = some (e, left)) : Closed ts left :=
  (ended _).expr h

section Lists

variable {α : Type} {element : Rest → Option (α × Rest)}

/-- A list ends as its last element does. -/
theorem list?_closed (helement : ∀ {ts left x}, element ts = some (x, left) → Closed ts left)
    {fuel : Nat} {xs : List α} (h : list? element fuel ts = some (xs, left)) : Closed ts left := by
  induction fuel generalizing ts xs with
  | zero => cases h
  | succ fuel ih =>
    unfold list? at h
    split at h
    next => cases h
    next x mid hx =>
      split at h
      next =>
        cases h
        exact helement hx
      next ts' hcomma =>
        obtain ⟨r, hr, hpair⟩ := Option.map_eq_some_iff.mp h
        cases hpair
        exact (helement hx).trans ((ih hr).after (symbol?_suffix hcomma))

theorem parenthesised?_closed
    (helement : ∀ {ts left x}, element ts = some (x, left) → Closed ts left) {xs : List α}
    (h : parenthesised? element ts = some (xs, left)) : Closed ts left := by
  obtain ⟨opened, hopen, h⟩ := of_bind_some h
  obtain ⟨⟨ys, mid⟩, hlist, h⟩ := of_bind_some h
  obtain ⟨last, hclose, h⟩ := of_bind_some h
  cases h
  exact ((list?_closed helement hlist).trans (close?_closed hclose)).after (symbol?_suffix hopen)

/-- A part that may be left out ends as it does where it is there. -/
theorem after?_closed {w : String} {ws : List String}
    (hpart : ∀ {ts left x}, element ts = some (x, left) → Closed ts left) {x : Option α}
    (h : after? (w :: ws) element ts = some (x, left)) : left = ts ∨ Closed ts left := by
  unfold after? at h
  split at h
  next =>
    cases h
    exact .inl rfl
  next mid hwords =>
    obtain ⟨r, hr, hpair⟩ := Option.map_eq_some_iff.mp h
    cases hpair
    exact .inr ((words?_closed hwords).trans (hpart hr))

end Lists

/-- A list has an element. -/
theorem list?_ne_nil {α : Type} {element : Rest → Option (α × Rest)} {fuel : Nat} {xs : List α}
    (h : list? element fuel ts = some (xs, left)) : xs ≠ [] := by
  cases fuel with
  | zero => cases h
  | succ fuel =>
    unfold list? at h
    split at h
    next => cases h
    next =>
      split at h
      next =>
        cases h
        exact List.cons_ne_nil _ _
      next =>
        obtain ⟨r, -, hpair⟩ := Option.map_eq_some_iff.mp h
        cases hpair
        exact List.cons_ne_nil _ _

/-- What is returned is left out only where nothing stands for it. -/
theorem returning?_nil (h : returning? ts = some ([], left)) : left = ts := by
  obtain ⟨⟨found, last⟩, hfound, hpair⟩ := Option.map_eq_some_iff.mp h
  obtain ⟨hnone, rfl⟩ := Prod.mk.inj hpair
  unfold after? at hfound
  split at hfound
  next =>
    cases hfound
    rfl
  next mid hwords =>
    obtain ⟨r, hr, hpair⟩ := Option.map_eq_some_iff.mp hfound
    obtain ⟨rfl, rfl⟩ := Prod.mk.inj hpair
    exact absurd hnone (list?_ne_nil hr)

theorem conflict?_suffix {conflict : Conflict} (h : conflict? ts = some (conflict, left)) :
    left <:+ ts := by
  unfold conflict? at h
  split at h
  next =>
    cases h
    exact List.suffix_refl ts
  next mid hor =>
    obtain ⟨c, hc, h⟩ := firstOf_some h
    have hchoice : left <:+ mid := by
      simp only [List.mem_cons, List.not_mem_nil, or_false] at hc
      rcases hc with rfl | rfl | rfl | rfl | rfl
      all_goals exact (word?_closed h).suffix
    exact hchoice.trans (word?_closed hor).suffix

theorem set?_closed {set : String × Expr} (h : set? ts = some (set, left)) : Closed ts left := by
  obtain ⟨⟨name, mid⟩, hname, h⟩ := of_bind_some h
  obtain ⟨last, hequal, h⟩ := of_bind_some h
  obtain ⟨⟨e, last'⟩, he, h⟩ := of_bind_some h
  cases h
  exact (nameText?_closed hname).trans ((expression?_closed he).after (symbol?_suffix hequal))

/-- The part of an insertion that begins with its values. -/
theorem values_closed {conflict conflict' : Conflict} {table table' : String}
    {columns columns' : Option (List String)} {rows : List (List Expr)}
    (h : (do
        let ts ← word? "values" ts
        let (rows, ts) ← list? (parenthesised? expression?) ts.length ts
        let (returning, ts) ← returning? ts
        return (Statement.insert conflict' table' columns' rows returning, ts)) =
      some (.insert conflict table columns rows [], left)) : Closed ts left := by
  obtain ⟨afterWord, hword, h⟩ := of_bind_some h
  obtain ⟨⟨rows', afterRows⟩, hrows, h⟩ := of_bind_some h
  obtain ⟨⟨returning, last⟩, hreturning, h⟩ := of_bind_some h
  cases h
  obtain rfl := returning?_nil hreturning
  exact (word?_closed hword).trans (list?_closed (parenthesised?_closed expression?_closed) hrows)

/-- An insertion that returns nothing ends with its values. -/
theorem insert?_closed {conflict : Conflict} {table : String} {columns : Option (List String)}
    {rows : List (List Expr)}
    (h : insert? ts = some (.insert conflict table columns rows [], left)) : Closed ts left := by
  obtain ⟨⟨conflict', afterConflict⟩, hconflict, h⟩ := of_bind_some h
  obtain ⟨afterInto, hinto, h⟩ := of_bind_some h
  obtain ⟨⟨table', afterTable⟩, htable, h⟩ := of_bind_some h
  have hfront : Closed ts afterTable :=
    ((word?_closed hinto).trans (nameText?_closed htable)).after (conflict?_suffix hconflict)
  dsimp only at h
  split at h
  next afterValues hvalues =>
    obtain ⟨⟨returning, last⟩, hreturning, h⟩ := of_bind_some h
    cases h
    obtain rfl := returning?_nil hreturning
    exact hfront.trans (words?_closed hvalues)
  next =>
    split at h
    next =>
      obtain ⟨⟨columns', afterColumns⟩, hcolumns, h⟩ := of_bind_some h
      obtain ⟨r, hr, hpair⟩ := Option.map_eq_some_iff.mp hcolumns
      cases hpair
      exact hfront.trans ((parenthesised?_closed nameText?_closed hr).trans (values_closed h))
    next => exact hfront.trans (values_closed h)

/-- An update that returns nothing ends with its condition, or with what it sets. -/
theorem update?_closed {conflict : Conflict} {table : String} {sets : List (String × Expr)}
    {condition : Option Expr}
    (h : update? ts = some (.update conflict table sets condition [], left)) : Closed ts left := by
  obtain ⟨⟨conflict', afterConflict⟩, hconflict, h⟩ := of_bind_some h
  obtain ⟨⟨table', afterTable⟩, htable, h⟩ := of_bind_some h
  obtain ⟨afterWord, hword, h⟩ := of_bind_some h
  obtain ⟨⟨sets', afterSets⟩, hsets, h⟩ := of_bind_some h
  obtain ⟨⟨condition', afterCondition⟩, hcondition, h⟩ := of_bind_some h
  obtain ⟨⟨returning, last⟩, hreturning, h⟩ := of_bind_some h
  cases h
  obtain rfl := returning?_nil hreturning
  have hfront := (nameText?_closed htable).after (conflict?_suffix hconflict)
  have hset := hfront.trans ((word?_closed hword).trans (list?_closed set?_closed hsets))
  exact hset.more (after?_closed expression?_closed hcondition)

end Parser

end Relata.Sqlite
