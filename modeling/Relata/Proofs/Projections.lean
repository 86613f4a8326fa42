import Mathlib.Data.List.Forall2
import Mathlib.Data.List.Perm.Basic
import Relata.Model
import Relata.Proofs.Ending
import Relata.Proofs.Registry
import Relata.Proofs.Rereading

/-!
Columns in which loaded relations come. Each row that a model finds holds documents in them, as far as
the texts there are documents. Main statement: nothing else changes in the rows, and neither the order
in which the relations are named nor how often they are read again makes a difference.
-/
namespace Relata

section Fold

variable {α β : Type} {f : β → α → β} [RightCommutative f]

/-- A step that comes in a run changes nothing when it is made before it as well. -/
theorem foldl_absorb (hidem : ∀ b x, f (f b x) x = f b x) {l : List α} {x : α} (hx : x ∈ l) (b : β) :
    l.foldl f (f b x) = l.foldl f b := by
  induction l generalizing b with
  | nil => cases hx
  | cons y l ih =>
    rw [List.foldl_cons, List.foldl_cons]
    rcases List.mem_cons.mp hx with rfl | hx
    · rw [hidem]
    · have hcomm : f (f b x) y = f (f b y) x := RightCommutative.right_comm b x y
      rw [hcomm, ih hx]

theorem foldl_absorb_all (hidem : ∀ b x, f (f b x) x = f b x) {l l' : List α} (h : ∀ x ∈ l', x ∈ l)
    (b : β) : l.foldl f (l'.foldl f b) = l.foldl f b := by
  induction l' generalizing b with
  | nil => rfl
  | cons x l' ih =>
    obtain ⟨hx, hl'⟩ := List.forall_mem_cons.mp h
    rw [List.foldl_cons, ih hl', foldl_absorb hidem hx]

/-- Only which steps a run has makes a difference. -/
theorem foldl_congr_mem (hidem : ∀ b x, f (f b x) x = f b x) {l l' : List α}
    (h : ∀ x, x ∈ l' ↔ x ∈ l) (b : β) : l'.foldl f b = l.foldl f b :=
  calc l'.foldl f b = l'.foldl f (l.foldl f b) := (foldl_absorb_all hidem (fun x => (h x).mpr) b).symm
    _ = (l ++ l').foldl f b := List.foldl_append.symm
    _ = (l' ++ l).foldl f b := List.perm_append_comm.foldl_eq b
    _ = l.foldl f (l'.foldl f b) := List.foldl_append
    _ = l.foldl f b := foldl_absorb_all hidem (fun x => (h x).mp) b

end Fold

namespace Keyed

variable {α : Type} {k : Keyed α} {name other : String} {f g : α → α} {x : α}

def adjustEntry (name : String) (f : α → α) : List (String × α) → List (String × α)
  | [] => []
  | (n, x) :: rest => if n = name then (n, f x) :: rest else (n, x) :: adjustEntry name f rest

/-- Puts what `f` makes of the item of a name in its place, if there is one. -/
def adjust (k : Keyed α) (name : String) (f : α → α) : Keyed α := ⟨adjustEntry name f k.entries⟩

@[simp] theorem keys_adjust (k : Keyed α) (name : String) (f : α → α) : (k.adjust name f).keys = k.keys := by
  unfold keys adjust
  induction k.entries with
  | nil => rfl
  | cons e l ih =>
    by_cases hn : e.1 = name
    · simp [adjustEntry, hn]
    · simp [adjustEntry, hn, ih]

theorem get?_adjust (k : Keyed α) (name other : String) (f : α → α) :
    (k.adjust name f).get? other = if other = name then (k.get? other).map f else k.get? other := by
  unfold get? adjust
  induction k.entries with
  | nil => simp [adjustEntry]
  | cons e l ih =>
    obtain ⟨n, x⟩ := e
    rw [adjustEntry]
    split
    next hn =>
      subst hn
      rw [lookup_cons_eq_ite, lookup_cons_eq_ite]
      split <;> rfl
    next hn =>
      rw [lookup_cons_eq_ite, lookup_cons_eq_ite, ih]
      by_cases ho : other = n
      · simp [ho, hn]
      · simp [ho]

theorem adjust_adjust (k : Keyed α) (name : String) (f g : α → α) :
    (k.adjust name g).adjust name f = k.adjust name (f ∘ g) := by
  have hentries (l : List (String × α)) :
      adjustEntry name f (adjustEntry name g l) = adjustEntry name (f ∘ g) l := by
    induction l with
    | nil => rfl
    | cons e l ih =>
      by_cases hn : e.1 = name
      · simp [adjustEntry, hn]
      · simp [adjustEntry, hn, ih]
  exact congrArg mk (hentries k.entries)

theorem adjust_comm (k : Keyed α) (hne : name ≠ other) (f g : α → α) :
    (k.adjust name f).adjust other g = (k.adjust other g).adjust name f := by
  have hentries (l : List (String × α)) : adjustEntry other g (adjustEntry name f l) =
      adjustEntry name f (adjustEntry other g l) := by
    induction l with
    | nil => rfl
    | cons e l ih =>
      by_cases hn : e.1 = name
      · simp [adjustEntry, hn, hne]
      · by_cases ho : e.1 = other
        · simp [adjustEntry, ho, hne.symm]
        · simp [adjustEntry, hn, ho, ih]
  exact congrArg mk (hentries k.entries)

instance : RightCommutative fun (k : Keyed α) name => k.adjust name f where
  right_comm k name other := by
    by_cases h : name = other
    · rw [h]
    · exact adjust_comm k h f f

theorem insert_eq_adjust (h : k.get? name = some x) : k.insert name (f x) = k.adjust name f := by
  have hentries (l : List (String × α)) (hl : l.lookup name = some x) :
      insertEntry name (f x) l = adjustEntry name f l := by
    induction l with
    | nil => cases hl
    | cons e l ih =>
      obtain ⟨n, y⟩ := e
      rw [lookup_cons_eq_ite] at hl
      by_cases hn : n = name
      · rw [if_pos hn.symm] at hl
        simp [insertEntry, adjustEntry, hn, Option.some.inj hl]
      · rw [if_neg fun heq => hn heq.symm] at hl
        simp [insertEntry, adjustEntry, hn, ih hl]
  exact congrArg mk (hentries k.entries h)

theorem adjust_eq_self (h : ∀ x, k.get? name = some x → f x = x) : k.adjust name f = k := by
  have hentries (l : List (String × α)) (hl : ∀ x, l.lookup name = some x → f x = x) :
      adjustEntry name f l = l := by
    induction l with
    | nil => rfl
    | cons e l ih =>
      obtain ⟨n, y⟩ := e
      simp only [lookup_cons_eq_ite] at hl
      by_cases hn : n = name
      · simp [adjustEntry, hn, hl y (if_pos hn.symm)]
      · have hrest := ih fun x hx => hl x (by rwa [if_neg fun heq => hn heq.symm])
        simp [adjustEntry, hn, hrest]
  exact congrArg mk (hentries k.entries h)

def adjustAll (k : Keyed α) (names : List String) (f : α → α) : Keyed α :=
  names.foldl (fun k name => k.adjust name f) k

@[simp] theorem keys_adjustAll (k : Keyed α) (names : List String) (f : α → α) :
    (k.adjustAll names f).keys = k.keys := by
  induction names generalizing k with
  | nil => rfl
  | cons name names ih => exact (ih _).trans (keys_adjust k name f)

section Idempotent

variable (hf : ∀ x, f (f x) = f x)
include hf

theorem get?_adjustAll (k : Keyed α) (names : List String) (other : String) :
    (k.adjustAll names f).get? other =
      if other ∈ names then (k.get? other).map f else k.get? other := by
  induction names generalizing k with
  | nil => simp [adjustAll]
  | cons name names ih =>
    have hstep : k.adjustAll (name :: names) f = (k.adjust name f).adjustAll names f := rfl
    rw [hstep, ih, get?_adjust]
    by_cases hn : other = name
    · simp [hn, Function.comp_def, hf]
    · simp [hn]

theorem adjust_idem (k : Keyed α) (name : String) :
    (k.adjust name f).adjust name f = k.adjust name f := by
  rw [adjust_adjust, show f ∘ f = f from funext hf]

theorem adjustAll_congr {names names' : List String} (h : ∀ name, name ∈ names' ↔ name ∈ names)
    (k : Keyed α) : k.adjustAll names' f = k.adjustAll names f :=
  foldl_congr_mem (adjust_idem hf) h k

theorem adjustAll_adjustAll {names names' : List String}
    (h : ∀ name, name ∈ names' ↔ name ∈ names) (k : Keyed α) :
    (k.adjustAll names f).adjustAll names' f = k.adjustAll names f := by
  rw [adjustAll_congr hf h]
  exact foldl_absorb_all (adjust_idem hf) (fun _ => id) k

end Idempotent

end Keyed

/-- The document that a text is, if it is one, and any other value as it is. -/
def Value.asDocument : Value → Value
  | .string text =>
    match Json.parse? text with
    | some d => .json d
    | none => .string text
  | v => v

theorem Value.asDocument_asDocument (v : Value) : v.asDocument.asDocument = v.asDocument := by
  cases v with
  | string text => cases h : Json.parse? text <;> simp [asDocument, h]
  | _ => rfl

/-- What becomes of a value in a row when the documents of these relations are read. -/
inductive Value.Becomes (relations : List String) (name : String) : Value → Value → Prop
  | document {text : String} {d : Json} (hname : name ∈ relations) (h : Json.parse? text = some d) :
    Becomes relations name (.string text) (.json d)
  | kept {v : Value} (h : name ∈ relations → ∀ text, v = .string text → Json.parse? text = none) :
    Becomes relations name v v

/-- What becomes of a row: it has the same columns, each with what becomes of its value. -/
structure Row.Becomes (relations : List String) (row row' : Row) : Prop where
  keys : row'.keys = row.keys
  values : ∀ name, Option.Rel (Value.Becomes relations name) (row.get? name) (row'.get? name)

theorem Value.becomes_asDocument {relations : List String} {name : String} (hname : name ∈ relations)
    (v : Value) : Value.Becomes relations name v v.asDocument := by
  cases v with
  | string text =>
    cases h : Json.parse? text with
    | some d =>
      have hdocument : asDocument (.string text) = .json d := by simp [asDocument, h]
      rw [hdocument]
      exact .document hname h
    | none =>
      have hsame : asDocument (.string text) = .string text := by simp [asDocument, h]
      rw [hsame]
      exact .kept fun _ other heq => by rw [← Value.string.inj heq, h]
  | _ => exact .kept fun _ _ heq => nomatch heq

theorem Row.becomes_adjustAll (relations : List String) (row : Row) :
    Row.Becomes relations row (row.adjustAll relations Value.asDocument) where
  keys := Keyed.keys_adjustAll row relations _
  values name := by
    rw [Keyed.get?_adjustAll Value.asDocument_asDocument]
    split
    next hname =>
      cases row.get? name with
      | none => exact .none
      | some v => exact .some (Value.becomes_asDocument hname v)
    next hname =>
      cases row.get? name with
      | none => exact .none
      | some v => exact .some (.kept fun h => absurd h hname)

namespace Model

theorem decodeColumn_eq (table : String) (row : Row) (relation : String) :
    (decodeColumn table row relation).1 = row.adjust relation Value.asDocument := by
  unfold decodeColumn
  split
  next text htext =>
    split
    next d hd =>
      have hdocument : Value.json d = (Value.string text).asDocument := by simp [Value.asDocument, hd]
      rw [hdocument]
      exact Keyed.insert_eq_adjust htext
    next hnone =>
      refine (Keyed.adjust_eq_self fun v hv => ?_).symm
      obtain rfl : Value.string text = v := Option.some.inj (htext.symm.trans hv)
      simp [Value.asDocument, hnone]
  next hother =>
    refine (Keyed.adjust_eq_self fun v hv => ?_).symm
    cases v with
    | string text => exact absurd hv (hother text)
    | _ => rfl

theorem decodeRow_eq (table : String) (row : Row) (relations : List String) :
    (decodeRow table row relations).1 = row.adjustAll relations Value.asDocument := by
  induction relations generalizing row with
  | nil => rfl
  | cons relation relations ih =>
    rw [decodeRow, ih, decodeColumn_eq]
    rfl

theorem decode_eq (table : String) (relations : List String) (rows : List Row) :
    (decode table relations rows).1 = rows.map fun row => row.adjustAll relations Value.asDocument := by
  induction rows with
  | nil => rfl
  | cons row rows ih => rw [decode, ih, decodeRow_eq, List.map_cons]

/-- A query finds what the database answers to its statement, with the documents read. -/
theorem fetch_ok_iff {σ : Type} {m : Model} {db : Adapter σ} {b : Except Error QueryBuilder}
    {o : FindOptions} {s u : σ} {out : List Row} : (m.fetch db b o).Ends s (.ok out) u ↔
      ∃ stmt rows, (b >>= o.apply >>= QueryBuilder.compile) = .ok stmt ∧
        (db.fetch stmt).Ends s (.ok rows) u ∧ out = (decode m.table.name o.relations rows).1 := by
  unfold fetch
  simp only [Action.ends_bind_ok, Action.ends_ofExcept, Action.ends_logAll, Action.ends_pure]
  constructor
  · rintro ⟨b₀, _, ⟨rfl, rfl⟩, b₁, _, ⟨hb₁, rfl⟩, stmt, _, ⟨hstmt, rfl⟩, rows, _, hrows, -, _, ⟨-, rfl⟩,
      hout, rfl⟩
    refine ⟨stmt, rows, ?_, hrows, Except.ok.inj hout⟩
    change (o.apply b₀ >>= QueryBuilder.compile) = _
    rw [← hb₁, hstmt]
    rfl
  · rintro ⟨stmt, rows, hstmt, hrows, rfl⟩
    cases b with
    | error e => cases hstmt
    | ok b₀ =>
      change (o.apply b₀ >>= QueryBuilder.compile) = _ at hstmt
      cases hb₁ : o.apply b₀ with
      | error e =>
        rw [hb₁] at hstmt
        cases hstmt
      | ok b₁ =>
        rw [hb₁] at hstmt
        exact ⟨b₀, s, ⟨rfl, rfl⟩, b₁, s, ⟨hb₁.symm, rfl⟩, stmt, s, ⟨hstmt.symm, rfl⟩, rows, u, hrows,
          (), u, ⟨trivial, rfl⟩, rfl, rfl⟩

/-- Reading the documents of the relations asked for keeps every row in its place and every column,
and turns into documents just those texts in the columns of these relations that are documents. It comes
to the same when the relations are named in another order or again, and a second reading changes
nothing. A model does this to the rows that the database answers with, and nothing else. -/
theorem decode_documents (o : FindOptions) :
    (∀ (table : String) (rows : List Row),
      let decoded := (decode table o.relations rows).1
      List.Forall₂ (Row.Becomes o.relations) rows decoded ∧
      ∀ (table' : String) (relations : List String), (∀ r, r ∈ relations ↔ r ∈ o.relations) →
        (decode table' relations rows).1 = decoded ∧ (decode table' relations decoded).1 = decoded) ∧
    ∀ {σ : Type} (m : Model) (db : Adapter σ) (b : Except Error QueryBuilder) (s u : σ)
      (out : List Row), (m.fetch db b o).Ends s (.ok out) u ↔
        ∃ stmt rows, (b >>= o.apply >>= QueryBuilder.compile) = .ok stmt ∧
          (db.fetch stmt).Ends s (.ok rows) u ∧
          out = (decode m.table.name o.relations rows).1 := by
  refine ⟨fun table rows => ⟨?_, fun table' relations hmem => ⟨?_, ?_⟩⟩,
    fun m db b s u out => fetch_ok_iff⟩
  · rw [decode_eq, List.forall₂_map_right_iff]
    exact List.forall₂_same.mpr fun row _ => Row.becomes_adjustAll o.relations row
  · rw [decode_eq, decode_eq]
    exact List.map_congr_left fun row _ =>
      Keyed.adjustAll_congr Value.asDocument_asDocument hmem row
  · rw [decode_eq, decode_eq, List.map_map]
    exact List.map_congr_left fun row _ =>
      Keyed.adjustAll_adjustAll Value.asDocument_asDocument hmem row

/-- Only the posts are read: the biography is not asked for, the author is missing, and the tags are no
document. -/
theorem decode_documents_reordered :
    let o := { FindOptions.none with relations := ["posts", "author", "tags"] }
    let row : Row := .ofList [("id", .int 1), ("bio", .string "[1]"), ("posts", .string "[\"a\",\"b\"]"),
      ("author", .null), ("tags", .string "[1")]
    let decoded : Row := .ofList [("id", .int 1), ("bio", .string "[1]"),
      ("posts", .json (.array [.string "a", .string "b"])), ("author", .null), ("tags", .string "[1")]
    (decode "users" o.relations [row]).1 = [decoded] ∧
      (decode "users" ["tags", "posts", "author", "posts"] [row]).1 = [decoded] ∧
      (decode "users" ["tags", "posts", "author", "posts"] [decoded]).1 = [decoded] := by
  intro o row decoded
  have hposts : Json.parse? "[\"a\",\"b\"]" = some (.array [.string "a", .string "b"]) := by
    have htext : "[\"a\",\"b\"]" = (Json.array [.string "a", .string "b"]).render := by decide +kernel
    rw [htext]
    exact Json.rereads_of_numbers (by simp [Json.numbers, Json.numbersItems]) (by decide +kernel) rfl
  have htags : Json.parse? "[1" = none := Option.isNone_iff_eq_none.mp (by decide +kernel)
  have hdecoded : (decode "users" o.relations [row]).1 = [decoded] := by
    rw [decode_eq]
    simp [Keyed.adjustAll, Keyed.adjust, Keyed.adjustEntry, Value.asDocument, o, row, decoded,
      Keyed.ofList, Keyed.insert, Keyed.insertEntry, Keyed.empty, hposts, htags]
  have hmem (r : String) : r ∈ ["tags", "posts", "author", "posts"] ↔ r ∈ o.relations := by
    simp [o]
    tauto
  obtain ⟨hfirst, hagain⟩ := ((decode_documents o).1 "users" [row]).2 "users" _ hmem
  rw [hdecoded] at hfirst hagain
  exact ⟨hdecoded, hfirst, hagain⟩

end Model
end Relata
