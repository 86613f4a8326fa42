/-!
Named items in the order in which their names first came. Main statements: giving an item again
replaces it and keeps its place, so every name stands once and carries the last item given for it.
-/
namespace Relata

/-- Items by name, in the order of first insertion. -/
structure Keyed (α : Type) where
  entries : List (String × α)
  deriving Repr, DecidableEq

namespace Keyed

variable {α : Type}

def empty : Keyed α := ⟨[]⟩

instance : Inhabited (Keyed α) := ⟨empty⟩

instance : EmptyCollection (Keyed α) := ⟨empty⟩

def keys (k : Keyed α) : List String := k.entries.map Prod.fst

def values (k : Keyed α) : List α := k.entries.map Prod.snd

def size (k : Keyed α) : Nat := k.entries.length

def isEmpty (k : Keyed α) : Bool := k.entries.isEmpty

def get? (k : Keyed α) (name : String) : Option α := k.entries.lookup name

def contains (k : Keyed α) (name : String) : Bool := (k.get? name).isSome

/-- Replaces the item of `name` where it stands; a new name goes to the end. -/
def insertEntry (name : String) (item : α) : List (String × α) → List (String × α)
  | [] => [(name, item)]
  | (n, x) :: rest => if n = name then (n, item) :: rest else (n, x) :: insertEntry name item rest

def insert (k : Keyed α) (name : String) (item : α) : Keyed α :=
  ⟨insertEntry name item k.entries⟩

def ofList (items : List (String × α)) : Keyed α :=
  items.foldl (fun k item => k.insert item.1 item.2) empty

def mapValues {β : Type} (f : α → β) (k : Keyed α) : Keyed β :=
  ⟨k.entries.map fun e => (e.1, f e.2)⟩

@[simp] theorem entries_empty : (empty : Keyed α).entries = [] := rfl

@[simp] theorem keys_empty : (empty : Keyed α).keys = [] := rfl

theorem keys_insertEntry (name : String) (item : α) (l : List (String × α)) :
    (insertEntry name item l).map Prod.fst =
      if name ∈ l.map Prod.fst then l.map Prod.fst else l.map Prod.fst ++ [name] := by
  induction l with
  | nil => simp [insertEntry]
  | cons e l ih =>
    obtain ⟨n, x⟩ := e
    by_cases h : n = name
    · simp [insertEntry, h]
    · have h' : ¬name = n := fun h' => h h'.symm
      by_cases hm : name ∈ l.map Prod.fst <;>
        simp_all [insertEntry]

/-- The keys after an insertion: a known name keeps its place, a new one goes to the end. -/
theorem keys_insert (k : Keyed α) (name : String) (item : α) :
    (k.insert name item).keys = if name ∈ k.keys then k.keys else k.keys ++ [name] :=
  keys_insertEntry name item k.entries

theorem lookup_insertEntry (name other : String) (item : α) (l : List (String × α)) :
    (insertEntry name item l).lookup other =
      if other = name then some item else l.lookup other := by
  induction l with
  | nil => by_cases h : other = name <;> simp [insertEntry, List.lookup_cons, h, beq_false_of_ne]
  | cons e l ih =>
    obtain ⟨n, x⟩ := e
    by_cases h : n = name
    · subst h
      by_cases ho : other = n
      · simp [insertEntry, ho]
      · simp [insertEntry, List.lookup_cons, beq_false_of_ne ho, ho]
    · by_cases ho : other = n
      · subst ho
        simp [insertEntry, h]
      · simp [insertEntry, h, List.lookup_cons, beq_false_of_ne ho, ih]

/-- An insertion is seen at its own name only. -/
theorem get?_insert (k : Keyed α) (name other : String) (item : α) :
    (k.insert name item).get? other = if other = name then some item else k.get? other :=
  lookup_insertEntry name other item k.entries

end Keyed
end Relata
