import Relata.Action

/-!
How actions end: with which answer, and in which state. The log is left aside. An action has exactly
one ending in each state, so an ending can be followed forwards and read backwards.
-/
namespace Relata.Action

variable {σ α β : Type}

/-- Begun in the state `s`, the action answers `r` and leaves the state `t`. -/
def Ends (a : Action σ α) (s : σ) (r : Except Error α) (t : σ) : Prop :=
  (a s).answer = r ∧ (a s).state = t

theorem ends_run (a : Action σ α) (s : σ) : a.Ends s (a s).answer (a s).state := ⟨rfl, rfl⟩

theorem Ends.unique {a : Action σ α} {s t t' : σ} {r r' : Except Error α}
    (h : a.Ends s r t) (h' : a.Ends s r' t') : r = r' ∧ t = t' :=
  ⟨h.1.symm.trans h'.1, h.2.symm.trans h'.2⟩

@[simp] theorem ends_pure {x : α} {s t : σ} {r : Except Error α} :
    (Pure.pure x : Action σ α).Ends s r t ↔ r = .ok x ∧ t = s := by
  constructor
  · rintro ⟨rfl, rfl⟩
    exact ⟨rfl, rfl⟩
  · rintro ⟨rfl, rfl⟩
    exact ⟨rfl, rfl⟩

@[simp] theorem ends_fail {e : Error} {s t : σ} {r : Except Error α} :
    (fail e : Action σ α).Ends s r t ↔ r = .error e ∧ t = s := by
  constructor
  · rintro ⟨rfl, rfl⟩
    exact ⟨rfl, rfl⟩
  · rintro ⟨rfl, rfl⟩
    exact ⟨rfl, rfl⟩

@[simp] theorem ends_ofExcept {x r : Except Error α} {s t : σ} :
    (ofExcept x : Action σ α).Ends s r t ↔ r = x ∧ t = s := by
  cases x with
  | ok x => exact ends_pure
  | error e => exact ends_fail

theorem Ends.bind {a : Action σ α} {f : α → Action σ β} {x : α} {s u t : σ} {r : Except Error β}
    (h : a.Ends s (.ok x) u) (h' : (f x).Ends u r t) : (a >>= f).Ends s r t := by
  obtain ⟨ha, hu⟩ := h
  obtain ⟨hr, ht⟩ := h'
  change (Action.bind a f).Ends s r t
  cases hs : a s with
  | mk answer state events =>
    rw [hs] at ha hu
    subst ha hu
    exact ⟨by simpa [Action.bind, hs] using hr, by simpa [Action.bind, hs] using ht⟩

theorem Ends.bind_error {a : Action σ α} {f : α → Action σ β} {e : Error} {s t : σ}
    (h : a.Ends s (.error e) t) : (a >>= f).Ends s (.error e) t := by
  obtain ⟨ha, ht⟩ := h
  change (Action.bind a f).Ends s (.error e) t
  cases hs : a s with
  | mk answer state events =>
    rw [hs] at ha ht
    subst ha ht
    constructor <;> simp [Action.bind, hs]

/-- A sequence either goes on where its first action succeeded, or stops with the error of that. -/
theorem ends_bind {a : Action σ α} {f : α → Action σ β} {s t : σ} {r : Except Error β} :
    (a >>= f).Ends s r t ↔
      (∃ x u, a.Ends s (.ok x) u ∧ (f x).Ends u r t) ∨
        ∃ e, a.Ends s (.error e) t ∧ r = .error e := by
  constructor
  · intro h
    cases ha : (a s).answer with
    | ok x =>
      have hx : a.Ends s (.ok x) (a s).state := ⟨ha, rfl⟩
      have hall := hx.bind (ends_run (f x) (a s).state)
      obtain ⟨rfl, rfl⟩ := h.unique hall
      exact .inl ⟨x, _, hx, ends_run ..⟩
    | error e =>
      have he : a.Ends s (.error e) (a s).state := ⟨ha, rfl⟩
      obtain ⟨rfl, rfl⟩ := h.unique (he.bind_error (f := f))
      exact .inr ⟨e, he, rfl⟩
  · rintro (⟨x, u, ha, hf⟩ | ⟨e, ha, rfl⟩)
    · exact ha.bind hf
    · exact ha.bind_error

/-- A sequence succeeds just if both of its actions do. -/
theorem ends_bind_ok {a : Action σ α} {f : α → Action σ β} {s t : σ} {y : β} :
    (a >>= f).Ends s (.ok y) t ↔ ∃ x u, a.Ends s (.ok x) u ∧ (f x).Ends u (.ok y) t := by
  rw [ends_bind]
  exact or_iff_left fun ⟨_, _, h⟩ => nomatch h

theorem ends_attempt {a : Action σ α} {s t : σ} {r : Except Error (Except Error α)} :
    a.attempt.Ends s r t ↔ ∃ q, a.Ends s q t ∧ r = .ok q := by
  constructor
  · rintro ⟨rfl, rfl⟩
    exact ⟨_, ends_run a s, rfl⟩
  · rintro ⟨q, ⟨rfl, rfl⟩, rfl⟩
    exact ⟨rfl, rfl⟩

theorem Ends.attempt_bind {a : Action σ α} {f : Except Error α → Action σ β} {q : Except Error α}
    {s u t : σ} {r : Except Error β} (h : a.Ends s q u) (h' : (f q).Ends u r t) :
    (a.attempt >>= f).Ends s r t :=
  Ends.bind (ends_attempt.mpr ⟨q, h, rfl⟩) h'

/-- An action that always succeeds hands its answer and its state to what comes after it. -/
theorem Ends.bind_iff {a : Action σ α} {f : α → Action σ β} {x : α} {s u t : σ}
    {r : Except Error β} (h : a.Ends s (.ok x) u) : (a >>= f).Ends s r t ↔ (f x).Ends u r t := by
  refine ⟨fun hall => ?_, h.bind⟩
  obtain ⟨rfl, rfl⟩ := hall.unique (h.bind (ends_run (f x) u))
  exact ends_run (f x) u

@[simp] theorem ends_log_bind {level : Level} {message : String} {fields : List (String × String)}
    {f : Unit → Action σ β} {s t : σ} {r : Except Error β} :
    (log level message fields >>= f).Ends s r t ↔ (f ()).Ends s r t :=
  Ends.bind_iff ⟨rfl, rfl⟩

@[simp] theorem ends_ofExcept_bind {x : α} {f : α → Action σ β} {s t : σ} {r : Except Error β} :
    (ofExcept (.ok x) >>= f).Ends s r t ↔ (f x).Ends s r t :=
  Ends.bind_iff ⟨rfl, rfl⟩

@[simp] theorem ends_logAll {events : List Event} {s t : σ} {r : Except Error Unit} :
    (logAll events : Action σ Unit).Ends s r t ↔ r = .ok () ∧ t = s := by
  simp only [Ends, logAll, eq_comm]

@[simp] theorem ends_log {level : Level} {message : String} {fields : List (String × String)}
    {s t : σ} {r : Except Error Unit} :
    (log level message fields : Action σ Unit).Ends s r t ↔ r = .ok () ∧ t = s := by
  simp only [Ends, log, eq_comm]

@[simp] theorem ends_get_bind {f : σ → Action σ β} {s t : σ} {r : Except Error β} :
    (get >>= f).Ends s r t ↔ (f s).Ends s r t :=
  Ends.bind_iff ⟨rfl, rfl⟩

@[simp] theorem ends_modify {f : σ → σ} {s t : σ} {r : Except Error Unit} :
    (modify f).Ends s r t ↔ r = .ok () ∧ t = f s := by
  simp only [Ends, modify, eq_comm]

@[simp] theorem ends_modify_bind {g : σ → σ} {f : Unit → Action σ β} {s t : σ}
    {r : Except Error β} : (modify g >>= f).Ends s r t ↔ (f ()).Ends (g s) r t :=
  Ends.bind_iff ⟨rfl, rfl⟩

section Preserves

variable {γ : Type} {view : σ → γ}

/-- However the action ends, `view` shows the same of the state before and after. -/
def Preserves (view : σ → γ) (a : Action σ α) : Prop := ∀ s, view (a s).state = view s

theorem preserves_pure (x : α) : Preserves view (Pure.pure x) := fun _ => rfl

theorem preserves_fail (e : Error) : Preserves view (fail e : Action σ α) := fun _ => rfl

theorem preserves_get : Preserves view (get : Action σ σ) := fun _ => rfl

theorem preserves_logAll (events : List Event) : Preserves view (logAll events) := fun _ => rfl

theorem preserves_modify {f : σ → σ} (h : ∀ s, view (f s) = view s) :
    Preserves view (modify f) := h

theorem Preserves.bind {a : Action σ α} {f : α → Action σ β} (ha : Preserves view a)
    (hf : ∀ x, Preserves view (f x)) : Preserves view (a >>= f) := by
  intro s
  obtain ⟨x, u, hx, hfu⟩ | ⟨e, he, -⟩ := ends_bind.mp (ends_run (a >>= f) s)
  · rw [← hfu.2, hf x u, ← hx.2, ha s]
  · rw [← he.2, ha s]

theorem Preserves.of_ends {a : Action σ α} (h : Preserves view a) {s t : σ} {r : Except Error α}
    (ha : a.Ends s r t) : view t = view s := ha.2 ▸ h s

end Preserves

end Relata.Action
