import Mathlib.Data.List.Nodup
import Relata.Proofs.Alteration
import Relata.Proofs.Ordering

/-!
In which pass each table comes about. Main statement: a table comes about in the first pass that
meets it behind all the tables it has to wait for, so one pass later than each of them that is
registered behind it; the run takes as many passes as the last table; and it takes one pass if each
table is registered behind those that it refers to.
-/
namespace Relata

theorem idxOf_lt_of_sublist {names : List String} {x y : String} (h : [x, y].Sublist names)
    (hnodup : names.Nodup) : names.idxOf x < names.idxOf y := by
  induction names with
  | nil => cases h
  | cons n names ih =>
    obtain ⟨hn, hnodup⟩ := List.nodup_cons.mp hnodup
    cases h with
    | cons _ h =>
      have hx : n ≠ x := fun heq => hn (heq ▸ h.subset List.mem_cons_self)
      have hy : n ≠ y := fun heq => hn (heq ▸ h.subset (by simp))
      rw [List.idxOf_cons_ne _ hx, List.idxOf_cons_ne _ hy]
      exact Nat.succ_lt_succ (ih h hnodup)
    | cons_cons _ h =>
      have hy : x ≠ y := fun heq => hn (heq ▸ h.subset List.mem_cons_self)
      rw [List.idxOf_cons_self, List.idxOf_cons_ne _ hy]
      exact Nat.succ_pos _

namespace Migration

variable {tried more pass l r : List Attempt} {a : Attempt} {passes earlier later : List (List Attempt)}
  {n : String}

/-- The names of the tables that the attempts bring about. -/
def wins (tried : List Attempt) : List String :=
  (tried.filter Attempt.succeeded).map fun a => a.table.name

@[simp] theorem wins_append : wins (tried ++ more) = wins tried ++ wins more := by simp [wins]

theorem mem_wins : n ∈ wins tried ↔ ∃ a ∈ tried, a.succeeded = true ∧ a.table.name = n := by
  simp [wins, and_assoc]

/-- The number of the first pass that brings about the table of the name. -/
def turnIn : List (List Attempt) → String → Nat
  | [], _ => 1
  | pass :: later, n => if n ∈ wins pass then 1 else turnIn later n + 1

theorem turnIn_pos : 0 < turnIn passes n := by
  cases passes with
  | nil => exact Nat.one_pos
  | cons pass later =>
    unfold turnIn
    split <;> omega

theorem turnIn_le_iff (earlier later : List (List Attempt)) :
    turnIn (earlier ++ later) n ≤ earlier.length ↔ n ∈ wins earlier.flatten := by
  induction earlier with
  | nil =>
    have hpos : 0 < turnIn later n := turnIn_pos
    simpa [wins] using hpos.ne'
  | cons pass earlier ih =>
    rw [List.cons_append, turnIn, List.flatten_cons, wins_append, List.mem_append, List.length_cons]
    by_cases hn : n ∈ wins pass
    · simp [hn]
    · rw [if_neg hn, Nat.add_le_add_iff_right, ih]
      simp [hn]

theorem turnIn_eq_iff : turnIn (earlier ++ pass :: later) n = earlier.length + 1 ↔
    n ∉ wins earlier.flatten ∧ n ∈ wins pass := by
  have hbefore := turnIn_le_iff (n := n) earlier (pass :: later)
  have hthen := turnIn_le_iff (n := n) (earlier ++ [pass]) later
  rw [List.append_assoc, List.singleton_append, List.length_append, List.length_singleton,
    List.flatten_append, List.flatten_singleton, wins_append, List.mem_append] at hthen
  rw [← hbefore]
  constructor
  · intro hturn
    have hlate : ¬turnIn (earlier ++ pass :: later) n ≤ earlier.length := by omega
    exact ⟨hlate, (hthen.mp hturn.le).resolve_left (mt hbefore.mpr hlate)⟩
  · rintro ⟨hlate, hn⟩
    have hle := hthen.mpr (.inr hn)
    omega

theorem exists_turn (h : n ∈ wins passes.flatten) : ∃ earlier pass later,
    passes = earlier ++ pass :: later ∧ n ∉ wins earlier.flatten ∧ n ∈ wins pass := by
  induction passes with
  | nil => cases h
  | cons pass passes ih =>
    by_cases hn : n ∈ wins pass
    · exact ⟨[], pass, passes, rfl, by simp [wins], hn⟩
    · rw [List.flatten_cons, wins_append, List.mem_append] at h
      obtain ⟨earlier, p, later, rfl, hearlier, hp⟩ := ih (h.resolve_left hn)
      refine ⟨pass :: earlier, p, later, rfl, ?_, hp⟩
      rw [List.flatten_cons, wins_append, List.mem_append]
      exact not_or.mpr ⟨hn, hearlier⟩

theorem failed_eq_filter (hnodup : ((pass.map Attempt.table).map Table.name).Nodup) :
    failed pass = (pass.map Attempt.table).filter fun t => t.name ∉ wins pass := by
  rw [failed, List.filter_map]
  refine congrArg (List.map Attempt.table) (List.filter_congr fun a ha => ?_)
  rw [Bool.eq_iff_iff, Function.comp_apply, decide_eq_true_iff, mem_wins, Bool.not_eq_true']
  rw [List.map_map] at hnodup
  constructor
  · rintro hs ⟨b, hb, hwon, hname⟩
    rw [List.inj_on_of_nodup_map hnodup hb ha hname] at hwon
    rw [hs] at hwon
    cases hwon
  · intro hnone
    exact Bool.eq_false_of_not_eq_true fun hs => hnone ⟨a, ha, hs, rfl⟩

/-- Each pass of a run that succeeds tries the tables that have not come about before it. -/
theorem Course.tries {made : Nat} {pending : List Table} {report : SyncReport}
    (h : Course made pending passes (.ok report)) (hnodup : (pending.map Table.name).Nodup)
    (hp : passes = earlier ++ pass :: later) :
    pass.map Attempt.table = pending.filter fun t => t.name ∉ wins earlier.flatten := by
  generalize hr : (.ok report : Except Error SyncReport) = result at h
  induction h generalizing earlier with
  | converged => simp at hp
  | deadlocked => cases hr
  | aborted => cases hr
  | @next _ pending first passes _ hcomplete _ h ih =>
    cases earlier with
    | nil =>
      obtain ⟨rfl, rfl⟩ := List.cons.inj hp
      simpa [wins] using hcomplete.1
    | cons _ earlier =>
      obtain ⟨rfl, hrest⟩ := List.cons.inj hp
      obtain ⟨rfl, -⟩ := hcomplete
      have hfailed := failed_eq_filter hnodup
      have hsub : ((failed first).map Table.name).Nodup :=
        ((failed_sublist first).map Table.name).nodup hnodup
      rw [ih hsub hrest hr, hfailed, List.filter_filter]
      refine List.filter_congr fun t _ => ?_
      simp [Bool.and_comm]

end Migration

namespace Catalog

open Migration

variable {db : Adapter Catalog} {c₀ c u v : Catalog} {tables : List Table} {t : Table}

section Run

variable {a : Attempt} {tried before : List Attempt} {won : List String} {n : String}

/-- Between two attempts, the tables that have come about are there, and all else is as it was. -/
structure Standing (c₀ : Catalog) (won : List String) (c : Catalog) : Prop where
  there : ∀ n ∈ won, c.contains n = true
  kept : ∀ n, n ∉ won → c.get? n = c₀.get? n

theorem Standing.ready_iff (h : Standing c₀ won c) (hn : t.name ∉ won) :
    (∀ d ∈ c.needs t, c.contains d = true) ↔ ∀ d ∈ c₀.awaits t, d ∈ won := by
  have hneeds : c.needs t = c₀.needs t := by simp only [needs, missing, h.kept t.name hn]
  rw [hneeds]
  simp only [awaits, List.mem_filter, Bool.not_eq_true', and_imp]
  refine forall₂_congr fun d _ => ?_
  by_cases hd : d ∈ won
  · simp [hd, h.there d hd]
  · have hlive : c.contains d = c₀.contains d := by simp only [Keyed.contains, h.kept d hd]
    simp [hd, hlive]

/-- One attempt. -/
theorem Standing.attempt (h : Keeps db) (hs : Standing c₀ won u)
    (ha : ∀ log, (syncTable db.recorded a.table).Ends (u, log) a.result (v, log ++ a.calls)) :
    Standing c₀ (won ++ wins [a]) v ∧
      (a.table.name ∉ won → (a.succeeded = true ↔ ∀ d ∈ c₀.awaits a.table, d ∈ won)) := by
  have hends := ends_of_recorded ha
  by_cases hready : ∀ d ∈ u.needs a.table, u.contains d = true
  · obtain ⟨done, u', htried, hget⟩ := syncTable_tried h.meets hready
    rw [fitsAll_always] at htried
    have hdone : (syncTable db a.table).Ends u (.ok done) u' := htried
    obtain ⟨hresult, rfl⟩ := hdone.unique hends
    have hsucceeded : a.succeeded = true := by rw [Attempt.succeeded, ← hresult]
    have hwins : wins [a] = [a.table.name] := by simp [wins, hsucceeded]
    rw [hwins]
    refine ⟨⟨fun n hn => ?_, fun n hn => ?_⟩, fun hnew => ?_⟩
    · rw [Keyed.contains, hget]
      split
      · rfl
      next hne =>
        have hold := (List.mem_append.mp hn).resolve_right (by simpa using hne)
        exact hs.there n hold
    · rw [List.mem_append, List.mem_singleton, not_or] at hn
      rw [hget, if_neg hn.2, hs.kept n hn.1]
    · exact iff_of_true hsucceeded ((hs.ready_iff hnew).mp hready)
  · obtain ⟨d, hd, hc⟩ : ∃ d ∈ u.needs a.table, u.contains d = false := by simpa using hready
    obtain ⟨name, hblocked⟩ := syncTable_blocked h.meets.toAnswers hd hc
    obtain ⟨hresult, rfl⟩ := hblocked.unique hends
    have hfailed : a.succeeded = false := by rw [Attempt.succeeded, ← hresult]
    have hwins : wins [a] = [] := by simp [wins, hfailed]
    rw [hwins, List.append_nil]
    refine ⟨hs, fun hnew => ?_⟩
    rw [← hs.ready_iff hnew, hfailed]
    exact iff_of_false Bool.false_ne_true hready

theorem Standing.tries (h : Keeps db) (hs : Standing c₀ won u) (htries : Tries db u tried v) :
    Standing c₀ (won ++ wins tried) v := by
  induction htries generalizing won with
  | nil => simpa [wins] using hs
  | @cons _ _ _ a rest ha _ ih =>
    have hrest := ih (hs.attempt h ha).1
    rw [List.append_assoc, ← wins_append] at hrest
    exact hrest

/-- An attempt at a table that has not come about succeeds just if all it has to wait for has. -/
theorem succeeded_iff (h : Keeps db) {after : List Attempt}
    (htries : Tries db c₀ (before ++ a :: after) c) (hnew : a.table.name ∉ wins before) :
    a.succeeded = true ↔ ∀ d ∈ c₀.awaits a.table, d ∈ wins before := by
  obtain ⟨u, hbefore, hrest⟩ := htries.split
  have hstart : Standing c₀ [] c₀ := ⟨by simp, fun _ _ => rfl⟩
  have hs := hstart.tries h hbefore
  rw [List.nil_append] at hs
  cases hrest with
  | cons ha _ => exact (hs.attempt h ha).2 hnew

end Run

/-- One pass for a table that is registered behind the one that waits for it. -/
def delay (tables : List Table) (n d : String) : Nat :=
  if (tables.map Table.name).idxOf n < (tables.map Table.name).idxOf d then 1 else 0

/-- Each table has its turn in the first pass, or as late as one that it has to wait for makes it,
whichever is latest. -/
def IsSchedule (c : Catalog) (tables : List Table) (turn : String → Nat) : Prop :=
  ∀ t ∈ tables, IsGreatest
    (insert 1 {k | ∃ d ∈ c.awaits t, k = turn d + delay tables t.name d}) (turn t.name)

/-- What a run that succeeds does in its passes. -/
structure Converges (c : Catalog) (tables : List Table) (passes : List (List Attempt)) : Prop where
  nodup : (tables.map Table.name).Nodup
  order : ∀ {earlier pass later}, passes = earlier ++ pass :: later →
    pass.map Attempt.table = tables.filter fun t => t.name ∉ wins earlier.flatten
  ready : ∀ {before a after}, passes.flatten = before ++ a :: after → a.table.name ∉ wins before →
    (a.succeeded = true ↔ ∀ d ∈ c.awaits a.table, d ∈ wins before)
  every : ∀ t ∈ tables, t.name ∈ wins passes.flatten

namespace Converges

variable {passes earlier later : List (List Attempt)} {pass l r : List Attempt} {a b : Attempt}

section Pass

variable (h : Converges c tables passes)

include h

theorem table_mem (hp : passes = earlier ++ pass :: later) (ha : a ∈ pass) :
    a.table ∈ tables ∧ a.table.name ∉ wins earlier.flatten := by
  have hmem : a.table ∈ tables.filter fun t => t.name ∉ wins earlier.flatten :=
    h.order hp ▸ List.mem_map_of_mem ha
  simpa using hmem

theorem mem_tables (ha : a ∈ passes.flatten) : a.table ∈ tables := by
  obtain ⟨pass, hpass, ha⟩ := List.mem_flatten.mp ha
  obtain ⟨earlier, later, hp⟩ := List.append_of_mem hpass
  exact (h.table_mem hp ha).1

theorem names_sublist (hp : passes = earlier ++ pass :: later) :
    (pass.map fun a => a.table.name).Sublist (tables.map Table.name) := by
  have hsub : ((pass.map Attempt.table).map Table.name).Sublist (tables.map Table.name) := by
    rw [h.order hp]
    exact List.filter_sublist.map Table.name
  rwa [List.map_map] at hsub

/-- A pass tries tables in the order of their registration. -/
theorem idxOf_lt (hp : passes = earlier ++ (l ++ a :: r) :: later) (hb : b ∈ l) :
    (tables.map Table.name).idxOf b.table.name < (tables.map Table.name).idxOf a.table.name := by
  have hpair : [b, a].Sublist (l ++ a :: r) :=
    (List.singleton_sublist.mpr hb).append (List.singleton_sublist.mpr List.mem_cons_self)
  exact idxOf_lt_of_sublist ((hpair.map _).trans (h.names_sublist hp)) h.nodup

/-- An attempt succeeds just if what it has to wait for came about in an earlier pass, or before it
in its own. -/
theorem succeeded_iff (hp : passes = earlier ++ (l ++ a :: r) :: later) :
    a.succeeded = true ↔ ∀ d ∈ c.awaits a.table, d ∈ wins earlier.flatten ∨ d ∈ wins l := by
  have hnew : a.table.name ∉ wins (earlier.flatten ++ l) := by
    rw [wins_append, List.mem_append]
    refine not_or.mpr ⟨(h.table_mem hp (by simp)).2, fun hl => ?_⟩
    obtain ⟨b, hb, -, hname⟩ := mem_wins.mp hl
    have hlt := h.idxOf_lt hp hb
    rw [hname] at hlt
    exact Nat.lt_irrefl _ hlt
  have hflat : passes.flatten = earlier.flatten ++ l ++ a :: (r ++ later.flatten) := by
    rw [hp]
    simp
  rw [h.ready hflat hnew]
  simp

/-- A table that has not come about is tried in the next pass. -/
theorem exists_attempt (hp : passes = earlier ++ pass :: later) (ht : t ∈ tables)
    (hn : t.name ∉ wins earlier.flatten) : ∃ l a r, pass = l ++ a :: r ∧ a.table = t := by
  have hmem : t ∈ pass.map Attempt.table := by
    rw [h.order hp]
    simpa using ⟨ht, hn⟩
  obtain ⟨a, ha, rfl⟩ := List.mem_map.mp hmem
  obtain ⟨l, r, hpass⟩ := List.append_of_mem ha
  exact ⟨l, a, r, hpass, rfl⟩

theorem succeeded_of_mem_wins (hp : passes = earlier ++ pass :: later) (ha : a ∈ pass)
    (hn : a.table.name ∈ wins pass) : a.succeeded = true := by
  obtain ⟨b, hb, hs, hname⟩ := mem_wins.mp hn
  have hnodup := (h.names_sublist hp).nodup h.nodup
  rwa [← List.inj_on_of_nodup_map hnodup hb ha hname]

/-- The attempt that brings a table about. -/
theorem exists_success (ht : t ∈ tables) : ∃ earlier l a r later,
    passes = earlier ++ (l ++ a :: r) :: later ∧ a.table = t ∧ a.succeeded = true ∧
      turnIn passes t.name = earlier.length + 1 := by
  obtain ⟨earlier, pass, later, hp, hold, hnew⟩ := exists_turn (h.every t ht)
  obtain ⟨l, a, r, rfl, rfl⟩ := h.exists_attempt hp ht hold
  refine ⟨earlier, l, a, r, later, hp, rfl, ?_, ?_⟩
  · exact h.succeeded_of_mem_wins hp (by simp) hnew
  · rw [hp]
    exact turnIn_eq_iff.mpr ⟨hold, hnew⟩

theorem delay_eq_zero {d : String} (hp : passes = earlier ++ (l ++ a :: r) :: later)
    (hd : d ∈ wins l) : delay tables a.table.name d = 0 := by
  obtain ⟨b, hb, -, rfl⟩ := mem_wins.mp hd
  have hlt := h.idxOf_lt hp hb
  exact if_neg (by omega)

theorem delay_eq_one {d : String} (hp : passes = earlier ++ (l ++ a :: r) :: later)
    (hd : d ∈ wins r) : delay tables a.table.name d = 1 := by
  obtain ⟨b, hb, -, rfl⟩ := mem_wins.mp hd
  obtain ⟨between, rest, rfl⟩ := List.append_of_mem hb
  have hafter : passes = earlier ++ ((l ++ a :: between) ++ b :: rest) :: later := by simpa using hp
  exact if_pos (h.idxOf_lt hafter (by simp))

/-- A table waits no longer than for the last of those that it has to wait for. -/
theorem turnIn_attained (ht : t ∈ tables) : turnIn passes t.name ∈
    insert 1 {k | ∃ d ∈ c.awaits t, k = turnIn passes d + delay tables t.name d} := by
  obtain ⟨earlier, l, a, r, later, hp, rfl, hs, hturn⟩ := h.exists_success ht
  rw [hturn]
  rcases List.eq_nil_or_concat earlier with rfl | ⟨first, previous, hlast⟩
  · exact .inl rfl
  right
  rw [List.concat_eq_append] at hlast
  subst hlast
  have hprevious : passes = first ++ previous :: ((l ++ a :: r) :: later) := by simpa using hp
  have hlate := (h.table_mem hp (by simp : a ∈ l ++ a :: r)).2
  simp only [List.flatten_append, List.flatten_singleton, wins_append, List.mem_append,
    not_or] at hlate
  -- The pass before tried the table as well, and then something was still missing.
  obtain ⟨l', b, r', rfl, hb⟩ := h.exists_attempt hprevious ht hlate.1
  have hfailed : b.succeeded = false := by
    refine Bool.eq_false_of_not_eq_true fun hsucceeded => hlate.2 ?_
    exact mem_wins.mpr ⟨b, by simp, hsucceeded, by rw [hb]⟩
  obtain ⟨d, hd, hfirst, hl'⟩ : ∃ d ∈ c.awaits a.table, d ∉ wins first.flatten ∧ d ∉ wins l' := by
    have hmissing := mt (h.succeeded_iff hprevious).mpr (by simp [hfailed])
    rw [hb] at hmissing
    push Not at hmissing
    exact hmissing
  refine ⟨d, hd, ?_⟩
  by_cases hcame : d ∈ wins (l' ++ b :: r')
  · have hturn' : turnIn passes d = first.length + 1 := by
      rw [hprevious]
      exact turnIn_eq_iff.mpr ⟨hfirst, hcame⟩
    have hr' : d ∈ wins r' := by
      have hnone : wins [b] = [] := by simp [wins, hfailed]
      rw [List.append_cons, wins_append, wins_append, hnone, List.append_nil,
        List.mem_append] at hcame
      exact hcame.resolve_left hl'
    have hdelay := h.delay_eq_one hprevious hr'
    rw [hb] at hdelay
    rw [hturn', hdelay, List.length_append, List.length_singleton]
  · have hnew : d ∉ wins (first ++ [l' ++ b :: r']).flatten := by
      rw [List.flatten_append, List.flatten_singleton, wins_append, List.mem_append]
      exact not_or.mpr ⟨hfirst, hcame⟩
    have hl := ((h.succeeded_iff hp).mp hs d hd).resolve_left hnew
    have hturn' : turnIn passes d = (first ++ [l' ++ b :: r']).length + 1 := by
      rw [hp]
      refine turnIn_eq_iff.mpr ⟨hnew, ?_⟩
      rw [wins_append]
      exact List.mem_append_left _ hl
    rw [hturn', h.delay_eq_zero hp hl, Nat.add_zero]

/-- A table waits for each of those that it has to wait for. -/
theorem turnIn_upper (ht : t ∈ tables) {d : String} (hd : d ∈ c.awaits t) :
    turnIn passes d + delay tables t.name d ≤ turnIn passes t.name := by
  obtain ⟨earlier, l, a, r, later, hp, rfl, hs, hturn⟩ := h.exists_success ht
  have hle := turnIn_le_iff (n := d) earlier ((l ++ a :: r) :: later)
  have hthis := turnIn_le_iff (n := d) (earlier ++ [l ++ a :: r]) later
  rw [List.append_assoc, List.singleton_append, ← hp, List.length_append] at hthis
  rw [← hp] at hle
  rw [hturn]
  rcases (h.succeeded_iff hp).mp hs d hd with hearlier | hl
  · have hdelay : delay tables a.table.name d ≤ 1 := by
      unfold delay
      split <;> omega
    have hturn' := hle.mpr hearlier
    omega
  · have hsame : d ∈ wins (earlier ++ [l ++ a :: r]).flatten := by simp [hl]
    have hturn' := hthis.mpr hsame
    rw [h.delay_eq_zero hp hl, Nat.add_zero]
    simpa using hturn'

theorem isSchedule : IsSchedule c tables (turnIn passes) := by
  intro t ht
  refine ⟨h.turnIn_attained ht, ?_⟩
  rintro k (rfl | ⟨d, hd, rfl⟩)
  · exact turnIn_pos
  · exact h.turnIn_upper ht hd

/-- There is only one schedule, as what a table has to wait for comes about before it. -/
theorem schedule_unique {turn other : String → Nat} (hturn : IsSchedule c tables turn)
    (hother : IsSchedule c tables other) (ht : t ∈ tables) : other t.name = turn t.name := by
  have hall (before after : List Attempt) (hp : passes.flatten = before ++ after) :
      ∀ n ∈ wins before, other n = turn n := by
    induction before using List.reverseRecOn generalizing after with
    | nil => simp [wins]
    | append_singleton before a ih =>
      have hflat : passes.flatten = before ++ a :: after := by simpa using hp
      have hbefore := ih (a :: after) hflat
      intro n hn
      by_cases hold : n ∈ wins before
      · exact hbefore n hold
      · rw [wins_append, List.mem_append] at hn
        obtain ⟨b, hb, hs, rfl⟩ := mem_wins.mp (hn.resolve_left hold)
        obtain rfl := List.mem_singleton.mp hb
        have hmem : b.table ∈ tables := h.mem_tables (by simp [hflat])
        have hset : {k | ∃ d ∈ c.awaits b.table, k = other d + delay tables b.table.name d} =
            {k | ∃ d ∈ c.awaits b.table, k = turn d + delay tables b.table.name d} := by
          ext k
          refine exists_congr fun d => and_congr_right fun hd => ?_
          rw [hbefore d ((h.ready hflat hold).mp hs d hd)]
        have hlatest := hother b.table hmem
        rw [hset] at hlatest
        exact hlatest.unique (hturn b.table hmem)
  exact hall passes.flatten [] (by simp) t.name (h.every t ht)

/-- A pass tries the tables whose turn is then or later, and brings about those whose turn it is. -/
theorem pass_eq (hp : passes = earlier ++ pass :: later) :
    pass.map Attempt.table = tables.filter (fun t => earlier.length < turnIn passes t.name) ∧
      (pass.filter Attempt.succeeded).map Attempt.table =
        tables.filter fun t => turnIn passes t.name = earlier.length + 1 := by
  constructor
  · rw [h.order hp]
    refine List.filter_congr fun t _ => ?_
    rw [hp, decide_eq_decide, ← turnIn_le_iff earlier (pass :: later), not_le]
  · have hwon : pass.filter Attempt.succeeded =
        pass.filter fun a => decide (a.table.name ∈ wins pass) := by
      refine List.filter_congr fun a ha => ?_
      rw [Bool.eq_iff_iff, decide_eq_true_iff]
      exact ⟨fun hs => mem_wins.mpr ⟨a, ha, hs, rfl⟩, h.succeeded_of_mem_wins hp ha⟩
    calc (pass.filter Attempt.succeeded).map Attempt.table
      _ = (pass.map Attempt.table).filter fun t => decide (t.name ∈ wins pass) := by
        rw [hwon, List.filter_map]
        rfl
      _ = tables.filter fun t => turnIn passes t.name = earlier.length + 1 := by
        rw [h.order hp, List.filter_filter]
        refine List.filter_congr fun t _ => ?_
        rw [hp, decide_eq_decide.mpr turnIn_eq_iff, Bool.decide_and, Bool.and_comm]

/-- The run takes as many passes as its last table. -/
theorem isGreatest_turnIn (hsome : ∀ pass ∈ passes, pass ≠ []) (hne : passes ≠ []) :
    IsGreatest {k | ∃ t ∈ tables, k = turnIn passes t.name} passes.length := by
  have hle (t : Table) (ht : t ∈ tables) : turnIn passes t.name ≤ passes.length := by
    have hall := (turnIn_le_iff (n := t.name) passes []).mpr (h.every t ht)
    rwa [List.append_nil] at hall
  constructor
  · obtain ⟨earlier, pass, hlast⟩ := (List.eq_nil_or_concat passes).resolve_left hne
    rw [List.concat_eq_append] at hlast
    obtain ⟨a, ha⟩ := List.exists_mem_of_ne_nil pass (hsome pass (by simp [hlast]))
    obtain ⟨ht, hnew⟩ := h.table_mem hlast ha
    refine ⟨a.table, ht, ?_⟩
    have hlate := mt (turnIn_le_iff earlier [pass]).mp hnew
    have hearly := hle a.table ht
    rw [← hlast] at hlate
    rw [hlast, List.length_append, List.length_singleton] at hearly ⊢
    rw [← hlast] at hearly ⊢
    omega
  · rintro k ⟨t, ht, rfl⟩
    exact hle t ht

end Pass

end Converges

theorem converges (h : Keeps db) {registered : List Table} {made : Nat} {report : SyncReport}
    {passes : List (List Attempt)} (htries : Tries db c₀ passes.flatten c)
    (hcourse : Course made (Schema.ofList registered).toList passes (.ok report)) :
    Converges c₀ (Schema.ofList registered).toList passes where
  nodup := Schema.nodup_names registered
  order hp := hcourse.tries (Schema.nodup_names registered) hp
  ready hp hnew := by
    rw [hp] at htries
    exact Catalog.succeeded_iff h htries hnew
  every t ht := by
    obtain ⟨way, hway⟩ := hcourse.ends (List.Nodup.of_map Table.name (Schema.nodup_names registered))
    obtain rfl := hway.ok_iff.mp ⟨report, rfl⟩
    obtain ⟨a, ha, rfl⟩ := List.mem_map.mp (hway.2.mem_iff.mpr ht)
    exact List.mem_map_of_mem ha

/-- Each table refers to itself, to tables that are there and to tables registered before it. -/
def RefersBack (c : Catalog) (tables : List Table) : Prop :=
  ∀ t ∈ tables, ∀ d ∈ t.dependencies, d = t.name ∨ c.contains d = true ∨
    (tables.map Table.name).idxOf d < (tables.map Table.name).idxOf t.name

theorem RefersBack.idxOf_lt (h : RefersBack c tables) (ht : t ∈ tables) {d : String}
    (hd : d ∈ c.needs t) (hc : c.contains d = false) :
    (tables.map Table.name).idxOf d < (tables.map Table.name).idxOf t.name := by
  obtain ⟨hdep, hne⟩ := mem_dependencies_of_needs hd
  rcases h t ht d hdep with hself | hlive | hlt
  · exact absurd hself hne
  · rw [hc] at hlive
    cases hlive
  · exact hlt

theorem RefersBack.stuck_eq_empty (h : RefersBack c tables) : stuck c tables = ∅ := by
  have hnone (k : Nat) : ∀ n ∈ stuck c tables, (tables.map Table.name).idxOf n ≠ k := by
    induction k using Nat.strongRecOn with
    | ind k ih =>
      rintro n hn rfl
      obtain ⟨t, ht, rfl, d, hd, hc, hin⟩ := stuck_selfBlocked c tables n hn
      have hlt := h.idxOf_lt ht hd hc
      have hmem : d ∈ tables.map Table.name :=
        List.idxOf_lt_length_iff.mp (hlt.trans_le List.idxOf_le_length)
      exact ih _ hlt d (hin hmem) rfl
  exact Set.eq_empty_iff_forall_notMem.mpr fun n hn => hnone _ n hn rfl

/-- Nothing waits for a later pass. -/
theorem RefersBack.isSchedule (h : RefersBack c tables) : IsSchedule c tables fun _ => 1 := by
  intro t ht
  refine ⟨.inl rfl, ?_⟩
  rintro k (rfl | ⟨d, hd, rfl⟩)
  · exact le_rfl
  · obtain ⟨hneeds, hc⟩ := List.mem_filter.mp hd
    have hlt := h.idxOf_lt ht hneeds (by simpa using hc)
    have hdelay : delay tables t.name d = 0 := if_neg (by omega)
    show 1 + delay tables t.name d ≤ 1
    rw [hdelay]

theorem RefersBack.sync_ok (h : Keeps db) {registered : List Table}
    (hback : RefersBack c₀ (Schema.ofList registered).toList) :
    ∃ report c, (sync db (.ofList registered)).Ends c₀ (.ok report) c := by
  obtain ⟨r, c, hends, pending, -, hstuck, hanswer⟩ := sync_settles h registered c₀
  rcases hanswer with ⟨-, report, rfl⟩ | ⟨hne, -⟩
  · exact ⟨report, c, hends⟩
  · obtain ⟨t, ht⟩ := List.exists_mem_of_ne_nil pending hne
    have hin := hstuck t ht
    rw [hback.stuck_eq_empty] at hin
    cases hin

/-- The passes of a run that succeeds. -/
theorem exists_passes (h : Keeps db) {registered : List Table} (hne : registered ≠ [])
    {report : SyncReport} (hrun : (sync db (.ofList registered)).Ends c₀ (.ok report) c) :
    ∃ passes, Course 0 (Schema.ofList registered).toList passes (.ok report) ∧
      Tries db c₀ passes.flatten c ∧
      (sync db.recorded (.ofList registered)).Makes c₀ (.ok report)
        (passes.flatten.flatMap Attempt.calls) c ∧
      report.passes = passes.length ∧
      Converges c₀ (Schema.ofList registered).toList passes ∧
      IsGreatest {k | ∃ t ∈ (Schema.ofList registered).toList, k = turnIn passes t.name}
        passes.length := by
  let tables := (Schema.ofList registered).toList
  have hnodup : tables.Nodup := List.Nodup.of_map Table.name (Schema.nodup_names registered)
  obtain ⟨passes, htries, hcourse, hends⟩ := sync_course hrun
  have hmakes : (sync db.recorded (.ofList registered)).Makes c₀ (.ok report)
      (passes.flatten.flatMap Attempt.calls) c := fun log => sync_of_syncPasses (hends log)
  have hconverges := converges h htries hcourse
  refine ⟨passes, hcourse, htries, hmakes, ?_, hconverges, hconverges.isGreatest_turnIn ?_ ?_⟩
  · exact hcourse.passes_eq.trans (Nat.zero_add passes.length)
  · intro pass hpass
    obtain ⟨earlier, later, hp⟩ := List.append_of_mem hpass
    exact (hcourse.in_order hnodup earlier hp).1
  · exact mt hcourse.nil_iff.mp (Schema.ofList_toList_ne_nil hne)

/-- A run that succeeds brings each table about in the pass in which its turn is, and tries it in all
passes up to that one; the turns are the one schedule of the registered tables, and the run ends with
the last of them. If each table refers back, the run succeeds in a single pass. -/
theorem sync_scheduled (h : Keeps db) {registered : List Table} (hne : registered ≠ [])
    (c₀ : Catalog) :
    let tables := (Schema.ofList registered).toList
    (∀ report c, (sync db (.ofList registered)).Ends c₀ (.ok report) c →
      ∃ turn, IsSchedule c₀ tables turn ∧
        (∀ other, IsSchedule c₀ tables other → ∀ t ∈ tables, other t.name = turn t.name) ∧
        IsGreatest {k | ∃ t ∈ tables, k = turn t.name} report.passes ∧
        ∃ passes, report.passes = passes.length ∧ Course 0 tables passes (.ok report) ∧
          Tries db c₀ passes.flatten c ∧
          (sync db.recorded (.ofList registered)).Makes c₀ (.ok report)
            (passes.flatten.flatMap Attempt.calls) c ∧
          ∀ earlier pass later, passes = earlier ++ pass :: later →
            pass.map Attempt.table = tables.filter (fun t => earlier.length < turn t.name) ∧
            (pass.filter Attempt.succeeded).map Attempt.table =
              tables.filter fun t => turn t.name = earlier.length + 1) ∧
    ((∀ t ∈ tables, ∀ d ∈ t.dependencies, d = t.name ∨ c₀.contains d = true ∨
        (tables.map Table.name).idxOf d < (tables.map Table.name).idxOf t.name) →
      ∃ report c, (sync db (.ofList registered)).Ends c₀ (.ok report) c ∧ report.passes = 1) := by
  intro tables
  constructor
  · intro report c hrun
    obtain ⟨passes, hcourse, htries, hmakes, hpasses, hconverges, hgreatest⟩ :=
      exists_passes h hne hrun
    refine ⟨turnIn passes, hconverges.isSchedule, ?_, hpasses ▸ hgreatest, passes, hpasses, hcourse,
      htries, hmakes, fun _ _ _ hp => hconverges.pass_eq hp⟩
    exact fun other hother t ht => hconverges.schedule_unique hconverges.isSchedule hother ht
  · intro hback
    have hrefers : RefersBack c₀ tables := hback
    obtain ⟨report, c, hrun⟩ := hrefers.sync_ok h
    obtain ⟨passes, -, -, -, hpasses, hconverges, ⟨t, ht, hlast⟩, -⟩ := exists_passes h hne hrun
    have hfirst := hconverges.schedule_unique hconverges.isSchedule hrefers.isSchedule ht
    exact ⟨report, c, hrun, hpasses.trans (hlast.trans hfirst.symm)⟩

/-- Of a chain of three tables the middle one is registered last, and comes about in the first pass
behind the one it refers to; registered from its end, the chain takes one pass. -/
theorem sync_scheduled_chain :
    let a := (Table.ofName "a").column "b_id" ((Column.ofType .integer).references "b" "id")
    let b := (Table.ofName "b").column "c_id" ((Column.ofType .integer).references "c" "id")
    let c := (Table.ofName "c").column "id" (Column.ofType .integer)
    (∃ turn left, (sync (strict .postgres) (.ofList [a, c, b])).Ends .empty
        (.ok ⟨2, ["c", "b", "a"], []⟩) left ∧
      IsSchedule .empty (Schema.ofList [a, c, b]).toList turn ∧
      IsGreatest {k | ∃ t ∈ (Schema.ofList [a, c, b]).toList, k = turn t.name} 2) ∧
    ∃ report left, (sync (strict .postgres) (.ofList [c, b, a])).Ends .empty (.ok report) left ∧
      report.passes = 1 := by
  intro a b c
  constructor
  · have hrun : (sync (strict .postgres) (.ofList [a, c, b]) .empty).answer.toOption =
        some ⟨2, ["c", "b", "a"], []⟩ := by decide +kernel
    obtain ⟨r, left, hends⟩ : ∃ r left, (sync (strict .postgres) (.ofList [a, c, b])).Ends .empty
        r left := ⟨_, _, Action.ends_run ..⟩
    rw [hends.1] at hrun
    cases r with
    | error e => cases hrun
    | ok report =>
      obtain rfl := Option.some.inj hrun
      obtain ⟨turn, hturn, -, hgreatest, -⟩ := (sync_scheduled (strict_keeps .postgres)
        (List.cons_ne_nil a [c, b]) .empty).1 _ left hends
      exact ⟨turn, left, hends, hturn, hgreatest⟩
  · exact (sync_scheduled (strict_keeps .postgres) (List.cons_ne_nil c [b, a]) .empty).2 (by decide)

end Catalog
end Relata
