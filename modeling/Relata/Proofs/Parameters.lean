import Mathlib.Data.List.Flatten
import Mathlib.Data.List.Induction
import Mathlib.Data.List.Nodup
import Mathlib.Data.List.Perm.Subperm
import Relata.Connection.KeyValue
import Relata.Connection.Parts
import Relata.Proofs.Registry

/-!
Connection parameters that are written out and read back. Main statement: what was set is read back
if each value is plain, that is, neither empty nor in need of quote marks or of a backslash; if one is
not, then something that was set is lost.
-/
namespace Relata

namespace KeyValue

open Text

/-- Characters that can stand for a name. -/
def IsName (s : List Char) : Prop := s ≠ [] ∧ ∀ c ∈ s, isNameChar c = true

/-- Characters that stand for themselves where a value is read. -/
structure IsPlain (s : List Char) : Prop where
  ne_nil : s ≠ []
  head : s.head? ≠ some '\''
  chars : ∀ c ∈ s, isSpace c = false ∧ c ≠ '\\'

-- Only the characters of the text are looked at: the libraries can decide what holds of every
-- character there is, but not in reasonable time.
instance (s : List Char) : Decidable (IsName s) :=
  letI := List.decidableBAll (fun c => isNameChar c = true) s
  inferInstanceAs (Decidable (_ ∧ _))

instance (s : List Char) : Decidable (IsPlain s) :=
  letI := List.decidableBAll (fun c => isSpace c = false ∧ c ≠ '\\') s
  decidable_of_iff (s ≠ [] ∧ s.head? ≠ some '\'' ∧ ∀ c ∈ s, isSpace c = false ∧ c ≠ '\\')
    ⟨fun h => ⟨h.1, h.2.1, h.2.2⟩, fun h => ⟨h.ne_nil, h.head, h.chars⟩⟩

/-- The text goes on with a blank, or is over. -/
def Breaks (s : List Char) : Prop := ∀ c ∈ s.head?, isSpace c = true

def written (f : String × String) : List Char := f.1.toList ++ '=' :: f.2.toList

/-- The pairs as they are written, with a blank before each. -/
def spread (fields : List (String × String)) : List Char := fields.flatMap fun f => ' ' :: written f

@[simp] theorem spread_nil : spread [] = [] := rfl

@[simp] theorem spread_cons (f : String × String) (fields : List (String × String)) :
    spread (f :: fields) = ' ' :: (written f ++ spread fields) := rfl

@[simp] theorem length_written (f : String × String) :
    (written f).length = f.1.toList.length + f.2.toList.length + 1 := by
  rw [written, List.length_append, List.length_cons, Nat.add_assoc]

theorem breaks_nil : Breaks [] := nofun

theorem breaks_spread (fields : List (String × String)) : Breaks (spread fields) := by
  cases fields with
  | nil => exact breaks_nil
  | cons f fields =>
    intro c hc
    obtain rfl : ' ' = c := by simpa using hc
    decide

theorem spread_length_le {fields found : List (String × String)} (hnodup : fields.Nodup)
    (h : ∀ f ∈ fields, f ∈ found) : (spread fields).length ≤ (spread found).length := by
  obtain ⟨some, hperm, hsub⟩ := hnodup.subperm h
  calc (spread fields).length = (spread some).length := (hperm.flatMap_right _).length_eq.symm
    _ ≤ (spread found).length := (List.Sublist.flatMap hsub _).length_le

/-- Each pair is written in two characters or more. -/
theorem length_le_spread (fields : List (String × String)) :
    2 * fields.length ≤ (spread fields).length := by
  induction fields with
  | nil => exact Nat.le_refl _
  | cons f fields ih =>
    simp only [spread_cons, List.length_cons, List.length_append, length_written]
    omega

section Reading

theorem dropSpaces_of_head {s : List Char} (h : ∀ c ∈ s.head?, isSpace c = false) :
    dropSpaces s = s := by
  cases s with
  | nil => rfl
  | cons c s => simp [dropSpaces, h c rfl]

theorem dropSpaces_cons {c : Char} (h : isSpace c = true) (s : List Char) :
    dropSpaces (c :: s) = dropSpaces s := List.dropWhile_cons_of_pos h

theorem readPlain_cons {c : Char} (hslash : c ≠ '\\') (s : List Char) :
    readPlain (c :: s) =
      if isSpace c then ([], c :: s) else (c :: (readPlain s).1, (readPlain s).2) := by
  rw [readPlain.eq_def (c :: s)]
  split
  next hnil => cases hnil
  next hs => exact absurd (List.cons.inj hs).1 hslash
  next hs => exact absurd (List.cons.inj hs).1 hslash
  next hs =>
    cases hs
    rfl

theorem readPlain_of_chars {v rest : List Char} (hv : ∀ c ∈ v, isSpace c = false ∧ c ≠ '\\')
    (hrest : Breaks rest) : readPlain (v ++ rest) = (v, rest) := by
  induction v with
  | nil =>
    cases rest with
    | nil => rfl
    | cons c rest =>
      have hc : isSpace c = true := hrest c rfl
      have hslash : c ≠ '\\' := by
        rintro rfl
        exact absurd hc (by decide)
      rw [List.nil_append, readPlain_cons hslash, if_pos hc]
  | cons c v ih =>
    obtain ⟨⟨hspace, hslash⟩, hv⟩ := List.forall_mem_cons.mp hv
    rw [List.cons_append, readPlain_cons hslash, hspace, if_neg Bool.false_ne_true, ih hv]

theorem readValue?_of_isPlain {v rest : List Char} (hv : IsPlain v) (hrest : Breaks rest) :
    readValue? (v ++ rest) = some (v, rest) := by
  have hread := readPlain_of_chars hv.chars hrest
  obtain ⟨c, v, rfl⟩ := List.exists_cons_of_ne_nil hv.ne_nil
  have hquote : c ≠ '\'' := fun h => hv.head (congrArg some h)
  unfold readValue?
  split
  next s hs => exact absurd (List.cons.inj hs).1 hquote
  next => rw [hread]; rfl

theorem readPair?_written {f : String × String} {rest : List Char} (hname : IsName f.1.toList)
    (hvalue : IsPlain f.2.toList) (hrest : Breaks rest) :
    readPair? (' ' :: (written f ++ rest)) = some (some (f, rest)) := by
  have hhead : ∀ c ∈ (f.1.toList ++ '=' :: (f.2.toList ++ rest)).head?, isSpace c = false := by
    obtain ⟨c, name, hc⟩ := List.exists_cons_of_ne_nil hname.1
    rw [hc]
    rintro _ ⟨⟩
    have hchar := hname.2 c (hc ▸ List.mem_cons_self)
    simpa using (Bool.and_eq_true_iff.mp hchar).1
  have hstart : dropSpaces (' ' :: (written f ++ rest)) =
      f.1.toList ++ '=' :: (f.2.toList ++ rest) := by
    rw [dropSpaces_cons (by decide), written, List.append_assoc, List.cons_append]
    exact dropSpaces_of_head hhead
  have hend : isNameChar '=' = false := by decide
  have hvalueHead : ∀ c ∈ (f.2.toList ++ rest).head?, isSpace c = false := by
    obtain ⟨c, v, hc⟩ := List.exists_cons_of_ne_nil hvalue.ne_nil
    rw [hc]
    rintro _ ⟨⟩
    exact (hvalue.chars c (hc ▸ List.mem_cons_self)).1
  have hequals : dropSpaces ('=' :: (f.2.toList ++ rest)) = '=' :: (f.2.toList ++ rest) :=
    dropSpaces_of_head (by rintro _ ⟨⟩; decide)
  have hne : f.1.toList.isEmpty = false := by simpa using hname.1
  simp only [readPair?, hstart, List.takeWhile_append_of_pos hname.2,
    List.dropWhile_append_of_pos hname.2, List.takeWhile_cons, List.dropWhile_cons, hend,
    Bool.false_eq_true, if_false, List.append_nil, hne, hequals, dropSpaces_of_head hvalueHead,
    readValue?_of_isPlain hvalue hrest, String.ofList_toList]

theorem readPairs?_spread {fields : List (String × String)}
    (h : ∀ f ∈ fields, IsName f.1.toList ∧ IsPlain f.2.toList) {fuel : Nat}
    (hfuel : fields.length ≤ fuel) : readPairs? fuel (spread fields) = some fields := by
  induction fields generalizing fuel with
  | nil => cases fuel <;> rfl
  | cons f fields ih =>
    obtain ⟨⟨hname, hvalue⟩, h⟩ := List.forall_mem_cons.mp h
    cases fuel with
    | zero => cases hfuel
    | succ fuel =>
      rw [readPairs?, spread_cons, readPair?_written hname hvalue (breaks_spread fields)]
      simp only [ih h (Nat.le_of_succ_le_succ hfuel), Option.map_some]

end Reading

section Spending

/-- A value without quote marks takes as much text as it says, and more only where it is not made of
characters that stand for themselves. -/
theorem readPlain_spends (s : List Char) :
    (readPlain s).1.length + (readPlain s).2.length ≤ s.length ∧ Breaks (readPlain s).2 ∧
      ((readPlain s).1.length + (readPlain s).2.length = s.length →
        s = (readPlain s).1 ++ (readPlain s).2 ∧
          ∀ c ∈ (readPlain s).1, isSpace c = false ∧ c ≠ '\\') := by
  fun_induction readPlain s with
  | case1 => exact ⟨Nat.le_refl _, breaks_nil, fun _ => ⟨rfl, nofun⟩⟩
  | case2 c s r ih =>
    obtain ⟨hle, hbreaks, -⟩ := ih
    simp only [List.length_cons, r]
    exact ⟨by omega, hbreaks, fun h => by omega⟩
  | case3 => exact ⟨Nat.zero_le _, breaks_nil, nofun⟩
  | case4 c s hslash hlast hspace =>
    refine ⟨by simp, fun b hb => ?_, fun _ => ⟨rfl, nofun⟩⟩
    obtain rfl : c = b := by simpa using hb
    exact hspace
  | case5 c s hslash hlast hspace r ih =>
    obtain ⟨hle, hbreaks, hexact⟩ := ih
    simp only [List.length_cons, r]
    refine ⟨by omega, hbreaks, fun h => ?_⟩
    obtain ⟨hs, hchars⟩ := hexact (by omega)
    refine ⟨congrArg (c :: ·) hs, List.forall_mem_cons.mpr ⟨⟨by simpa using hspace, ?_⟩, hchars⟩⟩
    rintro rfl
    cases s with
    | nil => exact hlast rfl rfl
    | cons b s => exact hslash b s rfl rfl

theorem readQuoted?_spends {s v rest : List Char} (h : readQuoted? s = some (v, rest)) :
    v.length + rest.length < s.length := by
  fun_induction readQuoted? s generalizing v with
  | case1 => cases h
  | case2 s =>
    cases h
    simp
  | case3 c s ih =>
    obtain ⟨⟨v, rest⟩, hread, hr⟩ := Option.map_eq_some_iff.mp h
    cases hr
    have hlt : v.length + rest.length < s.length := ih hread
    simp only [List.length_cons]
    omega
  | case4 => cases h
  | case5 c s _ _ _ ih =>
    obtain ⟨⟨v, rest⟩, hread, hr⟩ := Option.map_eq_some_iff.mp h
    cases hr
    have hlt : v.length + rest.length < s.length := ih hread
    simp only [List.length_cons]
    omega

/-- The value with what follows it is no longer than the text. Between quote marks there is more
text than that; without them the value ends at a blank, and is plain if nothing was passed over. -/
theorem readValue?_spends {s v rest : List Char} (h : readValue? s = some (v, rest)) :
    v.length + rest.length + 2 ≤ s.length ∨
      v.length + rest.length ≤ s.length ∧ Breaks rest ∧
        (v.length + rest.length = s.length → IsPlain v) := by
  unfold readValue? at h
  split at h
  next s =>
    have hlt := readQuoted?_spends h
    rw [List.length_cons]
    exact .inl (by omega)
  next hquote =>
    obtain ⟨hle, hbreaks, hexact⟩ := readPlain_spends s
    split at h
    · cases h
    next hne =>
      rw [Option.some.inj h] at hle hbreaks hexact hne
      refine .inr ⟨hle, hbreaks, fun hlength => ?_⟩
      obtain ⟨rfl, hchars⟩ := hexact hlength
      refine ⟨by simpa using hne, fun hhead => ?_, hchars⟩
      obtain ⟨more, rfl⟩ := List.head?_eq_some_iff.mp hhead
      exact hquote _ rfl

theorem readPair?_spends {s rest : List Char} {f : String × String}
    (h : readPair? s = some (some (f, rest))) :
    (written f).length + rest.length + 2 ≤ s.length ∨
      (written f).length + rest.length ≤ s.length ∧ Breaks rest ∧
        ((written f).length + rest.length = s.length → IsPlain f.2.toList) := by
  have hlead (s : List Char) : (dropSpaces s).length ≤ s.length :=
    (List.dropWhile_suffix isSpace).length_le
  unfold readPair? at h
  simp only at h
  split at h
  · cases h
  split at h
  next more hmore =>
    split at h
    next v rest hvalue =>
      cases h
      have hname : ((dropSpaces s).takeWhile isNameChar ++
          (dropSpaces s).dropWhile isNameChar).length = (dropSpaces s).length := by
        rw [List.takeWhile_append_dropWhile]
      have hequals := hlead ((dropSpaces s).dropWhile isNameChar)
      rw [hmore] at hequals
      have hfront := hlead s
      have hgap := hlead more
      simp only [length_written, String.toList_ofList, List.length_append, List.length_cons] at *
      rcases readValue?_spends hvalue with hquoted | ⟨hle, hbreaks, hexact⟩
      · exact .inl (by omega)
      · exact .inr ⟨by omega, hbreaks, fun hlength => hexact (by omega)⟩
    next => cases h
  next => cases h

theorem readPairs?_blank {fuel : Nat} {c : Char} (h : isSpace c = true) (s : List Char) :
    readPairs? fuel (c :: s) = readPairs? fuel s := by
  cases fuel with
  | zero => rfl
  | succ fuel => rw [readPairs?, readPairs?, readPair?, readPair?, dropSpaces_cons h]

theorem readPairs?_nil (fuel : Nat) : readPairs? fuel [] = some [] := by cases fuel <;> rfl

/-- What is written for the pairs that a text is read as is no longer than the text, but for the
first blank; if it is just as long, then all values are plain. -/
theorem readPairs?_spends {fuel : Nat} {s : List Char} {found : List (String × String)}
    (h : readPairs? fuel s = some found) : (spread found).length ≤ s.length + 1 ∧
      ((spread found).length = s.length + 1 → ∀ f ∈ found, IsPlain f.2.toList) := by
  induction fuel generalizing s found with
  | zero =>
    cases h
    exact ⟨Nat.zero_le _, fun _ => nofun⟩
  | succ fuel ih =>
    rw [readPairs?] at h
    split at h
    · cases h
    · cases h
      exact ⟨Nat.zero_le _, fun _ => nofun⟩
    next f rest hpair =>
      obtain ⟨more, hmore, rfl⟩ := Option.map_eq_some_iff.mp h
      simp only [spread_cons, List.length_cons, List.length_append]
      rcases readPair?_spends hpair with hquoted | ⟨hle, hbreaks, hexact⟩
      · have := (ih hmore).1
        exact ⟨by omega, fun hlength => by omega⟩
      -- The blank before the next pair is the one that ends this value.
      obtain ⟨hrest, hplain⟩ : (spread more).length ≤ rest.length ∧
          ((spread more).length = rest.length → ∀ f ∈ more, IsPlain f.2.toList) := by
        cases rest with
        | nil =>
          rw [readPairs?_nil] at hmore
          cases hmore
          exact ⟨Nat.le_refl _, fun _ => nofun⟩
        | cons c rest =>
          rw [readPairs?_blank (hbreaks c rfl)] at hmore
          exact ih hmore
      refine ⟨by omega, fun hlength => List.forall_mem_cons.mpr ⟨hexact ?_, hplain ?_⟩⟩ <;> omega

end Spending

end KeyValue

/-- A parameter, as it is set on the way to a connection string. -/
inductive Parameter where
  | host (s : String)
  | port (n : UInt16)
  | database (s : String)
  | user (s : String)
  | password (s : String)
  | option (key value : String)
  deriving DecidableEq, Repr

namespace Parameter

open KeyValue

/-- The name that the server knows the parameter under, and its value as text. -/
def setting : Parameter → String × String
  | host s => ("host", s)
  | port n => ("port", Nat.repr n.toNat)
  | database s => ("dbname", s)
  | user s => ("user", s)
  | password s => ("password", s)
  | option key value => (key, value)

/-- The names of the parameters that are no options. -/
def fixedNames : List String := ["host", "port", "dbname", "user", "password"]

def IsOptionName (name : String) : Prop := IsName name.toList ∧ name ∉ fixedNames

instance (name : String) : Decidable (IsOptionName name) := inferInstanceAs (Decidable (_ ∧ _))

/-- An option goes under a name of its own. -/
def IsAllowed : Parameter → Prop
  | option key _ => IsOptionName key
  | _ => True

/-- The value that was given last under a name. -/
def lastGiven? (given : List Parameter) (name : String) : Option String :=
  (given.map setting).reverse.lookup name

theorem lastGiven?_snoc (given : List Parameter) (x : Parameter) (name : String) :
    lastGiven? (given ++ [x]) name =
      if name = x.setting.1 then some x.setting.2 else lastGiven? given name := by
  rw [lastGiven?, List.map_append, List.reverse_append]
  change (x.setting :: (given.map setting).reverse).lookup name = _
  exact Keyed.lookup_cons_eq_ite _ _ _ _

theorem isName_fixed {name : String} (h : name ∈ fixedNames) : IsName name.toList := by
  have hall : ∀ n ∈ fixedNames, IsName n.toList := by decide
  exact hall name h

end Parameter

namespace ConnectionParts

open KeyValue Parameter

def set (p : ConnectionParts) : Parameter → ConnectionParts
  | .host s => p.withHost s
  | .port n => p.withPort n
  | .database s => p.withDatabase s
  | .user s => p.withUser s
  | .password s => p.withPassword s
  | .option key value => p.withOption key value

/-- The parts for a server, after the parameters have been set in order. -/
def ofParameters (given : List Parameter) : ConnectionParts := given.foldl set (ofDialect .postgres)

/-- The parts that are no options, by the names that the server knows them under. -/
def fixed (p : ConnectionParts) : List (String × Option String) :=
  [("host", p.host), ("port", p.port.map fun n => Nat.repr n.toNat), ("dbname", p.database),
    ("user", p.user), ("password", p.password)]

/-- The value of the parameter that the server knows under a name. -/
def get? (p : ConnectionParts) (name : String) : Option String :=
  (p.fixed.lookup name).getD (p.options.get? name)

structure Proper (p : ConnectionParts) : Prop where
  dialect : p.dialect = .postgres
  nodup : p.options.keys.Nodup
  names : ∀ key ∈ p.options.keys, IsOptionName key

variable {p : ConnectionParts}

theorem insertByName_perm (e : String × String) (l : List (String × String)) :
    (insertByName e l).Perm (e :: l) := by
  induction l with
  | nil => rfl
  | cons f l ih =>
    rw [insertByName]
    split
    · rfl
    · exact (ih.cons f).trans (.swap e f l)

theorem sortedByName_perm (l : List (String × String)) : (sortedByName l).Perm l := by
  induction l with
  | nil => rfl
  | cons e l ih => exact (insertByName_perm e _).trans (ih.cons e)

theorem fields_eq (p : ConnectionParts) : p.fields =
    p.fixed.filterMap (fun e => e.2.map (Prod.mk e.1)) ++ sortedByName p.options.entries := by
  simp only [fields, fixed, List.filterMap_cons, Option.map_map, id_eq]
  rfl

theorem names_fixed (p : ConnectionParts) : p.fixed.map Prod.fst = fixedNames := rfl

theorem names_fixed_sublist (p : ConnectionParts) :
    ((p.fixed.filterMap fun e => e.2.map (Prod.mk e.1)).map Prod.fst).Sublist fixedNames := by
  rw [← p.names_fixed]
  generalize p.fixed = l
  induction l with
  | nil => rfl
  | cons e l ih =>
    obtain ⟨n, value⟩ := e
    cases value with
    | none => exact ih.cons n
    | some value => exact ih.cons_cons n

theorem Proper.lookup_eq_none (h : p.Proper) {name : String} (hname : name ∈ p.options.keys) :
    p.fixed.lookup name = none := by
  refine List.lookup_eq_none_iff.mpr fun e he => ?_
  have hfixed : e.1 ∈ fixedNames := List.mem_map_of_mem he
  rw [bne_iff_ne]
  rintro rfl
  exact (h.names e.1 hname).2 hfixed

theorem Proper.mem_fields (h : p.Proper) {name value : String} :
    (name, value) ∈ p.fields ↔ p.get? name = some value := by
  have hoption : (name, value) ∈ sortedByName p.options.entries ↔
      p.options.get? name = some value :=
    (sortedByName_perm _).mem_iff.trans (Keyed.lookup_eq_some_iff_mem h.nodup).symm
  have hfixed : (name, value) ∈ p.fixed.filterMap (fun e => e.2.map (Prod.mk e.1)) ↔
      p.fixed.lookup name = some (some value) := by
    rw [Keyed.lookup_eq_some_iff_mem (p.names_fixed ▸ by decide)]
    simp
  rw [fields_eq, List.mem_append, hoption, hfixed, get?]
  cases hlookup : p.fixed.lookup name with
  | none => simp
  | some given =>
    have hno : p.options.get? name ≠ some value := fun hsome => by
      have hkey : name ∈ p.options.keys := List.mem_map_of_mem (Keyed.mem_of_get? hsome)
      rw [h.lookup_eq_none hkey] at hlookup
      cases hlookup
    simp [hno]

theorem Proper.nodup_names (h : p.Proper) : (p.fields.map Prod.fst).Nodup := by
  have hsub := p.names_fixed_sublist
  have hperm := (sortedByName_perm p.options.entries).map Prod.fst
  rw [fields_eq, List.map_append, List.nodup_append]
  refine ⟨hsub.nodup (by decide), hperm.nodup_iff.mpr h.nodup, fun name hname key hkey => ?_⟩
  rintro rfl
  exact (h.names name (hperm.mem_iff.mp hkey)).2 (hsub.subset hname)

theorem Proper.set (h : p.Proper) {x : Parameter} (hx : x.IsAllowed) : (p.set x).Proper := by
  cases x with
  | option key value =>
    refine ⟨h.dialect, Keyed.keys_insert_nodup h.nodup key value, fun name hname => ?_⟩
    rcases Keyed.mem_keys_insert hname with rfl | hname
    · exact hx
    · exact h.names name hname
  | _ => exact ⟨h.dialect, h.nodup, h.names⟩

theorem get?_set (p : ConnectionParts) {x : Parameter} (hx : x.IsAllowed) (name : String) :
    (p.set x).get? name = if name = x.setting.1 then some x.setting.2 else p.get? name := by
  cases x with
  | option key value =>
    have hfixed : p.fixed.lookup key = none := by
      refine List.lookup_eq_none_iff.mpr fun e he => ?_
      rw [bne_iff_ne]
      rintro rfl
      exact hx.2 (List.mem_map_of_mem he)
    change (p.fixed.lookup name).getD ((p.options.insert key value).get? name) = _
    rw [Keyed.get?_insert]
    by_cases hname : name = key
    · subst hname
      simp [hfixed, setting]
    · simp [hname, setting, get?]
  | _ =>
    simp only [get?, ConnectionParts.set, setting, fixed, Keyed.lookup_cons_eq_ite]
    split_ifs <;> simp_all [withHost, withPort, withDatabase, withUser, withPassword]

theorem proper_ofParameters {given : List Parameter} (h : ∀ x ∈ given, x.IsAllowed) :
    (ofParameters given).Proper := by
  induction given using List.reverseRecOn with
  | nil => exact ⟨rfl, List.nodup_nil, nofun⟩
  | append_singleton given x ih =>
    obtain ⟨hgiven, hx⟩ := List.forall_mem_append.mp h
    rw [ofParameters, List.foldl_append]
    exact (ih hgiven).set (hx x List.mem_cons_self)

/-- Of the values that are given under one name, the last one counts. -/
theorem get?_ofParameters {given : List Parameter} (h : ∀ x ∈ given, x.IsAllowed) (name : String) :
    (ofParameters given).get? name = lastGiven? given name := by
  induction given using List.reverseRecOn with
  | nil =>
    simp only [ofParameters, List.foldl_nil, get?, fixed, ofDialect, Keyed.lookup_cons_eq_ite]
    split_ifs <;> rfl
  | append_singleton given x ih =>
    obtain ⟨hgiven, hx⟩ := List.forall_mem_append.mp h
    rw [lastGiven?_snoc, ← ih hgiven, ofParameters, List.foldl_append]
    exact get?_set _ (hx x List.mem_cons_self) name

theorem cons_joinWith_written (f : String × String) (fields : List (String × String)) :
    ' ' :: (Text.joinWith " " ((f :: fields).map fun f => f.1 ++ "=" ++ f.2)).toList =
      spread (f :: fields) := by
  induction fields generalizing f with
  | nil => simp [written]
  | cons g fields ih =>
    rw [spread_cons, ← ih]
    simp [Text.joinWith, written]

theorem Proper.cons_connectionString (h : p.Proper) (hne : p.fields ≠ []) :
    ' ' :: p.connectionString.toList = spread p.fields := by
  obtain ⟨f, fields, hfields⟩ := List.exists_cons_of_ne_nil hne
  rw [connectionString, h.dialect, hfields, cons_joinWith_written]

theorem Proper.isName (h : p.Proper) {f : String × String} (hf : f ∈ p.fields) :
    IsName f.1.toList := by
  rw [fields_eq] at hf
  rcases List.mem_append.mp hf with hf | hf
  · exact isName_fixed (p.names_fixed_sublist.subset (List.mem_map_of_mem hf))
  · have hkey := (sortedByName_perm p.options.entries).mem_iff.mp hf
    exact (h.names f.1 (List.mem_map_of_mem hkey)).1

/-- Plain values are read back. -/
theorem Proper.read?_eq (h : p.Proper) (hplain : ∀ f ∈ p.fields, IsPlain f.2.toList) :
    read? p.connectionString = some p.fields := by
  by_cases hne : p.fields = []
  · rw [read?, connectionString, h.dialect, hne]
    rfl
  have htext := h.cons_connectionString hne
  have hfuel : p.fields.length ≤ p.connectionString.length := by
    have hlength := congrArg List.length htext
    have hspread := length_le_spread p.fields
    rw [List.length_cons, String.length_toList] at hlength
    omega
  rw [read?, ← readPairs?_blank (show Text.isSpace ' ' = true by decide), htext]
  exact readPairs?_spread (fun f hf => ⟨h.isName hf, hplain f hf⟩) hfuel

/-- Where a text is read so that nothing of what was set is lost, all values are plain. -/
theorem Proper.isPlain (h : p.Proper) {found : List (String × String)}
    (hread : read? p.connectionString = some found) (hfound : ∀ f ∈ p.fields, f ∈ found)
    {f : String × String} (hf : f ∈ p.fields) : IsPlain f.2.toList := by
  have htext := congrArg List.length (h.cons_connectionString (List.ne_nil_of_mem hf))
  obtain ⟨hle, hplain⟩ := readPairs?_spends hread
  have hge := spread_length_le (List.Nodup.of_map _ h.nodup_names) hfound
  rw [List.length_cons] at htext
  exact hplain (by omega) f (hfound f hf)

/-- The text is read as just what was set if all values are plain. Else it may be read as well, but
something that was set is lost. -/
theorem read?_connectionString {given : List Parameter} (h : ∀ x ∈ given, x.IsAllowed) :
    let text := (ofParameters given).connectionString
    let IsSet (f : String × String) := lastGiven? given f.1 = some f.2
    ((∀ f, IsSet f → IsPlain f.2.toList) → ∃ found, read? text = some found ∧
        (found.map Prod.fst).Nodup ∧ ∀ f, f ∈ found ↔ IsSet f) ∧
      ((∃ f, IsSet f ∧ ¬IsPlain f.2.toList) → ∀ found, read? text = some found →
        ∃ f, IsSet f ∧ f ∉ found) := by
  intro text IsSet
  have hp := proper_ofParameters h
  have hset (f : String × String) : f ∈ (ofParameters given).fields ↔ IsSet f := by
    rw [hp.mem_fields, get?_ofParameters h]
  constructor
  · intro hplain
    exact ⟨_, hp.read?_eq fun f hf => hplain f ((hset f).mp hf), hp.nodup_names, hset⟩
  · rintro ⟨f, hf, hplain⟩ found hread
    by_contra! hall
    exact hplain (hp.isPlain hread (fun g hg => hall g ((hset g).mp hg)) ((hset f).mpr hf))

/-- An option that is given twice counts as it was given last, and is read back so. -/
theorem read?_connectionString_plain :
    let given := [.host "db", .port 5432, .option "sslmode" "disable", .option "sslmode" "require"]
    (∀ x ∈ given, x.IsAllowed) ∧
      ∃ found, read? (ofParameters given).connectionString = some found ∧
        ∀ f, f ∈ found ↔ f ∈ [("host", "db"), ("port", "5432"), ("sslmode", "require")] := by
  intro given
  have h : ∀ x ∈ given, x.IsAllowed := by
    simp only [given, List.forall_mem_cons, IsAllowed, true_and]
    exact ⟨by decide, by decide, nofun⟩
  have hfields : (ofParameters given).fields =
      [("host", "db"), ("port", "5432"), ("sslmode", "require")] := by decide +kernel
  have hset (f : String × String) : lastGiven? given f.1 = some f.2 ↔
      f ∈ [("host", "db"), ("port", "5432"), ("sslmode", "require")] := by
    rw [← get?_ofParameters h, ← (proper_ofParameters h).mem_fields, hfields]
  have hplain : ∀ f ∈ [("host", "db"), ("port", "5432"), ("sslmode", "require")],
      IsPlain f.2.toList := by decide
  obtain ⟨found, hread, -, hfound⟩ :=
    (read?_connectionString h).1 fun f hf => hplain f ((hset f).mp hf)
  exact ⟨h, found, hread, fun f => (hfound f).trans (hset f)⟩

/-- A password with a blank in it is cut short, and what follows is read as another host. -/
theorem read?_connectionString_overridden :
    let given := [.host "db", .password "p host=other"]
    (∀ x ∈ given, x.IsAllowed) ∧ lastGiven? given "password" = some "p host=other" ∧
      (ofParameters given).connectionString = "host=db password=p host=other" ∧
      read? (ofParameters given).connectionString =
        some [("host", "db"), ("password", "p"), ("host", "other")] := by
  refine ⟨?_, by decide, by decide +kernel, by decide +kernel⟩
  simp [IsAllowed]

end ConnectionParts
end Relata
