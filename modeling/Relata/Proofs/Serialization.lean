import Relata.Proofs.Rereading
import Relata.Value.Serialized

/-!
Values read back from the documents that name their types. Main statement: a value without
floating-point numbers is what its text reads as, just if a document in it leaves one of the levels that
can be read, and its objects are maps.
-/
namespace Relata

theorem Text.toList_joinWith_cons (sep s : String) (rest : List String) :
    (joinWith sep (s :: rest)).toList =
      s.toList ++ rest.flatMap fun t => sep.toList ++ t.toList := by
  induction rest generalizing s with
  | nil => simp
  | cons t rest ih => simp [joinWith, ih]

namespace Json

mutual

/-- Every object is a map: no two of its members have one name, at any depth. -/
def NamesOnce : Json → Prop
  | .array items => NamesOnceItems items
  | .object members => (members.map Prod.fst).Nodup ∧ NamesOnceMembers members
  | _ => True

def NamesOnceItems : List Json → Prop
  | [] => True
  | x :: xs => x.NamesOnce ∧ NamesOnceItems xs

def NamesOnceMembers : List (String × Json) → Prop
  | [] => True
  | (_, x) :: rest => x.NamesOnce ∧ NamesOnceMembers rest

end

mutual

theorem merged_eq_self_iff : (d : Json) → (d.merged = d ↔ d.NamesOnce)
  | .null => iff_of_true rfl trivial
  | .bool _ => iff_of_true rfl trivial
  | .number _ => iff_of_true rfl trivial
  | .string _ => iff_of_true rfl trivial
  | .array items => by
    rw [merged, array.injEq, NamesOnce]
    exact mergedItems_eq_self_iff items
  | .object members => by
    rw [merged, object.injEq, NamesOnce, ← mergedMembers_eq_self_iff members]
    constructor
    · intro h
      have hnodup := Keyed.nodup_keys_ofList (mergedMembers members)
      rw [Keyed.keys, h] at hnodup
      have hfixed : ∀ m ∈ members, m.2.merged = m.2 := by
        intro m hm
        rw [← h] at hm
        exact merged_of_mem members m (Keyed.mem_entries_ofList hm)
      exact ⟨hnodup, mergedMembers_eq_self hfixed⟩
    · rintro ⟨hnodup, hmembers⟩
      rw [hmembers, Keyed.entries_ofList hnodup]

theorem mergedItems_eq_self_iff : (items : List Json) →
    (mergedItems items = items ↔ NamesOnceItems items)
  | [] => iff_of_true rfl trivial
  | x :: xs => by
    rw [mergedItems, List.cons.injEq, NamesOnceItems, merged_eq_self_iff x, mergedItems_eq_self_iff xs]

theorem mergedMembers_eq_self_iff : (members : List (String × Json)) →
    (mergedMembers members = members ↔ NamesOnceMembers members)
  | [] => iff_of_true rfl trivial
  | (name, x) :: rest => by
    rw [mergedMembers, List.cons.injEq, Prod.mk.injEq, NamesOnceMembers, merged_eq_self_iff x,
      mergedMembers_eq_self_iff rest]
    exact and_congr_left fun _ => and_iff_right rfl

end

theorem namesOnce_merged (d : Json) : d.merged.NamesOnce :=
  (merged_eq_self_iff d.merged).mp (merged_merged d)

/-- The numbers of the document are integers, at every depth. -/
def Integral (d : Json) : Prop := ∀ n ∈ d.numbers, ∃ z, n = .int z

theorem integral_bool (b : Bool) : (bool b).Integral := by simp [Integral, numbers]

theorem integral_string (s : String) : (string s).Integral := by simp [Integral, numbers]

theorem Integral.rereads {d : Json} (h : d.Integral) : ∀ n ∈ d.numbers, n.Rereads := by
  intro n hn
  obtain ⟨z, rfl⟩ := h n hn
  exact JsonNumber.rereads_int z

/-- A byte as it stands in a document. -/
def ofByte (b : UInt8) : Json :=
  .number (.int ⟨b.toNat, by rw [Int64.toInt_minValue]; omega,
    by have h := b.toNat_lt; unfold UInt64.size; omega⟩)

theorem integral_bytes (bs : List UInt8) : (array (bs.map ofByte)).Integral := by
  induction bs with
  | nil => simp [Integral, numbers, numbersItems]
  | cons b bs ih =>
    intro n hn
    rw [numbers, List.map_cons, numbersItems, List.mem_append] at hn
    rcases hn with hn | hn
    · exact ⟨_, List.mem_singleton.mp hn⟩
    · exact ih n hn

theorem depth_bytes (bs : List UInt8) : (array (bs.map ofByte)).depth = 1 := by
  have hitems : depthItems (bs.map ofByte) ≤ 0 := depthItems_le (by simp [ofByte, depth])
  rw [depth]
  omega

end Json

namespace Value

open Number Json

variable {v : Value}

theorem tagged_render (name : String) (d : Json) :
    tagged name d.render = (object [(name, d)]).render := by
  rw [← String.toList_inj]
  simp [tagged, quote, render, chars, charsMembers]

theorem bytesText_eq (bs : List UInt8) : bytesText bs = (array (bs.map ofByte)).render := by
  rw [← String.toList_inj]
  cases bs with
  | nil => rfl
  | cons b bs =>
    have hbyte (b : UInt8) : (ofByte b).chars = (Nat.repr b.toNat).toList := rfl
    simp [bytesText, render, chars, charsItems_eq, tailText, Text.toList_joinWith_cons, hbyte,
      List.flatMap_map]

theorem readByte?_ofByte (b : UInt8) : readByte? (ofByte b) = some b := by
  have hrange : (0 : Int) ≤ b.toNat ∧ (b.toNat : Int) ≤ 255 := by
    have h := b.toNat_lt
    omega
  simp [readByte?, ofByte, readLong?, hrange]

theorem mapM_readByte? (bs : List UInt8) : (bs.map ofByte).mapM readByte? = some bs := by
  induction bs with
  | nil => rfl
  | cons b bs ih =>
    rw [List.map_cons, List.mapM_cons, readByte?_ofByte, ih]
    rfl

/-- The object around a payload takes one of the levels that can be read. -/
theorem deserialize?_tagged {name : String} {payload : Json} (h : payload.Integral)
    (hdepth : payload.depth ≤ 126) :
    deserialize? (tagged name payload.render) = readTagged? name payload := by
  have hobject : parseMembers? (object [(name, payload)]).render = some (object [(name, payload)]) := by
    refine parseMembers?_render ?_ ?_
    · simpa [numbers, numbersMembers] using h.rereads
    · simp only [depth, depthMembers, maxDepth]
      omega
  rw [deserialize?, tagged_render, hobject]

theorem of_readTagged?_json {name : String} {payload d : Json}
    (h : readTagged? name payload = some (.json d)) : d = payload.merged := by
  unfold readTagged? at h
  split at h
  all_goals simp_all

/-- A document in a value that is read has room for the object around it. -/
theorem of_deserialize?_json {text : String} {d : Json} (h : deserialize? text = some (.json d)) :
    d.depth ≤ 126 ∧ d.NamesOnce := by
  unfold deserialize? at h
  split at h
  next => cases h
  next name payload hobject =>
    obtain rfl := of_readTagged?_json h
    have hdepth := depth_of_parseMembers? hobject
    have hmerged := depth_merged_le payload
    simp only [depth, depthMembers, maxDepth] at hdepth
    exact ⟨by omega, namesOnce_merged payload⟩
  next => cases h

/-- The value is no floating-point number, and its document holds none. -/
def Integral : Value → Prop
  | .float _ | .double _ => False
  | .json d => d.Integral
  | _ => True

/-- The document of the value leaves a level for the object around it, and its objects are maps, as
they are in every document that is read. -/
def Fits (v : Value) : Prop := ∀ d, v = .json d → d.depth ≤ 126 ∧ d.NamesOnce

theorem deserialize?_wide (name : String) (z : WideInt) :
    deserialize? (tagged name (Int.repr z.val)) = readTagged? name (.number (.int z)) := by
  have hintegral : (Json.number (.int z)).Integral := fun n hn => ⟨z, List.mem_singleton.mp hn⟩
  have htext : Int.repr z.val = (Json.number (.int z)).render := String.ofList_toList.symm
  rw [htext, deserialize?_tagged hintegral (Nat.zero_le _)]

/-- The text of an integer in the range of 64-bit integers is read as its type tells. -/
theorem deserialize?_integer {name : String} {z lo hi : Int} (f : Int → Value)
    (hname : ∀ d, readTagged? name d = (readLong? lo hi d).map f) (hlow : lo ≤ z) (hhigh : z ≤ hi)
    (hlo : minLong ≤ lo) (hhi : hi ≤ maxLong) : deserialize? (tagged name (Int.repr z)) = some (f z) := by
  have hfits : Int64.minValue.toInt ≤ z ∧ z < UInt64.size := by
    have hmax : maxLong < UInt64.size := by decide
    exact ⟨by rw [← minLong]; omega, by omega⟩
  have hwide := deserialize?_wide name ⟨z, hfits.1, hfits.2⟩
  rw [hwide, hname, readLong?, if_pos ⟨hlow, hhigh⟩]
  rfl

/-- A value without floating-point numbers is read back if its document is not too deep. -/
theorem deserialize?_serialize (h : v.Integral) (hfits : v.Fits) : deserialize? v.serialize = some v := by
  cases v with
  | null =>
    have hnull : parseMembers? (quote "Null") = some (.string "Null") :=
      parseMembers?_render (d := .string "Null") (integral_string _).rereads (Nat.zero_le _)
    rw [deserialize?, serialize, hnull]
    rfl
  | bool b =>
    have htext : boolText b = (Json.bool b).render := by cases b <;> rfl
    rw [serialize, htext, deserialize?_tagged (integral_bool b) (Nat.zero_le _)]
    simp [readTagged?]
  | int n =>
    have hname (d : Json) : readTagged? "Int" d =
        (readLong? minInt maxInt d).map fun z => .int (Int32.ofInt z) := by simp [readTagged?]
    have hread := deserialize?_integer _ hname (minInt_le n) (le_maxInt n) (by decide) (by decide)
    rw [serialize, hread, Int32.ofInt_toInt]
  | long n =>
    have hname (d : Json) : readTagged? "Long" d =
        (readLong? minLong maxLong d).map fun z => .long (Int64.ofInt z) := by simp [readTagged?]
    have hread := deserialize?_integer _ hname (minLong_le n) (le_maxLong n) (Int.le_refl _) (Int.le_refl _)
    rw [serialize, hread, Int64.ofInt_toInt]
  | float x => exact h.elim
  | double x => exact h.elim
  | string s =>
    have htext : quote s = (Json.string s).render := rfl
    rw [serialize, htext, deserialize?_tagged (integral_string s) (Nat.zero_le _)]
    simp [readTagged?]
  | bytes bs =>
    have hdepth : (array (bs.map ofByte)).depth ≤ 126 := by
      rw [depth_bytes]
      decide
    have hname : readTagged? "Bytes" (array (bs.map ofByte)) =
        ((bs.map ofByte).mapM readByte?).map .bytes := by simp only [readTagged?]
    rw [serialize, bytesText_eq, deserialize?_tagged (integral_bytes bs) hdepth, hname, mapM_readByte?]
    rfl
  | timestamp n =>
    have hname (d : Json) : readTagged? "Timestamp" d =
        (readLong? minLong maxLong d).map fun z => .timestamp (Int64.ofInt z) := by simp [readTagged?]
    have hread := deserialize?_integer _ hname (minLong_le n) (le_maxLong n) (Int.le_refl _) (Int.le_refl _)
    rw [serialize, hread, Int64.ofInt_toInt]
  | json d =>
    obtain ⟨hdepth, hnames⟩ := hfits d rfl
    rw [serialize, deserialize?_tagged h hdepth]
    simp [readTagged?, (merged_eq_self_iff d).mpr hnames]

/-- A value without floating-point numbers is what its text reads as, of the same type, just if a
document in it leaves room for the object around it. Hence no two such values have one text. -/
theorem serialization_faithful (h : v.Integral) :
    (deserialize? v.serialize = some v ↔ v.Fits) ∧
      (v.Fits → ∀ w : Value, w.Integral → w.Fits → w.serialize = v.serialize → w = v) := by
  refine ⟨⟨?_, deserialize?_serialize h⟩, fun hfits w hw hwfits heq => ?_⟩
  · rintro hread d rfl
    exact of_deserialize?_json hread
  · have hv := deserialize?_serialize h hfits
    rw [← heq, deserialize?_serialize hw hwfits] at hv
    exact Option.some.inj hv

/-- The largest and the least of the integers, the names not in the order of the alphabet, and characters
that are escaped or are beyond the first plane; and one number under two types. -/
theorem serialization_faithful_extremes :
    let d : Json := .object [("z", .number (.int ⟨18446744073709551615, by decide, by decide⟩)),
      ("a", .array [.number (.int ⟨-9223372036854775808, by decide, by decide⟩), .null]),
      ("text", .string "\"\\\n\x07é😀")]
    (Value.json d).Integral ∧ (Value.json d).Fits ∧
      deserialize? (Value.json d).serialize = some (.json d) ∧
      (Value.long 7).serialize ≠ (Value.timestamp 7).serialize := by
  intro d
  have hintegral : (Value.json d).Integral := by
    simp [d, Value.Integral, Json.Integral, numbers, numbersItems, numbersMembers]
  have hfits : (Value.json d).Fits := by
    intro e heq
    cases heq
    exact ⟨by decide, by simp [d, NamesOnce, NamesOnceItems, NamesOnceMembers]⟩
  have hlong : (Value.long 7).Fits := by
    intro e heq
    cases heq
  have htimestamp : (Value.timestamp 7).Fits := by
    intro e heq
    cases heq
  refine ⟨hintegral, hfits, (serialization_faithful hintegral).1.mpr hfits, fun heq => ?_⟩
  cases (serialization_faithful (v := .timestamp 7) trivial).2 htimestamp (.long 7) trivial hlong heq

end Value
end Relata
