import Relata.Postgres.Codec
import Relata.Proofs.Rereading

/-!
Values that are sent as bytes and read back by the type of the other side. Main statement: what
arrives is of the kind of what was sent just if the type suits the value. Numbers are refused where
they would be misread; texts, bytes, documents and truth values are not.
-/
namespace Relata

namespace Number

theorem ofWord_toWord {width : Nat} {z : Int} (hlow : -(wordSize width : Int) ≤ 2 * z)
    (hhigh : 2 * z < wordSize width) : ofWord (toWord width z) = z := by
  have hpos : (0 : Int) < wordSize width := by omega
  have hnonneg : 0 ≤ z % wordSize width := Int.emod_nonneg z (by omega)
  have hlt : z % wordSize width < wordSize width := Int.emod_lt_of_pos z hpos
  have hbytes : (ofBytes (toWord width z) : Int) = z % wordSize width := by
    rw [toWord, ofBytes_toBytes, Nat.mod_eq_of_lt (by omega), Int.toNat_of_nonneg hnonneg]
  have hwidth : (toWord width z).length = width := length_toBytes ..
  rw [ofWord, hwidth]
  simp only [hbytes]
  by_cases hsign : 0 ≤ z
  · have hsame : z % wordSize width = z := Int.emod_eq_of_lt hsign (by omega)
    rw [hsame, if_pos hhigh]
  · have hshift : z % wordSize width = z + wordSize width := by
      rw [← Int.add_emod_right, Int.emod_eq_of_lt (by omega) (by omega)]
    rw [hshift, if_neg (by omega)]
    omega

end Number

namespace Postgres

open Number

theorem toList_loop (bs : ByteArray) (i : Nat) (r : List UInt8) :
    ByteArray.toList.loop bs i r = r.reverse ++ bs.data.toList.drop i := by
  fun_induction ByteArray.toList.loop bs i r with
  | case1 i r hi ih =>
    have hget : bs.data.toList.drop i = bs.get! i :: bs.data.toList.drop (i + 1) := by
      have hlength : i < bs.data.toList.length := hi
      rw [List.drop_eq_getElem_cons hlength]
      congr 1
      have hsize : i < bs.data.size := hi
      exact (getElem!_pos bs.data i hsize).symm
    rw [ih, hget, List.reverse_cons, List.append_assoc]
    rfl
  | case2 i r hi =>
    have hnil : bs.data.toList.drop i = [] := List.drop_eq_nil_of_le (Nat.le_of_not_lt hi)
    rw [hnil, List.append_nil]

/-- A text comes back from its bytes. -/
theorem textOfBytes?_textBytes (s : String) : textOfBytes? (textBytes s) = some s := by
  have hbytes : (⟨(textBytes s).toArray⟩ : ByteArray) = s.toUTF8 := by
    rw [textBytes, ByteArray.toList, toList_loop]
    rfl
  have hvalid : s.toUTF8.IsValidUTF8 := s.isValidUTF8
  rw [textOfBytes?, hbytes, String.fromUTF8?, dif_pos hvalid]
  rfl

variable {type : WireType} {bs : List UInt8} {v w : Value}

namespace WireType

/-- The types of documents. -/
def isDocument : WireType → Bool
  | .json => true
  | .jsonb => true
  | _ => false

theorem isDocument_iff : type.isDocument = true ↔ type = .json ∨ type = .jsonb := by
  cases type <;> simp [isDocument]

theorem isKnown_of_isText (h : type.isText = true) : type.isKnown = false := by
  cases type <;> simp_all [isText, isKnown]

/-- What the values are that are read at a type. -/
def kind : WireType → String
  | .bool => "bool"
  | .int2 => "int"
  | .int4 => "int"
  | .int8 => "long"
  | .float4 => "float"
  | .float8 => "double"
  | .bytea => "bytes"
  | .json => "json"
  | .jsonb => "json"
  | .timestamp => "timestamp"
  | .timestamptz => "timestamp"
  | _ => "string"

theorem kind_of_isText (h : type.isText = true) : type.kind = "string" := by
  cases type <;> simp_all [isText, kind]

end WireType

theorem decode_known (hknown : type.isKnown = true) (h : decode type (some bs) = .value w) :
    decodeKnown? type bs = some w := by
  rw [decode, if_pos hknown] at h
  cases hread : decodeKnown? type bs with
  | none => simp [hread] at h
  | some v =>
    simp only [hread, Decoded.value.injEq] at h
    rw [h]

theorem decode_text (htext : type.isText = true) (h : decode type (some bs) = .value w) :
    ∃ s, decodeText? type bs = some s ∧ w = .string s := by
  have hknown := WireType.isKnown_of_isText htext
  rw [decode, if_neg (by simp [hknown]), if_pos htext] at h
  cases hs : decodeText? type bs with
  | none => simp [hs] at h
  | some s =>
    simp only [hs, Decoded.value.injEq] at h
    exact ⟨s, rfl, h.symm⟩

/-- The type alone says what kind of value is read. -/
theorem typeName_of_decode (h : decode type (some bs) = .value w) : w.typeName = type.kind := by
  by_cases htext : type.isText = true
  · obtain ⟨s, -, rfl⟩ := decode_text htext h
    exact (WireType.kind_of_isText htext).symm
  by_cases hknown : type.isKnown = true
  · have hread := decode_known hknown h
    cases type
    case text | varchar | bpchar | name | unknown | other => cases hknown
    case bytea =>
      cases hread
      rfl
    all_goals
      obtain ⟨x, -, rfl⟩ := Option.map_eq_some_iff.mp hread
      rfl
  · rw [decode, if_neg hknown, if_neg htext] at h
    cases h

/-- The value is the integer, as a type that was not its own can hold it. -/
inductive Counts (z : Int) : Value → Prop
  | int {n : Int32} (h : n.toInt = z) : Counts z (.int n)
  | long {n : Int64} (h : n.toInt = z) : Counts z (.long n)
  | float : Counts z (.float (Single.ofInt z))
  | double : Counts z (.double (Double.ofInt z))
  | decimal : Counts z (.string (Int.repr z))

/-- The second value is of the kind of the first: the same number, or its decimal text; the same
text, or the document that it spells; the same document, or its compact text; the same bytes; the
same truth value. -/
inductive OfKind : Value → Value → Prop
  | bool (b : Bool) : OfKind (.bool b) (.bool b)
  | int {n : Int32} {w : Value} (h : Counts n.toInt w) : OfKind (.int n) w
  | long {n : Int64} {w : Value} (h : Counts n.toInt w) : OfKind (.long n) w
  | count {n : Int64} {w : Value} (h : Counts n.toInt w) : OfKind (.timestamp n) w
  | timestamp (n : Int64) : OfKind (.timestamp n) (.timestamp n)
  | float (x : Single) : OfKind (.float x) (.float x)
  | widened (x : Single) : OfKind (.float x) (.double x.widen)
  | double (x : Double) : OfKind (.double x) (.double x)
  | narrowed (x : Double) : OfKind (.double x) (.float x.narrow)
  | string (s : String) : OfKind (.string s) (.string s)
  | parsed {s : String} {d : Json} (h : Json.parse? s = some d) : OfKind (.string s) (.json d)
  | bytes (bs : List UInt8) : OfKind (.bytes bs) (.bytes bs)
  | json (d : Json) : OfKind (.json d) (.json d)
  | compact (d : Json) : OfKind (.json d) (.string d.render)

/-- The type is right for the value. This leaves numbers aside, which are refused where they would be
misread; a document has to be what its text reads as. -/
def Suits (type : WireType) : Value → Prop
  | .bool _ => type = .bool
  | .bytes _ => type = .bytea
  | .string s => type.isText = true ∨ type.isDocument = true ∧ ∃ d, Json.parse? s = some d ∧ d.Rereads
  | .json d => type.isText = true ∨ type.isDocument = true ∧ d.Rereads
  | _ => True

theorem isText_of_decode {s : String} (h : decode type (some bs) = .value (.string s)) :
    type.isText = true := by
  have hkind := typeName_of_decode h
  cases type with
  | text | varchar | bpchar | name | unknown => rfl
  | other n =>
    by_contra htext
    rw [decode, if_neg (by simp [WireType.isKnown]), if_neg htext] at h
    cases h
  | _ => simp [Value.typeName, WireType.kind] at hkind

theorem isDocument_of_decode {d : Json} (h : decode type (some bs) = .value (.json d)) :
    type.isDocument = true := by
  have hkind := typeName_of_decode h
  cases type with
  | json | jsonb => rfl
  | _ => simp [Value.typeName, WireType.kind] at hkind

theorem eq_bool_of_decode {b : Bool} (h : decode type (some bs) = .value (.bool b)) :
    type = .bool := by
  have hkind := typeName_of_decode h
  cases type with
  | bool => rfl
  | _ => simp [Value.typeName, WireType.kind] at hkind

theorem eq_bytea_of_decode {found : List UInt8}
    (h : decode type (some bs) = .value (.bytes found)) : type = .bytea := by
  have hkind := typeName_of_decode h
  cases type with
  | bytea => rfl
  | _ => simp [Value.typeName, WireType.kind] at hkind

section Texts

variable {s : String} {d : Json}

theorem encode_string (htext : type.isText = true) :
    encode type (.string s) = .ok (some (encodeText type s)) := by
  cases type <;> simp_all [WireType.isText, encode]

theorem encode_json (htext : type.isText = true) :
    encode type (.json d) = .ok (some (encodeText type d.render)) := by
  cases type <;> simp_all [WireType.isText, encode]

theorem encode_parsed (hdocument : type.isDocument = true) (hparse : Json.parse? s = some d) :
    encode type (.string s) = .ok (some (encodeDocument type d)) := by
  rcases WireType.isDocument_iff.mp hdocument with rfl | rfl
  · simp only [encode, hparse]
  · simp only [encode, hparse]

theorem encode_document (hdocument : type.isDocument = true) :
    encode type (.json d) = .ok (some (encodeDocument type d)) := by
  rcases WireType.isDocument_iff.mp hdocument with rfl | rfl
  · rfl
  · rfl

theorem decodeText?_encodeText (type : WireType) (s : String) :
    decodeText? type (encodeText type s) = some s := by
  cases hversioned : type.isVersioned <;>
    simp [decodeText?, encodeText, hversioned, textOfBytes?_textBytes]

theorem decode_encodeText (htext : type.isText = true)
    (h : decode type (some (encodeText type s)) = .value w) : w = .string s := by
  obtain ⟨s', hs', rfl⟩ := decode_text htext h
  rw [decodeText?_encodeText] at hs'
  rw [Option.some.inj hs']

theorem decodeDocument?_encodeDocument (hdocument : type.isDocument = true) :
    decodeDocument? type (encodeDocument type d) = Json.parse? d.render := by
  have htext := textOfBytes?_textBytes d.render
  rcases WireType.isDocument_iff.mp hdocument with rfl | rfl
  · simp [encodeDocument, decodeDocument?, htext]
  · simp [encodeDocument, decodeDocument?, htext]

/-- What arrives of a document is what its text reads as. -/
theorem decode_encodeDocument (hdocument : type.isDocument = true)
    (h : decode type (some (encodeDocument type d)) = .value w) :
    ∃ e, Json.parse? d.render = some e ∧ w = .json e := by
  have hparse := decodeDocument?_encodeDocument (d := d) hdocument
  have hread : (decodeDocument? type (encodeDocument type d)).map Value.json = some w := by
    rcases WireType.isDocument_iff.mp hdocument with rfl | rfl
    · exact decode_known rfl h
    · exact decode_known rfl h
  rw [hparse] at hread
  obtain ⟨e, he, rfl⟩ := Option.map_eq_some_iff.mp hread
  exact ⟨e, he, rfl⟩

end Texts

section Numbers

theorem sized?_toBytes (width n : Nat) : sized? width (toBytes width n) = some (toBytes width n) := by
  rw [sized?, if_pos (length_toBytes width n)]

theorem sized?_toWord (width : Nat) (z : Int) : sized? width (toWord width z) = some (toWord width z) :=
  sized?_toBytes width _

theorem encodeSized_ok {width : Nat} {n : Int64} (h : encodeSized width n = .ok bs) :
    bs = toWord width n.toInt ∧ -(wordSize width : Int) ≤ 2 * n.toInt ∧
      2 * n.toInt < wordSize width := by
  rw [encodeSized] at h
  split at h
  next hfits =>
    cases h
    exact ⟨rfl, hfits⟩
  next => cases h

theorem decode_float4 (x : Single) :
    decode .float4 (some (toBytes 4 x.bits.toNat)) = .value (.float x) := by
  have hbound : x.bits.toNat < wordSize 4 := x.bits.toNat_lt
  have hbits : Single.ofBits (ofBytes (toBytes 4 x.bits.toNat)) = x := by
    rw [ofBytes_toBytes, Nat.mod_eq_of_lt hbound, Single.ofBits, UInt32.ofNat_toNat]
  simp [decode, WireType.isKnown, decodeKnown?, sized?_toBytes, hbits]

theorem decode_float8 (x : Double) :
    decode .float8 (some (toBytes 8 x.bits.toNat)) = .value (.double x) := by
  have hbound : x.bits.toNat < wordSize 8 := x.bits.toNat_lt
  have hbits : Double.ofBits (ofBytes (toBytes 8 x.bits.toNat)) = x := by
    rw [ofBytes_toBytes, Nat.mod_eq_of_lt hbound, Double.ofBits, UInt64.ofNat_toNat]
  simp [decode, WireType.isKnown, decodeKnown?, sized?_toBytes, hbits]

/-- An integer of four bytes or fewer arrives as itself. -/
theorem counts_of_narrow {width : Nat} {n : Int64} (hwidth : wordSize width ≤ wordSize 4)
    (hencode : encodeSized width n = .ok bs)
    (hread : (sized? width bs).map (fun bs => Value.int (Int32.ofInt (ofWord bs))) = some w) :
    Counts n.toInt w := by
  obtain ⟨rfl, hlow, hhigh⟩ := encodeSized_ok hencode
  have hfour : wordSize 4 = 4294967296 := rfl
  have hsame : (Int32.ofInt n.toInt).toInt = n.toInt :=
    Int32.toInt_ofInt_of_le (by omega) (by omega)
  simp only [sized?_toWord, ofWord_toWord hlow hhigh, Option.map_some, Option.some.injEq] at hread
  rw [← hread]
  exact .int hsame

/-- Eight bytes hold every 64-bit integer. -/
theorem ofWord_toWord_long (n : Int64) : ofWord (toWord 8 n.toInt) = n.toInt := by
  have hlow := n.le_toInt
  have hhigh := n.toInt_lt
  have height : wordSize 8 = 18446744073709551616 := rfl
  exact ofWord_toWord (by omega) (by omega)

theorem counts_of_int8 {n : Int64} (hencode : encodeSized 8 n = .ok bs)
    (h : decode .int8 (some bs) = .value w) : Counts n.toInt w := by
  obtain ⟨rfl, -⟩ := encodeSized_ok hencode
  have hread := decode_known rfl h
  simp only [decodeKnown?, sized?_toWord, ofWord_toWord_long, Int64.ofInt_toInt, Option.map_some,
    Option.some.injEq] at hread
  rw [← hread]
  exact .long rfl

/-- An integer that is sent arrives as itself, as far as the type holds it. -/
theorem counts_of_encodeInteger {n : Int64} (hencode : encodeInteger type n = .ok bs)
    (h : decode type (some bs) = .value w) : Counts n.toInt w := by
  cases type with
  | int2 => exact counts_of_narrow (by decide) hencode (decode_known rfl h)
  | int4 => exact counts_of_narrow (Nat.le_refl _) hencode (decode_known rfl h)
  | int8 => exact counts_of_int8 hencode h
  | float4 =>
    cases hencode
    rw [decode_float4] at h
    cases h
    exact .float
  | float8 =>
    cases hencode
    rw [decode_float8] at h
    cases h
    exact .double
  | text | varchar | bpchar =>
    cases hencode
    rw [decode_encodeText rfl h]
    exact .decimal
  | bool | bytea | json | jsonb | timestamp | timestamptz | name | unknown | other => cases hencode

theorem ofKind_of_float {x : Single} (hencode : encode type (.float x) = .ok (some bs))
    (h : decode type (some bs) = .value w) : OfKind (.float x) w := by
  cases type with
  | float4 =>
    cases hencode
    rw [decode_float4] at h
    cases h
    exact .float x
  | float8 =>
    cases hencode
    rw [decode_float8] at h
    cases h
    exact .widened x
  | _ => cases hencode

theorem ofKind_of_double {x : Double} (hencode : encode type (.double x) = .ok (some bs))
    (h : decode type (some bs) = .value w) : OfKind (.double x) w := by
  cases type with
  | float4 =>
    cases hencode
    rw [decode_float4] at h
    cases h
    exact .narrowed x
  | float8 =>
    cases hencode
    rw [decode_float8] at h
    cases h
    exact .double x
  | _ => cases hencode

/-- An instant is read back, though the count that is sent may have been cut down. -/
theorem instant_read_back (n : Int64) :
    Instant.toCount .epoch (.ofCount .wireEpoch (Instant.toCount .wireEpoch (.ofCount .epoch n))) = n := by
  simp only [Instant.toCount_eq, Instant.ofCount_eq, Instant.epoch, Instant.wireEpoch,
    Int.zero_add, Int.sub_zero]
  rw [Int64.ofInt_add, Int64.ofInt_toInt, Int64.ofInt_sub, Int64.ofInt_toInt, Int64.add_comm,
    Int64.sub_add_cancel]

theorem ofKind_of_instant {n : Int64} (htype : type = .timestamp ∨ type = .timestamptz)
    (hencode : encode type (.timestamp n) = .ok (some bs))
    (h : decode type (some bs) = .value w) : OfKind (.timestamp n) w := by
  have hbytes : bs = toWord 8 (Instant.toCount .wireEpoch (.ofCount .epoch n)).toInt := by
    rcases htype with rfl | rfl <;> cases hencode <;> rfl
  have hread : (sized? 8 bs).map (fun bs =>
      Value.timestamp (Instant.toCount .epoch (.ofCount .wireEpoch (Int64.ofInt (ofWord bs))))) =
      some w := by
    rcases htype with rfl | rfl <;> exact decode_known rfl h
  simp only [hbytes, sized?_toWord, ofWord_toWord_long, Int64.ofInt_toInt, Option.map_some,
    Option.some.injEq, instant_read_back] at hread
  rw [← hread]
  exact .timestamp n

theorem encodeInteger_of_encode {n : Int64} {v : Value} (hencode : encode type v = .ok (some bs))
    (hv : encode type v = (encodeInteger type n).map some) : encodeInteger type n = .ok bs := by
  rw [hv] at hencode
  cases hinteger : encodeInteger type n with
  | error f =>
    rw [hinteger] at hencode
    cases hencode
  | ok found =>
    rw [hinteger] at hencode
    cases hencode
    rfl

theorem ofKind_of_timestamp {n : Int64} (hencode : encode type (.timestamp n) = .ok (some bs))
    (h : decode type (some bs) = .value w) : OfKind (.timestamp n) w := by
  by_cases htype : type = .timestamp ∨ type = .timestamptz
  · exact ofKind_of_instant htype hencode h
  · rw [not_or] at htype
    have hinteger : encode type (.timestamp n) = (encodeInteger type n).map some := by
      simp [encode, htype]
    exact .count (counts_of_encodeInteger (encodeInteger_of_encode hencode hinteger) h)

/-- A narrow integer is the same one in the wide form. -/
theorem toInt_widened (n : Int32) : (Int64.ofInt n.toInt).toInt = n.toInt := by
  have hlow := n.le_toInt
  have hhigh := n.toInt_lt
  exact Int64.toInt_ofInt_of_le (by omega) (by omega)

theorem ofKind_of_int {n : Int32} (hencode : encode type (.int n) = .ok (some bs))
    (h : decode type (some bs) = .value w) : OfKind (.int n) w := by
  have hcounts := counts_of_encodeInteger (encodeInteger_of_encode hencode rfl) h
  rw [toInt_widened] at hcounts
  exact .int hcounts

end Numbers

section Unchecked

theorem ofKind_bool_iff {b : Bool} (hencode : encode type (.bool b) = .ok (some bs))
    (h : decode type (some bs) = .value w) : OfKind (.bool b) w ↔ Suits type (.bool b) := by
  constructor
  · intro hkind
    cases hkind
    exact eq_bool_of_decode h
  · intro hbool
    subst hbool
    cases hencode
    cases b with
    | true =>
      cases h
      exact .bool true
    | false =>
      cases h
      exact .bool false

theorem ofKind_bytes_iff {sent : List UInt8} (hencode : encode type (.bytes sent) = .ok (some bs))
    (h : decode type (some bs) = .value w) : OfKind (.bytes sent) w ↔ Suits type (.bytes sent) := by
  constructor
  · intro hkind
    cases hkind
    exact eq_bytea_of_decode h
  · intro hbytea
    subst hbytea
    cases hencode
    cases h
    exact .bytes _

theorem ofKind_string_iff (hencode : encode type (.string s) = .ok (some bs))
    (h : decode type (some bs) = .value w) : OfKind (.string s) w ↔ Suits type (.string s) := by
  constructor
  · intro hkind
    cases hkind with
    | string => exact .inl (isText_of_decode h)
    | parsed hparse =>
      have hdocument := isDocument_of_decode h
      rw [encode_parsed hdocument hparse] at hencode
      cases hencode
      obtain ⟨e, he, heq⟩ := decode_encodeDocument hdocument h
      cases heq
      exact .inr ⟨hdocument, _, hparse, he⟩
  · rintro (htext | ⟨hdocument, d, hparse, hrereads⟩)
    · rw [encode_string htext] at hencode
      cases hencode
      rw [decode_encodeText htext h]
      exact .string s
    · rw [encode_parsed hdocument hparse] at hencode
      cases hencode
      obtain ⟨e, he, rfl⟩ := decode_encodeDocument hdocument h
      obtain rfl : d = e := Option.some.inj (hrereads.symm.trans he)
      exact .parsed hparse

theorem ofKind_json_iff (hencode : encode type (.json d) = .ok (some bs))
    (h : decode type (some bs) = .value w) : OfKind (.json d) w ↔ Suits type (.json d) := by
  constructor
  · intro hkind
    cases hkind with
    | compact => exact .inl (isText_of_decode h)
    | json =>
      have hdocument := isDocument_of_decode h
      rw [encode_document hdocument] at hencode
      cases hencode
      obtain ⟨e, he, heq⟩ := decode_encodeDocument hdocument h
      cases heq
      exact .inr ⟨hdocument, he⟩
  · rintro (htext | ⟨hdocument, hrereads⟩)
    · rw [encode_json htext] at hencode
      cases hencode
      rw [decode_encodeText htext h]
      exact .compact d
    · rw [encode_document hdocument] at hencode
      cases hencode
      obtain ⟨e, he, rfl⟩ := decode_encodeDocument hdocument h
      obtain rfl : d = e := Option.some.inj (hrereads.symm.trans he)
      exact .json d

end Unchecked

/-- Where a value was sent and something has arrived, it is of the kind of what was sent just if the
type suits the value. -/
theorem ofKind_iff_suits (hencode : encode type v = .ok (some bs))
    (h : decode type (some bs) = .value w) : OfKind v w ↔ Suits type v := by
  cases v with
  | null => cases hencode
  | bool b => exact ofKind_bool_iff hencode h
  | int n => exact ⟨fun _ => trivial, fun _ => ofKind_of_int hencode h⟩
  | long n =>
    have hcounts := counts_of_encodeInteger (encodeInteger_of_encode hencode rfl) h
    exact ⟨fun _ => trivial, fun _ => .long hcounts⟩
  | float x => exact ⟨fun _ => trivial, fun _ => ofKind_of_float hencode h⟩
  | double x => exact ⟨fun _ => trivial, fun _ => ofKind_of_double hencode h⟩
  | string s => exact ofKind_string_iff hencode h
  | bytes sent => exact ofKind_bytes_iff hencode h
  | json d => exact ofKind_json_iff hencode h
  | timestamp n => exact ⟨fun _ => trivial, fun _ => ofKind_of_timestamp hencode h⟩

/-- A document with a text and a number in it. -/
def posted : Json :=
  .object [("title", .string "\"Lean\""),
    ("likes", .array [.number (.int ⟨12, by decide, by decide⟩), .null])]

theorem rereads_posted : posted.Rereads := by
  refine Json.rereads_of_numbers ?_ (by decide) rfl
  intro n hn
  simp only [posted, Json.numbers, Json.numbersMembers, Json.numbersItems, List.append_nil,
    List.nil_append, List.mem_singleton] at hn
  rw [hn]
  exact JsonNumber.rereads_int _

theorem ofKind_posted :
    ∃ bs w, encode .jsonb (.json posted) = .ok (some bs) ∧ decode .jsonb (some bs) = .value w ∧
      OfKind (.json posted) w := by
  have hencode : encode .jsonb (.json posted) = .ok (some (encodeDocument .jsonb posted)) := rfl
  have hread : decode .jsonb (some (encodeDocument .jsonb posted)) = .value (.json posted) := by
    have hparse : decodeDocument? .jsonb (encodeDocument .jsonb posted) = some posted := by
      rw [decodeDocument?_encodeDocument rfl, rereads_posted]
    simp [decode, WireType.isKnown, decodeKnown?, hparse]
  exact ⟨_, _, hencode, hread, (ofKind_iff_suits hencode hread).mpr (.inr ⟨rfl, rereads_posted⟩)⟩

/-- Four letters are sent where an integer is wanted, and are read as one. -/
theorem string_read_as_integer :
    encode .int4 (.string "abcd") = .ok (some [0x61, 0x62, 0x63, 0x64]) ∧
      decode .int4 (some [0x61, 0x62, 0x63, 0x64]) = .value (.int 1633837924) ∧
      ¬ OfKind (.string "abcd") (.int 1633837924) := by
  have hword : Int32.ofInt (ofWord [0x61, 0x62, 0x63, 0x64]) = 1633837924 := by decide
  refine ⟨?_, ?_, nofun⟩
  · decide +kernel
  · simp [decode, WireType.isKnown, decodeKnown?, sized?, hword]

end Postgres
end Relata
