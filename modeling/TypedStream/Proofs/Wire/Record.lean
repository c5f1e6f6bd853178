import Mathlib.Data.List.Forall2
import TypedStream.Proofs.Pointwise
import TypedStream.Proofs.Wire.Primitive
import TypedStream.Proofs.Wire.Scan

namespace TypedStream

/-- The length of a text fits in the word that stands before it on the wire. -/
def Value.Sized : Value → Prop
  | .string t => t.length < 2 ^ 64
  | _ => True

instance : DecidablePred Value.Sized
  | .string t => inferInstanceAs (Decidable (t.length < 2 ^ 64))
  | .null | .boolean _ | .int _ | .bigint _ | .float _ | .double _ | .timestamp _ | .timespan _
  | .record _ | .malformed _ => .isTrue trivial

/-- An INT has 32 bits. -/
def Value.InRange : Value → Prop
  | .int i => Value.fitsInt i = true
  | _ => True

/-- What a FLOAT holds has single precision, or is not a number. -/
def Value.FitsFloat : Value → Prop
  | .float x => x.isNaN = true ∨ x.narrow.widen = x
  | _ => True

/-- The same value, or both not a number. -/
inductive Value.Same : Value → Value → Prop
  | refl (v : Value) : Same v v
  | nan {x y : Double} (left : x.isNaN = true) (right : y.isNaN = true) : Same (.float x) (.float y)

theorem Value.FitsFloat.same {v : Value} (h : v.FitsFloat) : v.Same v.rounded := by
  cases v with
  | float x =>
    rcases h with hnan | hkept
    · exact .nan hnan (Single.isNaN_narrow_widen hnan)
    · rw [Value.rounded, hkept]
      exact .refl _
  | _ => exact .refl _

theorem Value.same_rounded {vs : List Value} (h : ∀ v ∈ vs, v.FitsFloat) :
    List.Forall₂ Value.Same vs (vs.map Value.rounded) := by
  rw [List.forall₂_map_right_iff, List.forall₂_same]
  exact fun v hv => (h v hv).same

namespace Wire

/-- The kinds that have a representation. -/
def Kind.representable : List Kind := [.bool, .int32, .int64, .float32, .float64, .string]

/-- A value that a field can carry: null where that is allowed, or a value of the field's type. -/
structure FieldSchema.Admits (field : FieldSchema) (v : Value) : Prop where
  kind : field.kind ∈ Kind.representable
  value : v = .null ∧ field.nullable = true ∨ v.conformsToScalar field.kind.scalar = true

theorem Kind.form_of_representable {k : Kind} (h : k ∈ Kind.representable) :
    ∃ form, k.form? = some form ∧ form.code < 8 ∧ Form.ofCode form.code = form := by
  simp only [Kind.representable, List.mem_cons, List.not_mem_nil, or_false] at h
  rcases h with rfl | rfl | rfl | rfl | rfl | rfl <;> exact ⟨_, rfl, by decide, rfl⟩

theorem Kind.representable_of_form {k : Kind} {form : Form} (h : k.form? = some form) :
    k ∈ Kind.representable := by
  cases k with
  | unsupported | unknown _ => cases h
  | _ => decide

theorem kind_of_conformsToScalar {v : Value} {s : Scalar} (h : v.conformsToScalar s = true) :
    v.kind = .scalar s := by
  cases v with
  | int i => cases s <;> simp_all [Value.conformsToScalar, Value.kind]
  | _ => simpa [Value.conformsToScalar] using h

theorem conformsToScalar_of_kind {v : Value} {s : Scalar} (h : v.kind = .scalar s)
    (hrange : v.InRange) : v.conformsToScalar s = true := by
  cases v with
  | int i =>
    cases h
    exact hrange
  | _ => simp [Value.conformsToScalar, h]

theorem Kind.ofScalar_scalar {k : Kind} (h : k ∈ Kind.representable) :
    Kind.ofScalar k.scalar = k := by
  simp only [Kind.representable, List.mem_cons, List.not_mem_nil, or_false] at h
  rcases h with rfl | rfl | rfl | rfl | rfl | rfl <;> rfl

/-- A value of a scalar type is read back from its bytes, a FLOAT with single precision. -/
theorem readValue_encodeValue {s : Scalar} {v : Value}
    (hk : Kind.ofScalar s ∈ Kind.representable) (hv : v.conformsToScalar s = true) (hs : v.Sized)
    (name rest : Text) :
    readValue name (Kind.ofScalar s) (encodeValue v ++ rest) = .ok (v.rounded, rest) := by
  have hkind := kind_of_conformsToScalar hv
  cases v with
  | boolean b =>
    cases hkind
    simp only [Kind.ofScalar, readValue, encodeValue, readVarint_encodeVarint]
    cases b <;> rfl
  | int i =>
    cases hkind
    have hfits : -2147483648 ≤ i.toInt ∧ i.toInt ≤ 2147483647 := by
      simpa [Value.conformsToScalar, Value.fitsInt] using hv
    simp only [Kind.ofScalar, readValue, encodeValue, readVarint_encodeVarint, mapError_ok,
      bind, Except.bind, unzigzag_zigzag]
    rw [if_neg (by omega), Int64.ofInt_toInt]
    rfl
  | bigint i =>
    cases hkind
    simp only [Kind.ofScalar, readValue, encodeValue, readVarint_encodeVarint, mapError_ok,
      bind, Except.bind, unzigzag_zigzag, Int64.ofInt_toInt]
    rfl
  | float x =>
    cases hkind
    have hbits : x.narrow.bits.toNat < 256 ^ 4 := x.narrow.bits.toNat_lt
    simp only [Kind.ofScalar, readValue, encodeValue, readFixed_littleEndian 4 _ hbits,
      mapError_ok, bind, Except.bind, Single.ofNat, Nat.toUInt32, UInt32.ofNat_toNat]
    rfl
  | double x =>
    cases hkind
    have hbits : x.bits.toNat < 256 ^ 8 := x.bits.toNat_lt
    simp only [Kind.ofScalar, readValue, encodeValue, readFixed_littleEndian 8 _ hbits,
      mapError_ok, bind, Except.bind, Double.ofNat, Nat.toUInt64, UInt64.ofNat_toNat]
    rfl
  | string t =>
    cases hkind
    simp only [Kind.ofScalar, readValue, encodeValue, readBytes_encode t hs,
      mapError_ok, bind, Except.bind]
    rfl
  | malformed m => cases m <;> cases hkind
  | timestamp t => cases hkind; exact absurd hk (by decide)
  | timespan t => cases hkind; exact absurd hk (by decide)
  | _ => cases hkind

theorem encodeField_admits {field : FieldSchema} {v : Value} (h : field.Admits v) (number : Nat) :
    ∃ first, encodeField number field v = .ok first ∧
      (present v = none ∧ first = [] ∨
        ∃ form, field.kind.form? = some form ∧ v.conformsToScalar field.kind.scalar = true ∧
          present v = some v ∧ first = encodeTag number form ++ encodeValue v) := by
  obtain ⟨form, hform, _⟩ := Kind.form_of_representable h.kind
  have hsupported : field.kind ≠ .unsupported := by
    intro he
    rw [he] at hform
    cases hform
  rcases h.value with ⟨rfl, hn⟩ | hv
  · exact ⟨[], by simp [encodeField, hsupported, Value.isNull, hn], .inl ⟨rfl, rfl⟩⟩
  · have hnull := Value.isNull_of_conformsToScalar hv
    have hkind := kind_of_conformsToScalar hv
    exact ⟨_, by simp [encodeField, hsupported, hnull, hkind, hform],
      .inr ⟨form, hform, hv, by simp [present, hnull], rfl⟩⟩

theorem encodeFrom_cons {number : Nat} {field : FieldSchema} {fields : List FieldSchema}
    {v : Value} {vs : List Value} {first others : Text}
    (hf : encodeField number field v = .ok first)
    (ho : encodeFrom (number + 1) fields vs = .ok others) :
    encodeFrom number (field :: fields) (v :: vs) = .ok (first ++ others) := by
  rw [encodeFrom, hf, ho]
  rfl

theorem encodeFrom_admits {fields : List FieldSchema} {values : List Value}
    (h : List.Forall₂ FieldSchema.Admits fields values) (number : Nat) :
    ∃ data, encodeFrom number fields values = .ok data := by
  induction h generalizing number with
  | nil => exact ⟨[], rfl⟩
  | cons hv _ ih =>
    obtain ⟨others, ho⟩ := ih (number + 1)
    obtain ⟨first, hf, _⟩ := encodeField_admits hv number
    exact ⟨first ++ others, encodeFrom_cons hf ho⟩

/-- The tag and the value of a field are read as they were written, and nothing behind them. -/
theorem read_encoded {field : FieldSchema} {index : Nat} {form : Form} {v : Value}
    (hmax : index < 2147483647) (hform : field.kind.form? = some form)
    (hv : v.conformsToScalar field.kind.scalar = true) (hsized : v.Sized) (rest : Text) :
    readTag (encodeTag (index + 1) form ++ encodeValue v ++ rest) =
        .ok (index + 1, form, encodeValue v ++ rest) ∧
      readValue field.name field.kind (encodeValue v ++ rest) = .ok (v.rounded, rest) := by
  have hrep := Kind.representable_of_form hform
  obtain ⟨other, hother, hcode, hof⟩ := Kind.form_of_representable hrep
  cases hform.symm.trans hother
  have hkind := Kind.ofScalar_scalar hrep
  have hread := readValue_encodeValue (by rw [hkind]; exact hrep) hv hsized field.name rest
  rw [hkind] at hread
  rw [List.append_assoc]
  exact ⟨readTag_encodeTag (by omega) (by omega) hcode hof _, hread⟩

theorem encodeField_ok {field : FieldSchema} {v : Value} {number : Nat} {first : Text}
    (h : encodeField number field v = .ok first) (hrange : v.InRange) :
    field.isSupported = true ∧ (v = .null ∧ field.nullable = true ∧ first = [] ∨
      ∃ form, field.kind.form? = some form ∧ v.conformsToScalar field.kind.scalar = true ∧
        first = encodeTag number form ++ encodeValue v) := by
  unfold encodeField at h
  split at h
  · cases h
  · rename_i hkind
    refine ⟨by simpa [Schema.isSupported] using hkind, ?_⟩
    split at h
    · rename_i hnull
      split at h
      · rename_i hn
        cases h
        exact .inl ⟨Value.eq_null_of_isNull hnull, hn, rfl⟩
      · cases h
    · split at h
      · cases h
      · rename_i hscalar
        split at h
        · rename_i form hform
          cases h
          exact .inr ⟨form, hform, conformsToScalar_of_kind (not_not.mp hscalar) hrange, rfl⟩
        · cases h

theorem encodeFrom_cons_ok {number : Nat} {field : FieldSchema} {fields : List FieldSchema}
    {v : Value} {vs : List Value} {data : Text}
    (h : encodeFrom number (field :: fields) (v :: vs) = .ok data) :
    ∃ first others, encodeField number field v = .ok first ∧
      encodeFrom (number + 1) fields vs = .ok others ∧ data = first ++ others := by
  obtain ⟨first, hfirst, hrest⟩ := bind_ok_iff.mp h
  obtain ⟨others, hothers, hdata⟩ := bind_ok_iff.mp hrest
  cases hdata
  exact ⟨first, others, hfirst, hothers, rfl⟩

/-- What a reader finds that knows the fields from a position on, and more fields behind them. Their
slots are filled or stay empty. -/
theorem scan_encodeFrom (before suffix added : List FieldSchema) {values : List Value}
    (hlength : suffix.length = values.length)
    (hmax : before.length + suffix.length ≤ 2147483647)
    (hrange : ∀ v ∈ values, v.InRange) (hsized : ∀ v ∈ values, v.Sized) {data : Text}
    (hdata : encodeFrom (before.length + 1) suffix values = .ok data) :
    ∃ founds, Scan (before ++ suffix ++ added) data founds ∧
      ∀ slots : List (Option Value), slots.length = before.length →
        founds.foldl fill (slots ++ List.replicate (suffix.length + added.length) none) =
          slots ++ (values.map Value.rounded).map present ++
            List.replicate added.length none := by
  induction suffix generalizing before values data with
  | nil =>
    rw [List.eq_nil_of_length_eq_zero hlength.symm] at hdata ⊢
    cases hdata
    exact ⟨[], .nil, by simp⟩
  | cons field suffix ih =>
    cases values with
    | nil => simp at hlength
    | cons v values =>
      obtain ⟨first, others, hfirst, hothers, rfl⟩ := encodeFrom_cons_ok hdata
      obtain ⟨hv, hvs⟩ := List.forall_mem_cons.mp hrange
      obtain ⟨hs, hss⟩ := List.forall_mem_cons.mp hsized
      simp only [List.length_cons] at hmax hlength
      -- the position moves past the field, with its slot
      obtain ⟨founds, hscan, hfill⟩ := ih (before ++ [field]) (by omega)
        (by simp; omega) hvs hss (by simpa using hothers)
      have hfields : before ++ [field] ++ suffix ++ added = before ++ field :: suffix ++ added := by
        simp
      rw [hfields] at hscan
      rcases (encodeField_ok hfirst hv).2 with ⟨rfl, _, rfl⟩ | ⟨form, hform, hc, rfl⟩
      · refine ⟨founds, hscan, fun slots hslots => ?_⟩
        have := hfill (slots ++ [none]) (by simp [hslots])
        simpa [present, Value.rounded, Value.isNull, List.replicate_succ, Nat.add_right_comm]
          using this
      · have hindex : before.length < 2147483647 := by omega
        obtain ⟨htag, hvalue⟩ := read_encoded hindex hform hc hs others
        have hfield :
            (before ++ field :: suffix ++ added)[before.length + 1 - 1]? = some field := by simp
        refine ⟨_, .cons (readField_known htag hfield hform hvalue) hscan, fun slots hslots => ?_⟩
        have := hfill (slots ++ [present v.rounded]) (by simp [hslots])
        simpa [present, Value.isNull_rounded, Value.isNull_of_conformsToScalar hc, fill, ← hslots,
          List.replicate_succ, Nat.add_right_comm] using this

/-- A field of an encoded record has a representation, and no null that it does not allow. -/
theorem encodeFrom_carries {fields : List FieldSchema} {values : List Value}
    (hlength : fields.length = values.length) (hrange : ∀ v ∈ values, v.InRange) {number : Nat}
    {data : Text} (hdata : encodeFrom number fields values = .ok data) :
    List.Forall₂ (fun field v => field.isSupported = true ∧
      (field.nullable = false → v.isNull = false)) fields values := by
  induction fields generalizing values number data with
  | nil =>
    rw [List.eq_nil_of_length_eq_zero hlength.symm]
    exact .nil
  | cons field fields ih =>
    cases values with
    | nil => simp at hlength
    | cons v values =>
      obtain ⟨first, others, hfirst, hothers, rfl⟩ := encodeFrom_cons_ok hdata
      obtain ⟨hv, hvs⟩ := List.forall_mem_cons.mp hrange
      obtain ⟨hsupported, hvalue⟩ := encodeField_ok hfirst hv
      refine .cons ⟨hsupported, ?_⟩ (ih (Nat.succ.inj hlength) hvs hothers)
      rcases hvalue with ⟨_, hn, _⟩ | ⟨_, _, hc, _⟩
      · simp [hn]
      · exact fun _ => Value.isNull_of_conformsToScalar hc

theorem encode_ok {fields : List FieldSchema} {values : List Value} {data : Text}
    (hrange : ∀ v ∈ values, v.InRange) (h : encode fields values = .ok data) :
    fields.length = values.length ∧ encodeFrom 1 fields values = .ok data ∧
      (∀ field ∈ fields, field.isSupported = true) ∧ lacking fields values = none := by
  unfold encode at h
  split at h
  · cases h
  · rename_i hlength
    have hlength := not_not.mp hlength
    have hcarries := encodeFrom_carries hlength hrange h
    refine ⟨hlength, h, fun field hf => ?_, ?_⟩
    · obtain ⟨v, _, hv⟩ := forall₂_mem_left hcarries hf
      exact hv.1
    · exact lacking_eq_none.mpr fun p hp => (List.forall₂_zip hcarries hp).2

theorem lacking_rounded (fields : List FieldSchema) (values : List Value) :
    lacking fields (values.map Value.rounded) = lacking fields values := by
  rw [lacking, List.zip_map_right, List.find?_map, Option.map_map, lacking]
  simp only [Function.comp_def, Prod.map_fst, Prod.map_snd, Value.isNull_rounded, id_eq]

/-- A reader that knows the fields of an encoded record and more finds its values, each FLOAT with
single precision, and nothing else. -/
theorem decode_encoded {fields : List FieldSchema} {values : List Value} {data : Text}
    (hmax : fields.length ≤ 2147483647) (hrange : ∀ v ∈ values, v.InRange)
    (hsized : ∀ v ∈ values, v.Sized) (hdata : encode fields values = .ok data)
    (added : List FieldSchema) (hadded : ∀ field ∈ added, field.isSupported = true) :
    decode (fields ++ added) data =
      (delivered added (List.replicate added.length .null)).map
        (values.map Value.rounded ++ ·) := by
  obtain ⟨hlength, hdata, hfields, hnone⟩ := encode_ok hrange hdata
  obtain ⟨founds, hscan, hfill⟩ :=
    scan_encodeFrom [] fields added hlength (by simpa using hmax) hrange hsized hdata
  rw [List.nil_append] at hscan
  have hgathered : gathered (fields ++ added) founds =
      (values.map Value.rounded ++ List.replicate added.length Value.null).map present := by
    simpa [gathered, present, Value.isNull] using hfill [] rfl
  have hsupported : checkSupported (fields ++ added) = .ok () :=
    checkSupported_ok_iff.mpr (List.forall_mem_append.mpr ⟨hfields, hadded⟩)
  rw [hscan.decode hsupported hgathered,
    delivered_append (by rw [hlength, List.length_map]) (by rw [lacking_rounded, hnone])]

/-- What fits a schema is encoded. -/
theorem encode_admits {fields : List FieldSchema} {values : List Value}
    (h : List.Forall₂ FieldSchema.Admits fields values) :
    ∃ data, encode fields values = .ok data := by
  obtain ⟨data, hd⟩ := encodeFrom_admits h 1
  exact ⟨data, by rw [encode, if_neg (not_not.mpr h.length_eq), hd]⟩

theorem FieldSchema.Admits.inRange {field : FieldSchema} {v : Value} (h : field.Admits v) :
    v.InRange := by
  cases v with
  | int i =>
    rcases h.value with ⟨hnull, _⟩ | hc
    · cases hnull
    · rw [← Kind.scalar.inj (kind_of_conformsToScalar hc)] at hc
      exact hc
  | _ => trivial

/-- What fits a schema is decoded from its encoding, each FLOAT with single precision, as far as
fields can be numbered and texts can be long. -/
theorem decode_of_encode {fields : List FieldSchema} {values : List Value}
    (h : List.Forall₂ FieldSchema.Admits fields values) (hmax : fields.length ≤ 2147483647)
    (hsized : ∀ v ∈ values, v.Sized) {data : Text} (hdata : encode fields values = .ok data) :
    decode fields data = .ok (values.map Value.rounded) := by
  have hrange : ∀ v ∈ values, v.InRange := by
    intro v hv
    obtain ⟨field, _, hf⟩ := forall₂_mem_right h hv
    exact hf.inRange
  have hdecode := decode_encoded hmax hrange hsized hdata [] (by simp)
  simpa [delivered, lacking, Except.map] using hdecode

theorem Kind.ofScalar_representable {s : Scalar} (h : Kind.ofScalar s ≠ .unsupported) :
    Kind.ofScalar s ∈ Kind.representable ∧ (Kind.ofScalar s).scalar = s := by
  cases s with
  | timestamp | timespan => exact absurd rfl h
  | _ => exact ⟨by decide, rfl⟩

/-- A field for a type carries the values of the type, if there is a representation for them. -/
theorem Schema.ofType_admits {t : DataType} {v : Value} (h : v.conforms t = true)
    (hk : (Schema.ofType t).kind ≠ .unsupported) (name : Text) :
    FieldSchema.Admits { Schema.ofType t with name := name } v := by
  cases t with
  | scalar s =>
    obtain ⟨hmem, hscalar⟩ := Kind.ofScalar_representable hk
    refine ⟨hmem, .inr ?_⟩
    simpa [ofType, hscalar, Value.conforms] using h
  | nullable s =>
    obtain ⟨hmem, hscalar⟩ := Kind.ofScalar_representable hk
    refine ⟨hmem, ?_⟩
    rw [Value.conforms, Bool.or_eq_true] at h
    rcases h with hnull | hv
    · exact .inl ⟨Value.eq_null_of_isNull hnull, rfl⟩
    · exact .inr (by simpa [ofType, hscalar] using hv)
  | _ => exact absurd rfl hk

theorem admits_of_conformsFields {fs : List (Text × DataType)} {values : List Value}
    (h : Value.conformsFields values fs = true)
    (hk : ∀ f ∈ fs, (Schema.ofType f.2).kind ≠ .unsupported) :
    List.Forall₂ FieldSchema.Admits
      (fs.map fun (name, t) => { Schema.ofType t with name := name }) values := by
  induction fs generalizing values with
  | nil =>
    cases values with
    | nil => exact .nil
    | cons v vs => simp [Value.conformsFields] at h
  | cons f fs ih =>
    cases values with
    | nil => simp [Value.conformsFields] at h
    | cons v vs =>
      simp only [Value.conformsFields, Bool.and_eq_true] at h
      obtain ⟨hf, hfs⟩ := List.forall_mem_cons.mp hk
      exact .cons (Schema.ofType_admits h.1 hf f.1) (ih h.2 hfs)

/-- The wire loses nothing: values that fit the schema are encoded, and their encoding is decoded
to the same values. FLOATs have to hold numbers of single precision; all NaNs are one. -/
theorem encode_decode_roundTrip {fields : List FieldSchema} {values : List Value}
    (hmax : fields.length ≤ 2147483647) (h : List.Forall₂ FieldSchema.Admits fields values)
    (hfloats : ∀ v ∈ values, v.FitsFloat) (hsized : ∀ v ∈ values, v.Sized) :
    ∃ data decoded, encode fields values = .ok data ∧ decode fields data = .ok decoded ∧
      List.Forall₂ Value.Same values decoded := by
  obtain ⟨data, hd⟩ := encode_admits h
  exact ⟨data, _, hd, decode_of_encode h hmax hsized hd, Value.same_rounded hfloats⟩

def extremeFields : List FieldSchema := [
  ⟨⟨.bool, false⟩, [98]⟩, ⟨⟨.int32, true⟩, [105]⟩, ⟨⟨.int32, true⟩, [105]⟩,
  ⟨⟨.int64, false⟩, []⟩, ⟨⟨.float32, false⟩, [102]⟩, ⟨⟨.float64, true⟩, [100]⟩,
  ⟨⟨.string, true⟩, [115]⟩]

/-- The least numbers, a not-a-number with more bits than a FLOAT keeps, negative zero and an empty
text. -/
def extremeValues : List Value := [
  .boolean false, .int (-2147483648), .null, .bigint Int64.minValue, .float ⟨0xfff8000000000001⟩,
  .double ⟨0x8000000000000000⟩, .string []]

theorem encode_decode_roundTrip_extremes :
    List.Forall₂ FieldSchema.Admits extremeFields extremeValues ∧
    (∀ v ∈ extremeValues, v.FitsFloat ∧ v.Sized) ∧
    ∃ data decoded, encode extremeFields extremeValues = .ok data ∧
      decode extremeFields data = .ok decoded ∧
      List.Forall₂ Value.Same extremeValues decoded := by
  have hadmits : List.Forall₂ FieldSchema.Admits extremeFields extremeValues :=
    .cons ⟨by decide, .inr rfl⟩ <| .cons ⟨by decide, .inr (by decide)⟩ <|
    .cons ⟨by decide, .inl ⟨rfl, rfl⟩⟩ <| .cons ⟨by decide, .inr rfl⟩ <|
    .cons ⟨by decide, .inr rfl⟩ <| .cons ⟨by decide, .inr rfl⟩ <|
    .cons ⟨by decide, .inr rfl⟩ .nil
  have hvalues : ∀ v ∈ extremeValues, v.FitsFloat ∧ v.Sized := by
    have hnan : (Double.mk 0xfff8000000000001).isNaN = true := by decide +kernel
    simp [extremeValues, Value.Sized, Value.FitsFloat, hnan]
  exact ⟨hadmits, hvalues, encode_decode_roundTrip (by decide) hadmits
    (fun v hv => (hvalues v hv).1) fun v hv => (hvalues v hv).2⟩

end Wire

end TypedStream
