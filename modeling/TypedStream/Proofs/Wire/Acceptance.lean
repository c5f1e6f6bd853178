import TypedStream.Proofs.Event.Conforming
import TypedStream.Proofs.Wire.Normal

namespace TypedStream.Wire

variable {field : FieldSchema} {fields : List FieldSchema} {v : Value} {values : List Value}

/-- A value that the encoder takes for a field: null where that is allowed, or a value of the
field's kind. -/
def FieldSchema.Accepts (field : FieldSchema) (v : Value) : Prop :=
  v = .null ∧ field.nullable = true ∨ v.kind = .scalar field.kind.scalar

/-- The values that a field can carry are those that the encoder takes, less the INTs that do not
fit. -/
theorem admits_iff (hkind : field.kind ∈ Kind.representable) :
    field.Admits v ↔ field.Accepts v ∧ v.InRange := by
  constructor
  · intro h
    refine ⟨?_, h.inRange⟩
    rcases h.value with hnull | hv
    · exact .inl hnull
    · exact .inr (kind_of_conformsToScalar hv)
  · intro h
    obtain ⟨haccepts, hrange⟩ := h
    refine ⟨hkind, ?_⟩
    rcases haccepts with hnull | hv
    · exact .inl hnull
    · exact .inr (conformsToScalar_of_kind hv hrange)

theorem encodeField_ok_iff (hkind : field.kind ∈ Kind.representable) {number : Nat} {first : Text} :
    encodeField number field v = .ok first ↔
      v = .null ∧ field.nullable = true ∧ first = [] ∨
      v.kind = .scalar field.kind.scalar ∧ ∃ form, field.kind.form? = some form ∧
        first = encodeTag number form ++ encodeValue v := by
  obtain ⟨form, hform, _⟩ := Kind.form_of_representable hkind
  have hsupported : field.kind ≠ .unsupported := by
    intro he
    rw [he] at hform
    cases hform
  rw [encodeField, if_neg hsupported]
  cases hnull : v.isNull with
  | true =>
    obtain rfl := Value.eq_null_of_isNull hnull
    cases field.nullable <;> simp [Value.kind, eq_comm]
  | false =>
    have hne : v ≠ .null := by
      intro he
      rw [he] at hnull
      cases hnull
    by_cases hscalar : v.kind = .scalar field.kind.scalar
    · simp only [Bool.false_eq_true, if_false, hscalar, ne_eq, not_true_eq_false, hform, hne,
        false_and, false_or, true_and, Option.some.injEq, exists_eq_left', Except.ok.injEq]
      exact eq_comm
    · simp [hscalar, hne]

theorem encodeFrom_ok_iff (hkinds : ∀ field ∈ fields, field.kind ∈ Kind.representable)
    (hlength : fields.length = values.length) {number : Nat} :
    (∃ data, encodeFrom number fields values = .ok data) ↔
      List.Forall₂ FieldSchema.Accepts fields values := by
  induction fields generalizing values number with
  | nil =>
    rw [List.eq_nil_of_length_eq_zero hlength.symm]
    exact ⟨fun _ => .nil, fun _ => ⟨[], rfl⟩⟩
  | cons field fields ih =>
    cases values with
    | nil => simp at hlength
    | cons v values =>
      obtain ⟨hkind, hkinds⟩ := List.forall_mem_cons.mp hkinds
      have hrest : (∃ data, encodeFrom (number + 1) fields values = .ok data) ↔ _ :=
        ih hkinds (Nat.succ.inj hlength)
      rw [List.forall₂_cons, ← hrest]
      constructor
      · intro h
        obtain ⟨data, h⟩ := h
        obtain ⟨first, others, hfirst, hothers, _⟩ := encodeFrom_cons_ok h
        refine ⟨?_, others, hothers⟩
        rcases (encodeField_ok_iff hkind).mp hfirst with ⟨hv, hn, _⟩ | ⟨hv, _⟩
        · exact .inl ⟨hv, hn⟩
        · exact .inr hv
      · intro h
        obtain ⟨haccepts, others, hothers⟩ := h
        obtain ⟨form, hform, _⟩ := Kind.form_of_representable hkind
        rcases haccepts with ⟨hv, hn⟩ | hv
        · have hfirst : encodeField number field v = .ok [] :=
            (encodeField_ok_iff hkind).mpr (.inl ⟨hv, hn, rfl⟩)
          exact ⟨_, encodeFrom_cons hfirst hothers⟩
        · have hfirst : encodeField number field v = .ok (encodeTag number form ++ encodeValue v) :=
            (encodeField_ok_iff hkind).mpr (.inr ⟨hv, form, hform, rfl⟩)
          exact ⟨_, encodeFrom_cons hfirst hothers⟩

theorem encode_ok_iff (hkinds : ∀ field ∈ fields, field.kind ∈ Kind.representable) :
    (∃ data, encode fields values = .ok data) ↔
      List.Forall₂ FieldSchema.Accepts fields values := by
  by_cases hlength : fields.length = values.length
  · rw [encode, if_neg (not_not.mpr hlength)]
    exact encodeFrom_ok_iff hkinds hlength
  · rw [encode, if_pos hlength]
    constructor
    · intro h
      obtain ⟨_, h⟩ := h
      cases h
    · intro h
      exact absurd h.length_eq hlength

theorem Scan.stops {early late : Text} {founds : List (Option (Nat × Value))} {e : Error}
    (h : Scan fields early founds) (hlate : Stops fields late e) :
    Stops fields (early ++ late) e := by
  induction h with
  | nil => exact hlate
  | cons head _ ih => exact .later ((readField_takes head).append late) ih

theorem readValue_range {i : Int64} (h : Value.fitsInt i = false) (name rest : Text) :
    readValue name .int32 (encodeVarint (zigzag i) ++ rest) = .error (.range i.toInt name) := by
  have hbeyond : i.toInt < -2147483648 ∨ 2147483647 < i.toInt := by
    simp only [Value.fitsInt, Bool.and_eq_false_iff, decide_eq_false_iff_not] at h
    omega
  simp only [readValue, readVarint_encodeVarint, mapError_ok, bind, Except.bind, unzigzag_zigzag]
  rw [if_pos hbeyond]
  rfl

theorem inRange_or_first (values : List Value) : (∀ v ∈ values, v.InRange) ∨
    ∃ front i back, values = front ++ .int i :: back ∧ (∀ v ∈ front, v.InRange) ∧
      Value.fitsInt i = false := by
  induction values with
  | nil => exact .inl (by simp)
  | cons v values ih =>
    by_cases hv : v.InRange
    · rcases ih with hall | ⟨front, i, back, rfl, hfront, hi⟩
      · exact .inl (List.forall_mem_cons.mpr ⟨hv, hall⟩)
      · exact .inr ⟨v :: front, i, back, rfl, List.forall_mem_cons.mpr ⟨hv, hfront⟩, hi⟩
    · cases v with
      | int i => exact .inr ⟨[], i, values, rfl, by simp, by simpa [Value.InRange] using hv⟩
      | _ => exact absurd trivial hv

theorem readField_refused {data after : Text} {number : Nat} {form : Form} {e : Error}
    (htag : readTag data = .ok (number, form, after)) (hfield : fields[number - 1]? = some field)
    (hform : field.kind.form? = some form)
    (hvalue : readValue field.name field.kind after = .error e) :
    readField fields data = .error e := by
  simp only [readField, htag, mapError_ok, bind, Except.bind, hfield, hform, hvalue,
    ne_eq, not_true_eq_false, ↓reduceIte]

/-- A longer INT stands in the bytes as any other, and cannot be read from them. -/
theorem readField_range {index : Nat} {i : Int64} {first : Text}
    (hkind : field.kind ∈ Kind.representable) (hfield : fields[index]? = some field)
    (hmax : index < 2147483647) (hi : Value.fitsInt i = false)
    (hfirst : encodeField (index + 1) field (.int i) = .ok first) (rest : Text) :
    readField fields (first ++ rest) = .error (.range i.toInt field.name) := by
  rcases (encodeField_ok_iff hkind).mp hfirst with ⟨hnull, _⟩ | ⟨hscalar, form, hform, rfl⟩
  · cases hnull
  · have hint : field.kind = .int32 := by
      rw [← Kind.ofScalar_scalar hkind, ← TypedStream.Kind.scalar.inj hscalar]
      rfl
    rw [hint] at hform
    cases hform
    rw [List.append_assoc]
    have htag : readTag (encodeTag (index + 1) .varint ++ (encodeValue (.int i) ++ rest)) =
        .ok (index + 1, .varint, encodeValue (.int i) ++ rest) :=
      readTag_encodeTag (by omega) (by omega) (by decide) rfl _
    apply readField_refused htag hfield (by rw [hint]; rfl)
    rw [hint]
    exact readValue_range hi field.name rest

/-- Decoding what was encoded stops at the first INT that does not fit. -/
theorem decode_of_range {front back : List Value} {i : Int64} {data : Text}
    (hkinds : ∀ field ∈ fields, field.kind ∈ Kind.representable) (hmax : fields.length ≤ 2147483647)
    (hfront : ∀ v ∈ front, v.InRange) (hsized : ∀ v ∈ front, v.Sized)
    (hi : Value.fitsInt i = false) (hdata : encode fields (front ++ .int i :: back) = .ok data) :
    ∃ field, fields[front.length]? = some field ∧
      decode fields data = .error (.range i.toInt field.name) := by
  have hlength := ((encode_ok_iff hkinds).mp ⟨data, hdata⟩).length_eq
  rw [encode, if_neg (not_not.mpr hlength)] at hdata
  rw [List.length_append, List.length_cons] at hlength
  have hlt : front.length < fields.length := by omega
  obtain ⟨before, field, after, rfl, hbefore⟩ : ∃ before field after,
      fields = before ++ field :: after ∧ before.length = front.length :=
    ⟨fields.take front.length, fields[front.length], fields.drop (front.length + 1),
      by simp, by simp; omega⟩
  have hfield : (before ++ field :: after)[front.length]? = some field := by simp [← hbefore]
  obtain ⟨early, late, hearly, hlate, rfl⟩ := encodeFrom_append hbefore hdata
  obtain ⟨first, others, hfirst, _, rfl⟩ := encodeFrom_cons_ok hlate
  rw [List.length_append, List.length_cons] at hmax
  -- the fields before it are found, and then comes the one that is not
  obtain ⟨founds, hscan, _⟩ := scan_encodeFrom [] before (field :: after) hbefore
    (by simp; omega) hfront hsized hearly
  rw [Nat.add_comm, hbefore] at hfirst
  have hrefused := readField_range (hkinds field (by simp)) hfield (by omega) hi hfirst others
  have hmore : first ++ others ≠ [] := by
    intro hnil
    rw [hnil] at hrefused
    cases hrefused
  have hsupported : checkSupported (before ++ field :: after) = .ok () :=
    checkSupported_ok_iff.mpr fun f hf => isSupported_of_representable (hkinds f hf)
  exact ⟨field, hfield, (hscan.stops (.here hmore hrefused)).decode hsupported⟩

theorem ofType_representable {t : DataType} (hk : (Schema.ofType t).isSupported = true) :
    (Schema.ofType t).kind ∈ Kind.representable := by
  have hne : (Schema.ofType t).kind ≠ .unsupported := by simpa [Schema.isSupported] using hk
  cases t with
  | scalar s | nullable s => exact (Kind.ofScalar_representable hne).1
  | _ => exact absurd rfl hne

theorem ofType_admits_iff {t : DataType} (hk : (Schema.ofType t).isSupported = true) (name : Text) :
    FieldSchema.Admits { Schema.ofType t with name := name } v ↔ v.conforms t = true := by
  have hne : (Schema.ofType t).kind ≠ .unsupported := by simpa [Schema.isSupported] using hk
  constructor
  · intro h
    cases t with
    | scalar s =>
      rcases h.value with ⟨_, hn⟩ | hv
      · cases hn
      · simpa [Schema.ofType, (Kind.ofScalar_representable hne).2, Value.conforms] using hv
    | nullable s =>
      rcases h.value with ⟨rfl, _⟩ | hv
      · rfl
      · have hv : v.conformsToScalar s = true := by
          simpa [Schema.ofType, (Kind.ofScalar_representable hne).2] using hv
        simp [Value.conforms, hv]
    | _ => exact absurd rfl hne
  · intro h
    exact Schema.ofType_admits h hne name

/-- An INT that does not fit, for a field of that type or its nullable version. -/
def LongInt (t : DataType) (v : Value) : Prop :=
  (t = .scalar .int ∨ t = .nullable .int) ∧ ∃ i, v = .int i ∧ Value.fitsInt i = false

theorem longInt_of_kind {t : DataType} (hk : (Schema.ofType t).isSupported = true) {i : Int64}
    (hi : Value.fitsInt i = false)
    (hkind : (Value.int i).kind = .scalar (Schema.ofType t).kind.scalar) : LongInt t (.int i) := by
  have hne : (Schema.ofType t).kind ≠ .unsupported := by simpa [Schema.isSupported] using hk
  have hint := TypedStream.Kind.scalar.inj hkind
  refine ⟨?_, i, rfl, hi⟩
  cases t with
  | scalar s =>
    rw [show s = .int from (Kind.ofScalar_representable hne).2.symm.trans hint.symm]
    exact .inl rfl
  | nullable s =>
    rw [show s = .int from (Kind.ofScalar_representable hne).2.symm.trans hint.symm]
    exact .inr rfl
  | _ => exact absurd rfl hne

theorem ofType_accepts_iff {t : DataType} (hk : (Schema.ofType t).isSupported = true)
    (name : Text) :
    FieldSchema.Accepts { Schema.ofType t with name := name } v ↔
      v.conforms t = true ∨ LongInt t v := by
  rw [← ofType_admits_iff hk name, admits_iff (ofType_representable hk)]
  constructor
  · intro h
    by_cases hrange : v.InRange
    · exact .inl ⟨h, hrange⟩
    · cases v with
      | int i =>
        rcases h with ⟨hnull, _⟩ | hkind
        · cases hnull
        · exact .inr (longInt_of_kind hk (by simpa [Value.InRange] using hrange) hkind)
      | _ => exact absurd trivial hrange
  · intro h
    rcases h with h | ⟨ht, i, rfl, _⟩
    · exact h.1
    · rcases ht with rfl | rfl <;> exact .inr rfl

section Fields

variable {fs : List (Text × DataType)}

theorem conformsFields_iff_admits (hk : ∀ f ∈ fs, (Schema.ofType f.2).isSupported = true) :
    Value.conformsFields values fs = true ↔
      List.Forall₂ FieldSchema.Admits
        (fs.map fun (name, t) => { Schema.ofType t with name := name }) values := by
  rw [Value.conformsFields_iff, List.forall₂_map_left_iff, List.forall₂_map_left_iff]
  exact forall₂_congr fun f hf v => (ofType_admits_iff (hk f hf) f.1).symm

theorem forall₂_accepts_iff (hk : ∀ f ∈ fs, (Schema.ofType f.2).isSupported = true) :
    List.Forall₂ FieldSchema.Accepts
        (fs.map fun (name, t) => { Schema.ofType t with name := name }) values ↔
      List.Forall₂ (fun f v => v.conforms f.2 = true ∨ LongInt f.2 v) fs values := by
  rw [List.forall₂_map_left_iff]
  exact forall₂_congr fun f hf v => ofType_accepts_iff (hk f hf) f.1

theorem forall₂_admits_iff (hkinds : ∀ field ∈ fields, field.kind ∈ Kind.representable) :
    List.Forall₂ FieldSchema.Admits fields values ↔
      List.Forall₂ FieldSchema.Accepts fields values ∧ ∀ v ∈ values, v.InRange := by
  induction fields generalizing values with
  | nil => cases values <;> simp
  | cons field fields ih =>
    obtain ⟨hkind, hkinds⟩ := List.forall_mem_cons.mp hkinds
    cases values with
    | nil => simp
    | cons v values =>
      rw [List.forall₂_cons, List.forall₂_cons, List.forall_mem_cons, ih hkinds, admits_iff hkind]
      exact and_and_and_comm

/-- What becomes of bytes that were written: all is read, FLOATs with single precision, or the first
INT that does not fit is refused. -/
theorem decode_of_accepted (hkinds : ∀ field ∈ fields, field.kind ∈ Kind.representable)
    (hmax : fields.length ≤ 2147483647) (hsized : ∀ v ∈ values, v.Sized) {data : Text}
    (hdata : encode fields values = .ok data) :
    (∀ v ∈ values, v.InRange) ∧ decode fields data = .ok (values.map Value.rounded) ∨
    ∃ front i back field, values = front ++ .int i :: back ∧ (∀ v ∈ front, v.InRange) ∧
      Value.fitsInt i = false ∧ fields[front.length]? = some field ∧
      decode fields data = .error (.range i.toInt field.name) := by
  rcases inRange_or_first values with hrange | ⟨front, i, back, rfl, hfront, hi⟩
  · have haccepts := (encode_ok_iff hkinds).mp ⟨data, hdata⟩
    have hadmits := (forall₂_admits_iff hkinds).mpr ⟨haccepts, hrange⟩
    exact .inl ⟨hrange, decode_of_encode hadmits hmax hsized hdata⟩
  · have hfit : ∀ v ∈ front, v.Sized := fun v hv => hsized v (by simp [hv])
    obtain ⟨field, hfield, hdecode⟩ := decode_of_range hkinds hmax hfront hfit hi hdata
    exact .inr ⟨front, i, back, field, rfl, hfront, hi, hfield, hdecode⟩

/-- What the encoder takes. Of the values for a record type whose fields all have a representation,
it takes those that conform field by field, and besides them INTs that do not fit; what it takes
conforms if all INTs fit, and only then. The encoding is decoded to the same values, FLOATs with
single precision, if all INTs fit, and otherwise refused at the first that does not, as far as
fields can be numbered and texts can be long. -/
theorem encode_accepts (hsupported : ∀ f ∈ fs, (Schema.ofType f.2).isSupported = true)
    (values : List Value) :
    ∃ fields, schemaOf (.record fs) = .ok fields ∧
      ((∃ data, encode fields values = .ok data) ↔
        List.Forall₂ (fun f v => v.conforms f.2 = true ∨ LongInt f.2 v) fs values) ∧
      ((Value.record values).conforms (.record fs) = true ↔
        (∃ data, encode fields values = .ok data) ∧ ∀ v ∈ values, v.InRange) ∧
      ∀ data, encode fields values = .ok data → fs.length ≤ 2147483647 →
        (∀ v ∈ values, v.Sized) →
        (∀ v ∈ values, v.InRange) ∧ decode fields data = .ok (values.map Value.rounded) ∨
        ∃ front i back field, values = front ++ .int i :: back ∧ (∀ v ∈ front, v.InRange) ∧
          Value.fitsInt i = false ∧ fields[front.length]? = some field ∧
          decode fields data = .error (.range i.toInt field.name) := by
  have hkinds : ∀ field ∈ fs.map fun (name, t) => ({ Schema.ofType t with name := name } :
      FieldSchema), field.kind ∈ Kind.representable := by
    intro field hfield
    obtain ⟨f, hf, rfl⟩ := List.mem_map.mp hfield
    exact ofType_representable (hsupported f hf)
  refine ⟨_, rfl, ?_, ?_, ?_⟩
  · rw [encode_ok_iff hkinds, forall₂_accepts_iff hsupported]
  · rw [Value.conforms, conformsFields_iff_admits hsupported, forall₂_admits_iff hkinds,
      encode_ok_iff hkinds]
  · intro data hdata hmax hsized
    exact decode_of_accepted hkinds (by simpa using hmax) hsized hdata

def countFields : List (Text × DataType) :=
  [(utf8 "a", .nullable .string), (utf8 "b", .scalar .int), (utf8 "c", .nullable .int)]

/-- The least INT and the greatest are taken and decoded; one more or one less is taken too, and the
first of them is refused by the decoder. -/
theorem encode_accepts_bounds :
    (∃ fields data, schemaOf (.record countFields) = .ok fields ∧
      encode fields [.null, .int 2147483647, .int (-2147483648)] = .ok data ∧
      decode fields data = .ok [.null, .int 2147483647, .int (-2147483648)]) ∧
    ∃ fields data field, schemaOf (.record countFields) = .ok fields ∧
      encode fields [.null, .int 2147483648, .int (-2147483649)] = .ok data ∧
      fields[1]? = some field ∧ decode fields data = .error (.range 2147483648 field.name) := by
  have hsupported : ∀ f ∈ countFields, (Schema.ofType f.2).isSupported = true := by
    simp [countFields, Schema.isSupported, Schema.ofType, Kind.ofScalar]
  constructor
  · obtain ⟨fields, hfields, _, hconforms, hdecode⟩ :=
      encode_accepts hsupported [.null, .int 2147483647, .int (-2147483648)]
    obtain ⟨⟨data, hdata⟩, hrange⟩ := hconforms.mp (by decide)
    refine ⟨fields, data, hfields, hdata, ?_⟩
    rcases hdecode data hdata (by decide) (by simp [Value.Sized]) with ⟨_, h⟩ | h
    · exact h
    · obtain ⟨front, i, back, _, hvalues, _, hi, _⟩ := h
      have hfits : (Value.int i).InRange := hrange (.int i) (by simp [hvalues])
      simp [Value.InRange, hi] at hfits
  · obtain ⟨fields, hfields, haccepts, _, hdecode⟩ :=
      encode_accepts hsupported [.null, .int 2147483648, .int (-2147483649)]
    have hlong : LongInt (.scalar .int) (.int 2147483648) := ⟨.inl rfl, _, rfl, by decide⟩
    have hlong' : LongInt (.nullable .int) (.int (-2147483649)) := ⟨.inr rfl, _, rfl, by decide⟩
    obtain ⟨data, hdata⟩ := haccepts.mpr
      (.cons (.inl rfl) (.cons (.inr hlong) (.cons (.inr hlong') .nil)))
    rcases hdecode data hdata (by decide) (by simp [Value.Sized]) with ⟨hrange, _⟩ | h
    · have hfits : Value.fitsInt 2147483648 = true := hrange (.int 2147483648) (by simp)
      cases hfits
    · obtain ⟨front, i, back, field, hvalues, hfront, _, hfield, hrefused⟩ := h
      -- the first INT that does not fit is the second value
      cases front with
      | nil => cases hvalues
      | cons first others =>
        cases others with
        | nil =>
          cases hvalues
          exact ⟨fields, data, field, hfields, hdata, hfield, hrefused⟩
        | cons second others =>
          obtain ⟨rfl, _⟩ := List.cons.inj (List.cons.inj hvalues).2
          have hfits : Value.fitsInt 2147483648 = true := hfront (.int 2147483648) (by simp)
          cases hfits

/-- An INT of more than 32 bits does not conform, but is encoded to bytes that cannot be decoded. -/
theorem long_int_encoded :
    ∃ fields data, schemaOf (.record [(utf8 "a", .scalar .int)]) = .ok fields ∧
      (Value.record [.int 2147483648]).conforms (.record [(utf8 "a", .scalar .int)]) = false ∧
      encode fields [.int 2147483648] = .ok data ∧
      decode fields data = .error (.range 2147483648 (utf8 "a")) := by
  have hdata : encode [⟨⟨.int32, false⟩, utf8 "a"⟩] ([] ++ .int 2147483648 :: []) =
      .ok [8, 128, 128, 128, 128, 16] := rfl
  obtain ⟨field, hfield, hdecode⟩ := decode_of_range (by simp [Kind.representable]) (by decide)
    (by simp) (by simp) (by decide) hdata
  cases hfield
  exact ⟨_, _, rfl, by decide, hdata, hdecode⟩

end Fields

end TypedStream.Wire
