import TypedStream.Proofs.Wire.Record

namespace TypedStream.Wire

theorem skipValue_of_readValue {name : Text} {kind : Kind} {form : Form} {v : Value}
    {data rest : Text} (hform : kind.form? = some form)
    (h : readValue name kind data = .ok (v, rest)) (number : Nat) :
    skipValue number form data = .ok rest := by
  cases kind with
  | unsupported | unknown _ => cases hform
  | int32 =>
    cases hform
    obtain ⟨⟨n, after⟩, hn, hv⟩ := bind_ok_iff.mp h
    have hrest : after = rest := by
      dsimp only at hv
      split at hv
      · cases hv
      · cases hv
        rfl
    exact map_ok_iff.mpr ⟨_, mapError_ok_iff.mp hn, hrest⟩
  | bool | int64 | float32 | float64 | string =>
    cases hform
    obtain ⟨_, hn, hv⟩ := bind_ok_iff.mp h
    cases hv
    exact map_ok_iff.mpr ⟨_, mapError_ok_iff.mp hn, rfl⟩

/-- A reader finds nothing in fields that all stand behind its own. -/
theorem scan_unknown {fields : List FieldSchema} (suffix : List FieldSchema) {index : Nat}
    (hindex : fields.length ≤ index) (hmax : index + suffix.length ≤ 2147483647)
    {values : List Value} (hlength : suffix.length = values.length)
    (hrange : ∀ v ∈ values, v.InRange) (hsized : ∀ v ∈ values, v.Sized) {data : Text}
    (hdata : encodeFrom (index + 1) suffix values = .ok data) :
    ∃ count, Scan fields data (List.replicate count none) := by
  induction suffix generalizing index values data with
  | nil =>
    rw [List.eq_nil_of_length_eq_zero hlength.symm] at hdata
    cases hdata
    exact ⟨0, .nil⟩
  | cons field suffix ih =>
    cases values with
    | nil => simp at hlength
    | cons v values =>
      obtain ⟨first, others, hfirst, hothers, rfl⟩ := encodeFrom_cons_ok hdata
      obtain ⟨hv, hvs⟩ := List.forall_mem_cons.mp hrange
      obtain ⟨hs, hss⟩ := List.forall_mem_cons.mp hsized
      simp only [List.length_cons] at hmax hlength
      obtain ⟨count, hscan⟩ := ih (by omega) (by omega) (by omega) hvs hss hothers
      rcases (encodeField_ok hfirst hv).2 with ⟨rfl, _, rfl⟩ | ⟨form, hform, hc, rfl⟩
      · exact ⟨count, hscan⟩
      · have hlast : index < 2147483647 := by omega
        obtain ⟨htag, hvalue⟩ := read_encoded hlast hform hc hs others
        have hnone : fields[index + 1 - 1]? = none := by simpa using hindex
        exact ⟨count + 1, .cons (readField_unknown htag hnone
          (skipValue_of_readValue hform hvalue (index + 1))) hscan⟩

theorem foldl_fill_none (count : Nat) (slots : List (Option Value)) :
    (List.replicate count none).foldl fill slots = slots := by
  induction count with
  | zero => rfl
  | succ count ih => exact ih

/-- Fields that the reader does not know change nothing behind a record. -/
theorem decode_before_unknown {fields : List FieldSchema} {data unknown : Text}
    {values : List Value} {count : Nat} (h : decode fields data = .ok values)
    (hunknown : Scan fields unknown (List.replicate count none)) :
    decode fields (data ++ unknown) = .ok values := by
  obtain ⟨hsupported, founds, hscan, hgathered⟩ := scan_of_decode h
  have hboth : gathered fields (founds ++ List.replicate count none) = values.map present := by
    rw [gathered, List.foldl_append, foldl_fill_none]
    exact hgathered
  rw [(hscan.append hunknown).decode hsupported hboth, ← hscan.decode hsupported hgathered, h]

theorem encodeFrom_append {front back : List FieldSchema} {vs ws : List Value}
    (hlength : front.length = vs.length) {number : Nat} {data : Text}
    (h : encodeFrom number (front ++ back) (vs ++ ws) = .ok data) :
    ∃ early late, encodeFrom number front vs = .ok early ∧
      encodeFrom (number + front.length) back ws = .ok late ∧ data = early ++ late := by
  induction front generalizing vs number data with
  | nil =>
    rw [List.eq_nil_of_length_eq_zero hlength.symm] at h ⊢
    exact ⟨[], data, rfl, h, rfl⟩
  | cons field front ih =>
    cases vs with
    | nil => simp at hlength
    | cons v vs =>
      obtain ⟨first, others, hfirst, hothers, rfl⟩ := encodeFrom_cons_ok h
      obtain ⟨early, late, hearly, hlate, rfl⟩ := ih (Nat.succ.inj hlength) hothers
      refine ⟨first ++ early, late, encodeFrom_cons hfirst hearly, ?_, by simp⟩
      rw [← hlate, List.length_cons, Nat.add_right_comm, Nat.add_assoc]

/-- A field that has to be there is missing if none of its values was written. -/
theorem lacking_nulls (added : List FieldSchema) :
    lacking added (List.replicate added.length .null) = added.find? (fun f => !f.nullable) := by
  induction added with
  | nil => rfl
  | cons field added ih =>
    rw [lacking] at ih ⊢
    cases hn : field.nullable with
    | false => simp [List.replicate_succ, hn, Value.isNull]
    | true =>
      simp only [List.length_cons, List.replicate_succ, List.zip_cons_cons, List.find?_cons, hn,
        Bool.not_true, Bool.false_and]
      exact ih

theorem decode_front {reader back : List FieldSchema} {values : List Value} {data : Text}
    (hmax : (reader ++ back).length ≤ 2147483647) (hrange : ∀ v ∈ values, v.InRange)
    (hsized : ∀ v ∈ values, v.Sized) (hdata : encode (reader ++ back) values = .ok data) :
    decode reader data = .ok ((values.map Value.rounded).take reader.length) := by
  obtain ⟨hlength, hdata, _, _⟩ := encode_ok hrange hdata
  rw [List.length_append] at hlength hmax
  have hfront : reader.length = (values.take reader.length).length := by simp; omega
  have hback : back.length = (values.drop reader.length).length := by simp; omega
  have htake : ∀ v ∈ values.take reader.length, v ∈ values := fun v => List.mem_of_mem_take
  have hdrop : ∀ v ∈ values.drop reader.length, v ∈ values := fun v => List.mem_of_mem_drop
  rw [← List.take_append_drop reader.length values] at hdata
  obtain ⟨early, late, hearly, hlate, rfl⟩ := encodeFrom_append hfront hdata
  have hencode : encode reader (values.take reader.length) = .ok early := by
    rw [encode, if_neg (not_not.mpr hfront), hearly]
  have hdecode : decode reader early = .ok ((values.map Value.rounded).take reader.length) := by
    rw [← List.map_take]
    simpa [delivered, lacking, Except.map] using decode_encoded (by omega)
      (fun v hv => hrange v (htake v hv)) (fun v hv => hsized v (htake v hv)) hencode [] (by simp)
  rw [Nat.add_comm] at hlate
  obtain ⟨count, hunknown⟩ := scan_unknown back (Nat.le_refl reader.length) hmax hback
    (fun v hv => hrange v (hdrop v hv)) (fun v hv => hsized v (hdrop v hv)) hlate
  exact decode_before_unknown hdecode hunknown

/-- What readers with another schema make of a record. One that knows only the first fields reads
these. One that knows further fields finds null in them; if null is not allowed in one of them, the
first such field is reported missing, and if one has no representation, that is reported before
anything is read. FLOATs have to hold numbers of single precision; all NaNs are one. -/
theorem decode_evolved {fields : List FieldSchema} {values : List Value} {data : Text}
    (hmax : fields.length ≤ 2147483647) (hrange : ∀ v ∈ values, v.InRange)
    (hfloats : ∀ v ∈ values, v.FitsFloat) (hsized : ∀ v ∈ values, v.Sized)
    (hdata : encode fields values = .ok data) :
    ∃ decoded, List.Forall₂ Value.Same values decoded ∧
    (∀ reader, reader <+: fields → decode reader data = .ok (decoded.take reader.length)) ∧
    (∀ added : List FieldSchema, (∀ f ∈ added, f.isSupported = true) →
      (∀ f ∈ added, f.nullable = true) →
        decode (fields ++ added) data = .ok (decoded ++ List.replicate added.length .null)) ∧
    (∀ added : List FieldSchema, (∀ f ∈ added, f.isSupported = true) →
      (∃ f ∈ added, f.nullable = false) →
        ∃ f, added.find? (fun f => !f.nullable) = some f ∧
          decode (fields ++ added) data = .error (.missing f.name)) ∧
    (∀ added : List FieldSchema, (∃ f ∈ added, f.isSupported = false) →
      ∃ f, added.find? (fun f => !f.isSupported) = some f ∧
        decode (fields ++ added) data = .error (.unsupported f.name)) := by
  refine ⟨_, Value.same_rounded hfloats, ?_, ?_, ?_, ?_⟩
  · rintro reader ⟨back, rfl⟩
    exact decode_front hmax hrange hsized hdata
  · intro added hsupported hnullable
    have hnone : added.find? (fun f => !f.nullable) = none := by simpa using hnullable
    rw [decode_encoded hmax hrange hsized hdata added hsupported, delivered, lacking_nulls, hnone]
    rfl
  · rintro added hsupported ⟨g, hg, hn⟩
    obtain ⟨f, hf⟩ := Option.isSome_iff_exists.mp
      (List.find?_isSome.mpr ⟨g, hg, by simp [hn]⟩ :
        (added.find? (fun f => !f.nullable)).isSome = true)
    refine ⟨f, hf, ?_⟩
    rw [decode_encoded hmax hrange hsized hdata added hsupported, delivered, lacking_nulls, hf]
    rfl
  · rintro added ⟨g, hg, hn⟩
    obtain ⟨f, hf⟩ := Option.isSome_iff_exists.mp
      (List.find?_isSome.mpr ⟨g, hg, by simp [hn]⟩ :
        (added.find? (fun f => !f.isSupported)).isSome = true)
    have hfields : fields.find? (fun f => !f.isSupported) = none := by
      simpa using (encode_ok hrange hdata).2.2.1
    refine ⟨f, hf, ?_⟩
    rw [decode, checkSupported_eq, List.find?_append, hfields, Option.none_or, hf]
    rfl

def mixedFields : List FieldSchema :=
  [⟨⟨.int32, true⟩, [97]⟩, ⟨⟨.string, false⟩, [98]⟩, ⟨⟨.float64, true⟩, [99]⟩,
    ⟨⟨.float32, false⟩, [100]⟩]

/-- The least number, a text that could be taken for tags, and one half. -/
def mixedValues : List Value :=
  [.int (-2147483648), .string [8, 255], .null, .float ⟨0x3FE0000000000000⟩]

/-- The encoding: nothing stands for the null. -/
def mixedData : Text := [8, 255, 255, 255, 255, 15, 18, 2, 8, 255, 37, 0, 0, 0, 63]

set_option maxRecDepth 4000 in
/-- Read with the first two fields, with one more, with one that has to be there, and with one that
has no representation. -/
theorem decode_evolved_mixed :
    encode mixedFields mixedValues = .ok mixedData ∧
    (∀ v ∈ mixedValues, v.InRange ∧ v.FitsFloat ∧ v.Sized) ∧
    decode (mixedFields.take 2) mixedData = .ok [.int (-2147483648), .string [8, 255]] ∧
    decode (mixedFields ++ [⟨⟨.string, true⟩, [101]⟩]) mixedData = .ok (mixedValues ++ [.null]) ∧
    decode (mixedFields ++ [⟨⟨.string, true⟩, [101]⟩, ⟨⟨.int64, false⟩, [102]⟩]) mixedData =
      .error (.missing [102]) ∧
    decode (mixedFields ++ [⟨⟨.unsupported, true⟩, [103]⟩]) mixedData =
      .error (.unsupported [103]) := by
  have hdata : encode mixedFields mixedValues = .ok mixedData := rfl
  have hvalues : ∀ v ∈ mixedValues, v.InRange ∧ v.FitsFloat ∧ v.Sized := by
    have hhalf : (Double.mk 0x3FE0000000000000).narrow.widen = ⟨0x3FE0000000000000⟩ := by
      decide +kernel
    simp [mixedValues, Value.InRange, Value.FitsFloat, Value.Sized, Value.fitsInt, hhalf]
  obtain ⟨decoded, hsame, hfront, hnull, hmissing, hunsupported⟩ := decode_evolved (by decide)
    (fun v hv => (hvalues v hv).1) (fun v hv => (hvalues v hv).2.1)
    (fun v hv => (hvalues v hv).2.2) hdata
  have hdecoded : decoded = mixedValues := by
    have hall := hfront mixedFields (List.prefix_refl _)
    rw [show decode mixedFields mixedData = .ok mixedValues from rfl] at hall
    rw [Except.ok.inj hall, List.take_of_length_le (by rw [← hsame.length_eq]; decide)]
  subst hdecoded
  refine ⟨hdata, hvalues, hfront _ (List.take_prefix 2 _), hnull _ (by decide) (by decide), ?_, ?_⟩
  · obtain ⟨f, hf, hdecode⟩ :=
      hmissing [⟨⟨.string, true⟩, [101]⟩, ⟨⟨.int64, false⟩, [102]⟩] (by decide) (by decide)
    cases hf
    exact hdecode
  · obtain ⟨f, hf, hdecode⟩ := hunsupported [⟨⟨.unsupported, true⟩, [103]⟩] (by decide)
    cases hf
    exact hdecode

/-- The empty record read with one field more, which has to be there and has no representation: that
it has none is reported, not that it is missing. -/
theorem unsupported_not_missing :
    encode [] [] = .ok [] ∧
    decode ([] ++ [⟨⟨.unsupported, false⟩, [97]⟩]) [] = .error (.unsupported [97]) ∧
    decode ([] ++ [⟨⟨.unsupported, false⟩, [97]⟩]) [] ≠ .error (.missing [97]) :=
  ⟨rfl, rfl, by rw [show decode ([] ++ [⟨⟨.unsupported, false⟩, [97]⟩]) [] =
    .error (.unsupported [97]) from rfl]; simp⟩

end TypedStream.Wire
