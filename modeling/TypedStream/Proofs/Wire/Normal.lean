import TypedStream.Proofs.Wire.Evolution

namespace TypedStream.Wire

section Bounds

variable {data rest : Text}

/-- The last group has a single bit, so what is read is no more than what can be written. -/
theorem readGroups_lt {left n : Nat} (h : readGroups left data = .ok (n, rest)) :
    n < 2 * 128 ^ left := by
  induction left generalizing data n with
  | zero =>
    cases data with
    | nil => cases h
    | cons b bs =>
      rw [readGroups] at h
      split at h
      · rename_i hb
        cases h
        simpa [UInt8.lt_iff_toNat_lt] using hb
      · cases h
  | succ left ih =>
    have hpositive : 0 < 128 ^ left := Nat.pow_pos (by decide)
    cases data with
    | nil => cases h
    | cons b bs =>
      rw [readGroups] at h
      rw [Nat.pow_succ]
      split at h
      · rename_i hb
        cases h
        have : b.toNat < 128 := by simpa [UInt8.lt_iff_toNat_lt] using hb
        omega
      · split at h
        · rename_i m others hm
          cases h
          have := ih hm
          have := b.toNat_lt
          omega
        · cases h

theorem readVarint_lt {n : Nat} (h : readVarint data = .ok (n, rest)) : n < 2 ^ 64 :=
  readGroups_lt h

theorem length_of_readBytes {t : Text} (h : readBytes data = .ok (t, rest)) :
    t.length < 2 ^ 64 := by
  obtain ⟨⟨n, after⟩, hn, hbytes⟩ := bind_ok_iff.mp h
  have := readVarint_lt hn
  dsimp only at hbytes
  split at hbytes
  · cases hbytes
  · cases hbytes
    rw [List.length_take]
    omega

/-- A text that is read has a length that can be written, and a FLOAT single precision. -/
theorem readValue_kept {name : Text} {kind : Kind} {v : Value}
    (h : readValue name kind data = .ok (v, rest)) : v.Sized ∧ v.Rounded := by
  cases kind with
  | string =>
    obtain ⟨_, ht, hv⟩ := bind_ok_iff.mp h
    cases hv
    exact ⟨length_of_readBytes (mapError_ok_iff.mp ht), trivial⟩
  | int32 =>
    obtain ⟨_, _, hv⟩ := bind_ok_iff.mp h
    dsimp only at hv
    split at hv
    · cases hv
    · cases hv
      exact ⟨trivial, trivial⟩
  | float32 =>
    obtain ⟨_, _, hv⟩ := bind_ok_iff.mp h
    cases hv
    exact ⟨trivial, Single.widen_narrow_widen _⟩
  | bool | int64 | float64 =>
    obtain ⟨_, _, hv⟩ := bind_ok_iff.mp h
    cases hv
    exact ⟨trivial, trivial⟩
  | unsupported | unknown _ => cases h

theorem number_of_readTag {number : Nat} {form : Form}
    (h : readTag data = .ok (number, form, rest)) : 1 ≤ number ∧ number ≤ 2147483647 := by
  obtain ⟨_, _, htag⟩ := bind_ok_iff.mp h
  dsimp only at htag
  split at htag
  · cases htag
  · cases htag
    omega

end Bounds

theorem isSupported_of_representable {field : FieldSchema}
    (h : field.kind ∈ Kind.representable) : field.isSupported = true := by
  have hne : field.kind ≠ .unsupported := by
    intro he
    rw [he] at h
    exact absurd h (by decide)
  simpa [Schema.isSupported] using hne

section Safety

variable {fields : List FieldSchema} {data : Text}

theorem readValue_ne_defect {name : Text} {kind : Kind} (hkind : kind ∈ Kind.representable)
    (d : Defect) : readValue name kind data ≠ .error (.defect d) := by
  intro h
  cases kind with
  | int32 =>
    rcases bind_error_iff.mp h with hread | ⟨_, _, hv⟩
    · obtain ⟨_, _, he⟩ := mapError_error_iff.mp hread
      cases he
    · dsimp only at hv
      split at hv
      · cases hv
      · cases hv
  | bool | int64 | float32 | float64 | string =>
    rcases bind_error_iff.mp h with hread | ⟨_, _, hv⟩
    · obtain ⟨_, _, he⟩ := mapError_error_iff.mp hread
      cases he
    · cases hv
  | unsupported | unknown _ => exact absurd hkind (by simp [Kind.representable])

theorem readField_ne_defect (hkinds : ∀ field ∈ fields, field.kind ∈ Kind.representable)
    (d : Defect) : readField fields data ≠ .error (.defect d) := by
  intro h
  rcases bind_error_iff.mp h with htag | ⟨⟨number, form, after⟩, _, hfield⟩
  · obtain ⟨_, _, he⟩ := mapError_error_iff.mp htag
    cases he
  · dsimp only at hfield
    split at hfield
    · rcases bind_error_iff.mp hfield with hskip | ⟨_, _, hnone⟩
      · obtain ⟨_, _, he⟩ := mapError_error_iff.mp hskip
        cases he
      · cases hnone
    · rename_i field hfound
      have hkind := hkinds field (List.mem_of_getElem? hfound)
      obtain ⟨expected, hform, _⟩ := Kind.form_of_representable hkind
      rw [hform] at hfield
      dsimp only at hfield
      split at hfield
      · cases hfield
      · rcases bind_error_iff.mp hfield with hvalue | ⟨_, _, hsome⟩
        · exact readValue_ne_defect hkind d hvalue
        · cases hsome

end Safety

/-- Inside groups no more turns are taken than there are bytes: each takes a tag. -/
theorem skipGroups_congr {turns others : Nat} {stack : List Nat} {data : Text}
    (hturns : data.length ≤ turns) (hothers : data.length ≤ others) :
    skipGroups turns stack data = skipGroups others stack data := by
  induction turns generalizing others stack data with
  | zero =>
    cases stack with
    | nil => cases others <;> rfl
    | cons inner outer =>
      rw [List.eq_nil_of_length_eq_zero (Nat.le_zero.mp hturns)]
      cases others <;> rfl
  | succ turns ih =>
    cases stack with
    | nil => cases others <;> rfl
    | cons inner outer =>
      cases others with
      | zero =>
        rw [List.eq_nil_of_length_eq_zero (Nat.le_zero.mp hothers)]
        rfl
      | succ others =>
        rw [skipGroups, skipGroups]
        cases htag : readTag data with
        | error e => rfl
        | ok tag =>
          obtain ⟨number, form, after⟩ := tag
          have hafter := (readTag_takes htag).shorter rfl
          have hnext : ∀ (groups : List Nat) (rest : Text), rest.length ≤ after.length →
              skipGroups turns groups rest = skipGroups others groups rest :=
            fun groups rest hrest => ih (by omega) (by omega)
          cases form with
          | endGroup => simp only [bind, Except.bind, hnext _ after (Nat.le_refl _)]
          | startGroup => exact hnext _ after (Nat.le_refl _)
          | varint | fixed64 | bytes | fixed32 | reserved code =>
            simp only [bind, Except.bind]
            cases hplain : skipPlain _ after with
            | error e => rfl
            | ok rest =>
              obtain ⟨piece, rfl, _⟩ := skipPlain_takes hplain
              exact hnext _ rest (by simp)

/-- Reading stops at a field that cannot be read. -/
inductive Stops (fields : List FieldSchema) : Text → Error → Prop where
  | here {data : Text} {e : Error} (more : data ≠ []) (head : readField fields data = .error e) :
      Stops fields data e
  | later {data rest : Text} {found : Option (Nat × Value)} {e : Error}
      (head : readField fields data = .ok (found, rest)) (tail : Stops fields rest e) :
      Stops fields data e

/-- Each field takes something off the data, so reading reaches the end or stops before it. -/
theorem scan_or_stops (fields : List FieldSchema) (data : Text) :
    (∃ founds, Scan fields data founds) ∨ ∃ e, Stops fields data e := by
  induction hlength : data.length using Nat.strongRecOn generalizing data with
  | ind length ih =>
    by_cases hnil : data = []
    · exact .inl ⟨[], hnil ▸ .nil⟩
    · cases head : readField fields data with
      | error e => exact .inr ⟨e, .here hnil head⟩
      | ok outcome =>
        obtain ⟨found, rest⟩ := outcome
        have hshorter := (readField_takes head).shorter rfl
        rcases ih rest.length (by omega) rest rfl with ⟨founds, tail⟩ | ⟨e, tail⟩
        · exact .inl ⟨found :: founds, .cons head tail⟩
        · exact .inr ⟨e, .later head tail⟩

namespace Stops

variable {fields : List FieldSchema} {data : Text} {e : Error}

theorem ne_defect (h : Stops fields data e)
    (hkinds : ∀ field ∈ fields, field.kind ∈ Kind.representable) (d : Defect) : e ≠ .defect d := by
  induction h with
  | here _ head =>
    rintro rfl
    exact readField_ne_defect hkinds d head
  | later _ _ ih => exact ih

/-- With a turn for each byte the loop gets to where reading stops. -/
theorem readFields (h : Stops fields data e) {fuel : Nat} (hfuel : data.length ≤ fuel)
    (slots : List (Option Value)) : readFields fields fuel slots data = .error e := by
  induction h generalizing fuel slots with
  | @here data e more head =>
    obtain ⟨b, bs, rfl⟩ := List.exists_cons_of_ne_nil more
    obtain ⟨left, rfl⟩ : ∃ k, fuel = k + 1 := ⟨fuel - 1, by simp at hfuel; omega⟩
    rw [Wire.readFields, head]
    rfl
  | @later data rest found e head tail ih =>
    have hshorter := (readField_takes head).shorter rfl
    cases data with
    | nil => simp at hshorter
    | cons b bs =>
      obtain ⟨left, rfl⟩ : ∃ k, fuel = k + 1 := ⟨fuel - 1, by simp at hfuel; omega⟩
      rw [Wire.readFields, head]
      exact ih (by omega) _

theorem decode (h : Stops fields data e) (hsupported : checkSupported fields = .ok ()) :
    decode fields data = .error e := by
  rw [Wire.decode, hsupported, h.readFields (Nat.le_refl _)]
  rfl

end Stops

section Values

variable {fields : List FieldSchema} {data : Text} {values : List Value}

theorem lacking_of_decode (h : decode fields data = .ok values) : lacking fields values = none := by
  obtain ⟨hsupported, founds, hscan, hgathered⟩ := scan_of_decode h
  have hdelivered := (hscan.decode hsupported hgathered).symm.trans h
  unfold delivered at hdelivered
  split at hdelivered
  · cases hdelivered
  · assumption

theorem read_of_decode (h : decode fields data = .ok values) {i : Nat} {v : Value}
    (hv : values[i]? = some v) (hnull : v.isNull = false) :
    ∃ number form front rest after field, i = number - 1 ∧
      readTag front = .ok (number, form, rest) ∧ fields[i]? = some field ∧
      readValue field.name field.kind rest = .ok (v, after) := by
  obtain ⟨_, founds, hscan, hgathered⟩ := scan_of_decode h
  have hslot : (gathered fields founds)[i]? = some (some v) := by
    rw [hgathered, List.getElem?_map, hv, Option.map_some, present, hnull]
    rfl
  obtain ⟨front, after, hread⟩ := hscan.readField_of_mem (mem_of_gathered hslot)
  obtain ⟨number, form, rest, htag, ⟨_, hnone, _⟩ | ⟨field, w, hfield, _, hsome, hvalue⟩⟩ :=
    readField_cases hread
  · cases hnone
  · cases hsome
    exact ⟨number, form, front, rest, after, field, rfl, htag, hfield, hvalue⟩

/-- What is decoded fits the schema. -/
theorem admits_of_decode (hkinds : ∀ field ∈ fields, field.kind ∈ Kind.representable)
    (h : decode fields data = .ok values) : List.Forall₂ FieldSchema.Admits fields values := by
  have hlength := length_of_decode h
  refine List.forall₂_iff_zip.mpr ⟨hlength.symm, ?_⟩
  intro field v hmem
  have hallowed := lacking_eq_none.mp (lacking_of_decode h) _ hmem
  obtain ⟨i, hi⟩ := List.mem_iff_getElem?.mp hmem
  obtain ⟨hfield, hv⟩ := List.getElem?_zip_eq_some.mp hi
  refine ⟨hkinds field (List.mem_of_getElem? hfield), ?_⟩
  cases hnull : v.isNull with
  | true =>
    refine .inl ⟨Value.eq_null_of_isNull hnull, ?_⟩
    by_contra hn
    exact absurd (hallowed (by simpa using hn)) (by simp [hnull])
  | false =>
    obtain ⟨_, _, _, _, _, other, _, _, hother, hvalue⟩ := read_of_decode h hv hnull
    cases hfield.symm.trans hother
    exact .inr (readValue_conforms hvalue)

theorem kept_of_decode (h : decode fields data = .ok values) :
    ∀ v ∈ values, v.Sized ∧ v.Rounded := by
  intro v hmem
  cases hnull : v.isNull with
  | true =>
    rw [Value.eq_null_of_isNull hnull]
    exact ⟨trivial, trivial⟩
  | false =>
    obtain ⟨i, hi⟩ := List.mem_iff_getElem?.mp hmem
    obtain ⟨_, _, _, _, _, _, _, _, _, hvalue⟩ := read_of_decode h hi hnull
    exact readValue_kept hvalue

theorem drop_of_decode (h : decode fields data = .ok values) :
    values.drop 2147483647 = List.replicate (fields.drop 2147483647).length .null := by
  rw [List.eq_replicate_iff]
  refine ⟨by simp [length_of_decode h], ?_⟩
  intro v hmem
  obtain ⟨i, hi⟩ := List.mem_iff_getElem?.mp hmem
  rw [List.getElem?_drop] at hi
  cases hnull : v.isNull with
  | true => exact Value.eq_null_of_isNull hnull
  | false =>
    obtain ⟨number, _, _, _, _, _, hindex, htag, _⟩ := read_of_decode h hi hnull
    have := number_of_readTag htag
    omega

end Values

theorem encodeFrom_nulls {fields : List FieldSchema} {number : Nat} {data : Text}
    (h : encodeFrom number fields (List.replicate fields.length .null) = .ok data) : data = [] := by
  induction fields generalizing number data with
  | nil =>
    cases h
    rfl
  | cons field fields ih =>
    obtain ⟨first, others, hfirst, hothers, rfl⟩ := encodeFrom_cons_ok h
    rcases (encodeField_ok hfirst trivial).2 with ⟨_, _, rfl⟩ | ⟨_, _, hconforms, _⟩
    · exact ih hothers
    · cases Value.isNull_of_conformsToScalar hconforms

theorem lacking_of_admits {fields : List FieldSchema} {values : List Value}
    (h : List.Forall₂ FieldSchema.Admits fields values) : lacking fields values = none := by
  rw [lacking_eq_none]
  intro p hp hn
  rcases (List.forall₂_zip h hp).value with ⟨_, hnullable⟩ | hconforms
  · simp [hn] at hnullable
  · exact Value.isNull_of_conformsToScalar hconforms

/-- What fits a schema of any length is decoded from its encoding if the fields that no tag can
number are null: the encoding is that of the others. -/
theorem decode_of_encode_drop {fields : List FieldSchema} {values : List Value}
    (h : List.Forall₂ FieldSchema.Admits fields values)
    (hkept : ∀ v ∈ values, v.Sized ∧ v.Rounded)
    (hdrop : values.drop 2147483647 = List.replicate (fields.drop 2147483647).length .null)
    {data : Text} (hdata : encode fields values = .ok data) : decode fields data = .ok values := by
  have hrange : ∀ v ∈ values, v.InRange := by
    intro v hv
    obtain ⟨field, _, hf⟩ := forall₂_mem_right h hv
    exact hf.inRange
  obtain ⟨_, hdata, hsupported, _⟩ := encode_ok hrange hdata
  have hfront := List.forall₂_take 2147483647 h
  have hback := List.forall₂_drop 2147483647 h
  rw [← List.take_append_drop 2147483647 fields, ← List.take_append_drop 2147483647 values]
    at hdata
  obtain ⟨early, late, hearly, hlate, rfl⟩ := encodeFrom_append hfront.length_eq hdata
  rw [hdrop] at hlate
  rw [encodeFrom_nulls hlate, List.append_nil]
  have hencode : encode (fields.take 2147483647) (values.take 2147483647) = .ok early := by
    rw [encode, if_neg (not_not.mpr hfront.length_eq), hearly]
  have hdecode := decode_encoded (by rw [List.length_take]; omega)
    (fun v hv => hrange v (List.mem_of_mem_take hv))
    (fun v hv => (hkept v (List.mem_of_mem_take hv)).1) hencode (fields.drop 2147483647)
    (fun field hf => hsupported field (List.mem_of_mem_drop hf))
  rw [List.take_append_drop, ← hdrop, delivered, lacking_of_admits hback,
    Value.map_rounded fun v hv => (hkept v (List.mem_of_mem_take hv)).2] at hdecode
  rw [hdecode]
  exact congrArg Except.ok (List.take_append_drop 2147483647 values)

theorem decode_cases {fields : List FieldSchema} (hsupported : checkSupported fields = .ok ())
    (data : Text) :
    (∃ founds values, Scan fields data founds ∧ gathered fields founds = values.map present ∧
      decode fields data = delivered fields values) ∨
    ∃ e, Stops fields data e ∧ decode fields data = .error e := by
  rcases scan_or_stops fields data with ⟨founds, hscan⟩ | ⟨e, hstops⟩
  · obtain ⟨values, _, hvalues⟩ := hscan.gathered_present
    exact .inl ⟨founds, values, hscan, hvalues, hscan.decode hsupported hvalues⟩
  · exact .inr ⟨e, hstops, hstops.decode hsupported⟩

/-- Decoding is safe on arbitrary bytes, and normalizes. It comes to an end: groups take no more
turns than there are bytes, and reading finds all fields or stops at one that cannot be read. It
never meets a defect. What it returns fits the schema and can be encoded, and it returns the same
from that encoding. -/
theorem decode_normalizes {fields : List FieldSchema}
    (hkinds : ∀ field ∈ fields, field.kind ∈ Kind.representable) (data : Text) :
    (∀ turns stack, data.length ≤ turns →
      skipGroups turns stack data = skipGroups data.length stack data) ∧
    ((∃ founds values, Scan fields data founds ∧ gathered fields founds = values.map present ∧
        decode fields data = delivered fields values) ∨
      ∃ e, Stops fields data e ∧ decode fields data = .error e) ∧
    (∀ d, decode fields data ≠ .error (.defect d)) ∧
    ∀ values, decode fields data = .ok values →
      values.length = fields.length ∧ List.Forall₂ FieldSchema.Admits fields values ∧
      ∃ canonical, encode fields values = .ok canonical ∧ decode fields canonical = .ok values := by
  have hsupported : checkSupported fields = .ok () :=
    checkSupported_ok_iff.mpr fun field hf => isSupported_of_representable (hkinds field hf)
  have hends := decode_cases hsupported data
  refine ⟨fun turns stack hle => skipGroups_congr hle (Nat.le_refl _), hends, ?_, ?_⟩
  · intro d hdefect
    rcases hends with ⟨_, values, _, _, hdecode⟩ | ⟨e, hstops, hdecode⟩
    · rw [hdecode, delivered] at hdefect
      split at hdefect
      · cases hdefect
      · cases hdefect
    · rw [hdecode] at hdefect
      exact hstops.ne_defect hkinds d (Except.error.inj hdefect)
  · intro values hvalues
    have hadmits := admits_of_decode hkinds hvalues
    obtain ⟨canonical, hcanonical⟩ := encode_admits hadmits
    exact ⟨length_of_decode hvalues, hadmits, canonical, hcanonical,
      decode_of_encode_drop hadmits (kept_of_decode hvalues) (drop_of_decode hvalues) hcanonical⟩

def noisyFields : List FieldSchema :=
  [⟨⟨.bool, false⟩, [98]⟩, ⟨⟨.int32, true⟩, [105]⟩, ⟨⟨.float32, true⟩, [102]⟩,
    ⟨⟨.string, false⟩, [115]⟩]

/-- The fields in no order and two of them twice, a truth value of 255, a number with a needless
group of bits, a not-a-number, and a group inside a group that no field has. -/
def noisyData : Text :=
  [34, 1, 120, 16, 5, 75, 8, 1, 83, 84, 76, 8, 255, 1, 29, 1, 0, 192, 255, 16, 134, 128, 0, 34, 0]

def noisyValues : List Value := [.boolean true, .int 3, .float ⟨0xfff8000020000000⟩, .string []]

def plainData : Text := [8, 1, 16, 6, 29, 1, 0, 192, 255, 34, 0]

set_option maxRecDepth 1000 in
theorem decode_normalizes_noisy :
    (∀ field ∈ noisyFields, field.kind ∈ Kind.representable) ∧
    decode noisyFields noisyData = .ok noisyValues ∧
    List.Forall₂ FieldSchema.Admits noisyFields noisyValues ∧
    encode noisyFields noisyValues = .ok plainData ∧
    decode noisyFields plainData = .ok noisyValues := by
  have hkinds : ∀ field ∈ noisyFields, field.kind ∈ Kind.representable := by decide
  have hvalues : decode noisyFields noisyData = .ok noisyValues := by rfl
  have hplain : encode noisyFields noisyValues = .ok plainData := by rfl
  obtain ⟨_, _, _, hnormal⟩ := decode_normalizes hkinds noisyData
  obtain ⟨_, hadmits, canonical, hencode, hdecode⟩ := hnormal noisyValues hvalues
  cases hencode.symm.trans hplain
  exact ⟨hkinds, hvalues, hadmits, hplain, hdecode⟩

end TypedStream.Wire
