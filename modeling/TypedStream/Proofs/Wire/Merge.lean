import TypedStream.Proofs.Wire.Scan

namespace TypedStream.Wire

/-- The same field where null is allowed. -/
def FieldSchema.asNullable (field : FieldSchema) : FieldSchema := { field with nullable := true }

/-- The later values, and the earlier ones where the later are null. -/
def merge (before after : List Value) : List Value :=
  List.zipWith (fun v w => if w.isNull then v else w) before after

theorem readField_asNullable (fields : List FieldSchema) (data : Text) :
    readField (fields.map .asNullable) data = readField fields data := by
  unfold readField
  refine bind_congr fun ⟨number, form, rest⟩ => ?_
  simp only [List.getElem?_map]
  cases fields[number - 1]? <;> rfl

theorem scan_asNullable_iff {fields : List FieldSchema} {data : Text}
    {founds : List (Option (Nat × Value))} :
    Scan (fields.map .asNullable) data founds ↔ Scan fields data founds := by
  constructor
  · intro h
    induction h with
    | nil => exact .nil
    | cons head _ ih => exact .cons (by rwa [readField_asNullable] at head) ih
  · intro h
    induction h with
    | nil => exact .nil
    | cons head _ ih => exact .cons (by rwa [readField_asNullable]) ih

@[simp] theorem gathered_asNullable (fields : List FieldSchema)
    (founds : List (Option (Nat × Value))) :
    gathered (fields.map .asNullable) founds = gathered fields founds := by
  simp [gathered]

@[simp] theorem checkSupported_asNullable (fields : List FieldSchema) :
    checkSupported (fields.map .asNullable) = checkSupported fields := by
  induction fields with
  | nil => rfl
  | cons field fields ih => simp [checkSupported, FieldSchema.asNullable, ih]

@[simp] theorem delivered_asNullable (fields : List FieldSchema) (values : List Value) :
    delivered (fields.map .asNullable) values = .ok values := by
  have hnone : lacking (fields.map .asNullable) values = none := by
    rw [lacking_eq_none]
    intro p hp hn
    obtain ⟨field, _, hfield⟩ := List.mem_map.mp (List.of_mem_zip hp).1
    simp [← hfield, FieldSchema.asNullable] at hn
  rw [delivered, hnone]

/-- With null allowed everywhere, decoding succeeds as soon as all fields are found. -/
theorem decode_asNullable_iff {fields : List FieldSchema} {data : Text} {values : List Value} :
    decode (fields.map .asNullable) data = .ok values ↔
      checkSupported fields = .ok () ∧ ∃ founds, Scan fields data founds ∧
        gathered fields founds = values.map present := by
  constructor
  · intro h
    obtain ⟨hsupported, founds, hscan, hgathered⟩ := scan_of_decode h
    exact ⟨by simpa using hsupported, founds, scan_asNullable_iff.mp hscan,
      by simpa using hgathered⟩
  · rintro ⟨hsupported, founds, hscan, hgathered⟩
    rw [(scan_asNullable_iff.mpr hscan).decode (by simpa using hsupported)
      (by simpa using hgathered), delivered_asNullable]

/-- Slots over others: what stands in the upper ones counts. -/
def overlay (lower upper : List (Option Value)) : List (Option Value) :=
  List.zipWith (fun old new => new.or old) lower upper

theorem fill_overlay (lower upper : List (Option Value)) (found : Option (Nat × Value)) :
    fill (overlay lower upper) found = overlay lower (fill upper found) := by
  cases found with
  | none => rfl
  | some p =>
    obtain ⟨i, v⟩ := p
    induction lower generalizing upper i with
    | nil => simp [fill, overlay]
    | cons old lower ih =>
      cases upper with
      | nil => simp [fill, overlay]
      | cons new upper =>
        cases i with
        | zero => simp [fill, overlay]
        | succ i => exact congrArg (new.or old :: ·) (ih upper i)

theorem foldl_fill_overlay (founds : List (Option (Nat × Value)))
    (lower upper : List (Option Value)) :
    founds.foldl fill (overlay lower upper) = overlay lower (founds.foldl fill upper) := by
  induction founds generalizing upper with
  | nil => rfl
  | cons found founds ih => rw [List.foldl_cons, fill_overlay, ih, List.foldl_cons]

theorem overlay_none (lower : List (Option Value)) :
    overlay lower (List.replicate lower.length none) = lower := by
  induction lower with
  | nil => rfl
  | cons old lower ih => exact congrArg (old :: ·) ih

/-- What is found later goes over what was found before. -/
theorem gathered_append (fields : List FieldSchema) (before after : List (Option (Nat × Value))) :
    gathered fields (before ++ after) =
      overlay (gathered fields before) (gathered fields after) := by
  have hlength : (gathered fields before).length = fields.length := by simp [gathered]
  rw [gathered, List.foldl_append, ← gathered, gathered.eq_def fields after,
    ← foldl_fill_overlay, ← hlength, overlay_none]

theorem overlay_present (before after : List Value) :
    overlay (before.map present) (after.map present) = (merge before after).map present := by
  rw [overlay, merge, List.zipWith_map, List.map_zipWith]
  congr 1
  funext v w
  cases h : w.isNull <;> simp [present, h]

/-- The merge of two decoded parts is delivered, whatever the schema does not allow to be null. -/
theorem decode_append {fields : List FieldSchema} {early late : Text} {before after : List Value}
    (hearly : decode (fields.map .asNullable) early = .ok before)
    (hlate : decode (fields.map .asNullable) late = .ok after) :
    decode fields (early ++ late) = delivered fields (merge before after) := by
  obtain ⟨hsupported, founds, hscan, hgathered⟩ := decode_asNullable_iff.mp hearly
  obtain ⟨_, found, hscan', hgathered'⟩ := decode_asNullable_iff.mp hlate
  refine (hscan.append hscan').decode hsupported ?_
  rw [gathered_append, hgathered, hgathered', overlay_present]

theorem decode_asNullable_append {fields : List FieldSchema} {early late : Text}
    {before after : List Value} (hearly : decode (fields.map .asNullable) early = .ok before)
    (hlate : decode (fields.map .asNullable) late = .ok after) :
    decode (fields.map .asNullable) (early ++ late) = .ok (merge before after) := by
  have htwice : (fields.map .asNullable).map .asNullable = fields.map FieldSchema.asNullable := by
    simp [FieldSchema.asNullable]
  rw [← htwice] at hearly hlate
  rw [decode_append hearly hlate, delivered_asNullable]

theorem merge_nulls (before : List Value) :
    merge before (List.replicate before.length .null) = before := by
  induction before with
  | nil => rfl
  | cons v before ih => exact congrArg (v :: ·) ih

theorem merge_comm {before after : List Value} (hlength : before.length = after.length)
    (h : ∀ p ∈ before.zip after, p.1.isNull = true ∨ p.2.isNull = true) :
    merge after before = merge before after := by
  induction before generalizing after with
  | nil =>
    rw [List.eq_nil_of_length_eq_zero hlength.symm]
  | cons v before ih =>
    cases after with
    | nil => simp at hlength
    | cons w after =>
      rw [List.zip_cons_cons, List.forall_mem_cons] at h
      have hhead : (if v.isNull then w else v) = if w.isNull then v else w := by
        cases hv : v.isNull with
        | false =>
          have hw : w.isNull = true := by simpa [hv] using h.1
          simp [hw]
        | true =>
          cases hw : w.isNull with
          | false => simp
          | true => rw [Value.eq_null_of_isNull hv, Value.eq_null_of_isNull hw]
      exact List.cons_eq_cons.mpr ⟨hhead, ih (Nat.succ.inj hlength) h.2⟩

theorem decode_unknown {fields : List FieldSchema} {unknown rest : Text} {number : Nat}
    {form : Form} (hsupported : checkSupported fields = .ok ())
    (htag : readTag unknown = .ok (number, form, rest)) (hnumber : fields.length < number)
    (hskip : skipValue number form rest = .ok []) :
    decode (fields.map .asNullable) unknown = .ok (List.replicate fields.length .null) := by
  have hfield : fields[number - 1]? = none := by simp; omega
  refine decode_asNullable_iff.mpr
    ⟨hsupported, [none], .cons (readField_unknown htag hfield hskip) .nil, ?_⟩
  simp [gathered, fill, present, Value.isNull]

/-- Decoding data that is put together merges what its parts decode to, and fails only over a null
that is not allowed. So a field that the reader does not know can stand anywhere, and the parts can
change places if no field is in both. -/
theorem decode_append_merge {fields : List FieldSchema} {early late : Text}
    {before after : List Value} (hearly : decode (fields.map .asNullable) early = .ok before)
    (hlate : decode (fields.map .asNullable) late = .ok after) :
    before.length = fields.length ∧ after.length = fields.length ∧
    decode (fields.map .asNullable) (early ++ late) = .ok (merge before after) ∧
    (decode fields (early ++ late) = .ok (merge before after) ↔
      ∀ p ∈ fields.zip (merge before after), p.1.nullable = false → p.2.isNull = false) ∧
    (∀ values, decode fields (early ++ late) = .ok values → values = merge before after) ∧
    (∀ unknown rest number form, readTag unknown = .ok (number, form, rest) →
      fields.length < number → skipValue number form rest = .ok [] →
        decode fields (early ++ unknown ++ late) = decode fields (early ++ late)) ∧
    ((∀ p ∈ before.zip after, p.1.isNull = true ∨ p.2.isNull = true) →
      decode fields (late ++ early) = decode fields (early ++ late)) := by
  have hbefore : before.length = fields.length := by simpa using length_of_decode hearly
  have hafter : after.length = fields.length := by simpa using length_of_decode hlate
  have hboth := decode_append hearly hlate
  refine ⟨hbefore, hafter, decode_asNullable_append hearly hlate, ?_, ?_, ?_, ?_⟩
  · rw [hboth, ← lacking_eq_none, delivered]
    cases lacking fields (merge before after) <;> simp
  · intro values hvalues
    rw [hboth, delivered] at hvalues
    split at hvalues
    · cases hvalues
    · cases hvalues
      rfl
  · intro unknown rest number form htag hnumber hskip
    have hsupported := (decode_asNullable_iff.mp hearly).1
    have hnothing := decode_unknown hsupported htag hnumber hskip
    have hkept : decode (fields.map .asNullable) (early ++ unknown) = .ok before := by
      rw [decode_asNullable_append hearly hnothing, ← hbefore, merge_nulls]
    rw [hboth, decode_append hkept hlate]
  · intro hdisjoint
    rw [hboth, decode_append hlate hearly, merge_comm (hbefore.trans hafter.symm) hdisjoint]

def tornFields : List FieldSchema :=
  [⟨⟨.bool, false⟩, [98]⟩, ⟨⟨.int64, true⟩, [110]⟩, ⟨⟨.string, false⟩, [115]⟩]

/-- The truth value with a needless group of bits, then the text. -/
def tornEarly : Text := [8, 129, 0, 26, 1, 120]

def tornLate : Text := [16, 3, 26, 2, 121, 122]

/-- A group of fields, one of them a group itself, under a number that no field has. -/
def strayGroup : Text := [43, 48, 150, 1, 59, 8, 1, 60, 44]

set_option maxRecDepth 1000 in
theorem decode_append_merge_torn :
    decode (tornFields.map .asNullable) tornEarly = .ok [.boolean true, .null, .string [120]] ∧
    decode (tornFields.map .asNullable) tornLate = .ok [.null, .bigint (-2), .string [121, 122]] ∧
    decode tornFields (tornEarly ++ tornLate) =
      .ok [.boolean true, .bigint (-2), .string [121, 122]] ∧
    decode tornFields (tornEarly ++ strayGroup ++ tornLate) =
      .ok [.boolean true, .bigint (-2), .string [121, 122]] := by
  have hearly : decode (tornFields.map .asNullable) tornEarly =
      .ok [.boolean true, .null, .string [120]] := by rfl
  have hlate : decode (tornFields.map .asNullable) tornLate =
      .ok [.null, .bigint (-2), .string [121, 122]] := by rfl
  obtain ⟨_, _, _, hiff, _, hunknown, _⟩ := decode_append_merge hearly hlate
  have hboth := hiff.mpr (by decide)
  refine ⟨hearly, hlate, hboth, ?_⟩
  rw [hunknown strayGroup [48, 150, 1, 59, 8, 1, 60, 44] 5 .startGroup (by rfl) (by decide)
    (by rfl)]
  exact hboth

end TypedStream.Wire
