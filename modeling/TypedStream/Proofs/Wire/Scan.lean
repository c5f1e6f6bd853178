import TypedStream.Proofs.Outcome
import TypedStream.Proofs.Promotion
import TypedStream.Wire.Record

namespace TypedStream.Wire

/-- The reader takes a piece off the front of the data and would take it whatever followed. Its
outcome is given as a function of what is left. -/
def Takes {ε β : Type} (read : Text → Except ε β) (data rest : Text) (outcome : Text → β) : Prop :=
  ∃ piece, data = piece ++ rest ∧ ∀ more, read (piece ++ more) = .ok (outcome more)

namespace Takes

variable {ε δ β γ : Type} {read : Text → Except ε β} {data middle rest : Text} {outcome : Text → β}

theorem append (h : Takes read data rest outcome) (more : Text) :
    read (data ++ more) = .ok (outcome (rest ++ more)) := by
  obtain ⟨piece, rfl, hread⟩ := h
  rw [List.append_assoc]
  exact hread (rest ++ more)

theorem shorter {e : ε} (h : Takes read data rest outcome) (hnil : read [] = .error e) :
    rest.length < data.length := by
  obtain ⟨piece, rfl, hread⟩ := h
  have hne : piece ≠ [] := by
    rintro rfl
    exact absurd ((hread []).symm.trans hnil) (by simp)
  have := List.length_pos_iff.mpr hne
  simp only [List.length_append]
  omega

theorem nothing (h : ∀ more, read more = .ok (outcome more)) : Takes read rest rest outcome :=
  ⟨[], rfl, h⟩

theorem bind {next : β → Except ε γ} {final : Text → γ} (h : Takes read data middle outcome)
    (hnext : Takes (fun more => next (outcome more)) middle rest final) :
    Takes (fun more => read more >>= next) data rest final := by
  obtain ⟨first, rfl, hfirst⟩ := h
  obtain ⟨second, rfl, hsecond⟩ := hnext
  refine ⟨first ++ second, (List.append_assoc ..).symm, fun more => ?_⟩
  dsimp only
  rw [List.append_assoc, hfirst]
  exact hsecond more

theorem map (f : β → γ) (h : Takes read data rest outcome) :
    Takes (fun more => (read more).map f) data rest (fun more => f (outcome more)) := by
  obtain ⟨piece, rfl, hread⟩ := h
  exact ⟨piece, rfl, fun more => by simp only [hread]; rfl⟩

theorem mapError (f : ε → δ) (h : Takes read data rest outcome) :
    Takes (fun more => (read more).mapError f) data rest outcome := by
  obtain ⟨piece, rfl, hread⟩ := h
  exact ⟨piece, rfl, fun more => by simp only [hread]; rfl⟩

end Takes

theorem readGroups_takes {left n : Nat} {data rest : Text}
    (h : readGroups left data = .ok (n, rest)) :
    Takes (readGroups left) data rest (fun more => (n, more)) := by
  induction left generalizing data n with
  | zero =>
    cases data with
    | nil => cases h
    | cons b bs =>
      rw [readGroups] at h
      split at h
      · rename_i hb
        cases h
        exact ⟨[b], rfl, fun more => by simp [readGroups, hb]⟩
      · cases h
  | succ left ih =>
    cases data with
    | nil => cases h
    | cons b bs =>
      rw [readGroups] at h
      split at h
      · rename_i hb
        cases h
        exact ⟨[b], rfl, fun more => by simp [readGroups, hb]⟩
      · rename_i hb
        split at h
        · rename_i m others hm
          cases h
          obtain ⟨piece, rfl, hread⟩ := ih hm
          exact ⟨b :: piece, rfl, fun more => by simp [readGroups, hb, hread]⟩
        · cases h

theorem readVarint_takes {n : Nat} {data rest : Text} (h : readVarint data = .ok (n, rest)) :
    Takes readVarint data rest (fun more => (n, more)) :=
  readGroups_takes h

theorem readFixed_takes {count n : Nat} {data rest : Text}
    (h : readFixed count data = .ok (n, rest)) :
    Takes (readFixed count) data rest (fun more => (n, more)) := by
  induction count generalizing data n with
  | zero =>
    cases h
    exact .nothing fun more => rfl
  | succ count ih =>
    cases data with
    | nil => cases h
    | cons b bs =>
      rw [readFixed] at h
      split at h
      · rename_i m others hm
        cases h
        obtain ⟨piece, rfl, hread⟩ := ih hm
        exact ⟨b :: piece, rfl, fun more => by simp [readFixed, hread]⟩
      · cases h

theorem readBytes_takes {t data rest : Text} (h : readBytes data = .ok (t, rest)) :
    Takes readBytes data rest (fun more => (t, more)) := by
  obtain ⟨⟨n, after⟩, hn, hbytes⟩ := bind_ok_iff.mp h
  refine (readVarint_takes hn).bind ?_
  dsimp only at hbytes ⊢
  split at hbytes
  · cases hbytes
  · cases hbytes
    have hlength : (after.take n).length = n := by simp; omega
    refine ⟨after.take n, (List.take_append_drop n after).symm, fun more => ?_⟩
    dsimp only
    rw [if_neg (by simp [hlength]), List.take_left' hlength, List.drop_left' hlength]
    rfl

theorem readTag_takes {number : Nat} {form : Form} {data rest : Text}
    (h : readTag data = .ok (number, form, rest)) :
    Takes readTag data rest (fun more => (number, form, more)) := by
  obtain ⟨⟨n, after⟩, hn, htag⟩ := bind_ok_iff.mp h
  refine (readVarint_takes hn).bind ?_
  dsimp only at htag ⊢
  split at htag
  · cases htag
  · rename_i hgood
    cases htag
    exact .nothing fun more => if_neg hgood

theorem skipPlain_takes {form : Form} {data rest : Text} (h : skipPlain form data = .ok rest) :
    Takes (skipPlain form) data rest id := by
  cases form with
  | varint =>
    obtain ⟨⟨n, _⟩, hn, rfl⟩ := map_ok_iff.mp h
    exact (readVarint_takes hn).map Prod.snd
  | fixed64 =>
    obtain ⟨⟨n, _⟩, hn, rfl⟩ := map_ok_iff.mp h
    exact (readFixed_takes hn).map Prod.snd
  | bytes =>
    obtain ⟨⟨t, _⟩, ht, rfl⟩ := map_ok_iff.mp h
    exact (readBytes_takes ht).map Prod.snd
  | fixed32 =>
    obtain ⟨⟨n, _⟩, hn, rfl⟩ := map_ok_iff.mp h
    exact (readFixed_takes hn).map Prod.snd
  | startGroup | endGroup | reserved _ => cases h

/-- Every field inside a group has a tag, so a turn for each byte of the groups is enough. -/
theorem skipGroups_takes {fuel : Nat} {stack : List Nat} {data rest : Text}
    (h : skipGroups fuel stack data = .ok rest) :
    ∃ piece, data = piece ++ rest ∧ ∀ turns, piece.length ≤ turns → ∀ more,
      skipGroups turns stack (piece ++ more) = .ok more := by
  induction fuel generalizing stack data with
  | zero =>
    cases stack with
    | nil =>
      cases h
      exact ⟨[], rfl, fun turns _ more => by cases turns <;> rfl⟩
    | cons inner outer => cases h
  | succ fuel ih =>
    cases stack with
    | nil =>
      cases h
      exact ⟨[], rfl, fun turns _ more => by cases turns <;> rfl⟩
    | cons inner outer =>
      obtain ⟨⟨number, form, after⟩, htag, hgroup⟩ := bind_ok_iff.mp h
      have hshorter := (readTag_takes htag).shorter rfl
      obtain ⟨tag, rfl, hread⟩ := readTag_takes htag
      -- the tag pays for the turn, the others are for what stands behind it
      have hturns : ∀ {turns : Nat} {piece : Text}, (tag ++ piece).length ≤ turns →
          ∃ left, turns = left + 1 ∧ piece.length ≤ left := by
        intro turns piece hle
        simp only [List.length_append] at hle hshorter
        exact ⟨turns - 1, by omega, by omega⟩
      cases form with
      | endGroup =>
        dsimp only at hgroup
        split at hgroup
        · rename_i hn
          obtain ⟨piece, rfl, hskip⟩ := ih hgroup
          refine ⟨tag ++ piece, (List.append_assoc ..).symm, fun turns hle more => ?_⟩
          obtain ⟨left, rfl, hleft⟩ := hturns hle
          simp [skipGroups, hread, bind, Except.bind, hn, hskip left hleft]
        · cases hgroup
      | startGroup =>
        obtain ⟨piece, rfl, hskip⟩ := ih hgroup
        refine ⟨tag ++ piece, (List.append_assoc ..).symm, fun turns hle more => ?_⟩
        obtain ⟨left, rfl, hleft⟩ := hturns hle
        simp [skipGroups, hread, bind, Except.bind, hskip left hleft]
      | varint | fixed64 | bytes | fixed32 | reserved code =>
        obtain ⟨_, hplain, hothers⟩ := bind_ok_iff.mp hgroup
        obtain ⟨value, rfl, hvalue⟩ := skipPlain_takes hplain
        obtain ⟨piece, rfl, hskip⟩ := ih hothers
        refine ⟨tag ++ (value ++ piece), by simp, fun turns hle more => ?_⟩
        obtain ⟨left, rfl, hleft⟩ := hturns hle
        simp only [List.length_append] at hleft
        simp [skipGroups, hread, bind, Except.bind, hvalue, hskip left (by omega)]

theorem skipValue_takes {number : Nat} {form : Form} {data rest : Text}
    (h : skipValue number form data = .ok rest) :
    Takes (skipValue number form) data rest id := by
  cases form with
  | startGroup =>
    obtain ⟨piece, rfl, hskip⟩ := skipGroups_takes h
    refine ⟨piece, rfl, fun more => hskip _ ?_ more⟩
    simp only [List.length_append]
    omega
  | varint | fixed64 | bytes | endGroup | fixed32 | reserved _ =>
    unfold skipValue at h ⊢
    exact skipPlain_takes h

theorem readValue_takes {name : Text} {kind : Kind} {v : Value} {data rest : Text}
    (h : readValue name kind data = .ok (v, rest)) :
    Takes (readValue name kind) data rest (fun more => (v, more)) := by
  cases kind with
  | bool =>
    obtain ⟨⟨n, _⟩, hn, hv⟩ := bind_ok_iff.mp h
    cases hv
    exact ((readVarint_takes (mapError_ok_iff.mp hn)).mapError _).bind (.nothing fun more => rfl)
  | int64 =>
    obtain ⟨⟨n, _⟩, hn, hv⟩ := bind_ok_iff.mp h
    cases hv
    exact ((readVarint_takes (mapError_ok_iff.mp hn)).mapError _).bind (.nothing fun more => rfl)
  | int32 =>
    obtain ⟨⟨n, _⟩, hn, hv⟩ := bind_ok_iff.mp h
    refine ((readVarint_takes (mapError_ok_iff.mp hn)).mapError _).bind ?_
    dsimp only at hv ⊢
    split at hv
    · cases hv
    · rename_i hfits
      cases hv
      exact .nothing fun more => if_neg hfits
  | float32 =>
    obtain ⟨⟨n, _⟩, hn, hv⟩ := bind_ok_iff.mp h
    cases hv
    exact ((readFixed_takes (mapError_ok_iff.mp hn)).mapError _).bind (.nothing fun more => rfl)
  | float64 =>
    obtain ⟨⟨n, _⟩, hn, hv⟩ := bind_ok_iff.mp h
    cases hv
    exact ((readFixed_takes (mapError_ok_iff.mp hn)).mapError _).bind (.nothing fun more => rfl)
  | string =>
    obtain ⟨⟨t, _⟩, ht, hv⟩ := bind_ok_iff.mp h
    cases hv
    exact ((readBytes_takes (mapError_ok_iff.mp ht)).mapError _).bind (.nothing fun more => rfl)
  | unsupported | unknown _ => cases h

theorem readValue_conforms {name : Text} {kind : Kind} {v : Value} {data rest : Text}
    (h : readValue name kind data = .ok (v, rest)) : v.conformsToScalar kind.scalar = true := by
  cases kind with
  | int32 =>
    obtain ⟨⟨n, _⟩, _, hv⟩ := bind_ok_iff.mp h
    dsimp only at hv
    split at hv
    · cases hv
    · cases hv
      have hi : (Int64.ofInt (unzigzag n)).toInt = unzigzag n :=
        Int64.toInt_ofInt_of_le (by omega) (by omega)
      simp only [Kind.scalar, Value.conformsToScalar, Value.fitsInt, hi, Bool.and_eq_true,
        decide_eq_true_eq]
      omega
  | bool | int64 | float32 | float64 | string =>
    obtain ⟨_, _, hv⟩ := bind_ok_iff.mp h
    cases hv
    rfl
  | unsupported | unknown _ => cases h

section Field

variable {fields : List FieldSchema} {number : Nat} {form : Form} {data after rest : Text}

theorem readField_unknown (htag : readTag data = .ok (number, form, after))
    (hfield : fields[number - 1]? = none) (hskip : skipValue number form after = .ok rest) :
    readField fields data = .ok (none, rest) := by
  simp only [readField, htag, mapError_ok, bind, Except.bind, hfield, hskip]
  rfl

theorem readField_known {field : FieldSchema} {v : Value}
    (htag : readTag data = .ok (number, form, after)) (hfield : fields[number - 1]? = some field)
    (hform : field.kind.form? = some form)
    (hvalue : readValue field.name field.kind after = .ok (v, rest)) :
    readField fields data = .ok (some (number - 1, v), rest) := by
  simp only [readField, htag, mapError_ok, bind, Except.bind, hfield, hform, hvalue,
    ne_eq, not_true_eq_false, ↓reduceIte]
  rfl

/-- A field that is read is unknown and skipped, or known and of the form of its kind. -/
theorem readField_cases {found : Option (Nat × Value)}
    (h : readField fields data = .ok (found, rest)) :
    ∃ number form after, readTag data = .ok (number, form, after) ∧
      (fields[number - 1]? = none ∧ found = none ∧ skipValue number form after = .ok rest ∨
        ∃ field v, fields[number - 1]? = some field ∧ field.kind.form? = some form ∧
          found = some (number - 1, v) ∧
          readValue field.name field.kind after = .ok (v, rest)) := by
  obtain ⟨⟨number, form, after⟩, htag, hvalue⟩ := bind_ok_iff.mp h
  refine ⟨number, form, after, mapError_ok_iff.mp htag, ?_⟩
  dsimp only at hvalue
  split at hvalue
  · rename_i hfield
    obtain ⟨_, hskip, hrest⟩ := bind_ok_iff.mp hvalue
    cases hrest
    exact .inl ⟨hfield, rfl, mapError_ok_iff.mp hskip⟩
  · rename_i field hfield
    split at hvalue
    · cases hvalue
    · rename_i expected hexpected
      split at hvalue
      · cases hvalue
      · rename_i hform
        obtain ⟨⟨v, _⟩, hv, hrest⟩ := bind_ok_iff.mp hvalue
        cases hrest
        exact .inr ⟨field, v, hfield, by rw [hexpected, Decidable.not_not.mp hform], rfl, hv⟩

theorem readField_takes {found : Option (Nat × Value)}
    (h : readField fields data = .ok (found, rest)) :
    Takes (readField fields) data rest (fun more => (found, more)) := by
  obtain ⟨number, form, after, htag, hfound⟩ := readField_cases h
  obtain ⟨tag, rfl, hread⟩ := readTag_takes htag
  rcases hfound with ⟨hfield, rfl, hskip⟩ | ⟨field, v, hfield, hform, rfl, hv⟩
  · obtain ⟨value, rfl, hvalue⟩ := skipValue_takes hskip
    refine ⟨tag ++ value, (List.append_assoc ..).symm, fun more => ?_⟩
    rw [List.append_assoc]
    exact readField_unknown (hread _) hfield (hvalue more)
  · obtain ⟨value, rfl, hvalue⟩ := readValue_takes hv
    refine ⟨tag ++ value, (List.append_assoc ..).symm, fun more => ?_⟩
    rw [List.append_assoc]
    exact readField_known (hread _) hfield hform (hvalue more)

end Field

/-- What is found in the data, field after field to its end. -/
inductive Scan (fields : List FieldSchema) : Text → List (Option (Nat × Value)) → Prop where
  | nil : Scan fields [] []
  | cons {data rest : Text} {found : Option (Nat × Value)} {founds : List (Option (Nat × Value))}
      (head : readField fields data = .ok (found, rest)) (tail : Scan fields rest founds) :
      Scan fields data (found :: founds)

/-- The slots after all that was found has been put into them. -/
def gathered (fields : List FieldSchema) (founds : List (Option (Nat × Value))) :
    List (Option Value) :=
  founds.foldl fill (List.replicate fields.length none)

namespace Scan

variable {fields : List FieldSchema} {data early late : Text}
  {founds before after : List (Option (Nat × Value))}

theorem append (h : Scan fields early before) (hlate : Scan fields late after) :
    Scan fields (early ++ late) (before ++ after) := by
  induction h with
  | nil => exact hlate
  | cons head _ ih => exact .cons ((readField_takes head).append late) ih

theorem readField_of_mem (h : Scan fields data founds) {found : Option (Nat × Value)}
    (hfound : found ∈ founds) : ∃ front rest, readField fields front = .ok (found, rest) := by
  induction h with
  | nil => cases hfound
  | cons head _ ih =>
    rcases List.mem_cons.mp hfound with rfl | hlater
    · exact ⟨_, _, head⟩
    · exact ih hlater

theorem conforms (h : Scan fields data founds) {i : Nat} {v : Value} (hv : some (i, v) ∈ founds) :
    ∃ field, fields[i]? = some field ∧ v.conformsToScalar field.kind.scalar = true := by
  obtain ⟨_, _, hread⟩ := h.readField_of_mem hv
  obtain ⟨_, _, _, _, ⟨_, hnone, _⟩ | ⟨field, _, hfield, _, hsome, hvalue⟩⟩ := readField_cases hread
  · cases hnone
  · cases hsome
    exact ⟨field, hfield, readValue_conforms hvalue⟩

/-- With a turn for each byte the loop reaches the end. -/
theorem readFields (h : Scan fields data founds) {fuel : Nat} (hfuel : data.length ≤ fuel)
    (slots : List (Option Value)) :
    readFields fields fuel slots data = .ok (founds.foldl fill slots) := by
  induction h generalizing fuel slots with
  | nil => cases fuel <;> rfl
  | @cons data rest found founds head tail ih =>
    have hshorter := (readField_takes head).shorter rfl
    cases data with
    | nil => simp at hshorter
    | cons b bs =>
      obtain ⟨left, rfl⟩ : ∃ k, fuel = k + 1 := ⟨fuel - 1, by simp at hfuel; omega⟩
      rw [Wire.readFields, head]
      exact ih (by omega) _

end Scan

/-- When the loop ends well, it has found all fields. -/
theorem scan_of_readFields {fields : List FieldSchema} {fuel : Nat}
    {slots filled : List (Option Value)} {data : Text}
    (h : readFields fields fuel slots data = .ok filled) :
    ∃ founds, Scan fields data founds ∧ filled = founds.foldl fill slots := by
  induction fuel generalizing slots data with
  | zero =>
    cases data with
    | nil =>
      cases h
      exact ⟨[], .nil, rfl⟩
    | cons b bs => cases h
  | succ fuel ih =>
    cases data with
    | nil =>
      cases h
      exact ⟨[], .nil, rfl⟩
    | cons b bs =>
      obtain ⟨⟨found, rest⟩, head, hrest⟩ := bind_ok_iff.mp h
      obtain ⟨founds, tail, rfl⟩ := ih hrest
      exact ⟨found :: founds, .cons head tail, rfl⟩

/-- What decoding finds of a value: nothing if it is null. -/
def present (v : Value) : Option Value := if v.isNull then none else some v

/-- The first field that has a null it does not allow. -/
def lacking (fields : List FieldSchema) (values : List Value) : Option FieldSchema :=
  ((fields.zip values).find? fun p => !p.1.nullable && p.2.isNull).map Prod.fst

/-- The values, unless a field lacks one. -/
def delivered (fields : List FieldSchema) (values : List Value) : Except Error (List Value) :=
  match lacking fields values with
  | some field => .error (.missing field.name)
  | none => .ok values

theorem lacking_eq_none {fields : List FieldSchema} {values : List Value} :
    lacking fields values = none ↔
      ∀ p ∈ fields.zip values, p.1.nullable = false → p.2.isNull = false := by
  simp [lacking]

theorem delivered_append {fields added : List FieldSchema} {values more : List Value}
    (hlength : fields.length = values.length) (h : lacking fields values = none) :
    delivered (fields ++ added) (values ++ more) = (delivered added more).map (values ++ ·) := by
  have hnext : lacking (fields ++ added) (values ++ more) = lacking added more := by
    simp only [lacking, Option.map_eq_none_iff] at h ⊢
    rw [List.zip_append hlength, List.find?_append, h, Option.none_or]
  rw [delivered, delivered, hnext]
  cases lacking added more <;> rfl

theorem checkSupported_eq (fields : List FieldSchema) :
    checkSupported fields = match fields.find? (fun f => !f.isSupported) with
      | some field => .error (.unsupported field.name)
      | none => .ok () := by
  induction fields with
  | nil => rfl
  | cons field fields ih =>
    by_cases hk : field.kind = .unsupported
    · simp [checkSupported, Schema.isSupported, hk]
    · rw [checkSupported, if_neg hk, ih, List.find?_cons_of_neg]
      simpa [Schema.isSupported] using hk

theorem checkSupported_ok_iff {fields : List FieldSchema} :
    checkSupported fields = .ok () ↔ ∀ field ∈ fields, field.isSupported = true := by
  rw [checkSupported_eq]
  cases hfind : fields.find? (fun f => !f.isSupported) with
  | some field =>
    have hmem := List.mem_of_find?_eq_some hfind
    have hnot := List.find?_some hfind
    simp only [reduceCtorEq, false_iff]
    intro h
    simp [h field hmem] at hnot
  | none => simpa using hfind

theorem complete_cons {field : FieldSchema} {v : Value}
    (h : field.nullable = false → v.isNull = false) (fields : List FieldSchema)
    (slots : List (Option Value)) :
    complete (field :: fields) (present v :: slots) = (complete fields slots).map (v :: ·) := by
  cases v with
  | null =>
    have hn : field.nullable = true := by simpa [Value.isNull] using h
    simp only [complete, present, Value.isNull, hn, ↓reduceIte]
    cases complete fields slots <;> rfl
  | _ => cases hrest : complete fields slots <;> simp only [complete, hrest] <;> rfl

/-- Missing values are null, and the first field that does not allow it complains. -/
theorem complete_eq {fields : List FieldSchema} {values : List Value}
    (h : values.length = fields.length) :
    complete fields (values.map present) = delivered fields values := by
  induction fields generalizing values with
  | nil =>
    rw [List.eq_nil_of_length_eq_zero h]
    rfl
  | cons field fields ih =>
    cases values with
    | nil => simp at h
    | cons v vs =>
      by_cases hlacks : field.nullable = false ∧ v.isNull = true
      · simp [complete, present, delivered, lacking, hlacks, bind, Except.bind]
      · have hpasses : field.nullable = false → v.isNull = false := by simpa using hlacks
        have hnext : lacking (field :: fields) (v :: vs) = lacking fields vs := by
          rw [lacking, List.zip_cons_cons, List.find?_cons_of_neg (by simpa using hpasses), lacking]
        rw [List.map_cons, complete_cons hpasses, ih (Nat.succ.inj h), delivered, delivered, hnext]
        cases lacking fields vs <;> rfl

@[simp] theorem length_fill (slots : List (Option Value)) (found : Option (Nat × Value)) :
    (fill slots found).length = slots.length := by
  cases found <;> simp [fill]

@[simp] theorem length_foldl_fill (founds : List (Option (Nat × Value)))
    (slots : List (Option Value)) : (founds.foldl fill slots).length = slots.length := by
  induction founds generalizing slots with
  | nil => rfl
  | cons found founds ih => rw [List.foldl_cons, ih, length_fill]

theorem getElem?_foldl_fill {founds : List (Option (Nat × Value))} {slots : List (Option Value)}
    {i : Nat} {v : Value} (h : (founds.foldl fill slots)[i]? = some (some v)) :
    slots[i]? = some (some v) ∨ some (i, v) ∈ founds := by
  induction founds generalizing slots with
  | nil => exact .inl h
  | cons found founds ih =>
    rcases ih h with hslot | hlater
    · cases found with
      | none => exact .inl hslot
      | some p =>
        obtain ⟨j, w⟩ := p
        rw [fill, List.getElem?_set] at hslot
        split at hslot
        · rename_i hj
          split at hslot
          · cases hslot
            exact .inr (hj ▸ List.mem_cons_self)
          · cases hslot
        · exact .inl hslot
    · exact .inr (List.mem_cons_of_mem _ hlater)

theorem mem_of_gathered {fields : List FieldSchema} {founds : List (Option (Nat × Value))} {i : Nat}
    {v : Value} (h : (gathered fields founds)[i]? = some (some v)) : some (i, v) ∈ founds := by
  rcases getElem?_foldl_fill h with hslot | hfound
  · exact absurd (List.eq_of_mem_replicate (List.mem_of_getElem? hslot)) (by simp)
  · exact hfound

namespace Scan

variable {fields : List FieldSchema} {data : Text} {founds : List (Option (Nat × Value))}

theorem gathered_present (h : Scan fields data founds) :
    ∃ values : List Value, values.length = fields.length ∧
      gathered fields founds = values.map present := by
  refine ⟨(gathered fields founds).map fun slot => slot.getD .null, by simp [gathered], ?_⟩
  have hslots : ∀ slot ∈ gathered fields founds, present (slot.getD .null) = slot := by
    intro slot hslot
    cases slot with
    | none => rfl
    | some v =>
      obtain ⟨i, hi⟩ := List.mem_iff_getElem?.mp hslot
      obtain ⟨_, _, hv⟩ := h.conforms (mem_of_gathered hi)
      simp [present, Value.isNull_of_conformsToScalar hv]
  rw [List.map_map]
  exact ((List.map_congr_left hslots).trans (List.map_id' _)).symm

theorem decode (h : Scan fields data founds) (hsupported : checkSupported fields = .ok ())
    {values : List Value} (hvalues : gathered fields founds = values.map present) :
    decode fields data = delivered fields values := by
  have hlength : values.length = fields.length := by
    simpa [gathered] using (congrArg List.length hvalues).symm
  rw [Wire.decode, hsupported, h.readFields (Nat.le_refl _), ← complete_eq hlength, ← hvalues]
  rfl

end Scan

theorem scan_of_decode {fields : List FieldSchema} {data : Text} {values : List Value}
    (h : decode fields data = .ok values) :
    checkSupported fields = .ok () ∧ ∃ founds, Scan fields data founds ∧
      gathered fields founds = values.map present := by
  obtain ⟨_, hsupported, hslots⟩ := bind_ok_iff.mp h
  obtain ⟨slots, hread, hcomplete⟩ := bind_ok_iff.mp hslots
  obtain ⟨founds, hscan, rfl⟩ := scan_of_readFields hread
  obtain ⟨found, hlength, hfound⟩ := hscan.gathered_present
  change complete fields (gathered fields founds) = .ok values at hcomplete
  rw [hfound, complete_eq hlength, delivered] at hcomplete
  split at hcomplete
  · cases hcomplete
  · cases hcomplete
    exact ⟨hsupported, founds, hscan, hfound⟩

theorem length_of_decode {fields : List FieldSchema} {data : Text} {values : List Value}
    (h : decode fields data = .ok values) : values.length = fields.length := by
  obtain ⟨_, founds, _, hgathered⟩ := scan_of_decode h
  simpa [gathered] using (congrArg List.length hgathered).symm

end TypedStream.Wire
