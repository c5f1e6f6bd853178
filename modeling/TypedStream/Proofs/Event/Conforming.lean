import TypedStream.Proofs.Event

namespace TypedStream

theorem Value.conformsFields_iff {vs : List Value} {fs : List (Text × DataType)} :
    Value.conformsFields vs fs = true ↔
      List.Forall₂ (fun t v => v.conforms t = true) (fs.map Prod.snd) vs := by
  induction fs generalizing vs with
  | nil => cases vs <;> simp [Value.conformsFields]
  | cons f fs ih => cases vs <;> simp [Value.conformsFields, ih]

namespace Event

open DataType Value

variable {fs : List (Text × DataType)} {entries : List (Text × Json)} {j : Json} {v : Value}

theorem scalar?_conforms {s : Scalar} (h : scalar? s j = some v) : v.conformsToScalar s = true := by
  cases s with
  | boolean =>
    cases j with
    | true | false =>
      cases h
      rfl
    | _ => cases h
  | int =>
    cases j with
    | number token =>
      obtain ⟨i, _, hrange⟩ := Option.bind_eq_some_iff.mp h
      split at hrange
      · rename_i hfits
        cases hrange
        have htoInt : (Int64.ofInt i).toInt = i := by
          apply Int64.toInt_ofInt_of_le <;> omega
        simp [conformsToScalar, fitsInt, htoInt, hfits]
      · cases hrange
    | _ => cases h
  | bigint =>
    cases j with
    | number token =>
      obtain ⟨i, _, rfl⟩ := Option.map_eq_some_iff.mp h
      rfl
    | _ => cases h
  | float | double =>
    cases j with
    | number token =>
      cases h
      rfl
    | _ => cases h
  | string =>
    cases j with
    | string raw =>
      cases h
      rfl
    | _ => cases h
  | timestamp | timespan =>
    cases j with
    | string raw =>
      obtain ⟨t, _, rfl⟩ := Option.map_eq_some_iff.mp h
      rfl
    | _ => cases h

/-- By induction on the type: a record is made of values that conform to its fields. -/
theorem value?_conforms {t : DataType} {found : Option Json} (h : value? t found = some v) :
    v.conforms t = true := by
  induction t using componentInduction generalizing found v with
  | step t ih =>
    rcases value?_cases h with ⟨_, hn, rfl⟩ | ⟨s, j, _, _, ht, hs⟩ | hrecord
    · rw [conforms_null]
      exact hn
    · have hc := scalar?_conforms hs
      rcases ht with rfl | rfl <;> simp [conforms, hc]
    · obtain ⟨fs, entries, vs, rfl, _, rfl, hvs⟩ := hrecord
      rw [conforms, conformsFields_iff, ← slotsFrom_types fs ⟨entries, false⟩,
        List.forall₂_map_left_iff]
      have htypes : ∀ s ∈ slots fs entries, some s.type ∈ (record fs).components := by
        intro s hs
        have hmem : s.type ∈ (slots fs entries).map Slot.type := List.mem_map_of_mem hs
        rw [slots, slotsFrom_types] at hmem
        obtain ⟨f, hf, hft⟩ := List.mem_map.mp hmem
        rw [← hft]
        exact mem_components_of_field hf
      apply ((List.forall₂_and_left _ _).mpr ⟨htypes, hvs⟩).imp
      intro s w hs
      exact ih s.type hs.1 hs.2

theorem scalar?_ne_null {s : Scalar} (h : scalar? s j = some v) : v ≠ .null := by
  intro hv
  subst hv
  have hc := scalar?_conforms h
  cases s <;> cases hc

theorem Slot.Holds.null_iff {s : Slot} (h : s.Holds v) (hs : s.Sound) : v = .null ↔ s.Empty := by
  rw [hs.empty_iff]
  rcases value?_cases h with ⟨he, _, rfl⟩ | ⟨_, j, hf, hj, _, hv⟩ | ⟨_, _, _, _, hf, rfl, _⟩
  · simp [he]
  · simp [hf, hj, scalar?_ne_null hv]
  · simp [hf]

theorem Slot.Holds.isNullable_of_empty {s : Slot} (h : s.Holds v) (hs : s.Sound) (he : s.Empty) :
    s.type.isNullable = true := by
  have hc := value?_conforms h
  rwa [(h.null_iff hs).mpr he, conforms_null] at hc

theorem Slot.Sound.holds_null {s : Slot} (hs : s.Sound) (he : s.Empty)
    (hn : s.type.isNullable = true) : s.Holds .null := by
  rcases hs.empty_iff.mp he with hf | hf
  · rw [Slot.Holds, hf, value?, if_pos hn]
  · rw [Slot.Holds, hf, value?, if_pos hn]

theorem exists_values {ss : List Slot} (h : ∀ s ∈ ss, ∃ v, s.Holds v) :
    ∃ vs, List.Forall₂ Slot.Holds ss vs := by
  induction ss with
  | nil => exact ⟨[], .nil⟩
  | cons s ss ih =>
    obtain ⟨⟨v, hv⟩, hss⟩ := List.forall_mem_cons.mp h
    obtain ⟨vs, hvs⟩ := ih hss
    exact ⟨v :: vs, .cons hv hvs⟩

theorem decode_ok_iff_holds {data : Text} (hparse : Json.parse? data = some (.object entries)) :
    (∃ vs, decode (.record fs) data = .ok vs) ↔
      ∀ path slot, field? fs entries path = some slot → ∃ w, slot.Holds w := by
  constructor
  · intro h path slot hslot
    obtain ⟨vs, hvs⟩ := h
    obtain ⟨w, _, hw⟩ := decode_holds hvs hparse hslot
    exact ⟨w, hw⟩
  · intro h
    have htop : ∀ s ∈ slots fs entries, ∃ w, s.Holds w := by
      intro s hs
      obtain ⟨i, hi⟩ := List.mem_iff_getElem?.mp hs
      exact h [i] s (by rw [field?, hi]; rfl)
    obtain ⟨vs, hvs⟩ := exists_values htop
    exact ⟨vs, decode_ok_iff.mpr ⟨entries, hparse, decodeFields_ok_iff.mpr hvs⟩⟩

/-- A decoded event has one value for each field, and the record of them conforms. An object is
decoded just if every field has a value, at any depth. A field without a member of its name, or with
one that is null, has the value null if it is nullable; otherwise the event is not decoded. No other
field is null. -/
theorem decode_conforms (fs : List (Text × DataType)) (data : Text) :
    (∀ vs, decode (.record fs) data = .ok vs →
      vs.length = fs.length ∧ (Value.record vs).conforms (.record fs) = true) ∧
    ∀ entries, Json.parse? data = some (.object entries) →
      ((∃ vs, decode (.record fs) data = .ok vs) ↔
        ∀ path slot, field? fs entries path = some slot → ∃ w, slot.Holds w) ∧
      ∀ path slot, field? fs entries path = some slot → slot.Sound ∧
        (∀ vs, decode (.record fs) data = .ok vs →
          ∃ w, (Value.record vs).at? path = some w ∧ slot.Holds w ∧ (w = .null ↔ slot.Empty)) ∧
        (slot.Empty → slot.type.isNullable = true → slot.Holds .null) ∧
        (slot.Empty → slot.type.isNullable = false →
          ∃ e, decode (.record fs) data = .error e) := by
  constructor
  · intro vs h
    obtain ⟨entries, _, hvs⟩ := decode_ok_iff.mp h
    have hrecord : value? (.record fs) (some (.object entries)) = some (.record vs) :=
      value?_object_iff.mpr ⟨vs, rfl, decodeFields_ok_iff.mp hvs⟩
    have hconforms := value?_conforms hrecord
    have hfields : conformsFields vs fs = true := by simpa [conforms] using hconforms
    have hlength := (conformsFields_iff.mp hfields).length_eq
    rw [List.length_map] at hlength
    exact ⟨hlength.symm, hconforms⟩
  · intro entries hparse
    refine ⟨decode_ok_iff_holds hparse, fun path slot hslot => ?_⟩
    have hsound := field?_sound hslot
    refine ⟨hsound, ?_, hsound.holds_null, ?_⟩
    · intro vs h
      obtain ⟨w, hw, hv⟩ := decode_holds h hparse hslot
      exact ⟨w, hw, hv, hv.null_iff hsound⟩
    · intro hempty hn
      cases hd : decode (.record fs) data with
      | error e => exact ⟨e, rfl⟩
      | ok vs =>
        obtain ⟨w, _, hv⟩ := decode_holds hd hparse hslot
        rw [hv.isNullable_of_empty hsound hempty] at hn
        cases hn

/-- One record further in: a nullable field without a member is null, and so is one with a member
that is null; such a member for a field that is not nullable leaves the event without values. -/
theorem decode_conforms_nested :
    let fs : List (Text × DataType) :=
      [(utf8 "a", .record [(utf8 "x", .nullable .int), (utf8 "y", .scalar .int)])]
    (∃ vs, decode (.record fs) (utf8 "\x7b\"a\":\x7b\"y\":7\x7d\x7d") = .ok vs ∧
      (Value.record vs).at? [0, 0] = some .null) ∧
    (∃ slot, field? fs [(utf8 "a", .object [(utf8 "x", .null), (utf8 "y", .number (utf8 "7"))])]
        [0, 0] = some slot ∧ slot.found = some .null ∧ slot.Holds .null) ∧
    ∃ e, decode (.record fs) (utf8 "\x7b\"a\":\x7b\"y\":null\x7d\x7d") = .error e := by
  intro fs
  refine ⟨?_, ?_, ?_⟩
  · have hparse : Json.parse? (utf8 "\x7b\"a\":\x7b\"y\":7\x7d\x7d") =
        some (.object [(utf8 "a", .object [(utf8 "y", .number (utf8 "7"))])]) := by
      with_unfolding_all rfl
    have hslot : field? fs [(utf8 "a", .object [(utf8 "y", .number (utf8 "7"))])] [0, 0] =
        some ⟨[(utf8 "y", .number (utf8 "7"))], utf8 "x", .nullable .int, none⟩ := by
      with_unfolding_all rfl
    have hdecode : decode (.record fs) (utf8 "\x7b\"a\":\x7b\"y\":7\x7d\x7d") =
        .ok [.record [.null, .int 7]] := by
      with_unfolding_all rfl
    obtain ⟨hsound, hvalue, _⟩ := ((decode_conforms fs _).2 _ hparse).2 _ _ hslot
    obtain ⟨w, hw, _, hnull⟩ := hvalue _ hdecode
    rw [hnull.mpr (hsound.empty_iff.mpr (.inl rfl))] at hw
    exact ⟨_, hdecode, hw⟩
  · have hparse : Json.parse? (utf8 "\x7b\"a\":\x7b\"x\":null,\"y\":7\x7d\x7d") =
        some (.object
          [(utf8 "a", .object [(utf8 "x", .null), (utf8 "y", .number (utf8 "7"))])]) := by
      with_unfolding_all rfl
    have hslot : field? fs
        [(utf8 "a", .object [(utf8 "x", .null), (utf8 "y", .number (utf8 "7"))])] [0, 0] =
          some ⟨[(utf8 "x", .null), (utf8 "y", .number (utf8 "7"))], utf8 "x", .nullable .int,
            some .null⟩ := by
      with_unfolding_all rfl
    obtain ⟨_, _, hnull, _⟩ := ((decode_conforms fs _).2 _ hparse).2 _ _ hslot
    exact ⟨_, hslot, rfl, hnull (.inr rfl) rfl⟩
  · have hparse : Json.parse? (utf8 "\x7b\"a\":\x7b\"y\":null\x7d\x7d") =
        some (.object [(utf8 "a", .object [(utf8 "y", .null)])]) := by
      with_unfolding_all rfl
    have hslot : field? fs [(utf8 "a", .object [(utf8 "y", .null)])] [0, 1] =
        some ⟨[(utf8 "y", .null)], utf8 "y", .scalar .int, some .null⟩ := by
      with_unfolding_all rfl
    obtain ⟨_, _, _, hfails⟩ := ((decode_conforms fs _).2 _ hparse).2 _ _ hslot
    exact hfails (.inr rfl) rfl

end Event

end TypedStream
