import TypedStream.Proofs.Conversion
import TypedStream.Proofs.Promotion.Order

namespace TypedStream

namespace DataType

theorem promotesTo_nonNullable {s t : DataType} {a b : Scalar} (h : s.promotesTo t = true)
    (hs : s.nonNullable = some (scalar a)) (ht : t.nonNullable = some (scalar b)) :
    a.promotesTo b = true := by
  rcases nonNullable_scalar_iff.mp hs with rfl | rfl <;>
    rcases nonNullable_scalar_iff.mp ht with rfl | rfl
  · exact h
  · exact h
  · cases h
  · exact h

theorem exists_scalar_of_promotesTo {s t : DataType} (h : s.promotesTo t = true) (hne : s ≠ t) :
    ∃ b, t.nonNullable = some (scalar b) := by
  by_contra hnone
  exact hne (eq_of_promotesTo h (not_exists.mp hnone))

end DataType

namespace Value

/-- A value that is malformed, or a record with a malformed value inside. -/
inductive Malformed : Value → Prop where
  | misnamed (m : Misnomer) : Malformed (malformed m)
  | field {v : Value} {vs : List Value} (hmem : v ∈ vs) (h : Malformed v) : Malformed (record vs)

mutual

theorem display?_eq_none_iff (v : Value) : v.display? = none ↔ v.Malformed := by
  cases v with
  | record vs =>
    rw [display?, Option.map_eq_none_iff, displayAll?_eq_none_iff vs]
    constructor
    · rintro ⟨v, hmem, hv⟩
      exact .field hmem hv
    · intro h
      cases h with
      | field hmem hv => exact ⟨_, hmem, hv⟩
  | malformed m => simp [display?, Malformed.misnamed m]
  | _ =>
    simp only [display?, reduceCtorEq, false_iff]
    intro h
    cases h
termination_by structural v

theorem displayAll?_eq_none_iff (vs : List Value) :
    displayAll? vs = none ↔ ∃ v ∈ vs, v.Malformed := by
  cases vs with
  | nil => simp [displayAll?]
  | cons v vs =>
    rw [List.exists_mem_cons_iff, ← display?_eq_none_iff v, ← displayAll?_eq_none_iff vs]
    cases hv : v.display? <;> cases hvs : displayAll? vs <;> simp [displayAll?, hv, hvs]
termination_by structural vs

end

theorem toText?_eq_none_iff (v : Value) : v.toText? = none ↔ v.Malformed := by
  rw [← display?_eq_none_iff]
  cases v <;> simp [toText?, display?]

theorem convert_malformed {v : Value} (h : v.Malformed) :
    v.convert .string = .error (.defect .malformedValue) := by
  simp [convert, (toText?_eq_none_iff v).mpr h]

theorem convert_ok_iff {v : Value} {b : Scalar} :
    (∃ w, v.convert b = .ok w) ↔ ¬(v.Malformed ∧ b = .string) := by
  cases b with
  | string =>
    rw [← toText?_eq_none_iff]
    cases h : v.toText? <;> simp [convert, h]
  | float => cases v <;> simp [convert]
  | double => cases v <;> simp [convert]
  | _ => simp [convert]

theorem isNull_of_convert {v w : Value} {b : Scalar} (h : v.convert b = .ok w)
    (hn : v.isNull = false) : w.isNull = false := by
  cases b with
  | string =>
    cases ht : v.toText? <;> simp only [convert, ht] at h <;> cases h
    rfl
  | bigint =>
    cases h
    rfl
  | float => cases v <;> cases h <;> rfl
  | double => cases v <;> cases h <;> rfl
  | _ =>
    cases h
    exact hn

theorem promote_refused {s t : DataType} (v : Value) (h : s.promotesTo t = false) :
    v.promote (some s) (some t) = .error (.type (.noPromotion (some s) (some t))) := by
  simp only [promote, DataType.promotes, h]
  rfl

/-- A promotion of types is one of all values, but that a malformed value has no text. -/
theorem promote_ok_iff {v : Value} {s t : DataType} :
    (∃ w, v.promote (some s) (some t) = .ok w) ↔
      s.promotesTo t = true ∧
        ¬(v.Malformed ∧ s ≠ t ∧ t.nonNullable = some (.scalar .string)) := by
  cases h : s.promotesTo t with
  | false => simp [promote_refused v h]
  | true =>
    by_cases hne : s = t
    · subst t
      simp [promote_self]
    cases hn : v.isNull with
    | true =>
      cases eq_null_of_isNull hn
      have hnull : ¬null.Malformed := by
        intro h
        cases h
      simp [promote_null h, hnull]
    | false =>
      obtain ⟨b, hb⟩ := DataType.exists_scalar_of_promotesTo h hne
      rw [promote_convert h hne hn hb, convert_ok_iff]
      simp [hb, hne]

theorem isNull_of_promote {v w : Value} {s t : DataType}
    (h : v.promote (some s) (some t) = .ok w) : w.isNull = v.isNull := by
  have hst := (promote_ok_iff.mp ⟨w, h⟩).1
  by_cases hne : s = t
  · subst t
    rw [promote_self] at h
    rw [Except.ok.inj h]
  cases hn : v.isNull with
  | true =>
    cases eq_null_of_isNull hn
    rw [promote_null hst] at h
    rw [← Except.ok.inj h, hn]
  | false =>
    obtain ⟨b, hb⟩ := DataType.exists_scalar_of_promotesTo hst hne
    rw [promote_convert hst hne hn hb] at h
    exact isNull_of_convert h hn

theorem conformsToScalar_of_conforms {v : Value} {t : DataType} {a : Scalar}
    (hv : v.conforms t = true) (hn : v.isNull = false)
    (ht : t.nonNullable = some (.scalar a)) : v.conformsToScalar a = true := by
  rcases DataType.nonNullable_scalar_iff.mp ht with rfl | rfl
  · simpa only [conforms] using hv
  · rwa [conforms_nullable hn] at hv

theorem convert_bigint {v : Value} {a : Scalar} (hv : v.conformsToScalar a = true)
    (ha : a.promotesTo .bigint = true) :
    ∃ i, (v = int i ∨ v = bigint i) ∧ v.convert .bigint = .ok (bigint i) := by
  cases v with
  | int i => exact ⟨i, .inl rfl, rfl⟩
  | bigint i => exact ⟨i, .inr rfl, rfl⟩
  | null => simp [conformsToScalar, kind] at hv
  | record vs => simp [conformsToScalar, kind] at hv
  | malformed m => cases m <;> simp [conformsToScalar, kind] at hv
  | _ =>
    simp only [conformsToScalar, kind, beq_iff_eq, Kind.scalar.injEq] at hv
    subst hv
    cases ha

theorem promote_bigint {v : Value} {s t : DataType} {a : Scalar} (hv : v.conforms s = true)
    (hn : v.isNull = false) (hst : s.promotesTo t = true) (hs : s.nonNullable = some (.scalar a))
    (ht : t.nonNullable = some (.scalar .bigint)) :
    ∃ i, (v = int i ∨ v = bigint i) ∧ v.promote (some s) (some t) = .ok (bigint i) := by
  have hscalar := conformsToScalar_of_conforms hv hn hs
  have hconvert : v.promote (some s) (some t) = v.convert .bigint := by
    by_cases hne : s = t
    · subst t
      cases hs.symm.trans ht
      have hr := rounded_of_conformsToScalar hscalar (by decide)
      rw [promote_self, convert_self hscalar, rounded_eq_iff.mpr hr]
    · exact promote_convert hst hne hn ht
  rw [hconvert]
  exact convert_bigint hscalar (DataType.promotesTo_nonNullable hst hs ht)

/-- A value is converted just where the types promote, and else refused with a type error; only a
malformed value, where its text is wanted, is a defect. A value of the source type becomes one of the
target type, stays null or not, and as a BIGINT is the same integer. -/
theorem promote_realizes_promotesTo (v : Value) (s t : DataType) :
    ((∃ w, v.promote (some s) (some t) = .ok w) ↔
      s.promotesTo t = true ∧
        ¬(v.Malformed ∧ s ≠ t ∧ t.nonNullable = some (.scalar .string))) ∧
    (s.promotesTo t = false →
      v.promote (some s) (some t) = .error (.type (.noPromotion (some s) (some t)))) ∧
    (s.promotesTo t = true → v.Malformed → s ≠ t → t.nonNullable = some (.scalar .string) →
      v.promote (some s) (some t) = .error (.defect .malformedValue)) ∧
    (v.conforms s = true → s.promotesTo t = true →
      ∃ w, v.promote (some s) (some t) = .ok w ∧ w.conforms t = true ∧ w.isNull = v.isNull ∧
        ((s.nonNullable = some (.scalar .int) ∨ s.nonNullable = some (.scalar .bigint)) →
          t.nonNullable = some (.scalar .bigint) → v.isNull = false →
            ∃ i, (v = int i ∨ v = bigint i) ∧ w = bigint i)) := by
  refine ⟨promote_ok_iff, promote_refused v, ?_, ?_⟩
  · intro hst hv hne ht
    have hn : v.isNull = false := by cases hv <;> rfl
    rw [promote_convert hst hne hn ht, convert_malformed hv]
  · intro hv hst
    obtain ⟨w, hw, hc⟩ := promote_conforms hv hst
    refine ⟨w, hw, hc, isNull_of_promote hw, ?_⟩
    intro hs ht hn
    obtain ⟨a, ha⟩ : ∃ a, s.nonNullable = some (.scalar a) := by
      rcases hs with hs | hs <;> exact ⟨_, hs⟩
    obtain ⟨i, hi, hp⟩ := promote_bigint hv hn hst ha ht
    exact ⟨i, hi, Except.ok.inj (hw.symm.trans hp)⟩

theorem promote_realizes_promotesTo_negative :
    (int (-7)).conforms (.nullable .int) = true ∧
    (DataType.nullable .int).promotesTo (.nullable .bigint) = true ∧
    (int (-7)).promote (some (.nullable .int)) (some (.nullable .bigint)) = .ok (bigint (-7)) ∧
    (int (-7)).promote (some (.nullable .int)) (some (.scalar .bigint)) =
      .error (.type (.noPromotion (some (.nullable .int)) (some (.scalar .bigint)))) := by
  obtain ⟨_, _, _, hconforms⟩ :=
    promote_realizes_promotesTo (int (-7)) (.nullable .int) (.nullable .bigint)
  obtain ⟨w, hw, _, _, hinteger⟩ := hconforms rfl rfl
  obtain ⟨i, hi, rfl⟩ := hinteger (.inl rfl) rfl rfl
  refine ⟨rfl, rfl, ?_, (promote_realizes_promotesTo _ _ _).2.1 rfl⟩
  rcases hi with hi | hi
  · cases hi
    exact hw
  · cases hi

/-- INT promotes to STRING, yet a value that is named for a function type has no text. -/
theorem misnamed_not_promoted :
    (DataType.scalar .int).promotesTo (.scalar .string) = true ∧
      ¬∃ w, (malformed .function).promote (some (.scalar .int)) (some (.scalar .string)) = .ok w := by
  refine ⟨rfl, ?_⟩
  rw [promote_ok_iff]
  intro h
  exact h.2 ⟨.misnamed _, by simp, rfl⟩

/-- A BIGINT loses nothing of an INT, and a step that stays in its scalar type does nothing. -/
theorem convert_in_steps {v : Value} {a b c : Scalar} (hv : v.conformsToScalar a = true)
    (hr : v.Rounded) (hab : a.promotesTo b = true) (hbc : b.promotesTo c = true)
    (h : b = .bigint ∨ b = a ∨ b = c) : (v.convert b >>= fun w => w.convert c) = v.convert c := by
  rcases h with rfl | rfl | rfl
  · obtain ⟨i, hi, hconvert⟩ := convert_bigint hv hab
    rw [hconvert]
    change (bigint i).convert c = v.convert c
    rcases hi with rfl | rfl
    · cases c <;> first | rfl | cases hbc
    · rfl
  · rw [convert_self hv, rounded_eq_iff.mpr hr]
    rfl
  · obtain ⟨w, hw, hc⟩ := convert_conforms hv hab
    rw [hw]
    change w.convert b = .ok w
    rw [convert_self hc, rounded_eq_iff.mpr (rounded_of_convert hr hw)]

/-- Promotion through a type is promotion past it, if that holds of the scalars inside. -/
theorem promote_promote {v : Value} {a b c : DataType} (hv : v.conforms a = true)
    (hr : v.Rounded) (hab : a.promotesTo b = true) (hbc : b.promotesTo c = true)
    (h : a ≠ b → v.isNull = false → ∀ x y z, a.nonNullable = some (.scalar x) →
      b.nonNullable = some (.scalar y) → c.nonNullable = some (.scalar z) →
        y = .bigint ∨ y = x ∨ y = z) :
    (v.promote (some a) (some b) >>= fun w => w.promote (some b) (some c)) =
      v.promote (some a) (some c) := by
  have hac := DataType.promotesTo_trans hab hbc
  by_cases hne : a = b
  · subst b
    rw [promote_self]
    rfl
  by_cases hne' : b = c
  · subst c
    simp only [promote_self]
    exact bind_pure _
  cases hn : v.isNull with
  | true =>
    cases eq_null_of_isNull hn
    rw [promote_null hab, promote_null hac]
    exact promote_null hbc
  | false =>
    obtain ⟨x, y, hx, hy, hscalar, hxy⟩ := conformsToScalar_of_promotesTo hv hn hab hne
    obtain ⟨z, hz⟩ := DataType.exists_scalar_of_promotesTo hbc hne'
    have hyz := DataType.promotesTo_nonNullable hbc hy hz
    have hac' : a ≠ c := by
      rintro rfl
      exact hne (DataType.promotesTo_antisymm hab hbc)
    obtain ⟨w, hw, _⟩ := convert_conforms hscalar hxy
    have hsteps := convert_in_steps hscalar hr hxy hyz (h hne hn x y z hx hy hz)
    rw [hw] at hsteps
    rw [promote_convert hab hne hn hy, promote_convert hac hac' hn hz, hw, ← hsteps]
    exact promote_convert hbc hne' (isNull_of_convert hw hn) hz

/-- Two promotions in a row give what one gives, if the type between them is that of a BIGINT or
holds the same scalar as one of its neighbours, null or not. A FLOAT has to hold a number of single
precision: the step to its nullable type rounds. -/
theorem promote_in_steps {v : Value} {a b c : DataType} (hv : v.conforms a = true)
    (hr : v.Rounded) (hab : a.promotesTo b = true) (hbc : b.promotesTo c = true)
    (h : b.nonNullable = some (.scalar .bigint) ∨
      DataType.equalMissing b.nonNullable a.nonNullable = true ∨
      DataType.equalMissing b.nonNullable c.nonNullable = true ∨
      (a.isPrimitive = false ∧ a.equals b = true ∧ b.equals c = true) ∨ a = .nullableAny) :
    ∃ w x, v.promote (some a) (some b) = .ok w ∧ w.promote (some b) (some c) = .ok x ∧
      v.promote (some a) (some c) = .ok x := by
  obtain ⟨w, hw, hwb⟩ := promote_conforms hv hab
  obtain ⟨x, hx, _⟩ := promote_conforms hwb hbc
  refine ⟨w, x, hw, hx, ?_⟩
  rw [← promote_promote hv hr hab hbc, hw]
  · exact hx
  intro hne hn p q r hp hq hr
  simp only [DataType.equalMissing_iff, DataType.equals_iff] at h
  rcases h with h | h | h | ⟨_, h, _⟩ | rfl
  · simp_all
  · simp_all
  · simp_all
  · exact absurd h hne
  · simp [conforms, hn] at hv

theorem promote_in_steps_rounded :
    (int 16777217).conforms (.scalar .int) = true ∧ (int 16777217).Rounded ∧
    (DataType.scalar .int).promotesTo (.nullable .bigint) = true ∧
    (DataType.nullable .bigint).promotesTo (.nullable .float) = true ∧
    ∃ w x, (int 16777217).promote (some (.scalar .int)) (some (.nullable .bigint)) = .ok w ∧
      w.promote (some (.nullable .bigint)) (some (.nullable .float)) = .ok x ∧
      (int 16777217).promote (some (.scalar .int)) (some (.nullable .float)) = .ok x :=
  ⟨rfl, trivial, rfl, rfl, promote_in_steps rfl trivial rfl rfl (.inl rfl)⟩

-- A FLOAT on the way to a DOUBLE does lose something.
example : (Single.ofInt 16777217).widen ≠ Double.ofInt 16777217 := by decide +kernel

end Value

end TypedStream
