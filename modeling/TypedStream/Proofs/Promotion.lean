import TypedStream.DataType.Promotion
import TypedStream.Proofs.Precision
import TypedStream.Value.Promote

namespace TypedStream

namespace DataType

mutual

theorem equals_iff (s t : DataType) : s.equals t = true ↔ s = t := by
  cases s with
  | scalar a => cases t <;> simp [equals]
  | nullable a => cases t <;> simp [equals]
  | nullableAny => cases t <;> simp [equals]
  | record fs =>
    cases t with
    | record gs => simp only [equals, equalFields_iff fs gs, record.injEq]
    | _ => simp [equals]
  | function r ps =>
    cases t with
    | function q qs =>
      simp only [equals, Bool.and_eq_true, equalMissing_iff r q, equalAll_iff ps qs,
        function.injEq]
    | _ => simp [equals]
termination_by structural s

theorem equalFields_iff (fs gs : List (Text × DataType)) :
    equalFields fs gs = true ↔ fs = gs := by
  cases fs with
  | nil => cases gs <;> simp [equalFields]
  | cons f fs =>
    obtain ⟨m, s⟩ := f
    cases gs with
    | nil => simp [equalFields]
    | cons g gs =>
      obtain ⟨n, t⟩ := g
      simp only [equalFields, Bool.and_eq_true, beq_iff_eq, equals_iff s t,
        equalFields_iff fs gs, List.cons.injEq, Prod.mk.injEq]
termination_by structural fs

theorem equalMissing_iff (s t : Option DataType) : equalMissing s t = true ↔ s = t := by
  cases s with
  | none => cases t <;> simp [equalMissing]
  | some s =>
    cases t with
    | none => simp [equalMissing]
    | some t => simp only [equalMissing, equals_iff s t, Option.some.injEq]
termination_by structural s

theorem equalAll_iff (ss ts : List (Option DataType)) : equalAll ss ts = true ↔ ss = ts := by
  cases ss with
  | nil => cases ts <;> simp [equalAll]
  | cons s ss =>
    cases ts with
    | nil => simp [equalAll]
    | cons t ts =>
      simp only [equalAll, Bool.and_eq_true, equalMissing_iff s t, equalAll_iff ss ts,
        List.cons.injEq]
termination_by structural ss

end

theorem promotesTo_refl (t : DataType) : t.promotesTo t = true := by
  cases t with
  | scalar s => cases s <;> rfl
  | nullable s => cases s <;> rfl
  | nullableAny => rfl
  | record fs => exact (equals_iff _ _).mpr rfl
  | function r ps => exact (equals_iff _ _).mpr rfl

theorem isPrimitive_of_promotesTo {s t : DataType} (h : s.promotesTo t = true)
    (ht : t.isPrimitive = true) : s.isPrimitive = true := by
  cases s with
  | record fs =>
    cases (equals_iff _ _).mp h
    exact ht
  | function r ps =>
    cases (equals_iff _ _).mp h
    exact ht
  | _ => rfl

theorem nonNullable_scalar_iff {t : DataType} {s : Scalar} :
    t.nonNullable = some (scalar s) ↔ t = scalar s ∨ t = nullable s := by
  cases t <;> simp [nonNullable]

theorem eq_of_promotesTo {s t : DataType} (h : s.promotesTo t = true)
    (ht : ∀ b, t.nonNullable ≠ some (scalar b)) : s = t := by
  cases s with
  | record fs => exact (equals_iff _ _).mp h
  | function r ps => exact (equals_iff _ _).mp h
  | _ => cases t <;> simp_all [promotesTo, nonNullable]

theorem isNullable_of_promotesTo {s t : DataType} (h : s.promotesTo t = true)
    (hs : s.isNullable = true) : t.isNullable = true := by
  cases s with
  | nullable a => cases t <;> simp_all [promotesTo, isNullable]
  | nullableAny => cases t <;> simp_all [promotesTo, isNullable]
  | _ => simp [isNullable] at hs

theorem isNullable_of_asNullable {s t : DataType} (h : s.asNullable = some t) :
    t.isNullable = true := by
  cases s <;> cases h <;> rfl

theorem isPrimitive_of_asNullable {s t : DataType} (h : s.asNullable = some t) :
    s.isPrimitive = true := by
  cases s with
  | record fs => cases h
  | function r ps => cases h
  | _ => rfl

end DataType

theorem Scalar.eq_of_promotesTo {s t : Scalar} (h : s.promotesTo t = true)
    (ht : t = .boolean ∨ t = .int ∨ t = .timestamp ∨ t = .timespan) : s = t := by
  rcases ht with rfl | rfl | rfl | rfl <;> cases s <;> first | rfl | exact absurd h (by decide)

namespace Value

theorem conforms_null {t : DataType} : null.conforms t = t.isNullable := by
  cases t with
  | scalar s => cases s <;> rfl
  | _ => simp [conforms, isNull, DataType.isNullable]

theorem eq_null_of_isNull {v : Value} (h : v.isNull = true) : v = null := by
  cases v with
  | null => rfl
  | _ => simp [isNull] at h

theorem isNull_of_conformsToScalar {v : Value} {s : Scalar} (h : v.conformsToScalar s = true) :
    v.isNull = false := by
  cases v with
  | null => simp [conformsToScalar, kind] at h
  | _ => rfl

theorem toText_of_conformsToScalar {v : Value} {s : Scalar} (h : v.conformsToScalar s = true) :
    ∃ t, v.toText? = some t := by
  cases v with
  | record vs => simp [conformsToScalar, kind] at h
  | malformed m => cases m <;> simp [conformsToScalar, kind] at h
  | _ => simp [toText?, display?]

theorem convert_conforms {v : Value} {s t : Scalar} (hv : v.conformsToScalar s = true)
    (hst : s.promotesTo t = true) :
    ∃ w, v.convert t = .ok w ∧ w.conformsToScalar t = true := by
  cases t with
  | string =>
    obtain ⟨x, hx⟩ := toText_of_conformsToScalar hv
    exact ⟨string x, by simp [convert, hx], rfl⟩
  | bigint => exact ⟨bigint v.integer, rfl, rfl⟩
  | float => cases v <;> exact ⟨float _, rfl, rfl⟩
  | double => cases v <;> exact ⟨double _, rfl, rfl⟩
  | _ =>
    have hs := Scalar.eq_of_promotesTo hst (by simp)
    subst hs
    exact ⟨v, rfl, hv⟩

/-- A value that is not null conforms to a nullable type as to the scalar inside. -/
theorem conforms_nullable {v : Value} {s : Scalar} (hn : v.isNull = false) :
    v.conforms (.nullable s) = v.conformsToScalar s := by
  simp [conforms, hn]

theorem conformsToScalar_of_promotesTo {v : Value} {s t : DataType} (hv : v.conforms s = true)
    (hn : v.isNull = false) (hst : s.promotesTo t = true) (hne : s ≠ t) :
    ∃ a b, s.nonNullable = some (.scalar a) ∧ t.nonNullable = some (.scalar b) ∧
      v.conformsToScalar a = true ∧ a.promotesTo b = true := by
  cases s with
  | scalar a =>
    have ha : v.conformsToScalar a = true := by simpa only [conforms] using hv
    cases t with
    | scalar b => exact ⟨a, b, rfl, rfl, ha, hst⟩
    | nullable b => exact ⟨a, b, rfl, rfl, ha, hst⟩
    | _ => simp [DataType.promotesTo] at hst
  | nullable a =>
    rw [conforms_nullable hn] at hv
    cases t with
    | nullable b => exact ⟨a, b, rfl, rfl, hv, hst⟩
    | _ => simp [DataType.promotesTo] at hst
  | nullableAny => simp [conforms, hn] at hv
  | record fs => exact absurd ((DataType.equals_iff _ _).mp hst) hne
  | function r ps => exact absurd ((DataType.equals_iff _ _).mp hst) hne

/-- Where the types allow it, a value is converted unless there is nothing to do. -/
theorem promote_of_promotesTo {v : Value} {s t : DataType} (hst : s.promotesTo t = true) :
    v.promote (some s) (some t) =
      if DataType.equalMissing (some s) (some t) || v.isNull then .ok v
      else match t with
        | .scalar b | .nullable b => v.convert b
        | _ => .ok v := by
  simp only [promote, DataType.promotes, hst, bind, Except.bind, pure, Except.pure, ↓reduceIte]
  split
  · rfl
  · rename_i hwork
    cases t with
    | nullableAny =>
      -- Nothing else promotes to the type of null, so there is nothing to convert.
      have hself := DataType.eq_of_promotesTo hst (by simp [DataType.nonNullable])
      simp [(DataType.equalMissing_iff _ _).mpr (congrArg some hself)] at hwork
    | _ => rfl

theorem promote_self (v : Value) (t : DataType) : v.promote (some t) (some t) = .ok v := by
  have he : DataType.equalMissing (some t) (some t) = true :=
    (DataType.equalMissing_iff _ _).mpr rfl
  rw [promote_of_promotesTo (DataType.promotesTo_refl t), he]
  rfl

theorem promote_null {s t : DataType} (h : s.promotesTo t = true) :
    null.promote (some s) (some t) = .ok null := by
  rw [promote_of_promotesTo h, if_pos (by simp [isNull])]

theorem promote_convert {v : Value} {s t : DataType} {b : Scalar} (h : s.promotesTo t = true)
    (hne : s ≠ t) (hn : v.isNull = false) (ht : t.nonNullable = some (.scalar b)) :
    v.promote (some s) (some t) = v.convert b := by
  have he : DataType.equalMissing (some s) (some t) = false := by
    rw [Bool.eq_false_iff, ne_eq, DataType.equalMissing_iff]
    simpa using hne
  rw [promote_of_promotesTo h, if_neg (by simp [he, hn])]
  rcases DataType.nonNullable_scalar_iff.mp ht with rfl | rfl <;> rfl

/-- Promotion keeps what conforms: a value of the source type becomes one of the target type. -/
theorem promote_conforms {v : Value} {s t : DataType} (hv : v.conforms s = true)
    (hst : s.promotesTo t = true) :
    ∃ w, v.promote (some s) (some t) = .ok w ∧ w.conforms t = true := by
  by_cases hne : s = t
  · subst t
    exact ⟨v, promote_self v s, hv⟩
  cases hn : v.isNull with
  | true =>
    cases eq_null_of_isNull hn
    rw [conforms_null] at hv
    refine ⟨null, promote_null hst, ?_⟩
    rw [conforms_null]
    exact DataType.isNullable_of_promotesTo hst hv
  | false =>
    obtain ⟨a, b, _, ht, ha, hab⟩ := conformsToScalar_of_promotesTo hv hn hst hne
    obtain ⟨w, hw, hc⟩ := convert_conforms ha hab
    refine ⟨w, by rw [promote_convert hst hne hn ht, hw], ?_⟩
    rcases DataType.nonNullable_scalar_iff.mp ht with rfl | rfl <;> simp [conforms, hc]

/-- The value with its content rounded to single precision, if it is a FLOAT. -/
def rounded : Value → Value
  | float x => float x.narrow.widen
  | v => v

/-- A FLOAT holds a number of single precision. -/
def Rounded : Value → Prop
  | float x => x.narrow.widen = x
  | _ => True

instance : DecidablePred Rounded
  | float x => inferInstanceAs (Decidable (x.narrow.widen = x))
  | null | boolean _ | int _ | bigint _ | double _ | string _ | timestamp _ | timespan _
  | record _ | malformed _ => .isTrue trivial

theorem rounded_eq_iff {v : Value} : v.rounded = v ↔ v.Rounded := by
  cases v <;> simp [rounded, Rounded]

theorem rounded_single (x : Single) : (float x.widen).Rounded := x.widen_narrow_widen

theorem rounded_of_conformsToScalar {v : Value} {s : Scalar} (h : v.conformsToScalar s = true)
    (hs : s ≠ .float) : v.Rounded := by
  cases v with
  | float x => cases s <;> first | exact absurd rfl hs | exact absurd h Bool.false_ne_true
  | _ => trivial

theorem isNull_rounded (v : Value) : v.rounded.isNull = v.isNull := by
  cases v <;> rfl

theorem map_rounded {vs : List Value} (h : ∀ v ∈ vs, v.Rounded) : vs.map rounded = vs :=
  (List.map_congr_left fun v hv => rounded_eq_iff.mpr (h v hv)).trans (List.map_id _)

theorem convert_self {v : Value} {s : Scalar} (h : v.conformsToScalar s = true) :
    v.convert s = .ok v.rounded := by
  cases v with
  | malformed m => cases m <;> simp [conformsToScalar, kind] at h
  | _ => cases s <;> first | rfl | exact absurd h Bool.false_ne_true

/-- Conversions round, and the types that nothing is converted to hold no FLOAT. -/
theorem rounded_of_convert {v w : Value} {s : Scalar} (hv : v.Rounded)
    (h : v.convert s = .ok w) : w.Rounded := by
  cases s with
  | string =>
    cases ht : v.toText? <;> simp only [convert, ht] at h <;> cases h
    trivial
  | bigint =>
    cases h
    trivial
  | float => cases v <;> cases h <;> exact rounded_single _
  | double => cases v <;> cases h <;> trivial
  | _ =>
    cases h
    exact hv

theorem rounded_of_promote {v w : Value} {s t : DataType} (hv : v.Rounded)
    (h : v.promote (some s) (some t) = .ok w) : w.Rounded := by
  cases hst : s.promotesTo t with
  | false =>
    simp only [promote, DataType.promotes, hst] at h
    cases h
  | true =>
    rw [promote_of_promotesTo hst] at h
    split at h
    · cases h
      exact hv
    · split at h
      · exact rounded_of_convert hv h
      · exact rounded_of_convert hv h
      · cases h
        exact hv

end Value

end TypedStream
