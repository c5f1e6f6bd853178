import TypedStream.Proofs.Evaluation

namespace TypedStream

namespace Value

/-- The value as one of a scalar type. Null stays null. -/
def convertTo (s : Scalar) (v : Value) : Except Failure Value :=
  if v.isNull then .ok v else v.convert s

theorem convertTo_self {v : Value} {t : DataType} {s : Scalar} (hv : v.conforms t = true)
    (hr : v.Rounded) (ht : t.nonNullable = some (.scalar s)) : convertTo s v = .ok v := by
  unfold convertTo
  split
  · rfl
  · rename_i hn
    have hs : v.conformsToScalar s = true := by
      rcases DataType.nonNullable_scalar_iff.mp ht with rfl | rfl
      · simpa only [conforms] using hv
      · simpa [conforms, hn] using hv
    rw [convert_self hs, rounded_eq_iff.mpr hr]

/-- Promotion converts to the scalar of the target, whether the target admits null or not. -/
theorem promote_eq_convertTo {v : Value} {s t : DataType} {b : Scalar} (hv : v.conforms s = true)
    (hr : v.Rounded) (hst : s.promotesTo t = true) (ht : t.nonNullable = some (.scalar b)) :
    v.promote (some s) (some t) = convertTo b v := by
  by_cases hne : s = t
  · subst t
    rw [promote_self, convertTo_self hv hr ht]
  cases hn : v.isNull with
  | true =>
    cases eq_null_of_isNull hn
    rw [promote_null hst]
    rfl
  | false =>
    rw [promote_convert hst hne hn ht]
    simp [convertTo, hn]

/-- A conversion to the type that the value has, or to the one that it is to have, may come before
another. -/
theorem convertTo_convertTo {v : Value} {s : DataType} {a b : Scalar} (hv : v.conforms s = true)
    (hr : v.Rounded) (hb : s.promotesTo (.nullable b) = true)
    (h : s.nonNullable = none ∨ s.nonNullable = some (.scalar a) ∨ a = b) :
    (convertTo a v >>= convertTo b) = convertTo b v := by
  rcases h with hnone | hself | rfl
  · cases s with
    | nullableAny =>
      have hn : v.isNull = true := by simpa [conforms] using hv
      rw [eq_null_of_isNull hn]
      rfl
    | _ => simp [DataType.nonNullable] at hnone
  · rw [convertTo_self hv hr hself]
    rfl
  · obtain ⟨w, hw, hc⟩ := promote_conforms hv hb
    have hwr := rounded_of_promote hr hw
    rw [promote_eq_convertTo hv hr hb rfl] at hw
    rw [hw]
    exact convertTo_self hc hwr rfl

end Value

namespace Plan

open Value

variable {bad : Failure → Prop} {record : List Value}

/-- The plan with a conversion on top, unless it has the type already. -/
def converted (p : Plan) (t : DataType) : Plan :=
  if DataType.equalMissing p.type (some t) then p else .promotion p t

@[simp] theorem type_converted (p : Plan) (t : DataType) : (p.converted t).type = some t := by
  unfold converted
  split
  · rename_i h
    exact (DataType.equalMissing_iff _ _).mp h
  · rfl

theorem converted_self {p : Plan} {t : DataType} (ht : p.type = some t) : p.converted t = p := by
  rw [converted, ht, if_pos ((DataType.equalMissing_iff _ _).mpr rfl)]

theorem promoteTo_of_promotesTo {p : Plan} {s t : DataType} (hs : p.type = some s)
    (hst : s.promotesTo t = true) : p.promoteTo (some t) = .ok (p.converted t) := by
  unfold promoteTo converted
  split
  · rfl
  · simp [hs, hst]

theorem WellTyped.converted {env : Environment} {p : Plan} {s t : DataType} (h : p.WellTyped env)
    (hs : p.type = some s) (hst : s.promotesTo t = true) : (p.converted t).WellTyped env :=
  ((promoteTo_ends (some t) h).ok (promoteTo_of_promotesTo hs hst)).1

theorem evaluate_converted {p : Plan} {s t : DataType} (hs : p.type = some s)
    (hst : s.promotesTo t = true) :
    (p.converted t).evaluate record =
      p.evaluate record >>= fun v => v.promote (some s) (some t) := by
  unfold converted
  split
  · rename_i he
    rw [hs] at he
    simp only [promote_of_promotesTo hst, he, Bool.true_or, ↓reduceIte]
    exact (bind_pure _).symm
  · rw [evaluate, hs]

theorem Safe.converted {p : Plan} {s t : DataType} (hp : p.Safe bad record) (hs : p.type = some s)
    (hst : s.promotesTo t = true) : (p.converted t).Safe bad record := by
  rw [Safe, evaluate_converted hs hst, type_converted]
  refine hp.bind fun v hv => ?_
  rw [hs] at hv
  obtain ⟨w, hw, hc⟩ := promote_conforms hv hst
  rw [hw]
  exact hc

/-- Whatever the plan evaluates to is rounded. -/
def Rounds (record : List Value) (p : Plan) : Prop :=
  ∀ v, p.evaluate record = .ok v → v.Rounded

theorem Rounds.converted {p : Plan} {s t : DataType} (hp : p.Rounds record) (hs : p.type = some s)
    (hst : s.promotesTo t = true) : (p.converted t).Rounds record := by
  intro w hw
  rw [evaluate_converted hs hst] at hw
  obtain ⟨v, hv, hw⟩ := bind_ok_iff.mp hw
  exact rounded_of_promote (hp v hv) hw

theorem evaluate_convertTo {p : Plan} {s t : DataType} {b : Scalar} (hp : p.Safe bad record)
    (hr : p.Rounds record) (hs : p.type = some s) (hst : s.promotesTo t = true)
    (ht : t.nonNullable = some (.scalar b)) :
    (p.converted t).evaluate record = p.evaluate record >>= convertTo b := by
  rw [evaluate_converted hs hst]
  cases hv : p.evaluate record with
  | error f => rfl
  | ok v =>
    have hc : v.conforms s = true := by simpa [hs, conformsMissing] using hp.ok hv
    exact promote_eq_convertTo hc (hr v hv) hst ht

end Plan

end TypedStream
