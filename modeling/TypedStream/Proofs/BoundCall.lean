import TypedStream.Proofs.CommonType.Least
import TypedStream.Proofs.Elaboration
import TypedStream.Proofs.Registry.Choice

namespace TypedStream.Expr

open DataType

/-- What an argument of a type is converted to for a parameter of a type. -/
def target (propagates : Bool) (t u : DataType) : Option DataType :=
  if propagates && t.isNullable then u.asNullable else some u

theorem argumentTarget_eq {p : Plan} {t : DataType} (hp : p.type = some t) (propagates : Bool)
    (u : DataType) : argumentTarget propagates p (some u) = .ok (target propagates t u) := by
  cases propagates with
  | false => rfl
  | true =>
    simp only [argumentTarget, target, hp, Bool.true_and, ↓reduceIte]
    split <;> rfl

/-- The parameter has a nullable version if null is all that the argument can be. -/
def Admits (t : DataType) (parameter : Option DataType) : Prop :=
  t = .nullableAny → ∃ u, parameter = some u ∧ u.isPrimitive = true

/-- The failure to convert null to a parameter without a nullable version. -/
def stuck (name : Text) (index : Nat) : Failure :=
  .inPlace (.promotion index name) (.type (.noPromotion (some .nullableAny) none))

/-- How the conversion of one argument ends. -/
def Converts (propagates : Bool) (t : DataType) (parameter : Option DataType) : Prop :=
  ∃ u, parameter = some u ∧
    (Admits t parameter ∧ (∃ v, target propagates t u = some v ∧ t.promotesTo v = true) ∨
      ¬ Admits t parameter ∧ t = .nullableAny ∧ target propagates t u = none)

theorem promotesTo_of_nullableAny {t : DataType} (h : t.isNullable = true) :
    nullableAny.promotesTo t = true := by
  cases t <;> first | rfl | cases h

theorem isPrimitive_of_scalar {s : Scalar} {t : DataType}
    (h : (DataType.scalar s).promotesTo t = true) : t.isPrimitive = true := by
  cases t <;> first | rfl | cases h

/-- Arguments that are taken as they are reach their parameters. -/
theorem converts_direct {t : DataType} {parameter : Option DataType}
    (h : Registry.Takes (some t) parameter) : Converts false t parameter := by
  obtain ⟨u, rfl, hpromotes⟩ := h t rfl
  refine ⟨u, rfl, .inl ⟨?_, u, rfl, hpromotes⟩⟩
  intro hnull
  rw [hnull] at hpromotes
  exact ⟨u, rfl, isPrimitive_of_isNullable (isNullable_of_promotesTo hpromotes rfl)⟩

theorem converts_through {t : DataType} {parameter : Option DataType}
    (hparameter : parameter.isSome = true)
    (h : Registry.Takes t.nonNullable parameter) : Converts true t parameter := by
  obtain ⟨u, rfl⟩ := Option.isSome_iff_exists.mp hparameter
  refine ⟨u, rfl, ?_⟩
  cases t with
  | nullableAny =>
    cases hu : u.asNullable with
    | none =>
      refine .inr ⟨?_, rfl, hu⟩
      intro hadmits
      obtain ⟨_, hsame, hprimitive⟩ := hadmits rfl
      cases hsame
      obtain ⟨v, hv⟩ := asNullable_of_isPrimitive hprimitive
      rw [hu] at hv
      cases hv
    | some v =>
      refine .inl ⟨fun _ => ⟨u, rfl, isPrimitive_of_asNullable hu⟩, v, hu, ?_⟩
      exact promotesTo_of_nullableAny (isNullable_of_asNullable hu)
  | nullable s =>
    obtain ⟨_, hsame, hpromotes⟩ := h (.scalar s) rfl
    cases hsame
    obtain ⟨v, hv⟩ := asNullable_of_isPrimitive (isPrimitive_of_scalar hpromotes)
    have hscalar : (DataType.scalar s).promotesTo v = true :=
      promotesTo_trans hpromotes (promotesTo_asNullable hv)
    exact .inl ⟨nofun, v, hv, asNullable_promotesTo rfl hscalar (isNullable_of_asNullable hv)⟩
  | scalar s | record fs | function r ps =>
    obtain ⟨_, hsame, hpromotes⟩ := h _ rfl
    cases hsame
    exact .inl ⟨nofun, u, rfl, hpromotes⟩

theorem promoteTo_none {p : Plan} {t : DataType} (hp : p.type = some t) :
    p.promoteTo none = .error (.type (.noPromotion (some t) none)) := by
  simp [Plan.promoteTo, hp, equalMissing]

theorem promoteArguments_cons {p : Plan} {t : DataType} (hp : p.type = some t) (name : Text)
    (propagates : Bool) (index : Nat) (u : DataType) (ps : List Plan)
    (us : List (Option DataType)) :
    promoteArguments name propagates index (p :: ps) (some u :: us) = do
      let q ← inside (.promotion index name) (p.promoteTo (target propagates t u))
      let qs ← promoteArguments name propagates (index + 1) ps us
      return q :: qs := by
  rw [promoteArguments, argumentTarget_eq hp]
  rfl

/-- The conversions of a bound call go through, or one of them meets null in the wrong place. -/
theorem promoteArguments_cases {name : Text} {propagates : Bool} {ps : List Plan}
    {ts : List DataType} {parameters : List (Option DataType)}
    (hts : ps.map Plan.type = ts.map some)
    (h : List.Forall₂ (Converts propagates) ts parameters) (index : Nat) :
    List.Forall₂ Admits ts parameters ∧
      (∃ qs, promoteArguments name propagates index ps parameters = .ok qs) ∨
    ¬ List.Forall₂ Admits ts parameters ∧
      ∃ i, promoteArguments name propagates index ps parameters = .error (stuck name i) := by
  induction h generalizing ps index with
  | nil =>
    rw [List.map_nil, List.map_eq_nil_iff] at hts
    subst hts
    exact .inl ⟨.nil, [], rfl⟩
  | @cons t parameter ts parameters hconverts _ ih =>
    cases ps with
    | nil => cases hts
    | cons p ps =>
      rw [List.map_cons, List.map_cons, List.cons.injEq] at hts
      obtain ⟨u, rfl, hend⟩ := hconverts
      rw [List.forall₂_cons, promoteArguments_cons hts.1]
      rcases hend with ⟨hadmits, v, hv, hpromotes⟩ | ⟨hrefuses, rfl, hnone⟩
      · rw [hv, Plan.promoteTo_of_promotesTo hts.1 hpromotes]
        rcases ih hts.2 (index + 1) with ⟨hrest, qs, hqs⟩ | ⟨hrest, i, hi⟩
        · rw [hqs]
          exact .inl ⟨⟨hadmits, hrest⟩, _, rfl⟩
        · rw [hi]
          exact .inr ⟨fun hall => hrest hall.2, i, rfl⟩
      · refine .inr ⟨fun hall => hrefuses hall.1, index, ?_⟩
        rw [hnone, promoteTo_none hts.1]
        rfl

/-- However a call is bound, the conversion of each argument ends in one of the two ways. -/
theorem converts_of_resolve {registry : Registry} (hr : registry.Typed) {name : Text}
    {ts : List DataType} {b : Binding} (hb : registry.resolve name (ts.map some) = .ok b) :
    List.Forall₂ (Converts b.propagatesNulls) ts b.function.parameters := by
  rcases Registry.resolve_cases hb with ⟨f, hf, rfl⟩ | ⟨bare, f, r, t, hbare, _, hf, _, _, rfl⟩
  · have hchosen := (Registry.bestOverload_eq_some_iff (Registry.typed_overloads hr)).mp hf
    have haccepts := List.forall₂_map_left_iff.mp hchosen.accepts.2
    exact haccepts.imp fun _ _ => converts_direct
  · rw [Registry.unwrapped?_some] at hbare
    cases hbare
    have hchosen := (Registry.bestOverload_eq_some_iff (Registry.typed_strict hr)).mp hf
    have htyped := Registry.typed_strict hr f hchosen.accepts.1
    have haccepts := List.forall₂_map_left_iff.mp hchosen.accepts.2
    have hboth := (List.forall₂_and_left _ _).mpr ⟨htyped.parameters, haccepts.flip⟩
    exact (hboth.imp fun _ _ h => converts_through h.1 h.2).flip

theorem bindCall_eq {env : Environment} {registry : Registry} {name : Text} {ps : List Plan}
    {b : Binding} (hfunctions : env.functions = some registry)
    (hb : registry.resolve name (ps.map Plan.type) = .ok b) :
    bindCall env name ps =
      if b.propagatesNulls && env.strictNulls then .error (.type (.nullableArguments name))
      else (promoteArguments name b.propagatesNulls 0 ps b.function.parameters).map
        (Plan.ofBinding b) := by
  rw [bindCall, hfunctions]
  simp only [hb]
  change (if _ then _ else _) = _
  split
  · rfl
  · cases promoteArguments name b.propagatesNulls 0 ps b.function.parameters <;> rfl

/-- A call that is bound is refused because of null where the environment is strict about null.
Otherwise its arguments are converted and it becomes the call that it is bound to, just if no null
literal stands for a parameter without a nullable version; the conversion of such an argument
fails. -/
theorem bindCall_of_resolve {env : Environment} {registry : Registry} {name : Text} {ps : List Plan}
    {ts : List DataType} {b : Binding} (hfunctions : env.functions = some registry)
    (hr : registry.Typed) (hts : ps.map Plan.type = ts.map some)
    (hb : registry.resolve name (ts.map some) = .ok b) :
    ((b.propagatesNulls && env.strictNulls) = true →
      bindCall env name ps = .error (.type (.nullableArguments name))) ∧
    ((b.propagatesNulls && env.strictNulls) = false →
      ((∃ qs, bindCall env name ps = .ok (Plan.ofBinding b qs)) ↔
        List.Forall₂ Admits ts b.function.parameters) ∧
      (¬ List.Forall₂ Admits ts b.function.parameters →
        ∃ i, bindCall env name ps = .error (stuck name i))) := by
  rw [bindCall_eq hfunctions (hts ▸ hb)]
  constructor
  · intro hstrict
    exact if_pos hstrict
  · intro hstrict
    rw [hstrict]
    rcases promoteArguments_cases hts (converts_of_resolve hr hb) 0 with
      ⟨hadmits, qs, hqs⟩ | ⟨hrefuses, i, hi⟩
    · rw [hqs]
      exact ⟨iff_of_true ⟨qs, rfl⟩ hadmits, fun h => absurd hadmits h⟩
    · rw [hi]
      refine ⟨iff_of_false ?_ hrefuses, fun _ => ⟨i, rfl⟩⟩
      rintro ⟨qs, hqs⟩
      cases hqs

def zeroOf (parameters : List DataType) : ScalarFunction where
  result := some (.scalar .int)
  parameters := parameters.map some
  strict := true
  description := utf8 "Returns zero."
  body := fun _ => .ok (.int 0)

/-- Null may stand for an integer beside a record, which is passed as it is. -/
theorem bindCall_of_resolve_record :
    let point := DataType.record [(utf8 "x", .scalar .int)]
    let registry : Registry := ⟨[(utf8 "f", zeroOf [.scalar .int, point])]⟩
    let env : Environment := ⟨some (.record [(utf8 "p", point)]), some registry, false⟩
    ∃ qs, bindCall env (utf8 "f")
        [.constant .null (some .nullableAny), .variable (utf8 "p") 0 (some point)] =
      .ok (Plan.ofBinding ⟨utf8 "f", zeroOf [.scalar .int, point], some (.nullable .int), true⟩
        qs) := by
  intro point registry env
  have htyped : registry.Typed := by
    intro entry hentry
    cases List.mem_singleton.mp hentry
    exact ⟨rfl, by simp [zeroOf]⟩
  have hbind : registry.resolve (utf8 "f") ([.nullableAny, point].map some) =
      .ok ⟨utf8 "f", zeroOf [.scalar .int, point], some (.nullable .int), true⟩ := by
    with_unfolding_all rfl
  have hfunctions : env.functions = some registry := rfl
  have hts : List.map Plan.type
      [.constant .null (some .nullableAny), .variable (utf8 "p") 0 (some point)] =
        [.nullableAny, point].map some := rfl
  have hcall := (bindCall_of_resolve hfunctions htyped hts hbind).2 rfl
  exact hcall.1.mpr (.cons (fun _ => ⟨_, rfl, rfl⟩) (.cons nofun .nil))

/-- Null is bound to a parameter that is a record, since null is to go through the call, and then
it cannot be converted to what the parameter asks for. -/
theorem null_bound_but_stuck :
    let point := DataType.record [(utf8 "x", .scalar .int)]
    let registry : Registry := ⟨[(utf8 "f", zeroOf [point])]⟩
    Registry.empty.register (utf8 "f") (zeroOf [point]) = .ok registry ∧
    registry.resolve (utf8 "f") [some .nullableAny] =
      .ok ⟨utf8 "f", zeroOf [point], some (.nullable .int), true⟩ ∧
    check ⟨none, some registry, false⟩ (.call (utf8 "f") [.null]) =
      .error (stuck (utf8 "f") 0) := by
  refine ⟨?_, ?_, ?_⟩ <;> with_unfolding_all rfl

end TypedStream.Expr
