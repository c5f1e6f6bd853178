import TypedStream.Proofs.Typing

namespace TypedStream

namespace Value

/-- Each value conforms to the type at its place. -/
abbrev ConformAll (vs : List Value) (ts : List (Option DataType)) : Prop :=
  List.Forall₂ (fun v t => v.conformsMissing t = true) vs ts

theorem conformsFields_get {vs : List Value} {fs : List (Text × DataType)}
    (h : conformsFields vs fs = true) {i : Nat} {name : Text} {t : DataType}
    (hf : fs[i]? = some (name, t)) : ∃ v, vs[i]? = some v ∧ v.conforms t = true := by
  induction fs generalizing vs i with
  | nil => simp at hf
  | cons f fs ih =>
    obtain ⟨n, s⟩ := f
    cases vs with
    | nil => simp [conformsFields] at h
    | cons v vs =>
      simp only [conformsFields, Bool.and_eq_true] at h
      cases i with
      | zero =>
        simp only [List.getElem?_cons_zero, Option.some.injEq, Prod.mk.injEq] at hf
        exact ⟨v, rfl, hf.2 ▸ h.1⟩
      | succ i => exact ih h.2 (by simpa using hf)

theorem conforms_field {vs : List Value} {r t : DataType} (h : (record vs).conforms r = true)
    {i : Nat} {name : Text} (hf : r.fields[i]? = some (name, t)) :
    ∃ v, vs[i]? = some v ∧ v.conforms t = true := by
  cases r with
  | record fs =>
    have hc : conformsFields vs fs = true := by simpa [conforms] using h
    exact conformsFields_get hc hf
  | _ => simp [DataType.fields] at hf

/-- What is not null conforms to a type if it conforms to the nullable version. -/
theorem conforms_of_asNullable {v : Value} {s u : DataType} (hv : v.conforms s = true)
    (hn : v.isNull = false) (hu : u.asNullable = some s) : v.conforms u = true := by
  cases u with
  | scalar a =>
    cases hu
    rw [conforms_nullable hn] at hv
    simpa [conforms] using hv
  | nullable a => cases hu; exact hv
  | nullableAny => cases hu; exact hv
  | _ => cases hu

theorem conforms_asNullable {v : Value} {s u : DataType} (hv : v.conforms u = true)
    (hu : u.asNullable = some s) : v.conforms s = true := by
  cases u with
  | scalar a =>
    cases hu
    simp only [conforms] at hv ⊢
    simp [hv]
  | nullable a => cases hu; exact hv
  | nullableAny => cases hu; exact hv
  | _ => cases hu

end Value

namespace ScalarFunction

variable {bad : Failure → Prop}

/-- On arguments that conform to the parameters the body fails only for `bad` causes. -/
def FailsOnly (bad : Failure → Prop) (f : ScalarFunction) : Prop :=
  ∀ vs, Value.ConformAll vs f.parameters → Ends (fun _ => True) bad (f.body vs)

theorem unfit?_none {vs : List Value} {ps : List (Option DataType)} (h : Value.ConformAll vs ps)
    (index : Nat) : unfit? index vs ps = none := by
  induction h generalizing index with
  | nil => rfl
  | cons hv _ ih => simp [unfit?, hv, ih]

/-- The checks around the body change nothing if the arguments and the result conform. -/
theorem call_eq_body {f : ScalarFunction} {vs : List Value}
    (hvs : Value.ConformAll vs f.parameters)
    (h : ∀ v, f.body vs = .ok v → v.conformsMissing f.result = true) : f.call vs = f.body vs := by
  unfold call
  rw [if_neg (not_not.mpr hvs.length_eq), unfit?_none hvs]
  cases hb : f.body vs with
  | error e => rfl
  | ok v =>
    change (if v.conformsMissing f.result then _ else _) = _
    rw [if_pos (h v hb)]
    rfl

theorem body_of_call {f : ScalarFunction} {vs : List Value} {v : Value}
    (h : f.call vs = .ok v) : f.body vs = .ok v := by
  unfold call at h
  split at h
  · cases h
  · split at h
    · cases h
    · obtain ⟨out, hout, h⟩ := bind_ok_iff.mp h
      split at h
      · cases h
        exact hout
      · cases h

theorem call_ends (hbad : ∀ e : EvalError, e.kind = .computation → bad (.evaluation e))
    {f : ScalarFunction} (hf : f.FailsOnly bad) {vs : List Value}
    (hvs : Value.ConformAll vs f.parameters) :
    Ends (fun v => v.conformsMissing f.result = true) bad (f.call vs) := by
  unfold call
  rw [if_neg (not_not.mpr hvs.length_eq), unfit?_none hvs]
  refine (hf vs hvs).bind fun out _ => ?_
  split
  · rename_i hc
    exact hc
  · exact hbad _ rfl

end ScalarFunction

/-- Every function of the registry fails only for `bad` causes. -/
def Registry.FailsOnly (bad : Failure → Prop) (self : Registry) : Prop :=
  ∀ e ∈ self.entries, e.2.FailsOnly bad

theorem Registry.FailsOnly.overload {bad : Failure → Prop} {self : Registry} {name : Text}
    {f : ScalarFunction} (h : self.FailsOnly bad) (hf : f ∈ self.overloads name) :
    f.FailsOnly bad := by
  obtain ⟨e, he, rfl⟩ := List.mem_map.mp hf
  exact h e (List.mem_filter.mp he).1

namespace Plan

variable {bad : Failure → Prop} {record : List Value}

/-- The plan evaluates to a value of its type or fails for a `bad` cause. -/
abbrev Safe (bad : Failure → Prop) (record : List Value) (p : Plan) : Prop :=
  Ends (fun v => v.conformsMissing p.type = true) bad (p.evaluate record)

theorem FitsParameter.conforms {propagates : Bool} {a : Plan} {parameter : Option DataType}
    (h : a.FitsParameter propagates parameter) {v : Value} (hv : v.conformsMissing a.type = true)
    (hn : (propagates && v.isNull) = false) : v.conformsMissing parameter = true := by
  obtain ⟨s, u, hs, rfl, hfit⟩ := h
  rw [hs] at hv
  split at hfit
  · rename_i hp
    simp only [Bool.and_eq_true] at hp
    have hnull : v.isNull = false := by simpa [hp.1] using hn
    exact Value.conforms_of_asNullable hv hnull hfit
  · subst u
    exact hv

/-- Arguments that are all there conform to the parameters; one is left out only when null is let
through. -/
theorem evaluateArguments_ends {name : Text} {propagates : Bool} {args : List Plan}
    {parameters : List (Option DataType)}
    (hfit : List.Forall₂ (FitsParameter propagates) args parameters)
    (hargs : ∀ a ∈ args, a.Safe bad record) (index : Nat) :
    Ends (fun out => (out = none ∧ propagates = true) ∨
        ∃ vs, out = some vs ∧ Value.ConformAll vs parameters) bad
      (evaluateArguments record name propagates index args) := by
  induction hfit generalizing index with
  | nil => exact .inr ⟨[], rfl, .nil⟩
  | cons hf _ ih =>
    rw [evaluateArguments]
    refine ((hargs _ List.mem_cons_self).inside _).bind fun v hv => ?_
    cases hn : (propagates && v.isNull) with
    | true =>
      simp only [Bool.and_eq_true] at hn
      exact .inl ⟨rfl, hn.1⟩
    | false =>
      refine (ih (fun a ha => hargs a (List.mem_cons_of_mem _ ha)) (index + 1)).bind
        fun out hout => ?_
      rcases hout with ⟨rfl, hp⟩ | ⟨vs, rfl, hvs⟩
      · exact .inl ⟨rfl, hp⟩
      · exact .inr ⟨v :: vs, rfl, .cons (hf.conforms hv hn) hvs⟩

/-- Three-valued logic on booleans: the result is a boolean, or null if a null was met before or
can be met still. -/
theorem evaluateLogic_ends (c : Connective) {args : List Plan}
    (hargs : ∀ a ∈ args, a.Safe bad record)
    (hbool : ∀ a ∈ args, a.type = some (.scalar .boolean) ∨ a.type = some (.nullable .boolean))
    (sawNull : Bool) (index : Nat) :
    Ends (fun v => (∃ b, v = .boolean b) ∨
        v = .null ∧ (sawNull || args.any isNullable) = true) bad
      (evaluateLogic record c sawNull index args) := by
  induction args generalizing sawNull index with
  | nil =>
    cases sawNull with
    | true => exact .inr ⟨rfl, rfl⟩
    | false => exact .inl ⟨_, rfl⟩
  | cons a args ih =>
    have hrest := ih (fun b hb => hargs b (List.mem_cons_of_mem a hb))
      (fun b hb => hbool b (List.mem_cons_of_mem a hb))
    rw [evaluateLogic]
    refine ((hargs a List.mem_cons_self).inside _).bind fun v hv => ?_
    split
    · rename_i hn
      have ha : a.isNullable = true := by
        rw [Value.eq_null_of_isNull hn] at hv
        rcases hbool a List.mem_cons_self with ht | ht
        · simp [ht, Value.conformsMissing, Value.conforms_null, DataType.isNullable] at hv
        · simp [isNullable, ht, DataType.isNullable]
      refine (hrest true (index + 1)).mono fun w hw => hw.imp_right fun hw => ⟨hw.1, ?_⟩
      simp [ha]
    · split
      · exact .inl ⟨_, rfl⟩
      · refine (hrest sawNull (index + 1)).mono fun w hw => hw.imp_right fun hw => ⟨hw.1, ?_⟩
        simp only [Bool.or_eq_true, List.any_cons] at hw ⊢
        exact hw.2.imp_right .inr

theorem conforms_logicType {v : Value} {args : List Plan}
    (h : (∃ b, v = .boolean b) ∨ v = .null ∧ (false || args.any isNullable) = true) :
    v.conforms (logicType args) = true := by
  rcases h with ⟨b, rfl⟩ | ⟨rfl, hn⟩
  · unfold logicType
    split <;> rfl
  · rw [Bool.false_or] at hn
    rw [logicType, hn]
    rfl

/-- Type safety. The induction is on the typing rules; a call rests on its function, which fails
only for `bad` causes, and so do the checks of its result. -/
theorem WellTyped.safe {env : Environment} {r : DataType} (hrecord : env.record = some r)
    (hconforms : (Value.record record).conforms r = true)
    (hbad : ∀ e : EvalError, e.kind = .computation → bad (.evaluation e))
    (hfunctions : ∀ registry, env.functions = some registry → registry.FailsOnly bad)
    {p : Plan} (h : p.WellTyped env) : p.Safe bad record := by
  induction h with
  | field hr index found =>
    cases Option.some.inj (hrecord.symm.trans hr)
    obtain ⟨v, hv, hc⟩ := Value.conforms_field hconforms found
    change Ends _ bad (evaluate record (.variable _ (.ofNat _) _))
    simp only [evaluate, hv]
    exact hc
  | constant hc =>
    rw [Safe, evaluate]
    exact hc
  | call functions overload fit result typed ih =>
    rw [Safe, evaluate]
    refine (evaluateArguments_ends fit ih 0).bind fun out hout => ?_
    obtain ⟨t, ht, hcall⟩ := result
    rcases hout with ⟨rfl, rfl⟩ | ⟨vs, rfl, hvs⟩
    · exact Value.conforms_null.trans (DataType.isNullable_of_asNullable hcall.2)
    · have hf := (hfunctions _ functions).overload overload
      refine ((ScalarFunction.call_ends hbad hf hvs).inside _).mono fun v hv => ?_
      rw [ht] at hv
      split at hcall
      · exact Value.conforms_asNullable hv hcall.2
      · rw [hcall]
        exact hv
  | promotion source promotes differ typed ih =>
    rw [Safe, evaluate]
    refine ih.bind fun v hv => ?_
    rw [source] at hv ⊢
    obtain ⟨w, hw, hc⟩ := Value.promote_conforms hv promotes
    rw [hw]
    exact hc
  | logic several booleans typed ih =>
    rw [Safe, evaluate]
    exact (evaluateLogic_ends _ ih booleans false 0).mono fun v hv => conforms_logicType hv

end Plan

end TypedStream
