import TypedStream.Proofs.Builtin

namespace TypedStream

theorem Environment.Typed.of_builtin {env : Environment}
    (h : env.functions = some Registry.builtin) : env.Typed := by
  intro registry hr
  cases h.symm.trans hr
  exact Registry.builtin_typed

/-- Records of the given fields, the builtin functions, and nullable arguments anywhere. -/
abbrev Environment.lenient (fields : List (Text × DataType)) : Environment :=
  ⟨some (.record fields), some Registry.builtin, false⟩

/-- Over the builtin functions, a well-typed plan fails only in a computation. -/
theorem Plan.WellTyped.safe_of_builtin {env : Environment} {record : List Value} {p : Plan}
    (h : p.WellTyped env) (hbuiltin : env.functions = some Registry.builtin)
    (hconforms : (Value.record record).conformsMissing env.record = true) :
    p.Safe Failure.IsComputation record := by
  cases hrecord : env.record with
  | none => simp [hrecord, Value.conformsMissing] at hconforms
  | some r =>
    rw [hrecord] at hconforms
    refine h.safe hrecord hconforms (fun x hx => ⟨x, rfl, hx⟩) ?_
    intro registry hr
    cases hbuiltin.symm.trans hr
    exact Registry.builtin_failsOnly

namespace Plan

mutual

/-- The constants of the plan, from left to right. -/
def constants : Plan → List Value
  | .variable _ _ _ => []
  | .constant v _ => [v]
  | .call _ _ _ _ args | .logic _ _ args => constantsAll args
  | .promotion p _ => p.constants

def constantsAll : List Plan → List Value
  | [] => []
  | p :: ps => p.constants ++ constantsAll ps

end

theorem constantsAll_eq_flatMap (ps : List Plan) : constantsAll ps = ps.flatMap constants := by
  induction ps with
  | nil => rfl
  | cons p ps ih => simp [constantsAll, ih]

theorem mem_constantsAll {p : Plan} {ps : List Plan} {v : Value} (hp : p ∈ ps)
    (hv : v ∈ p.constants) : v ∈ constantsAll ps := by
  rw [constantsAll_eq_flatMap]
  exact List.mem_flatMap.mpr ⟨p, hp, hv⟩

theorem rounds_arguments {record : List Value} {name : Text} {propagates : Bool} {ps : List Plan}
    (hps : ∀ p ∈ ps, p.Rounds record) {index : Nat} {vs : List Value}
    (h : evaluateArguments record name propagates index ps = .ok (some vs)) :
    ∀ v ∈ vs, v.Rounded := by
  induction ps generalizing index vs with
  | nil =>
    cases h
    simp
  | cons p ps ih =>
    obtain ⟨hp, hps⟩ := List.forall_mem_cons.mp hps
    rw [evaluateArguments, bind_ok_iff] at h
    obtain ⟨v, hv, h⟩ := h
    split at h
    · cases h
    · obtain ⟨out, hout, h⟩ := bind_ok_iff.mp h
      obtain ⟨ws, rfl, rfl⟩ := Option.map_eq_some_iff.mp (Except.ok.inj h)
      exact List.forall_mem_cons.mpr ⟨hp v (inside_ok_iff.mp hv), ih hps hout⟩

/-- Rounding is kept: what comes from rounded fields and constants is rounded. -/
theorem WellTyped.rounds {env : Environment} {record : List Value} {p : Plan} (h : p.WellTyped env)
    (hbuiltin : env.functions = some Registry.builtin)
    (hconforms : (Value.record record).conformsMissing env.record = true)
    (hrecord : ∀ v ∈ record, v.Rounded) (hconstants : ∀ v ∈ p.constants, v.Rounded) :
    p.Rounds record := by
  induction h with
  | @field name i _ _ _ _ _ =>
    intro v hv
    cases hi : record[i]? with
    | none => simp [evaluate, hi] at hv
    | some w =>
      simp only [evaluate, hi, Except.ok.injEq] at hv
      exact hrecord v (List.mem_of_getElem? (hv ▸ hi))
  | constant _ =>
    intro v hv
    cases hv
    exact hconstants _ List.mem_cons_self
  | @call _ _ f _ _ args functions overload fit _ typed ih =>
    cases hbuiltin.symm.trans functions
    have hargs : ∀ p ∈ args, p.Rounds record := fun p hp =>
      ih p hp fun v hv => hconstants v (mem_constantsAll hp hv)
    have hsafe : ∀ p ∈ args, p.Safe Failure.IsComputation record := fun p hp =>
      (typed p hp).safe_of_builtin hbuiltin hconforms
    intro w hw
    rw [evaluate, bind_ok_iff] at hw
    obtain ⟨out, hout, hw⟩ := hw
    rcases (evaluateArguments_ends fit hsafe 0).ok hout with ⟨rfl, _⟩ | ⟨vs, rfl, hvs⟩
    · cases hw
      trivial
    · have hbody := ScalarFunction.body_of_call (inside_ok_iff.mp hw)
      obtain ⟨e, he, rfl⟩ := List.mem_map.mp overload
      have hcomputes := (Builtin.dependable_builtin e (List.mem_filter.mp he).1).computes vs hvs
      exact hcomputes.ok hbody (rounds_arguments hargs hout)
  | promotion source promotes _ _ ih =>
    intro w hw
    rw [evaluate, source] at hw
    obtain ⟨v, hv, hw⟩ := bind_ok_iff.mp hw
    exact Value.rounded_of_promote (ih hconstants v hv) hw
  | @logic c args _ booleans typed _ =>
    intro v hv
    rw [evaluate] at hv
    have hends := evaluateLogic_ends c
      (fun p hp => (typed p hp).safe_of_builtin hbuiltin hconforms) booleans false 0
    rcases hends.ok hv with ⟨b, rfl⟩ | ⟨rfl, _⟩ <;> trivial

end Plan

namespace Expr

theorem check_safe {env : Environment} {r : DataType} {record : List Value}
    (hrecord : env.record = some r) (hconforms : (Value.record record).conforms r = true)
    (hbuiltin : env.functions = some Registry.builtin) {e : Expr} {p : Plan}
    (hcheck : e.check env = .ok p) : p.Safe Failure.IsComputation record := by
  have hw := (check_ends (.of_builtin hbuiltin) e).ok hcheck
  refine hw.safe_of_builtin hbuiltin ?_
  rw [hrecord]
  exact hconforms

theorem check_rounds {env : Environment} {r : DataType} {record : List Value}
    (hrecord : env.record = some r) (hconforms : (Value.record record).conforms r = true)
    (hbuiltin : env.functions = some Registry.builtin) {e : Expr} {p : Plan}
    (hcheck : e.check env = .ok p) (hinput : ∀ v ∈ record, v.Rounded)
    (hconstants : ∀ v ∈ p.constants, v.Rounded) : p.Rounds record := by
  have hw := (check_ends (.of_builtin hbuiltin) e).ok hcheck
  refine hw.rounds hbuiltin ?_ hinput hconstants
  rw [hrecord]
  exact hconforms

/-- A checked expression has values of its type, whatever the functions; and if these are the
builtin ones, then it has a value or there is nothing that a function could compute. -/
theorem check_evaluate_conforms {env : Environment} {r : DataType} {record : List Value}
    (hrecord : env.record = some r) (hconforms : (Value.record record).conforms r = true)
    {e : Expr} {p : Plan} (hcheck : e.check env = .ok p) :
    (env.functions = some Registry.builtin →
      (∃ v, p.evaluate record = .ok v ∧ v.conformsMissing p.type = true) ∨
      ∃ f x, p.evaluate record = .error f ∧ f.cause = .evaluation x ∧ x.kind = .computation) ∧
    (env.Typed → ∀ v, p.evaluate record = .ok v → v.conformsMissing p.type = true) := by
  constructor
  · intro hbuiltin
    have hsafe := check_safe hrecord hconforms hbuiltin hcheck
    cases hv : p.evaluate record with
    | ok v => exact .inl ⟨v, rfl, hsafe.ok hv⟩
    | error f =>
      obtain ⟨x, hx, hk⟩ := hsafe.error hv
      exact .inr ⟨f, x, rfl, hx, hk⟩
  · intro henv v hv
    have hsafe : p.Safe (fun _ => True) record :=
      ((check_ends henv e).ok hcheck).safe hrecord hconforms (fun _ _ => trivial)
        (fun _ _ _ _ _ _ => .anyhow _)
    exact hsafe.ok hv

/-- The boolean that the expression comes to on a record. -/
def answer? (e : Expr) (env : Environment) (record : List Value) : Option Bool :=
  match e.check env >>= (·.evaluate record) with
  | .ok (.boolean b) => some b
  | _ => none

theorem answer?_eq_some {e : Expr} {env : Environment} {record : List Value} {b : Bool} :
    e.answer? env record = some b ↔
      ∃ p, e.check env = .ok p ∧ p.evaluate record = .ok (.boolean b) := by
  rw [← bind_ok_iff, answer?]
  split
  · rename_i h
    simp [h]
  · rename_i h
    exact ⟨nofun, fun hb => absurd hb (h b)⟩

/-- A tenth, as near as double precision comes to it. -/
def tenth : Value := .float ⟨0x3FB999999999999A⟩

/-- A tenth, as near as single precision comes to it. -/
def roundTenth : Value := .float ⟨0x3FB99999A0000000⟩

def pairFields (t u : DataType) : List (Text × DataType) := [(utf8 "x", t), (utf8 "y", u)]

def pairTest (name : String) : Expr :=
  .operator (utf8 name) [.variable (utf8 "x"), .variable (utf8 "y")]

/-- A FLOAT `x`, and another `y` that may be null. -/
def floatFields : List (Text × DataType) := pairFields (.scalar .float) (.nullable .float)

/-- The tenths are equal if one of them is rounded on the way to the type of the other. -/
theorem tenths_equal :
    ∃ p, (pairTest "=").check (.lenient floatFields) = .ok p ∧
      p.evaluate [tenth, roundTenth] = .ok (.boolean true) :=
  answer?_eq_some.mp (by decide +kernel)

def divisionRecord : DataType :=
  .record [(utf8 "x", .nullable .bigint), (utf8 "y", .scalar .int)]

def divisionTest : Expr :=
  .logic .disjunction [
    .operator (utf8 "=") [
      .operator (utf8 "/") [.variable (utf8 "y"), .variable (utf8 "x")], .constant (.int 2)],
    .call (utf8 "not") [.call (utf8 "like") [.variable (utf8 "y"), .null]]]

/-- A function that breaks its promise to return a boolean. -/
def misleading : ScalarFunction where
  result := some (.scalar .boolean)
  parameters := [some (.scalar .bigint)]
  strict := true
  description := []
  body := fun vs => .ok (.record vs)

def extended : Registry := ⟨Registry.builtin.entries ++ [(utf8 "not", misleading)]⟩

/-- A division by zero, and a call of a function that was added. -/
theorem check_evaluate_conforms_division :
    (∃ p, divisionTest.check ⟨some divisionRecord, some Registry.builtin, false⟩ = .ok p ∧
      ((∃ v, p.evaluate [.bigint 0, .int 3] = .ok v ∧ v.conformsMissing p.type = true) ∨
        ∃ f x, p.evaluate [.bigint 0, .int 3] = .error f ∧ f.cause = .evaluation x ∧
          x.kind = .computation)) ∧
    Registry.builtin.register (utf8 "not") misleading = .ok extended ∧
    ∃ p, (call (utf8 "not") [.variable (utf8 "y")]).check
        ⟨some divisionRecord, some extended, true⟩ = .ok p ∧
      ∀ v, p.evaluate [.null, .int 3] = .ok v → v.conformsMissing p.type = true := by
  have hadded : Registry.builtin.register (utf8 "not") misleading = .ok extended :=
    if_neg (by decide +kernel)
  refine ⟨?_, hadded, ?_⟩
  · obtain ⟨p, hp⟩ : ∃ p, divisionTest.check
        ⟨some divisionRecord, some Registry.builtin, false⟩ = .ok p :=
      exists_of_isOk (by decide +kernel)
    exact ⟨p, hp, (check_evaluate_conforms rfl (by decide) hp).1 rfl⟩
  · obtain ⟨p, hp⟩ : ∃ p, (call (utf8 "not") [.variable (utf8 "y")]).check
        ⟨some divisionRecord, some extended, true⟩ = .ok p :=
      exists_of_isOk (by decide +kernel)
    refine ⟨p, hp, (check_evaluate_conforms rfl (by decide) hp).2 ?_⟩
    intro registry hr
    cases hr
    exact Registry.builtin_typed.register ⟨rfl, by simp [misleading]⟩ hadded

end Expr

end TypedStream
