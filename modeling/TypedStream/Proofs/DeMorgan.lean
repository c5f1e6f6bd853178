import TypedStream.Proofs.Builtin.Plain
import TypedStream.Proofs.Elaboration
import TypedStream.Proofs.Safety

namespace TypedStream

open DataType Value

namespace Connective

/-- The other connective. -/
def dual : Connective → Connective
  | conjunction => disjunction
  | disjunction => conjunction

@[simp] theorem decisive_dual (c : Connective) : c.dual.decisive = !c.decisive := by
  cases c <;> rfl

end Connective

/-- The second result is the negation of the first: null for null, and a failure for a failure with
the same cause. -/
inductive Opposite : Except Failure Value → Except Failure Value → Prop
  | failure {f g : Failure} (cause : f.cause = g.cause) : Opposite (.error f) (.error g)
  | null : Opposite (.ok .null) (.ok .null)
  | truth (b : Bool) : Opposite (.ok (.boolean b)) (.ok (.boolean !b))

/-- Both results are the same boolean, or both are null, or both are failures with the same cause. -/
def SameTruth (x y : Except Failure Value) : Prop :=
  (∃ b, x = .ok (.boolean b) ∧ y = .ok (.boolean b)) ∨ (x = .ok .null ∧ y = .ok .null) ∨
    ∃ f g, x = .error f ∧ y = .error g ∧ f.cause = g.cause

theorem Opposite.sameTruth {x y z : Except Failure Value} (hy : Opposite x y) (hz : Opposite x z) :
    SameTruth y z := by
  cases hy with
  | failure hf =>
    cases hz with
    | failure hg => exact .inr (.inr ⟨_, _, rfl, rfl, hf.symm.trans hg⟩)
  | null =>
    cases hz
    exact .inr (.inl ⟨rfl, rfl⟩)
  | truth b =>
    cases hz
    exact .inl ⟨!b, rfl, rfl⟩

theorem Value.boolean_of_conformsToScalar {v : Value} (h : v.conformsToScalar .boolean = true) :
    ∃ b, v = .boolean b := by
  cases v with
  | boolean b => exact ⟨b, rfl⟩
  | malformed m => cases m <;> exact absurd h Bool.false_ne_true
  | _ => exact absurd h Bool.false_ne_true

namespace Builtin

/-- The one overload of `not`. -/
def negation : ScalarFunction :=
  strict .boolean [.boolean] "Negates the argument." (unary fun a => .ok (.boolean !a.truth))

theorem overloads_negation : Registry.builtin.overloads (utf8 "not") = [negation] :=
  Registry.overloads_builtin (by simp [table, negation])

theorem bestOverload_negation_iff {t : DataType} {f : ScalarFunction} :
    Registry.bestOverload [negation] [t.nonNullable] = some f ↔
      t.promotesTo Expr.nullableBoolean = true ∧ f = negation := by
  constructor
  · intro h
    obtain ⟨hmem, c, hc⟩ := Registry.bestOverload_some h
    cases List.mem_singleton.mp hmem
    refine ⟨?_, rfl⟩
    have hfit : List.Forall₂ (fun t s => t.promotesTo (t.toward s) = true) [t] [Scalar.boolean] :=
      Registry.cost?_toward hc
    rw [Expr.nullableBoolean, ← promotesTo_toward]
    simpa using hfit
  · rintro ⟨h, rfl⟩
    obtain ⟨c, hc⟩ : ∃ c, Registry.cost? [t.nonNullable] [some (.scalar .boolean)] = some c := by
      rcases Expr.promotesTo_nullableBoolean h with rfl | rfl | rfl
      · exact ⟨0, by simp [Registry.cost?, nonNullable, equals]⟩
      · exact ⟨0, by simp [Registry.cost?, nonNullable, equals]⟩
      · exact ⟨1, rfl⟩
    have hcost : Registry.cost? [t.nonNullable] negation.parameters = some c := hc
    simp only [Registry.bestOverload, Registry.cheapest, List.foldl_cons, List.foldl_nil,
      Registry.cheaper, hcost, Option.map_some]

end Builtin

namespace Plan

open TypedStream.Expr

variable {p q : Plan} {bad : Failure → Prop} {record : List Value}

def negated (p : Plan) : Plan := applied (utf8 "not") Builtin.negation [p]

@[simp] theorem type_negated (p : Plan) : p.negated.type = some (logicType [p]) := by
  cases hn : p.isNullable with
  | true => simp [negated, applied, Plan.type, logicType, hn, ScalarFunction.resultFor, Builtin.negation,
      Builtin.strict, asNullable]
  | false => simp [negated, applied, Plan.type, logicType, hn, ScalarFunction.resultFor, Builtin.negation,
      Builtin.strict]

@[simp] theorem isNullable_negated (p : Plan) : p.negated.isNullable = p.isNullable := by
  have hlogic : p.negated.isNullable = (logicType [p]).isNullable := by
    rw [isNullable, type_negated]
    rfl
  simp [hlogic]

theorem logical_negated (p : Plan) : Logical p.negated :=
  ⟨logicType [p], type_negated p, promotesTo_logicType [p]⟩

theorem toward_boolean (h : Logical p) : p.toward .boolean = asNullableBoolean p := by
  obtain ⟨t, ht, hb⟩ := h
  rw [toward_eq ht, asNullableBoolean, ht]
  rcases promotesTo_nullableBoolean hb with rfl | rfl | rfl
  · rw [if_pos ((equalMissing_iff _ _).mpr rfl)]
    exact converted_self ht
  · rw [if_neg (by simp [equalMissing, equals])]
    rfl
  · rw [if_neg (by simp [equalMissing, equals])]
    rfl

/-- A logical plan is null or a boolean, and null only where its type admits it. -/
theorem logical_value (h : Logical p) (hp : p.Safe bad record) {v : Value}
    (hv : p.evaluate record = .ok v) : v = .null ∧ p.isNullable = true ∨ ∃ b, v = .boolean b := by
  obtain ⟨t, ht, hb⟩ := h
  have hc : v.conforms t = true := by simpa [ht, conformsMissing] using hp.ok hv
  cases hn : v.isNull with
  | true =>
    cases eq_null_of_isNull hn
    rw [conforms_null] at hc
    exact .inl ⟨rfl, by simpa [isNullable, ht] using hc⟩
  | false =>
    refine .inr (boolean_of_conformsToScalar ?_)
    rcases promotesTo_nullableBoolean hb with rfl | rfl | rfl
    · simpa only [conforms] using hc
    · rwa [conforms_nullable hn] at hc
    · simp [conforms, hn] at hc

theorem logicType_map_negated (ps : List Plan) : logicType (ps.map negated) = logicType ps := by
  simp [logicType, List.any_map, Function.comp_def]

theorem opposite_negated (h : Logical p) (hp : p.Safe bad record) :
    Opposite (p.evaluate record) (p.negated.evaluate record) := by
  have hargument : (p.toward .boolean).evaluate record = p.evaluate record := by
    rw [toward_boolean h]
    exact evaluate_asNullableBoolean hp h
  have hnullable : [p].any isNullable = p.isNullable := by simp
  have harguments : List.zipWith toward [p] Builtin.negation.scalars = [p.toward .boolean] := by
    rw [Builtin.negation, Builtin.scalars_strict]
    rfl
  rw [negated, applied, hnullable, harguments, evaluate]
  simp only [evaluateArguments, hargument]
  cases hv : p.evaluate record with
  | error f => exact .failure (Failure.cause_within _ f).symm
  | ok v =>
    rcases logical_value h hp hv with ⟨rfl, hn⟩ | ⟨b, rfl⟩
    · rw [hn]
      exact .null
    · cases p.isNullable <;> exact .truth b

/-- On opposite arguments the two connectives have opposite results. -/
theorem evaluateLogic_opposite (c : Connective) {ps qs : List Plan}
    (h : List.Forall₂ (fun p q => Opposite (p.evaluate record) (q.evaluate record)) ps qs)
    (sawNull : Bool) (index : Nat) :
    Opposite (evaluateLogic record c sawNull index ps)
      (evaluateLogic record c.dual sawNull index qs) := by
  induction h generalizing sawNull index with
  | nil =>
    cases sawNull with
    | true => exact .null
    | false => cases c <;> exact .truth _
  | @cons p q ps qs hpq _ ih =>
    rw [evaluateLogic, evaluateLogic]
    generalize p.evaluate record = x at hpq
    generalize q.evaluate record = y at hpq
    cases hpq with
    | failure hcause =>
      refine .failure ?_
      rw [Failure.cause_within, Failure.cause_within, hcause]
    | null => exact ih true (index + 1)
    | truth b =>
      -- The argument is decisive for one connective if its negation is for the other.
      have hdecisive : ((!b) == c.dual.decisive) = (b == c.decisive) := by simp
      change Opposite (if b == c.decisive then .ok (.boolean c.decisive) else _)
        (if (!b) == c.dual.decisive then .ok (.boolean c.dual.decisive) else _)
      rw [hdecisive, Connective.decisive_dual]
      split
      · exact .truth c.decisive
      · exact ih sawNull (index + 1)

theorem sameTruth_negated_connected (c : Connective) {ps : List Plan}
    (hlogical : ∀ p ∈ ps, Logical p) (hps : ∀ p ∈ ps, p.Safe bad record)
    (hnegated : ∀ p ∈ ps.map negated, p.Safe bad record)
    (hconnected : (connected c ps).Safe bad record) :
    SameTruth ((connected c ps).negated.evaluate record)
      ((connected c.dual (ps.map negated)).evaluate record) := by
  have harguments : List.Forall₂ (fun p q => Opposite (p.evaluate record) (q.evaluate record))
      ps (ps.map negated) := by
    rw [List.forall₂_map_right_iff, List.forall₂_same]
    intro p hp
    exact opposite_negated (hlogical p hp) (hps p hp)
  have hright := evaluateLogic_opposite c harguments false 0
  rw [← evaluate_connected c hps hlogical,
    ← evaluate_connected c.dual hnegated (by simp [logical_negated])] at hright
  exact (opposite_negated (logical_connected c ps) hconnected).sameTruth hright

end Plan

namespace Expr

open Plan

variable {env : Environment}

/-- `NOT e` -/
def negation (e : Expr) : Expr := .call (utf8 "not") [e]

theorem bindCall_negation_iff (hbuiltin : env.functions = some Registry.builtin) {p r : Plan}
    {t : DataType} (ht : p.type = some t) :
    bindCall env (utf8 "not") [p] = .ok r ↔
      Logical p ∧ (p.isNullable && env.strictNulls) = false ∧ r = p.negated := by
  have hname : utf8 "not" ≠ utf8 "ifnull" := by decide
  have hts : [p].map Plan.type = [t].map some := by simp [ht]
  have hlogical : Logical p ↔ t.promotesTo nullableBoolean = true := by simp [Logical, ht]
  rw [bindCall_plain_iff hbuiltin (Registry.plain_overloads hname) hts, hlogical,
    Builtin.overloads_negation]
  simp only [List.map_cons, List.map_nil, Builtin.bestOverload_negation_iff, and_assoc,
    exists_and_left, exists_eq_left, Plan.isNullable, ht]
  simp [negated]

theorem check_negation_iff (hbuiltin : env.functions = some Registry.builtin) {e : Expr} {r : Plan} :
    (negation e).check env = .ok r ↔ ∃ p, e.check env = .ok p ∧ Logical p ∧
      (p.isNullable && env.strictNulls) = false ∧ r = p.negated := by
  rw [negation, check_call_iff]
  constructor
  · rintro ⟨ps, hps, hbind⟩
    cases hps with
    | cons hp hnil =>
      cases hnil
      obtain ⟨t, ht⟩ := ((check_ends (.of_builtin hbuiltin) e).ok hp).type_some
      exact ⟨_, hp, (bindCall_negation_iff hbuiltin ht).mp hbind⟩
  · rintro ⟨p, hp, hlogical, hrest⟩
    obtain ⟨t, ht, hb⟩ := hlogical
    exact ⟨[p], .cons hp .nil, (bindCall_negation_iff hbuiltin ht).mpr ⟨⟨t, ht, hb⟩, hrest⟩⟩

theorem checksTo_negations_iff (hbuiltin : env.functions = some Registry.builtin)
    {es : List Expr} {qs : List Plan} :
    ChecksTo env (es.map negation) qs ↔ ∃ ps, ChecksTo env es ps ∧ (∀ p ∈ ps, Logical p) ∧
      (ps.any Plan.isNullable && env.strictNulls) = false ∧ qs = ps.map negated := by
  induction es generalizing qs with
  | nil =>
    simp only [List.map_nil, List.forall₂_nil_left_iff]
    exact ⟨fun h => ⟨[], rfl, by simp, rfl, h⟩, fun ⟨ps, hps, _, _, hqs⟩ => by simpa [hps] using hqs⟩
  | cons e es ih =>
    simp only [List.map_cons, List.forall₂_cons_left_iff, check_negation_iff hbuiltin, ih]
    constructor
    · rintro ⟨_, _, ⟨p, hp, hlogical, hstrict, rfl⟩, ⟨ps, hps, hlogicals, hstricts, rfl⟩, rfl⟩
      refine ⟨p :: ps, ⟨p, ps, hp, hps, rfl⟩, ?_, ?_, rfl⟩
      · simpa using ⟨hlogical, hlogicals⟩
      · rw [List.any_cons, Bool.and_or_distrib_right, hstrict, hstricts, Bool.or_self]
    · rintro ⟨_, ⟨p, ps, hp, hps, rfl⟩, hlogicals, hstricts, rfl⟩
      rw [List.any_cons, Bool.and_or_distrib_right, Bool.or_eq_false_iff] at hstricts
      rw [List.forall_mem_cons] at hlogicals
      exact ⟨_, _, ⟨p, hp, hlogicals.1, hstricts.1, rfl⟩,
        ⟨ps, hps, hlogicals.2, hstricts.2, rfl⟩, rfl⟩

theorem check_negated_logic_iff (hbuiltin : env.functions = some Registry.builtin)
    {c : Connective} {es : List Expr} {r : Plan} :
    (negation (.logic c es)).check env = .ok r ↔
      2 ≤ es.length ∧ ∃ ps, ChecksTo env es ps ∧ (∀ p ∈ ps, Logical p) ∧
        (ps.any Plan.isNullable && env.strictNulls) = false ∧ r = (connected c ps).negated := by
  simp only [check_negation_iff hbuiltin, check_logic_iff]
  constructor
  · rintro ⟨_, ⟨hlength, ps, hps, hlogicals, rfl⟩, _, hstrict, rfl⟩
    rw [isNullable_connected] at hstrict
    exact ⟨hlength, ps, hps, hlogicals, hstrict, rfl⟩
  · rintro ⟨hlength, ps, hps, hlogicals, hstrict, rfl⟩
    rw [← isNullable_connected c] at hstrict
    exact ⟨_, ⟨hlength, ps, hps, hlogicals, rfl⟩, logical_connected c ps, hstrict, rfl⟩

theorem check_logic_negations_iff (hbuiltin : env.functions = some Registry.builtin)
    {c : Connective} {es : List Expr} {r : Plan} :
    (logic c (es.map negation)).check env = .ok r ↔
      2 ≤ es.length ∧ ∃ ps, ChecksTo env es ps ∧ (∀ p ∈ ps, Logical p) ∧
        (ps.any Plan.isNullable && env.strictNulls) = false ∧ r = connected c (ps.map negated) := by
  simp only [check_logic_iff, List.length_map, checksTo_negations_iff hbuiltin]
  constructor
  · rintro ⟨hlength, _, ⟨ps, hps, hlogicals, hstrict, rfl⟩, _, rfl⟩
    exact ⟨hlength, ps, hps, hlogicals, hstrict, rfl⟩
  · rintro ⟨hlength, ps, hps, hlogicals, hstrict, rfl⟩
    refine ⟨hlength, _, ⟨ps, hps, hlogicals, hstrict, rfl⟩, ?_, rfl⟩
    intro q hq
    obtain ⟨p, _, rfl⟩ := List.mem_map.mp hq
    exact logical_negated p

theorem checksTo_safe (hbuiltin : env.functions = some Registry.builtin) {es : List Expr}
    {ps : List Plan} (h : ChecksTo env es ps) {record : List Value}
    (hconforms : (Value.record record).conformsMissing env.record = true) :
    ∀ p ∈ ps, p.Safe Failure.IsComputation record := by
  intro p hp
  obtain ⟨e, _, he⟩ := forall₂_mem_right h hp
  exact ((check_ends (.of_builtin hbuiltin) e).ok he).safe_of_builtin hbuiltin hconforms

/-- De Morgan's laws. -/
theorem negation_logic_iff_logic_negations (hbuiltin : env.functions = some Registry.builtin)
    (c : Connective) (es : List Expr) :
    ((∃ p, (negation (.logic c es)).check env = .ok p) ↔
      ∃ q, (logic c.dual (es.map negation)).check env = .ok q) ∧
    ∀ p q, (negation (.logic c es)).check env = .ok p →
      (logic c.dual (es.map negation)).check env = .ok q →
      p.type = q.type ∧
      ∀ record, (Value.record record).conformsMissing env.record = true →
        SameTruth (p.evaluate record) (q.evaluate record) := by
  constructor
  · simp only [check_negated_logic_iff hbuiltin, check_logic_negations_iff hbuiltin]
    constructor
    · rintro ⟨_, hlength, ps, hps, hlogical, hstrict, _⟩
      exact ⟨_, hlength, ps, hps, hlogical, hstrict, rfl⟩
    · rintro ⟨_, hlength, ps, hps, hlogical, hstrict, _⟩
      exact ⟨_, hlength, ps, hps, hlogical, hstrict, rfl⟩
  · intro p q hp hq
    obtain ⟨hlength, ps, hps, hlogical, hstrict, rfl⟩ := (check_negated_logic_iff hbuiltin).mp hp
    obtain ⟨_, ps', hps', _, _, rfl⟩ := (check_logic_negations_iff hbuiltin).mp hq
    obtain rfl := hps.unique hps'
    refine ⟨?_, fun record hconforms => ?_⟩
    · have hright : (connected c.dual (ps.map negated)).type = some (logicType ps) :=
        congrArg some (logicType_map_negated ps)
      simp [hright, logicType]
    · have hnegations : ChecksTo env (es.map negation) (ps.map negated) :=
        (checksTo_negations_iff hbuiltin).mpr ⟨ps, hps, hlogical, hstrict, rfl⟩
      have hconnected : (logic c es).check env = .ok (connected c ps) :=
        check_logic_iff.mpr ⟨hlength, ps, hps, hlogical, rfl⟩
      exact sameTruth_negated_connected c hlogical (checksTo_safe hbuiltin hps hconforms)
        (checksTo_safe hbuiltin hnegations hconforms)
        (checksTo_safe hbuiltin (.cons hconnected .nil) hconforms _ (List.mem_singleton_self _))

def orderEnvironment : Environment where
  record := some (.record [(utf8 "paid", .nullable .boolean), (utf8 "count", .scalar .int)])
  functions := some Registry.builtin
  strictNulls := false

def orderTests : List Expr :=
  [.variable (utf8 "paid"), .null,
    .operator (utf8 "=") [
      .operator (utf8 "/") [.constant (.int 1), .variable (utf8 "count")], .constant (.int 1)]]

/-- Records on which the conjunction is null, false and a failure. -/
def orders : List (List Value) :=
  [[.boolean true, .int 1], [.boolean false, .int 0], [.null, .int 0]]

theorem negation_logic_iff_logic_negations_orders :
    orderEnvironment.functions = some Registry.builtin ∧
    ∃ p q, (negation (.logic .conjunction orderTests)).check orderEnvironment = .ok p ∧
      (logic .disjunction (orderTests.map negation)).check orderEnvironment = .ok q ∧
      p.type = q.type ∧ ∀ record ∈ orders, SameTruth (p.evaluate record) (q.evaluate record) := by
  have hbuiltin : orderEnvironment.functions = some Registry.builtin := rfl
  obtain ⟨hiff, hsame⟩ := negation_logic_iff_logic_negations hbuiltin .conjunction orderTests
  obtain ⟨p, hp⟩ : ∃ p,
      (negation (.logic .conjunction orderTests)).check orderEnvironment = .ok p :=
    exists_of_isOk (by decide +kernel)
  obtain ⟨q, hq⟩ := hiff.mp ⟨p, hp⟩
  obtain ⟨htype, htruth⟩ := hsame p q hp hq
  have hconforms : ∀ record ∈ orders,
      (Value.record record).conformsMissing orderEnvironment.record = true := by decide
  exact ⟨hbuiltin, p, q, hp, hq, htype, fun record hr => htruth record (hconforms record hr)⟩

end Expr

end TypedStream
