import TypedStream.Proofs.CommonType.Least
import TypedStream.Proofs.Elaboration
import TypedStream.Proofs.Operator

namespace TypedStream

open DataType Value

theorem Scalar.mem_all (s : Scalar) : s ∈ Scalar.all := by
  cases s <;> decide

namespace Builtin

open Registry

/-- The operators that compare, with what they ask of the order. -/
def comparisons : List (String × (Ordering → Bool)) :=
  [("=", Ordering.isEq), ("!=", Ordering.isNe), ("<", Ordering.isLT), ("<=", Ordering.isLE),
    (">", Ordering.isGT), (">=", Ordering.isGE)]

def equalities : List String := ["=", "!="]

/-- The scalars that a comparison has an overload for. -/
def compared (name : String) : List Scalar :=
  if name ∈ equalities then Scalar.all else comparableTypes

theorem overloads_comparison : ∀ entry ∈ comparisons,
    builtin.overloads (utf8 entry.1) = comparison (compared entry.1) entry.2 := by
  have hview : ∀ {name : String} {types : List Scalar} {p q : Ordering → Bool},
      table.lookup name = some (comparison types p) → (∀ o, p o = q o) →
        builtin.overloads (utf8 name) = comparison types q := by
    intro name types p q hlookup hpq
    rw [overloads_of_lookup hlookup, funext hpq]
  simp only [comparisons, List.forall_mem_cons, List.not_mem_nil, false_imp_iff, implies_true,
    and_true]
  refine ⟨?_, ?_, ?_, ?_, ?_, ?_⟩
  all_goals exact hview rfl (by decide)

theorem cheapest_same : ∀ entry ∈ comparisons, ∀ s ∈ compared entry.1,
    cheapest (pairCost (some (.scalar s)) (some (.scalar s))) (compared entry.1) = some s := by
  decide +kernel

theorem comparisons_operators : ∀ entry ∈ comparisons, entry.1 ∈ operators := by
  decide

theorem mem_compared_iff {name : String} {s : Scalar} :
    s ∈ compared name ↔ name ∈ equalities ∨ s.isComparable = true := by
  by_cases h : name ∈ equalities
  · simp [compared, h, s.mem_all]
  · simp [compared, h, s.mem_all, comparableTypes]

def comparisonOf (predicate : Ordering → Bool) (s : Scalar) : ScalarFunction :=
  strict .boolean [s, s] "Compares the arguments." (binary (comparing predicate))

theorem bestOverload_same {entry : String × (Ordering → Bool)} (h : entry ∈ comparisons)
    {s : Scalar} (hs : s ∈ compared entry.1) :
    bestOverload (builtin.overloads (utf8 entry.1)) [some (.scalar s), some (.scalar s)] =
      some (comparisonOf entry.2 s) := by
  rw [overloads_comparison entry h, comparison, bestOverload_onPairs (onPairs_map fun _ => rfl),
    cheapest_same entry h s hs]
  rfl

theorem call_comparisonOf (predicate : Ordering → Bool) {s : Scalar} {v w : Value}
    (hv : v.conformsToScalar s = true) (hw : w.conformsToScalar s = true) :
    ∃ o, v.compare? w = some o ∧
      (comparisonOf predicate s).call [v, w] = .ok (.boolean (predicate o)) := by
  obtain ⟨o, ho⟩ := compare?_some hv w
  have hbody : comparing predicate v w = .ok (.boolean (predicate o)) := by rw [comparing, ho]
  refine ⟨o, ho, ?_⟩
  rw [comparisonOf, call_binary (by simpa [conforms] using hv) (by simpa [conforms] using hw),
    hbody]
  intro out hout
  rw [hbody] at hout
  cases hout
  rfl

end Builtin

namespace Plan

variable {bad : Failure → Prop} {record : List Value}

/-- An operand of the type that it is compared as keeps its value on the way, if it is rounded or
has the common type already. -/
theorem evaluate_operand {p : Plan} {t c : DataType} {s : Scalar} {v : Value}
    (hp : p.Safe bad record) (ht : p.type = some t) (hs : t.nonNullable = some (.scalar s))
    (h : t.Through c s) (hv : p.evaluate record = .ok v) (hkept : v.Rounded ∨ t = c) :
    ((p.converted c).toward s).evaluate record = .ok v := by
  rcases hkept with hr | rfl
  · have hc : v.conforms t = true := by simpa [ht, conformsMissing] using hp.ok hv
    have hrounds : p.Rounds record := by
      intro w hw
      cases hv.symm.trans hw
      exact hr
    rw [evaluate_through hp hrounds ht h, evaluate_toward hp hrounds ht h.direct, hv]
    exact convertTo_self hc hr hs
  · have hself : t.toward s = t := by
      rcases nonNullable_scalar_iff.mp hs with rfl | rfl <;> rfl
    rw [converted_self ht, toward_eq ht, hself, converted_self ht, hv]

theorem evaluate_call_pair {name : Text} {f : ScalarFunction} {propagates : Bool}
    {t : Option DataType} {p q : Plan} {v w : Value} (hv : p.evaluate record = .ok v)
    (hw : q.evaluate record = .ok w) (hvn : v.isNull = false) (hwn : w.isNull = false) :
    (call name (some f) propagates t [p, q]).evaluate record =
      inside (.evaluatedFunction name) (f.call [v, w]) := by
  simp only [evaluate, evaluateArguments, hv, hw, inside, bind, Except.bind, hvn, hwn,
    Bool.and_false, Bool.false_eq_true, ↓reduceIte]
  rfl

end Plan

namespace Expr

open Plan

/-- On the record the expression, whose type is the scalar or its nullable version, has the value,
and this is not null. -/
def Yields (env : Environment) (record : List Value) (s : Scalar) (e : Expr) (v : Value) : Prop :=
  ∃ p, e.check env = .ok p ∧ (p.type = some (.scalar s) ∨ p.type = some (.nullable s)) ∧
    p.evaluate record = .ok v ∧ v.isNull = false

/-- What a comparison of two versions of a scalar checks to, if there is an overload for it. -/
theorem check_comparison {env : Environment} (hbuiltin : env.functions = some Registry.builtin)
    {entry : String × (Ordering → Bool)} (hentry : entry ∈ Builtin.comparisons) {a b : Expr}
    {p x y : Plan} (hcheck : (operator (utf8 entry.1) [a, b]).check env = .ok p)
    (hx : a.check env = .ok x) (hy : b.check env = .ok y) {t u : DataType} {s : Scalar}
    (hxt : x.type = some t) (hyu : y.type = some u) (ht : t.nonNullable = some (.scalar s))
    (hu : u.nonNullable = some (.scalar s)) (hs : s ∈ Builtin.compared entry.1) :
    ∃ c, t.commonType u = some c ∧ t.Through c s ∧ u.Through c s ∧
      p = applied (utf8 entry.1) (Builtin.comparisonOf entry.2 s)
        [x.converted c, y.converted c] := by
  have hname := Builtin.comparisons_operators entry hentry
  have hplain := Registry.plain_overloads (Builtin.operators_ne_ifnull entry.1 hname)
  obtain ⟨ps, hps, _, hunify, hbind⟩ := check_operator_iff.mp hcheck
  obtain rfl := hps.unique (.cons hx (.cons hy .nil))
  obtain ⟨c, hc, rfl⟩ := (unify_pair_iff hxt hyu).mp hunify
  have hcc : [x.converted c, y.converted c].map Plan.type = [c, c].map some := by simp
  obtain ⟨f, hf, _, rfl⟩ := (bindCall_plain_iff hbuiltin hplain hcc).mp hbind
  obtain ⟨hbest, _, r, hscalars, htr, hur⟩ := Builtin.bestOverload_common hname hc hf
  rw [List.map_cons, List.map_cons, List.map_nil, ht, hu,
    Builtin.bestOverload_same hentry hs] at hbest
  obtain rfl := Option.some.inj hbest
  obtain rfl : s = r := by simpa [Builtin.comparisonOf] using hscalars
  exact ⟨c, hc, htr, hur, rfl⟩

theorem Yields.operand {env : Environment} (hbuiltin : env.functions = some Registry.builtin)
    {record : List Value} (hrecord : (Value.record record).conformsMissing env.record = true)
    {s : Scalar} {e : Expr} {v : Value} (h : Yields env record s e v) :
    ∃ p t, e.check env = .ok p ∧ p.Safe Failure.IsComputation record ∧ p.type = some t ∧
      t.nonNullable = some (.scalar s) ∧ p.evaluate record = .ok v ∧
      v.conformsToScalar s = true := by
  obtain ⟨p, hp, htype, hv, hn⟩ := h
  have hsafe := ((check_ends (.of_builtin hbuiltin) e).ok hp).safe_of_builtin hbuiltin hrecord
  have hconforms := hsafe.ok hv
  rcases htype with ht | ht
  · rw [ht, conformsMissing, conforms] at hconforms
    exact ⟨p, _, hp, hsafe, ht, rfl, hv, hconforms⟩
  · rw [ht, conformsMissing, conforms_nullable hn] at hconforms
    exact ⟨p, _, hp, hsafe, ht, rfl, hv, hconforms⟩

/-- Comparison operators and the order of values: on two operands of a scalar, or of its nullable
version, an operator that asks for equality asks its question of the order of their values, and so
does every other one if the scalar is comparable. Two FLOATs have to be of single precision or of
the same type: to another version of the type they are rounded. -/
theorem comparison_by_order {env : Environment} (hbuiltin : env.functions = some Registry.builtin)
    {entry : String × (Ordering → Bool)} (hentry : entry ∈ Builtin.comparisons) {a b : Expr}
    {p : Plan} (hcheck : (operator (utf8 entry.1) [a, b]).check env = .ok p) {record : List Value}
    (hrecord : (Value.record record).conformsMissing env.record = true) {s : Scalar} {v w : Value}
    (hv : Yields env record s a v) (hw : Yields env record s b w)
    (hcompared : entry.1 ∈ Builtin.equalities ∨ s.isComparable = true)
    (hkept : v.Rounded ∧ w.Rounded ∨ (a.check env).map Plan.type = (b.check env).map Plan.type) :
    ∃ o, v.compare? w = some o ∧ p.evaluate record = .ok (.boolean (entry.2 o)) := by
  obtain ⟨x, t, hx, hxsafe, hxt, ht, hxv, hvs⟩ := hv.operand hbuiltin hrecord
  obtain ⟨y, u, hy, hysafe, hyu, hu, hyw, hws⟩ := hw.operand hbuiltin hrecord
  obtain ⟨c, hc, htc, huc, rfl⟩ := check_comparison hbuiltin hentry hcheck hx hy hxt hyu ht hu
    (Builtin.mem_compared_iff.mpr hcompared)
  have hkept : (v.Rounded ∨ t = c) ∧ (w.Rounded ∨ u = c) := by
    rcases hkept with ⟨hv, hw⟩ | htypes
    · exact ⟨.inl hv, .inl hw⟩
    · simp only [hx, hy, Except.map, hxt, hyu, Except.ok.injEq, Option.some.injEq] at htypes
      subst u
      have hself := commonType_of_least (left_mem_candidates t t)
        (.of_promotesTo (promotesTo_refl t))
      cases hself.symm.trans hc
      exact ⟨.inr rfl, .inr rfl⟩
  obtain ⟨o, ho, hcall⟩ := Builtin.call_comparisonOf entry.2 hvs hws
  refine ⟨o, ho, (evaluate_call_pair (evaluate_operand hxsafe hxt ht htc hxv hkept.1)
    (evaluate_operand hysafe hyu hu huc hyw hkept.2) (isNull_of_conformsToScalar hvs)
    (isNull_of_conformsToScalar hws)).trans ?_⟩
  rw [hcall]
  rfl

theorem yields_pair {s : Scalar} {t u : DataType} (ht : t = .scalar s ∨ t = .nullable s)
    (hu : u = .scalar s ∨ u = .nullable s) {v w : Value} (hv : v.isNull = false)
    (hw : w.isNull = false) :
    Yields (.lenient (pairFields t u)) [v, w] s (.variable (utf8 "x")) v ∧
      Yields (.lenient (pairFields t u)) [v, w] s (.variable (utf8 "y")) w := by
  refine ⟨⟨.variable (utf8 "x") 0 (some t), rfl, ?_, rfl, hv⟩,
    ⟨.variable (utf8 "y") 1 (some u), rfl, ?_, rfl, hw⟩⟩
  · rcases ht with rfl | rfl
    · exact .inl rfl
    · exact .inr rfl
  · rcases hu with rfl | rfl
    · exact .inl rfl
    · exact .inr rfl

def twoMinutes : Value := .timespan ⟨120000000000⟩

def oneHour : Value := .timespan ⟨3600000000000⟩

/-- Spans are equal or not by their order, also if one of them may be null, and FLOATs of the same
type are compared whatever they hold. -/
theorem comparison_by_order_pairs :
    (∃ p, (pairTest "!=").check
        (.lenient (pairFields (.scalar .timespan) (.nullable .timespan))) = .ok p ∧
      ∃ o, twoMinutes.compare? oneHour = some o ∧
        p.evaluate [twoMinutes, oneHour] = .ok (.boolean o.isNe)) ∧
    ∃ p, (pairTest "<").check
        (.lenient (pairFields (.nullable .float) (.nullable .float))) = .ok p ∧
      ∃ o, tenth.compare? roundTenth = some o ∧
        p.evaluate [tenth, roundTenth] = .ok (.boolean o.isLT) := by
  have hdiffer : ("!=", Ordering.isNe) ∈ Builtin.comparisons := by simp [Builtin.comparisons]
  have hless : ("<", Ordering.isLT) ∈ Builtin.comparisons := by simp [Builtin.comparisons]
  obtain ⟨p, hp⟩ : ∃ p, (pairTest "!=").check
      (.lenient (pairFields (.scalar .timespan) (.nullable .timespan))) = .ok p :=
    exists_of_isOk (by decide +kernel)
  obtain ⟨q, hq⟩ : ∃ q, (pairTest "<").check
      (.lenient (pairFields (.nullable .float) (.nullable .float))) = .ok q :=
    exists_of_isOk (by decide +kernel)
  obtain ⟨ha, hb⟩ := yields_pair (.inl rfl) (.inr rfl) (v := twoMinutes) (w := oneHour) rfl rfl
  obtain ⟨hx, hy⟩ := yields_pair (.inr rfl) (.inr rfl) (v := tenth) (w := roundTenth) rfl rfl
  exact ⟨⟨p, hp, comparison_by_order rfl hdiffer hp rfl ha hb (.inl (by decide))
      (.inl ⟨trivial, trivial⟩)⟩,
    q, hq, comparison_by_order rfl hless hq rfl hx hy (.inr rfl) (.inr rfl)⟩

/-- Two minutes are less than an hour and not less by their texts `2m0s` and `1h0m0s`. A tenth of
double precision is less than one of single precision and equal to it once it is rounded. -/
theorem order_not_kept :
    (Value.record [twoMinutes, oneHour]).conforms
      (.record (pairFields (.scalar .timespan) (.scalar .timespan))) = true ∧
    (∃ p, (pairTest "<").check (.lenient (pairFields (.scalar .timespan) (.scalar .timespan))) =
        .ok p ∧
      twoMinutes.compare? oneHour = some .lt ∧
      p.evaluate [twoMinutes, oneHour] = .ok (.boolean false)) ∧
    (Value.record [tenth, roundTenth]).conforms (.record floatFields) = true ∧
    ∃ p, (pairTest "=").check (.lenient floatFields) = .ok p ∧
      tenth.compare? roundTenth = some .lt ∧
      p.evaluate [tenth, roundTenth] = .ok (.boolean true) := by
  obtain ⟨p, hp, hspans⟩ := answer?_eq_some.mp (show (pairTest "<").answer?
    (.lenient (pairFields (.scalar .timespan) (.scalar .timespan))) [twoMinutes, oneHour] =
      some false by decide +kernel)
  obtain ⟨q, hq, htenths⟩ := tenths_equal
  exact ⟨rfl, ⟨p, hp, by decide +kernel, hspans⟩, rfl, q, hq, by decide +kernel, htenths⟩

end Expr

end TypedStream
