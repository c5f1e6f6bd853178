import TypedStream.Proofs.Builtin.Plain
import TypedStream.Proofs.CommonType
import TypedStream.Proofs.Elaboration
import TypedStream.Proofs.Safety

namespace TypedStream

open DataType Value

/-- A type reaches a parameter's scalar by way of a common type, and one of the two conversions has
nothing to do. -/
structure DataType.Through (t common : DataType) (s : Scalar) : Prop where
  first : t.promotesTo common = true
  second : common.promotesTo (common.toward s) = true
  direct : t.promotesTo (t.toward s) = true
  idle : t.nonNullable = none ∨ t.nonNullable = common.nonNullable ∨
    common.nonNullable = some (.scalar s)

namespace Registry

theorem cheaper_foldl_none {α : Type} {cost : α → Option Nat} {choices : List α}
    (h : ∀ a ∈ choices, cost a = none) (best : Option (α × Nat)) :
    choices.foldl (cheaper cost) best = best := by
  induction choices generalizing best with
  | nil => rfl
  | cons a choices ih =>
    rw [List.foldl_cons, ih fun b hb => h b (List.mem_cons_of_mem a hb)]
    simp only [cheaper, h a List.mem_cons_self]

theorem cheaper_foldl_map {α β : Type} (cost : β → Option Nat) (g : α → β) (choices : List α)
    (best : Option (α × Nat)) :
    (choices.map g).foldl (cheaper cost) (best.map (Prod.map g id)) =
      (choices.foldl (cheaper fun a => cost (g a)) best).map (Prod.map g id) := by
  induction choices generalizing best with
  | nil => rfl
  | cons a choices ih =>
    rw [List.map_cons, List.foldl_cons, List.foldl_cons, ← ih]
    congr 1
    dsimp only [cheaper]
    cases cost (g a) with
    | none => rfl
    | some c =>
      cases best with
      | none => rfl
      | some b =>
        simp only [Option.map_some, Prod.map, id]
        split <;> rfl

/-- What depends on a parameter is chosen by it, whatever cannot be chosen stands behind. -/
theorem cheapest_map {α β : Type} {cost : β → Option Nat} (g : α → β) (choices : List α)
    {rest : List β} (h : ∀ b ∈ rest, cost b = none) :
    cheapest cost (choices.map g ++ rest) = (cheapest (fun a => cost (g a)) choices).map g := by
  rw [cheapest, List.foldl_append, cheaper_foldl_none h, cheapest]
  have hmap : (choices.map g).foldl (cheaper cost) none =
      (choices.foldl (cheaper fun a => cost (g a)) none).map (Prod.map g id) :=
    cheaper_foldl_map cost g choices none
  rw [hmap, Option.map_map, Option.map_map]
  rfl

/-- The cost of two arguments whose parameters have one type. -/
def pairCost (a b : Option DataType) (s : Scalar) : Option Nat :=
  cost? [a, b] [some (.scalar s), some (.scalar s)]

end Registry

namespace Builtin

open Registry

def operators : List String := ["+", "-", "*", "/", "%", "=", "!=", "<", "<=", ">", ">="]

theorem operators_ne_ifnull : ∀ name ∈ operators, utf8 name ≠ utf8 "ifnull" := by
  decide +kernel

/-- The types that operators have overloads for. -/
def operandTypes : List (List Scalar) :=
  [numericTypes, [.int, .bigint], Scalar.all, comparableTypes]

/-- One overload on two operands of each of the types, and none on two others. -/
def OnPairs (fs : List ScalarFunction) (types : List Scalar) (g : Scalar → ScalarFunction) : Prop :=
  (∀ s, (g s).parameters = [some (.scalar s), some (.scalar s)]) ∧
    ∃ rest, fs = types.map g ++ rest ∧ ∀ f ∈ rest, f.parameters.length = 1

theorem bestOverload_onPairs {fs : List ScalarFunction} {types : List Scalar}
    {g : Scalar → ScalarFunction} (h : OnPairs fs types g) (a b : Option DataType) :
    bestOverload fs [a, b] = (cheapest (pairCost a b) types).map g := by
  obtain ⟨hg, rest, rfl, hrest⟩ := h
  rw [bestOverload, cheapest_map]
  · simp only [hg]
    rfl
  · intro f hf
    cases hc : cost? [a, b] f.parameters with
    | none => rfl
    | some c =>
      have hl := cost?_length hc
      rw [hrest f hf] at hl
      cases hl

theorem onPairs_map {types : List Scalar} {g : Scalar → ScalarFunction}
    (hg : ∀ s, (g s).parameters = [some (.scalar s), some (.scalar s)]) :
    OnPairs (types.map g) types g :=
  ⟨hg, [], (List.append_nil _).symm, by simp⟩

theorem onPairs_table : ∀ entry ∈ table, entry.1 ∈ operators →
    ∃ types ∈ operandTypes, ∃ g, OnPairs entry.2 types g := by
  simp only [table, List.forall_mem_cons, List.not_mem_nil, false_imp_iff, implies_true, and_true]
  refine ⟨?_, ?_, ?_, ?_, ?_, ?_, ?_, ?_, ?_, ?_, ?_, ?_, ?_, ?_, ?_, ?_, ?_, ?_, ?_⟩ <;>
    intro hname
  · exact ⟨numericTypes, by decide, _, onPairs_map fun _ => rfl⟩
  · refine ⟨numericTypes, by decide, _, fun _ => rfl, _, rfl, ?_⟩
    intro f hf
    obtain ⟨s, _, rfl⟩ := List.mem_map.mp hf
    rfl
  · exact ⟨numericTypes, by decide, _, onPairs_map fun _ => rfl⟩
  · exact ⟨numericTypes, by decide, _, onPairs_map fun _ => rfl⟩
  · exact ⟨[.int, .bigint], by decide, _, onPairs_map fun _ => rfl⟩
  · exact ⟨Scalar.all, by decide, _, onPairs_map fun _ => rfl⟩
  · exact ⟨Scalar.all, by decide, _, onPairs_map fun _ => rfl⟩
  · exact ⟨comparableTypes, by decide, _, onPairs_map fun _ => rfl⟩
  · exact ⟨comparableTypes, by decide, _, onPairs_map fun _ => rfl⟩
  · exact ⟨comparableTypes, by decide, _, onPairs_map fun _ => rfl⟩
  · exact ⟨comparableTypes, by decide, _, onPairs_map fun _ => rfl⟩
  all_goals exact absurd hname (by decide)

theorem overloads_operator {name : String} (h : name ∈ operators) :
    ∃ types ∈ operandTypes, ∃ g, OnPairs (builtin.overloads (utf8 name)) types g := by
  have hall : ∀ n ∈ operators, n ∈ table.map Prod.fst := by decide
  obtain ⟨⟨_, fs⟩, hentry, rfl⟩ := List.mem_map.mp (hall name h)
  rw [overloads_builtin hentry]
  exact onPairs_table _ hentry h

/-- The common type of two operands leads to the overload that their own types lead to, and each
operand has that type already or is to have it. -/
def leads (types : List Scalar) (a b : DataType) : Bool :=
  match a.commonType b with
  | none => true
  | some c =>
    match cheapest (pairCost c.nonNullable c.nonNullable) types with
    | none => true
    | some s =>
      cheapest (pairCost a.nonNullable b.nonNullable) types == some s &&
      c.isNullable == (a.isNullable || b.isNullable) &&
      [a, b].all fun t => t.nonNullable.isNone || equalMissing t.nonNullable c.nonNullable ||
        equalMissing c.nonNullable (some (.scalar s))

theorem leads_primitives :
    ∀ types ∈ operandTypes, ∀ a ∈ primitives, ∀ b ∈ primitives, leads types a b = true := by
  decide +kernel

theorem cheapest_common {types : List Scalar} (ht : types ∈ operandTypes) {a b c : DataType}
    {s : Scalar} (hc : a.commonType b = some c) (hprimitive : c.isPrimitive = true)
    (hs : cheapest (pairCost c.nonNullable c.nonNullable) types = some s) :
    cheapest (pairCost a.nonNullable b.nonNullable) types = some s ∧
      c.isNullable = (a.isNullable || b.isNullable) ∧
      ∀ t ∈ [a, b], t.nonNullable = none ∨ t.nonNullable = c.nonNullable ∨
        c.nonNullable = some (.scalar s) := by
  obtain ⟨hac, hbc⟩ := commonType_promotes hc
  have hleads := leads_primitives types ht
    a (mem_primitives (isPrimitive_of_promotesTo hac hprimitive))
    b (mem_primitives (isPrimitive_of_promotesTo hbc hprimitive))
  simp only [leads, hc, hs, Bool.and_eq_true, beq_iff_eq, List.all_eq_true, Bool.or_eq_true,
    equalMissing_iff, Option.isNone_iff_eq_none, or_assoc] at hleads
  exact ⟨hleads.1.1, hleads.1.2, hleads.2⟩

theorem toward_of_bestOverload {fs : List ScalarFunction} {types : List Scalar}
    {g : Scalar → ScalarFunction} (h : OnPairs fs types g) {a b : DataType} {s : Scalar}
    (hbest : bestOverload fs ([a, b].map nonNullable) = some (g s)) :
    a.promotesTo (a.toward s) = true ∧ b.promotesTo (b.toward s) = true := by
  obtain ⟨_, _, hcost⟩ := bestOverload_some hbest
  rw [h.1 s] at hcost
  have hfit : List.Forall₂ (fun t s => t.promotesTo (t.toward s) = true) [a, b] [s, s] :=
    cost?_toward hcost
  simpa using hfit

/-- The overload for two operands of the common type is the one for the operands as they are. -/
theorem bestOverload_common {name : String} (hname : name ∈ operators) {a b c : DataType}
    {f : ScalarFunction} (hc : a.commonType b = some c)
    (hf : bestOverload (builtin.overloads (utf8 name)) ([c, c].map nonNullable) = some f) :
    bestOverload (builtin.overloads (utf8 name)) ([a, b].map nonNullable) = some f ∧
      c.isNullable = (a.isNullable || b.isNullable) ∧
      ∃ s, f.scalars = [s, s] ∧ a.Through c s ∧ b.Through c s := by
  obtain ⟨types, htypes, g, hpairs⟩ := overloads_operator hname
  obtain ⟨s, hs, rfl⟩ : ∃ s, cheapest (pairCost c.nonNullable c.nonNullable) types = some s ∧
      g s = f := by
    simpa [bestOverload_onPairs hpairs] using hf
  obtain ⟨hcs, _⟩ := toward_of_bestOverload hpairs hf
  obtain ⟨hcheapest, hnull, hidle⟩ := cheapest_common htypes hc (isPrimitive_of_toward hcs) hs
  have hbest : bestOverload (builtin.overloads (utf8 name)) ([a, b].map nonNullable) =
      some (g s) := by
    simp [bestOverload_onPairs hpairs, hcheapest]
  obtain ⟨hac, hbc⟩ := commonType_promotes hc
  obtain ⟨has, hbs⟩ := toward_of_bestOverload hpairs hbest
  refine ⟨hbest, hnull, s, by simp [ScalarFunction.scalars, hpairs.1], ?_, ?_⟩
  · exact ⟨hac, hcs, has, hidle a (by simp)⟩
  · exact ⟨hbc, hcs, hbs, hidle b (by simp)⟩

end Builtin

namespace Plan

variable {bad : Failure → Prop} {record : List Value}

/-- A conversion to the common type may come before the one to the parameter's. -/
theorem evaluate_through {p : Plan} {t c : DataType} {s : Scalar} (hp : p.Safe bad record)
    (hr : p.Rounds record) (ht : p.type = some t) (h : t.Through c s) :
    ((p.converted c).toward s).evaluate record = (p.toward s).evaluate record := by
  by_cases hb : ∃ b, c.nonNullable = some (.scalar b)
  · obtain ⟨b, hbare⟩ := hb
    rw [evaluate_toward (hp.converted ht h.first) (hr.converted ht h.first) (type_converted p c)
      h.second, evaluate_toward hp hr ht h.direct, evaluate_convertTo hp hr ht h.first hbare]
    cases hv : p.evaluate record with
    | error f => rfl
    | ok v =>
      have hc : v.conforms t = true := by simpa [ht, conformsMissing] using hp.ok hv
      have hidle := h.idle
      rw [hbare] at hidle
      refine convertTo_convertTo hc (hr v hv) ?_ (by simpa using hidle)
      rw [← promotesTo_toward]
      exact h.direct
  · -- Nothing is converted on the way: the common type is the operand's own.
    have hself := eq_of_promotesTo h.first (not_exists.mp hb)
    rw [converted_self (hself ▸ ht)]

end Plan

namespace Expr

open Plan

theorem ChecksTo.pair {env : Environment} (henv : env.Typed) {a b : Expr} {ps : List Plan}
    (h : ChecksTo env [a, b] ps) :
    ∃ p q s t, ps = [p, q] ∧ a.check env = .ok p ∧ b.check env = .ok q ∧ p.type = some s ∧
      q.type = some t := by
  cases h with
  | cons hp hrest =>
    cases hrest with
    | cons hq hnil =>
      cases hnil
      obtain ⟨s, hs⟩ := ((check_ends henv a).ok hp).type_some
      obtain ⟨t, ht⟩ := ((check_ends henv b).ok hq).type_some
      exact ⟨_, _, s, t, rfl, hp, hq, hs, ht⟩

/-- An operator that checks is the call of the same overload, with the same treatment of null and
the same type, as the call by its name. Both have the same value or the same failure on every record
on which no operand is a FLOAT beyond single precision. -/
theorem operator_check_call {env : Environment} (hbuiltin : env.functions = some Registry.builtin)
    {name : String} (hname : name ∈ Builtin.operators) {a b : Expr} {p : Plan}
    (hcheck : (operator (utf8 name) [a, b]).check env = .ok p) :
    ∃ q, (call (utf8 name) [a, b]).check env = .ok q ∧
      (∃ f ∈ Registry.builtin.overloads (utf8 name), ∃ propagates t ps qs,
        p = .call (utf8 name) (some f) propagates (some t) ps ∧
        q = .call (utf8 name) (some f) propagates (some t) qs) ∧
      ∀ record : List Value, (Value.record record).conformsMissing env.record = true →
        (∀ e ∈ [a, b], ∀ x, e.check env = .ok x → x.Rounds record) →
          p.evaluate record = q.evaluate record := by
  have henv := Environment.Typed.of_builtin hbuiltin
  have hplain := Registry.plain_overloads (Builtin.operators_ne_ifnull name hname)
  obtain ⟨_, hps, _, hunify, hbind⟩ := check_operator_iff.mp hcheck
  obtain ⟨x, y, s, t, rfl, hax, hby, hxs, hyt⟩ := hps.pair henv
  obtain ⟨c, hc, rfl⟩ := (unify_pair_iff hxs hyt).mp hunify
  have hcc : [x.converted c, y.converted c].map Plan.type = [c, c].map some := by simp
  have hst : [x, y].map Plan.type = [s, t].map some := by simp [hxs, hyt]
  obtain ⟨f, hf, hstrict, rfl⟩ := (bindCall_plain_iff hbuiltin hplain hcc).mp hbind
  obtain ⟨hbest, hnull, u, hscalars, hsu, htu⟩ := Builtin.bestOverload_common hname hc hf
  have hmem := (Registry.bestOverload_some hf).1
  have hany : [x.converted c, y.converted c].any Plan.isNullable = [x, y].any Plan.isNullable := by
    simp [Plan.isNullable, hxs, hyt, hnull]
  refine ⟨applied (utf8 name) f [x, y], ?_, ?_, ?_⟩
  · refine check_call_iff.mpr ⟨_, hps, (bindCall_plain_iff hbuiltin hplain hst).mpr ?_⟩
    exact ⟨f, hbest, by simpa [hnull] using hstrict, rfl⟩
  · obtain ⟨r, hr⟩ := (hplain f hmem).resultFor_some ([x, y].any Plan.isNullable)
    exact ⟨f, hmem, _, r, _, _, by rw [applied, hany, hr], by rw [applied, hr]⟩
  · intro record hrecord hrounds
    have hsafe : ∀ {e : Expr} {p : Plan}, e.check env = .ok p →
        p.Safe Failure.IsComputation record :=
      fun hp => ((check_ends henv _).ok hp).safe_of_builtin hbuiltin hrecord
    refine evaluate_call_congr ?_
    rw [hscalars]
    refine .cons ⟨?_, fun v _ => by rw [hany]⟩ (.cons ⟨?_, fun v _ => by rw [hany]⟩ .nil)
    · exact evaluate_through (hsafe hax) (hrounds a (by simp) x hax) hxs hsu
    · exact evaluate_through (hsafe hby) (hrounds b (by simp) y hby) hyt htu

def mixedEnvironment : Environment :=
  .lenient [(utf8 "n", .nullable .float), (utf8 "s", .scalar .string)]

/-- `n = s` compares texts, and the number is converted twice on the way. -/
theorem operator_check_call_mixed :
    ∃ p q, (operator (utf8 "=") [.variable (utf8 "n"), .variable (utf8 "s")]).check
        mixedEnvironment = .ok p ∧
      (call (utf8 "=") [.variable (utf8 "n"), .variable (utf8 "s")]).check
        mixedEnvironment = .ok q ∧
      (∃ f ∈ Registry.builtin.overloads (utf8 "="), ∃ propagates t ps qs,
        p = .call (utf8 "=") (some f) propagates (some t) ps ∧
        q = .call (utf8 "=") (some f) propagates (some t) qs) ∧
      p.evaluate [roundTenth, .string (utf8 "0.1")] =
        q.evaluate [roundTenth, .string (utf8 "0.1")] := by
  obtain ⟨p, hp⟩ : ∃ p, (operator (utf8 "=") [.variable (utf8 "n"), .variable (utf8 "s")]).check
      mixedEnvironment = .ok p := exists_of_isOk (by decide +kernel)
  obtain ⟨q, hq, hcalls, hvalues⟩ := operator_check_call rfl (by decide) hp
  refine ⟨p, q, hp, hq, hcalls, hvalues _ (by decide +kernel) ?_⟩
  simp only [List.forall_mem_cons, List.not_mem_nil, false_imp_iff, implies_true, and_true]
  constructor
  · intro x hx v hv
    cases hx
    cases hv
    decide +kernel
  · intro x hx v hv
    cases hx
    cases hv
    trivial

/-- The operator rounds a FLOAT on the way to the common type of its operands, and the call does
not. -/
theorem operator_rounds_operand :
    (Value.record [tenth, roundTenth]).conforms (.record floatFields) = true ∧
    ∃ p q, (operator (utf8 "=") [.variable (utf8 "x"), .variable (utf8 "y")]).check
        (.lenient floatFields) = .ok p ∧
      (call (utf8 "=") [.variable (utf8 "x"), .variable (utf8 "y")]).check
        (.lenient floatFields) = .ok q ∧
      p.evaluate [tenth, roundTenth] = .ok (.boolean true) ∧
      q.evaluate [tenth, roundTenth] = .ok (.boolean false) := by
  obtain ⟨p, hp, htrue⟩ := tenths_equal
  obtain ⟨q, hq, hfalse⟩ := answer?_eq_some.mp (show
    (call (utf8 "=") [.variable (utf8 "x"), .variable (utf8 "y")]).answer?
      (.lenient floatFields) [tenth, roundTenth] = some false by decide +kernel)
  exact ⟨rfl, p, q, hp, hq, htrue, hfalse⟩

end Expr

end TypedStream
