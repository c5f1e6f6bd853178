import TypedStream.Plan.Dump
import TypedStream.Proofs.Elaboration

namespace TypedStream

/-- The environment with nullable arguments refused where a function has no use for null, or not. -/
abbrev Environment.withStrictNulls (env : Environment) (strict : Bool) : Environment :=
  { env with strictNulls := strict }

namespace Plan

/-- Null goes through no call of the plan. -/
def NeverPropagates (p : Plan) : Prop := ∀ q : Plan, q.Part p → q.propagates = false

theorem neverPropagates_iff {p : Plan} :
    p.NeverPropagates ↔ p.propagates = false ∧ ∀ child ∈ p.children, child.NeverPropagates := by
  constructor
  · intro h
    exact ⟨h p .whole, fun child hchild q hq => h q (.under hchild hq)⟩
  · rintro ⟨hself, hchildren⟩ q hq
    rcases part_iff.mp hq with rfl | ⟨child, hchild, hq⟩
    · exact hself
    · exact hchildren child hchild q hq

theorem neverPropagates_leaf {p : Plan} (hself : p.propagates = false) (h : p.children = []) :
    p.NeverPropagates := by
  rw [neverPropagates_iff, h]
  exact ⟨hself, by simp⟩

theorem Wraps.neverPropagates_iff {p q : Plan} (h : p.Wraps q) :
    q.NeverPropagates ↔ p.NeverPropagates := by
  constructor
  · intro hq r hr
    exact hq r (hr.trans h.part)
  · intro hp r hr
    rcases h.part_cases hr with hr | ⟨s, t, rfl⟩
    · exact hp r hr
    · rfl

/-- Whether null goes through a node over converted arguments, the conversions have no part in. -/
theorem neverPropagates_iff_of_wraps {r : Plan} {ps : List Plan}
    (h : List.Forall₂ Wraps ps r.children) :
    r.NeverPropagates ↔ r.propagates = false ∧ ∀ p ∈ ps, p.NeverPropagates := by
  rw [neverPropagates_iff]
  refine and_congr_right fun _ => ⟨fun hall p hp => ?_, fun hall q hq => ?_⟩
  · obtain ⟨q, hq, hpq⟩ := forall₂_mem_left h hp
    exact hpq.neverPropagates_iff.mp (hall q hq)
  · obtain ⟨p, hp, hpq⟩ := forall₂_mem_right h hq
    exact hpq.neverPropagates_iff.mpr (hall p hp)

end Plan

namespace Expr

open Plan

variable {env : Environment} {ps : List Plan}

/-- A call is refused for its nullable arguments if null would go through it. -/
theorem bindCall_strictNulls_iff {name : Text} {r : Plan} :
    bindCall (env.withStrictNulls true) name ps = .ok r ↔
      bindCall (env.withStrictNulls false) name ps = .ok r ∧ r.propagates = false := by
  simp only [bindCall_ok_iff, Bool.and_true, Bool.and_false, true_and]
  constructor
  · rintro ⟨registry, b, qs, hf, hb, hn, hqs, rfl⟩
    exact ⟨⟨registry, b, qs, hf, hb, hqs, rfl⟩, hn⟩
  · rintro ⟨⟨registry, b, qs, hf, hb, hqs, rfl⟩, hn⟩
    exact ⟨registry, b, qs, hf, hb, hn, hqs, rfl⟩

theorem checksTo_strictNulls_iff {es : List Expr}
    (h : ∀ e ∈ es, ∀ p, e.check (env.withStrictNulls true) = .ok p ↔
      e.check (env.withStrictNulls false) = .ok p ∧ p.NeverPropagates) :
    ChecksTo (env.withStrictNulls true) es ps ↔
      ChecksTo (env.withStrictNulls false) es ps ∧ ∀ p ∈ ps, p.NeverPropagates := by
  induction es generalizing ps with
  | nil =>
    simp only [List.forall₂_nil_left_iff, iff_self_and]
    rintro rfl p hp
    cases hp
  | cons e es ih =>
    obtain ⟨he, hes⟩ := List.forall_mem_cons.mp h
    cases ps with
    | nil => simp
    | cons p ps =>
      simp only [List.forall₂_cons, List.forall_mem_cons, he p, ih hes]
      exact and_and_and_comm

/-- What the setting does to a node over arguments: it adds the condition that null does not go
through the node to the same conditions on its arguments. -/
theorem node_strictNulls_iff {es : List Expr} {r : Plan}
    (h : ∀ e ∈ es, ∀ p, e.check (env.withStrictNulls true) = .ok p ↔
      e.check (env.withStrictNulls false) = .ok p ∧ p.NeverPropagates)
    {strict lenient : List Plan → Prop}
    (hnode : ∀ ps, strict ps ↔ lenient ps ∧ r.propagates = false)
    (hwraps : ∀ ps, lenient ps → List.Forall₂ Wraps ps r.children) :
    (∃ ps, ChecksTo (env.withStrictNulls true) es ps ∧ strict ps) ↔
      (∃ ps, ChecksTo (env.withStrictNulls false) es ps ∧ lenient ps) ∧ r.NeverPropagates := by
  constructor
  · rintro ⟨ps, hps, hstrict⟩
    obtain ⟨hps, hnever⟩ := (checksTo_strictNulls_iff h).mp hps
    obtain ⟨hlenient, hn⟩ := (hnode ps).mp hstrict
    exact ⟨⟨ps, hps, hlenient⟩, (neverPropagates_iff_of_wraps (hwraps ps hlenient)).mpr ⟨hn, hnever⟩⟩
  · rintro ⟨⟨ps, hps, hlenient⟩, hnever⟩
    obtain ⟨hn, hnever⟩ := (neverPropagates_iff_of_wraps (hwraps ps hlenient)).mp hnever
    exact ⟨ps, (checksTo_strictNulls_iff h).mpr ⟨hps, hnever⟩, (hnode ps).mpr ⟨hlenient, hn⟩⟩

/-- An expression checks with nullable arguments refused if and only if it checks to the same plan
without that and null goes through no call of the plan. -/
theorem check_strictNulls_iff (env : Environment) (e : Expr) (p : Plan) :
    e.check (env.withStrictNulls true) = .ok p ↔
      e.check (env.withStrictNulls false) = .ok p ∧ p.NeverPropagates := by
  induction e using argumentInduction generalizing p with
  | step e ih =>
    cases e with
    | «variable» name =>
      rw [check, check]
      refine iff_self_and.mpr fun h => ?_
      obtain ⟨_, i, t, _, _, _, rfl⟩ := checkVariable_ok_iff.mp h
      exact neverPropagates_leaf rfl rfl
    | constant v =>
      rw [check, check]
      refine iff_self_and.mpr fun h => ?_
      obtain ⟨t, rfl⟩ := checkConstant_ok h
      exact neverPropagates_leaf rfl rfl
    | null =>
      rw [check, check]
      refine iff_self_and.mpr fun h => ?_
      cases h
      exact neverPropagates_leaf rfl rfl
    | call name args =>
      rw [check_call_iff, check_call_iff]
      exact node_strictNulls_iff ih (fun _ => bindCall_strictNulls_iff) (fun _ => bindCall_wraps)
    | operator name args =>
      rw [check_operator_iff, check_operator_iff]
      refine node_strictNulls_iff ih (fun ps => ?_) (fun ps => ?_)
      · simp only [bindCall_strictNulls_iff, ← and_assoc, exists_and_right]
      · rintro ⟨qs, hunify, hbind⟩
        exact operator_wraps hunify hbind
    | logic c args =>
      rw [check_logic_iff, check_logic_iff, and_assoc]
      refine and_congr_right fun _ => node_strictNulls_iff ih (fun ps => ?_) (fun ps => ?_)
      · refine iff_self_and.mpr ?_
        rintro ⟨_, rfl⟩
        rfl
      · rintro ⟨_, rfl⟩
        exact connected_wraps c ps

end Expr

end TypedStream
