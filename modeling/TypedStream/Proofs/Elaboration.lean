import TypedStream.Proofs.Connective

namespace TypedStream

namespace Plan

/-- Induction on a plan, with the statement at hand for everything directly below a node. -/
@[elab_as_elim]
theorem childInduction {motive : Plan → Prop}
    (step : ∀ p : Plan, (∀ child ∈ p.children, motive child) → motive p) (p : Plan) : motive p :=
  @Plan.rec motive (fun ps => ∀ p ∈ ps, motive p)
    (fun name i t => step (.variable name i t) (fun _ h => nomatch h))
    (fun v t => step (.constant v t) (fun _ h => nomatch h))
    (fun name f propagates t args ih => step (.call name f propagates t args) ih)
    (fun p t ih => step (.promotion p t) (List.forall_mem_singleton.mpr ih))
    (fun c t args ih => step (.logic c t args) ih)
    (fun _ h => nomatch h)
    (fun _ _ ih ihs => List.forall_mem_cons.mpr ⟨ih, ihs⟩)
    p

/-- The first plan is the second or stands somewhere in it. -/
inductive Part (q : Plan) : Plan → Prop
  | whole : Part q q
  | under {p child : Plan} (mem : child ∈ p.children) (part : Part q child) : Part q p

theorem Part.trans {p q r : Plan} (hrq : r.Part q) (hqp : q.Part p) : r.Part p := by
  induction hqp with
  | whole => exact hrq
  | under mem _ ih => exact .under mem ih

theorem part_iff {p q : Plan} : q.Part p ↔ q = p ∨ ∃ child ∈ p.children, q.Part child := by
  constructor
  · intro h
    cases h with
    | whole => exact .inl rfl
    | under mem part => exact .inr ⟨_, mem, part⟩
  · rintro (rfl | ⟨child, mem, part⟩)
    · exact .whole
    · exact .under mem part

/-- The second plan is the first with conversions on top, if any. -/
inductive Wraps (p : Plan) : Plan → Prop
  | self : Wraps p p
  | promotion {q : Plan} {t : DataType} (inner : Wraps p q) : Wraps p (.promotion q t)

theorem Wraps.trans {p q r : Plan} (hpq : p.Wraps q) (hqr : q.Wraps r) : p.Wraps r := by
  induction hqr with
  | self => exact hpq
  | promotion _ ih => exact .promotion ih

theorem Wraps.part {p q : Plan} (h : p.Wraps q) : p.Part q := by
  induction h with
  | self => exact .whole
  | promotion _ ih => exact .under List.mem_cons_self ih

theorem Wraps.part_cases {p q r : Plan} (h : p.Wraps q) (hr : r.Part q) :
    r.Part p ∨ ∃ s t, r = .promotion s t := by
  induction h with
  | self => exact .inl hr
  | @promotion q t _ ih =>
    rcases part_iff.mp hr with rfl | ⟨child, hchild, hr⟩
    · exact .inr ⟨q, t, rfl⟩
    · cases List.mem_singleton.mp hchild
      exact ih hr

/-- The number of conversions on top. -/
def promotions : Plan → Nat
  | .promotion p _ => p.promotions + 1
  | _ => 0

/-- The second plan is the first with at most `n` more conversions on top. -/
def WrapsUpTo (n : Nat) (p q : Plan) : Prop := p.Wraps q ∧ q.promotions ≤ p.promotions + n

theorem WrapsUpTo.self (n : Nat) (p : Plan) : p.WrapsUpTo n p := ⟨.self, Nat.le_add_right _ _⟩

theorem WrapsUpTo.promotion (p : Plan) (t : DataType) : p.WrapsUpTo 1 (.promotion p t) :=
  ⟨.promotion .self, Nat.le_refl _⟩

theorem WrapsUpTo.trans {m n : Nat} {p q r : Plan} (hpq : p.WrapsUpTo m q)
    (hqr : q.WrapsUpTo n r) : p.WrapsUpTo (m + n) r := by
  refine ⟨hpq.1.trans hqr.1, ?_⟩
  have hq := hpq.2
  have hr := hqr.2
  omega

theorem converted_wraps (p : Plan) (t : DataType) : p.WrapsUpTo 1 (p.converted t) := by
  unfold converted
  split
  · exact .self 1 p
  · exact .promotion p t

/-- A conversion adds nothing to a plan that has the type, and otherwise one node where the types
allow it. -/
theorem promoteTo_ok_iff {p q : Plan} {target : Option DataType} :
    p.promoteTo target = .ok q ↔ p.type = target ∧ q = p ∨ p.type ≠ target ∧
      ∃ s t, p.type = some s ∧ target = some t ∧ s.promotesTo t = true ∧ q = .promotion p t := by
  unfold promoteTo
  split
  · rename_i he
    have htype := (DataType.equalMissing_iff _ _).mp he
    constructor
    · intro h
      exact .inl ⟨htype, (Except.ok.inj h).symm⟩
    · rintro (⟨_, rfl⟩ | ⟨hne, _⟩)
      · rfl
      · exact absurd htype hne
  · rename_i hne
    have htype : p.type ≠ target := fun h => hne ((DataType.equalMissing_iff _ _).mpr h)
    simp only [htype, false_and, false_or, ne_eq, not_false_eq_true, true_and]
    constructor
    · intro h
      split at h
      · split at h
        · rename_i s t hs hst
          cases h
          exact ⟨s, t, hs, rfl, hst, rfl⟩
        · cases h
      · cases h
    · rintro ⟨s, t, hs, rfl, hst, rfl⟩
      simp [hs, hst]

theorem promoteTo_wraps {p q : Plan} {target : Option DataType} (h : p.promoteTo target = .ok q) :
    p.WrapsUpTo 1 q := by
  rcases promoteTo_ok_iff.mp h with ⟨_, rfl⟩ | ⟨_, s, t, _, _, _, rfl⟩
  · exact .self 1 q
  · exact .promotion p t

end Plan

namespace Expr

open Plan

def arguments : Expr → List Expr
  | .variable _ | .constant _ | .null => []
  | .call _ args | .operator _ args | .logic _ args => args

/-- How many conversions an argument gets at most: two operands are brought to a common type before
they are bound. -/
def conversions : Expr → Nat
  | .operator _ [_, _] => 2
  | _ => 1

/-- Induction on an expression, with the statement at hand for all arguments. -/
@[elab_as_elim]
theorem argumentInduction {motive : Expr → Prop}
    (step : ∀ e : Expr, (∀ a ∈ e.arguments, motive a) → motive e) (e : Expr) : motive e :=
  @Expr.rec motive (fun es => ∀ e ∈ es, motive e)
    (fun name => step (.variable name) (fun _ h => nomatch h))
    (fun v => step (.constant v) (fun _ h => nomatch h))
    (step .null (fun _ h => nomatch h))
    (fun name args ih => step (.call name args) ih)
    (fun name args ih => step (.operator name args) ih)
    (fun c args ih => step (.logic c args) ih)
    (fun _ h => nomatch h)
    (fun _ _ ih ihs => List.forall_mem_cons.mpr ⟨ih, ihs⟩)
    e

variable {env : Environment} {ps : List Plan}

theorem checkVariable_ok_iff {name : Text} {p : Plan} :
    checkVariable env name = .ok p ↔ ∃ r i t, env.record = some r ∧ r.fieldIndex name = some i ∧
      r.fields[i]? = some (name, t) ∧ p = .variable name i (some t) := by
  unfold checkVariable
  cases hr : env.record with
  | none => simp
  | some r =>
    dsimp only [Option.map_some, Option.getD_some]
    cases hi : r.fields.findIdx? (·.1 == name) with
    | none => simp [DataType.fieldIndex, hi]
    | some i =>
      obtain ⟨hlt, hname, _⟩ := List.findIdx?_eq_some_iff_getElem.mp hi
      have hf : r.fields[i]? = some (name, r.fields[i].2) := by
        rw [List.getElem?_eq_getElem hlt, ← beq_iff_eq.mp hname]
      simp only [hf, Option.map_some]
      constructor
      · intro h
        exact ⟨r, i, r.fields[i].2, rfl, hi, hf, (Except.ok.inj h).symm⟩
      · rintro ⟨_, j, t, hr', hj, ht, rfl⟩
        cases hr'
        cases hi.symm.trans hj
        cases hf.symm.trans ht
        rfl

theorem checkConstant_ok {v : Value} {p : Plan} (h : checkConstant v = .ok p) :
    ∃ t, p = .constant v t := by
  unfold checkConstant at h
  split at h
  · cases h
    exact ⟨_, rfl⟩
  · split at h
    · cases h
      exact ⟨_, rfl⟩
    · cases h
  · cases h

/-- Every expression of the list checks to the plan at its place. -/
abbrev ChecksTo (env : Environment) (es : List Expr) (ps : List Plan) : Prop :=
  List.Forall₂ (fun e p => e.check env = .ok p) es ps

theorem checkAll_ok_iff {es : List Expr} {index : Nat} :
    checkAll env index es = .ok ps ↔ ChecksTo env es ps := by
  induction es generalizing index ps with
  | nil =>
    simp only [checkAll, List.forall₂_nil_left_iff]
    exact ⟨fun h => (Except.ok.inj h).symm, fun h => h ▸ rfl⟩
  | cons e es ih =>
    simp only [checkAll, bind_ok_iff, inside_ok_iff, ih, List.forall₂_cons_left_iff]
    constructor
    · rintro ⟨p, hp, rest, hrest, hpure⟩
      cases hpure
      exact ⟨p, rest, hp, hrest, rfl⟩
    · rintro ⟨p, rest, hp, hrest, rfl⟩
      exact ⟨p, hp, rest, hrest, rfl⟩

theorem ChecksTo.unique {es : List Expr} {qs : List Plan} (hps : ChecksTo env es ps)
    (hqs : ChecksTo env es qs) : ps = qs := by
  have h : checkAll env 0 es = .ok ps := checkAll_ok_iff.mpr hps
  exact Except.ok.inj (h.symm.trans (checkAll_ok_iff.mpr hqs))

/-- Where each argument checks in another environment too, to a related plan, so do all of them. -/
theorem ChecksTo.related {env' : Environment} {related : Plan → Plan → Prop} {es : List Expr}
    (h : ∀ e ∈ es, ∀ p, e.check env = .ok p → ∃ q, e.check env' = .ok q ∧ related p q)
    (hps : ChecksTo env es ps) : ∃ qs, ChecksTo env' es qs ∧ List.Forall₂ related ps qs := by
  induction hps with
  | nil => exact ⟨[], .nil, .nil⟩
  | cons hp _ ih =>
    obtain ⟨hfirst, hothers⟩ := List.forall_mem_cons.mp h
    obtain ⟨q, hq, hpq⟩ := hfirst _ hp
    obtain ⟨qs, hqs, hrelated⟩ := ih hothers
    exact ⟨q :: qs, .cons hq hqs, .cons hpq hrelated⟩

theorem check_call_iff {name : Text} {args : List Expr} {r : Plan} :
    (call name args).check env = .ok r ↔
      ∃ ps, ChecksTo env args ps ∧ bindCall env name ps = .ok r := by
  simp only [check, bind_ok_iff, inside_ok_iff, checkAll_ok_iff]

theorem check_operator_iff {name : Text} {args : List Expr} {r : Plan} :
    (operator name args).check env = .ok r ↔
      ∃ ps, ChecksTo env args ps ∧ ∃ qs, unify name ps = .ok qs ∧ bindCall env name qs = .ok r := by
  simp only [check, bind_ok_iff, inside_ok_iff, checkAll_ok_iff]

theorem check_logic_iff {c : Connective} {args : List Expr} {r : Plan} :
    (logic c args).check env = .ok r ↔
      2 ≤ args.length ∧ ∃ ps, ChecksTo env args ps ∧ (∀ p ∈ ps, Logical p) ∧
        r = connected c ps := by
  rw [check]
  split
  · rename_i hl
    simp [Nat.not_le.mpr hl]
  · rename_i hl
    simp only [bind_ok_iff, inside_ok_iff, checkAll_ok_iff, connect_ok_iff,
      Nat.le_of_not_lt hl, true_and]

theorem bindCall_ok_iff {name : Text} {r : Plan} :
    bindCall env name ps = .ok r ↔ ∃ registry b qs, env.functions = some registry ∧
      registry.resolve name (ps.map Plan.type) = .ok b ∧
      (b.propagatesNulls && env.strictNulls) = false ∧
      promoteArguments name b.propagatesNulls 0 ps b.function.parameters = .ok qs ∧
      r = Plan.ofBinding b qs := by
  unfold bindCall
  cases hf : env.functions with
  | none => simp
  | some registry =>
    simp only [bind_ok_iff, Option.some.injEq]
    constructor
    · rintro ⟨b, hb, hrest⟩
      cases hs : b.propagatesNulls && env.strictNulls with
      | true =>
        rw [hs] at hrest
        cases hrest
      | false =>
        rw [hs] at hrest
        obtain ⟨qs, hqs, hpure⟩ := bind_ok_iff.mp hrest
        cases hpure
        exact ⟨registry, b, qs, rfl, hb, hs, hqs, rfl⟩
    · rintro ⟨_, b, qs, rfl, hb, hs, hqs, rfl⟩
      refine ⟨b, hb, ?_⟩
      rw [hs]
      exact bind_ok_iff.mpr ⟨qs, hqs, rfl⟩

theorem promoteArguments_wraps {name : Text} {propagates : Bool} {index : Nat} {qs : List Plan}
    {parameters : List (Option DataType)} (hl : ps.length = parameters.length)
    (h : promoteArguments name propagates index ps parameters = .ok qs) :
    List.Forall₂ (WrapsUpTo 1) ps qs := by
  induction ps generalizing parameters index qs with
  | nil =>
    cases parameters with
    | nil =>
      cases h
      exact .nil
    | cons t ts => simp at hl
  | cons p ps ih =>
    cases parameters with
    | nil => simp at hl
    | cons t ts =>
      simp only [promoteArguments, bind_ok_iff, inside_ok_iff] at h
      obtain ⟨target, _, q, hq, rest, hrest, hpure⟩ := h
      cases hpure
      exact .cons (promoteTo_wraps hq) (ih (by simpa using hl) hrest)

theorem bindCall_wrapsUpTo {name : Text} {r : Plan} (h : bindCall env name ps = .ok r) :
    List.Forall₂ (WrapsUpTo 1) ps r.children := by
  obtain ⟨_, b, qs, _, hb, _, hqs, rfl⟩ := bindCall_ok_iff.mp h
  have hl := (Registry.resolve_arity hb).2
  exact promoteArguments_wraps (by simpa using hl) hqs

theorem bindCall_wraps {name : Text} {r : Plan} (h : bindCall env name ps = .ok r) :
    List.Forall₂ Wraps ps r.children :=
  (bindCall_wrapsUpTo h).imp fun _ _ hw => hw.1

theorem unify_wraps {name : Text} {qs : List Plan} (h : unify name ps = .ok qs) :
    List.Forall₂ (WrapsUpTo (if ps.length = 2 then 1 else 0)) ps qs := by
  unfold unify at h
  split at h
  · rename_i a b
    obtain ⟨common, _, h⟩ := bind_ok_iff.mp h
    cases common with
    | none => cases h
    | some t =>
      simp only [mapIndexed, bind_ok_iff, inside_ok_iff] at h
      obtain ⟨x, hx, _, ⟨y, hy, _, hnil, hpair⟩, hpure⟩ := h
      cases hnil
      cases hpair
      cases hpure
      exact .cons (promoteTo_wraps hx) (.cons (promoteTo_wraps hy) .nil)
  · cases h
    exact List.forall₂_same.mpr fun p _ => .self _ p

theorem operator_wrapsUpTo {name : Text} {args : List Expr} {qs : List Plan} {r : Plan}
    (hl : args.length = ps.length) (hunify : unify name ps = .ok qs)
    (hbind : bindCall env name qs = .ok r) :
    List.Forall₂ (WrapsUpTo (operator name args).conversions) ps r.children := by
  have hconversions : (operator name args).conversions = (if ps.length = 2 then 1 else 0) + 1 := by
    rw [← hl]
    unfold conversions
    split
    · rename_i he
      cases he
      rfl
    · rename_i hpair
      have hne : args.length ≠ 2 := by
        intro htwo
        obtain ⟨a, b, rfl⟩ := List.length_eq_two.mp htwo
        exact hpair _ a b rfl
      rw [if_neg hne]
  rw [hconversions]
  exact forall₂_trans (unify_wraps hunify) (bindCall_wrapsUpTo hbind)
    fun _ _ _ hpq hqr => hpq.trans hqr

theorem operator_wraps {name : Text} {qs : List Plan} {r : Plan} (hunify : unify name ps = .ok qs)
    (hbind : bindCall env name qs = .ok r) : List.Forall₂ Wraps ps r.children :=
  forall₂_trans (unify_wraps hunify) (bindCall_wraps hbind) fun _ _ _ hpq hqr => hpq.1.trans hqr

theorem connected_wrapsUpTo (c : Connective) (ps : List Plan) :
    List.Forall₂ (WrapsUpTo 1) ps (connected c ps).children := by
  change List.Forall₂ _ ps (if ps.any Plan.isNullable then ps.map asNullableBoolean else ps)
  split
  · rw [List.forall₂_map_right_iff]
    refine List.forall₂_same.mpr fun p _ => ?_
    unfold asNullableBoolean
    split
    · exact .self 1 p
    · exact converted_wraps p nullableBoolean
  · exact List.forall₂_same.mpr fun p _ => .self 1 p

theorem connected_wraps (c : Connective) (ps : List Plan) :
    List.Forall₂ Wraps ps (connected c ps).children :=
  (connected_wrapsUpTo c ps).imp fun _ _ hw => hw.1

/-- Below the node of an expression stand the plans of its arguments, converted or not. -/
theorem check_arguments {e : Expr} {r : Plan} (h : e.check env = .ok r) :
    ∃ ps, ChecksTo env e.arguments ps ∧
      List.Forall₂ (WrapsUpTo e.conversions) ps r.children := by
  cases e with
  | «variable» name =>
    rw [check] at h
    obtain ⟨_, i, t, _, _, _, rfl⟩ := checkVariable_ok_iff.mp h
    exact ⟨[], .nil, .nil⟩
  | constant v =>
    rw [check] at h
    obtain ⟨t, rfl⟩ := checkConstant_ok h
    exact ⟨[], .nil, .nil⟩
  | null =>
    rw [check] at h
    cases h
    exact ⟨[], .nil, .nil⟩
  | call name args =>
    obtain ⟨ps, hps, hbind⟩ := check_call_iff.mp h
    exact ⟨ps, hps, bindCall_wrapsUpTo hbind⟩
  | operator name args =>
    obtain ⟨ps, hps, qs, hunify, hbind⟩ := check_operator_iff.mp h
    exact ⟨ps, hps, operator_wrapsUpTo hps.length_eq hunify hbind⟩
  | logic c args =>
    obtain ⟨_, ps, hps, _, rfl⟩ := check_logic_iff.mp h
    exact ⟨ps, hps, connected_wrapsUpTo c ps⟩

/-- What holds of the node of every checked expression and of every conversion holds of all parts
of a checked expression. -/
theorem check_parts (good : Plan → Prop) (hpromotion : ∀ p t, good (.promotion p t))
    (hnode : ∀ (e : Expr) (p : Plan), e.check env = .ok p → good p) {e : Expr} {p : Plan}
    (h : e.check env = .ok p) : ∀ q : Plan, q.Part p → good q := by
  induction e using argumentInduction generalizing p with
  | step e ih =>
    intro q hq
    rcases part_iff.mp hq with rfl | ⟨child, hchild, hq⟩
    · exact hnode e q h
    · obtain ⟨ps, hps, hwraps⟩ := check_arguments h
      obtain ⟨inner, hinner, hw⟩ := forall₂_mem_right hwraps hchild
      obtain ⟨a, ha, hcheck⟩ := forall₂_mem_right hps hinner
      rcases hw.1.part_cases hq with hq | ⟨r, t, rfl⟩
      · exact ih a ha hcheck q hq
      · exact hpromotion r t

end Expr

end TypedStream
