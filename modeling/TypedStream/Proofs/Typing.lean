import TypedStream.Expr
import TypedStream.Proofs.Overload
import TypedStream.Proofs.Pointwise
import TypedStream.Proofs.Promotion

namespace TypedStream

/-- The functions of the environment, if it has any, have all their types in place. -/
def Environment.Typed (env : Environment) : Prop :=
  ∀ registry, env.functions = some registry → registry.Typed

namespace Plan

/-- An argument has the type of its parameter. Where the call lets null through, a nullable
argument has the nullable version of it. -/
def FitsParameter (propagates : Bool) (a : Plan) (parameter : Option DataType) : Prop :=
  ∃ s u, a.type = some s ∧ parameter = some u ∧
    if propagates && s.isNullable then u.asNullable = some s else s = u

def isNullable (p : Plan) : Bool := (p.type.map DataType.isNullable).getD false

/-- A connective is nullable if one of its arguments is. -/
def logicType (arguments : List Plan) : DataType :=
  if arguments.any isNullable then .nullable .boolean else .scalar .boolean

/-- The typing rules, node by node. Every node bears a type and every call a function. -/
inductive WellTyped (env : Environment) : Plan → Prop
  | field {name : Text} {i : Nat} {r t : DataType} (record : env.record = some r)
      (index : r.fieldIndex name = some i) (found : r.fields[i]? = some (name, t)) :
      WellTyped env (.variable name i (some t))
  | constant {v : Value} {t : DataType} (conforms : v.conforms t = true) :
      WellTyped env (.constant v (some t))
  | call {name : Text} {registry : Registry} {f : ScalarFunction} {propagates : Bool}
      {t : DataType} {arguments : List Plan} (functions : env.functions = some registry)
      (overload : f ∈ registry.overloads name)
      (fit : List.Forall₂ (FitsParameter propagates) arguments f.parameters)
      (result : f.CallType propagates t) (typed : ∀ a ∈ arguments, WellTyped env a) :
      WellTyped env (.call name (some f) propagates (some t) arguments)
  | promotion {p : Plan} {s t : DataType} (source : p.type = some s)
      (promotes : s.promotesTo t = true) (differ : s.equals t = false) (typed : WellTyped env p) :
      WellTyped env (.promotion p t)
  | logic {c : Connective} {arguments : List Plan} (several : 2 ≤ arguments.length)
      (booleans : ∀ a ∈ arguments,
        a.type = some (.scalar .boolean) ∨ a.type = some (.nullable .boolean))
      (typed : ∀ a ∈ arguments, WellTyped env a) :
      WellTyped env (.logic c (some (logicType arguments)) arguments)

theorem WellTyped.type_some {env : Environment} {p : Plan} (h : p.WellTyped env) :
    ∃ t, p.type = some t := by
  cases h <;> exact ⟨_, rfl⟩

theorem resolvedFrom_ok {kind : Kind} {ps : List Plan} (h : ∀ p ∈ ps, p.resolved = .ok ())
    (index : Nat) : resolvedFrom kind index ps = .ok () := by
  induction ps generalizing index with
  | nil => rfl
  | cons p ps ih =>
    rw [resolvedFrom, h p List.mem_cons_self]
    exact ih (fun q hq => h q (List.mem_cons_of_mem p hq)) (index + 1)

theorem WellTyped.resolved {env : Environment} {p : Plan} (h : p.WellTyped env) :
    p.resolved = .ok () := by
  induction h with
  | field record index found => rfl
  | constant conforms => rfl
  | call functions overload fit result typed ih =>
    rw [Plan.resolved]
    exact resolvedFrom_ok ih 0
  | promotion source promotes differ typed ih =>
    rw [Plan.resolved, ih]
    rfl
  | logic several booleans typed ih =>
    rw [Plan.resolved]
    exact resolvedFrom_ok ih 0

/-- Converting a well-typed plan gives a well-typed plan of the target type. -/
theorem promoteTo_ends {env : Environment} {p : Plan} (target : Option DataType)
    (h : p.WellTyped env) :
    Ends (fun q => q.WellTyped env ∧ q.type = target) Failure.IsType (p.promoteTo target) := by
  obtain ⟨s, hs⟩ := h.type_some
  unfold promoteTo
  split
  · rename_i he
    exact ⟨h, (DataType.equalMissing_iff _ _).mp he⟩
  · rename_i hne
    rw [hs] at hne ⊢
    cases target with
    | none => exact ⟨_, rfl⟩
    | some t =>
      dsimp only
      split
      · rename_i hst
        exact ⟨.promotion hs hst (by simpa [DataType.equalMissing] using hne) h, rfl⟩
      · exact ⟨_, rfl⟩

end Plan

namespace Expr

open Plan

variable {env : Environment}

theorem checkVariable_ends (name : Text) :
    Ends (WellTyped env) Failure.IsType (checkVariable env name) := by
  unfold checkVariable
  cases hr : env.record with
  | none => exact ⟨_, rfl⟩
  | some r =>
    dsimp only [Option.map_some, Option.getD_some]
    cases hi : r.fields.findIdx? (·.1 == name) with
    | none => exact ⟨_, rfl⟩
    | some i =>
      obtain ⟨hlt, hname, _⟩ := List.findIdx?_eq_some_iff_getElem.mp hi
      have hf : r.fields[i]? = some (name, r.fields[i].2) := by
        rw [List.getElem?_eq_getElem hlt, ← beq_iff_eq.mp hname]
      simp only [hf, Option.map_some]
      exact .field hr hi hf

theorem checkConstant_ends (v : Value) :
    Ends (WellTyped env) Failure.IsType (checkConstant v) := by
  cases v with
  | null => exact .constant rfl
  | record vs => exact ⟨_, rfl⟩
  | malformed m => cases m <;> exact ⟨_, rfl⟩
  | int i =>
    unfold checkConstant
    dsimp only [Value.kind]
    split
    · rename_i hc
      exact .constant hc
    · exact ⟨_, rfl⟩
  | _ => exact .constant rfl

/-- A conversion of each plan of a list, where every one of them ends in a plan of its own kind. -/
theorem mapIndexed_ends {f : Nat → Plan → Except Failure Plan} {good : Plan → Plan → Prop}
    {bad : Failure → Prop} {ps : List Plan} (h : ∀ i, ∀ p ∈ ps, Ends (good p) bad (f i p))
    (index : Nat) : Ends (List.Forall₂ good ps) bad (mapIndexed f index ps) := by
  induction ps generalizing index with
  | nil => exact .nil
  | cons p ps ih =>
    refine (h index p List.mem_cons_self).bind fun q hq => ?_
    refine (ih (fun i r hr => h i r (List.mem_cons_of_mem p hr)) (index + 1)).bind fun qs hqs => ?_
    exact .cons hq hqs

/-- With its types in place, an argument has a target, and a plan of that type fits. -/
theorem argumentTarget_ends {propagates : Bool} {p : Plan} {s u : DataType}
    (hs : p.type = some s) :
    Ends (fun target => ∀ (q : Plan) (t : DataType), q.type = some t → target = some t →
      FitsParameter propagates q (some u)) Failure.IsType
      (argumentTarget propagates p (some u)) := by
  unfold argumentTarget
  cases propagates with
  | false =>
    intro q t ht htarget
    exact ⟨t, u, ht, rfl, by simpa using htarget.symm⟩
  | true =>
    simp only [hs, ↓reduceIte]
    cases s.isNullable with
    | false =>
      intro q t ht htarget
      cases htarget
      refine ⟨u, u, ht, rfl, ?_⟩
      split
      · rename_i hn
        cases u <;> simp_all [DataType.isNullable, DataType.asNullable]
      · rfl
    | true =>
      intro q t ht htarget
      have hn := DataType.isNullable_of_asNullable htarget
      exact ⟨t, u, ht, rfl, by simpa [hn] using htarget⟩

theorem promoteArguments_ends {name : Text} {propagates : Bool} {ps : List Plan}
    {parameters : List (Option DataType)} (hl : ps.length = parameters.length)
    (hps : ∀ p ∈ ps, p.WellTyped env) (ht : ∀ t ∈ parameters, t.isSome = true) (index : Nat) :
    Ends (fun qs => List.Forall₂ (FitsParameter propagates) qs parameters ∧
        ∀ q ∈ qs, q.WellTyped env) Failure.IsType
      (promoteArguments name propagates index ps parameters) := by
  induction ps generalizing parameters index with
  | nil =>
    cases parameters with
    | nil => exact ⟨.nil, by simp⟩
    | cons t ts => simp at hl
  | cons p ps ih =>
    cases parameters with
    | nil => simp at hl
    | cons t ts =>
      have hp := hps p List.mem_cons_self
      obtain ⟨s, hs⟩ := hp.type_some
      obtain ⟨u, rfl⟩ := Option.isSome_iff_exists.mp (ht t List.mem_cons_self)
      refine (argumentTarget_ends hs).bind fun target htarget => ?_
      refine ((promoteTo_ends target hp).inside _).bind fun q hq => ?_
      refine (ih (by simpa using hl) (fun r hr => hps r (List.mem_cons_of_mem p hr))
        (fun v hv => ht v (List.mem_cons_of_mem _ hv)) (index + 1)).bind fun qs hqs => ?_
      obtain ⟨v, hv⟩ := hq.1.type_some
      exact ⟨.cons (htarget q v hv (hq.2.symm.trans hv)) hqs.1,
        List.forall_mem_cons.mpr ⟨hq.1, hqs.2⟩⟩

theorem types_some {ps : List Plan} (h : ∀ p ∈ ps, p.WellTyped env) :
    ∀ t ∈ ps.map Plan.type, t.isSome = true := by
  intro t ht
  obtain ⟨p, hp, rfl⟩ := List.mem_map.mp ht
  obtain ⟨s, hs⟩ := (h p hp).type_some
  simp [hs]

theorem bindCall_ends (henv : env.Typed) (name : Text) {ps : List Plan}
    (hps : ∀ p ∈ ps, p.WellTyped env) :
    Ends (WellTyped env) Failure.IsType (bindCall env name ps) := by
  unfold bindCall
  cases hf : env.functions with
  | none => exact ⟨_, rfl⟩
  | some registry =>
    have hr := henv registry hf
    refine (Registry.resolve_ends hr (types_some hps)).bind fun b hb => ?_
    split
    · exact ⟨_, rfl⟩
    · obtain ⟨t, ht, hcall⟩ := hb.result
      have hl : ps.length = b.function.parameters.length := by simpa using hb.arity
      refine (promoteArguments_ends hl hps (hr.overload hb.overload).parameters 0).bind
        fun qs hqs => ?_
      change WellTyped env (Plan.ofBinding b qs)
      rw [Plan.ofBinding, ht, hb.named]
      exact .call hf hb.overload hqs.1 hcall hqs.2

theorem unify_ends (name : Text) {ps : List Plan} (hps : ∀ p ∈ ps, p.WellTyped env) :
    Ends (fun qs => ∀ q ∈ qs, q.WellTyped env) Failure.IsType (unify name ps) := by
  unfold unify
  split
  · rename_i a b
    obtain ⟨s, hs⟩ := (hps a (by simp)).type_some
    obtain ⟨t, ht⟩ := (hps b (by simp)).type_some
    simp only [hs, ht, commonMissing]
    cases hc : s.commonType t with
    | none => exact ⟨_, rfl⟩
    | some u =>
      have hm := mapIndexed_ends (f := fun i p => inside (.unification i name) (p.promoteTo (some u)))
        (fun i p hp => (promoteTo_ends (some u) (hps p hp)).inside _) 0
      refine hm.mono fun qs hqs q hq => ?_
      obtain ⟨_, _, hw, _⟩ := forall₂_mem_right hqs hq
      exact hw
  · exact hps

theorem promotesTo_nullableBoolean {t : DataType} (h : t.promotesTo nullableBoolean = true) :
    t = .scalar .boolean ∨ t = .nullable .boolean ∨ t = .nullableAny := by
  cases t with
  | scalar s => cases s <;> first | exact .inl rfl | exact absurd h (by decide)
  | nullable s => cases s <;> first | exact .inr (.inl rfl) | exact absurd h (by decide)
  | nullableAny => exact .inr (.inr rfl)
  | record fs => cases (DataType.equals_iff _ _).mp h
  | function r ps => cases (DataType.equals_iff _ _).mp h

theorem checkBooleans_ends (c : Connective) {ps : List Plan} (hps : ∀ p ∈ ps, p.WellTyped env)
    (index : Nat) :
    Ends (fun nullable => nullable = ps.any isNullable ∧ ∀ p ∈ ps, ∃ t, p.type = some t ∧
        t.promotesTo nullableBoolean = true) Failure.IsType
      (checkBooleans c index ps) := by
  induction ps generalizing index with
  | nil => exact ⟨rfl, by simp⟩
  | cons p ps ih =>
    obtain ⟨s, hs⟩ := (hps p List.mem_cons_self).type_some
    have hrest := ih (fun q hq => hps q (List.mem_cons_of_mem p hq)) (index + 1)
    rw [checkBooleans, hs]
    cases hb : s.promotesTo nullableBoolean with
    | false =>
      simp only [DataType.promotes, hb]
      exact ⟨_, rfl⟩
    | true =>
      simp only [DataType.promotes, hb]
      refine hrest.bind fun nullable hn => ?_
      refine ⟨?_, List.forall_mem_cons.mpr ⟨⟨s, hs, hb⟩, hn.2⟩⟩
      rw [List.any_cons, ← hn.1, isNullable, hs]

/-- What becomes of an argument of a nullable connective. -/
def LogicArgument (env : Environment) (p q : Plan) : Prop :=
  q.WellTyped env ∧ (p.isNullable = true → q.isNullable = true) ∧
    (q.type = some (.scalar .boolean) ∨ q.type = some (.nullable .boolean))

theorem logicArgument_ends (c : Connective) (i : Nat) {p : Plan} (hp : p.WellTyped env) :
    Ends (LogicArgument env p) Failure.IsType
      (if DataType.equalMissing p.type (some (.scalar .boolean)) then .ok p
      else inside (.logicPromotion c i) (p.promoteTo (some nullableBoolean))) := by
  split
  · rename_i he
    exact ⟨hp, id, .inl ((DataType.equalMissing_iff _ _).mp he)⟩
  · refine ((promoteTo_ends _ hp).inside _).mono fun q hq => ⟨hq.1, fun _ => ?_, .inr hq.2⟩
    simp [isNullable, hq.2, nullableBoolean, DataType.isNullable]

theorem connect_ends (c : Connective) {ps : List Plan} (hl : 2 ≤ ps.length)
    (hps : ∀ p ∈ ps, p.WellTyped env) :
    Ends (WellTyped env) Failure.IsType (connect c ps) := by
  refine (checkBooleans_ends c hps 0).bind fun nullable hn => ?_
  obtain ⟨hany, hbool⟩ := hn
  cases nullable with
  | true =>
    refine (mapIndexed_ends (fun i p hp => logicArgument_ends c i (hps p hp)) 0).bind
      fun qs hqs => ?_
    have hq : ∀ q ∈ qs, q.WellTyped env ∧
        (q.type = some (.scalar .boolean) ∨ q.type = some (.nullable .boolean)) := by
      intro q hm
      obtain ⟨_, _, hw, _, hb⟩ := forall₂_mem_right hqs hm
      exact ⟨hw, hb⟩
    obtain ⟨p, hp, hpn⟩ := List.any_eq_true.mp hany.symm
    obtain ⟨q, hm, _, hqn, _⟩ := forall₂_mem_left hqs hp
    have htype : logicType qs = nullableBoolean := by
      rw [logicType, List.any_eq_true.mpr ⟨q, hm, hqn hpn⟩]
      rfl
    change WellTyped env (.logic c (some nullableBoolean) qs)
    rw [← htype]
    exact .logic (hqs.length_eq ▸ hl) (fun q hm => (hq q hm).2) (fun q hm => (hq q hm).1)
  | false =>
    have hplain : ∀ p ∈ ps, p.type = some (.scalar .boolean) := by
      intro p hp
      obtain ⟨t, ht, hb⟩ := hbool p hp
      have hpn := List.any_eq_false.mp hany.symm p hp
      rcases promotesTo_nullableBoolean hb with rfl | rfl | rfl
      · exact ht
      · simp [isNullable, ht, DataType.isNullable] at hpn
      · simp [isNullable, ht, DataType.isNullable] at hpn
    have htype : logicType ps = .scalar .boolean := by
      rw [logicType, ← hany]
      rfl
    change WellTyped env (.logic c (some (.scalar .boolean)) ps)
    rw [← htype]
    exact .logic hl (fun p hp => .inl (hplain p hp)) hps

mutual

theorem check_ends (henv : env.Typed) (e : Expr) :
    Ends (WellTyped env) Failure.IsType (e.check env) := by
  cases e with
  | «variable» name => exact checkVariable_ends name
  | constant v => exact checkConstant_ends v
  | null => exact .constant rfl
  | call name args =>
    rw [check]
    refine ((checkAll_ends henv args 0).inside _).bind fun ps hps => ?_
    exact bindCall_ends henv name hps.2
  | operator name args =>
    rw [check]
    refine ((checkAll_ends henv args 0).inside _).bind fun ps hps => ?_
    refine (unify_ends name hps.2).bind fun qs hqs => ?_
    exact bindCall_ends henv name hqs
  | logic c args =>
    rw [check]
    split
    · exact ⟨_, rfl⟩
    · rename_i hl
      refine ((checkAll_ends henv args 0).inside _).bind fun ps hps => ?_
      exact connect_ends c (hps.1 ▸ Nat.le_of_not_lt hl) hps.2
termination_by structural e

theorem checkAll_ends (henv : env.Typed) (es : List Expr) (index : Nat) :
    Ends (fun ps => ps.length = es.length ∧ ∀ p ∈ ps, p.WellTyped env) Failure.IsType
      (checkAll env index es) := by
  cases es with
  | nil => exact ⟨rfl, by simp⟩
  | cons e es =>
    rw [checkAll]
    refine ((check_ends henv e).inside _).bind fun p hp => ?_
    refine (checkAll_ends henv es (index + 1)).bind fun ps hps => ?_
    exact ⟨by simp [hps.1], List.forall_mem_cons.mpr ⟨hp, hps.2⟩⟩
termination_by structural es

end

end Expr

end TypedStream
