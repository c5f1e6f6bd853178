import TypedStream.Proofs.Conversion

namespace TypedStream

open Value

namespace ScalarFunction

def scalars (f : ScalarFunction) : List Scalar :=
  f.parameters.filterMap fun
    | some (.scalar s) => some s
    | _ => none

/-- The type of a call that lets null through, or does not. -/
def resultFor (f : ScalarFunction) (propagates : Bool) : Option DataType :=
  if propagates then f.result.bind DataType.asNullable else f.result

/-- A strict function from scalars to a scalar. -/
structure Plain (f : ScalarFunction) : Prop where
  strict : f.strict = true
  parameters : f.parameters = f.scalars.map fun s => some (.scalar s)
  result : ∃ r, f.result = some (.scalar r)

theorem Plain.resultFor_some {f : ScalarFunction} (hf : f.Plain) (propagates : Bool) :
    ∃ t, f.resultFor propagates = some t := by
  obtain ⟨r, hr⟩ := hf.result
  cases propagates with
  | false => exact ⟨.scalar r, hr⟩
  | true => exact ⟨.nullable r, by simp [resultFor, hr, DataType.asNullable]⟩

end ScalarFunction

namespace DataType

/-- The version of a scalar that admits null where the type does. -/
def toward (t : DataType) (s : Scalar) : DataType :=
  if t.isNullable then .nullable s else .scalar s

@[simp] theorem isNullable_toward (t : DataType) (s : Scalar) :
    (t.toward s).isNullable = t.isNullable := by
  cases t <;> rfl

@[simp] theorem nonNullable_toward (t : DataType) (s : Scalar) :
    (t.toward s).nonNullable = some (.scalar s) := by
  cases t <;> rfl

theorem promotesTo_toward (t : DataType) (s : Scalar) :
    t.promotesTo (t.toward s) = t.promotesTo (.nullable s) := by
  cases t with
  | record fs => simp [promotesTo, toward, isNullable, equals]
  | function r ps => simp [promotesTo, toward, isNullable, equals]
  | _ => rfl

theorem isPrimitive_of_toward {t : DataType} {s : Scalar}
    (h : t.promotesTo (t.toward s) = true) : t.isPrimitive = true := by
  refine isPrimitive_of_promotesTo h ?_
  unfold toward
  split <;> rfl

theorem nonNullable_of_not_isNullable {t : DataType} (h : t.isNullable = false) :
    t.nonNullable = some t := by
  cases t <;> simp_all [isNullable, nonNullable]

end DataType

namespace Registry

open DataType

theorem cost?_promotes {arguments parameters : List (Option DataType)} {c : Nat}
    (h : cost? arguments parameters = some c) :
    List.Forall₂ (fun a p => ∀ s, a = some s → ∃ t, p = some t ∧ s.promotesTo t = true)
      arguments parameters := by
  induction arguments generalizing parameters c with
  | nil =>
    cases parameters with
    | nil => exact .nil
    | cons p ps => simp [cost?] at h
  | cons a as ih =>
    cases parameters with
    | nil => simp [cost?] at h
    | cons p ps =>
      simp only [cost?, Option.bind_eq_some_iff, Option.map_eq_some_iff] at h
      obtain ⟨_, hone, d, hd, _⟩ := h
      refine .cons ?_ (ih hd)
      rintro s rfl
      cases p with
      | none => cases hone
      | some t =>
        refine ⟨t, rfl, ?_⟩
        by_cases he : s.equals t = true
        · rw [(equals_iff s t).mp he]
          exact promotesTo_refl t
        · by_cases hst : s.promotesTo t = true
          · exact hst
          · simp [he, hst] at hone

theorem cost?_toward {ts : List DataType} {ss : List Scalar} {c : Nat}
    (h : cost? (ts.map nonNullable) (ss.map fun s => some (.scalar s)) = some c) :
    List.Forall₂ (fun t s => t.promotesTo (t.toward s) = true) ts ss := by
  have hall := cost?_promotes h
  simp only [List.forall₂_map_left_iff, List.forall₂_map_right_iff] at hall
  refine hall.imp fun t s hts => ?_
  rw [promotesTo_toward]
  cases t with
  | nullableAny => rfl
  | scalar a | nullable a =>
    obtain ⟨_, hu, hpromotes⟩ := hts (.scalar a) rfl
    cases hu
    exact hpromotes
  | record fs =>
    obtain ⟨_, hu, hpromotes⟩ := hts (.record fs) rfl
    cases hu
    exact absurd ((equals_iff _ _).mp hpromotes) (by simp)
  | function r ps =>
    obtain ⟨_, hu, hpromotes⟩ := hts (.function r ps) rfl
    cases hu
    exact absurd ((equals_iff _ _).mp hpromotes) (by simp)

theorem bestOverload_eq_none {fs : List ScalarFunction} {arguments : List (Option DataType)}
    (h : ∀ f ∈ fs, cost? arguments f.parameters = none) : bestOverload fs arguments = none := by
  cases hb : bestOverload fs arguments with
  | none => rfl
  | some f =>
    obtain ⟨hf, c, hc⟩ := bestOverload_some hb
    rw [h f hf] at hc
    cases hc

theorem bestOverload_nullable {fs : List ScalarFunction} (hfs : ∀ f ∈ fs, f.Plain)
    {ts : List DataType} (hn : ts.any isNullable = true) :
    bestOverload fs (ts.map some) = none := by
  refine bestOverload_eq_none fun f hf => ?_
  cases hc : cost? (ts.map some) f.parameters with
  | none => rfl
  | some c =>
    obtain ⟨t, ht, htn⟩ := List.any_eq_true.mp hn
    obtain ⟨p, hp, hfit⟩ := forall₂_mem_left (cost?_promotes hc) (List.mem_map.mpr ⟨t, ht, rfl⟩)
    obtain ⟨u, rfl, htu⟩ := hfit t rfl
    rw [(hfs f hf).parameters] at hp
    obtain ⟨s, _, hs⟩ := List.mem_map.mp hp
    cases hs
    cases isNullable_of_promotesTo htu htn

theorem unwrapped?_some (ts : List DataType) :
    unwrapped? (ts.map some) = some (ts.map nonNullable) := by
  induction ts with
  | nil => rfl
  | cons t ts ih => simp [unwrapped?, ih]

theorem hasNullable_some (ts : List DataType) :
    hasNullable (ts.map some) = ts.any isNullable := by
  simp [hasNullable, List.any_map, Function.comp_def]

theorem resolve_plain_iff {self : Registry} {name : Text} (hfs : ∀ f ∈ self.overloads name, f.Plain)
    {ts : List DataType} {b : Binding} :
    self.resolve name (ts.map some) = .ok b ↔
      ∃ f, bestOverload (self.overloads name) (ts.map nonNullable) = some f ∧
        b = ⟨name, f, f.resultFor (ts.any isNullable), ts.any isNullable⟩ := by
  have hstrict : (self.overloads name).filter (·.strict) = self.overloads name :=
    List.filter_eq_self.mpr fun f hf => (hfs f hf).strict
  unfold Registry.resolve
  dsimp only
  cases hn : ts.any isNullable with
  | false =>
    -- The types are bare as they are, and without a nullable one there is no second choice.
    have hbare : ts.map some = ts.map nonNullable := by
      refine List.map_congr_left fun t ht => ?_
      exact (nonNullable_of_not_isNullable (by simpa using List.any_eq_false.mp hn t ht)).symm
    rw [hbare]
    cases hb : bestOverload (self.overloads name) (ts.map nonNullable) with
    | none =>
      simp only [← hbare, unwrapped?_some, resolveNullable, hasNullable_some, hn]
      split <;> simp
    | some f =>
      have hne : self.overloads name ≠ [] := List.ne_nil_of_mem (bestOverload_some hb).1
      rw [if_neg (by simpa using hne)]
      exact ⟨by rintro ⟨⟩; exact ⟨f, rfl, rfl⟩, by rintro ⟨_, ⟨⟩, rfl⟩; rfl⟩
  | true =>
    -- The first choice fails, and the second one is between the same overloads.
    rw [bestOverload_nullable hfs hn]
    simp only [unwrapped?_some, resolveNullable, hasNullable_some, hn, hstrict, ↓reduceIte]
    cases hb : bestOverload (self.overloads name) (ts.map nonNullable) with
    | none => split <;> simp
    | some f =>
      have hf := (bestOverload_some hb).1
      have hne : self.overloads name ≠ [] := List.ne_nil_of_mem hf
      obtain ⟨r, hr⟩ := (hfs f hf).result
      have hresult : f.resultFor true = some (.nullable r) := by
        simp [ScalarFunction.resultFor, hr, asNullable]
      rw [if_neg (by simpa using hne)]
      simp only [hr, asNullable]
      exact ⟨by rintro ⟨⟩; exact ⟨f, rfl, by rw [hresult]⟩,
        by rintro ⟨_, ⟨⟩, rfl⟩; rw [hresult]⟩

end Registry

namespace Plan

variable {bad : Failure → Prop} {record : List Value}

/-- The plan converted to a scalar, or to its nullable version if the plan is nullable. -/
def toward (p : Plan) (s : Scalar) : Plan :=
  p.converted (if p.isNullable then .nullable s else .scalar s)

theorem toward_eq {p : Plan} {t : DataType} (h : p.type = some t) (s : Scalar) :
    p.toward s = p.converted (t.toward s) := by
  rw [toward, isNullable, h]
  rfl

/-- A call of a plain function, with its arguments converted to the parameters. -/
def applied (name : Text) (f : ScalarFunction) (ps : List Plan) : Plan :=
  .call name (some f) (ps.any isNullable) (f.resultFor (ps.any isNullable))
    (List.zipWith toward ps f.scalars)

theorem evaluate_toward {p : Plan} {t : DataType} {s : Scalar} (hp : p.Safe bad record)
    (hr : p.Rounds record) (ht : p.type = some t) (h : t.promotesTo (t.toward s) = true) :
    (p.toward s).evaluate record = p.evaluate record >>= convertTo s := by
  rw [toward_eq ht]
  exact evaluate_convertTo hp hr ht h (t.nonNullable_toward s)

/-- Two arguments have the same value, and null ends both calls or neither. -/
def SameArgument (record : List Value) (n m : Bool) (p q : Plan) : Prop :=
  p.evaluate record = q.evaluate record ∧
    ∀ v, p.evaluate record = .ok v → (n && v.isNull) = (m && v.isNull)

theorem evaluateArguments_same (name : Text) {n m : Bool} {ps qs : List Plan}
    (h : List.Forall₂ (SameArgument record n m) ps qs) (index : Nat) :
    evaluateArguments record name n index ps = evaluateArguments record name m index qs := by
  induction h generalizing index with
  | nil => rfl
  | cons hpq _ ih =>
    simp only [evaluateArguments, ← hpq.1, ih (index + 1)]
    cases hv : (Plan.evaluate record _) with
    | error f => rfl
    | ok v =>
      change (if n && v.isNull then _ else _) = if m && v.isNull then _ else _
      rw [hpq.2 v hv]

/-- Calls on arguments with the same values have the same value, or fail with the same failure. -/
theorem evaluate_call_congr {name : Text} {f : ScalarFunction} {n m : Bool}
    {t u : Option DataType} {ps qs : List Plan}
    (h : List.Forall₂ (SameArgument record n m) ps qs) :
    (call name (some f) n t ps).evaluate record = (call name (some f) m u qs).evaluate record := by
  rw [evaluate, evaluate, evaluateArguments_same name h 0]

end Plan

namespace Expr

open DataType Plan

theorem promoteArguments_plain {name : Text} {propagates : Bool} {ps : List Plan}
    {ts : List DataType} {ss : List Scalar} (hts : ps.map Plan.type = ts.map some)
    (hn : ∀ t ∈ ts, t.isNullable = true → propagates = true)
    (hfit : List.Forall₂ (fun t s => t.promotesTo (t.toward s) = true) ts ss) (index : Nat) :
    promoteArguments name propagates index ps (ss.map fun s => some (.scalar s)) =
      .ok (List.zipWith Plan.toward ps ss) := by
  induction hfit generalizing ps index with
  | nil =>
    rw [List.map_nil, List.map_eq_nil_iff] at hts
    rw [hts]
    rfl
  | @cons t s ts ss hpromotes _ ih =>
    cases ps with
    | nil => simp at hts
    | cons p ps =>
      rw [List.map_cons, List.map_cons, List.cons.injEq] at hts
      have htarget : argumentTarget propagates p (some (.scalar s)) = .ok (some (t.toward s)) := by
        unfold argumentTarget DataType.toward
        rw [hts.1]
        cases htn : t.isNullable with
        | true => simp [hn t List.mem_cons_self htn, htn, asNullable]
        | false => simp [htn]
      simp only [List.map_cons, promoteArguments, htarget, List.zipWith_cons_cons, toward_eq hts.1]
      rw [ih hts.2 (fun u hu => hn u (List.mem_cons_of_mem t hu)) (index + 1)]
      simp only [bind, Except.bind, promoteTo_of_promotesTo hts.1 hpromotes, inside]
      rfl

theorem any_isNullable {ps : List Plan} {ts : List DataType}
    (h : ps.map Plan.type = ts.map some) :
    ps.any Plan.isNullable = ts.any DataType.isNullable := by
  have hmap : ps.any Plan.isNullable =
      (ps.map Plan.type).any fun t => (t.map DataType.isNullable).getD false := by
    rw [List.any_map]
    rfl
  rw [hmap, h, List.any_map]
  rfl

theorem bindCall_plain_iff {env : Environment} {registry : Registry} {name : Text}
    (hregistry : env.functions = some registry) (hfs : ∀ f ∈ registry.overloads name, f.Plain)
    {ps : List Plan} {ts : List DataType} (hts : ps.map Plan.type = ts.map some) {r : Plan} :
    bindCall env name ps = .ok r ↔
      ∃ f, Registry.bestOverload (registry.overloads name) (ts.map nonNullable) = some f ∧
        (ts.any DataType.isNullable && env.strictNulls) = false ∧ r = applied name f ps := by
  have hany := any_isNullable hts
  -- What becomes of the binding once its overload is known.
  have hbound : ∀ f, Registry.bestOverload (registry.overloads name) (ts.map nonNullable) = some f →
      promoteArguments name (ts.any DataType.isNullable) 0 ps f.parameters =
        .ok (List.zipWith Plan.toward ps f.scalars) := by
    intro f hf
    obtain ⟨hmem, c, hc⟩ := Registry.bestOverload_some hf
    rw [(hfs f hmem).parameters] at hc ⊢
    exact promoteArguments_plain hts (fun t ht htn => List.any_eq_true.mpr ⟨t, ht, htn⟩)
      (Registry.cost?_toward hc) 0
  unfold bindCall
  rw [hregistry]
  dsimp only
  rw [bind_ok_iff, hts]
  constructor
  · rintro ⟨b, hb, hr⟩
    obtain ⟨f, hf, rfl⟩ := (Registry.resolve_plain_iff hfs).mp hb
    refine ⟨f, hf, ?_⟩
    cases hs : (ts.any DataType.isNullable && env.strictNulls) with
    | true =>
      simp only [hs] at hr
      cases hr
    | false =>
      simp only [hs, hbound f hf] at hr
      cases hr
      exact ⟨rfl, by simp [applied, hany, ofBinding]⟩
  · rintro ⟨f, hf, hs, rfl⟩
    refine ⟨_, (Registry.resolve_plain_iff hfs).mpr ⟨f, hf, rfl⟩, ?_⟩
    simp only [hs, hbound f hf]
    simp [applied, hany, ofBinding]

end Expr

end TypedStream
