import TypedStream.Function.Builtin
import TypedStream.Proofs.Elaboration

namespace TypedStream

namespace DataType

/-- The index of a field, or -1 where there is none. -/
def position (r : DataType) (name : Text) : Int :=
  match r.fieldIndex name with
  | some i => i
  | none => -1

/-- The value of the field with a name in a record of the type. -/
def valueOf? (r : DataType) (record : List Value) (name : Text) : Option Value :=
  (r.fieldIndex name).bind fun i => record[i]?

theorem fieldIndex_of_mem {fs : List (Text × DataType)} (hnames : (fs.map Prod.fst).Nodup)
    {name : Text} {t : DataType} (h : (name, t) ∈ fs) :
    ∃ i, (record fs).fieldIndex name = some i ∧ fs[i]? = some (name, t) := by
  unfold fieldIndex fields
  induction fs with
  | nil => cases h
  | cons f fs ih =>
    obtain ⟨hnew, hrest⟩ := List.nodup_cons.mp hnames
    rw [List.findIdx?_cons]
    rcases List.mem_cons.mp h with rfl | hmem
    · exact ⟨0, by simp, rfl⟩
    · have hne : f.1 ≠ name := fun he => hnew (he ▸ List.mem_map_of_mem hmem)
      obtain ⟨i, hi, hf⟩ := ih hrest hmem
      exact ⟨i + 1, by simp [hne, hi], hf⟩

end DataType

namespace Plan

mutual

/-- The plan with the index of each variable replaced by that of its name in a record type. -/
def relocated (r : DataType) : Plan → Plan
  | .variable name _ t => .variable name (r.position name) t
  | .constant v t => .constant v t
  | .call name f propagates t args => .call name f propagates t (relocatedAll r args)
  | .promotion p t => .promotion (relocated r p) t
  | .logic c t args => .logic c t (relocatedAll r args)

def relocatedAll (r : DataType) : List Plan → List Plan
  | [] => []
  | p :: ps => relocated r p :: relocatedAll r ps

end

variable {r : DataType} {p q : Plan}

@[simp] theorem relocatedAll_eq_map (r : DataType) (ps : List Plan) :
    relocatedAll r ps = ps.map (relocated r) := by
  induction ps with
  | nil => rfl
  | cons p ps ih => rw [relocatedAll, ih, List.map_cons]

@[simp] theorem type_relocated (r : DataType) (p : Plan) : (p.relocated r).type = p.type := by
  cases p <;> rfl

@[simp] theorem isNullable_relocated (r : DataType) (p : Plan) :
    (p.relocated r).isNullable = p.isNullable := by
  rw [isNullable, type_relocated, isNullable]

@[simp] theorem types_relocated (r : DataType) (ps : List Plan) :
    (ps.map (relocated r)).map Plan.type = ps.map Plan.type := by
  simp [Function.comp_def]

@[simp] theorem any_isNullable_relocated (r : DataType) (ps : List Plan) :
    (ps.map (relocated r)).any isNullable = ps.any isNullable := by
  simp [List.any_map, Function.comp_def]

theorem converted_relocated (r : DataType) (p : Plan) (t : DataType) :
    (p.relocated r).converted t = (p.converted t).relocated r := by
  unfold converted
  rw [type_relocated]
  split <;> rfl

theorem promoteTo_relocated {target : Option DataType} (h : p.promoteTo target = .ok q) :
    (p.relocated r).promoteTo target = .ok (q.relocated r) := by
  rcases promoteTo_ok_iff.mp h with ⟨htype, rfl⟩ | ⟨hne, s, t, hs, ht, hst, rfl⟩
  · exact promoteTo_ok_iff.mpr (.inl ⟨by rwa [type_relocated], rfl⟩)
  · exact promoteTo_ok_iff.mpr (.inr ⟨by rwa [type_relocated], s, t, by rwa [type_relocated], ht, hst,
      rfl⟩)

theorem evaluate_variable {record : List Value} {name : Text} {i : Nat} {t : Option DataType}
    {v : Value} (h : record[i]? = some v) : (Plan.variable name i t).evaluate record = .ok v := by
  change evaluate record (.variable name (.ofNat i) t) = .ok v
  simp only [evaluate, h]

theorem evaluateArguments_congr {record record' : List Value} {ps qs : List Plan}
    (h : List.Forall₂ (fun p q => p.evaluate record = q.evaluate record') ps qs) (name : Text)
    (propagates : Bool) (index : Nat) :
    evaluateArguments record name propagates index ps =
      evaluateArguments record' name propagates index qs := by
  induction h generalizing index with
  | nil => rfl
  | cons hpq _ ih => simp only [evaluateArguments, hpq, ih]

/-- A plan reads the record through its variables only. -/
theorem evaluate_relocated {record record' : List Value}
    (h : ∀ name i t, (Plan.variable name i t).Part p →
      (Plan.variable name i t).evaluate record =
        (Plan.variable name (r.position name) t).evaluate record') :
    p.evaluate record = (p.relocated r).evaluate record' := by
  induction p using childInduction with
  | step p ih =>
    have hchildren : List.Forall₂ (fun p q => p.evaluate record = q.evaluate record') p.children
        (p.children.map (relocated r)) := by
      rw [List.forall₂_map_right_iff, List.forall₂_same]
      exact fun child hchild => ih child hchild fun name i t hpart => h name i t (.under hchild hpart)
    cases p with
    | «variable» name i t => exact h name i t .whole
    | constant v t => rw [relocated, evaluate, evaluate]
    | call name f propagates t args =>
      have hargs := evaluateArguments_congr hchildren name propagates 0
      rw [children] at hargs
      rw [relocated, relocatedAll_eq_map, evaluate, evaluate, hargs]
    | promotion p t =>
      cases hchildren with
      | cons hp _ => rw [relocated, evaluate, evaluate, type_relocated, hp]
    | logic c t args =>
      rw [relocated, relocatedAll_eq_map, evaluate, evaluate]
      exact Expr.evaluateLogic_congr hchildren c false 0

end Plan

namespace Expr

open Plan

variable {r : DataType} {ps qs : List Plan}

theorem promoteArguments_relocated {name : Text} {propagates : Bool} {index : Nat}
    {parameters : List (Option DataType)}
    (h : promoteArguments name propagates index ps parameters = .ok qs) :
    promoteArguments name propagates index (ps.map (relocated r)) parameters =
      .ok (qs.map (relocated r)) := by
  induction ps generalizing parameters index qs with
  | nil =>
    cases h
    rfl
  | cons p ps ih =>
    cases parameters with
    | nil =>
      cases h
      rfl
    | cons t ts =>
      simp only [promoteArguments, bind_ok_iff, inside_ok_iff, List.map_cons] at h ⊢
      obtain ⟨target, htarget, q, hq, rest, hrest, hpure⟩ := h
      cases hpure
      refine ⟨target, ?_, q.relocated r, promoteTo_relocated hq, rest.map (relocated r), ih hrest,
        rfl⟩
      unfold argumentTarget at htarget ⊢
      rwa [type_relocated]

theorem bindCall_relocated {env env' : Environment} (hfunctions : env'.functions = env.functions)
    (hstrict : env'.strictNulls = env.strictNulls) {name : Text} {p : Plan}
    (h : bindCall env name ps = .ok p) :
    bindCall env' name (ps.map (relocated r)) = .ok (p.relocated r) := by
  obtain ⟨registry, b, qs, hf, hb, hn, hqs, rfl⟩ := bindCall_ok_iff.mp h
  refine bindCall_ok_iff.mpr ⟨registry, b, qs.map (relocated r), hfunctions.trans hf, ?_, ?_,
    promoteArguments_relocated hqs, ?_⟩
  · rwa [types_relocated]
  · rwa [hstrict]
  · rw [ofBinding, ofBinding, relocated, relocatedAll_eq_map]

theorem unify_relocated {name : Text} (h : unify name ps = .ok qs) :
    unify name (ps.map (relocated r)) = .ok (qs.map (relocated r)) := by
  match ps with
  | [] | [_] | _ :: _ :: _ :: _ =>
    cases h
    rfl
  | [a, b] =>
    simp only [unify, List.map_cons, List.map_nil, type_relocated, bind_ok_iff] at h ⊢
    obtain ⟨common, hc, h⟩ := h
    refine ⟨common, hc, ?_⟩
    cases common with
    | none => cases h
    | some t =>
      simp only [mapIndexed, bind_ok_iff, inside_ok_iff] at h ⊢
      obtain ⟨x, hx, _, ⟨y, hy, _, hnil, hpair⟩, hpure⟩ := h
      cases hnil
      cases hpair
      cases hpure
      exact ⟨_, promoteTo_relocated hx, _, ⟨_, promoteTo_relocated hy, _, rfl, rfl⟩, rfl⟩

theorem logical_relocated {p : Plan} (h : Logical p) : Logical (p.relocated r) := by
  obtain ⟨t, ht, hpromotes⟩ := h
  exact ⟨t, by rwa [type_relocated], hpromotes⟩

theorem asNullableBoolean_relocated (p : Plan) :
    asNullableBoolean (p.relocated r) = (asNullableBoolean p).relocated r := by
  unfold asNullableBoolean
  rw [type_relocated, converted_relocated]
  split <;> rfl

theorem connected_relocated (c : Connective) (ps : List Plan) :
    connected c (ps.map (relocated r)) = (connected c ps).relocated r := by
  unfold connected logicType
  rw [any_isNullable_relocated, relocated, relocatedAll_eq_map]
  split
  · simp [asNullableBoolean_relocated, Function.comp_def]
  · rfl

theorem check_eq_variable {env : Environment} {e : Expr} {name : Text} {i : Int}
    {t : Option DataType} (h : e.check env = .ok (.variable name i t)) :
    checkVariable env name = .ok (.variable name i t) := by
  cases e with
  | «variable» n =>
    rw [check] at h
    obtain ⟨_, _, _, _, _, _, heq⟩ := checkVariable_ok_iff.mp h
    cases heq
    exact h
  | constant v =>
    rw [check] at h
    obtain ⟨_, heq⟩ := checkConstant_ok h
    cases heq
  | null =>
    rw [check] at h
    cases h
  | call n args =>
    obtain ⟨_, _, hbind⟩ := check_call_iff.mp h
    obtain ⟨_, _, _, _, _, _, _, heq⟩ := bindCall_ok_iff.mp hbind
    cases heq
  | operator n args =>
    obtain ⟨_, _, _, _, hbind⟩ := check_operator_iff.mp h
    obtain ⟨_, _, _, _, _, _, _, heq⟩ := bindCall_ok_iff.mp hbind
    cases heq
  | logic c args =>
    obtain ⟨_, _, _, _, heq⟩ := check_logic_iff.mp h
    cases heq

theorem check_variable_part {env : Environment} {e : Expr} {p : Plan} (h : e.check env = .ok p)
    {name : Text} {i : Int} {t : Option DataType} (hpart : (Plan.variable name i t).Part p) :
    checkVariable env name = .ok (.variable name i t) := by
  refine check_parts (fun q => ∀ name i t, q = .variable name i t →
    checkVariable env name = .ok q) ?_ ?_ h _ hpart name i t rfl
  · rintro p t name i u ⟨⟩
  · rintro e p hp name i t rfl
    exact check_eq_variable hp

section

variable {fs gs : List (Text × DataType)} {functions : Option Registry} {strict : Bool}

theorem checkVariable_relocated (hnames : (gs.map Prod.fst).Nodup) (hfields : fs ⊆ gs)
    {name : Text} {p : Plan}
    (h : checkVariable ⟨some (.record fs), functions, strict⟩ name = .ok p) :
    checkVariable ⟨some (.record gs), functions, strict⟩ name = .ok (p.relocated (.record gs)) := by
  obtain ⟨_, i, t, hr, _, hf, rfl⟩ := checkVariable_ok_iff.mp h
  cases hr
  obtain ⟨j, hj, hg⟩ := DataType.fieldIndex_of_mem hnames (hfields (List.mem_of_getElem? hf))
  refine checkVariable_ok_iff.mpr ⟨_, j, t, rfl, hj, hg, ?_⟩
  rw [relocated, DataType.position, hj]

theorem checksTo_relocated {env env' : Environment} {es : List Expr}
    (h : ∀ e ∈ es, ∀ p, e.check env = .ok p → e.check env' = .ok (p.relocated r))
    (hps : ChecksTo env es ps) : ChecksTo env' es (ps.map (relocated r)) := by
  induction hps with
  | nil => exact .nil
  | cons hp _ ih =>
    obtain ⟨hfirst, hothers⟩ := List.forall_mem_cons.mp h
    exact .cons (hfirst _ hp) (ih hothers)

/-- Checking does not depend on the place of a field. -/
theorem check_relocated (hnames : (gs.map Prod.fst).Nodup) (hfields : fs ⊆ gs) {e : Expr} {p : Plan}
    (h : e.check ⟨some (.record fs), functions, strict⟩ = .ok p) :
    e.check ⟨some (.record gs), functions, strict⟩ = .ok (p.relocated (.record gs)) := by
  induction e using argumentInduction generalizing p with
  | step e ih =>
    cases e with
    | «variable» name =>
      rw [check] at h ⊢
      exact checkVariable_relocated hnames hfields h
    | constant v =>
      rw [check] at h ⊢
      obtain ⟨t, rfl⟩ := checkConstant_ok h
      exact h
    | null =>
      rw [check] at h ⊢
      cases h
      rfl
    | call name args =>
      obtain ⟨ps, hps, hbind⟩ := check_call_iff.mp h
      exact check_call_iff.mpr ⟨_, checksTo_relocated (fun e he p => ih e he) hps,
        bindCall_relocated rfl rfl hbind⟩
    | operator name args =>
      obtain ⟨ps, hps, qs, hunify, hbind⟩ := check_operator_iff.mp h
      exact check_operator_iff.mpr ⟨_, checksTo_relocated (fun e he p => ih e he) hps, _,
        unify_relocated hunify, bindCall_relocated rfl rfl hbind⟩
    | logic c args =>
      obtain ⟨hl, ps, hps, hlogical, rfl⟩ := check_logic_iff.mp h
      refine check_logic_iff.mpr ⟨hl, _, checksTo_relocated (fun e he p => ih e he) hps, ?_,
        (connected_relocated c ps).symm⟩
      intro q hq
      obtain ⟨p, hp, rfl⟩ := List.mem_map.mp hq
      exact logical_relocated (hlogical p hp)

/-- A query depends on the fields that it names only. Under a record type that has all the fields of
another, in any order and among others, it checks to the same plan with the indices of its variables
there; and on records that agree on the fields of the first it has the same value or the same
failure. -/
theorem check_fields_by_name (hnames : (gs.map Prod.fst).Nodup) (hfields : fs ⊆ gs) {e : Expr}
    {p : Plan} (hcheck : e.check ⟨some (.record fs), functions, strict⟩ = .ok p) :
    e.check ⟨some (.record gs), functions, strict⟩ = .ok (p.relocated (.record gs)) ∧
      ∀ record record' : List Value, (Value.record record).conforms (.record fs) = true →
        (∀ f ∈ fs, (DataType.record gs).valueOf? record' f.1 =
          (DataType.record fs).valueOf? record f.1) →
        p.evaluate record = (p.relocated (.record gs)).evaluate record' := by
  refine ⟨check_relocated hnames hfields hcheck, fun record record' hrecord hagree => ?_⟩
  refine evaluate_relocated fun name i t hpart => ?_
  have hvariable := check_variable_part hcheck hpart
  obtain ⟨_, j, u, hr, hj, hf, heq⟩ := checkVariable_ok_iff.mp hvariable
  cases hr
  cases heq
  obtain ⟨v, hv, _⟩ := Value.conforms_field hrecord hf
  have hmem : (name, u) ∈ fs := List.mem_of_getElem? hf
  obtain ⟨k, hk, _⟩ := DataType.fieldIndex_of_mem hnames (hfields hmem)
  have hsame : record'[k]? = some v := by
    simpa [DataType.valueOf?, hk, hj, hv] using hagree _ hmem
  rw [DataType.position, hk, evaluate_variable hv, evaluate_variable hsame]

end

def labelExpr : Expr := .call (utf8 "concat") [.variable (utf8 "x"), .variable (utf8 "s")]

def labelFields : List (Text × DataType) :=
  [(utf8 "x", .scalar .int), (utf8 "s", .nullable .string)]

/-- The same fields the other way round, with one between them. -/
def labelFieldsApart : List (Text × DataType) :=
  [(utf8 "s", .nullable .string), (utf8 "n", .scalar .double), (utf8 "x", .scalar .int)]

/-- A number is converted to a text and put before another that may be null. -/
theorem check_fields_by_name_concat :
    (labelFieldsApart.map Prod.fst).Nodup ∧ labelFields ⊆ labelFieldsApart ∧
    ∃ p, labelExpr.check ⟨some (.record labelFields), some Registry.builtin, false⟩ = .ok p ∧
      labelExpr.check ⟨some (.record labelFieldsApart), some Registry.builtin, false⟩ =
        .ok (p.relocated (.record labelFieldsApart)) ∧
      p.evaluate [.int 3, .string (utf8 "a")] =
        (p.relocated (.record labelFieldsApart)).evaluate
          [.string (utf8 "a"), .double Double.zero, .int 3] := by
  have hnames : (labelFieldsApart.map Prod.fst).Nodup := by decide
  have hfields : labelFields ⊆ labelFieldsApart := by
    simp [labelFields, labelFieldsApart]
  obtain ⟨p, hp⟩ : ∃ p, labelExpr.check
      ⟨some (.record labelFields), some Registry.builtin, false⟩ = .ok p :=
    exists_of_isOk (by decide +kernel)
  obtain ⟨hcheck, hsame⟩ := check_fields_by_name hnames hfields hp
  refine ⟨hnames, hfields, p, hp, hcheck, hsame _ _ (by decide) ?_⟩
  simp only [labelFields, List.forall_mem_cons, List.not_mem_nil, false_imp_iff, implies_true,
    and_true]
  exact ⟨rfl, rfl⟩

end Expr

end TypedStream
