import TypedStream.Proofs.Builtin.Plain
import TypedStream.Proofs.CommonType
import TypedStream.Proofs.Elaboration
import TypedStream.Proofs.Safety

namespace TypedStream

open DataType Value

namespace DataType

/-- The type itself or its nullable version. -/
def Loosens (t u : DataType) : Prop := u = t ∨ t.asNullable = some u

namespace Loosens

variable {t u : DataType}

theorem nonNullable (h : t.Loosens u) : u.nonNullable = t.nonNullable := by
  rcases h with rfl | h
  · rfl
  · cases t <;> cases h <;> rfl

theorem isNullable (h : t.Loosens u) (ht : t.isNullable = true) : u.isNullable = true := by
  rcases h with rfl | h
  · exact ht
  · exact isNullable_of_asNullable h

theorem promotesTo_nullable (h : t.Loosens u) (s : Scalar) :
    u.promotesTo (.nullable s) = t.promotesTo (.nullable s) := by
  rcases h with rfl | h
  · rfl
  · cases t <;> cases h <;> rfl

theorem conforms {v : Value} (h : t.Loosens u) (hv : v.conforms t = true) :
    v.conforms u = true := by
  rcases h with rfl | h
  · exact hv
  · exact conforms_asNullable hv h

theorem eq_of_not_scalar (h : t.Loosens u) (ht : ∀ s, t.nonNullable ≠ some (.scalar s)) :
    u = t := by
  rcases h with rfl | h
  · rfl
  · cases t <;> simp_all [DataType.nonNullable, asNullable]

end Loosens

theorem map_nonNullable_of_loosens {ts us : List DataType} (h : List.Forall₂ Loosens ts us) :
    us.map nonNullable = ts.map nonNullable := by
  induction h with
  | nil => rfl
  | cons htu _ ih => rw [List.map_cons, List.map_cons, htu.nonNullable, ih]

/-- The versions of a type, loosened or not. -/
def versions (t : DataType) : List DataType := t :: t.asNullable.toList

theorem mem_versions {t u : DataType} : u ∈ t.versions ↔ t.Loosens u := by
  simp [versions, Loosens]

/-- Looser operands have a looser common type. -/
def commonLoosens (a b : DataType) : Bool :=
  match a.commonType b with
  | none => true
  | some c => a.versions.all fun a' => b.versions.all fun b' =>
    match a'.commonType b' with
    | none => false
    | some c' => c.versions.any (equals c')

theorem commonLoosens_primitives :
    ∀ a ∈ primitives, ∀ b ∈ primitives, commonLoosens a b = true := by
  decide +kernel

theorem commonType_loosens {a b c a' b' : DataType} (ha : a.Loosens a') (hb : b.Loosens b')
    (hc : a.commonType b = some c) : ∃ c', a'.commonType b' = some c' ∧ c.Loosens c' := by
  obtain ⟨hac, hbc⟩ := commonType_promotes hc
  cases hprimitive : c.isPrimitive with
  | true =>
    have hall := commonLoosens_primitives
      a (mem_primitives (isPrimitive_of_promotesTo hac hprimitive))
      b (mem_primitives (isPrimitive_of_promotesTo hbc hprimitive))
    simp only [commonLoosens, hc, List.all_eq_true] at hall
    have hloose := hall a' (mem_versions.mpr ha) b' (mem_versions.mpr hb)
    cases hc' : a'.commonType b' with
    | none => simp [hc'] at hloose
    | some c' =>
      simp only [hc', List.any_eq_true, equals_iff] at hloose
      obtain ⟨_, hmem, rfl⟩ := hloose
      exact ⟨c', rfl, mem_versions.mp hmem⟩
  | false =>
    have hnot : ∀ s, c.nonNullable ≠ some (.scalar s) := by
      intro s hs
      rcases nonNullable_scalar_iff.mp hs with rfl | rfl <;> cases hprimitive
    have hac := eq_of_promotesTo hac hnot
    have hbc := eq_of_promotesTo hbc hnot
    subst hac
    subst hbc
    rw [ha.eq_of_not_scalar hnot, hb.eq_of_not_scalar hnot]
    exact ⟨_, hc, .inl rfl⟩

/-- The same names in the same order, and types that are looser or the same. -/
abbrev Loosened (fs gs : List (Text × DataType)) : Prop :=
  List.Forall₂ (fun f g => f.1 = g.1 ∧ f.2.Loosens g.2) fs gs

theorem Loosened.findIdx? {fs gs : List (Text × DataType)} (h : Loosened fs gs) (name : Text) :
    gs.findIdx? (·.1 == name) = fs.findIdx? (·.1 == name) := by
  induction h with
  | nil => rfl
  | cons hf _ ih => simp only [List.findIdx?_cons, ih, hf.1]

theorem Loosened.conforms {fs gs : List (Text × DataType)} (h : Loosened fs gs)
    {record : List Value} (hrecord : (Value.record record).conforms (.record fs) = true) :
    (Value.record record).conforms (.record gs) = true := by
  simp only [Value.conforms] at hrecord ⊢
  induction h generalizing record with
  | nil => exact hrecord
  | @cons f g _ _ hf _ ih =>
    obtain ⟨_, s⟩ := f
    obtain ⟨_, t⟩ := g
    cases record with
    | nil => simp [conformsFields] at hrecord
    | cons v vs =>
      simp only [conformsFields, Bool.and_eq_true] at hrecord ⊢
      exact ⟨hf.2.conforms hrecord.1, ih hrecord.2⟩

end DataType

namespace Plan

open TypedStream.Expr

/-- The second plan stands for the first where fields are loosened. -/
structure Follows (fs gs : List (Text × DataType)) (p q : Plan) : Prop where
  source : p.WellTyped (.lenient fs)
  target : q.WellTyped (.lenient gs)
  types : ∃ t u, p.type = some t ∧ q.type = some u ∧ t.Loosens u
  constants : q.constants = p.constants

/-- On the records of the first fields both plans have the same value, if what they start from is
rounded. -/
structure Persists (fs gs : List (Text × DataType)) (p q : Plan) : Prop
    extends Follows fs gs p q where
  same : ∀ record, (Value.record record).conforms (.record fs) = true →
    (∀ v ∈ record, v.Rounded) → (∀ v ∈ p.constants, v.Rounded) →
      p.evaluate record = q.evaluate record

variable {fs gs : List (Text × DataType)} {p q : Plan} {ps qs : List Plan} {record : List Value}

theorem Persists.refl (hfs : p.WellTyped (.lenient fs)) (hgs : p.WellTyped (.lenient gs)) :
    Persists fs gs p p := by
  obtain ⟨t, ht⟩ := hfs.type_some
  exact ⟨⟨hfs, hgs, ⟨t, t, ht, ht, .inl rfl⟩, rfl⟩, fun _ _ _ _ => rfl⟩

theorem Follows.safe_source (h : Follows fs gs p q)
    (hrecord : (Value.record record).conforms (.record fs) = true) :
    p.Safe Failure.IsComputation record :=
  h.source.safe_of_builtin rfl hrecord

theorem Follows.safe_target (h : Follows fs gs p q) (hfields : Loosened fs gs)
    (hrecord : (Value.record record).conforms (.record fs) = true) :
    q.Safe Failure.IsComputation record :=
  h.target.safe_of_builtin rfl (hfields.conforms hrecord)

theorem Follows.rounds_source (h : Follows fs gs p q)
    (hrecord : (Value.record record).conforms (.record fs) = true)
    (hvalues : ∀ v ∈ record, v.Rounded) (hconstants : ∀ v ∈ p.constants, v.Rounded) :
    p.Rounds record :=
  h.source.rounds rfl hrecord hvalues hconstants

theorem Follows.rounds_target (h : Follows fs gs p q) (hfields : Loosened fs gs)
    (hrecord : (Value.record record).conforms (.record fs) = true)
    (hvalues : ∀ v ∈ record, v.Rounded) (hconstants : ∀ v ∈ p.constants, v.Rounded) :
    q.Rounds record := by
  refine h.target.rounds rfl (hfields.conforms hrecord) hvalues ?_
  rw [h.constants]
  exact hconstants

theorem constants_converted (p : Plan) (t : DataType) :
    (p.converted t).constants = p.constants := by
  unfold converted
  split
  · rfl
  · simp only [constants]

theorem constants_connected (c : Connective) (ps : List Plan) :
    (connected c ps).constants = constantsAll ps := by
  have hsame : ∀ p : Plan, (asNullableBoolean p).constants = p.constants := by
    intro p
    unfold asNullableBoolean
    split
    · rfl
    · exact constants_converted p _
  rw [connected, constants, constantsAll_eq_flatMap, constantsAll_eq_flatMap]
  split
  · simp [List.flatMap_map, hsame]
  · rfl

theorem constantsAll_toward {ss : List Scalar} (h : ps.length = ss.length) :
    constantsAll (List.zipWith toward ps ss) = constantsAll ps := by
  induction ps generalizing ss with
  | nil => rfl
  | cons p ps ih =>
    cases ss with
    | nil => simp at h
    | cons s ss =>
      simp only [List.zipWith_cons_cons, constantsAll, toward, constants_converted]
      rw [ih (by simpa using h)]

theorem constantsAll_of_follows (h : List.Forall₂ (Follows fs gs) ps qs) :
    constantsAll qs = constantsAll ps := by
  induction h with
  | nil => rfl
  | cons hpq _ ih => rw [constantsAll, constantsAll, hpq.constants, ih]

theorem types_of_follows (h : List.Forall₂ (Follows fs gs) ps qs) :
    ∃ ts us, ps.map Plan.type = ts.map some ∧ qs.map Plan.type = us.map some ∧
      List.Forall₂ Loosens ts us := by
  induction h with
  | nil => exact ⟨[], [], rfl, rfl, .nil⟩
  | cons hpq _ ih =>
    obtain ⟨ts, us, hts, hus, hloose⟩ := ih
    obtain ⟨t, u, ht, hu, htu⟩ := hpq.types
    exact ⟨t :: ts, u :: us, by simp [ht, hts], by simp [hu, hus], .cons htu hloose⟩

theorem wellTyped_of_follows (h : List.Forall₂ (Follows fs gs) ps qs) :
    (∀ p ∈ ps, p.WellTyped (.lenient fs)) ∧ ∀ q ∈ qs, q.WellTyped (.lenient gs) := by
  constructor
  · intro p hp
    obtain ⟨q, _, hpq⟩ := forall₂_mem_left h hp
    exact hpq.source
  · intro q hq
    obtain ⟨p, _, hpq⟩ := forall₂_mem_right h hq
    exact hpq.target

theorem any_isNullable_of_follows (h : List.Forall₂ (Follows fs gs) ps qs)
    (hn : ps.any isNullable = true) : qs.any isNullable = true := by
  obtain ⟨p, hp, hpn⟩ := List.any_eq_true.mp hn
  obtain ⟨q, hq, hpq⟩ := forall₂_mem_left h hp
  obtain ⟨t, u, ht, hu, htu⟩ := hpq.types
  refine List.any_eq_true.mpr ⟨q, hq, ?_⟩
  simp only [isNullable, ht, hu, Option.map_some, Option.getD_some] at hpn ⊢
  exact htu.isNullable hpn

theorem isNull_toward (hp : p.Safe Failure.IsComputation record) {t : DataType} {s : Scalar}
    (ht : p.type = some t) (hpromotes : t.promotesTo (t.toward s) = true)
    (hnot : t.isNullable = false) {v : Value} (hv : (p.toward s).evaluate record = .ok v) :
    v.isNull = false := by
  rw [toward_eq ht] at hv
  have hc : v.conforms (t.toward s) = true := by
    simpa [conformsMissing] using (hp.converted ht hpromotes).ok hv
  cases hvn : v.isNull with
  | false => rfl
  | true =>
    rw [eq_null_of_isNull hvn, conforms_null, isNullable_toward, hnot] at hc
    cases hc

/-- An argument keeps its value on the way to a parameter, and where only the second call lets null
through it is not null. -/
theorem Persists.sameArgument (h : Persists fs gs p q) (hfields : Loosened fs gs)
    (hrecord : (Value.record record).conforms (.record fs) = true)
    (hvalues : ∀ v ∈ record, v.Rounded) (hconstants : ∀ v ∈ p.constants, v.Rounded)
    {t : DataType} {s : Scalar} (ht : p.type = some t)
    (hpromotes : t.promotesTo (t.toward s) = true) {n m : Bool} (hnm : n = true → m = true)
    (hn : p.isNullable = true → n = true) :
    SameArgument record n m (p.toward s) (q.toward s) := by
  obtain ⟨_, u, ht', hu, htu⟩ := h.types
  cases ht.symm.trans ht'
  have hp := h.safe_source hrecord
  have hpromotes' : u.promotesTo (u.toward s) = true := by
    rwa [promotesTo_toward, htu.promotesTo_nullable, ← promotesTo_toward]
  constructor
  · rw [evaluate_toward hp (h.rounds_source hrecord hvalues hconstants) ht hpromotes,
      evaluate_toward (h.safe_target hfields hrecord)
        (h.rounds_target hfields hrecord hvalues hconstants) hu hpromotes',
      h.same record hrecord hvalues hconstants]
  · intro v hv
    cases n with
    | true => rw [hnm rfl]
    | false =>
      have hnot : t.isNullable = false := by simpa [isNullable, ht] using hn
      rw [isNull_toward hp ht hpromotes hnot hv, Bool.and_false, Bool.and_false]

theorem sameArguments (hfields : Loosened fs gs) (hpq : List.Forall₂ (Persists fs gs) ps qs)
    (hrecord : (Value.record record).conforms (.record fs) = true)
    (hvalues : ∀ v ∈ record, v.Rounded) (hconstants : ∀ v ∈ constantsAll ps, v.Rounded)
    {ts : List DataType} {ss : List Scalar} (hts : ps.map Plan.type = ts.map some)
    (hfit : List.Forall₂ (fun t s => t.promotesTo (t.toward s) = true) ts ss) {n m : Bool}
    (hnm : n = true → m = true) (hn : ∀ p ∈ ps, p.isNullable = true → n = true) :
    List.Forall₂ (SameArgument record n m) (List.zipWith toward ps ss)
      (List.zipWith toward qs ss) := by
  induction hpq generalizing ts ss with
  | nil =>
    rw [List.zipWith_nil_left]
    exact .nil
  | @cons p q ps qs hpq _ ih =>
    cases hfit with
    | nil => simp at hts
    | @cons t s ts ss hpromotes hfit =>
      rw [List.map_cons, List.map_cons, List.cons.injEq] at hts
      rw [constantsAll, List.forall_mem_append] at hconstants
      obtain ⟨hfirst, hothers⟩ := List.forall_mem_cons.mp hn
      exact .cons
        (hpq.sameArgument hfields hrecord hvalues hconstants.1 hts.1 hpromotes hnm hfirst)
        (ih hconstants.2 hts.2 hfit hothers)

theorem Persists.converted (hfields : Loosened fs gs) (h : Persists fs gs p q)
    {t u c d : DataType} (ht : p.type = some t) (hu : q.type = some u)
    (htc : t.promotesTo c = true) (hud : u.promotesTo d = true) (hcd : c.Loosens d) :
    Persists fs gs (p.converted c) (q.converted d) := by
  refine ⟨⟨h.source.converted ht htc, h.target.converted hu hud, ⟨c, d, type_converted p c,
    type_converted q d, hcd⟩, by rw [constants_converted, constants_converted, h.constants]⟩, ?_⟩
  intro record hrecord hvalues hconstants
  rw [constants_converted] at hconstants
  have hsame := h.same record hrecord hvalues hconstants
  by_cases hb : ∃ b, c.nonNullable = some (.scalar b)
  · obtain ⟨b, hbare⟩ := hb
    rw [evaluate_convertTo (h.safe_source hrecord)
        (h.rounds_source hrecord hvalues hconstants) ht htc hbare,
      evaluate_convertTo (h.safe_target hfields hrecord)
        (h.rounds_target hfields hrecord hvalues hconstants) hu hud (hcd.nonNullable.trans hbare),
      hsame]
  · -- The common type is the operand's own, and has no other version.
    have hc := eq_of_promotesTo htc (not_exists.mp hb)
    have hd := hcd.eq_of_not_scalar (not_exists.mp hb)
    subst hc
    subst hd
    have hu' := eq_of_promotesTo hud (not_exists.mp hb)
    rw [converted_self ht, converted_self (hu' ▸ hu)]
    exact hsame

end Plan

namespace ScalarFunction

theorem Plain.resultFor_loosens {f : ScalarFunction} (hf : f.Plain) {n m : Bool}
    (hnm : n = true → m = true) :
    ∃ t u, f.resultFor n = some t ∧ f.resultFor m = some u ∧ t.Loosens u := by
  obtain ⟨r, hr⟩ := hf.result
  cases n with
  | true =>
    rw [hnm rfl]
    exact ⟨.nullable r, .nullable r, by simp [resultFor, hr, asNullable],
      by simp [resultFor, hr, asNullable], .inl rfl⟩
  | false =>
    cases m with
    | true => exact ⟨.scalar r, .nullable r, hr, by simp [resultFor, hr, asNullable], .inr rfl⟩
    | false => exact ⟨.scalar r, .scalar r, hr, hr, .inl rfl⟩

end ScalarFunction

namespace Expr

open Plan

variable {fs gs : List (Text × DataType)} {ps qs : List Plan}

theorem bindCall_loosened (hfields : Loosened fs gs) {name : Text} (hname : name ≠ utf8 "ifnull")
    (hpq : List.Forall₂ (Persists fs gs) ps qs) {r : Plan}
    (h : bindCall (.lenient fs) name ps = .ok r) :
    ∃ r', bindCall (.lenient gs) name qs = .ok r' ∧ Persists fs gs r r' := by
  have hplain := Registry.plain_overloads hname
  have hfollows : List.Forall₂ (Follows fs gs) ps qs := hpq.imp fun _ _ h => h.toFollows
  obtain ⟨ts, us, hts, hus, hloose⟩ := types_of_follows hfollows
  obtain ⟨hps, hqs⟩ := wellTyped_of_follows hfollows
  have hnm := any_isNullable_of_follows hfollows
  have hsource := (bindCall_ends (.of_builtin rfl) name hps).ok h
  obtain ⟨f, hf, _, rfl⟩ := (bindCall_plain_iff rfl hplain hts).mp h
  have hbind : bindCall (.lenient gs) name qs = .ok (applied name f qs) :=
    (bindCall_plain_iff rfl hplain hus).mpr
      ⟨f, by rwa [map_nonNullable_of_loosens hloose], by simp, rfl⟩
  obtain ⟨hmem, c, hc⟩ := Registry.bestOverload_some hf
  have htarget := (bindCall_ends (.of_builtin rfl) name hqs).ok hbind
  rw [(hplain f hmem).parameters] at hc
  have hfit := Registry.cost?_toward hc
  have hlength : ps.length = f.scalars.length := by
    rw [← hfit.length_eq]
    simpa using congrArg List.length hts
  have hconstants : (applied name f ps).constants = constantsAll ps := by
    rw [applied, constants, constantsAll_toward hlength]
  have hconstants' : (applied name f qs).constants = constantsAll qs := by
    rw [applied, constants, constantsAll_toward (hpq.length_eq.symm.trans hlength)]
  refine ⟨_, hbind, ⟨hsource, htarget, (hplain f hmem).resultFor_loosens hnm, ?_⟩, ?_⟩
  · rw [hconstants, hconstants', constantsAll_of_follows hfollows]
  · intro record hrecord hvalues hrounded
    rw [hconstants] at hrounded
    exact evaluate_call_congr (sameArguments hfields hpq hrecord hvalues hrounded hts hfit hnm
      fun p hp hn => List.any_eq_true.mpr ⟨p, hp, hn⟩)

theorem unify_loosened (hfields : Loosened fs gs) (name : Text)
    (hpq : List.Forall₂ (Persists fs gs) ps qs) {rs : List Plan} (h : unify name ps = .ok rs) :
    ∃ rs', unify name qs = .ok rs' ∧ List.Forall₂ (Persists fs gs) rs rs' := by
  match hpq with
  | .nil =>
    cases h
    exact ⟨[], rfl, .nil⟩
  | .cons hp .nil =>
    cases h
    exact ⟨_, rfl, .cons hp .nil⟩
  | .cons hp (.cons hq .nil) =>
    obtain ⟨a, a', ha, ha', haa⟩ := hp.types
    obtain ⟨b, b', hb, hb', hbb⟩ := hq.types
    obtain ⟨c, hc, rfl⟩ := (unify_pair_iff ha hb).mp h
    obtain ⟨c', hc', hcc⟩ := commonType_loosens haa hbb hc
    refine ⟨_, (unify_pair_iff ha' hb').mpr ⟨c', hc', rfl⟩, ?_⟩
    obtain ⟨hac, hbc⟩ := commonType_promotes hc
    obtain ⟨hac', hbc'⟩ := commonType_promotes hc'
    exact .cons (hp.converted hfields ha ha' hac hac' hcc)
      (.cons (hq.converted hfields hb hb' hbc hbc' hcc) .nil)
  | .cons hp (.cons hq (.cons hr hrest)) =>
    cases h
    exact ⟨_, rfl, .cons hp (.cons hq (.cons hr hrest))⟩

theorem logicType_loosens (h : ps.any Plan.isNullable = true → qs.any Plan.isNullable = true) :
    (logicType ps).Loosens (logicType qs) := by
  unfold logicType
  cases hn : ps.any Plan.isNullable with
  | true =>
    rw [h hn]
    exact .inl rfl
  | false =>
    cases qs.any Plan.isNullable with
    | true => exact .inr rfl
    | false => exact .inl rfl

theorem connected_loosened (hfields : Loosened fs gs) (c : Connective)
    (hpq : List.Forall₂ (Persists fs gs) ps qs) (hl : 2 ≤ ps.length) (hps : ∀ p ∈ ps, Logical p) :
    (∀ q ∈ qs, Logical q) ∧ Persists fs gs (connected c ps) (connected c qs) := by
  have hfollows : List.Forall₂ (Follows fs gs) ps qs := hpq.imp fun _ _ h => h.toFollows
  obtain ⟨hsource, htarget⟩ := wellTyped_of_follows hfollows
  have hqs : ∀ q ∈ qs, Logical q := by
    intro q hq
    obtain ⟨p, hp, hpq⟩ := forall₂_mem_right hpq hq
    obtain ⟨t, u, ht, hu, htu⟩ := hpq.types
    obtain ⟨_, ht', hb⟩ := hps p hp
    cases ht.symm.trans ht'
    exact ⟨u, hu, (htu.promotesTo_nullable .boolean).trans hb⟩
  refine ⟨hqs, ⟨(connect_ends c hl hsource).ok (connect_ok_iff.mpr ⟨hps, rfl⟩),
    (connect_ends c (hpq.length_eq ▸ hl) htarget).ok (connect_ok_iff.mpr ⟨hqs, rfl⟩), ?_, ?_⟩, ?_⟩
  · exact ⟨logicType ps, logicType qs, rfl, rfl,
      logicType_loosens (any_isNullable_of_follows hfollows)⟩
  · rw [constants_connected, constants_connected, constantsAll_of_follows hfollows]
  · intro record hrecord hvalues hconstants
    rw [constants_connected] at hconstants
    have hrounded : ∀ p ∈ ps, ∀ v ∈ p.constants, v.Rounded := fun p hp v hv =>
      hconstants v (mem_constantsAll hp hv)
    have hargs := (List.forall₂_and_left _ _).mpr ⟨hrounded, hpq⟩
    rw [evaluate_connected c (fun p hp => (hsource p hp).safe_of_builtin rfl hrecord) hps,
      evaluate_connected c
        (fun q hq => (htarget q hq).safe_of_builtin rfl (hfields.conforms hrecord)) hqs]
    exact evaluateLogic_congr (hargs.imp fun _ _ h => h.2.same record hrecord hvalues h.1) c false 0

/-- No call and no operator has the name. -/
inductive Avoids (name : Text) : Expr → Prop
  | variable (field : Text) : Avoids name (.variable field)
  | constant (v : Value) : Avoids name (.constant v)
  | null : Avoids name .null
  | call {function : Text} {arguments : List Expr} (differ : function ≠ name)
      (inner : ∀ e ∈ arguments, Avoids name e) : Avoids name (.call function arguments)
  | operator {function : Text} {arguments : List Expr} (differ : function ≠ name)
      (inner : ∀ e ∈ arguments, Avoids name e) : Avoids name (.operator function arguments)
  | logic {c : Connective} {arguments : List Expr} (inner : ∀ e ∈ arguments, Avoids name e) :
      Avoids name (.logic c arguments)

theorem checkVariable_loosened (hfields : Loosened fs gs) (name : Text) {p : Plan}
    (h : checkVariable (.lenient fs) name = .ok p) :
    ∃ q, checkVariable (.lenient gs) name = .ok q ∧ Persists fs gs p q := by
  have hsource := (checkVariable_ends name).ok h
  obtain ⟨_, i, t, hr, hi, hf, rfl⟩ := checkVariable_ok_iff.mp h
  cases hr
  obtain ⟨⟨_, u⟩, hg, rfl, htypes⟩ := forall₂_getElem? hfields hf
  have htarget : checkVariable (.lenient gs) name = .ok (.variable name i (some u)) :=
    checkVariable_ok_iff.mpr ⟨_, i, u, rfl, (hfields.findIdx? name).trans hi, hg, rfl⟩
  exact ⟨_, htarget, ⟨hsource, (checkVariable_ends name).ok htarget, ⟨t, u, rfl, rfl, htypes⟩,
    rfl⟩, fun _ _ _ _ => rfl⟩

theorem check_persists (hfields : Loosened fs gs) {e : Expr} (he : e.Avoids (utf8 "ifnull"))
    {p : Plan} (h : e.check (.lenient fs) = .ok p) :
    ∃ q, e.check (.lenient gs) = .ok q ∧ Persists fs gs p q := by
  induction he generalizing p with
  | «variable» field =>
    rw [check] at h ⊢
    exact checkVariable_loosened hfields field h
  | constant v =>
    rw [check] at h ⊢
    exact ⟨p, h, .refl ((checkConstant_ends v).ok h) ((checkConstant_ends v).ok h)⟩
  | null =>
    rw [check] at h ⊢
    cases h
    exact ⟨_, rfl, .refl (.constant rfl) (.constant rfl)⟩
  | call differ _ ih =>
    obtain ⟨ps, hps, hbind⟩ := check_call_iff.mp h
    obtain ⟨qs, hqs, hpq⟩ := hps.related fun e he p => ih e he
    obtain ⟨r, hr, hsame⟩ := bindCall_loosened hfields differ hpq hbind
    exact ⟨r, check_call_iff.mpr ⟨qs, hqs, hr⟩, hsame⟩
  | operator differ _ ih =>
    obtain ⟨ps, hps, ps', hunify, hbind⟩ := check_operator_iff.mp h
    obtain ⟨qs, hqs, hpq⟩ := hps.related fun e he p => ih e he
    obtain ⟨qs', hunify', hpq'⟩ := unify_loosened hfields _ hpq hunify
    obtain ⟨r, hr, hsame⟩ := bindCall_loosened hfields differ hpq' hbind
    exact ⟨r, check_operator_iff.mpr ⟨qs, hqs, qs', hunify', hr⟩, hsame⟩
  | @logic c _ _ ih =>
    obtain ⟨hl, ps, hps, hlogical, rfl⟩ := check_logic_iff.mp h
    obtain ⟨qs, hqs, hpq⟩ := hps.related fun e he p => ih e he
    have hlength : 2 ≤ ps.length := by rwa [← hps.length_eq]
    obtain ⟨hlogical', hsame⟩ := connected_loosened hfields c hpq hlength hlogical
    exact ⟨_, check_logic_iff.mpr ⟨hl, qs, hqs, hlogical', rfl⟩, hsame⟩

/-- Making fields nullable breaks no query over functions that let null through: it checks to the
same type or its nullable version. On every record of the former fields it has the same value or the
same failure, if the FLOATs of the record and of the query hold numbers of single precision. -/
theorem check_nullable_fields {fs gs : List (Text × DataType)} (hfields : Loosened fs gs) {e : Expr}
    (he : e.Avoids (utf8 "ifnull")) {p : Plan} (hcheck : e.check (.lenient fs) = .ok p) :
    ∃ q t u, e.check (.lenient gs) = .ok q ∧ p.type = some t ∧ q.type = some u ∧
      (u = t ∨ t.asNullable = some u) ∧
      ∀ record : List Value, (Value.record record).conforms (.record fs) = true →
        (∀ v ∈ record ++ p.constants, v.Rounded) → p.evaluate record = q.evaluate record := by
  obtain ⟨q, hq, hpersists⟩ := check_persists hfields he hcheck
  obtain ⟨t, u, ht, hu, htu⟩ := hpersists.types
  refine ⟨q, t, u, hq, ht, hu, htu, fun record hrecord hrounded => ?_⟩
  obtain ⟨hvalues, hconstants⟩ := List.forall_mem_append.mp hrounded
  exact hpersists.same record hrecord hvalues hconstants

def sumTest : Expr :=
  .logic .disjunction [
    .operator (utf8 "<") [
      .call (utf8 "+") [.variable (utf8 "x"), .variable (utf8 "y")], .constant (.int 2)],
    .operator (utf8 "=") [.variable (utf8 "y"), .null]]

/-- An integer field becomes nullable beside one of single precision. -/
theorem check_nullable_fields_sum :
    Loosened [(utf8 "x", .scalar .int), (utf8 "y", .scalar .float)]
      [(utf8 "x", .nullable .int), (utf8 "y", .scalar .float)] ∧
    sumTest.Avoids (utf8 "ifnull") ∧
    ∃ p q t u,
      sumTest.check (.lenient [(utf8 "x", .scalar .int), (utf8 "y", .scalar .float)]) = .ok p ∧
      sumTest.check (.lenient [(utf8 "x", .nullable .int), (utf8 "y", .scalar .float)]) = .ok q ∧
      p.type = some t ∧ q.type = some u ∧ (u = t ∨ t.asNullable = some u) ∧
      p.evaluate [.int 3, roundTenth] = q.evaluate [.int 3, roundTenth] := by
  have hfields : Loosened [(utf8 "x", .scalar .int), (utf8 "y", .scalar .float)]
      [(utf8 "x", .nullable .int), (utf8 "y", .scalar .float)] :=
    .cons ⟨rfl, .inr rfl⟩ (.cons ⟨rfl, .inl rfl⟩ .nil)
  have havoids : sumTest.Avoids (utf8 "ifnull") := by
    refine .logic (List.forall_mem_cons.mpr ⟨?_, List.forall_mem_singleton.mpr ?_⟩)
    · refine .operator (by decide) (List.forall_mem_cons.mpr ⟨?_, ?_⟩)
      · exact .call (by decide) (by simp [Avoids.variable])
      · simp [Avoids.constant]
    · exact .operator (by decide) (by simp [Avoids.variable, Avoids.null])
  have hrounded : ((sumTest.check
      (.lenient [(utf8 "x", .scalar .int), (utf8 "y", .scalar .float)])).toOption.map fun p =>
        decide (∀ v ∈ [.int 3, roundTenth] ++ p.constants, v.Rounded)) = some true := by
    decide +kernel
  obtain ⟨p, hp⟩ : ∃ p, sumTest.check
      (.lenient [(utf8 "x", .scalar .int), (utf8 "y", .scalar .float)]) = .ok p :=
    exists_of_isOk (by decide +kernel)
  rw [hp] at hrounded
  obtain ⟨q, t, u, hq, ht, hu, htu, hvalues⟩ := check_nullable_fields hfields havoids hp
  exact ⟨hfields, havoids, p, q, t, u, hp, hq, ht, hu, htu, hvalues _ (by decide +kernel)
    (of_decide_eq_true (Option.some.inj hrounded))⟩

/-- A tenth of double precision in a FLOAT equals one of single precision until its field becomes
nullable: only a field that is not has to be converted. -/
theorem nullable_field_changes_answer :
    Loosened floatFields (pairFields (.nullable .float) (.nullable .float)) ∧
    (pairTest "=").Avoids (utf8 "ifnull") ∧
    (Value.record [tenth, roundTenth]).conforms (.record floatFields) = true ∧
    ∃ p q, (pairTest "=").check (.lenient floatFields) = .ok p ∧
      (pairTest "=").check (.lenient (pairFields (.nullable .float) (.nullable .float))) = .ok q ∧
      p.evaluate [tenth, roundTenth] = .ok (.boolean true) ∧
      q.evaluate [tenth, roundTenth] = .ok (.boolean false) := by
  obtain ⟨p, hp, htrue⟩ := tenths_equal
  obtain ⟨q, hq, hfalse⟩ := answer?_eq_some.mp (show (pairTest "=").answer?
    (.lenient (pairFields (.nullable .float) (.nullable .float))) [tenth, roundTenth] =
      some false by decide +kernel)
  refine ⟨.cons ⟨rfl, .inr rfl⟩ (.cons ⟨rfl, .inl rfl⟩ .nil), ?_, rfl, p, q, hp, hq, htrue,
    hfalse⟩
  exact .operator (by decide) (by simp [Avoids.variable])

end Expr

end TypedStream
