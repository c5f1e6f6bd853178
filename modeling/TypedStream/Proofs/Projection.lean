import TypedStream.Proofs.Draft
import TypedStream.Proofs.Safety
import TypedStream.Proofs.Wire.Record

namespace TypedStream

theorem Projection.evaluateAll_ends {bad : Failure → Prop} {record : List Value}
    {bs : List FieldDraft} {fs : List (Text × DataType)}
    (hd : List.Forall₂ FieldDraft.Describes bs fs)
    (hsafe : ∀ b ∈ bs, b.expression.Safe bad record) :
    Ends (fun values => Value.conformsFields values fs = true) bad
      (evaluateAll record (bs.map FieldDraft.labeled)) := by
  induction hd with
  | nil => rfl
  | @cons b f bs fs hb _ ih =>
    obtain ⟨hfirst, hothers⟩ := List.forall_mem_cons.mp hsafe
    rw [List.map_cons, evaluateAll]
    refine (hfirst.inside _).bind fun v hv => (ih hothers).bind fun vs hvs => ?_
    rw [hb.2] at hv
    change (v.conforms f.2 && Value.conformsFields vs fs) = true
    rw [Bool.and_eq_true]
    exact ⟨hv, hvs⟩

theorem Projection.rounded_of_evaluateAll {record : List Value} {bs : List FieldDraft}
    (hrounds : ∀ b ∈ bs, b.expression.Rounds record) {values : List Value}
    (h : evaluateAll record (bs.map FieldDraft.labeled) = .ok values) :
    ∀ v ∈ values, v.Rounded := by
  induction bs generalizing values with
  | nil =>
    cases h
    simp
  | cons b bs ih =>
    obtain ⟨hfirst, hothers⟩ := List.forall_mem_cons.mp hrounds
    rw [List.map_cons, evaluateAll, bind_ok_iff] at h
    obtain ⟨v, hv, h⟩ := h
    obtain ⟨vs, hvs, h⟩ := bind_ok_iff.mp h
    cases h
    exact List.forall_mem_cons.mpr ⟨hfirst v (inside_ok_iff.mp hv), ih hothers hvs⟩

theorem Draft.ready_of_check {env : Environment} (henv : env.Typed) {d : Draft}
    (hopen : d.finalized = false) (hne : d.fields ≠ [])
    (hchecked : ∀ b ∈ d.fields, ∃ e : Expr, e.check env = .ok b.expression)
    (hlabels : ∀ b ∈ d.fields, b.serialization ≠ [])
    (hdistinct : (d.fields.map FieldDraft.serialization).Nodup) : d.Ready := by
  refine ⟨hopen, hne, fun b hb => ?_, hdistinct⟩
  obtain ⟨e, he⟩ := hchecked b hb
  exact FieldDraft.check_ok_iff.mpr ⟨((Expr.check_ends henv e).ok he).resolved, hlabels b hb⟩

namespace Draft

/-- However a draft came about, if its expressions were checked and its labels are distinct, then it
becomes a projection. Its record type has the labels as names, its output is of that type, and what
has a representation is decoded from its encoding, if FLOATs of the input and constants in the
expressions have single precision. -/
theorem finalize_output_fits {env : Environment} {r : DataType} {d : Draft}
    (hrecord : env.record = some r) (hbuiltin : env.functions = some Registry.builtin)
    (hreachable : d.Reachable) (hopen : d.finalized = false) (hne : d.fields ≠ [])
    (hchecked : ∀ b ∈ d.fields, ∃ e : Expr, e.check env = .ok b.expression)
    (hlabels : ∀ b ∈ d.fields, b.serialization ≠ [])
    (hdistinct : (d.fields.map FieldDraft.serialization).Nodup) :
    ∃ next projection fs, d.finalize = .ok (next, projection) ∧
      projection.recordType = .record fs ∧
      fs.map Prod.fst = d.fields.map FieldDraft.serialization ∧
      ∀ record, (Value.record record).conforms r = true →
        ∀ values, projection.evaluate record = .ok values →
          (Value.record values).conforms projection.recordType = true ∧
          ∃ schema, Wire.schemaOf projection.recordType = .ok schema ∧
            ((∀ field ∈ schema, field.kind ≠ .unsupported) →
              ∃ data, Wire.encode schema values = .ok data ∧
                (schema.length ≤ 2147483647 → (∀ v ∈ values, v.Sized) →
                  (∀ v ∈ record, v.Rounded) →
                  (∀ b ∈ d.fields, ∀ v ∈ b.expression.constants, v.Rounded) →
                  Wire.decode schema data = .ok values)) := by
  obtain ⟨fs, hd, hfinal⟩ := finalize_ready hreachable.coherent
    (ready_of_check (.of_builtin hbuiltin) hopen hne hchecked hlabels hdistinct)
  refine ⟨_, _, fs, hfinal, rfl, FieldDraft.names_of_describes hd, ?_⟩
  intro record hconforms values hvalues
  have hsafe : ∀ b ∈ d.fields, b.expression.Safe Failure.IsComputation record := by
    intro b hb
    obtain ⟨e, he⟩ := hchecked b hb
    exact Expr.check_safe hrecord hconforms hbuiltin he
  have hfields := (Projection.evaluateAll_ends hd hsafe).ok hvalues
  refine ⟨by simpa [Value.conforms] using hfields, _, rfl, fun hsupported => ?_⟩
  have hadmits := Wire.admits_of_conformsFields hfields
    (fun f hf => hsupported _ (List.mem_map_of_mem hf))
  obtain ⟨data, hdata⟩ := Wire.encode_admits hadmits
  refine ⟨data, hdata, fun hmax hsized hinput hconstants => ?_⟩
  have hrounds : ∀ b ∈ d.fields, b.expression.Rounds record := by
    intro b hb
    obtain ⟨e, he⟩ := hchecked b hb
    exact Expr.check_rounds hrecord hconforms hbuiltin he hinput (hconstants b hb)
  rw [Wire.decode_of_encode hadmits hmax hsized hdata,
    Value.map_rounded (Projection.rounded_of_evaluateAll hrounds hvalues)]

def quotient : Expr :=
  .operator (utf8 "/") [.variable (utf8 "y"), .constant (.float ⟨0x3FE0000000000000⟩)]

/-- A number `x` that may be null, and a number `y` of single precision. -/
def quotientEnvironment : Environment :=
  .lenient (Expr.pairFields (.nullable .bigint) (.scalar .float))

def quotientDraft (p q : Plan) : Draft where
  fields := [{ expression := p, serialization := utf8 "q" },
    { expression := q, serialization := utf8 "x" }]

def quotientInput : List Value := [.null, .float ⟨0x3FF8000000000000⟩]

theorem forall_quotientDraft {p q : Plan} {holds : FieldDraft → Prop}
    (hp : holds { expression := p, serialization := utf8 "q" })
    (hq : holds { expression := q, serialization := utf8 "x" }) :
    ∀ b ∈ (quotientDraft p q).fields, holds b := by
  simp only [quotientDraft, List.forall_mem_cons, List.not_mem_nil, false_imp_iff, implies_true,
    and_true]
  exact ⟨hp, hq⟩

theorem quotientDraft_reachable (p q : Plan) : (quotientDraft p q).Reachable :=
  (Reachable.empty.add_labeled rfl p (utf8 "q")).add_labeled rfl q (utf8 "x")

/-- A quotient of single precision and a null go over the wire. -/
theorem finalize_output_fits_quotient :
    ∃ p q next projection values schema data,
      quotient.check quotientEnvironment = .ok p ∧
      (Expr.variable (utf8 "x")).check quotientEnvironment = .ok q ∧
      (quotientDraft p q).finalize = .ok (next, projection) ∧
      projection.evaluate quotientInput = .ok values ∧
      values.map Value.isNull = [false, true] ∧
      (Value.record values).conforms projection.recordType = true ∧
      Wire.schemaOf projection.recordType = .ok schema ∧
      schema.map (fun field : Wire.FieldSchema => field.kind) = [.float32, .int64] ∧
      Wire.encode schema values = .ok data ∧ Wire.decode schema data = .ok values := by
  have hrun : (do
      let p ← quotient.check quotientEnvironment
      let q ← (Expr.variable (utf8 "x")).check quotientEnvironment
      let out ← (quotientDraft p q).finalize
      let values ← out.2.evaluate quotientInput
      match Wire.schemaOf out.2.recordType with
      | .ok schema =>
        if schema.map (fun field : Wire.FieldSchema => field.kind) =
              [Wire.Kind.float32, Wire.Kind.int64] ∧
            (∀ field ∈ schema, field.kind ≠ Wire.Kind.unsupported) ∧ schema.length = 2 ∧
            values.map Value.isNull = [false, true] ∧ (∀ v ∈ values, v.Sized) ∧
            (∀ v ∈ p.constants, v.Rounded) ∧ (∀ v ∈ q.constants, v.Rounded) then pure ()
        else throw Failure.finalized
      | .error e => throw (Failure.type e)).isOk = true := by decide +kernel
  obtain ⟨_, hrun⟩ := exists_of_isOk hrun
  obtain ⟨p, hp, hrun⟩ := bind_ok_iff.mp hrun
  obtain ⟨q, hq, hrun⟩ := bind_ok_iff.mp hrun
  obtain ⟨⟨next, projection⟩, hfinal, hrun⟩ := bind_ok_iff.mp hrun
  obtain ⟨values, hvalues, hrun⟩ := bind_ok_iff.mp hrun
  have hlabels : utf8 "q" ≠ [] ∧ utf8 "x" ≠ [] ∧ [utf8 "q", utf8 "x"].Nodup := by decide
  obtain ⟨_, _, _, hfinal', _, _, hfits⟩ := finalize_output_fits rfl rfl
    (quotientDraft_reachable p q) rfl (List.cons_ne_nil _ _)
    (forall_quotientDraft ⟨_, hp⟩ ⟨_, hq⟩) (forall_quotientDraft hlabels.1 hlabels.2.1)
    hlabels.2.2
  cases hfinal.symm.trans hfinal'
  obtain ⟨hconforms, schema, hschema, hwire⟩ := hfits quotientInput (by decide) values hvalues
  simp only [hschema] at hrun
  split at hrun
  · rename_i hok
    obtain ⟨hkinds, hsupported, hlength, hnulls, hsized, hpconstants, hqconstants⟩ := hok
    obtain ⟨data, hencode, hdecode⟩ := hwire hsupported
    exact ⟨p, q, next, projection, values, schema, data, hp, hq, hfinal, hvalues, hnulls, hconforms,
      hschema, hkinds, hencode, hdecode (by omega) hsized (by decide +kernel)
        (forall_quotientDraft hpconstants hqconstants)⟩
  · cases hrun

end Draft

end TypedStream
