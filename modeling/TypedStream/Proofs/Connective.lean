import TypedStream.Proofs.Conversion

namespace TypedStream.Expr

open DataType Value Plan

variable {ps qs : List Plan}

/-- The plan is a boolean, a nullable boolean or the null literal. -/
def Logical (p : Plan) : Prop := ∃ t, p.type = some t ∧ t.promotesTo nullableBoolean = true

/-- An argument of a nullable connective. Only the null literal has to be converted. -/
def asNullableBoolean (p : Plan) : Plan :=
  if DataType.equalMissing p.type (some (.scalar .boolean)) then p
  else p.converted nullableBoolean

/-- The plan of a connective. -/
def connected (c : Connective) (ps : List Plan) : Plan :=
  .logic c (some (logicType ps)) (if ps.any Plan.isNullable then ps.map asNullableBoolean else ps)

@[simp] theorem isNullable_logicType (ps : List Plan) :
    (logicType ps).isNullable = ps.any Plan.isNullable := by
  cases hn : ps.any Plan.isNullable <;> simp [logicType, hn, DataType.isNullable]

theorem promotesTo_logicType (ps : List Plan) :
    (logicType ps).promotesTo nullableBoolean = true := by
  unfold logicType
  split <;> rfl

@[simp] theorem isNullable_connected (c : Connective) (ps : List Plan) :
    (connected c ps).isNullable = ps.any Plan.isNullable :=
  isNullable_logicType ps

theorem logical_connected (c : Connective) (ps : List Plan) : Logical (connected c ps) :=
  ⟨logicType ps, rfl, promotesTo_logicType ps⟩

theorem promotes_ok_iff {p : Plan} {b : Bool} :
    promotes p.type (some nullableBoolean) = .ok b ↔
      ∃ t, p.type = some t ∧ t.promotesTo nullableBoolean = b := by
  cases p.type with
  | none => simp [promotes]
  | some t => simp [promotes]

theorem checkBooleans_ok_iff {c : Connective} {index : Nat} {nullable : Bool} :
    checkBooleans c index ps = .ok nullable ↔
      (∀ p ∈ ps, Logical p) ∧ nullable = ps.any Plan.isNullable := by
  induction ps generalizing index nullable with
  | nil => simp [checkBooleans, eq_comm]
  | cons p ps ih =>
    rw [checkBooleans, bind_ok_iff, List.forall_mem_cons, List.any_cons]
    constructor
    · rintro ⟨b, hb, hrest⟩
      obtain ⟨t, ht, hpromotes⟩ := promotes_ok_iff.mp hb
      cases b with
      | false => cases hrest
      | true =>
        obtain ⟨rest, hr, hpure⟩ := bind_ok_iff.mp hrest
        obtain ⟨hlogical, rfl⟩ := ih.mp hr
        cases hpure
        exact ⟨⟨⟨t, ht, hpromotes⟩, hlogical⟩, rfl⟩
    · rintro ⟨⟨⟨t, ht, hpromotes⟩, hlogical⟩, rfl⟩
      refine ⟨true, promotes_ok_iff.mpr ⟨t, ht, hpromotes⟩, ?_⟩
      exact bind_ok_iff.mpr ⟨_, ih.mpr ⟨hlogical, rfl⟩, rfl⟩

theorem mapIndexed_ok {f : Nat → Plan → Except Failure Plan} {g : Plan → Plan}
    (h : ∀ i, ∀ p ∈ ps, f i p = .ok (g p)) (index : Nat) :
    mapIndexed f index ps = .ok (ps.map g) := by
  induction ps generalizing index with
  | nil => rfl
  | cons p ps ih =>
    rw [mapIndexed, h index p List.mem_cons_self,
      ih (fun i q hq => h i q (List.mem_cons_of_mem p hq)) (index + 1)]
    rfl

theorem mapIndexed_asNullableBoolean (c : Connective) (h : ∀ p ∈ ps, Logical p) :
    mapIndexed (fun i p =>
      if DataType.equalMissing p.type (some (.scalar .boolean)) then .ok p
      else inside (.logicPromotion c i) (p.promoteTo (some nullableBoolean))) 0 ps =
        .ok (ps.map asNullableBoolean) := by
  refine mapIndexed_ok (fun i p hp => ?_) 0
  obtain ⟨t, ht, hb⟩ := h p hp
  unfold asNullableBoolean
  split
  · rfl
  · rw [promoteTo_of_promotesTo ht hb]
    rfl

theorem connect_ok_iff {c : Connective} {r : Plan} :
    connect c ps = .ok r ↔ (∀ p ∈ ps, Logical p) ∧ r = connected c ps := by
  have hconnect (h : ∀ p ∈ ps, Logical p) : connect c ps = .ok (connected c ps) := by
    rw [connect, checkBooleans_ok_iff.mpr ⟨h, rfl⟩, mapIndexed_asNullableBoolean c h, connected,
      logicType]
    cases ps.any Plan.isNullable <;> rfl
  constructor
  · intro h
    obtain ⟨_, hb, _⟩ := bind_ok_iff.mp h
    have hlogical := (checkBooleans_ok_iff.mp hb).1
    exact ⟨hlogical, Except.ok.inj (h.symm.trans (hconnect hlogical))⟩
  · rintro ⟨hlogical, rfl⟩
    exact hconnect hlogical

theorem evaluate_asNullableBoolean {bad : Failure → Prop} {record : List Value} {p : Plan}
    (hp : p.Safe bad record) (h : Logical p) :
    (asNullableBoolean p).evaluate record = p.evaluate record := by
  obtain ⟨t, ht, hb⟩ := h
  unfold asNullableBoolean
  split
  · rfl
  · rename_i hne
    rcases promotesTo_nullableBoolean hb with rfl | rfl | rfl
    · simp [ht, equalMissing, equals] at hne
    · rw [nullableBoolean, converted_self ht]
    · rw [evaluate_converted ht hb]
      cases hv : p.evaluate record with
      | error f => rfl
      | ok v =>
        have hn : v.isNull = true := by
          have hc := hp.ok hv
          simpa [ht, conformsMissing, Value.conforms] using hc
        change v.promote (some .nullableAny) (some nullableBoolean) = .ok v
        rw [promote_of_promotesTo hb, hn, Bool.or_true, if_pos rfl]

theorem evaluateLogic_congr {record record' : List Value}
    (h : List.Forall₂ (fun p q => p.evaluate record = q.evaluate record') ps qs) (c : Connective)
    (sawNull : Bool) (index : Nat) :
    evaluateLogic record c sawNull index ps = evaluateLogic record' c sawNull index qs := by
  induction h generalizing sawNull index with
  | nil => rfl
  | cons hpq _ ih => simp only [evaluateLogic, hpq, ih]

theorem evaluate_connected {bad : Failure → Prop} {record : List Value} (c : Connective)
    (hps : ∀ p ∈ ps, p.Safe bad record) (h : ∀ p ∈ ps, Logical p) :
    (connected c ps).evaluate record = evaluateLogic record c false 0 ps := by
  rw [connected, evaluate]
  split
  · refine evaluateLogic_congr ?_ c false 0
    rw [List.forall₂_map_left_iff, List.forall₂_same]
    exact fun p hp => evaluate_asNullableBoolean (hps p hp) (h p hp)
  · rfl

end TypedStream.Expr
