import TypedStream.Proofs.CommonType
import TypedStream.Proofs.Promotion.Order

namespace TypedStream

namespace Scalar

theorem widen_inj {s t u : Scalar} (hs : s.Widens u) (ht : t.Widens u) : s = t := by
  unfold Widens at hs ht
  cases s <;> cases hs <;> cases t <;> first | rfl | cases ht

theorem promotesTo_total {s t u : Scalar} (hs : s.promotesTo u = true) (ht : t.promotesTo u = true)
    (h : u ≠ string ∨ s = string ∨ t = string) :
    s.promotesTo t = true ∨ t.promotesTo s = true := by
  simp only [promotesTo_iff] at *
  rcases h with hu | rfl | rfl
  · have hback : Relator.RightUnique (Function.swap Widens) := fun _ _ _ => widen_inj
    have hus := Relation.reflTransGen_swap.mpr (hs.resolve_left hu)
    have hut := Relation.reflTransGen_swap.mpr (ht.resolve_left hu)
    rcases hus.total_of_right_unique hback hut with hst | hts
    · exact .inr (.inr (Relation.reflTransGen_swap.mp hst))
    · exact .inl (.inr (Relation.reflTransGen_swap.mp hts))
  · exact .inr (.inl rfl)
  · exact .inl (.inl rfl)

theorem eq_string_of_mem_chain {s : Scalar} (h : string ∈ s.chain) : s = string := by
  cases s <;> simp [chain] at h ⊢

end Scalar

namespace DataType

def isText : DataType → Bool
  | scalar .string | nullable .string => true
  | _ => false

@[simp] theorem isText_scalar (s : Scalar) : (scalar s).isText = (s == .string) := by
  cases s <;> rfl

@[simp] theorem isText_nullable (s : Scalar) : (nullable s).isText = (s == .string) := by
  cases s <;> rfl

theorem isText_of_asNullable {t n : DataType} (h : t.asNullable = some n) :
    n.isText = t.isText := by
  cases t <;> cases h <;> simp

/-- Both types promote to the third. -/
structure Bound (a b d : DataType) : Prop where
  left : a.promotesTo d = true
  right : b.promotesTo d = true

theorem Bound.symm {a b d : DataType} (h : Bound a b d) : Bound b a d := ⟨h.right, h.left⟩

theorem Bound.isNullable {a b d : DataType} (h : Bound a b d)
    (hab : a.isNullable = true ∨ b.isNullable = true) : d.isNullable = true := by
  rcases hab with ha | hb
  · exact isNullable_of_promotesTo h.left ha
  · exact isNullable_of_promotesTo h.right hb

/-- Two types of which both or neither admit null are ordered if they promote to a type below
STRING, or if one of them is STRING itself. -/
theorem Bound.total {a b d : DataType} (h : Bound a b d) (hn : a.isNullable = b.isNullable)
    (ht : d.isText = false ∨ a.isText = true ∨ b.isText = true) :
    a.promotesTo b = true ∨ b.promotesTo a = true := by
  obtain ⟨had, hbd⟩ := h
  cases a with
  | scalar s =>
    cases b with
    | scalar t =>
      cases d with
      | scalar u => exact Scalar.promotesTo_total had hbd (by simpa using ht)
      | nullable u => exact Scalar.promotesTo_total had hbd (by simpa using ht)
      | _ => simp [promotesTo] at had
    | record fs => exact .inl ((promotesTo_composite_iff rfl).mp hbd ▸ had)
    | function r ps => exact .inl ((promotesTo_composite_iff rfl).mp hbd ▸ had)
    | _ => simp [DataType.isNullable] at hn
  | nullable s =>
    cases b with
    | nullable t =>
      cases d with
      | nullable u => exact Scalar.promotesTo_total had hbd (by simpa using ht)
      | _ => simp [promotesTo] at had
    | nullableAny => exact .inr rfl
    | _ => simp [DataType.isNullable] at hn
  | nullableAny =>
    cases b with
    | nullable t => exact .inl rfl
    | nullableAny => exact .inl rfl
    | _ => simp [DataType.isNullable] at hn
  | record fs => exact .inr ((promotesTo_composite_iff rfl).mp had ▸ hbd)
  | function r ps => exact .inr ((promotesTo_composite_iff rfl).mp had ▸ hbd)

theorem promotesTo_asNullable {t n : DataType} (h : t.asNullable = some n) :
    t.promotesTo n = true := by
  cases t with
  | scalar s =>
    cases h
    exact promotesTo_refl (scalar s)
  | nullable s =>
    cases h
    exact promotesTo_refl _
  | nullableAny =>
    cases h
    rfl
  | _ => cases h

/-- The nullable version of a type is the least nullable type that it promotes to. -/
theorem asNullable_promotesTo {t n d : DataType} (h : t.asNullable = some n)
    (htd : t.promotesTo d = true) (hd : d.isNullable = true) : n.promotesTo d = true := by
  cases t with
  | scalar s =>
    cases h
    cases d with
    | nullable u => exact htd
    | nullableAny => cases htd
    | _ => cases hd
  | nullable s =>
    cases h
    exact htd
  | nullableAny =>
    cases h
    exact htd
  | _ => cases h

theorem isPrimitive_of_isNullable {t : DataType} (h : t.isNullable = true) :
    t.isPrimitive = true := by
  cases t <;> first | rfl | cases h

theorem asNullable_of_isPrimitive {t : DataType} (h : t.isPrimitive = true) :
    ∃ n, t.asNullable = some n := by
  cases t <;> first | exact ⟨_, rfl⟩ | cases h

/-- The least type that two types promote to. -/
structure LeastBound (a b c : DataType) : Prop extends Bound a b c where
  least : ∀ d, Bound a b d → c.promotesTo d = true

theorem LeastBound.symm {a b c : DataType} (h : LeastBound a b c) : LeastBound b a c :=
  ⟨h.toBound.symm, fun d hd => h.least d hd.symm⟩

theorem LeastBound.unique {a b c d : DataType} (hc : LeastBound a b c) (hd : LeastBound a b d) :
    c = d :=
  promotesTo_antisymm (hc.least d hd.toBound) (hd.least c hc.toBound)

theorem LeastBound.of_promotesTo {a b : DataType} (h : a.promotesTo b = true) :
    LeastBound a b b :=
  ⟨⟨h, promotesTo_refl b⟩, fun _ hd => hd.right⟩

theorem LeastBound.of_asNullable {a b m n c : DataType} (hm : a.asNullable = some m)
    (hn : b.asNullable = some n) (hab : a.isNullable = true ∨ b.isNullable = true)
    (h : LeastBound m n c) : LeastBound a b c := by
  refine ⟨⟨promotesTo_trans (promotesTo_asNullable hm) h.left,
    promotesTo_trans (promotesTo_asNullable hn) h.right⟩, ?_⟩
  intro d hd
  have hnull := hd.isNullable hab
  exact h.least d ⟨asNullable_promotesTo hm hd.left hnull, asNullable_promotesTo hn hd.right hnull⟩

theorem mem_chain_self (t : DataType) : t ∈ t.chain := by
  cases t with
  | scalar s => exact List.mem_map_of_mem s.mem_chain_self
  | nullable s => exact List.mem_map_of_mem s.mem_chain_self
  | _ => simp [chain]

theorem left_mem_candidates (a b : DataType) : a ∈ candidates a b := by
  simp [candidates, mem_chain_self]

theorem right_mem_candidates (a b : DataType) : b ∈ candidates a b := by
  simp [candidates, mem_chain_self]

theorem asNullable_mem_candidates {a b t n : DataType} (ht : t = a ∨ t = b)
    (h : t.asNullable = some n) : n ∈ candidates a b := by
  have hmem : t ∈ a.chain ++ b.chain := by
    rcases ht with rfl | rfl <;> simp [mem_chain_self]
  exact List.mem_append_right _ (List.mem_filterMap.mpr ⟨t, hmem, h⟩)

theorem isText_of_mem_chain {t c : DataType} (h : c ∈ t.chain) (hc : c.isText = true) :
    t.isText = true := by
  cases t with
  | scalar s =>
    obtain ⟨u, hu, rfl⟩ := List.mem_map.mp h
    rw [isText_scalar, beq_iff_eq] at hc ⊢
    exact Scalar.eq_string_of_mem_chain (hc ▸ hu)
  | nullable s =>
    obtain ⟨u, hu, rfl⟩ := List.mem_map.mp h
    rw [isText_nullable, beq_iff_eq] at hc ⊢
    exact Scalar.eq_string_of_mem_chain (hc ▸ hu)
  | _ =>
    simp only [chain, List.mem_singleton] at h
    exact h ▸ hc

theorem isText_of_mem_candidates {a b c : DataType} (h : c ∈ candidates a b)
    (hc : c.isText = true) : a.isText = true ∨ b.isText = true := by
  obtain ⟨d, hd, hdt⟩ : ∃ d ∈ a.chain ++ b.chain, d.isText = true := by
    rcases List.mem_append.mp h with hchain | hnullable
    · exact ⟨c, hchain, hc⟩
    · obtain ⟨d, hd, hdc⟩ := List.mem_filterMap.mp hnullable
      exact ⟨d, hd, isText_of_asNullable hdc ▸ hc⟩
  rcases List.mem_append.mp hd with ha | hb
  · exact .inl (isText_of_mem_chain ha hdt)
  · exact .inr (isText_of_mem_chain hb hdt)

/-- Bounds below STRING, and bounds of STRING, come with a least one among the candidates. -/
theorem Bound.exists_least {a b d : DataType} (h : Bound a b d)
    (ht : d.isText = false ∨ a.isText = true ∨ b.isText = true) :
    ∃ m ∈ candidates a b, LeastBound a b m := by
  by_cases hn : a.isNullable = b.isNullable
  · rcases h.total hn ht with hab | hba
    · exact ⟨b, right_mem_candidates a b, .of_promotesTo hab⟩
    · exact ⟨a, left_mem_candidates a b, (LeastBound.of_promotesTo hba).symm⟩
  -- One of the two admits null, so only nullable types bound both.
  have hab : a.isNullable = true ∨ b.isNullable = true := by
    cases ha : a.isNullable <;> cases hb : b.isNullable <;> simp_all
  have hd := h.isNullable hab
  have hprimitive := isPrimitive_of_isNullable hd
  obtain ⟨m, hm⟩ := asNullable_of_isPrimitive (isPrimitive_of_promotesTo h.left hprimitive)
  obtain ⟨n, hn⟩ := asNullable_of_isPrimitive (isPrimitive_of_promotesTo h.right hprimitive)
  have hbound : Bound m n d :=
    ⟨asNullable_promotesTo hm h.left hd, asNullable_promotesTo hn h.right hd⟩
  have hnulls : m.isNullable = n.isNullable := by
    rw [isNullable_of_asNullable hm, isNullable_of_asNullable hn]
  rw [← isText_of_asNullable hm, ← isText_of_asNullable hn] at ht
  rcases hbound.total hnulls ht with hmn | hnm
  · exact ⟨n, asNullable_mem_candidates (.inr rfl) hn, .of_asNullable hm hn hab (.of_promotesTo hmn)⟩
  · exact ⟨m, asNullable_mem_candidates (.inl rfl) hm,
      .of_asNullable hm hn hab (LeastBound.of_promotesTo hnm).symm⟩

/-- One turn of the scan: the new candidate is taken, or it is not narrower than the best so far. -/
theorem narrower_cases (best : Option DataType) (x : DataType) :
    narrower best x = some x ∧ (∀ y, best = some y → x.promotesTo y = true) ∨
    ∃ y, best = some y ∧ narrower best x = some y ∧
      (x.promotesTo y = true → y.promotesTo x = true) := by
  cases best with
  | none => exact .inl ⟨rfl, by simp⟩
  | some y =>
    simp only [narrower]
    split
    · rename_i h
      exact .inl ⟨rfl, by simp_all⟩
    · rename_i h
      exact .inr ⟨y, rfl, rfl, by simp_all⟩

/-- The scan has a result, which is no wider than any of the candidates that it went through. -/
theorem foldl_narrower (cs : List DataType) (best : Option DataType)
    (hne : cs ≠ [] ∨ best ≠ none) :
    ∃ c, cs.foldl narrower best = some c ∧ (∀ y, best = some y → c.promotesTo y = true) ∧
      ∀ d ∈ cs, d.promotesTo c = true → c.promotesTo d = true := by
  induction cs generalizing best with
  | nil =>
    obtain ⟨y, rfl⟩ := Option.ne_none_iff_exists'.mp (hne.resolve_left (by simp))
    exact ⟨y, rfl, fun z hz => Option.some.inj hz ▸ promotesTo_refl y, by simp⟩
  | cons x cs ih =>
    rw [List.foldl_cons]
    rcases narrower_cases best x with ⟨hx, hbest⟩ | ⟨y, rfl, hy, hkept⟩
    · rw [hx]
      obtain ⟨c, hc, hcx, hmin⟩ := ih _ (.inr (Option.some_ne_none x))
      have hcx := hcx x rfl
      refine ⟨c, hc, fun y hy => promotesTo_trans hcx (hbest y hy), ?_⟩
      intro d hd hdc
      rcases List.mem_cons.mp hd with rfl | hd
      · exact hcx
      · exact hmin d hd hdc
    · rw [hy]
      obtain ⟨c, hc, hcy, hmin⟩ := ih _ (.inr (Option.some_ne_none y))
      refine ⟨c, hc, hcy, ?_⟩
      intro d hd hdc
      have hcy := hcy y rfl
      rcases List.mem_cons.mp hd with rfl | hd
      · exact promotesTo_trans hcy (hkept (promotesTo_trans hdc hcy))
      · exact hmin d hd hdc

theorem mem_bounds_iff {a b c : DataType} :
    c ∈ (candidates a b).filter (fun c => a.promotesTo c && b.promotesTo c) ↔
      c ∈ candidates a b ∧ Bound a b c := by
  rw [List.mem_filter, Bool.and_eq_true]
  exact and_congr_right fun _ => ⟨fun h => ⟨h.1, h.2⟩, fun h => ⟨h.left, h.right⟩⟩

theorem commonType_of_least {a b m : DataType} (hm : m ∈ candidates a b)
    (hleast : LeastBound a b m) : a.commonType b = some m := by
  have hmem := mem_bounds_iff.mpr ⟨hm, hleast.toBound⟩
  obtain ⟨c, hc, _, hmin⟩ := foldl_narrower _ none (.inl (List.ne_nil_of_mem hmem))
  obtain ⟨hac, hbc⟩ := commonType_promotes hc
  have hmc := hleast.least c ⟨hac, hbc⟩
  rw [promotesTo_antisymm hmc (hmin m hmem hmc)]
  exact hc

theorem mem_candidates_of_commonType {a b c : DataType} (h : a.commonType b = some c) :
    c ∈ candidates a b := by
  rcases narrower_foldl h with hnone | hmem
  · cases hnone
  · exact (mem_bounds_iff.mp hmem).1

theorem leastBound_of_commonType {a b c : DataType} (h : a.commonType b = some c) :
    LeastBound a b c := by
  obtain ⟨hac, hbc⟩ := commonType_promotes h
  have hbound : Bound a b c := ⟨hac, hbc⟩
  have ht : c.isText = false ∨ a.isText = true ∨ b.isText = true := by
    cases hc : c.isText with
    | false => exact .inl rfl
    | true => exact .inr (isText_of_mem_candidates (mem_candidates_of_commonType h) hc)
  obtain ⟨m, hm, hleast⟩ := hbound.exists_least ht
  rw [commonType_of_least hm hleast] at h
  exact Option.some.inj h ▸ hleast

/-- There is no common type just where both types promote to nothing but STRING, if to anything,
and neither is STRING. -/
theorem commonType_eq_none_iff {a b : DataType} :
    a.commonType b = none ↔
      (∀ d, Bound a b d → d.isText = true) ∧
      ((∀ d, ¬Bound a b d) ∨ (a.isText = false ∧ b.isText = false)) := by
  constructor
  · intro hnone
    have hbare : ∀ d, Bound a b d → d.isText = true ∧ a.isText = false ∧ b.isText = false := by
      intro d hd
      by_contra hcon
      have ht : d.isText = false ∨ a.isText = true ∨ b.isText = true := by
        cases hdt : d.isText <;> cases hat : a.isText <;> cases hbt : b.isText <;> simp_all
      obtain ⟨m, hm, hleast⟩ := hd.exists_least ht
      rw [commonType_of_least hm hleast] at hnone
      cases hnone
    refine ⟨fun d hd => (hbare d hd).1, ?_⟩
    by_cases hex : ∃ d, Bound a b d
    · obtain ⟨d, hd⟩ := hex
      exact .inr (hbare d hd).2
    · exact .inl (not_exists.mp hex)
  · rintro ⟨htext, hno⟩
    cases hc : a.commonType b with
    | none => rfl
    | some c =>
      have hbound := (leastBound_of_commonType hc).toBound
      obtain ⟨ha, hb⟩ := hno.resolve_left fun h => h c hbound
      rcases isText_of_mem_candidates (mem_candidates_of_commonType hc) (htext c hbound) with h | h
      · rw [ha] at h
        cases h
      · rw [hb] at h
        cases h

theorem commonType_none_symm {a b : DataType} (h : a.commonType b = none) :
    b.commonType a = none := by
  rw [commonType_eq_none_iff] at h ⊢
  obtain ⟨htext, hno⟩ := h
  refine ⟨fun d hd => htext d hd.symm, ?_⟩
  exact hno.imp (fun h d hd => h d hd.symm) And.symm

theorem commonType_comm (a b : DataType) : a.commonType b = b.commonType a := by
  cases hab : a.commonType b with
  | none => exact (commonType_none_symm hab).symm
  | some c =>
    cases hba : b.commonType a with
    | none =>
      rw [commonType_none_symm hba] at hab
      cases hab
    | some d => rw [(leastBound_of_commonType hab).unique (leastBound_of_commonType hba).symm]

/-- The common type of two types is the least type that both promote to. There is none just where
they promote to nothing but STRING, if to anything, and neither is STRING. The order of the two does
not matter. -/
theorem commonType_isLeast (a b : DataType) :
    (∀ c, a.commonType b = some c → LeastBound a b c) ∧
    (a.commonType b = none ↔
      (∀ d, Bound a b d → d.isText = true) ∧
      ((¬∃ d, Bound a b d) ∨ (a.isText = false ∧ b.isText = false))) ∧
    equalMissing (a.commonType b) (b.commonType a) = true := by
  refine ⟨fun c => leastBound_of_commonType, ?_, ?_⟩
  · rw [not_exists]
    exact commonType_eq_none_iff
  · rw [equalMissing_iff]
    exact commonType_comm a b

/-- A BIGINT and a nullable INT have the nullable BIGINT in common. A BOOLEAN and an INT promote to
STRING only, and have nothing in common. -/
theorem commonType_isLeast_mixed :
    ((scalar .bigint).commonType (nullable .int) = some (nullable .bigint) ∧
      LeastBound (scalar .bigint) (nullable .int) (nullable .bigint)) ∧
    (Bound (scalar .boolean) (scalar .int) (scalar .string) ∧
      (scalar .boolean).commonType (scalar .int) = none ∧
      ∀ d, Bound (scalar .boolean) (scalar .int) d → d.isText = true) := by
  refine ⟨⟨rfl, (commonType_isLeast _ _).1 _ rfl⟩, ⟨rfl, rfl⟩, rfl, ?_⟩
  exact ((commonType_isLeast (scalar .boolean) (scalar .int)).2.1.mp rfl).1

end DataType

end TypedStream
