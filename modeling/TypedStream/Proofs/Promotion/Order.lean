import Mathlib.Logic.Relation
import TypedStream.Proofs.Promotion

namespace TypedStream

namespace Scalar

theorem chain_of_widen {s t : Scalar} (h : s.widen = some t) : s.chain = s :: t.chain := by
  cases s <;> cases h <;> rfl

theorem chain_of_last {s : Scalar} (h : s.widen = none) : s.chain = [s] := by
  cases s <;> first | rfl | cases h

theorem mem_chain_self (s : Scalar) : s ∈ s.chain := by
  cases h : s.widen with
  | none => simp [chain_of_last h]
  | some t => simp [chain_of_widen h]

/-- The next wider type, as a relation. -/
def Widens (s t : Scalar) : Prop := s.widen = some t

theorem mem_chain_iff {s t : Scalar} : t ∈ s.chain ↔ Relation.ReflTransGen Widens s t := by
  constructor
  · intro h
    -- The chain of the next wider type is the tail of this one.
    induction hc : s.chain generalizing s with
    | nil => simp [hc] at h
    | cons x xs ih =>
      cases hw : s.widen with
      | none =>
        rw [chain_of_last hw, List.mem_singleton] at h
        rw [h]
      | some u =>
        rw [chain_of_widen hw] at h hc
        rcases List.mem_cons.mp h with rfl | hu
        · exact .refl
        · exact .head hw (ih hu (List.cons.inj hc).2)
  · intro h
    induction h using Relation.ReflTransGen.head_induction_on with
    | refl => exact mem_chain_self t
    | head hw _ ih =>
      rw [chain_of_widen hw]
      exact List.mem_cons_of_mem _ ih

theorem promotesTo_iff {s t : Scalar} :
    s.promotesTo t = true ↔ t = string ∨ Relation.ReflTransGen Widens s t := by
  simp [promotesTo, mem_chain_iff]

/-- A single promotion between scalars. -/
inductive Step : Scalar → Scalar → Prop where
  | widen {s t : Scalar} (h : s.Widens t) : Step s t
  | toText {s : Scalar} (h : s ≠ string) : Step s string

theorem Widens.ne_string {s t : Scalar} (h : s.Widens t) : s ≠ string := by
  rintro rfl
  cases h

theorem promotesTo_iff_steps {s t : Scalar} :
    s.promotesTo t = true ↔ Relation.ReflTransGen Step s t := by
  rw [promotesTo_iff]
  constructor
  · rintro (rfl | h)
    · by_cases hs : s = string
      · rw [hs]
      · exact .single (.toText hs)
    · exact Relation.ReflTransGen.mono (fun _ _ => Step.widen) _ _ h
  · intro h
    induction h with
    | refl => exact .inr .refl
    | tail _ hstep ih =>
      cases hstep with
      | toText _ => exact .inl rfl
      | widen hw => exact .inr ((ih.resolve_left hw.ne_string).tail hw)

theorem promotesTo_of_step {s t u : Scalar} (h : s.promotesTo t = true) (hstep : Step t u) :
    s.promotesTo u = true := by
  rw [promotesTo_iff_steps] at h ⊢
  exact h.tail hstep

/-- How many promotions may still follow, at most. -/
def remaining (s : Scalar) : Nat := if s = string then 0 else s.chain.length

theorem Step.remaining_lt {s t : Scalar} (h : Step s t) : t.remaining < s.remaining := by
  cases h with
  | toText hs => simp [remaining, hs, List.length_pos_of_mem (mem_chain_self s)]
  | widen hw =>
    simp only [remaining, if_neg hw.ne_string, chain_of_widen hw, List.length_cons]
    split <;> omega

end Scalar

namespace DataType

/-- A single promotion. -/
inductive Step : DataType → DataType → Prop where
  | scalar {s t : Scalar} (h : s.Step t) : Step (scalar s) (scalar t)
  | nullable {s t : Scalar} (h : s.Step t) : Step (nullable s) (nullable t)
  | admitNull (s : Scalar) : Step (.scalar s) (.nullable s)
  | ofNull (s : Scalar) : Step nullableAny (.nullable s)

theorem promotesTo_composite_iff {a b : DataType} (ha : a.isPrimitive = false) :
    a.promotesTo b = true ↔ a = b := by
  cases a with
  | record fs => exact equals_iff _ _
  | function r ps => exact equals_iff _ _
  | _ => cases ha

theorem promotesTo_of_step {a b c : DataType} (h : a.promotesTo b = true) (hstep : Step b c) :
    a.promotesTo c = true := by
  cases hstep with
  | scalar hs =>
    cases a with
    | scalar s => exact Scalar.promotesTo_of_step h hs
    | _ => simp [promotesTo, equals] at h
  | nullable hs =>
    cases a with
    | scalar s => exact Scalar.promotesTo_of_step h hs
    | nullable s => exact Scalar.promotesTo_of_step h hs
    | nullableAny => rfl
    | _ => simp [promotesTo, equals] at h
  | admitNull t =>
    cases a with
    | scalar s => exact h
    | _ => simp [promotesTo, equals] at h
  | ofNull t =>
    cases a with
    | nullableAny => rfl
    | _ => simp [promotesTo, equals] at h

theorem steps_scalar {s t : Scalar} (h : s.promotesTo t = true) :
    Relation.ReflTransGen Step (.scalar s) (.scalar t) := by
  rw [Scalar.promotesTo_iff_steps] at h
  exact Relation.ReflTransGen.lift DataType.scalar (fun _ _ => Step.scalar) _ _ h

theorem steps_nullable {s t : Scalar} (h : s.promotesTo t = true) :
    Relation.ReflTransGen Step (.nullable s) (.nullable t) := by
  rw [Scalar.promotesTo_iff_steps] at h
  exact Relation.ReflTransGen.lift DataType.nullable (fun _ _ => Step.nullable) _ _ h

/-- The rules of promotion: a type promotes to what single steps lead to. -/
theorem promotesTo_iff_steps {a b : DataType} :
    a.promotesTo b = true ↔ Relation.ReflTransGen Step a b := by
  constructor
  · intro h
    cases a with
    | scalar s =>
      cases b with
      | scalar t => exact steps_scalar h
      | nullable t => exact (steps_scalar h).tail (.admitNull t)
      | _ => simp [promotesTo] at h
    | nullable s =>
      cases b with
      | nullable t => exact steps_nullable h
      | _ => simp [promotesTo] at h
    | nullableAny =>
      cases b with
      | nullable t => exact .single (.ofNull t)
      | nullableAny => exact .refl
      | _ => simp [promotesTo] at h
    | record fs => rw [(promotesTo_composite_iff rfl).mp h]
    | function r ps => rw [(promotesTo_composite_iff rfl).mp h]
  · intro h
    induction h with
    | refl => exact promotesTo_refl a
    | tail _ hstep ih => exact promotesTo_of_step ih hstep

theorem promotesTo_trans {a b c : DataType} (hab : a.promotesTo b = true)
    (hbc : b.promotesTo c = true) : a.promotesTo c = true := by
  rw [promotesTo_iff_steps] at *
  exact hab.trans hbc

/-- How many promotions may still follow, at most. -/
def remaining : DataType → Nat
  | scalar s => s.remaining + 1
  | nullable s => s.remaining
  | nullableAny => 5
  | _ => 0

theorem Step.remaining_lt {a b : DataType} (h : Step a b) : b.remaining < a.remaining := by
  cases h with
  | scalar hs => exact Nat.succ_lt_succ hs.remaining_lt
  | nullable hs => exact hs.remaining_lt
  | admitNull s => exact Nat.lt_succ_self _
  | ofNull s => cases s <;> decide

theorem eq_or_remaining_lt {a b : DataType} (h : a.promotesTo b = true) :
    a = b ∨ b.remaining < a.remaining := by
  rw [promotesTo_iff_steps] at h
  induction h with
  | refl => exact .inl rfl
  | tail _ hstep ih =>
    have hlt := hstep.remaining_lt
    rcases ih with rfl | hle
    · exact .inr hlt
    · exact .inr (Nat.lt_trans hlt hle)

theorem promotesTo_antisymm {a b : DataType} (hab : a.promotesTo b = true)
    (hba : b.promotesTo a = true) : a = b := by
  rcases eq_or_remaining_lt hab with he | hlt
  · exact he
  · rcases eq_or_remaining_lt hba with he | hgt
    · exact he.symm
    · omega

/-- Types are equal just if they are built alike, missing parts included. Promotion is reflexive,
transitive and antisymmetric; on records and functions it is equality, and it never loses null. It
holds of just the types that single steps lead between. -/
theorem promotesTo_partialOrder :
    (∀ a b : DataType, a.equals b = true ↔ a = b) ∧
    (∀ a b : Option DataType, equalMissing a b = true ↔ a = b) ∧
    (∀ a : DataType, a.promotesTo a = true) ∧
    (∀ a b c : DataType,
      a.promotesTo b = true → b.promotesTo c = true → a.promotesTo c = true) ∧
    (∀ a b : DataType, a.promotesTo b = true → b.promotesTo a = true → a.equals b = true) ∧
    (∀ a b : DataType, a.isPrimitive = false → (a.promotesTo b = true ↔ a.equals b = true)) ∧
    (∀ a b : DataType, a.isNullable = true → b.isNullable = false → a.promotesTo b = false) ∧
    (∀ a b : DataType, a.promotesTo b = true ↔ Relation.ReflTransGen Step a b) := by
  refine ⟨equals_iff, equalMissing_iff, promotesTo_refl, fun _ _ _ => promotesTo_trans, ?_, ?_, ?_,
    fun _ _ => promotesTo_iff_steps⟩
  · intro a b hab hba
    rw [equals_iff]
    exact promotesTo_antisymm hab hba
  · intro a b ha
    rw [equals_iff]
    exact promotesTo_composite_iff ha
  · intro a b ha hb
    rw [Bool.eq_false_iff]
    intro h
    rw [isNullable_of_promotesTo h ha] at hb
    cases hb

/-- An INT may stand for a nullable STRING by way of a nullable BIGINT, but no null for a STRING, and
a function of an INT not for one of a BIGINT. -/
theorem promotesTo_partialOrder_mixed :
    ((scalar .int).promotesTo (nullable .bigint) = true ∧
      (nullable .bigint).promotesTo (nullable .string) = true ∧
      (scalar .int).promotesTo (nullable .string) = true) ∧
    ((nullable .int).isNullable = true ∧ (scalar .string).isNullable = false ∧
      (nullable .int).promotesTo (scalar .string) = false) ∧
    (function none [some (scalar .int), none]).isPrimitive = false ∧
      (function none [some (scalar .int), none]).promotesTo
        (function none [some (scalar .bigint), none]) = false := by
  obtain ⟨hequal, _, _, htrans, _, hcomposite, hnull, _⟩ := promotesTo_partialOrder
  refine ⟨⟨rfl, rfl, htrans _ (nullable .bigint) _ rfl rfl⟩, ⟨rfl, rfl, hnull _ _ rfl rfl⟩, rfl, ?_⟩
  rw [Bool.eq_false_iff]
  intro h
  have he := (hequal _ _).mp ((hcomposite _ _ rfl).mp h)
  simp at he

end DataType

end TypedStream
