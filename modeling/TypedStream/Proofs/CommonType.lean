import TypedStream.Proofs.Conversion

namespace TypedStream

namespace DataType

theorem narrower_foldl {cs : List DataType} {best : Option DataType} {c : DataType}
    (h : cs.foldl narrower best = some c) : best = some c ∨ c ∈ cs := by
  induction cs generalizing best with
  | nil => exact .inl h
  | cons d cs ih =>
    rcases ih h with hd | hmem
    · unfold narrower at hd
      split at hd
      · cases hd
        exact .inr List.mem_cons_self
      · split at hd
        · cases hd
          exact .inr List.mem_cons_self
        · exact .inl hd
    · exact .inr (List.mem_cons_of_mem d hmem)

theorem commonType_promotes {a b c : DataType} (h : a.commonType b = some c) :
    a.promotesTo c = true ∧ b.promotesTo c = true := by
  rcases narrower_foldl h with hnone | hmem
  · cases hnone
  · simpa using (List.mem_filter.mp hmem).2

def primitives : List DataType :=
  nullableAny :: Scalar.all.flatMap fun s => [scalar s, nullable s]

theorem mem_primitives {t : DataType} (h : t.isPrimitive = true) : t ∈ primitives := by
  cases t with
  | scalar s => cases s <;> simp [primitives, Scalar.all]
  | nullable s => cases s <;> simp [primitives, Scalar.all]
  | nullableAny => simp [primitives]
  | _ => cases h

end DataType

namespace Expr

theorem unify_pair_iff {name : Text} {p q : Plan} {a b : DataType} (hp : p.type = some a)
    (hq : q.type = some b) {ps : List Plan} :
    unify name [p, q] = .ok ps ↔
      ∃ c, a.commonType b = some c ∧ ps = [p.converted c, q.converted c] := by
  simp only [unify, hp, hq, commonMissing, bind, Except.bind]
  cases hc : a.commonType b with
  | none => simp
  | some c =>
    obtain ⟨hac, hbc⟩ := DataType.commonType_promotes hc
    simp only [mapIndexed, Plan.promoteTo_of_promotesTo hp hac, Plan.promoteTo_of_promotesTo hq hbc]
    exact ⟨fun h => ⟨c, rfl, by cases h; rfl⟩, by rintro ⟨_, ⟨⟩, rfl⟩; rfl⟩

end Expr

end TypedStream
