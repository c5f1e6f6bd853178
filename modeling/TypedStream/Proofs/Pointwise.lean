import Mathlib.Data.List.Forall2

namespace TypedStream

variable {α β : Type} {R : α → β → Prop} {as : List α} {bs : List β}

theorem forall₂_mem_right {b : β} (h : List.Forall₂ R as bs) (hb : b ∈ bs) : ∃ a ∈ as, R a b := by
  induction h with
  | nil => cases hb
  | cons hr _ ih =>
    rcases List.mem_cons.mp hb with rfl | hm
    · exact ⟨_, List.mem_cons_self, hr⟩
    · obtain ⟨a, ha, h⟩ := ih hm
      exact ⟨a, List.mem_cons_of_mem _ ha, h⟩

theorem forall₂_mem_left {a : α} (h : List.Forall₂ R as bs) (ha : a ∈ as) : ∃ b ∈ bs, R a b :=
  forall₂_mem_right (R := fun b a => R a b) h.flip ha

theorem forall₂_getElem? {a : α} {i : Nat} (h : List.Forall₂ R as bs) (ha : as[i]? = some a) :
    ∃ b, bs[i]? = some b ∧ R a b := by
  induction h generalizing i with
  | nil => simp at ha
  | cons hr _ ih =>
    cases i with
    | zero =>
      cases ha
      exact ⟨_, rfl, hr⟩
    | succ i => exact ih ha

theorem forall₂_congr {S : α → β → Prop} (h : ∀ a ∈ as, ∀ b, R a b ↔ S a b) :
    List.Forall₂ R as bs ↔ List.Forall₂ S as bs := by
  induction as generalizing bs with
  | nil => cases bs <;> simp
  | cons a as ih =>
    obtain ⟨ha, has⟩ := List.forall_mem_cons.mp h
    cases bs with
    | nil => simp
    | cons b bs => rw [List.forall₂_cons, List.forall₂_cons, ha, ih has]

theorem forall₂_trans {γ : Type} {S : β → γ → Prop} {T : α → γ → Prop} {cs : List γ}
    (hab : List.Forall₂ R as bs) (hbc : List.Forall₂ S bs cs)
    (h : ∀ a b c, R a b → S b c → T a c) : List.Forall₂ T as cs := by
  induction hab generalizing cs with
  | nil =>
    cases hbc
    exact .nil
  | cons hr _ ih =>
    cases hbc with
    | cons hs hrest => exact .cons (h _ _ _ hr hs) (ih hrest)

theorem forall₂_mapIdx {γ : Type} {cs : List γ} {f : γ → α} {g : Nat → γ → β}
    (h : ∀ i c, cs[i]? = some c → R (f c) (g i c)) :
    List.Forall₂ R (cs.map f) (cs.mapIdx g) := by
  induction cs generalizing g with
  | nil => exact .nil
  | cons c cs ih =>
    rw [List.map_cons, List.mapIdx_cons]
    refine .cons (h 0 c rfl) (ih ?_)
    intro i b hb
    exact h (i + 1) b hb

/-- Lists that agree wherever they stand beside the same element are equal. -/
theorem eq_of_zip {cs : List β} (hb : as.length = bs.length) (hc : as.length = cs.length)
    (h : ∀ a b c, (a, b) ∈ as.zip bs → (a, c) ∈ as.zip cs → b = c) : bs = cs := by
  induction as generalizing bs cs with
  | nil =>
    rw [List.eq_nil_of_length_eq_zero hb.symm, List.eq_nil_of_length_eq_zero hc.symm]
  | cons a as ih =>
    cases bs with
    | nil => simp at hb
    | cons b bs =>
      cases cs with
      | nil => simp at hc
      | cons c cs =>
        have hhead : b = c := h a b c (by simp) (by simp)
        have htail : bs = cs := by
          refine ih (by simpa using hb) (by simpa using hc) ?_
          intro x y z hy hz
          exact h x y z (by simp [hy]) (by simp [hz])
        rw [hhead, htail]

/-- What stands at a path of places, where elements have others below them. -/
def descend (below : α → List α) (a : α) : List Nat → Option α
  | [] => some a
  | i :: path => (below a)[i]?.bind fun b => descend below b path

theorem descend_cons {below : α → List α} {a b : α} {i : Nat} {path : List Nat}
    (h : descend below a (i :: path) = some b) :
    ∃ c, (below a)[i]? = some c ∧ descend below c path = some b :=
  Option.bind_eq_some_iff.mp h

/-- Where relatedness goes from elements to those below them, it goes down every path. -/
theorem descend_related {below : α → List α} {under : β → List β}
    (step : ∀ a b, R a b → ∀ (i : Nat) (c : α), (below a)[i]? = some c →
      ∃ d, (under b)[i]? = some d ∧ R c d)
    {a c : α} {b : β} (hab : R a b) {path : List Nat} (hc : descend below a path = some c) :
    ∃ d, descend under b path = some d ∧ R c d := by
  induction path generalizing a b with
  | nil =>
    cases hc
    exact ⟨b, rfl, hab⟩
  | cons i path ih =>
    obtain ⟨next, hnext, hrest⟩ := descend_cons hc
    obtain ⟨mate, hmate, hrelated⟩ := step a b hab i next hnext
    obtain ⟨d, hd, hcd⟩ := ih hrelated hrest
    refine ⟨d, ?_, hcd⟩
    rw [descend, hmate]
    exact hd

theorem descend_keeps {P : α → Prop} {below : α → List α}
    (step : ∀ a, P a → ∀ b ∈ below a, P b) {a b : α} (ha : P a) {path : List Nat}
    (hb : descend below a path = some b) : P b := by
  induction path generalizing a with
  | nil =>
    cases hb
    exact ha
  | cons i path ih =>
    obtain ⟨next, hnext, hrest⟩ := descend_cons hb
    exact ih (step a ha next (List.mem_of_getElem? hnext)) hrest

end TypedStream
