import Mathlib.Data.List.Induction
import TypedStream.Proofs.Draft

namespace TypedStream.Draft

/-- What can be done to a draft; a field is named by its place. -/
inductive Action where
  | add (p : Plan)
  | setLabel (i : Nat) (kind : LabelKind) (label : Text)
  | freeze (i : Nat)
  | finalize

/-- Changes the field at a place, unless there is none or the change fails. -/
def onField (d : Draft) (i : Nat) (change : FieldDraft → Except Failure FieldDraft) : Draft :=
  match d.fields[i]? with
  | none => d
  | some b =>
    match change b with
    | .ok c => { d with fields := d.fields.set i c }
    | .error _ => d

def perform (d : Draft) : Action → Draft
  | .add p =>
    match d.add p with
    | .ok next => next
    | .error _ => d
  | .setLabel i kind label => d.onField i fun b => b.setLabel kind label
  | .freeze i => d.onField i fun b => b.finalize.map Prod.fst
  | .finalize => d.attempt.1

/-- What a list of actions makes of an empty draft. -/
def run (actions : List Action) : Draft := actions.foldl perform {}

theorem run_concat (actions : List Action) (a : Action) :
    run (actions ++ [a]) = (run actions).perform a := by
  simp [run, List.foldl_append]

theorem onField_cases (d : Draft) (i : Nat) (change : FieldDraft → Except Failure FieldDraft) :
    d.onField i change = d ∨ ∃ b c, d.fields[i]? = some b ∧ change b = .ok c ∧
      d.onField i change = { d with fields := d.fields.set i c } := by
  unfold onField
  cases hb : d.fields[i]? with
  | none => exact .inl rfl
  | some b =>
    cases hc : change b with
    | error f => simp [hc]
    | ok c => exact .inr ⟨b, c, rfl, hc, by simp [hc]⟩

/-- An action is a step or changes nothing. For finalizing this rests on the checks: fields that
pass them can be frozen. -/
theorem perform_step {d : Draft} (hc : d.Coherent) (a : Action) :
    d.perform a = d ∨ Step d (d.perform a) := by
  cases a with
  | add p =>
    rw [perform]
    cases ha : d.add p with
    | error f => exact .inl rfl
    | ok next => exact .inr (.add ha)
  | setLabel i kind label =>
    rcases d.onField_cases i (fun b => b.setLabel kind label) with h | ⟨b, c, hb, hc, h⟩
    · exact .inl h
    · rw [perform, h]
      exact .inr (.setLabel hb hc)
  | freeze i =>
    rcases d.onField_cases i (fun b => b.finalize.map Prod.fst) with h | ⟨b, c, hb, hc, h⟩
    · exact .inl h
    · rw [perform, h]
      cases hf : b.finalize with
      | error f => simp [hf, Except.map] at hc
      | ok out =>
        obtain ⟨e, l⟩ := out
        have he : e = c := by simpa [hf, Except.map] using hc
        exact .inr (.freeze hb (he ▸ hf))
  | finalize =>
    by_cases hr : d.Ready
    · obtain ⟨fs, _, h⟩ := finalize_ready hc hr
      obtain ⟨gs, _, h'⟩ := attempt_ready hc hr
      rw [perform, h']
      exact .inr (.finalize h)
    · obtain ⟨f, h⟩ := attempt_not_ready hr
      exact .inl (by rw [perform, h])

theorem run_reachable (actions : List Action) : (run actions).Reachable := by
  induction actions using List.reverseRecOn with
  | nil => exact .empty
  | append_singleton actions a ih =>
    rw [run_concat]
    rcases perform_step ih.coherent a with h | h
    · rw [h]
      exact ih
    · exact ih.tail h

def Finalizes (d : Draft) : Prop := ∃ p, d.attempt.2 = .ok p

theorem finalizes_iff {d : Draft} (hc : d.Coherent) : d.Finalizes ↔ d.Ready := by
  by_cases hr : d.Ready
  · obtain ⟨fs, _, h⟩ := attempt_ready hc hr
    simp [Finalizes, h, hr]
  · obtain ⟨f, h⟩ := attempt_not_ready hr
    simp [Finalizes, h, hr]

/-- The draft was finalized with success by one of the actions. -/
def FinalizedIn (actions : List Action) : Prop :=
  ∃ earlier later, actions = earlier ++ .finalize :: later ∧ (run earlier).Finalizes

theorem finalizedIn_concat (actions : List Action) (a : Action) :
    FinalizedIn (actions ++ [a]) ↔
      FinalizedIn actions ∨ a = .finalize ∧ (run actions).Finalizes := by
  constructor
  · rintro ⟨earlier, later, he, hf⟩
    rcases List.eq_nil_or_concat later with rfl | ⟨init, last, rfl⟩
    · obtain ⟨rfl, ha⟩ := List.append_inj' he rfl
      exact .inr ⟨List.singleton_inj.mp ha, hf⟩
    · have hsplit : actions ++ [a] = (earlier ++ .finalize :: init) ++ [last] := by
        rw [he, List.concat_eq_append, List.append_assoc, List.cons_append]
      obtain ⟨rfl, _⟩ := List.append_inj' hsplit rfl
      exact .inl ⟨earlier, init, rfl, hf⟩
  · rintro (⟨earlier, later, rfl, hf⟩ | ⟨rfl, hf⟩)
    · exact ⟨earlier, later ++ [a], by simp, hf⟩
    · exact ⟨actions, [], rfl, hf⟩

theorem finalized_onField (d : Draft) (i : Nat)
    (change : FieldDraft → Except Failure FieldDraft) :
    (d.onField i change).finalized = d.finalized := by
  rcases d.onField_cases i change with h | ⟨b, c, _, _, h⟩ <;> rw [h]

theorem finalized_perform {d : Draft} (hc : d.Coherent) (a : Action) :
    (d.perform a).finalized = true ↔ d.finalized = true ∨ a = .finalize ∧ d.Finalizes := by
  cases a with
  | add p =>
    simp only [perform, reduceCtorEq, false_and, or_false]
    cases hf : d.finalized <;> simp [Draft.add, hf]
  | setLabel i kind label => simp [perform, finalized_onField]
  | freeze i => simp [perform, finalized_onField]
  | finalize =>
    rw [finalizes_iff hc]
    by_cases hr : d.Ready
    · obtain ⟨fs, _, h⟩ := attempt_ready hc hr
      simp [perform, h, hr]
    · obtain ⟨f, h⟩ := attempt_not_ready hr
      simp [perform, h, hr]

theorem finalized_run_iff (actions : List Action) :
    (run actions).finalized = true ↔ FinalizedIn actions := by
  induction actions using List.reverseRecOn with
  | nil =>
    constructor
    · intro h
      cases h
    · rintro ⟨earlier, later, he, _⟩
      simp at he
  | append_singleton actions a ih =>
    rw [run_concat, finalized_perform (run_reachable actions).coherent, ih, finalizedIn_concat]

/-- Finalizing is all or nothing, after any actions. It succeeds unless it did so before or a field
is missing, unresolved, unlabelled or labelled like another. A failure changes nothing, and what is
done after the checks cannot fail. -/
theorem attempt_all_or_nothing (actions : List Action) :
    let d := run actions
    (d.Finalizes ↔ ¬ FinalizedIn actions ∧ d.fields ≠ [] ∧
      (∀ b ∈ d.fields, b.expression.resolved = .ok ()) ∧
      (∀ b ∈ d.fields, b.serialization ≠ []) ∧
      (d.fields.map FieldDraft.serialization).Nodup) ∧
    (∀ f, d.attempt.2 = .error f → d.attempt.1 = d) ∧
    (∀ p, d.attempt.2 = .ok p →
      d.attempt.1 = ⟨d.fields.map FieldDraft.freeze, true⟩ ∧
      ∃ fs, p.recordType = .record fs ∧ List.Forall₂ FieldDraft.Describes d.fields fs) ∧
    (checkFrom 0 [] d.fields = .ok () →
      ∃ frozen labels t, freezeFrom 0 d.fields = (frozen, .ok labels) ∧
        DataType.ofFields (labels.map fun l => (l.serialization, l.expression.type)) = .ok t) := by
  intro d
  have hc : d.Coherent := (run_reachable actions).coherent
  refine ⟨?_, ?_, ?_, ?_⟩
  · have hopen : d.finalized = false ↔ ¬ FinalizedIn actions := by
      rw [← finalized_run_iff, Bool.not_eq_true]
    have hchecked : (∀ b ∈ d.fields, b.check = .ok ()) ↔
        (∀ b ∈ d.fields, b.expression.resolved = .ok ()) ∧
          ∀ b ∈ d.fields, b.serialization ≠ [] := by
      simp only [FieldDraft.check_ok_iff, ← forall₂_and]
    rw [finalizes_iff hc, ← hopen]
    constructor
    · intro h
      obtain ⟨hresolved, hlabels⟩ := hchecked.mp h.checked
      exact ⟨h.isOpen, h.nonempty, hresolved, hlabels, h.distinct⟩
    · rintro ⟨ho, hne, hresolved, hlabels, hdistinct⟩
      exact ⟨ho, hne, hchecked.mpr ⟨hresolved, hlabels⟩, hdistinct⟩
  · intro f hf
    have hr : ¬ d.Ready := by
      intro hr
      obtain ⟨p, hp⟩ := (finalizes_iff hc).mpr hr
      cases hp.symm.trans hf
    obtain ⟨g, h⟩ := attempt_not_ready hr
    rw [h]
  · intro p hp
    obtain ⟨fs, hd, h⟩ := attempt_ready hc ((finalizes_iff hc).mp ⟨p, hp⟩)
    rw [h] at hp ⊢
    cases hp
    exact ⟨rfl, fs, rfl, hd⟩
  · intro hcheck
    obtain ⟨hchecked, hnodup, _⟩ := checkFrom_ok_iff.mp hcheck
    obtain ⟨fs, _, htype⟩ := ofFields_labeled hchecked hnodup
    exact ⟨_, _, _, freezeFrom_ok hc hchecked 0, htype⟩

end TypedStream.Draft
