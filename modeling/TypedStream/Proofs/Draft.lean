import Mathlib.Data.List.Forall2
import Mathlib.Logic.Relation
import TypedStream.Proofs.Outcome
import TypedStream.Projection

namespace TypedStream

theorem Plan.type_of_resolved {p : Plan} (h : p.resolved = .ok ()) : ∃ t, p.type = some t := by
  have typed_some {kind : Plan.Kind} {t : Option DataType} (ht : Plan.typed kind t = .ok ()) :
      ∃ u, t = some u := by
    cases t with
    | none => cases ht
    | some u => exact ⟨u, rfl⟩
  cases p with
  | «variable» name i t => exact typed_some h
  | constant v t => exact typed_some h
  | call name f propagates t args =>
    rw [Plan.resolved] at h
    obtain ⟨_, ht, _⟩ := bind_ok_iff.mp h
    exact typed_some ht
  | promotion p t => exact ⟨t, rfl⟩
  | logic c t args =>
    rw [Plan.resolved] at h
    obtain ⟨_, ht, _⟩ := bind_ok_iff.mp h
    exact typed_some ht

namespace FieldDraft

theorem check_ok_iff {b : FieldDraft} :
    b.check = .ok () ↔ b.expression.resolved = .ok () ∧ b.serialization ≠ [] := by
  unfold check
  rw [bind_ok_iff]
  constructor
  · rintro ⟨_, hr, hs⟩
    refine ⟨hr, fun he => ?_⟩
    rw [he] at hs
    cases hs
  · rintro ⟨hr, hs⟩
    refine ⟨(), hr, ?_⟩
    rw [if_neg (by simpa using hs)]
    rfl

/-- The field with its labels frozen as they are. -/
def freeze (b : FieldDraft) : FieldDraft := { b with frozen := some b.labeled }

/-- A frozen field was ready to be frozen, and has the labels that it had then. -/
def Coherent (b : FieldDraft) : Prop :=
  ∀ l, b.frozen = some l → l = b.labeled ∧ b.check = .ok ()

theorem coherent_freeze {b : FieldDraft} (h : b.check = .ok ()) : b.freeze.Coherent := by
  intro l hl
  cases hl
  exact ⟨rfl, h⟩

theorem frozen_setLabel {b c : FieldDraft} {kind : LabelKind} {label : Text}
    (h : b.setLabel kind label = .ok c) : b.frozen = none ∧ c.frozen = none := by
  unfold setLabel at h
  split at h
  · cases h
  · rename_i hf
    have hb : b.frozen = none := by simpa using hf
    cases kind <;> cases h <;> exact ⟨hb, hb⟩

/-- Freezing a field that is ready gives its labels, for the first time or again. -/
theorem finalize_coherent {b : FieldDraft} (hc : b.Coherent) (h : b.check = .ok ()) :
    b.finalize = .ok (b.freeze, b.labeled) := by
  unfold finalize
  cases hf : b.frozen with
  | some l =>
    obtain ⟨rfl, _⟩ := hc l hf
    have he : b.freeze = b := by rw [freeze, ← hf]
    rw [he]
  | none =>
    rw [h]
    rfl

theorem check_of_finalize {b c : FieldDraft} {l : Labeled} (hc : b.Coherent)
    (h : b.finalize = .ok (c, l)) : b.check = .ok () := by
  unfold finalize at h
  split at h
  · rename_i hf
    exact (hc _ hf).2
  · obtain ⟨_, hcheck, _⟩ := bind_ok_iff.mp h
    exact hcheck

end FieldDraft

/-- The field of a record type that a field draft stands for. -/
def FieldDraft.Describes (b : FieldDraft) (f : Text × DataType) : Prop :=
  f.1 = b.serialization ∧ b.expression.type = some f.2

theorem FieldDraft.names_of_describes {bs : List FieldDraft} {fs : List (Text × DataType)}
    (hd : List.Forall₂ Describes bs fs) : fs.map Prod.fst = bs.map serialization := by
  induction hd with
  | nil => rfl
  | cons hb _ ih => rw [List.map_cons, List.map_cons, hb.1, ih]

/-- After a field with a label of its own, the labels of the others are new still. -/
theorem FieldDraft.fresh_cons {b : FieldDraft} {bs : List FieldDraft} {seen : List Text}
    (hb : b.serialization ∉ bs.map serialization) (hseen : ∀ c ∈ bs, c.serialization ∉ seen) :
    ∀ c ∈ bs, c.serialization ∉ b.serialization :: seen := by
  intro c hc hm
  rcases List.mem_cons.mp hm with he | hm
  · exact hb (he ▸ List.mem_map_of_mem hc)
  · exact hseen c hc hm

theorem DataType.checkFields_drafts {bs : List FieldDraft} (h : ∀ b ∈ bs, b.check = .ok ())
    (hnodup : (bs.map FieldDraft.serialization).Nodup) (index : Nat) (seen : List Text)
    (hseen : ∀ b ∈ bs, b.serialization ∉ seen) :
    ∃ fs, List.Forall₂ FieldDraft.Describes bs fs ∧
      checkFields index seen (bs.map fun b => (b.serialization, b.expression.type)) = .ok fs := by
  induction bs generalizing seen index with
  | nil => exact ⟨[], .nil, rfl⟩
  | cons b bs ih =>
    obtain ⟨hresolved, hlabel⟩ := FieldDraft.check_ok_iff.mp (h b List.mem_cons_self)
    obtain ⟨t, ht⟩ := Plan.type_of_resolved hresolved
    rw [List.map_cons, List.nodup_cons] at hnodup
    have hrest := FieldDraft.fresh_cons hnodup.1 (List.forall_mem_cons.mp hseen).2
    obtain ⟨fs, hd, hfs⟩ := ih (fun c hc => h c (List.mem_cons_of_mem b hc)) hnodup.2 (index + 1)
      _ hrest
    refine ⟨(b.serialization, t) :: fs, .cons ⟨rfl, ht⟩ hd, ?_⟩
    have hnew : seen.contains b.serialization = false := by
      simpa using hseen b List.mem_cons_self
    simp only [List.map_cons, ht, checkFields, List.isEmpty_iff, hlabel, ↓reduceIte, hnew, hfs,
      Bool.false_eq_true]
    rfl

namespace Draft

/-- One step on a draft. A step that fails leaves the draft as it is. -/
inductive Step : Draft → Draft → Prop
  | add {d next : Draft} {p : Plan} (h : d.add p = .ok next) : Step d next
  | setLabel {d : Draft} {i : Nat} {b c : FieldDraft} {kind : LabelKind} {label : Text}
      (found : d.fields[i]? = some b) (h : b.setLabel kind label = .ok c) :
      Step d { d with fields := d.fields.set i c }
  | freeze {d : Draft} {i : Nat} {b c : FieldDraft} {l : Labeled}
      (found : d.fields[i]? = some b) (h : b.finalize = .ok (c, l)) :
      Step d { d with fields := d.fields.set i c }
  | finalize {d next : Draft} {p : Projection} (h : d.finalize = .ok (next, p)) : Step d next

/-- What steps can make of an empty draft. -/
def Reachable : Draft → Prop := Relation.ReflTransGen Step {}

def Coherent (d : Draft) : Prop := ∀ b ∈ d.fields, b.Coherent

/-- Nothing stands in the way of finalizing. -/
structure Ready (d : Draft) : Prop where
  isOpen : d.finalized = false
  nonempty : d.fields ≠ []
  checked : ∀ b ∈ d.fields, b.check = .ok ()
  distinct : (d.fields.map FieldDraft.serialization).Nodup

theorem checkFrom_ok_iff {bs : List FieldDraft} {index : Nat} {seen : List Text} :
    checkFrom index seen bs = .ok () ↔ (∀ b ∈ bs, b.check = .ok ()) ∧
      (bs.map FieldDraft.serialization).Nodup ∧ ∀ b ∈ bs, b.serialization ∉ seen := by
  induction bs generalizing index seen with
  | nil => simp [checkFrom]
  | cons b bs ih =>
    rw [checkFrom, bind_ok_iff]
    constructor
    · rintro ⟨_, hb, hrest⟩
      split at hrest
      · cases hrest
      · rename_i hnew
        obtain ⟨hchecked, hnodup, hseen⟩ := ih.mp hrest
        refine ⟨List.forall_mem_cons.mpr ⟨inside_ok_iff.mp hb, hchecked⟩, ?_, ?_⟩
        · rw [List.map_cons, List.nodup_cons]
          refine ⟨fun hm => ?_, hnodup⟩
          obtain ⟨c, hc, he⟩ := List.mem_map.mp hm
          exact hseen c hc (he ▸ List.mem_cons_self)
        · refine List.forall_mem_cons.mpr ⟨by simpa using hnew, fun c hc hm => ?_⟩
          exact hseen c hc (List.mem_cons_of_mem _ hm)
    · rintro ⟨hchecked, hnodup, hseen⟩
      rw [List.map_cons, List.nodup_cons] at hnodup
      refine ⟨(), inside_ok_iff.mpr (hchecked b List.mem_cons_self), ?_⟩
      rw [if_neg (by simpa using hseen b List.mem_cons_self)]
      exact ih.mpr ⟨(List.forall_mem_cons.mp hchecked).2, hnodup.2,
        FieldDraft.fresh_cons hnodup.1 (List.forall_mem_cons.mp hseen).2⟩

theorem freezeFrom_ok {bs : List FieldDraft} (hc : ∀ b ∈ bs, b.Coherent)
    (h : ∀ b ∈ bs, b.check = .ok ()) (index : Nat) :
    freezeFrom index bs = (bs.map FieldDraft.freeze, .ok (bs.map FieldDraft.labeled)) := by
  induction bs generalizing index with
  | nil => rfl
  | cons b bs ih =>
    rw [freezeFrom, FieldDraft.finalize_coherent (hc b List.mem_cons_self) (h b List.mem_cons_self)]
    simp only [ih (fun c hm => hc c (List.mem_cons_of_mem b hm))
      (fun c hm => h c (List.mem_cons_of_mem b hm)) (index + 1), List.map_cons]

/-- Fields that are ready and have labels of their own have a record type once they are frozen. -/
theorem ofFields_labeled {bs : List FieldDraft} (h : ∀ b ∈ bs, b.check = .ok ())
    (hnodup : (bs.map FieldDraft.serialization).Nodup) :
    ∃ fs, List.Forall₂ FieldDraft.Describes bs fs ∧
      DataType.ofFields ((bs.map FieldDraft.labeled).map
        fun l => (l.serialization, l.expression.type)) = .ok (.record fs) := by
  obtain ⟨fs, hd, hfs⟩ := DataType.checkFields_drafts h hnodup 0 [] (by simp)
  refine ⟨fs, hd, ?_⟩
  rw [List.map_map, DataType.ofFields]
  exact congrArg (Except.map DataType.record) hfs

/-- Once a draft that is ready has passed the checks, freezing its fields and building the record
type cannot fail. -/
theorem attempt_ready {d : Draft} (hc : d.Coherent) (h : d.Ready) :
    ∃ fs, List.Forall₂ FieldDraft.Describes d.fields fs ∧
      d.attempt = (⟨d.fields.map FieldDraft.freeze, true⟩,
        .ok ⟨d.fields.map FieldDraft.labeled, .record fs⟩) := by
  obtain ⟨fs, hd, htype⟩ := ofFields_labeled h.checked h.distinct
  have hcheck : checkFrom 0 [] d.fields = .ok () :=
    checkFrom_ok_iff.mpr ⟨h.checked, h.distinct, by simp⟩
  refine ⟨fs, hd, ?_⟩
  rw [attempt, if_neg (by simp [h.isOpen]), if_neg (by simpa using h.nonempty)]
  simp only [hcheck, freezeFrom_ok hc h.checked, htype]

theorem attempt_not_ready {d : Draft} (h : ¬ d.Ready) : ∃ f, d.attempt = (d, .error f) := by
  unfold attempt
  split
  · exact ⟨_, rfl⟩
  · rename_i hopen
    split
    · exact ⟨_, rfl⟩
    · rename_i hne
      cases hcheck : checkFrom 0 [] d.fields with
      | error f => exact ⟨f, rfl⟩
      | ok _ =>
        obtain ⟨hchecked, hnodup, _⟩ := checkFrom_ok_iff.mp hcheck
        exact absurd ⟨by simpa using hopen, by simpa using hne, hchecked, hnodup⟩ h

/-- A draft that is ready becomes a projection with a field for each of its own. -/
theorem finalize_ready {d : Draft} (hc : d.Coherent) (h : d.Ready) :
    ∃ fs, List.Forall₂ FieldDraft.Describes d.fields fs ∧
      d.finalize = .ok (⟨d.fields.map FieldDraft.freeze, true⟩,
        ⟨d.fields.map FieldDraft.labeled, .record fs⟩) := by
  obtain ⟨fs, hd, heq⟩ := attempt_ready hc h
  exact ⟨fs, hd, by rw [finalize, heq]⟩

theorem ready_of_finalize {d next : Draft} {p : Projection} (h : d.finalize = .ok (next, p)) :
    d.Ready := by
  by_contra hready
  obtain ⟨f, hf⟩ := attempt_not_ready hready
  rw [finalize, hf] at h
  cases h

theorem Coherent.set {d : Draft} (h : d.Coherent) {c : FieldDraft} (hc : c.Coherent) (i : Nat) :
    ({ d with fields := d.fields.set i c } : Draft).Coherent := by
  intro b hb
  rcases List.mem_or_eq_of_mem_set hb with hm | rfl
  · exact h b hm
  · exact hc

/-- Every step keeps frozen fields as they were frozen. -/
theorem Coherent.step {d next : Draft} (h : d.Coherent) (hs : Step d next) : next.Coherent := by
  cases hs with
  | add ha =>
    unfold Draft.add at ha
    split at ha
    · cases ha
    · cases ha
      intro b hb
      rcases List.mem_append.mp hb with hm | hm
      · exact h b hm
      · rw [List.mem_singleton.mp hm]
        intro l hl
        cases hl
  | setLabel found hl =>
    obtain ⟨_, hopen⟩ := FieldDraft.frozen_setLabel hl
    refine h.set (fun l hf => ?_) _
    rw [hopen] at hf
    cases hf
  | freeze found hf =>
    have hb := h _ (List.mem_of_getElem? found)
    have hcheck := FieldDraft.check_of_finalize hb hf
    rw [FieldDraft.finalize_coherent hb hcheck] at hf
    cases hf
    exact h.set (FieldDraft.coherent_freeze hcheck) _
  | finalize hf =>
    have hready := ready_of_finalize hf
    obtain ⟨fs, _, heq⟩ := finalize_ready h hready
    cases hf.symm.trans heq
    intro b hb
    obtain ⟨c, hm, rfl⟩ := List.mem_map.mp hb
    exact FieldDraft.coherent_freeze (hready.checked c hm)

theorem Reachable.empty : ({} : Draft).Reachable := .refl

theorem Reachable.add_labeled {d : Draft} (h : d.Reachable) (hopen : d.finalized = false)
    (p : Plan) (label : Text) :
    ({ d with fields := d.fields ++ [{ expression := p, serialization := label }] } :
      Draft).Reachable := by
  have hadd : Step d { d with fields := d.fields ++ [{ expression := p }] } :=
    .add (if_neg (by simp [hopen]))
  have hset : FieldDraft.setLabel { expression := p } .serialization label =
      .ok { expression := p, serialization := label } := rfl
  have hlabel := Step.setLabel (d := { d with fields := d.fields ++ [{ expression := p }] })
    (i := d.fields.length) (by simp) hset
  simpa [Reachable] using (h.tail hadd).tail hlabel

theorem Reachable.coherent {d : Draft} (h : d.Reachable) : d.Coherent := by
  induction h with
  | refl =>
    intro b hb
    cases hb
  | tail _ hs ih => exact ih.step hs

end Draft

end TypedStream
