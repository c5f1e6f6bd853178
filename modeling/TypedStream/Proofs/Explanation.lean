import TypedStream.Plan.Dump
import TypedStream.Proofs.Conversion.Coherence
import TypedStream.Proofs.Drawing
import TypedStream.Proofs.Elaboration

namespace TypedStream.Plan

/-- The plan at a path of places among children, where conversions count. -/
def partAt? (p : Plan) (path : List Nat) : Option Plan := descend children p path

variable {withTypes : Bool} {p : Plan} {d : Diagram}

theorem explainAll?_forall₂ {index : Nat} {ps : List Plan} {nodes : List (Text × Diagram)}
    (h : explainAll? withTypes index ps = some nodes) :
    List.Forall₂ (fun q e => q.explain? withTypes = some e) ps (nodes.map Prod.snd) := by
  induction ps generalizing index nodes with
  | nil =>
    cases h
    exact .nil
  | cons p ps ih =>
    rw [explainAll?] at h
    obtain ⟨first, hfirst, h⟩ := Option.bind_eq_some_iff.mp h
    obtain ⟨others, hothers, h⟩ := Option.bind_eq_some_iff.mp h
    cases h
    exact .cons hfirst (ih hothers)

theorem explain?_children (h : p.explain? withTypes = some d) :
    List.Forall₂ (fun q e => q.explain? withTypes = some e) p.children d.branches := by
  cases p with
  | «variable» name i t =>
    cases h
    exact .nil
  | constant v t =>
    obtain ⟨text, _, rfl⟩ := Option.map_eq_some_iff.mp h
    exact .nil
  | call name f propagates t args =>
    obtain ⟨nodes, hnodes, rfl⟩ := Option.map_eq_some_iff.mp h
    exact explainAll?_forall₂ hnodes
  | promotion p t =>
    obtain ⟨node, hnode, rfl⟩ := Option.map_eq_some_iff.mp h
    exact .cons hnode .nil
  | logic c t args =>
    obtain ⟨nodes, hnodes, rfl⟩ := Option.map_eq_some_iff.mp h
    exact explainAll?_forall₂ hnodes

theorem explainAll?_eq_none_iff {index : Nat} {ps : List Plan} :
    explainAll? withTypes index ps = none ↔ ∃ p ∈ ps, p.explain? withTypes = none := by
  induction ps generalizing index with
  | nil => simp [explainAll?]
  | cons p ps ih =>
    rw [List.exists_mem_cons_iff, ← @ih (index + 1), explainAll?]
    cases hp : p.explain? withTypes <;>
      cases hps : explainAll? withTypes (index + 1) ps <;> simp

theorem explain?_none_step :
    p.explain? withTypes = none ↔ (∃ v t, p = .constant v t ∧ v.Malformed) ∨
      ∃ child ∈ p.children, child.explain? withTypes = none := by
  cases p with
  | «variable» name i t => simp [explain?, children]
  | constant v t => simp [explain?, children, Value.display?_eq_none_iff]
  | call name f propagates t args => simp [explain?, children, explainAll?_eq_none_iff]
  | promotion p t => simp [explain?, children]
  | logic c t args => simp [explain?, children, explainAll?_eq_none_iff]

theorem explain?_eq_none_iff :
    p.explain? withTypes = none ↔ ∃ v t, (Plan.constant v t).Part p ∧ v.Malformed := by
  induction p using childInduction with
  | step p ih =>
    rw [explain?_none_step]
    constructor
    · rintro (⟨v, t, rfl, hv⟩ | ⟨child, hmem, hchild⟩)
      · exact ⟨v, t, .whole, hv⟩
      · obtain ⟨v, t, hpart, hv⟩ := (ih child hmem).mp hchild
        exact ⟨v, t, .under hmem hpart, hv⟩
    · rintro ⟨v, t, hpart, hv⟩
      cases hpart with
      | whole => exact .inl ⟨v, t, rfl, hv⟩
      | under hmem hpart => exact .inr ⟨_, hmem, (ih _ hmem).mpr ⟨v, t, hpart, hv⟩⟩

/-- Diagrams are drawn node by node, and show plans part by part: the diagram of a plan has at each
path of places the diagram of the part there, and nothing else. A plan has a diagram unless one of
its constants is malformed. -/
theorem explain?_drawn :
    (∀ d : Diagram, (Drawing.ofDiagram d).Shows d) ∧
    ∀ (withTypes : Bool) (p : Plan),
      (p.explain? withTypes = none ↔ ∃ v t, (Plan.constant v t).Part p ∧ v.Malformed) ∧
      ∀ d, p.explain? withTypes = some d →
        (∀ path q, p.partAt? path = some q →
          ∃ e, d.at? path = some e ∧ q.explain? withTypes = some e) ∧
        ∀ path e, d.at? path = some e →
          ∃ q, p.partAt? path = some q ∧ q.explain? withTypes = some e := by
  refine ⟨Drawing.ofDiagram_shows, ?_⟩
  intro withTypes p
  refine ⟨explain?_eq_none_iff, ?_⟩
  intro d hd
  constructor
  · intro path q hq
    apply descend_related
      (R := fun (q : Plan) (e : Diagram) => q.explain? withTypes = some e) _ hd hq
    intro q e he i child hchild
    exact forall₂_getElem? (explain?_children he) hchild
  · intro path e he
    apply descend_related
      (R := fun (e : Diagram) (q : Plan) => q.explain? withTypes = some e) _ hd he
    intro e q hq i child hchild
    exact forall₂_getElem? (explain?_children hq).flip hchild

/-- A constant that no type has cannot be explained. -/
theorem misnamed_not_explained :
    ¬ ∃ d, (Plan.constant (.malformed .function) (some (.scalar .int))).explain? true = some d := by
  rintro ⟨d, hd⟩
  cases hd

end TypedStream.Plan
