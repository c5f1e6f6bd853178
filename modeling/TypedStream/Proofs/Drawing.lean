import Mathlib.Data.List.Nodup
import TypedStream.Proofs.Label
import TypedStream.Proofs.Pointwise

namespace TypedStream

namespace Diagram

def branches (d : Diagram) : List Diagram := d.children.map Prod.snd

/-- The tree at a path of places among children. -/
def at? (d : Diagram) (path : List Nat) : Option Diagram := descend branches d path

mutual

def size : Diagram → Nat
  | node _ _ children => 1 + sizeAll children

def sizeAll : List (Text × Diagram) → Nat
  | [] => 0
  | (_, d) :: rest => d.size + sizeAll rest

end

/-- How many nodes there are in the trees of the children before a place. -/
def offset (children : List (Text × Diagram)) (i : Nat) : Nat := sizeAll (children.take i)

/-- How many nodes a walk from the root meets before the node at a path: each node on the way down,
and all that is below its children further left. -/
def number : Diagram → List Nat → Nat
  | _, [] => 0
  | d, i :: path => 1 + offset d.children i + (d.branches[i]?.elim 0 fun child => child.number path)

variable {d e child : Diagram} {children : List (Text × Diagram)} {name : Text} {i j : Nat}
  {path : List Nat}

theorem size_eq (d : Diagram) : d.size = 1 + sizeAll d.children := by
  cases d
  rfl

theorem at?_cons_iff :
    d.at? (i :: path) = some e ↔
      ∃ name child, d.children[i]? = some (name, child) ∧ child.at? path = some e := by
  simp only [at?, descend, branches, List.getElem?_map, Option.bind_eq_some_iff,
    Option.map_eq_some_iff, Prod.exists]
  constructor
  · rintro ⟨child, ⟨name, _, hchild, rfl⟩, hrest⟩
    exact ⟨name, _, hchild, hrest⟩
  · rintro ⟨name, child, hchild, hrest⟩
    exact ⟨child, ⟨name, child, hchild, rfl⟩, hrest⟩

theorem number_cons (h : d.children[i]? = some (name, child)) (path : List Nat) :
    d.number (i :: path) = 1 + offset d.children i + child.number path := by
  simp [number, branches, h]

theorem offset_add_le (h : children[i]? = some (name, child)) (hlt : i < j) :
    offset children i + child.size ≤ offset children j := by
  induction children generalizing i j with
  | nil => simp at h
  | cons first rest ih =>
    cases j with
    | zero => omega
    | succ j =>
      cases i with
      | zero =>
        cases h
        simp [offset, sizeAll]
      | succ i =>
        have hrest := ih h (Nat.lt_of_succ_lt_succ hlt)
        simp only [offset, List.take_succ_cons, sizeAll] at hrest ⊢
        omega

theorem offset_add_le_sizeAll (h : children[i]? = some (name, child)) :
    offset children i + child.size ≤ sizeAll children := by
  obtain ⟨hlt, _⟩ := List.getElem?_eq_some_iff.mp h
  simpa [offset] using offset_add_le h hlt

theorem branchInduction {motive : Diagram → Prop}
    (step : ∀ d : Diagram, (∀ (i : Nat) (name : Text) (child : Diagram),
      d.children[i]? = some (name, child) → motive child) → motive d) (d : Diagram) :
    motive d := by
  induction hsize : d.size using Nat.strongRecOn generalizing d with
  | ind n ih =>
    apply step
    intro i name child hchild
    have hle := offset_add_le_sizeAll hchild
    have hlt : child.size < n := by
      rw [← hsize, size_eq d]
      omega
    exact ih child.size hlt child rfl

theorem exists_branch {k : Nat} (h : k < sizeAll children) :
    ∃ i name child, children[i]? = some (name, child) ∧ offset children i ≤ k ∧
      k < offset children i + child.size := by
  induction children generalizing k with
  | nil => simp [sizeAll] at h
  | cons first rest ih =>
    by_cases hfirst : k < first.2.size
    · exact ⟨0, first.1, first.2, rfl, by simp [offset, sizeAll], by simpa [offset, sizeAll]⟩
    · simp only [sizeAll] at h
      have hrest : k - first.2.size < sizeAll rest := by omega
      obtain ⟨i, name, child, hchild, hle, hlt⟩ := ih hrest
      refine ⟨i + 1, name, child, hchild, ?_, ?_⟩
      · simp only [offset, List.take_succ_cons, sizeAll] at hle ⊢
        omega
      · simp only [offset, List.take_succ_cons, sizeAll] at hlt ⊢
        omega

theorem number_lt (h : d.at? path = some e) : d.number path < d.size := by
  induction path generalizing d with
  | nil =>
    rw [size_eq, number]
    omega
  | cons i path ih =>
    obtain ⟨name, child, hchild, hrest⟩ := at?_cons_iff.mp h
    have hlt := ih hrest
    have hle := offset_add_le_sizeAll hchild
    rw [number_cons hchild, size_eq]
    omega

/-- Numbers go up in the order of paths, where a path comes before those that continue it. -/
theorem number_lt_number {f : Diagram} {other : List Nat} (h : d.at? path = some e)
    (hother : d.at? other = some f) (hlt : path < other) : d.number path < d.number other := by
  induction path generalizing d other with
  | nil =>
    cases other with
    | nil => simp at hlt
    | cons j other =>
      simp only [number]
      omega
  | cons i path ih =>
    cases other with
    | nil => simp at hlt
    | cons j other =>
      obtain ⟨name, child, hchild, hrest⟩ := at?_cons_iff.mp h
      obtain ⟨name', child', hchild', hrest'⟩ := at?_cons_iff.mp hother
      rw [number_cons hchild, number_cons hchild']
      rcases List.cons_lt_cons_iff.mp hlt with hij | ⟨rfl, hbehind⟩
      · have hbelow := number_lt hrest
        have hle := offset_add_le hchild hij
        omega
      · cases hchild.symm.trans hchild'
        have := ih hrest hrest' hbehind
        omega

theorem number_lt_iff {f : Diagram} {other : List Nat} (h : d.at? path = some e)
    (hother : d.at? other = some f) : d.number path < d.number other ↔ path < other := by
  constructor
  · intro hlt
    rcases Std.lt_trichotomy path other with hless | heq | hmore
    · exact hless
    · rw [heq] at hlt
      omega
    · have := number_lt_number hother h hmore
      omega
  · exact number_lt_number h hother

/-- Every number up to the size is that of a node. -/
theorem exists_number {k : Nat} (h : k < d.size) :
    ∃ path e, d.at? path = some e ∧ d.number path = k := by
  induction k using Nat.strongRecOn generalizing d with
  | ind k ih =>
    cases k with
    | zero => exact ⟨[], d, rfl, rfl⟩
    | succ k =>
      rw [size_eq] at h
      have hbelow : k < sizeAll d.children := by omega
      obtain ⟨i, name, child, hchild, hle, hlt⟩ := exists_branch hbelow
      have hchildSize : k - offset d.children i < child.size := by omega
      obtain ⟨path, e, he, hk⟩ := ih (k - offset d.children i) (by omega) hchildSize
      refine ⟨i :: path, e, at?_cons_iff.mpr ⟨name, child, hchild, he⟩, ?_⟩
      rw [number_cons hchild]
      omega

end Diagram

namespace Drawing

open Diagram

theorem ofTree_vertices (next : Nat) (d : Diagram) :
    (ofTree next d).vertices =
      (next, d.label) :: (ofChildren next 0 (next + 1) d.children).vertices := by
  cases d
  rfl

theorem ofTree_edges (next : Nat) (d : Diagram) :
    (ofTree next d).edges = (ofChildren next 0 (next + 1) d.children).edges := by
  cases d
  rfl

mutual

theorem numbers_ofTree (next : Nat) (d : Diagram) :
    (ofTree next d).vertices.map Prod.fst = List.range' next d.size := by
  cases d with
  | node name fields children =>
    have hbelow := numbers_ofChildren next 0 (next + 1) children
    simp only [ofTree, List.map_cons, hbelow, size, Nat.add_comm 1, List.range'_succ]
termination_by structural d

theorem numbers_ofChildren (parent outlet next : Nat) (children : List (Text × Diagram)) :
    (ofChildren parent outlet next children).vertices.map Prod.fst =
      List.range' next (sizeAll children) := by
  cases children with
  | nil => rfl
  | cons first rest =>
    obtain ⟨name, child⟩ := first
    have hfirst := numbers_ofTree next child
    have hlength : (ofTree next child).vertices.length = child.size := by
      simpa using congrArg List.length hfirst
    have hrest := numbers_ofChildren parent (outlet + 1) (next + child.size) rest
    simp only [ofChildren, List.map_append, hlength, hfirst, hrest, sizeAll]
    rw [← List.range'_append_1]
termination_by structural children

end

theorem length_ofTree (next : Nat) (d : Diagram) : (ofTree next d).vertices.length = d.size := by
  simpa using congrArg List.length (numbers_ofTree next d)

/-- The vertices of a child stand together, behind those of the children before it. -/
theorem vertices_ofChildren {children : List (Text × Diagram)} {i k : Nat} {name : Text}
    {child : Diagram} (h : children[i]? = some (name, child)) (hk : k < child.size)
    (parent outlet next : Nat) :
    (ofChildren parent outlet next children).vertices[offset children i + k]? =
      (ofTree (next + offset children i) child).vertices[k]? := by
  induction children generalizing i outlet next with
  | nil => simp at h
  | cons first rest ih =>
    obtain ⟨title, tree⟩ := first
    have hlength := length_ofTree next tree
    simp only [ofChildren]
    cases i with
    | zero =>
      cases h
      simp only [offset, List.take_zero, sizeAll, Nat.zero_add, Nat.add_zero]
      exact List.getElem?_append_left (by omega)
    | succ i =>
      have hrest := ih h (outlet + 1) (next + tree.size)
      simp only [offset, List.take_succ_cons, sizeAll] at hrest ⊢
      rw [List.getElem?_append_right (by omega), hlength]
      rw [show tree.size + sizeAll (List.take i rest) + k - tree.size =
        sizeAll (List.take i rest) + k by omega, hrest, Nat.add_assoc]

/-- The vertex of a node is at the node's number. -/
theorem vertex_ofTree {d e : Diagram} {path : List Nat} (h : d.at? path = some e) (next : Nat) :
    (ofTree next d).vertices[d.number path]? = some (next + d.number path, e.label) := by
  induction path generalizing d next with
  | nil =>
    cases h
    rw [ofTree_vertices]
    rfl
  | cons i path ih =>
    obtain ⟨name, child, hchild, hrest⟩ := at?_cons_iff.mp h
    have hvertex := vertices_ofChildren hchild (number_lt hrest) next 0 (next + 1)
    rw [ih hrest] at hvertex
    rw [ofTree_vertices, number_cons hchild, Nat.add_assoc, Nat.add_comm 1, List.getElem?_cons_succ,
      hvertex]
    congr 2
    omega

/-- An edge of the children leads to one of them or is an edge of its tree. -/
theorem mem_edges_ofChildren {children : List (Text × Diagram)} {parent outlet next : Nat}
    {x : Edge} :
    x ∈ (ofChildren parent outlet next children).edges ↔
      ∃ (i : Nat) (name : Text) (child : Diagram), children[i]? = some (name, child) ∧
        (x = ⟨parent, outlet + i, next + offset children i⟩ ∨
          x ∈ (ofTree (next + offset children i) child).edges) := by
  induction children generalizing outlet next with
  | nil => simp [ofChildren]
  | cons first rest ih =>
    obtain ⟨title, tree⟩ := first
    simp only [ofChildren, length_ofTree, List.mem_append, List.mem_cons, ih]
    constructor
    · rintro (hfirst | hedge | ⟨i, name, child, hchild, hx⟩)
      · exact ⟨0, title, tree, rfl, .inr hfirst⟩
      · exact ⟨0, title, tree, rfl, .inl hedge⟩
      · refine ⟨i + 1, name, child, hchild, ?_⟩
        simpa only [offset, List.take_succ_cons, sizeAll, Nat.add_assoc, Nat.add_comm 1] using hx
    · rintro ⟨i, name, child, hchild, hx⟩
      cases i with
      | zero =>
        cases hchild
        rcases hx with hedge | hfirst
        · exact .inr (.inl hedge)
        · exact .inl hfirst
      | succ i =>
        refine .inr (.inr ⟨i, name, child, hchild, ?_⟩)
        simpa only [offset, List.take_succ_cons, sizeAll, Nat.add_assoc, Nat.add_comm 1] using hx

/-- The edge to a node leads from its parent's vertex to its own, from the outlet with the node's
place among the children. -/
theorem mem_edges_ofTree {d : Diagram} {next : Nat} {x : Edge} :
    x ∈ (ofTree next d).edges ↔
      ∃ path e, d.at? (path ++ [x.outlet]) = some e ∧ x.source = next + d.number path ∧
        x.target = next + d.number (path ++ [x.outlet]) := by
  induction d using branchInduction generalizing next with
  | step d ih =>
    rw [ofTree_edges, mem_edges_ofChildren]
    constructor
    · rintro ⟨i, name, child, hchild, rfl | hx⟩
      · refine ⟨[], child, at?_cons_iff.mpr ⟨name, child, ?_, rfl⟩, rfl, ?_⟩
        · simpa using hchild
        · simp only [List.nil_append, Nat.zero_add]
          rw [number_cons hchild, number]
          omega
      · obtain ⟨path, e, he, hsource, htarget⟩ := (ih i name child hchild).mp hx
        refine ⟨i :: path, e, at?_cons_iff.mpr ⟨name, child, hchild, he⟩, ?_, ?_⟩
        · rw [hsource, number_cons hchild]
          omega
        · rw [htarget, List.cons_append, number_cons hchild]
          omega
    · rintro ⟨path, e, he, hsource, htarget⟩
      cases path with
      | nil =>
        obtain ⟨name, child, hchild, _⟩ := at?_cons_iff.mp he
        refine ⟨x.outlet, name, child, hchild, .inl ?_⟩
        rw [List.nil_append, number_cons hchild, number] at htarget
        rw [number] at hsource
        cases x
        simp only [Edge.mk.injEq, Nat.zero_add, true_and] at hsource htarget ⊢
        omega
      | cons i path =>
        obtain ⟨name, child, hchild, hrest⟩ := at?_cons_iff.mp he
        refine ⟨i, name, child, hchild, .inr ((ih i name child hchild).mpr ?_)⟩
        rw [number_cons hchild] at hsource
        rw [List.cons_append, number_cons hchild] at htarget
        exact ⟨path, e, hrest, by omega, by omega⟩

mutual

theorem targets_ofTree (next : Nat) (d : Diagram) :
    ((ofTree next d).edges.map Edge.target).Perm (List.range' (next + 1) (sizeAll d.children)) := by
  cases d with
  | node name fields children => exact targets_ofChildren next 0 (next + 1) children
termination_by structural d

theorem targets_ofChildren (parent outlet next : Nat) (children : List (Text × Diagram)) :
    ((ofChildren parent outlet next children).edges.map Edge.target).Perm
      (List.range' next (sizeAll children)) := by
  cases children with
  | nil => exact .nil
  | cons first rest =>
    obtain ⟨name, child⟩ := first
    have hfirst := targets_ofTree next child
    have hrest := targets_ofChildren parent (outlet + 1) (next + child.size) rest
    have hrange : next :: (List.range' (next + 1) (sizeAll child.children) ++
        List.range' (next + child.size) (sizeAll rest)) =
        List.range' next (child.size + sizeAll rest) := by
      rw [← List.range'_append_1, ← List.cons_append, size_eq child, Nat.add_comm 1,
        List.range'_succ]
    simp only [ofChildren, length_ofTree, List.map_append, List.map_cons, sizeAll]
    rw [← hrange]
    exact List.perm_middle.trans ((hfirst.append hrest).cons next)
termination_by structural children

end

theorem vertexName_injective : Function.Injective vertexName := by
  intro m n h
  exact Text.ofNat_injective (List.append_cancel_left h)

theorem perm_insertVertex (v : Nat × Text) (vs : List (Nat × Text)) :
    (insertVertex v vs).Perm (v :: vs) := by
  induction vs with
  | nil => exact .rfl
  | cons w vs ih =>
    rw [insertVertex]
    split
    · exact (ih.cons w).trans (.swap v w vs)
    · exact .rfl

theorem perm_sortVertices (vs : List (Nat × Text)) : (sortVertices vs).Perm vs := by
  induction vs with
  | nil => exact .rfl
  | cons v vs ih => exact (perm_insertVertex v (sortVertices vs)).trans (ih.cons v)

/-- The drawing shows the tree. -/
structure Shows (g : Drawing) (d : Diagram) : Prop where
  /-- The vertices are numbered from zero, and are as many as the nodes. -/
  numbers : g.vertices.map Prod.fst = List.range d.size
  /-- They bear different names. -/
  names : (g.vertices.map fun v => vertexName v.1).Nodup
  /-- Every node has a vertex, which is labelled with what the node says. -/
  labels : ∀ path e, d.at? path = some e →
    g.vertices[d.number path]? = some (d.number path, e.label)
  /-- Every vertex is that of a node. -/
  nodes : ∀ k < d.size, ∃ path e, d.at? path = some e ∧ d.number path = k
  /-- A node comes before those below it and those further right. -/
  order : ∀ path other e f, d.at? path = some e → d.at? other = some f →
    (d.number path < d.number other ↔ path < other)
  /-- The edges are those from parents to children. -/
  edges : ∀ x, x ∈ g.edges ↔ ∃ path e, d.at? (path ++ [x.outlet]) = some e ∧
    x.source = d.number path ∧ x.target = d.number (path ++ [x.outlet])
  edgeCount : g.edges.length + 1 = d.size
  /-- There is one edge to each vertex but the first. -/
  incoming : ∀ k < d.size, (g.edges.map Edge.target).count k = if k = 0 then 0 else 1
  /-- There is a statement for each edge and each vertex in the text, and no other. -/
  written : ∃ statements : List Text, statements.Perm (utf8 "rankdir=LR" ::
      (g.edges.map edgeText ++ g.vertices.map vertexText)) ∧
    g.dot = utf8 "digraph  \x7b\n" ++
      statements.flatMap (fun s => utf8 "\t" ++ s ++ utf8 ";\n") ++ utf8 "\n\x7d\n"

theorem ofDiagram_shows (d : Diagram) : (ofDiagram d).Shows d := by
  have hnumbers : (ofDiagram d).vertices.map Prod.fst = List.range d.size := by
    rw [List.range_eq_range']
    exact numbers_ofTree 0 d
  have htargets : ((ofDiagram d).edges.map Edge.target).Perm
      (List.range' 1 (sizeAll d.children)) := targets_ofTree 0 d
  constructor
  case numbers => exact hnumbers
  case names =>
    have hnodup : ((List.range d.size).map vertexName).Nodup :=
      List.Nodup.map vertexName_injective List.nodup_range
    rw [← hnumbers, List.map_map] at hnodup
    exact hnodup
  case labels =>
    intro path e he
    have hvertex := vertex_ofTree he 0
    rwa [Nat.zero_add] at hvertex
  case nodes =>
    intro k hk
    exact exists_number hk
  case order =>
    intro path other e f he hf
    exact number_lt_iff he hf
  case edges =>
    intro x
    have hedges : x ∈ (ofDiagram d).edges ↔ _ := mem_edges_ofTree
    simpa only [Nat.zero_add] using hedges
  case edgeCount =>
    have hlength := htargets.length_eq
    rw [List.length_map, List.length_range'] at hlength
    rw [hlength, size_eq, Nat.add_comm]
  case incoming =>
    intro k hk
    rw [size_eq] at hk
    have hnodup : (List.range' 1 (sizeAll d.children)).Nodup := List.nodup_range'
    rw [htargets.count_eq]
    by_cases hzero : k = 0
    · rw [if_pos hzero, List.count_eq_zero]
      simp [hzero]
    · rw [if_neg hzero, hnodup.count, if_pos]
      rw [List.mem_range'_1]
      omega
  case written =>
    refine ⟨_, .cons _ (.append_left _ ?_), rfl⟩
    exact (perm_sortVertices _).map vertexText

end Drawing

end TypedStream
