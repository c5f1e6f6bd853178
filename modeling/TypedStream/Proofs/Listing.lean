import TypedStream.Proofs.Explanation
import TypedStream.Proofs.Text

namespace TypedStream.Plan

def typeLine (t : Option DataType) : Text := utf8 "  type=" ++ DataType.textMissing t

/-- What a node says of itself: its kind with its name or value, its type, and whether nulls
propagate. Names, values and types may have line ends in them. -/
def describe? : Plan → Option (List Text)
  | .variable name _ t => some [utf8 "Variable " ++ name, typeLine t]
  | .constant v t => v.display?.map fun text => [utf8 "Constant " ++ text, typeLine t]
  | .call name _ propagates t _ =>
    some ([utf8 "FunctionCall " ++ name, typeLine t] ++
      if propagates then [utf8 "  propagatesNulls=true"] else [])
  | .promotion _ t => some [utf8 "Promotion", typeLine (some t)]
  | .logic .conjunction t _ => some [utf8 "And", typeLine t]
  | .logic .disjunction t _ => some [utf8 "Or", typeLine t]

/-- The lines of an entry, all but the blank ones two spaces further in for each level. -/
def placed (depth : Nat) (entry : List Text) : Text :=
  Text.ofLines ((entry.flatMap (Text.splitAll 10)).map (Text.inset (List.replicate (2 * depth) 32)))

/-- The entries of nodes one after another, each as deep as its path is long. -/
def listing? : List (List Nat × Plan) → Option Text
  | [] => some []
  | (path, p) :: nodes => do
    let entry ← p.describe?
    let others ← listing? nodes
    return placed path.length entry ++ others

/-- The path of a node as seen from one level further up. -/
def lowered (i : Nat) (node : List Nat × Plan) : List Nat × Plan := (i :: node.1, node.2)

mutual

/-- The nodes with their paths, each node before those below it. -/
def outline : Plan → List (List Nat × Plan)
  | .variable name i t => [([], .variable name i t)]
  | .constant v t => [([], .constant v t)]
  | .call name f propagates t args => ([], .call name f propagates t args) :: outlineFrom 0 args
  | .promotion p t => ([], .promotion p t) :: (outline p).map (lowered 0)
  | .logic c t args => ([], .logic c t args) :: outlineFrom 0 args

/-- The nodes of neighbours, the first of which has the given place. -/
def outlineFrom (i : Nat) : List Plan → List (List Nat × Plan)
  | [] => []
  | p :: ps => (outline p).map (lowered i) ++ outlineFrom (i + 1) ps

end

/-- The nodes are those of the plan, in the order of their paths: a node comes before all that is
below it, and what is below one child before what is below the next. -/
structure Enumerates (nodes : List (List Nat × Plan)) (p : Plan) : Prop where
  ordered : nodes.Pairwise fun a b => a.1 < b.1
  mem_iff : ∀ path q, (path, q) ∈ nodes ↔ p.partAt? path = some q

variable {p q : Plan} {ps : List Plan} {i : Nat} {path : List Nat}

theorem outline_eq (p : Plan) : p.outline = ([], p) :: outlineFrom 0 p.children := by
  cases p <;> simp [outline, outlineFrom, children]

theorem mem_outlineFrom_iff :
    (path, q) ∈ outlineFrom i ps ↔
      ∃ k child rest, ps[k]? = some child ∧ path = (i + k) :: rest ∧ (rest, q) ∈ child.outline := by
  induction ps generalizing i with
  | nil => simp [outlineFrom]
  | cons p ps ih =>
    rw [outlineFrom, List.mem_append, ih]
    constructor
    · rintro (hfirst | ⟨k, child, rest, hchild, hpath, hmem⟩)
      · obtain ⟨⟨rest, r⟩, hmem, he⟩ := List.mem_map.mp hfirst
        cases he
        exact ⟨0, p, rest, rfl, rfl, hmem⟩
      · exact ⟨k + 1, child, rest, hchild, by rw [hpath, Nat.succ_add_eq_add_succ], hmem⟩
    · rintro ⟨k, child, rest, hchild, hpath, hmem⟩
      cases k with
      | zero =>
        cases hchild
        subst hpath
        exact .inl (List.mem_map.mpr ⟨(rest, q), hmem, rfl⟩)
      | succ k =>
        exact .inr ⟨k, child, rest, hchild, by rw [hpath, Nat.succ_add_eq_add_succ], hmem⟩

/-- Every node is listed at its path, and nothing else is. -/
theorem mem_outline_iff : (path, q) ∈ p.outline ↔ p.partAt? path = some q := by
  induction path generalizing p with
  | nil =>
    have hbelow : ([], q) ∉ outlineFrom 0 p.children := by
      intro h
      obtain ⟨k, child, rest, _, hpath, _⟩ := mem_outlineFrom_iff.mp h
      cases hpath
    simp [outline_eq, hbelow, partAt?, descend, eq_comm]
  | cons k path ih =>
    rw [outline_eq, List.mem_cons, mem_outlineFrom_iff]
    constructor
    · rintro (he | ⟨_, child, rest, hchild, hpath, hmem⟩)
      · cases he
      · rw [Nat.zero_add] at hpath
        cases hpath
        exact Option.bind_eq_some_iff.mpr ⟨child, hchild, ih.mp hmem⟩
    · intro h
      obtain ⟨child, hchild, hrest⟩ := descend_cons h
      exact .inr ⟨k, child, path, hchild, by rw [Nat.zero_add], ih.mpr hrest⟩

theorem outlineFrom_ordered (h : ∀ p ∈ ps, p.outline.Pairwise fun a b => a.1 < b.1) :
    (outlineFrom i ps).Pairwise fun a b => a.1 < b.1 := by
  induction ps generalizing i with
  | nil => exact .nil
  | cons p ps ih =>
    obtain ⟨hp, hps⟩ := List.forall_mem_cons.mp h
    rw [outlineFrom, List.pairwise_append]
    refine ⟨?_, ih hps, ?_⟩
    · apply List.pairwise_map.mpr
      apply hp.imp
      intro a b hab
      exact List.cons_lt_cons_iff.mpr (.inr ⟨rfl, hab⟩)
    · intro a ha b hb
      obtain ⟨node, _, rfl⟩ := List.mem_map.mp ha
      obtain ⟨k, child, rest, _, hpath, _⟩ := mem_outlineFrom_iff.mp hb
      rw [hpath]
      exact List.cons_lt_cons_iff.mpr (.inl (by omega))

theorem outline_ordered (p : Plan) : p.outline.Pairwise fun a b => a.1 < b.1 := by
  induction p using childInduction with
  | step p ih =>
    rw [outline_eq]
    refine .cons ?_ (outlineFrom_ordered ih)
    intro node hnode
    obtain ⟨k, child, rest, _, hpath, _⟩ := mem_outlineFrom_iff.mp hnode
    rw [hpath]
    exact List.nil_lt_cons _ _

theorem outline_enumerates (p : Plan) : Enumerates p.outline p where
  ordered := outline_ordered p
  mem_iff := fun _ _ => mem_outline_iff

theorem describe?_eq (p : Plan) :
    p.describe? = p.heading?.map fun heading =>
      [p.kind.name ++ heading, typeLine p.type] ++
        if p.propagates then [utf8 "  propagatesNulls=true"] else [] := by
  cases p with
  | «variable» name i t => rfl
  | constant v t =>
    rw [describe?, heading?, Option.map_map]
    rfl
  | call name f propagates t args => rfl
  | promotion p t => rfl
  | logic c t args => cases c <;> rfl

theorem ownLines?_eq (p : Plan) : p.ownLines? = p.describe?.map Text.ofLines := by
  have hend : utf8 "\n" = [10] := rfl
  have htype : utf8 "  type=" = margin ++ utf8 "type=" := rfl
  have hnulls : margin ++ utf8 "propagatesNulls=true\n" =
      utf8 "  propagatesNulls=true" ++ [10] := rfl
  rw [describe?_eq, ownLines?, Option.map_map]
  congr 1
  funext heading
  cases p.propagates <;> simp [Text.ofLines, typeLine, hend, htype, hnulls]

theorem dump?_eq (p : Plan) :
    p.dump? = (do
      let own ← p.ownLines?
      let below ← dumpAll? p.children
      return own ++ below) := by
  cases p with
  | «variable» name i t => simp [dump?, children, dumpAll?]
  | constant v t => simp [dump?, children, dumpAll?]
  | call name f propagates t args => rfl
  | promotion p t => simp [dump?, children, dumpAll?, Option.bind_assoc]
  | logic c t args => rfl

theorem describe?_eq_none_iff : p.describe? = none ↔ ∃ v t, p = .constant v t ∧ v.Malformed := by
  cases p with
  | constant v t => simp [describe?, Value.display?_eq_none_iff]
  | logic c t args => cases c <;> simp [describe?]
  | _ => simp [describe?]

theorem listing?_append (nodes more : List (List Nat × Plan)) :
    listing? (nodes ++ more) = (do
      let first ← listing? nodes
      let others ← listing? more
      return first ++ others) := by
  induction nodes with
  | nil => simp [listing?]
  | cons node nodes ih => simp [listing?, ih, Option.bind_assoc]

theorem listing?_eq_none_iff {nodes : List (List Nat × Plan)} :
    listing? nodes = none ↔ ∃ node ∈ nodes, node.2.describe? = none := by
  induction nodes with
  | nil => simp [listing?]
  | cons node nodes ih =>
    rw [List.exists_mem_cons_iff, ← ih, listing?]
    cases hnode : node.2.describe? <;> cases hnodes : listing? nodes <;> simp

theorem placed_zero (entry : List Text) : placed 0 entry = Text.ofLines entry := by
  simp [placed, Text.inset_nil, Text.ofLines_flatMap_splitAll]

/-- Indenting moves an entry one level down, and leaves what comes behind it to itself. -/
theorem indent_placed (depth : Nat) (entry : List Text) (rest : Text) :
    Text.indent margin (placed depth entry ++ rest) =
      placed (depth + 1) entry ++ Text.indent margin rest := by
  have hlines : ∀ line ∈ (entry.flatMap (Text.splitAll 10)).map
      (Text.inset (List.replicate (2 * depth) 32)), 10 ∉ line := by
    intro line hline
    obtain ⟨piece, hpiece, rfl⟩ := List.mem_map.mp hline
    obtain ⟨text, _, hsplit⟩ := List.mem_flatMap.mp hpiece
    apply Text.not_mem_inset _ (Text.not_mem_of_mem_splitAll hsplit)
    simp [List.mem_replicate]
  have hmargin : margin ++ List.replicate (2 * depth) 32 = List.replicate (2 * (depth + 1)) 32 := by
    have htwo : margin = List.replicate 2 32 := rfl
    rw [htwo, List.replicate_append_replicate]
    congr 1
    omega
  have hinset : Text.inset margin ∘ Text.inset (List.replicate (2 * depth) 32) =
      Text.inset (List.replicate (2 * (depth + 1)) 32) := by
    funext line
    rw [Function.comp_apply, Text.inset_inset, hmargin]
  rw [placed, Text.indent_ofLines hlines, List.map_map, hinset, placed]

theorem listing?_lowered (i : Nat) (nodes : List (List Nat × Plan)) :
    listing? (nodes.map (lowered i)) = (listing? nodes).map (Text.indent margin) := by
  induction nodes with
  | nil => rfl
  | cons node nodes ih =>
    cases hnode : node.2.describe? <;> cases hnodes : listing? nodes <;>
      simp [listing?, lowered, ih, hnode, hnodes, indent_placed]

theorem dumpAll?_eq_listing? (h : ∀ p ∈ ps, p.dump? = listing? p.outline) (i : Nat) :
    dumpAll? ps = listing? (outlineFrom i ps) := by
  induction ps generalizing i with
  | nil => rfl
  | cons p ps ih =>
    obtain ⟨hp, hps⟩ := List.forall_mem_cons.mp h
    rw [dumpAll?, outlineFrom, listing?_append, listing?_lowered, hp, ih hps (i + 1)]
    cases listing? p.outline <;> rfl

theorem dump?_eq_listing? (p : Plan) : p.dump? = listing? p.outline := by
  induction p using childInduction with
  | step p ih =>
    -- The text of each child is a listing by itself; under the node its paths are one longer.
    rw [dump?_eq, ownLines?_eq, dumpAll?_eq_listing? ih 0, outline_eq, listing?]
    cases p.describe? with
    | none => rfl
    | some entry => simp [placed_zero]

/-- The nested text of a plan is a flat list: the entries of its nodes, in the order in which a walk
from the root meets them, each as far in as the node is deep. It is there unless one of the
constants is malformed. -/
theorem dump?_lists_nodes (p : Plan) :
    Enumerates p.outline p ∧ p.dump? = listing? p.outline ∧
      (p.dump? = none ↔ ∃ path v t, p.partAt? path = some (.constant v t) ∧ v.Malformed) := by
  refine ⟨outline_enumerates p, dump?_eq_listing? p, ?_⟩
  rw [dump?_eq_listing?, listing?_eq_none_iff]
  constructor
  · rintro ⟨⟨path, q⟩, hmem, hq⟩
    obtain ⟨v, t, rfl, hv⟩ := describe?_eq_none_iff.mp hq
    exact ⟨path, v, t, mem_outline_iff.mp hmem, hv⟩
  · rintro ⟨path, v, t, hpart, hv⟩
    exact ⟨(path, _), mem_outline_iff.mpr hpart, describe?_eq_none_iff.mpr ⟨v, t, rfl, hv⟩⟩

/-- A name of three lines, of which the second stays blank. -/
example :
    (Plan.promotion (.variable (utf8 "a\n\nb") 0 (some (.scalar .int))) (.scalar .bigint)).dump? =
      some (utf8 "Promotion\n  type=BIGINT\n  Variable a\n\n  b\n    type=INT\n") := rfl

end TypedStream.Plan
