import TypedStream.Function.Builtin
import TypedStream.Proofs.Strict

namespace TypedStream

open Value ScalarFunction

namespace Builtin

@[simp] theorem scalars_strict (r : Scalar) (ss : List Scalar) (d : String)
    (body : List Value → Except Failure Value) : (strict r ss d body).scalars = ss := by
  simp [scalars, strict, List.filterMap_map]

theorem plain_strict (r : Scalar) (ss : List Scalar) (d : String)
    (body : List Value → Except Failure Value) : (strict r ss d body).Plain :=
  ⟨rfl, by rw [scalars_strict]; rfl, ⟨r, rfl⟩⟩

theorem plain_map {types : List Scalar} {g : Scalar → ScalarFunction} (h : ∀ s, (g s).Plain) :
    ∀ f ∈ types.map g, f.Plain := by
  intro f hf
  obtain ⟨s, _, rfl⟩ := List.mem_map.mp hf
  exact h s

theorem plain_table :
    ∀ entry ∈ table, entry.1 ≠ "ifnull" → ∀ f ∈ entry.2, f.Plain := by
  simp only [table, List.forall_mem_cons, List.forall_mem_append, List.not_mem_nil, false_imp_iff,
    implies_true, and_true]
  refine ⟨?_, ?_, ?_, ?_, ?_, ?_, ?_, ?_, ?_, ?_, ?_, ?_, ?_, ?_, ?_, ?_, ?_, ?_, ?_⟩ <;>
    intro hname
  case refine_19 => exact absurd rfl hname
  case refine_2 =>
    exact ⟨plain_map fun _ => plain_strict _ _ _ _, plain_map fun _ => plain_strict _ _ _ _⟩
  all_goals
    first
    | exact plain_strict _ _ _ _
    | exact plain_map fun _ => plain_strict _ _ _ _

end Builtin

namespace Registry

theorem mem_overloads_builtin {name : Text} {f : ScalarFunction}
    (h : f ∈ builtin.overloads name) :
    ∃ entry ∈ Builtin.table, utf8 entry.1 = name ∧ f ∈ entry.2 := by
  obtain ⟨⟨n, g⟩, hmem, rfl⟩ := List.mem_map.mp h
  obtain ⟨hentry, hn⟩ := List.mem_filter.mp hmem
  obtain ⟨entry, ht, hm⟩ := List.mem_flatMap.mp hentry
  obtain ⟨_, hg, he⟩ := List.mem_map.mp hm
  cases he
  exact ⟨entry, ht, beq_iff_eq.mp hn, hg⟩

theorem plain_overloads {name : Text} (h : name ≠ utf8 "ifnull") :
    ∀ f ∈ builtin.overloads name, f.Plain := by
  intro f hf
  obtain ⟨entry, ht, hn, hm⟩ := mem_overloads_builtin hf
  refine Builtin.plain_table entry ht ?_ f hm
  intro he
  exact h (by rw [← hn, he])

/-- The entries of named groups of functions, group after group. -/
def ungroup (groups : List (String × List ScalarFunction)) : List (Text × ScalarFunction) :=
  groups.flatMap fun (name, fs) => fs.map fun f => (utf8 name, f)

theorem overloads_ungroup_cons (n : String) (gs : List ScalarFunction)
    (groups : List (String × List ScalarFunction)) (name : Text) :
    overloads ⟨ungroup ((n, gs) :: groups)⟩ name =
      (if utf8 n = name then gs else []) ++ overloads ⟨ungroup groups⟩ name := by
  by_cases hn : utf8 n = name
  · simp [ungroup, overloads, List.filter_append, List.filter_map, hn, Function.comp_def]
  · simp [ungroup, overloads, List.filter_append, List.filter_map, hn, Function.comp_def]

theorem overloads_ungroup_eq_nil {groups : List (String × List ScalarFunction)} {name : Text}
    (h : ∀ group ∈ groups, utf8 group.1 ≠ name) : overloads ⟨ungroup groups⟩ name = [] := by
  induction groups with
  | nil => rfl
  | cons group groups ih =>
    obtain ⟨hne, hrest⟩ := List.forall_mem_cons.mp h
    rw [overloads_ungroup_cons, if_neg hne, ih hrest, List.append_nil]

theorem overloads_ungroup {groups : List (String × List ScalarFunction)}
    (hnodup : (groups.map fun group => utf8 group.1).Nodup) {name : String}
    {fs : List ScalarFunction} (h : (name, fs) ∈ groups) :
    overloads ⟨ungroup groups⟩ (utf8 name) = fs := by
  induction groups with
  | nil => cases h
  | cons group groups ih =>
    obtain ⟨hnew, hrest⟩ := List.nodup_cons.mp hnodup
    rw [overloads_ungroup_cons]
    rcases List.mem_cons.mp h with rfl | hmem
    · have hnone : ∀ other ∈ groups, utf8 other.1 ≠ utf8 name := fun other ho he =>
        hnew (List.mem_map.mpr ⟨other, ho, he⟩)
      rw [if_pos rfl, overloads_ungroup_eq_nil hnone, List.append_nil]
    · have hne : utf8 group.1 ≠ utf8 name := fun he =>
        hnew (List.mem_map.mpr ⟨(name, fs), hmem, he.symm⟩)
      rw [if_neg hne, List.nil_append]
      exact ih hrest hmem

theorem names_nodup : (Builtin.table.map fun e => utf8 e.1).Nodup := by
  decide +kernel

theorem overloads_builtin {name : String} {fs : List ScalarFunction}
    (h : (name, fs) ∈ Builtin.table) : builtin.overloads (utf8 name) = fs :=
  overloads_ungroup names_nodup h

theorem overloads_of_lookup {name : String} {fs : List ScalarFunction}
    (h : Builtin.table.lookup name = some fs) : builtin.overloads (utf8 name) = fs := by
  obtain ⟨early, late, htable, _⟩ := List.lookup_eq_some_iff.mp h
  refine overloads_builtin ?_
  rw [htable]
  exact List.mem_append_right early List.mem_cons_self

end Registry

end TypedStream
