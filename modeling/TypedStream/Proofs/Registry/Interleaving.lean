import Mathlib.Data.List.Sort
import TypedStream.Proofs.Registry

namespace TypedStream.Registry

/-- The replies to the calls for one name. -/
def repliesTo (name : Text) (calls : List (Text × ScalarFunction))
    (replies : List (Except Failure Unit)) : List (Except Failure Unit) :=
  ((calls.zip replies).filter fun p => p.1.1 == name).map Prod.snd

/-- Registries with the same answers, though their entries may be in different orders. -/
structure Alike (a b : Registry) : Prop where
  names : a.names = b.names
  overloads : ∀ name, a.overloads name = b.overloads name
  resolve : ∀ name arguments, a.resolve name arguments = b.resolve name arguments

theorem Alike.of_overloads {a b : Registry} (h : ∀ name, a.overloads name = b.overloads name) :
    Alike a b where
  names := by
    refine a.names_ascending.eq_of_mem_iff b.names_ascending ?_
    intro name
    rw [mem_names_iff, mem_names_iff, h name]
  overloads := h
  resolve name arguments := by rw [Registry.resolve, Registry.resolve, h name]

theorem register_congr {a b : Registry} {name : Text} (h : a.overloads name = b.overloads name)
    (f : ScalarFunction) :
    (∃ e, a.register name f = .error e ∧ b.register name f = .error e) ∨
    ∃ a' b', a.register name f = .ok a' ∧ b.register name f = .ok b' ∧
      a'.overloads name = b'.overloads name := by
  rcases a.register_cases name f with ⟨⟨g, hg, he⟩, ha⟩ | ⟨hnew, ha⟩
  · rcases b.register_cases name f with ⟨_, hb⟩ | ⟨hnone, _⟩
    · exact .inl ⟨_, ha, hb⟩
    · exact absurd he (hnone g (h ▸ hg))
  · rcases b.register_cases name f with ⟨⟨g, hg, he⟩, _⟩ | ⟨_, hb⟩
    · exact absurd he (hnew g (h ▸ hg))
    · refine .inr ⟨_, _, ha, hb, ?_⟩
      rw [overloads_append, overloads_append, h]

theorem registerEach_filter (name : Text) (calls : List (Text × ScalarFunction))
    {a b : Registry} (h : a.overloads name = b.overloads name) :
    (a.registerEach calls).1.overloads name =
      (b.registerEach (calls.filter (·.1 == name))).1.overloads name ∧
    repliesTo name calls (a.registerEach calls).2 =
      (b.registerEach (calls.filter (·.1 == name))).2 := by
  induction calls generalizing a b with
  | nil => exact ⟨h, rfl⟩
  | cons call calls ih =>
    obtain ⟨n, f⟩ := call
    by_cases hn : n = name
    · subst hn
      rw [List.filter_cons_of_pos (by simp)]
      rcases register_congr h f with ⟨e, ha, hb⟩ | ⟨a', b', ha, hb, h'⟩
      · obtain ⟨ho, hr⟩ := ih h
        rw [registerEach_refused ha, registerEach_refused hb]
        exact ⟨ho, by simpa [repliesTo] using hr⟩
      · obtain ⟨ho, hr⟩ := ih h'
        rw [registerEach_entered ha, registerEach_entered hb]
        exact ⟨ho, by simpa [repliesTo] using hr⟩
    · rw [List.filter_cons_of_neg (by simpa using hn)]
      cases ha : a.register n f with
      | error e =>
        obtain ⟨ho, hr⟩ := ih h
        rw [registerEach_refused ha]
        exact ⟨ho, by simpa [repliesTo, hn] using hr⟩
      | ok next =>
        obtain ⟨ho, hr⟩ := ih ((overloads_of_register hn ha).trans h)
        rw [registerEach_entered ha]
        exact ⟨ho, by simpa [repliesTo, hn] using hr⟩

theorem overloads_reordered {order : List (String × List ScalarFunction)}
    (h : order.Perm Builtin.table) (name : Text) :
    overloads ⟨ungroup order⟩ name = builtin.overloads name := by
  by_cases hname : ∃ group ∈ order, utf8 group.1 = name
  · obtain ⟨⟨n, fs⟩, hmem, rfl⟩ := hname
    have hnodup : (order.map fun group => utf8 group.1).Nodup :=
      (h.map _).nodup_iff.mpr names_nodup
    rw [overloads_ungroup hnodup hmem, overloads_builtin (h.mem_iff.mp hmem)]
  · have hnone : ∀ group ∈ order, utf8 group.1 ≠ name := by simpa using hname
    have hbuiltin : builtin.overloads name = [] :=
      overloads_ungroup_eq_nil fun group hg => hnone group (h.mem_iff.mpr hg)
    rw [overloads_ungroup_eq_nil hnone, hbuiltin]

/-- Histories with the same calls for every name, in the same order for each, get the same replies
name by name and lead to registries that are alike. In particular the builtin functions are all
accepted in whatever order their names come, and the registry is always the same to its users. -/
theorem registerEach_interleaved :
    (∀ (start : Registry) (early late : List (Text × ScalarFunction)),
      (∀ name, early.filter (·.1 == name) = late.filter (·.1 == name)) →
        (∀ name, repliesTo name early (start.registerEach early).2 =
          repliesTo name late (start.registerEach late).2) ∧
        Alike (start.registerEach early).1 (start.registerEach late).1) ∧
    (∀ order : List (String × List ScalarFunction), order.Perm Builtin.table →
      (Registry.empty.registerEach (ungroup order)).2 = (ungroup order).map (fun _ => .ok ()) ∧
      Alike (Registry.empty.registerEach (ungroup order)).1 Registry.builtin) := by
  refine ⟨?_, ?_⟩
  · intro start early late hsame
    have hearly := fun name => registerEach_filter name early (Eq.refl (start.overloads name))
    have hlate := fun name => registerEach_filter name late (Eq.refl (start.overloads name))
    refine ⟨fun name => ?_, .of_overloads fun name => ?_⟩
    · rw [(hearly name).2, (hlate name).2, hsame name]
    · rw [(hearly name).1, (hlate name).1, hsame name]
  · intro order horder
    have hrun : Registry.empty.registerEach (ungroup order) =
        (⟨ungroup order⟩, (ungroup order).map fun _ => .ok ()) :=
      registerEach_distinct (distinct_builtin horder)
    rw [hrun]
    exact ⟨rfl, .of_overloads (overloads_reordered horder)⟩

open Builtin in
/-- The second function for `f` is refused as the first is there already, wherever the one for `g`
comes; and the builtin functions may come backwards. -/
theorem registerEach_interleaved_swap :
    (let f := (utf8 "f", strict .int [.int] "" (unary .ok))
    let f' := (utf8 "f", strict .string [.int] "" (unary .ok))
    let g := (utf8 "g", strict .string [.int] "" (unary .ok))
    Alike (Registry.empty.registerEach [f, f', g]).1 (Registry.empty.registerEach [g, f, f']).1 ∧
      (Registry.empty.registerEach [f, f', g]).2 =
        [.ok (), .error (.registered (utf8 "f") [some (.scalar .int)]), .ok ()] ∧
      repliesTo (utf8 "f") [g, f, f'] (Registry.empty.registerEach [g, f, f']).2 =
        [.ok (), .error (.registered (utf8 "f") [some (.scalar .int)])]) ∧
    Alike (Registry.empty.registerEach (ungroup Builtin.table.reverse)).1 Registry.builtin := by
  refine ⟨?_, (registerEach_interleaved.2 _ (List.reverse_perm _)).2⟩
  intro f f' g
  have hsame : ∀ name, [f, f', g].filter (·.1 == name) = [g, f, f'].filter (·.1 == name) := by
    intro name
    by_cases hg : g.1 = name
    · subst hg
      rfl
    · simp [List.filter_cons, hg]
  obtain ⟨hreplies, halike⟩ := registerEach_interleaved.1 .empty _ _ hsame
  have hrun : (Registry.empty.registerEach [f, f', g]).2 =
      [.ok (), .error (.registered (utf8 "f") [some (.scalar .int)]), .ok ()] := by
    have hne : utf8 "f" ≠ utf8 "g" := by decide
    simp [registerEach, register, overloads, empty, strict, DataType.equalAll_iff, f, f', g, hne]
  refine ⟨halike, hrun, ?_⟩
  rw [← hreplies, hrun]
  rfl

end TypedStream.Registry
