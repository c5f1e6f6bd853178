import TypedStream.Function.Registry
import TypedStream.Proofs.Outcome

namespace TypedStream

namespace ScalarFunction

/-- All types of the signature are there. -/
structure Typed (f : ScalarFunction) : Prop where
  result : f.result.isSome = true
  parameters : ∀ t ∈ f.parameters, t.isSome = true

/-- The type of a call: the result's, and its nullable version if null goes through a strict
function. -/
def CallType (f : ScalarFunction) (propagates : Bool) (t : DataType) : Prop :=
  ∃ r, f.result = some r ∧
    if propagates then f.strict = true ∧ r.asNullable = some t else t = r

end ScalarFunction

namespace Registry

def Typed (self : Registry) : Prop := ∀ e ∈ self.entries, e.2.Typed

/-- What `bind` promises of a binding. -/
structure Bound (registry : Registry) (name : Text) (arguments : List (Option DataType))
    (b : Binding) : Prop where
  named : b.name = name
  overload : b.function ∈ registry.overloads name
  arity : arguments.length = b.function.parameters.length
  result : ∃ t, b.result = some t ∧ b.function.CallType b.propagatesNulls t

theorem Typed.overload {self : Registry} {name : Text} {f : ScalarFunction} (h : self.Typed)
    (hf : f ∈ self.overloads name) : f.Typed := by
  obtain ⟨e, he, rfl⟩ := List.mem_map.mp hf
  exact h e (List.mem_filter.mp he).1

theorem Typed.register {self next : Registry} {name : Text} {f : ScalarFunction} (h : self.Typed)
    (hf : f.Typed) (hr : self.register name f = .ok next) : next.Typed := by
  unfold Registry.register at hr
  split at hr
  · cases hr
  · cases hr
    intro e he
    rcases List.mem_append.mp he with hm | hm
    · exact h e hm
    · rw [List.mem_singleton.mp hm]
      exact hf

theorem cost?_length {arguments parameters : List (Option DataType)} {c : Nat}
    (h : cost? arguments parameters = some c) : arguments.length = parameters.length := by
  induction arguments generalizing parameters c with
  | nil =>
    cases parameters with
    | nil => rfl
    | cons p ps => simp [cost?] at h
  | cons a as ih =>
    cases parameters with
    | nil => simp [cost?] at h
    | cons p ps =>
      simp only [cost?, Option.bind_eq_some_iff, Option.map_eq_some_iff] at h
      obtain ⟨_, _, d, hd, _⟩ := h
      simp [ih hd]

/-- The best choice of a scan is the one it started with or one that it met. -/
theorem cheaper_foldl {α : Type} {cost : α → Option Nat} {choices : List α}
    {best : Option (α × Nat)} {a : α} {c : Nat}
    (h : choices.foldl (cheaper cost) best = some (a, c)) :
    best = some (a, c) ∨ a ∈ choices ∧ cost a = some c := by
  induction choices generalizing best with
  | nil => exact .inl h
  | cons b choices ih =>
    rcases ih h with hg | ⟨hm, hc⟩
    · unfold cheaper at hg
      split at hg
      · exact .inl hg
      · rename_i hcost
        cases hg
        exact .inr ⟨List.mem_cons_self, hcost⟩
      · rename_i hcost
        split at hg
        · cases hg
          exact .inr ⟨List.mem_cons_self, hcost⟩
        · exact .inl hg
    · exact .inr ⟨List.mem_cons_of_mem b hm, hc⟩

theorem bestOverload_some {fs : List ScalarFunction} {arguments : List (Option DataType)}
    {f : ScalarFunction} (h : bestOverload fs arguments = some f) :
    f ∈ fs ∧ ∃ c, cost? arguments f.parameters = some c := by
  rw [bestOverload, cheapest, Option.map_eq_some_iff] at h
  obtain ⟨⟨g, c⟩, hg, rfl⟩ := h
  rcases cheaper_foldl hg with hn | ⟨hm, hc⟩
  · cases hn
  · exact ⟨hm, c, hc⟩

theorem unwrapped?_isSome {ts : List (Option DataType)} (h : ∀ t ∈ ts, t.isSome = true) :
    ∃ bare, unwrapped? ts = some bare ∧ bare.length = ts.length := by
  induction ts with
  | nil => exact ⟨[], rfl, rfl⟩
  | cons t ts ih =>
    obtain ⟨bare, hb, hl⟩ := ih (fun u hu => h u (List.mem_cons_of_mem t hu))
    obtain ⟨s, rfl⟩ := Option.isSome_iff_exists.mp (h t List.mem_cons_self)
    exact ⟨s.nonNullable :: bare, by simp [unwrapped?, hb], by simp [hl]⟩

theorem resolveNullable_ends {self : Registry} {name : Text}
    {arguments bare : List (Option DataType)} (hr : self.Typed)
    (hl : bare.length = arguments.length) :
    Ends (self.Bound name arguments) Failure.IsType
      (resolveNullable name (self.overloads name) arguments bare) := by
  unfold resolveNullable
  split
  · cases hb : bestOverload ((self.overloads name).filter (·.strict)) bare with
    | none => exact ⟨_, rfl⟩
    | some f =>
      obtain ⟨hm, c, hc⟩ := bestOverload_some hb
      obtain ⟨hf, hs⟩ := List.mem_filter.mp hm
      obtain ⟨r, hres⟩ := Option.isSome_iff_exists.mp (hr.overload hf).result
      simp only [hres]
      cases hn : r.asNullable with
      | none => exact ⟨_, rfl⟩
      | some t =>
        refine ⟨rfl, hf, ?_, t, rfl, r, hres, hs, hn⟩
        rw [← hl]
        exact cost?_length hc
  · exact ⟨_, rfl⟩

/-- With all types in place, a call is bound as promised or there is a complaint about types. -/
theorem resolve_ends {self : Registry} {name : Text} {arguments : List (Option DataType)}
    (hr : self.Typed) (ha : ∀ t ∈ arguments, t.isSome = true) :
    Ends (self.Bound name arguments) Failure.IsType (self.resolve name arguments) := by
  unfold Registry.resolve
  dsimp only
  split
  · exact ⟨_, rfl⟩
  · cases hb : bestOverload (self.overloads name) arguments with
    | some f =>
      obtain ⟨hf, c, hc⟩ := bestOverload_some hb
      obtain ⟨r, hres⟩ := Option.isSome_iff_exists.mp (hr.overload hf).result
      exact ⟨rfl, hf, cost?_length hc, r, hres, r, hres, rfl⟩
    | none =>
      obtain ⟨bare, hbare, hl⟩ := unwrapped?_isSome ha
      simp only [hbare]
      exact resolveNullable_ends hr hl

theorem length_of_unwrapped? {ts bare : List (Option DataType)} (h : unwrapped? ts = some bare) :
    bare.length = ts.length := by
  induction ts generalizing bare with
  | nil =>
    cases h
    rfl
  | cons t ts ih =>
    cases t with
    | none => cases h
    | some t =>
      obtain ⟨rest, hrest, rfl⟩ := Option.map_eq_some_iff.mp h
      simp [ih hrest]

/-- How a call is bound: to the best overload for its arguments or, if there is none, to the best
strict one for what the arguments are without null, which then goes through. -/
theorem resolve_cases {self : Registry} {name : Text} {arguments : List (Option DataType)}
    {b : Binding} (h : self.resolve name arguments = .ok b) :
    (∃ f, bestOverload (self.overloads name) arguments = some f ∧ b = ⟨name, f, f.result, false⟩) ∨
    ∃ bare f r t, unwrapped? arguments = some bare ∧ hasNullable arguments = true ∧
      bestOverload ((self.overloads name).filter (·.strict)) bare = some f ∧
      f.result = some r ∧ r.asNullable = some t ∧ b = ⟨name, f, some t, true⟩ := by
  unfold Registry.resolve at h
  dsimp only at h
  split at h
  · cases h
  · split at h
    · rename_i f hf
      cases h
      exact .inl ⟨f, hf, rfl⟩
    · split at h
      · cases h
      · rename_i bare hbare
        unfold resolveNullable at h
        dsimp only at h
        split at h
        · rename_i hnullable
          split at h
          · cases h
          · rename_i f hf
            split at h
            · cases h
            · rename_i r hr
              split at h
              · rename_i t ht
                cases h
                exact .inr ⟨bare, f, r, t, hbare, hnullable, hf, hr, ht, rfl⟩
              · cases h
        · cases h

/-- What is bound has the name of the call and takes as many arguments as there are. -/
theorem resolve_arity {self : Registry} {name : Text} {arguments : List (Option DataType)}
    {b : Binding} (h : self.resolve name arguments = .ok b) :
    b.name = name ∧ arguments.length = b.function.parameters.length := by
  rcases resolve_cases h with ⟨f, hf, rfl⟩ | ⟨bare, f, r, t, hbare, _, hf, _, _, rfl⟩
  · obtain ⟨_, _, hc⟩ := bestOverload_some hf
    exact ⟨rfl, cost?_length hc⟩
  · obtain ⟨_, _, hc⟩ := bestOverload_some hf
    exact ⟨rfl, (length_of_unwrapped? hbare).symm.trans (cost?_length hc)⟩

end Registry

end TypedStream
