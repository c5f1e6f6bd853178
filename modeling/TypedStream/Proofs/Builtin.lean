import TypedStream.Function.Builtin
import TypedStream.Proofs.Conversion

namespace TypedStream

/-- The computation fails only for want of a result, and its result is rounded if the values are. -/
abbrev Computes (vs : List Value) (x : Except Failure Value) : Prop :=
  Ends (fun v => (∀ a ∈ vs, a.Rounded) → v.Rounded) Failure.IsComputation x

/-- What the registry of builtins promises of each of its functions. -/
structure ScalarFunction.Dependable (f : ScalarFunction) : Prop where
  typed : f.Typed
  computes : ∀ vs, Value.ConformAll vs f.parameters → Computes vs (f.body vs)

namespace Builtin

variable {vs : List Value}

theorem computes_fails (e : EvalError) (h : e.kind = .computation) :
    Computes vs (Arithmetic.fails e) := ⟨e, rfl, h⟩

theorem computes_ofInteger (s : Scalar) (i : Option Int64) :
    Computes vs (Arithmetic.ofInteger s i) := by
  cases i with
  | none => exact computes_fails (.overflow s) rfl
  | some i =>
    unfold Arithmetic.ofInteger
    cases s with
    | int =>
      dsimp only
      split
      · exact fun _ => trivial
      · exact computes_fails (.overflow .int) rfl
    | _ => exact fun _ => trivial

theorem computes_ofReal (s : Scalar) (x : Double) : Computes vs (.ok (Arithmetic.ofReal s x)) := by
  cases s with
  | float => exact fun _ => Value.rounded_single x.narrow
  | _ => exact fun _ => trivial

theorem computes_binary (integer : Int64 → Int64 → Option Int64)
    (real : Double → Double → Double) (s : Scalar) (a b : Value) :
    Computes [a, b] (Arithmetic.binary integer real s a b) := by
  unfold Arithmetic.binary
  split
  · exact computes_ofInteger s _
  · exact computes_ofReal s _

theorem computes_divide (s : Scalar) (a b : Value) : Computes [a, b] (Arithmetic.divide s a b) := by
  unfold Arithmetic.divide
  split
  · split
    · exact computes_fails .divisionByZero rfl
    · exact computes_ofInteger s _
  · split
    · exact computes_fails .divisionByZero rfl
    · exact computes_ofReal s _

theorem computes_modulo (s : Scalar) (a b : Value) : Computes [a, b] (Arithmetic.modulo s a b) := by
  unfold Arithmetic.modulo
  split
  · exact computes_fails .divisionByZero rfl
  · exact computes_ofInteger s _

theorem computes_negate (s : Scalar) (a : Value) : Computes [a] (Arithmetic.negate s a) := by
  unfold Arithmetic.negate
  split
  · exact computes_ofInteger s _
  · exact computes_ofReal s _

theorem computes_absolute (s : Scalar) (a : Value) : Computes [a] (Arithmetic.absolute s a) := by
  unfold Arithmetic.absolute
  split
  · split
    · exact fun h => h a List.mem_cons_self
    · exact computes_ofInteger s _
  · exact computes_ofReal s _

theorem compare?_some {a : Value} {s : Scalar} (h : a.conformsToScalar s = true) (b : Value) :
    ∃ o, a.compare? b = some o := by
  cases a with
  | record vs => simp [Value.conformsToScalar, Value.kind] at h
  | malformed m => cases m <;> simp [Value.conformsToScalar, Value.kind] at h
  | _ => cases b <;> exact ⟨_, rfl⟩

theorem computes_comparing (predicate : Ordering → Bool) {a : Value} {s : Scalar}
    (h : a.conformsToScalar s = true) (b : Value) : Computes vs (comparing predicate a b) := by
  obtain ⟨o, ho⟩ := compare?_some h b
  rw [comparing, ho]
  exact fun _ => trivial

theorem computes_length (a : Value) : Computes [a] (length a) := by
  unfold length
  dsimp only
  split
  · exact computes_fails .stringTooLong rfl
  · exact fun _ => trivial

theorem computes_like (a b : Value) : Computes [a, b] (like a b) := by
  unfold like
  split
  · exact fun _ => trivial
  · exact computes_fails (.openEscape b.text) rfl

theorem strict_typed (r : Scalar) (ss : List Scalar) (d : String)
    (body : List Value → Except Failure Value) : (strict r ss d body).Typed := by
  refine ⟨rfl, ?_⟩
  intro t ht
  obtain ⟨s, _, rfl⟩ := List.mem_map.mp ht
  rfl

theorem call_unary {r s : Scalar} {d : String} {g : Value → Except Failure Value} {a : Value}
    (ha : a.conforms (.scalar s) = true) (h : ∀ v, g a = .ok v → v.conforms (.scalar r) = true) :
    (strict r [s] d (unary g)).call [a] = g a :=
  ScalarFunction.call_eq_body (.cons ha .nil) h

theorem call_binary {r s : Scalar} {d : String} {g : Value → Value → Except Failure Value}
    {a b : Value} (ha : a.conforms (.scalar s) = true) (hb : b.conforms (.scalar s) = true)
    (h : ∀ v, g a b = .ok v → v.conforms (.scalar r) = true) :
    (strict r [s, s] d (binary g)).call [a, b] = g a b :=
  ScalarFunction.call_eq_body (.cons ha (.cons hb .nil)) h

theorem dependable_unary {r s : Scalar} {d : String} {g : Value → Except Failure Value}
    (h : ∀ a, a.conformsToScalar s = true → Computes [a] (g a)) :
    (strict r [s] d (unary g)).Dependable := by
  refine ⟨strict_typed r [s] d _, ?_⟩
  intro vs hvs
  cases hvs with
  | cons ha hnil =>
    cases hnil
    exact h _ (by simpa [Value.conformsMissing, Value.conforms] using ha)

theorem dependable_binary {r s t : Scalar} {d : String} {g : Value → Value → Except Failure Value}
    (h : ∀ a b, a.conformsToScalar s = true → b.conformsToScalar t = true →
      Computes [a, b] (g a b)) :
    (strict r [s, t] d (binary g)).Dependable := by
  refine ⟨strict_typed r [s, t] d _, ?_⟩
  intro vs hvs
  cases hvs with
  | cons ha hrest =>
    cases hrest with
    | cons hb hnil =>
      cases hnil
      exact h _ _ (by simpa [Value.conformsMissing, Value.conforms] using ha)
        (by simpa [Value.conformsMissing, Value.conforms] using hb)

theorem dependable_numericBinary {d : String} {types : List Scalar}
    {g : Scalar → Value → Value → Except Failure Value} (h : ∀ s a b, Computes [a, b] (g s a b)) :
    ∀ f ∈ numericBinary d types g, f.Dependable := by
  intro f hf
  obtain ⟨s, _, rfl⟩ := List.mem_map.mp hf
  exact dependable_binary fun a b _ _ => h s a b

theorem dependable_numericUnary {d : String} {g : Scalar → Value → Except Failure Value}
    (h : ∀ s a, Computes [a] (g s a)) : ∀ f ∈ numericUnary d g, f.Dependable := by
  intro f hf
  obtain ⟨s, _, rfl⟩ := List.mem_map.mp hf
  exact dependable_unary fun a _ => h s a

theorem dependable_comparison (types : List Scalar) (predicate : Ordering → Bool) :
    ∀ f ∈ comparison types predicate, f.Dependable := by
  intro f hf
  obtain ⟨s, _, rfl⟩ := List.mem_map.mp hf
  exact dependable_binary fun a b ha _ => computes_comparing predicate ha b

theorem dependable_ifNull (s : Scalar) : (ifNull s).Dependable := by
  refine ⟨⟨rfl, by simp [ifNull]⟩, ?_⟩
  intro vs hvs
  cases hvs with
  | cons ha hrest =>
    cases hrest with
    | cons hb hnil =>
      cases hnil
      intro h
      obtain ⟨hfirst, hsecond⟩ := List.forall_mem_cons.mp h
      split
      · exact List.forall_mem_singleton.mp hsecond
      · exact hfirst

theorem dependable_table : ∀ entry ∈ table, ∀ f ∈ entry.2, f.Dependable := by
  simp only [table, List.forall_mem_cons, List.forall_mem_append, List.not_mem_nil, false_imp_iff,
    implies_true, and_true]
  refine ⟨?_, ⟨?_, ?_⟩, ?_, ?_, ?_, ?_, ?_, ?_, ?_, ?_, ?_, ?_, ?_, ?_, ?_, ?_, ?_, ?_, ?_⟩
  · exact dependable_numericBinary (computes_binary _ _)
  · exact dependable_numericBinary (computes_binary _ _)
  · exact dependable_numericUnary computes_negate
  · exact dependable_numericBinary (computes_binary _ _)
  · exact dependable_numericBinary computes_divide
  · exact dependable_numericBinary computes_modulo
  · exact dependable_comparison _ _
  · exact dependable_comparison _ _
  · exact dependable_comparison _ _
  · exact dependable_comparison _ _
  · exact dependable_comparison _ _
  · exact dependable_comparison _ _
  · exact dependable_unary fun _ _ _ => trivial
  · exact dependable_binary fun _ _ _ _ _ => trivial
  · exact dependable_unary fun a _ => computes_length a
  · exact dependable_unary fun _ _ _ => trivial
  · exact dependable_unary fun _ _ _ => trivial
  · exact dependable_binary fun a b _ _ => computes_like a b
  · exact dependable_numericUnary computes_absolute
  · intro f hf
    obtain ⟨s, _, rfl⟩ := List.mem_map.mp hf
    exact dependable_ifNull s

theorem dependable_builtin : ∀ e ∈ Registry.builtin.entries, e.2.Dependable := by
  intro e he
  obtain ⟨entry, hentry, hm⟩ := List.mem_flatMap.mp he
  obtain ⟨f, hf, rfl⟩ := List.mem_map.mp hm
  exact dependable_table entry hentry f hf

end Builtin

theorem Registry.builtin_typed : Registry.builtin.Typed :=
  fun e he => (Builtin.dependable_builtin e he).typed

theorem Registry.builtin_failsOnly : Registry.builtin.FailsOnly Failure.IsComputation :=
  fun e he vs hvs => ((Builtin.dependable_builtin e he).computes vs hvs).mono fun _ _ => trivial

end TypedStream
