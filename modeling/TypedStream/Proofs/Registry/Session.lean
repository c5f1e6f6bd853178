import TypedStream.Proofs.Registry
import TypedStream.Proofs.Text

namespace TypedStream

namespace Resolver

/-- What is asked of a registry in use. -/
inductive Call where
  | register (name : Text) (f : ScalarFunction)
  | bind (name : Text) (arguments : List (Option DataType))

/-- The functions that are offered to the registry, in this order. -/
def offered (calls : List Call) : List (Text × ScalarFunction) :=
  calls.filterMap fun
    | .register name f => some (name, f)
    | .bind _ _ => none

theorem colon_notMem_ofNat (n : Nat) : 58 ∉ Text.ofNat n := by
  intro h
  have hbounds := Text.digit_of_mem_ofNat h
  simp at hbounds

theorem key_inj {m n : Nat} {s t : Text}
    (h : Text.ofNat m ++ utf8 ":" ++ s = Text.ofNat n ++ utf8 ":" ++ t) : m = n ∧ s = t := by
  have hcolon : utf8 ":" = [58] := by decide
  have hnumber : ∀ k : Nat, (Text.ofNat k ++ utf8 ":").idxOf 58 = (Text.ofNat k).length := by
    intro k
    rw [hcolon, List.idxOf_append_of_notMem (colon_notMem_ofNat k)]
    rfl
  have hlength : (Text.ofNat m).length = (Text.ofNat n).length := by
    have hmem : ∀ k : Nat, 58 ∈ Text.ofNat k ++ utf8 ":" := by simp [hcolon]
    rw [← hnumber, ← hnumber, ← List.idxOf_append_of_mem (hmem m), h,
      List.idxOf_append_of_mem (hmem n)]
  obtain ⟨hnumbers, hrest⟩ := List.append_inj h (by simp [hlength])
  exact ⟨Text.ofNat_injective (List.append_cancel_right hnumbers), hrest⟩

end Resolver

open Resolver (Call)

/-- A registry in use, and what it was asked to bind since it last accepted a function. -/
structure Session where
  resolver : Resolver
  asked : List (Text × List (Option DataType))

namespace Session

variable {cache : Cache} {s : Session} {name : Text} {arguments : List (Option DataType)}

def start (registry : Registry) : Session := ⟨.ofRegistry registry, []⟩

def registry (s : Session) : Registry := s.resolver.registry

def bind (cache : Cache) (s : Session) (name : Text) (arguments : List (Option DataType)) :
    Except Failure Binding :=
  (s.resolver.bind cache name arguments).1

/-- A refused function leaves everything as it was. -/
def step (cache : Cache) (s : Session) : Call → Session
  | .register name f =>
    match s.resolver.register name f with
    | .ok next => ⟨next, []⟩
    | .error _ => s
  | .bind name arguments =>
    ⟨(s.resolver.bind cache name arguments).2, (name, arguments) :: s.asked⟩

def run (cache : Cache) (s : Session) (calls : List Call) : Session := calls.foldl (step cache) s

/-- Nothing else that was asked about is written like this. -/
def Clear (s : Session) (name : Text) (arguments : List (Option DataType)) : Prop :=
  ∀ other ∈ s.asked, other.1 ++ DataType.listText other.2 = name ++ DataType.listText arguments →
    other = (name, arguments)

/-- What is in the cache was found before the last function was accepted, or else is the answer to
something that was asked since. -/
def Remembers (s : Session) : Prop :=
  ∀ key b, (key, b) ∈ s.resolver.kept → ∃ n name arguments,
    key = Text.ofNat n ++ utf8 ":" ++ (name ++ DataType.listText arguments) ∧
      (n < s.registry.entries.length ∨ n = s.registry.entries.length ∧
        (name, arguments) ∈ s.asked ∧ s.registry.resolve name arguments = .ok b)

theorem bind_registry (cache : Cache) (self : Resolver) (name : Text)
    (arguments : List (Option DataType)) :
    (self.bind cache name arguments).2.registry = self.registry := by
  unfold Resolver.bind
  dsimp only
  split
  · rfl
  · split <;> rfl

theorem step_register (cache : Cache) (s : Session) (name : Text) (f : ScalarFunction) :
    (∃ e, s.registry.register name f = .error e ∧ s.step cache (.register name f) = s) ∨
      ∃ next, s.registry.register name f = .ok next ∧
        s.step cache (.register name f) = ⟨{ s.resolver with registry := next }, []⟩ := by
  cases h : s.registry.register name f with
  | error e =>
    refine .inl ⟨e, rfl, ?_⟩
    simp only [registry] at h
    simp only [step, Resolver.register, h, Except.map]
  | ok next =>
    refine .inr ⟨next, rfl, ?_⟩
    simp only [registry] at h
    simp only [step, Resolver.register, h, Except.map]

theorem run_registry (cache : Cache) (s : Session) (calls : List Call) :
    (s.run cache calls).registry = (s.registry.registerEach (Resolver.offered calls)).1 := by
  induction calls generalizing s with
  | nil => rfl
  | cons call calls ih =>
    refine (ih (s.step cache call)).trans ?_
    cases call with
    | register name f =>
      change _ = (s.registry.registerEach ((name, f) :: Resolver.offered calls)).1
      rcases step_register cache s name f with ⟨e, he, hstep⟩ | ⟨next, hnext, hstep⟩
      · rw [hstep, Registry.registerEach_refused he]
      · rw [hstep, Registry.registerEach_entered hnext]
        rfl
    | bind name arguments =>
      change ((s.resolver.bind cache name arguments).2.registry.registerEach _).1 = _
      rw [bind_registry]
      rfl

theorem Remembers.start (registry : Registry) : (Session.start registry).Remembers :=
  fun _ _ h => nomatch h

theorem Remembers.register (h : s.Remembers) (cache : Cache) (name : Text) (f : ScalarFunction) :
    (s.step cache (.register name f)).Remembers := by
  rcases step_register cache s name f with ⟨_, _, hstep⟩ | ⟨next, hnext, hstep⟩
  · rwa [hstep]
  · rw [hstep]
    intro key b hkey
    obtain ⟨n, m, us, rfl, hn⟩ := h key b hkey
    refine ⟨n, m, us, rfl, .inl ?_⟩
    -- One function more puts all that was found so far behind.
    obtain ⟨_, rfl⟩ := Registry.register_ok hnext
    change n < (s.registry.entries ++ [(name, f)]).length
    rw [List.length_append, List.length_singleton]
    rcases hn with hn | ⟨rfl, _⟩ <;> omega

theorem Remembers.bind (h : s.Remembers) (cache : Cache) (name : Text)
    (arguments : List (Option DataType)) : (s.step cache (.bind name arguments)).Remembers := by
  have hold : ∀ key b, (key, b) ∈ s.resolver.kept → ∃ n m us,
      key = Text.ofNat n ++ utf8 ":" ++ (m ++ DataType.listText us) ∧
        (n < s.registry.entries.length ∨ n = s.registry.entries.length ∧
          (m, us) ∈ (name, arguments) :: s.asked ∧ s.registry.resolve m us = .ok b) := by
    intro key b hkey
    obtain ⟨n, m, us, rfl, hn⟩ := h key b hkey
    exact ⟨n, m, us, rfl, hn.imp_right fun hn => ⟨hn.1, List.mem_cons_of_mem _ hn.2.1, hn.2.2⟩⟩
  intro key b hkey
  simp only [registry, step, bind_registry]
  change (key, b) ∈ (s.resolver.bind cache name arguments).2.kept at hkey
  unfold Resolver.bind at hkey
  dsimp only at hkey
  split at hkey
  · exact hold key b hkey
  · split at hkey
    · rename_i hresolve
      rcases List.mem_cons.mp hkey with hnew | hkey
      · cases hnew
        exact ⟨_, name, arguments, rfl, .inr ⟨rfl, List.mem_cons_self, hresolve⟩⟩
      · exact hold key b hkey
    · exact hold key b hkey

theorem Remembers.run (h : s.Remembers) (cache : Cache) (calls : List Call) :
    (s.run cache calls).Remembers := by
  induction calls generalizing s with
  | nil => exact h
  | cons call calls ih =>
    cases call with
    | register name f => exact ih (h.register cache name f)
    | bind name arguments => exact ih (h.bind cache name arguments)

/-- The cache answers as the registry does, if nothing else was asked in the same words. -/
theorem Remembers.bind_eq_resolve (h : s.Remembers) (hclear : s.Clear name arguments) :
    s.bind cache name arguments = s.registry.resolve name arguments := by
  unfold Session.bind Resolver.bind
  dsimp only
  split
  · rename_i b hget
    obtain ⟨n, m, us, hkey, hn⟩ := h _ b (cache.get_mem hget)
    obtain ⟨hlength, hwords⟩ := Resolver.key_inj hkey
    rcases hn with hn | ⟨_, hasked, hresolve⟩
    · exact absurd hlength (Nat.ne_of_gt hn)
    · cases hclear (m, us) hasked hwords.symm
      exact hresolve.symm
  · split
    · rename_i hresolve
      exact hresolve.symm
    · rename_i hresolve
      exact hresolve.symm

theorem mem_asked {calls : List Call} {other : Text × List (Option DataType)}
    (h : other ∈ (s.run cache calls).asked) :
    other ∈ s.asked ∨ Call.bind other.1 other.2 ∈ calls := by
  induction calls generalizing s with
  | nil => exact .inl h
  | cons call calls ih =>
    rcases ih h with hstep | hlater
    · cases call with
      | register name f =>
        rcases step_register cache s name f with ⟨_, _, he⟩ | ⟨_, _, he⟩
        · rw [he] at hstep
          exact .inl hstep
        · rw [he] at hstep
          cases hstep
      | bind name arguments =>
        rcases List.mem_cons.mp hstep with rfl | hold
        · exact .inr List.mem_cons_self
        · exact .inl hold
    · exact .inr (List.mem_cons_of_mem call hlater)

end Session

namespace Registry

/-- Over every history of the empty registry or the builtin one, which is itself the outcome of a
history: no two overloads of a name have equal parameters; the overloads are those that were
accepted, in their order; the names ascend and are those that have an overload; a call that is
refused might as well not have been made. Whatever is registered next and bound in between, a call
with just the types of an overload's parameters is bound to it, without null going through it, if
nothing else was asked in the same words since a function was accepted last. -/
theorem registerEach_consistent {start : Registry} (hstart : start = .empty ∨ start = .builtin)
    (calls : List (Text × ScalarFunction)) :
    Registry.empty.registerEach start.entries = (start, start.entries.map fun _ => .ok ()) ∧
    ∃ last replies, start.registerEach calls = (last, replies) ∧ replies.length = calls.length ∧
      (∀ name, (last.overloads name).Pairwise fun f g =>
        DataType.equalAll f.parameters g.parameters = false) ∧
      (∀ name, last.overloads name = start.overloads name ++
        ((accepted calls replies).filter fun call => call.1 == name).map Prod.snd) ∧
      last.names.Pairwise (· < ·) ∧
      (∀ name, name ∈ last.names ↔ last.overloads name ≠ []) ∧
      (∀ early name f late e, calls = early ++ (name, f) :: late →
        (start.registerEach early).1.register name f = .error e →
          (start.registerEach (early ++ late)).1 = last) ∧
      (∀ name f (ts : List DataType), f ∈ last.overloads name →
        DataType.equalAll f.parameters (ts.map some) = true →
          ∀ cache history more, Resolver.offered history = calls ++ more →
            ((Session.start start).run cache history).Clear name (ts.map some) →
              ((Session.start start).run cache history).bind cache name (ts.map some) =
                .ok ⟨name, f, f.result, false⟩) := by
  have hdistinct := distinct_start hstart
  have hlast : (start.registerEach calls).1.Distinct := hdistinct.registerEach calls
  have hentries := start.registerEach_entries calls
  refine ⟨registerEach_distinct (by simpa [empty] using hdistinct), _, _, rfl,
    start.length_replies calls, ?_, ?_, names_ascending _, fun name => mem_names_iff, ?_, ?_⟩
  · intro name
    refine (hlast name).imp ?_
    intro f g hfg
    rw [Bool.eq_false_iff, ne_eq, DataType.equalAll_iff]
    exact hfg
  · intro name
    simp only [overloads, hentries, List.filter_append, List.map_append]
  · rintro early name f late e rfl hrefused
    exact (registerEach_without_refused hrefused).symm
  · intro name f ts hf hts cache history more hoffered hclear
    have hremembers := (Session.Remembers.start start).run cache history
    rw [hremembers.bind_eq_resolve hclear, Session.run_registry, hoffered]
    change ((start.registerEach (calls ++ more)).1).resolve _ _ = _
    rw [registerEach_append]
    refine resolve_exact (hlast.registerEach more) ?_ ((DataType.equalAll_iff _ _).mp hts)
    rw [overloads, registerEach_entries, List.filter_append, List.map_append]
    exact List.mem_append_left _ hf

open Builtin in
/-- Neither a refused overload of a builtin function nor whatever else is bound takes its place. -/
theorem registerEach_consistent_abs :
    ((Session.start builtin).run .lasting [.bind (utf8 "abs") [some (.scalar .int)],
      .register (utf8 "abs") (strict .string [.string] "" (unary .ok)),
      .bind (utf8 "abs") [some (.scalar .string)],
      .register (utf8 "abs") (strict .string [.int] "" (unary .ok))]).bind .lasting (utf8 "abs")
        [some (.scalar .int)] =
      .ok ⟨utf8 "abs", strict .int [.int] "Returns the absolute value of the argument."
        (unary (Arithmetic.absolute .int)), some (.scalar .int), false⟩ := by
  obtain ⟨_, last, replies, _, _, _, hoverloads, _, _, _, hbind⟩ :=
    registerEach_consistent (.inr rfl)
      [(utf8 "abs", strict .string [.string] "" (unary .ok)),
        (utf8 "abs", strict .string [.int] "" (unary .ok))]
  have habs : ("abs", numericUnary "Returns the absolute value of the argument."
      Arithmetic.absolute) ∈ Builtin.table := by simp [Builtin.table]
  refine hbind (utf8 "abs") _ [.scalar .int] ?_ ((DataType.equalAll_iff _ _).mpr rfl) _ _ [] rfl ?_
  · rw [hoverloads, overloads_builtin habs]
    exact List.mem_append_left _ (List.mem_map.mpr ⟨.int, by decide, rfl⟩)
  · intro other hother hwords
    rcases Session.mem_asked hother with hnone | hasked
    · cases hnone
    · obtain ⟨name, arguments⟩ := other
      simp only [List.mem_cons, List.not_mem_nil, Resolver.Call.bind.injEq, reduceCtorEq,
        or_false, false_or] at hasked
      rcases hasked with ⟨rfl, rfl⟩ | ⟨rfl, rfl⟩
      · rfl
      · exact absurd hwords (by decide +kernel)

def twoIntegers : DataType := .record [(utf8 "a", .scalar .int), (utf8 "b", .scalar .int)]

/-- A record of one integer, written like one of two. -/
def oneInteger : DataType := .record [(utf8 "a INT, b", .scalar .int)]

/-- A function of one argument with a result of some type. -/
def accepting (t : DataType) (result : Scalar) : ScalarFunction where
  result := some (.scalar result)
  parameters := [some t]
  strict := true
  description := []
  body := fun _ => .error (.defect .missingFunction)

/-- After a call with the one record, a call with the other is bound to the overload for the one,
although there is an overload with just its own type. -/
theorem bind_answers_other_type :
    let s := (Session.start .empty).run .lasting
      [.register (utf8 "f") (accepting twoIntegers .int),
        .register (utf8 "f") (accepting oneInteger .string), .bind (utf8 "f") [some twoIntegers]]
    accepting oneInteger .string ∈ s.registry.overloads (utf8 "f") ∧
      DataType.equalAll (accepting oneInteger .string).parameters [some oneInteger] = true ∧
      s.bind .lasting (utf8 "f") [some oneInteger] =
        .ok ⟨utf8 "f", accepting twoIntegers .int, some (.scalar .int), false⟩ := by
  intro s
  refine ⟨?_, (DataType.equalAll_iff _ _).mpr rfl, ?_⟩
  · with_unfolding_all exact List.mem_cons_of_mem _ List.mem_cons_self
  · with_unfolding_all rfl

end Registry

end TypedStream
