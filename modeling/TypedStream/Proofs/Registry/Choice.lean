import TypedStream.Proofs.Builtin
import TypedStream.Proofs.Registry.Session

namespace TypedStream.Registry

open DataType

/-- A parameter takes an argument whose type promotes to its own. An argument without a type is
always null, and every parameter takes it. -/
def Takes (argument parameter : Option DataType) : Prop :=
  ∀ s, argument = some s → ∃ t, parameter = some t ∧ s.promotesTo t = true

instance : DecidableRel Takes
  | none, _ => .isTrue nofun
  | some _, none => .isFalse fun h => nomatch h _ rfl
  | some s, some t => decidable_of_iff (s.promotesTo t = true) <| by
    simp [Takes]

/-- The number of arguments that do not have the type of their parameter. -/
def mismatches (arguments parameters : List (Option DataType)) : Nat :=
  (arguments.zip parameters).countP fun (a, p) => !equalMissing a p

/-- The overload takes as many arguments as there are, and each of them. -/
def Accepts (arguments : List (Option DataType)) (f : ScalarFunction) : Prop :=
  List.Forall₂ Takes arguments f.parameters

instance (arguments : List (Option DataType)) : DecidablePred (Accepts arguments) :=
  fun f => inferInstanceAs (Decidable (List.Forall₂ Takes arguments f.parameters))

variable {arguments : List (Option DataType)} {fs : List ScalarFunction} {f g : ScalarFunction}

theorem cost?_cons_of_takes {a : Option DataType} {t : DataType} (h : Takes a (some t))
    (as ps : List (Option DataType)) :
    cost? (a :: as) (some t :: ps) =
      (cost? as ps).map ((if equalMissing a (some t) then 0 else 1) + ·) := by
  cases a with
  | none => simp [cost?, equalMissing]
  | some s =>
    obtain ⟨_, ht, hpromotes⟩ := h s rfl
    cases ht
    by_cases he : s.equals t = true
    · simp [cost?, equalMissing, he]
    · simp [cost?, equalMissing, he, hpromotes]

theorem cost?_cons_of_not_takes {a : Option DataType} {t : DataType} (h : ¬ Takes a (some t))
    (as ps : List (Option DataType)) : cost? (a :: as) (some t :: ps) = none := by
  cases a with
  | none => exact absurd (fun s hs => nomatch hs) h
  | some s =>
    have hpromotes : ¬ s.promotesTo t = true := by
      intro hpromotes
      apply h
      intro u hu
      cases hu
      exact ⟨t, rfl, hpromotes⟩
    have he : ¬ s.equals t = true := by
      intro he
      rw [(equals_iff s t).mp he] at hpromotes
      exact hpromotes (promotesTo_refl t)
    simp [cost?, he, hpromotes]

theorem mismatches_cons (a p : Option DataType) (as ps : List (Option DataType)) :
    mismatches (a :: as) (p :: ps) = (if equalMissing a p then 0 else 1) + mismatches as ps := by
  cases he : equalMissing a p <;> simp [mismatches, he, Nat.add_comm]

theorem cost?_eq_some_iff {parameters : List (Option DataType)}
    (hp : ∀ p ∈ parameters, p.isSome = true) {c : Nat} :
    cost? arguments parameters = some c ↔
      List.Forall₂ Takes arguments parameters ∧ c = mismatches arguments parameters := by
  induction arguments generalizing parameters c with
  | nil => cases parameters <;> simp [cost?, mismatches, eq_comm]
  | cons a as ih =>
    cases parameters with
    | nil => simp [cost?]
    | cons p ps =>
      obtain ⟨t, rfl⟩ := Option.isSome_iff_exists.mp (hp p List.mem_cons_self)
      have hrest := @ih ps (fun q hq => hp q (List.mem_cons_of_mem _ hq))
      by_cases htakes : Takes a (some t)
      · rw [cost?_cons_of_takes htakes, mismatches_cons, Option.map_eq_some_iff,
          List.forall₂_cons]
        simp only [hrest, htakes, true_and]
        constructor
        · rintro ⟨d, ⟨hall, rfl⟩, rfl⟩
          exact ⟨hall, rfl⟩
        · rintro ⟨hall, rfl⟩
          exact ⟨_, ⟨hall, rfl⟩, rfl⟩
      · rw [cost?_cons_of_not_takes htakes, List.forall₂_cons]
        simp [htakes]

theorem cost?_overload_iff (hf : f.Typed) {c : Nat} :
    cost? arguments f.parameters = some c ↔
      Accepts arguments f ∧ c = mismatches arguments f.parameters :=
  cost?_eq_some_iff hf.parameters

/-- The overload to be chosen: of those that accept the arguments the one with the fewest
mismatches, and no earlier one has as few. -/
def Chosen (fs : List ScalarFunction) (arguments : List (Option DataType)) (f : ScalarFunction) :
    Prop :=
  ∃ early late, fs = early ++ f :: late ∧ Accepts arguments f ∧
    (∀ g ∈ early, Accepts arguments g →
      mismatches arguments f.parameters < mismatches arguments g.parameters) ∧
    ∀ g ∈ late, Accepts arguments g →
      mismatches arguments f.parameters ≤ mismatches arguments g.parameters

theorem Chosen.accepts (h : Chosen fs arguments f) : f ∈ fs ∧ Accepts arguments f := by
  obtain ⟨early, late, rfl, haccepts, _⟩ := h
  exact ⟨by simp, haccepts⟩

/-- Two choices would have to be before each other. -/
theorem Chosen.unique (hf : Chosen fs arguments f) (hg : Chosen fs arguments g) : f = g := by
  obtain ⟨early, late, rfl, hf, hearly, hlate⟩ := hf
  obtain ⟨early', late', hsame, hg, hearly', hlate'⟩ := hg
  rcases List.append_eq_append_iff.mp hsame with ⟨between, rfl, hrest⟩ | ⟨between, rfl, hrest⟩
  · cases between with
    | nil => exact (List.cons.inj hrest).1
    | cons h between =>
      obtain ⟨rfl, rfl⟩ := List.cons.inj hrest
      have hless := hearly' f (by simp) hf
      have hle := hlate g (by simp) hg
      omega
  · cases between with
    | nil => exact (List.cons.inj hrest).1.symm
    | cons h between =>
      obtain ⟨rfl, rfl⟩ := List.cons.inj hrest
      have hless := hearly g (by simp) hg
      have hle := hlate' f (by simp) hf
      omega

theorem Chosen.le (h : Chosen fs arguments f) (hg : g ∈ fs) (haccepts : Accepts arguments g) :
    mismatches arguments f.parameters ≤ mismatches arguments g.parameters := by
  obtain ⟨early, late, rfl, _, hearly, hlate⟩ := h
  rcases List.mem_append.mp hg with hm | hm
  · exact Nat.le_of_lt (hearly g hm haccepts)
  · rcases List.mem_cons.mp hm with rfl | hm
    · exact Nat.le_refl _
    · exact hlate g hm haccepts

theorem Chosen.concat (h : Chosen fs arguments f) (hg : Accepts arguments g →
    mismatches arguments f.parameters ≤ mismatches arguments g.parameters) :
    Chosen (fs ++ [g]) arguments f := by
  obtain ⟨early, late, rfl, haccepts, hearly, hlate⟩ := h
  refine ⟨early, late ++ [g], by simp, haccepts, hearly, ?_⟩
  intro k hk hacceptsk
  rcases List.mem_append.mp hk with hm | hm
  · exact hlate k hm hacceptsk
  · cases List.mem_singleton.mp hm
    exact hg hacceptsk

/-- What the scan knows of the overloads that it has met. -/
def Scanned (arguments : List (Option DataType)) (met : List ScalarFunction) :
    Option (ScalarFunction × Nat) → Prop
  | none => ∀ g ∈ met, ¬ Accepts arguments g
  | some (f, c) => Chosen met arguments f ∧ c = mismatches arguments f.parameters

theorem Scanned.step {met : List ScalarFunction} {best : Option (ScalarFunction × Nat)}
    (h : Scanned arguments met best) (hg : g.Typed) :
    Scanned arguments (met ++ [g])
      (cheaper (fun f => cost? arguments f.parameters) best g) := by
  dsimp only [cheaper]
  cases hcost : cost? arguments g.parameters with
  | none =>
    have hrefuses : ¬ Accepts arguments g := by
      intro haccepts
      have hsome := (cost?_overload_iff hg).mpr ⟨haccepts, rfl⟩
      rw [hcost] at hsome
      cases hsome
    cases best with
    | none =>
      intro k hk
      rcases List.mem_append.mp hk with hm | hm
      · exact h k hm
      · rwa [List.mem_singleton.mp hm]
    | some best => exact ⟨h.1.concat (absurd · hrefuses), h.2⟩
  | some c =>
    obtain ⟨haccepts, rfl⟩ := (cost?_overload_iff hg).mp hcost
    cases best with
    | none =>
      refine ⟨⟨met, [], rfl, haccepts, ?_, by simp⟩, rfl⟩
      intro k hk hk'
      exact absurd hk' (h k hk)
    | some best =>
      obtain ⟨f, d⟩ := best
      obtain ⟨hchosen, rfl⟩ := h
      dsimp only
      split
      · rename_i hless
        refine ⟨⟨met, [], rfl, haccepts, ?_, by simp⟩, rfl⟩
        intro k hk hk'
        exact Nat.lt_of_lt_of_le hless (hchosen.le hk hk')
      · rename_i hless
        exact ⟨hchosen.concat fun _ => Nat.not_lt.mp hless, rfl⟩

theorem Scanned.foldl {met : List ScalarFunction} {best : Option (ScalarFunction × Nat)}
    (h : Scanned arguments met best) (hfs : ∀ g ∈ fs, g.Typed) :
    Scanned arguments (met ++ fs)
      (fs.foldl (cheaper fun f => cost? arguments f.parameters) best) := by
  induction fs generalizing met best with
  | nil => simpa using h
  | cons g fs ih =>
    have hstep := ih (h.step (hfs g List.mem_cons_self))
      fun k hk => hfs k (List.mem_cons_of_mem g hk)
    rwa [List.append_assoc, List.singleton_append] at hstep

theorem scanned_overloads (hfs : ∀ g ∈ fs, g.Typed) :
    Scanned arguments fs (fs.foldl (cheaper fun f => cost? arguments f.parameters) none) := by
  have hnone : Scanned arguments [] none := by simp [Scanned]
  simpa using hnone.foldl hfs

theorem bestOverload_eq_none_iff (hfs : ∀ g ∈ fs, g.Typed) :
    bestOverload fs arguments = none ↔ ∀ g ∈ fs, ¬ Accepts arguments g := by
  have hscan : Scanned arguments fs _ := scanned_overloads hfs
  unfold bestOverload cheapest
  cases hbest : fs.foldl (cheaper fun f => cost? arguments f.parameters) none with
  | none =>
    rw [hbest] at hscan
    exact iff_of_true rfl hscan
  | some best =>
    rw [hbest] at hscan
    obtain ⟨hmem, haccepts⟩ := hscan.1.accepts
    exact iff_of_false (by simp) fun h => h _ hmem haccepts

theorem bestOverload_eq_some_iff (hfs : ∀ g ∈ fs, g.Typed) :
    bestOverload fs arguments = some f ↔ Chosen fs arguments f := by
  have hscan : Scanned arguments fs _ := scanned_overloads hfs
  unfold bestOverload cheapest
  cases hbest : fs.foldl (cheaper fun f => cost? arguments f.parameters) none with
  | none =>
    rw [hbest] at hscan
    exact iff_of_false (by simp) fun h => hscan f h.accepts.1 h.accepts.2
  | some best =>
    rw [hbest] at hscan
    simp only [Option.map_some, Option.some.injEq]
    constructor
    · rintro rfl
      exact hscan.1
    · exact hscan.1.unique

/-- There is an overload to be chosen as soon as one accepts the arguments. -/
theorem exists_chosen_iff (hfs : ∀ g ∈ fs, g.Typed) :
    (∃ f, Chosen fs arguments f) ↔ ∃ f ∈ fs, Accepts arguments f := by
  constructor
  · rintro ⟨f, hf⟩
    exact ⟨f, hf.accepts⟩
  · rintro ⟨f, hf, haccepts⟩
    cases hbest : bestOverload fs arguments with
    | none => exact absurd haccepts ((bestOverload_eq_none_iff hfs).mp hbest f hf)
    | some g => exact ⟨g, (bestOverload_eq_some_iff hfs).mp hbest⟩

section Bind

variable {self : Registry} {name : Text} {ts : List DataType} {b : Binding}

theorem resolve_of_best (hf : bestOverload (self.overloads name) arguments = some f) :
    self.resolve name arguments = .ok ⟨name, f, f.result, false⟩ := by
  have hne : (self.overloads name).isEmpty = false := by
    rw [List.isEmpty_eq_false_iff]
    exact List.ne_nil_of_mem (bestOverload_some hf).1
  simp [resolve, hne, hf]

theorem resolve_of_none (hne : self.overloads name ≠ [])
    (hnone : bestOverload (self.overloads name) (ts.map some) = none) :
    self.resolve name (ts.map some) =
      resolveNullable name (self.overloads name) (ts.map some) (ts.map nonNullable) := by
  have hne : (self.overloads name).isEmpty = false := List.isEmpty_eq_false_iff.mpr hne
  simp [resolve, hne, hnone, unwrapped?_some]

theorem typed_overloads (h : self.Typed) : ∀ g ∈ self.overloads name, g.Typed :=
  fun _ hg => h.overload hg

theorem typed_strict (h : self.Typed) : ∀ g ∈ (self.overloads name).filter (·.strict), g.Typed :=
  fun _ hg => h.overload (List.mem_filter.mp hg).1

theorem resolve_direct_iff (h : self.Typed) :
    self.resolve name (ts.map some) = .ok b ∧ b.propagatesNulls = false ↔
      ∃ f, Chosen (self.overloads name) (ts.map some) f ∧ b = ⟨name, f, f.result, false⟩ := by
  simp only [← bestOverload_eq_some_iff (typed_overloads h)]
  constructor
  · rintro ⟨hb, hpropagates⟩
    rcases resolve_cases hb with ⟨f, hf, rfl⟩ | ⟨bare, f, r, t, _, _, _, _, _, rfl⟩
    · exact ⟨f, hf, rfl⟩
    · cases hpropagates
  · rintro ⟨f, hf, rfl⟩
    exact ⟨resolve_of_best hf, rfl⟩

theorem resolve_through_iff (h : self.Typed) :
    self.resolve name (ts.map some) = .ok b ∧ b.propagatesNulls = true ↔
      (∀ g ∈ self.overloads name, ¬ Accepts (ts.map some) g) ∧ ts.any isNullable = true ∧
      ∃ f r t, Chosen ((self.overloads name).filter (·.strict)) (ts.map nonNullable) f ∧
        f.result = some r ∧ r.asNullable = some t ∧ b = ⟨name, f, some t, true⟩ := by
  rw [← bestOverload_eq_none_iff (typed_overloads h)]
  simp only [← bestOverload_eq_some_iff (typed_strict h)]
  constructor
  · rintro ⟨hb, hpropagates⟩
    rcases resolve_cases hb with ⟨f, hf, rfl⟩ | ⟨bare, f, r, t, hbare, hnullable, hf, hr, ht, rfl⟩
    · cases hpropagates
    · rw [unwrapped?_some] at hbare
      cases hbare
      rw [hasNullable_some] at hnullable
      refine ⟨?_, hnullable, f, r, t, hf, hr, ht, rfl⟩
      cases hbest : bestOverload (self.overloads name) (ts.map some) with
      | none => rfl
      | some g =>
        rw [resolve_of_best hbest] at hb
        cases congrArg Binding.propagatesNulls (Except.ok.inj hb)
  · rintro ⟨hnone, hnullable, f, r, t, hf, hr, ht, rfl⟩
    have hmem := (List.mem_filter.mp (bestOverload_some hf).1).1
    refine ⟨?_, rfl⟩
    rw [resolve_of_none (List.ne_nil_of_mem hmem) hnone]
    simp [resolveNullable, hasNullable_some, hnullable, hf, hr, ht]

theorem resolve_error (h : self.Typed) {e : Failure}
    (he : self.resolve name (ts.map some) = .error e) :
    self.overloads name = [] ∧ e = .type (.unknownFunction name) ∨
      self.overloads name ≠ [] ∧ e = .type (.noOverload name (ts.map some)) := by
  by_cases hne : self.overloads name = []
  · simp [resolve, hne] at he
    exact .inl ⟨hne, he.symm⟩
  · refine .inr ⟨hne, ?_⟩
    cases hbest : bestOverload (self.overloads name) (ts.map some) with
    | some g =>
      rw [resolve_of_best hbest] at he
      cases he
    | none =>
      rw [resolve_of_none hne hbest] at he
      unfold resolveNullable at he
      dsimp only at he
      split at he
      · split at he
        · cases he
          rfl
        · rename_i f hf
          obtain ⟨r, hr⟩ := Option.isSome_iff_exists.mp
            (typed_strict h f (bestOverload_some hf).1).result
          simp only [hr] at he
          split at he
          · cases he
          · cases he
            rfl
      · cases he
        rfl

end Bind

/-- The functions that a history of calls has registered under a name, in the order of their
registration. -/
def registered (calls : List (Text × ScalarFunction)) (name : Text) : List ScalarFunction :=
  ((accepted calls (empty.registerEach calls).2).filter fun call => call.1 == name).map Prod.snd

theorem overloads_history (calls : List (Text × ScalarFunction)) (name : Text) :
    (empty.registerEach calls).1.overloads name = registered calls name := by
  rw [overloads, registerEach_entries]
  rfl

theorem typed_history {calls : List (Text × ScalarFunction)}
    (h : ∀ call ∈ calls, call.2.Typed) : (empty.registerEach calls).1.Typed := by
  intro entry hentry
  rw [registerEach_entries] at hentry
  obtain ⟨pair, hpair, rfl⟩ := List.mem_map.mp hentry
  exact h _ (List.of_mem_zip (List.mem_filter.mp hpair).1).1

/-- Over every history of a registry in use, a call is bound to the best overload for the types of
its arguments if one accepts them. Otherwise, if an argument is nullable, the best strict overload
for what the arguments are without null is chosen, and bound with null going through if its result
has a nullable version. There is a complaint about types in every other case. All this if nothing
else was asked in the same words since a function was accepted last. -/
theorem bind_chooses {calls : List Resolver.Call}
    (hcalls : ∀ call ∈ Resolver.offered calls, call.2.Typed) (cache : Cache) (name : Text)
    (ts : List DataType)
    (hclear : ((Session.start empty).run cache calls).Clear name (ts.map some)) :
    let bind := ((Session.start empty).run cache calls).bind cache name (ts.map some)
    let fs := registered (Resolver.offered calls) name
    (∀ b, bind = .ok b ∧ b.propagatesNulls = false ↔
      ∃ f, Chosen fs (ts.map some) f ∧ b = ⟨name, f, f.result, false⟩) ∧
    ((∃ f, Chosen fs (ts.map some) f) ↔ ∃ f ∈ fs, Accepts (ts.map some) f) ∧
    (∀ b, bind = .ok b ∧ b.propagatesNulls = true ↔
      (∀ f ∈ fs, ¬ Accepts (ts.map some) f) ∧ ts.any isNullable = true ∧
      ∃ f r t, Chosen (fs.filter (·.strict)) (ts.map nonNullable) f ∧ f.result = some r ∧
        r.isPrimitive = true ∧ r.asNullable = some t ∧ b = ⟨name, f, some t, true⟩) ∧
    ∀ e, bind = .error e → fs = [] ∧ e = .type (.unknownFunction name) ∨
      fs ≠ [] ∧ e = .type (.noOverload name (ts.map some)) := by
  have htyped := typed_history hcalls
  have hremembers := (Session.Remembers.start empty).run cache calls
  dsimp only
  rw [hremembers.bind_eq_resolve hclear, Session.run_registry, ← overloads_history]
  refine ⟨fun b => resolve_direct_iff htyped, exists_chosen_iff (typed_overloads htyped), ?_,
    fun e => resolve_error htyped⟩
  intro b
  refine (resolve_through_iff htyped).trans ?_
  constructor
  · rintro ⟨hnone, hnullable, f, r, t, hf, hr, ht, rfl⟩
    exact ⟨hnone, hnullable, f, r, t, hf, hr, isPrimitive_of_asNullable ht, ht, rfl⟩
  · rintro ⟨hnone, hnullable, f, r, t, hf, hr, _, ht, rfl⟩
    exact ⟨hnone, hnullable, f, r, t, hf, hr, ht, rfl⟩

open Builtin in
/-- The later of two overloads is nearer to the arguments and there is one as near after it. With
null in the place of the first argument, that one is the nearest. -/
theorem bind_chooses_nearest :
    let wide := strict .int [.double, .double] "" (binary fun a _ => .ok a)
    let near := strict .int [.int, .double] "" (binary fun a _ => .ok a)
    let twin := strict .int [.double, .int] "" (binary fun _ b => .ok b)
    let s := (Session.start empty).run .lasting
      [.register (utf8 "f") wide, .register (utf8 "f") near, .register (utf8 "f") twin]
    s.bind .lasting (utf8 "f") [some (.scalar .int), some (.scalar .int)] =
      .ok ⟨utf8 "f", near, some (.scalar .int), false⟩ ∧
    s.bind .lasting (utf8 "f") [some .nullableAny, some (.nullable .int)] =
      .ok ⟨utf8 "f", twin, some (.nullable .int), true⟩ := by
  intro wide near twin s
  let calls : List Resolver.Call :=
    [.register (utf8 "f") wide, .register (utf8 "f") near, .register (utf8 "f") twin]
  have hcalls : ∀ call ∈ Resolver.offered calls, call.2.Typed := by
    simp only [calls, Resolver.offered, List.filterMap_cons, List.forall_mem_cons]
    exact ⟨strict_typed _ _ _ _, strict_typed _ _ _ _, strict_typed _ _ _ _, by simp⟩
  have hclear : ∀ arguments, s.Clear (utf8 "f") arguments := by
    intro arguments other hother
    rcases Session.mem_asked hother with hnone | hasked
    · cases hnone
    · simp at hasked
  have hregistered : registered (Resolver.offered calls) (utf8 "f") = [wide, near, twin] := by
    with_unfolding_all rfl
  constructor
  · have hdirect := (bind_chooses hcalls .lasting (utf8 "f") [.scalar .int, .scalar .int]
      (hclear _)).1
    apply ((hdirect _).mpr ⟨near, ?_, rfl⟩).1
    rw [hregistered]
    exact ⟨[wide], [twin], rfl, by decide, by decide +kernel, by decide +kernel⟩
  · have hthrough := (bind_chooses hcalls .lasting (utf8 "f") [.nullableAny, .nullable .int]
      (hclear _)).2.2.1
    apply ((hthrough _).mpr
      ⟨?_, rfl, twin, .scalar .int, .nullable .int, ?_, rfl, rfl, rfl, rfl⟩).1
    · rw [hregistered]
      decide
    · rw [hregistered]
      exact ⟨[wide, near], [], rfl, by decide, by decide +kernel, by decide +kernel⟩

/-- After a call with a record of two integers, a call with a record of one, which is written the
same, is bound to an overload that does not accept it. -/
theorem bind_answers_unacceptable :
    let s := (Session.start empty).run .lasting
      [.register (utf8 "f") (accepting twoIntegers .int), .bind (utf8 "f") [some twoIntegers]]
    s.registry.overloads (utf8 "f") = [accepting twoIntegers .int] ∧
      ¬ Accepts [some oneInteger] (accepting twoIntegers .int) ∧
      s.bind .lasting (utf8 "f") [some oneInteger] =
        .ok ⟨utf8 "f", accepting twoIntegers .int, some (.scalar .int), false⟩ := by
  intro s
  refine ⟨?_, by decide +kernel, ?_⟩
  · with_unfolding_all rfl
  · with_unfolding_all rfl

end TypedStream.Registry
