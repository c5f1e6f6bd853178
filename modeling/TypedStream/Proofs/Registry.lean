import TypedStream.Proofs.Builtin.Plain

namespace TypedStream.Registry

theorem mem_insertName {name n : Text} {ns : List Text} :
    n ∈ insertName name ns ↔ n = name ∨ n ∈ ns := by
  induction ns with
  | nil => simp [insertName]
  | cons m ns ih =>
    rw [insertName]
    rcases Text.compare_cases name m with ⟨hc, _⟩ | ⟨hc, rfl⟩ | ⟨hc, _⟩
    · simp [hc]
    · simp [hc]
    · simp only [hc, List.mem_cons, ih]
      tauto

theorem insertName_ascending {name : Text} {ns : List Text} (h : ns.Pairwise (· < ·)) :
    (insertName name ns).Pairwise (· < ·) := by
  induction ns with
  | nil => simp [insertName]
  | cons m ns ih =>
    obtain ⟨hm, hns⟩ := List.pairwise_cons.mp h
    rw [insertName]
    rcases Text.compare_cases name m with ⟨hc, hlt⟩ | ⟨hc, rfl⟩ | ⟨hc, hgt⟩
    · simp only [hc]
      refine List.pairwise_cons.mpr ⟨?_, h⟩
      intro n hn
      rcases List.mem_cons.mp hn with rfl | hn
      · exact hlt
      · exact List.lt_trans hlt (hm n hn)
    · simpa only [hc] using h
    · simp only [hc]
      refine List.pairwise_cons.mpr ⟨?_, ih hns⟩
      intro n hn
      rcases mem_insertName.mp hn with rfl | hn
      · exact hgt
      · exact hm n hn

theorem names_ascending (self : Registry) : self.names.Pairwise (· < ·) := by
  have hfold : ∀ (entries : List (Text × ScalarFunction)) (ns : List Text),
      ns.Pairwise (· < ·) →
        (entries.foldl (fun ns e => insertName e.1 ns) ns).Pairwise (· < ·) := by
    intro entries
    induction entries with
    | nil => exact fun ns h => h
    | cons e entries ih => exact fun ns h => ih _ (insertName_ascending h)
  exact hfold self.entries [] .nil

theorem mem_names_iff {self : Registry} {name : Text} :
    name ∈ self.names ↔ self.overloads name ≠ [] := by
  have hfold : ∀ (entries : List (Text × ScalarFunction)) (ns : List Text),
      name ∈ entries.foldl (fun ns e => insertName e.1 ns) ns ↔
        (∃ e ∈ entries, e.1 = name) ∨ name ∈ ns := by
    intro entries
    induction entries with
    | nil => simp
    | cons e entries ih =>
      intro ns
      rw [List.foldl_cons, ih, mem_insertName, eq_comm]
      simp only [List.mem_cons, exists_eq_or_imp]
      rw [or_left_comm, or_assoc]
  have hoverloads : self.overloads name ≠ [] ↔ ∃ e ∈ self.entries, e.1 = name := by
    simp [overloads]
  rw [hoverloads, names, hfold]
  simp

/-- The entry with the same name and parameters, if there is one, decides what `register` does. -/
theorem register_cases (self : Registry) (name : Text) (f : ScalarFunction) :
    (∃ g ∈ self.overloads name, g.parameters = f.parameters) ∧
      self.register name f = .error (.registered name f.parameters) ∨
    (∀ g ∈ self.overloads name, g.parameters ≠ f.parameters) ∧
      self.register name f = .ok ⟨self.entries ++ [(name, f)]⟩ := by
  by_cases h : ∃ g ∈ self.overloads name, g.parameters = f.parameters
  · refine .inl ⟨h, ?_⟩
    rw [register, if_pos]
    simpa [DataType.equalAll_iff] using h
  · refine .inr ⟨by simpa using h, ?_⟩
    rw [register, if_neg]
    simpa [DataType.equalAll_iff] using h

theorem overloads_append (early late : List (Text × ScalarFunction)) (name : Text) :
    overloads ⟨early ++ late⟩ name = overloads ⟨early⟩ name ++ overloads ⟨late⟩ name := by
  simp [overloads]

theorem register_ok {self next : Registry} {name : Text} {f : ScalarFunction}
    (h : self.register name f = .ok next) :
    (∀ g ∈ self.overloads name, g.parameters ≠ f.parameters) ∧
      next = ⟨self.entries ++ [(name, f)]⟩ := by
  rcases self.register_cases name f with ⟨_, he⟩ | ⟨hnew, hok⟩
  · rw [he] at h
    cases h
  · rw [hok] at h
    cases h
    exact ⟨hnew, rfl⟩

theorem overloads_of_register {self next : Registry} {name n : Text} {f : ScalarFunction}
    (hne : n ≠ name) (h : self.register n f = .ok next) :
    next.overloads name = self.overloads name := by
  obtain ⟨_, rfl⟩ := register_ok h
  rw [overloads_append]
  simp [overloads, hne]

/-- Registers one function after another, with the reply to every call. A call that is refused
leaves the registry as it was. -/
def registerEach (self : Registry) :
    List (Text × ScalarFunction) → Registry × List (Except Failure Unit)
  | [] => (self, [])
  | (name, f) :: calls =>
    match self.register name f with
    | .ok next =>
      let (last, replies) := next.registerEach calls
      (last, .ok () :: replies)
    | .error e =>
      let (last, replies) := self.registerEach calls
      (last, .error e :: replies)

def accepted (calls : List (Text × ScalarFunction)) (replies : List (Except Failure Unit)) :
    List (Text × ScalarFunction) :=
  ((calls.zip replies).filter fun p => p.2.isOk).map Prod.fst

theorem registerEach_refused {self : Registry} {name : Text} {f : ScalarFunction} {e : Failure}
    (h : self.register name f = .error e) (calls : List (Text × ScalarFunction)) :
    self.registerEach ((name, f) :: calls) =
      ((self.registerEach calls).1, .error e :: (self.registerEach calls).2) := by
  simp only [registerEach, h]

theorem registerEach_entered {self next : Registry} {name : Text} {f : ScalarFunction}
    (h : self.register name f = .ok next) (calls : List (Text × ScalarFunction)) :
    self.registerEach ((name, f) :: calls) =
      ((next.registerEach calls).1, .ok () :: (next.registerEach calls).2) := by
  simp only [registerEach, h]

theorem registerEach_entries (self : Registry) (calls : List (Text × ScalarFunction)) :
    (self.registerEach calls).1.entries =
      self.entries ++ accepted calls (self.registerEach calls).2 := by
  induction calls generalizing self with
  | nil => simp [registerEach, accepted]
  | cons call calls ih =>
    obtain ⟨name, f⟩ := call
    rcases self.register_cases name f with ⟨_, h⟩ | ⟨_, h⟩
    · rw [registerEach_refused h]
      exact ih self
    · rw [registerEach_entered h]
      simp only [ih, accepted, List.zip_cons_cons, List.append_assoc, List.singleton_append]
      rfl

theorem length_replies (self : Registry) (calls : List (Text × ScalarFunction)) :
    (self.registerEach calls).2.length = calls.length := by
  induction calls generalizing self with
  | nil => rfl
  | cons call calls ih =>
    obtain ⟨name, f⟩ := call
    rcases self.register_cases name f with ⟨_, h⟩ | ⟨_, h⟩
    · simp [registerEach_refused h, ih]
    · simp [registerEach_entered h, ih]

theorem registerEach_append (self : Registry) (early late : List (Text × ScalarFunction)) :
    (self.registerEach (early ++ late)).1 =
      ((self.registerEach early).1.registerEach late).1 := by
  induction early generalizing self with
  | nil => rfl
  | cons call early ih =>
    obtain ⟨name, f⟩ := call
    rw [List.cons_append]
    rcases self.register_cases name f with ⟨_, h⟩ | ⟨_, h⟩
    · rw [registerEach_refused h, registerEach_refused h]
      exact ih self
    · rw [registerEach_entered h, registerEach_entered h]
      exact ih _

/-- A call that is refused might as well not have been made. -/
theorem registerEach_without_refused {self : Registry} {early late : List (Text × ScalarFunction)}
    {name : Text} {f : ScalarFunction} {e : Failure}
    (h : (self.registerEach early).1.register name f = .error e) :
    (self.registerEach (early ++ (name, f) :: late)).1 = (self.registerEach (early ++ late)).1 := by
  rw [registerEach_append, registerEach_append, registerEach_refused h]

/-- Overloads of one name differ in their parameters. -/
def Distinct (self : Registry) : Prop :=
  ∀ name, (self.overloads name).Pairwise fun f g => f.parameters ≠ g.parameters

theorem Distinct.register {self next : Registry} {name : Text} {f : ScalarFunction}
    (h : self.Distinct) (hr : self.register name f = .ok next) : next.Distinct := by
  intro other
  by_cases ho : name = other
  · subst ho
    obtain ⟨hnew, rfl⟩ := register_ok hr
    rw [overloads_append]
    refine List.pairwise_append.mpr ⟨h name, by simp [overloads], ?_⟩
    intro g hg k hk
    have hkf : k = f := by simpa [overloads] using hk
    rw [hkf]
    exact hnew g hg
  · rw [overloads_of_register ho hr]
    exact h other

theorem Distinct.registerEach {self : Registry} (h : self.Distinct)
    (calls : List (Text × ScalarFunction)) : (self.registerEach calls).1.Distinct := by
  induction calls generalizing self with
  | nil => exact h
  | cons call calls ih =>
    obtain ⟨name, f⟩ := call
    rcases self.register_cases name f with ⟨_, hr⟩ | ⟨_, hr⟩
    · rw [registerEach_refused hr]
      exact ih h
    · rw [registerEach_entered hr]
      exact ih (h.register hr)

/-- Nothing is promoted exactly if the arguments have the types of the parameters. -/
theorem cost?_eq_zero_iff {ts : List DataType} {parameters : List (Option DataType)} :
    cost? (ts.map some) parameters = some 0 ↔ parameters = ts.map some := by
  induction ts generalizing parameters with
  | nil => cases parameters <;> simp [cost?]
  | cons t ts ih =>
    cases parameters with
    | nil => simp [cost?]
    | cons p ps =>
      cases p with
      | none => simp [cost?]
      | some u =>
        by_cases he : t = u
        · subst he
          simp [cost?, (DataType.equals_iff t t).mpr rfl, ih]
        · have hne : ¬ t.equals u = true := fun h => he ((DataType.equals_iff t u).mp h)
          by_cases hp : t.promotesTo u = true
          · simp [cost?, hne, hp, Ne.symm he]
          · simp [cost?, hne, hp, Ne.symm he]

theorem cheaper_foldl_zero {α : Type} (cost : α → Option Nat) (a : α) (choices : List α) :
    choices.foldl (cheaper cost) (some (a, 0)) = some (a, 0) := by
  induction choices with
  | nil => rfl
  | cons b choices ih =>
    have hkept : cheaper cost (some (a, 0)) b = some (a, 0) := by
      unfold cheaper
      cases cost b <;> simp
    rw [List.foldl_cons, hkept, ih]

theorem cheapest_zero {α : Type} {cost : α → Option Nat} {early late : List α} {a : α}
    (ha : cost a = some 0) (hearly : ∀ b ∈ early, cost b ≠ some 0) :
    cheapest cost (early ++ a :: late) = some a := by
  have hreached : cheaper cost (early.foldl (cheaper cost) none) a = some (a, 0) := by
    cases hbest : early.foldl (cheaper cost) none with
    | none => simp [cheaper, ha]
    | some best =>
      obtain ⟨b, c⟩ := best
      rcases cheaper_foldl hbest with hn | ⟨hb, hc⟩
      · cases hn
      · have hpos : 0 < c := by
          rcases Nat.eq_zero_or_pos c with rfl | hpos
          · exact absurd hc (hearly b hb)
          · exact hpos
        simp [cheaper, ha, hpos]
  rw [cheapest, List.foldl_append, List.foldl_cons, hreached, cheaper_foldl_zero]
  rfl

/-- An overload with just the types of the arguments is the best one, wherever it stands. -/
theorem bestOverload_exact {fs : List ScalarFunction} {f : ScalarFunction} {ts : List DataType}
    (hdistinct : fs.Pairwise fun f g => f.parameters ≠ g.parameters) (hf : f ∈ fs)
    (hts : f.parameters = ts.map some) : bestOverload fs (ts.map some) = some f := by
  obtain ⟨early, late, rfl⟩ := List.append_of_mem hf
  refine cheapest_zero (cost?_eq_zero_iff.mpr hts) ?_
  intro g hg hc
  exact (List.pairwise_append.mp hdistinct).2.2 g hg f List.mem_cons_self
    ((cost?_eq_zero_iff.mp hc).trans hts.symm)

/-- Functions that differ from what is there, and from each other, are all accepted. -/
theorem registerEach_distinct {self : Registry} {calls : List (Text × ScalarFunction)}
    (h : Distinct ⟨self.entries ++ calls⟩) :
    self.registerEach calls = (⟨self.entries ++ calls⟩, calls.map fun _ => .ok ()) := by
  induction calls generalizing self with
  | nil => simp [registerEach]
  | cons call calls ih =>
    obtain ⟨name, f⟩ := call
    have hnew : ∀ g ∈ self.overloads name, g.parameters ≠ f.parameters := by
      intro g hg
      have hpairwise := h name
      rw [overloads_append] at hpairwise
      exact (List.pairwise_append.mp hpairwise).2.2 g hg f (by simp [overloads])
    rcases self.register_cases name f with ⟨⟨g, hg, he⟩, _⟩ | ⟨_, hok⟩
    · exact absurd he (hnew g hg)
    · rw [registerEach_entered hok, ih (by simpa using h)]
      simp

theorem distinct_table : ∀ entry ∈ Builtin.table,
    entry.2.Pairwise fun f g => DataType.equalAll f.parameters g.parameters = false := by
  decide +kernel

/-- The builtin functions are told apart in whatever order their names come. -/
theorem distinct_builtin {order : List (String × List ScalarFunction)}
    (h : order.Perm Builtin.table) : Distinct ⟨ungroup order⟩ := by
  intro name
  by_cases hname : ∃ entry ∈ order, utf8 entry.1 = name
  · obtain ⟨⟨n, fs⟩, hmem, rfl⟩ := hname
    have hnodup : (order.map fun e => utf8 e.1).Nodup := (h.map _).nodup_iff.mpr names_nodup
    rw [overloads_ungroup hnodup hmem]
    refine (distinct_table (n, fs) (h.mem_iff.mp hmem)).imp ?_
    intro f g hfg he
    simp [(DataType.equalAll_iff _ _).mpr he] at hfg
  · rw [overloads_ungroup_eq_nil (by simpa using hname)]
    exact .nil

theorem distinct_start {start : Registry} (h : start = .empty ∨ start = .builtin) :
    start.Distinct := by
  rcases h with rfl | rfl
  · exact fun name => .nil
  · exact distinct_builtin (.refl _)

/-- An exact match is bound, and null plays no part. -/
theorem resolve_exact {self : Registry} (h : self.Distinct) {name : Text} {f : ScalarFunction}
    (hf : f ∈ self.overloads name) {ts : List DataType} (hts : f.parameters = ts.map some) :
    self.resolve name (ts.map some) = .ok ⟨name, f, f.result, false⟩ := by
  have hne : (self.overloads name).isEmpty = false := by
    rw [List.isEmpty_eq_false_iff]
    exact List.ne_nil_of_mem hf
  simp only [resolve, hne, bestOverload_exact (h name) hf hts, Bool.false_eq_true, ↓reduceIte]

end TypedStream.Registry
