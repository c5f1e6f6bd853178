import TypedStream.Plan.Basic
import TypedStream.Proofs.Outcome

namespace TypedStream.Plan

variable {record : List Value} {c : Connective} {args : List Plan} {p : Plan}

/-- The plan has no value. -/
def Fails (record : List Value) (p : Plan) : Prop := ∃ f, p.evaluate record = .error f

/-- The plan fails, is null or is a boolean. -/
def ThreeValued (record : List Value) (p : Plan) : Prop :=
  p.Fails record ∨ p.evaluate record = .ok .null ∨ ∃ b, p.evaluate record = .ok (.boolean b)

/-- As an argument, the plan settles the connective by itself. -/
def Decides (c : Connective) (record : List Value) (p : Plan) : Prop :=
  p.evaluate record = .ok (.boolean c.decisive)

/-- As an argument, the plan leaves the connective to the arguments behind it. -/
def Passes (c : Connective) (record : List Value) (p : Plan) : Prop :=
  p.evaluate record = .ok .null ∨ p.evaluate record = .ok (.boolean !c.decisive)

theorem Passes.not_fails (h : p.Passes c record) : ¬ p.Fails record := by
  rintro ⟨f, hf⟩
  rcases h with h | h
  · cases h.symm.trans hf
  · cases h.symm.trans hf

theorem Passes.not_decides (h : p.Passes c record) : ¬ p.Decides c record := by
  intro hd
  rcases h with h | h
  · cases h.symm.trans hd
  · have hb : (!c.decisive) = c.decisive := by simpa using h.symm.trans hd
    simp at hb

theorem Decides.not_fails (h : p.Decides c record) : ¬ p.Fails record := by
  rintro ⟨f, hf⟩
  cases h.symm.trans hf

theorem ThreeValued.fate (c : Connective) (h : p.ThreeValued record) :
    p.Fails record ∨ p.Decides c record ∨ p.Passes c record := by
  rcases h with hf | hn | ⟨b, hb⟩
  · exact .inl hf
  · exact .inr (.inr (.inl hn))
  · by_cases hd : b = c.decisive
    · rw [hd] at hb
      exact .inr (.inl hb)
    · rw [Bool.eq_not_of_ne hd] at hb
      exact .inr (.inr (.inr hb))

theorem evaluateLogic_passed {before : List Plan} (h : ∀ q ∈ before, q.Passes c record)
    (rest : List Plan) (sawNull : Bool) (index : Nat) :
    ∃ saw, evaluateLogic record c sawNull index (before ++ rest) =
        evaluateLogic record c saw (index + before.length) rest ∧
      (saw = true ↔ sawNull = true ∨ ∃ q ∈ before, q.evaluate record = .ok .null) := by
  induction before generalizing sawNull index with
  | nil => exact ⟨sawNull, rfl, by simp⟩
  | cons q before ih =>
    obtain ⟨hq, hbefore⟩ := List.forall_mem_cons.mp h
    have hindex : index + (q :: before).length = index + 1 + before.length := by
      simp only [List.length_cons]
      omega
    rw [List.cons_append, evaluateLogic, hindex]
    rcases hq with hq | hq
    · obtain ⟨saw, hsaw, hnull⟩ := ih hbefore true (index + 1)
      rw [hq]
      exact ⟨saw, hsaw, by simp [hnull, hq]⟩
    · obtain ⟨saw, hsaw, hnull⟩ := ih hbefore sawNull (index + 1)
      have hopen : ((!c.decisive) == c.decisive) = false := by simp
      rw [hq]
      refine ⟨saw, ?_, by simp [hnull, hq]⟩
      change (if (!c.decisive) == c.decisive then _ else _) = _
      rw [hopen, ← hsaw]
      rfl

/-- How a connective comes to its result. -/
inductive Course (c : Connective) (record : List Value) (args : List Plan) :
    Except Failure Value → Prop
  | failed {before after : List Plan} {p : Plan} {f : Failure} (split : args = before ++ p :: after)
      (passed : ∀ q ∈ before, q.Passes c record) (fails : p.evaluate record = .error f) :
      Course c record args (.error (f.within (.evaluatedLogic before.length)))
  | decided {before after : List Plan} {p : Plan} (split : args = before ++ p :: after)
      (passed : ∀ q ∈ before, q.Passes c record) (decides : p.Decides c record) :
      Course c record args (.ok (.boolean c.decisive))
  | null {p : Plan} (passed : ∀ q ∈ args, q.Passes c record) (mem : p ∈ args)
      (isNull : p.evaluate record = .ok .null) : Course c record args (.ok .null)
  | settled (all : ∀ q ∈ args, q.evaluate record = .ok (.boolean !c.decisive)) :
      Course c record args (.ok (.boolean !c.decisive))

theorem exists_stop (c : Connective) (h : ∀ p ∈ args, p.ThreeValued record) :
    (∀ q ∈ args, q.Passes c record) ∨ ∃ before p after, args = before ++ p :: after ∧
      (∀ q ∈ before, q.Passes c record) ∧ (p.Fails record ∨ p.Decides c record) := by
  induction args with
  | nil => exact .inl (by simp)
  | cons q args ih =>
    obtain ⟨hq, hargs⟩ := List.forall_mem_cons.mp h
    rcases hq.fate c with hf | hd | hp
    · exact .inr ⟨[], q, args, rfl, by simp, .inl hf⟩
    · exact .inr ⟨[], q, args, rfl, by simp, .inr hd⟩
    · rcases ih hargs with hall | ⟨before, p, after, rfl, hbefore, hstop⟩
      · exact .inl (List.forall_mem_cons.mpr ⟨hp, hall⟩)
      · exact .inr ⟨q :: before, p, after, rfl, List.forall_mem_cons.mpr ⟨hp, hbefore⟩, hstop⟩

theorem evaluate_logic_course (c : Connective) (t : Option DataType)
    (h : ∀ p ∈ args, p.ThreeValued record) :
    Course c record args ((logic c t args).evaluate record) := by
  rw [evaluate]
  rcases exists_stop c h with hall | ⟨before, p, after, rfl, hbefore, hstop⟩
  · obtain ⟨saw, hsaw, hnull⟩ := evaluateLogic_passed hall [] false 0
    rw [List.append_nil] at hsaw
    rw [hsaw, evaluateLogic, undecided]
    cases saw with
    | true =>
      obtain ⟨q, hq, hv⟩ : ∃ q ∈ args, q.evaluate record = .ok .null := by simpa using hnull
      exact .null hall hq hv
    | false =>
      refine .settled fun q hq => (hall q hq).resolve_left fun hv => ?_
      exact absurd (hnull.mpr (.inr ⟨q, hq, hv⟩)) (by simp)
  · obtain ⟨saw, hsaw, _⟩ := evaluateLogic_passed hbefore (p :: after) false 0
    rw [hsaw, evaluateLogic, Nat.zero_add]
    rcases hstop with ⟨f, hf⟩ | hd
    · rw [hf]
      exact .failed rfl hbefore hf
    · have hv : p.evaluate record = .ok (.boolean c.decisive) := hd
      have hstops : (c.decisive == c.decisive) = true := by simp
      rw [hv]
      change Course c record _ (if c.decisive == c.decisive then _ else _)
      rw [hstops]
      exact .decided rfl hbefore hd

theorem first_of_splits {before before' after after' : List Plan} {p p' : Plan}
    (h : before ++ p :: after = before' ++ p' :: after') : p ∈ before' ∨ p' ∈ before ∨ p = p' := by
  rcases List.append_eq_append_iff.mp h with ⟨between, rfl, hrest⟩ | ⟨between, rfl, hrest⟩
  · cases between with
    | nil => exact .inr (.inr (List.cons.inj hrest).1)
    | cons q between =>
      rw [(List.cons.inj hrest).1]
      exact .inl (by simp)
  · cases between with
    | nil => exact .inr (.inr (List.cons.inj hrest).1.symm)
    | cons q between =>
      rw [(List.cons.inj hrest).1]
      exact .inr (.inl (by simp))

namespace Course

variable {x : Except Failure Value}

theorem error_iff (h : Course c record args x) :
    (∃ f, x = .error f) ↔ ∃ before p after, args = before ++ p :: after ∧ p.Fails record ∧
      ∀ q ∈ before, ¬ q.Decides c record := by
  constructor
  · rintro ⟨f, rfl⟩
    cases h with
    | failed split passed fails =>
      exact ⟨_, _, _, split, ⟨_, fails⟩, fun q hq => (passed q hq).not_decides⟩
  · rintro ⟨before, p, after, rfl, hfails, hbefore⟩
    have hp : p ∈ before ++ p :: after := by simp
    cases h with
    | failed _ _ _ => exact ⟨_, rfl⟩
    | decided split passed decides =>
      -- The decisive argument would have to stand before the one that fails, or behind it.
      rcases first_of_splits split with hmem | hmem | rfl
      · exact absurd hfails (passed _ hmem).not_fails
      · exact absurd decides (hbefore _ hmem)
      · exact absurd hfails decides.not_fails
    | null passed _ _ => exact absurd hfails (passed p hp).not_fails
    | settled all => exact absurd hfails (Passes.not_fails (.inr (all p hp)))

/-- The failure is that of the first argument that fails. -/
theorem first_failure {f : Failure} (h : Course c record args (.error f)) :
    ∃ before p after cause, args = before ++ p :: after ∧ p.evaluate record = .error cause ∧
      (∀ q ∈ before, ¬ q.Fails record) ∧ f = cause.within (.evaluatedLogic before.length) := by
  cases h with
  | failed split passed fails =>
    exact ⟨_, _, _, _, split, fails, fun q hq => (passed q hq).not_fails, rfl⟩

theorem decisive_iff (h : Course c record args x) :
    x = .ok (.boolean c.decisive) ↔ ∃ before p after, args = before ++ p :: after ∧
      p.Decides c record ∧ ∀ q ∈ before, ¬ q.Fails record := by
  constructor
  · rintro rfl
    generalize hx : Except.ok (ε := Failure) (Value.boolean c.decisive) = x at h
    cases h with
    | failed _ _ _ => cases hx
    | decided split passed decides =>
      exact ⟨_, _, _, split, decides, fun q hq => (passed q hq).not_fails⟩
    | null _ _ _ => cases hx
    | settled _ => simp at hx
  · rintro ⟨before, p, after, rfl, hdecides, hbefore⟩
    have hp : p ∈ before ++ p :: after := by simp
    cases h with
    | failed split passed fails =>
      rcases first_of_splits split with hmem | hmem | rfl
      · exact absurd hdecides (passed _ hmem).not_decides
      · exact absurd ⟨_, fails⟩ (hbefore _ hmem)
      · exact absurd ⟨_, fails⟩ hdecides.not_fails
    | decided _ _ _ => rfl
    | null passed _ _ => exact absurd hdecides (passed p hp).not_decides
    | settled all => exact absurd hdecides (Passes.not_decides (.inr (all p hp)))

theorem null_iff (h : Course c record args x) :
    x = .ok .null ↔ (∀ q ∈ args, ¬ q.Fails record ∧ ¬ q.Decides c record) ∧
      ∃ q ∈ args, q.evaluate record = .ok .null := by
  constructor
  · rintro rfl
    cases h with
    | null passed mem isNull =>
      exact ⟨fun q hq => ⟨(passed q hq).not_fails, (passed q hq).not_decides⟩, _, mem, isNull⟩
  · rintro ⟨hpass, q, hq, hnull⟩
    cases h with
    | failed split _ fails => exact absurd ⟨_, fails⟩ (hpass _ (by simp [split])).1
    | decided split _ decides => exact absurd decides (hpass _ (by simp [split])).2
    | null _ _ _ => rfl
    | settled all => cases hnull.symm.trans (all q hq)

theorem settled_iff (h : Course c record args x) :
    x = .ok (.boolean !c.decisive) ↔
      ∀ q ∈ args, q.evaluate record = .ok (.boolean !c.decisive) := by
  constructor
  · rintro rfl
    generalize hx : Except.ok (ε := Failure) (Value.boolean !c.decisive) = x at h
    cases h with
    | failed _ _ _ => cases hx
    | decided _ _ _ => simp at hx
    | null _ _ _ => cases hx
    | settled all => exact all
  · intro hall
    cases h with
    | failed split _ fails => cases (hall _ (by simp [split])).symm.trans fails
    | decided split _ decides =>
      exact absurd decides (Passes.not_decides (.inr (hall _ (by simp [split]))))
    | null _ mem isNull => cases (hall _ mem).symm.trans isNull
    | settled _ => rfl

/-- Without failures the result is the same for all lists of the same arguments. -/
theorem unordered {args' : List Plan} {y : Except Failure Value} (h : Course c record args x)
    (h' : Course c record args' y) (hsame : ∀ p, p ∈ args' ↔ p ∈ args)
    (hfine : ∀ p ∈ args, ¬ p.Fails record) : y = x := by
  cases h with
  | failed split _ fails => exact absurd ⟨_, fails⟩ (hfine _ (by simp [split]))
  | @decided before after p split _ decides =>
    obtain ⟨before', after', hsplit⟩ := List.append_of_mem ((hsame p).mpr (by simp [split]))
    refine h'.decisive_iff.mpr ⟨before', p, after', hsplit, decides, fun q hq => ?_⟩
    exact hfine q ((hsame q).mp (by simp [hsplit, hq]))
  | @null p passed mem isNull =>
    refine h'.null_iff.mpr ⟨fun q hq => ?_, p, (hsame p).mpr mem, isNull⟩
    have hpassed := passed q ((hsame q).mp hq)
    exact ⟨hpassed.not_fails, hpassed.not_decides⟩
  | settled all => exact h'.settled_iff.mpr fun q hq => all q ((hsame q).mp hq)

end Course

/-- A connective fails just if an argument fails and none before it is decisive, with the failure of
the first that fails. It has the decisive value just if an argument before all failures has it;
otherwise it is null if an argument is, and has the other value if none is. Where nothing fails, all
lists of the same arguments have one result. -/
theorem evaluate_logic_three_valued (c : Connective) (t : Option DataType) (args : List Plan)
    (record : List Value) (h : ∀ p ∈ args, p.ThreeValued record) :
    ((logic c t args).Fails record ↔ ∃ before p after, args = before ++ p :: after ∧
      p.Fails record ∧ ∀ q ∈ before, ¬ q.Decides c record) ∧
    (∀ f, (logic c t args).evaluate record = .error f →
      ∃ before p after cause, args = before ++ p :: after ∧ p.evaluate record = .error cause ∧
        (∀ q ∈ before, ¬ q.Fails record) ∧ f = cause.within (.evaluatedLogic before.length)) ∧
    ((logic c t args).evaluate record = .ok (.boolean c.decisive) ↔
      ∃ before p after, args = before ++ p :: after ∧ p.Decides c record ∧
        ∀ q ∈ before, ¬ q.Fails record) ∧
    ((logic c t args).evaluate record = .ok .null ↔
      (∀ q ∈ args, ¬ q.Fails record ∧ ¬ q.Decides c record) ∧
        ∃ q ∈ args, q.evaluate record = .ok .null) ∧
    ((logic c t args).evaluate record = .ok (.boolean !c.decisive) ↔
      ∀ q ∈ args, q.evaluate record = .ok (.boolean !c.decisive)) ∧
    ((∀ p ∈ args, ¬ p.Fails record) → ∀ args' t', (∀ p, p ∈ args' ↔ p ∈ args) →
      (logic c t' args').evaluate record = (logic c t args).evaluate record) := by
  have hcourse := evaluate_logic_course c t h
  refine ⟨hcourse.error_iff, fun f hf => ?_, hcourse.decisive_iff, hcourse.null_iff,
    hcourse.settled_iff, fun hfine args' t' hsame => ?_⟩
  · rw [hf] at hcourse
    exact hcourse.first_failure
  · have h' : ∀ p ∈ args', p.ThreeValued record := fun p hp => h p ((hsame p).mp hp)
    exact hcourse.unordered (evaluate_logic_course c t' h') hsame hfine

/-- A false argument hides the failure behind it from a conjunction; a disjunction goes past it, and
past the null before it, and comes upon the failure. -/
theorem evaluate_logic_three_valued_hidden :
    (logic .conjunction none [.constant .null none, .constant (.boolean false) none,
      .variable (utf8 "x") 0 none]).evaluate [] = .ok (.boolean false) ∧
    (logic .disjunction none [.constant .null none, .constant (.boolean false) none,
      .variable (utf8 "x") 0 none]).Fails [] := by
  have hmissing : (Plan.variable (utf8 "x") 0 none).Fails [] := ⟨_, rfl⟩
  have h : ∀ p ∈ [Plan.constant .null none, .constant (.boolean false) none,
      .variable (utf8 "x") 0 none], p.ThreeValued [] := by
    simp [ThreeValued, hmissing, evaluate]
  constructor
  · apply (evaluate_logic_three_valued .conjunction none _ [] h).2.2.1.mpr
    exact ⟨[.constant .null none], _, _, rfl, by simp [Decides, evaluate, Connective.decisive],
      by simp [Fails, evaluate]⟩
  · apply (evaluate_logic_three_valued .disjunction none _ [] h).1.mpr
    exact ⟨[.constant .null none, .constant (.boolean false) none], _, [], rfl, hmissing,
      by simp [Decides, evaluate, Connective.decisive]⟩

end TypedStream.Plan
