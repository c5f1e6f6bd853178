import TypedStream.Failure

namespace TypedStream

@[simp] theorem Failure.cause_within (place : Place) (f : Failure) :
    (f.within place).cause = f.cause := by
  cases f <;> rfl

theorem exists_of_isOk {ε α : Type} {x : Except ε α} (h : x.isOk = true) : ∃ a, x = .ok a := by
  cases x with
  | ok a => exact ⟨a, rfl⟩
  | error e => cases h

theorem bind_ok_iff {ε α β : Type} {x : Except ε α} {f : α → Except ε β} {b : β} :
    (x >>= f) = .ok b ↔ ∃ a, x = .ok a ∧ f a = .ok b := by
  cases x with
  | error e => exact ⟨fun h => (by cases h), fun ⟨_, h, _⟩ => (by cases h)⟩
  | ok a => exact ⟨fun h => ⟨a, rfl, h⟩, fun ⟨_, ha, h⟩ => (by cases ha; exact h)⟩

theorem bind_error_iff {ε α β : Type} {x : Except ε α} {f : α → Except ε β} {e : ε} :
    (x >>= f) = .error e ↔ x = .error e ∨ ∃ a, x = .ok a ∧ f a = .error e := by
  constructor
  · intro h
    cases x with
    | error d =>
      cases h
      exact .inl rfl
    | ok a => exact .inr ⟨a, rfl, h⟩
  · rintro (rfl | ⟨a, rfl, h⟩)
    · rfl
    · exact h

theorem map_ok_iff {ε α β : Type} {f : α → β} {x : Except ε α} {b : β} :
    x.map f = .ok b ↔ ∃ a, x = .ok a ∧ f a = b := by
  cases x with
  | error e => exact ⟨fun h => (by cases h), fun ⟨_, h, _⟩ => (by cases h)⟩
  | ok a =>
    constructor
    · intro h
      exact ⟨a, rfl, Except.ok.inj h⟩
    · rintro ⟨_, ⟨⟩, rfl⟩
      rfl

theorem mapError_ok {ε δ α : Type} (f : ε → δ) (a : α) :
    (Except.ok a : Except ε α).mapError f = .ok a := rfl

theorem mapError_ok_iff {ε δ α : Type} {f : ε → δ} {x : Except ε α} {a : α} :
    x.mapError f = .ok a ↔ x = .ok a := by
  cases x with
  | ok b => rw [mapError_ok, Except.ok.injEq, Except.ok.injEq]
  | error e => exact ⟨nofun, nofun⟩

theorem mapError_error_iff {ε δ α : Type} {f : ε → δ} {x : Except ε α} {e : δ} :
    x.mapError f = .error e ↔ ∃ d, x = .error d ∧ f d = e := by
  cases x with
  | ok a => exact ⟨nofun, nofun⟩
  | error d => exact ⟨fun h => ⟨d, rfl, Except.error.inj h⟩, by rintro ⟨_, ⟨⟩, rfl⟩; rfl⟩

theorem inside_ok_iff {α : Type} {place : Place} {x : Except Failure α} {a : α} :
    inside place x = .ok a ↔ x = .ok a := by
  cases x with
  | ok b => exact Iff.rfl
  | error f => exact ⟨fun h => (by cases h), fun h => (by cases h)⟩

/-- The computation has a `good` result, or fails for a `bad` cause. -/
def Ends {α : Type} (good : α → Prop) (bad : Failure → Prop) : Except Failure α → Prop
  | .ok a => good a
  | .error f => bad f.cause

namespace Ends

variable {α β : Type} {good : α → Prop} {bad : Failure → Prop} {x : Except Failure α}

theorem ok {a : α} (h : Ends good bad x) (hx : x = .ok a) : good a := by
  subst x
  exact h

theorem error {f : Failure} (h : Ends good bad x) (hx : x = .error f) : bad f.cause := by
  subst x
  exact h

theorem bind {result : β → Prop} {f : α → Except Failure β} (hx : Ends good bad x)
    (hf : ∀ a, good a → Ends result bad (f a)) : Ends result bad (x >>= f) := by
  cases x with
  | error e => exact hx
  | ok a => exact hf a hx

theorem inside (place : Place) (h : Ends good bad x) : Ends good bad (inside place x) := by
  cases x with
  | ok a => exact h
  | error f =>
    change bad (f.within place).cause
    rw [Failure.cause_within]
    exact h

theorem anyhow (x : Except Failure α) : Ends (fun _ => True) (fun _ => True) x := by
  cases x <;> trivial

theorem mono {better : α → Prop} (h : Ends good bad x) (hg : ∀ a, good a → better a) :
    Ends better bad x := by
  cases x with
  | ok a => exact hg a h
  | error f => exact h

end Ends

namespace Failure

/-- The cause is a complaint about types. -/
def IsType (cause : Failure) : Prop := ∃ e, cause = .type e

/-- The cause is a function that has no result for arguments that fit it. -/
def IsComputation (cause : Failure) : Prop :=
  ∃ e, cause = .evaluation e ∧ e.kind = .computation

end Failure

end TypedStream
