import TypedStream.Function.Builtin
import TypedStream.Proofs.Elaboration

namespace TypedStream

namespace Plan

mutual

def erased : Plan → Plan
  | .variable name i t => .variable name i t
  | .constant v t => .constant v t
  | .call name f propagates t args => .call name f propagates t (erasedAll args)
  | .promotion p _ => p.erased
  | .logic c t args => .logic c t (erasedAll args)

def erasedAll : List Plan → List Plan
  | [] => []
  | p :: ps => p.erased :: erasedAll ps

end

/-- The node below the conversions on top. -/
def bare : Plan → Plan
  | .promotion p _ => p.bare
  | p => p

/-- The plan at a path of argument indices, with the conversions on top of it. Conversions on the
way are passed over. -/
def at? (p : Plan) (path : List Nat) : Option Plan := descend (fun q => q.bare.children) p path

theorem bare_of_promotions {p : Plan} (h : p.promotions = 0) : p.bare = p := by
  cases p with
  | promotion p t => simp [promotions] at h
  | _ => rfl

/-- Every part of a plan stands at a path, under conversions if it is not the plan that stands
there. -/
theorem Part.at? {p q : Plan} (h : q.Part p) :
    ∃ path r, p.at? path = some r ∧ q.promotions ≤ r.promotions := by
  induction h with
  | whole => exact ⟨[], q, rfl, Nat.le_refl _⟩
  | @under p child mem _ ih =>
    obtain ⟨path, r, hr, hle⟩ := ih
    cases hp : p.promotions with
    | zero =>
      obtain ⟨i, hi⟩ := List.mem_iff_getElem?.mp mem
      refine ⟨i :: path, r, ?_, hle⟩
      simp only [Plan.at?, descend, bare_of_promotions hp, hi]
      exact hr
    | succ n =>
      cases p with
      | promotion s t =>
        -- Paths from a conversion are those from below it, but for the empty one.
        cases List.mem_singleton.mp mem
        cases path with
        | nil =>
          cases hr
          exact ⟨[], _, rfl, Nat.le_succ_of_le hle⟩
        | cons i path => exact ⟨i :: path, r, hr, hle⟩
      | _ => simp [promotions] at hp

end Plan

namespace Expr

open Plan

variable {env : Environment}

/-- The expression at a path of argument indices. -/
def at? (e : Expr) (path : List Nat) : Option Expr := descend arguments e path

/-- The plan's own node is that of the expression, with the same name or value. Calls and operators
both become calls. -/
inductive NodeOf : Expr → Plan → Prop
  | variable (name : Text) (i : Int) (t : Option DataType) :
      NodeOf (.variable name) (.variable name i t)
  | constant (v : Value) (t : Option DataType) : NodeOf (.constant v) (.constant v t)
  | null (t : Option DataType) : NodeOf .null (.constant .null t)
  | call (name : Text) (f : Option ScalarFunction) (propagates : Bool) (t : Option DataType)
      (args : List Expr) (ps : List Plan) : NodeOf (.call name args) (.call name f propagates t ps)
  | operator (name : Text) (f : Option ScalarFunction) (propagates : Bool) (t : Option DataType)
      (args : List Expr) (ps : List Plan) :
      NodeOf (.operator name args) (.call name f propagates t ps)
  | logic (c : Connective) (t : Option DataType) (args : List Expr) (ps : List Plan) :
      NodeOf (.logic c args) (.logic c t ps)

theorem NodeOf.promotions {e : Expr} {p : Plan} (h : NodeOf e p) : p.promotions = 0 := by
  cases h <;> rfl

theorem NodeOf.erased {e : Expr} {p : Plan} (h : NodeOf e p) : NodeOf e p.erased := by
  cases h <;> (rw [Plan.erased]; constructor)

end Expr

end TypedStream
