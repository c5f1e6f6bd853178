import TypedStream.Proofs.Outcome
import TypedStream.Proofs.Text
import TypedStream.Setting

namespace TypedStream

namespace Settings

open Setting (Error)

/-- The names have no dots, and the path is the names with dots between them. -/
structure PathOf (names : List Text) (path : Text) : Prop where
  nonempty : names ≠ []
  undotted : ∀ name ∈ names, 46 ∉ name
  joined : Text.join (utf8 ".") names = path

theorem pathOf_pathNames (path : Text) : PathOf (pathNames path) path where
  nonempty := Text.splitAll_ne_nil 46 path
  undotted := fun _ h => Text.not_mem_of_mem_splitAll h
  joined := Text.join_splitAll 46 path

theorem PathOf.eq_pathNames {names : List Text} {path : Text} (h : PathOf names path) :
    names = pathNames path := by
  rw [← h.joined]
  exact (Text.splitAll_join h.nonempty h.undotted).symm

/-- Names lead from one table to another, each to the next table. -/
inductive Leads : Settings → List Text → Settings → Prop
  | here (settings : Settings) : Leads settings [] settings
  | down {settings below last : Settings} {name : Text} {names : List Text}
      (found : settings.lookup name = some (.table below)) (rest : Leads below names last) :
      Leads settings (name :: names) last

def Reaches (settings : Settings) (names : List Text) (found : Setting) : Prop :=
  ∃ front name last, names = front ++ [name] ∧ Leads settings front last ∧
    last.lookup name = some found

/-- The names lead to a table where the next one is not to be found. -/
def Misses (settings : Settings) (names : List Text) : Prop :=
  ∃ front name behind last, names = front ++ name :: behind ∧ Leads settings front last ∧
    last.lookup name = none

/-- The names lead to a setting under the name `name` that is no table, and go on. -/
def Blocked (settings : Settings) (names : List Text) (name : Text) (found : Setting) : Prop :=
  ∃ front next behind last, names = front ++ name :: next :: behind ∧ Leads settings front last ∧
    last.lookup name = some found ∧ ∀ below, found ≠ .table below

variable {settings below : Settings} {name : Text} {names : List Text}

theorem reaches_or_misses_or_blocked (settings : Settings) {names : List Text} (h : names ≠ []) :
    (∃ found, Reaches settings names found) ∨ Misses settings names ∨
      ∃ name found, Blocked settings names name found := by
  induction names generalizing settings with
  | nil => exact absurd rfl h
  | cons name names ih =>
    cases hfound : settings.lookup name with
    | none => exact .inr (.inl ⟨[], name, names, settings, rfl, .here _, hfound⟩)
    | some found =>
      cases names with
      | nil => exact .inl ⟨found, [], name, settings, rfl, .here _, hfound⟩
      | cons next names =>
        by_cases htable : ∃ below, found = .table below
        · obtain ⟨below, rfl⟩ := htable
          rcases ih below (by simp) with ⟨v, hv⟩ | hm | ⟨n, v, hb⟩
          · obtain ⟨front, last, t, he, hl, hv⟩ := hv
            exact .inl ⟨v, name :: front, last, t, by simp [he], .down hfound hl, hv⟩
          · obtain ⟨front, last, behind, t, he, hl, hm⟩ := hm
            exact .inr (.inl ⟨name :: front, last, behind, t, by simp [he], .down hfound hl, hm⟩)
          · obtain ⟨front, after, behind, t, he, hl, hb⟩ := hb
            exact .inr (.inr ⟨n, v, name :: front, after, behind, t, by simp [he],
              .down hfound hl, hb⟩)
        · exact .inr (.inr ⟨name, found, [], next, names, settings, rfl, .here _, hfound,
            not_exists.mp htable⟩)

theorem isNotFound_iff {e : Error} : e.isNotFound = true ↔ e.cause = .notFound := by
  unfold Error.isNotFound
  cases e.cause <;> simp

theorem walk_down (fallback : Option Setting) (h : settings.lookup name = some (.table below))
    (hne : names ≠ []) :
    walk fallback settings (name :: names) =
      (walk fallback below names).mapError (.beneath (ofNames names)) := by
  cases names with
  | nil => exact absurd rfl hne
  | cons next names => simp only [walk, h]

/-- Following names from a table that other names lead to ends in the same way, but for the places
that the failure was met on. -/
theorem walk_leads (fallback : Option Setting) {last : Settings} {front : List Text}
    (h : Leads settings front last) (hne : names ≠ []) :
    (walk fallback settings (front ++ names)).mapError Error.cause =
      (walk fallback last names).mapError Error.cause := by
  induction h with
  | here => rfl
  | @down settings below last name front found rest ih =>
    rw [List.cons_append, walk_down fallback found (by simp [hne]), ← ih]
    cases walk fallback below (front ++ names) <;> rfl

theorem Reaches.walk {found : Setting} (h : Reaches settings names found)
    (fallback : Option Setting) : walk fallback settings names = .ok found := by
  obtain ⟨front, name, last, rfl, hleads, hfound⟩ := h
  apply mapError_ok_iff.mp
  rw [walk_leads fallback hleads (by simp)]
  simp only [Settings.walk, hfound]
  rfl

theorem Misses.walk_none (h : Misses settings names) :
    ∃ e, walk none settings names = .error e ∧ e.cause = .notFound := by
  obtain ⟨front, name, behind, last, rfl, hleads, hnone⟩ := h
  apply mapError_error_iff.mp
  rw [walk_leads none hleads (by simp)]
  cases behind <;> simp only [walk, hnone] <;> rfl

theorem Misses.walk_some (h : Misses settings names) (d : Setting) :
    walk (some d) settings names = .ok d := by
  obtain ⟨front, name, behind, last, rfl, hleads, hnone⟩ := h
  apply mapError_ok_iff.mp
  rw [walk_leads (some d) hleads (by simp)]
  cases behind <;> simp only [walk, hnone] <;> rfl

theorem Blocked.walk {found : Setting} (h : Blocked settings names name found)
    (fallback : Option Setting) :
    ∃ e, walk fallback settings names = .error e ∧ e.cause = .notTable name found.kindName := by
  obtain ⟨front, next, behind, last, rfl, hleads, hfound, hkind⟩ := h
  apply mapError_error_iff.mp
  rw [walk_leads fallback hleads (by simp)]
  cases found with
  | table below => exact absurd rfl (hkind below)
  | _ =>
    simp only [Settings.walk, hfound]
    rfl

theorem walk_ok_iff (hne : names ≠ []) {v : Setting} :
    walk none settings names = .ok v ↔ Reaches settings names v := by
  constructor
  · intro hv
    rcases reaches_or_misses_or_blocked settings hne with ⟨w, hw⟩ | hm | ⟨name, found, hb⟩
    · cases hv.symm.trans (hw.walk none)
      exact hw
    · obtain ⟨e, he, _⟩ := hm.walk_none
      cases hv.symm.trans he
    · obtain ⟨e, he, _⟩ := hb.walk none
      cases hv.symm.trans he
  · intro hv
    exact hv.walk none

theorem walk_notFound_iff (hne : names ≠ []) :
    (∃ e, walk none settings names = .error e ∧ e.cause = .notFound) ↔ Misses settings names := by
  constructor
  · intro ⟨e, he, hcause⟩
    rcases reaches_or_misses_or_blocked settings hne with ⟨w, hw⟩ | hm | ⟨name, found, hb⟩
    · cases he.symm.trans (hw.walk none)
    · exact hm
    · obtain ⟨e', he', hcause'⟩ := hb.walk none
      cases he.symm.trans he'
      cases hcause.symm.trans hcause'
  · intro hm
    exact hm.walk_none

theorem walk_notTable_iff (hne : names ≠ []) {name kind : Text} :
    (∃ e, walk none settings names = .error e ∧ e.cause = .notTable name kind) ↔
      ∃ found, Blocked settings names name found ∧ found.kindName = kind := by
  constructor
  · intro ⟨e, he, hcause⟩
    rcases reaches_or_misses_or_blocked settings hne with ⟨w, hw⟩ | hm | ⟨other, found, hb⟩
    · cases he.symm.trans (hw.walk none)
    · obtain ⟨e', he', hcause'⟩ := hm.walk_none
      cases he.symm.trans he'
      cases hcause.symm.trans hcause'
    · obtain ⟨e', he', hcause'⟩ := hb.walk none
      cases he.symm.trans he'
      cases hcause.symm.trans hcause'
      exact ⟨found, hb, rfl⟩
  · intro ⟨found, hb, hkind⟩
    rw [← hkind]
    exact hb.walk none

/-- What a default makes of the outcome without one. -/
def orDefault (d : Setting) : Except Error Setting → Except Error Setting
  | .ok found => .ok found
  | .error e => if e.isNotFound then .ok d else .error e

/-- The place that is put on an error does not hide that a name was not found. -/
theorem orDefault_beneath (d : Setting) (path : Text) (x : Except Error Setting) :
    (orDefault d x).mapError (Error.beneath path) =
      orDefault d (x.mapError (Error.beneath path)) := by
  cases x with
  | ok v => rfl
  | error e =>
    have hcause : (Error.beneath path e).isNotFound = e.isNotFound := rfl
    change (if e.isNotFound then Except.ok d else .error e).mapError _ =
      if (Error.beneath path e).isNotFound then .ok d else .error (Error.beneath path e)
    rw [hcause]
    split <;> rfl

/-- A default that goes down the names with the lookup does what it would do afterwards. -/
theorem walk_default (d : Setting) (settings : Settings) {names : List Text} (hne : names ≠ []) :
    walk (some d) settings names = orDefault d (walk none settings names) := by
  induction names generalizing settings with
  | nil => exact absurd rfl hne
  | cons name names ih =>
    cases hfound : settings.lookup name with
    | none => cases names <;> simp only [walk, hfound] <;> rfl
    | some found =>
      cases names with
      | nil =>
        simp only [walk, hfound]
        rfl
      | cons next names =>
        cases found with
        | table below =>
          rw [walk_down _ hfound (by simp), walk_down _ hfound (by simp), ih below (by simp)]
          apply orDefault_beneath
        | _ =>
          simp only [walk, hfound]
          rfl

theorem walk_some_of_not_misses (hne : names ≠ []) (h : ¬ Misses settings names) (d : Setting) :
    walk (some d) settings names = walk none settings names := by
  rw [walk_default d settings hne]
  cases hwalk : walk none settings names with
  | ok v => rfl
  | error e =>
    cases hmissing : e.isNotFound with
    | true =>
      have hcause := isNotFound_iff.mp hmissing
      exact absurd ((walk_notFound_iff hne).mp ⟨e, hwalk, hcause⟩) h
    | false => simp [orDefault, hmissing]

/-- A getter for settings of one kind, given a default of that kind, finds what there is at the path
with that default, and fails if there is nothing or something of another kind. It takes the default
for what it is. -/
structure Agrees {α : Type} (kind : α → Setting)
    (getter : Settings → Text → Option Setting → Except Error α) (settings : Settings)
    (path : Text) : Prop where
  ok_iff (d x : α) : getter settings path (some (kind d)) = .ok x ↔
    settings.get path (some (kind d)) = .ok (kind x)
  error_iff (d : α) : (∃ e, getter settings path (some (kind d)) = .error e) ↔
    (∃ e, settings.get path (some (kind d)) = .error e) ∨
      ∃ v, settings.get path (some (kind d)) = .ok v ∧ ∀ x, v ≠ kind x
  ne_defaultKind (d : α) : getter settings path (some (kind d)) ≠ .error .defaultKind

/-- What a getter makes of the setting that it finds. -/
def viewed {α : Type} (view : Setting → Option α) (mismatch : Text → Error) (path : Text) :
    Except Error Setting → Except Error α
  | .ok v =>
    match view v with
    | some a => .ok a
    | none => .error (mismatch v.kindName)
  | .error e => .error (.reading path e)

section Getters

variable {α : Type} {view : Setting → Option α} {kind : α → Setting} {mismatch : Text → Error}

/-- Looking up without the default and putting it in afterwards comes to the same as looking up with
it. -/
theorem getAs_default (mismatch : Text → Error) (hview : ∀ a, view (kind a) = some a)
    (settings : Settings) (path : Text) (d : α) :
    getAs view mismatch settings path (some (kind d)) =
      viewed view mismatch path (settings.get path (some (kind d))) := by
  have hdefault : settings.get path (some (kind d)) = orDefault (kind d) (settings.get path none) :=
    walk_default (kind d) settings (Text.splitAll_ne_nil 46 path)
  rw [getAs, hdefault]
  cases settings.get path none with
  | ok v => rfl
  | error e => cases he : e.isNotFound <;> simp [orDefault, viewed, he, hview]

theorem viewed_ok_iff (hview : ∀ v a, view v = some a ↔ v = kind a) {path : Text}
    {x : Except Error Setting} {a : α} :
    viewed view mismatch path x = .ok a ↔ x = .ok (kind a) := by
  cases x with
  | error e => simp [viewed]
  | ok v =>
    rw [Except.ok.injEq, ← hview]
    cases hv : view v <;> simp [viewed, hv]

theorem viewed_error (hview : ∀ v a, view v = some a ↔ v = kind a) {path : Text}
    {x : Except Error Setting} :
    (∃ e, viewed view mismatch path x = .error e) ↔
      (∃ e, x = .error e) ∨ ∃ v, x = .ok v ∧ ∀ a, v ≠ kind a := by
  cases x with
  | error e => simp [viewed]
  | ok v =>
    simp only [reduceCtorEq, exists_false, false_or, Except.ok.injEq, exists_eq_left', ne_eq,
      ← hview]
    cases hv : view v <;> simp [viewed, hv]

theorem viewed_ne_defaultKind (hmismatch : ∀ found, mismatch found ≠ .defaultKind) (path : Text)
    (x : Except Error Setting) : viewed view mismatch path x ≠ .error .defaultKind := by
  cases x with
  | error e => simp [viewed]
  | ok v => cases hv : view v <;> simp [viewed, hv, hmismatch]

theorem getAs_agrees (hview : ∀ v a, view v = some a ↔ v = kind a)
    (hmismatch : ∀ found, mismatch found ≠ .defaultKind) (settings : Settings) (path : Text) :
    Agrees kind (getAs view mismatch) settings path := by
  have hdefault := getAs_default mismatch (fun a => (hview _ a).mpr rfl) settings path
  constructor
  · intro d x
    rw [hdefault, viewed_ok_iff hview]
  · intro d
    rw [hdefault, viewed_error hview]
  · intro d
    rw [hdefault]
    apply viewed_ne_defaultKind hmismatch

end Getters

theorem text?_eq_some_iff (v : Setting) (t : Text) : text? v = some t ↔ v = .text t := by
  cases v <;> simp [text?]

theorem boolean?_eq_some_iff (v : Setting) (b : Bool) : boolean? v = some b ↔ v = .boolean b := by
  cases v <;> simp [boolean?]

/-- The setting at a path is what its names lead to. If one of them is not found, there is the
default instead, or else an error that says so; if they are to go on below a setting that is no
table, there is another error, default or not. Texts and booleans are looked up the same way. -/
theorem get_follows_path (settings : Settings) (path : Text) :
    ∃ names, PathOf names path ∧ (∀ other, PathOf other path → other = names) ∧
      (∀ v, settings.get path none = .ok v ↔ Reaches settings names v) ∧
      ((∃ e, settings.get path none = .error e ∧ e.cause = .notFound) ↔ Misses settings names) ∧
      (∀ name kind, (∃ e, settings.get path none = .error e ∧ e.cause = .notTable name kind) ↔
        ∃ found, Blocked settings names name found ∧ found.kindName = kind) ∧
      (∀ d, (Misses settings names → settings.get path (some d) = .ok d) ∧
        (¬ Misses settings names → settings.get path (some d) = settings.get path none)) ∧
      Agrees .text getText settings path ∧ Agrees .boolean getBoolean settings path := by
  have hne : pathNames path ≠ [] := (pathOf_pathNames path).nonempty
  refine ⟨pathNames path, pathOf_pathNames path, fun _ h => h.eq_pathNames, ?_, ?_, ?_, ?_, ?_, ?_⟩
  · intro v
    apply walk_ok_iff hne
  · apply walk_notFound_iff hne
  · intro name kind
    apply walk_notTable_iff hne
  · intro d
    exact ⟨fun hm => hm.walk_some d, fun hm => walk_some_of_not_misses hne hm d⟩
  · apply getAs_agrees text?_eq_some_iff
    simp
  · apply getAs_agrees boolean?_eq_some_iff
    simp

end Settings

end TypedStream
