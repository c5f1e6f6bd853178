import TypedStream.Proofs.Draft.Run

namespace TypedStream

namespace FieldDraft

def label (b : FieldDraft) : LabelKind → Text
  | .display => b.display
  | .serialization => b.serialization
  | .projected => b.projected

theorem setLabel_frozen {b : FieldDraft} {l : Labeled} (h : b.frozen = some l) (kind : LabelKind)
    (text : Text) : b.setLabel kind text = .error .finalized := by
  simp [setLabel, h]

theorem finalize_frozen {b : FieldDraft} {l : Labeled} (h : b.frozen = some l) :
    b.finalize = .ok (b, l) := by
  simp [finalize, h]

theorem setLabel_open {b : FieldDraft} (h : b.frozen = none) (kind : LabelKind) (text : Text) :
    ∃ c, b.setLabel kind text = .ok c ∧ c.frozen = none ∧ c.expression = b.expression ∧
      ∀ k, c.label k = if k = kind then text else b.label k := by
  simp only [setLabel, h, Option.isSome_none, Bool.false_eq_true, ↓reduceIte]
  cases kind <;> exact ⟨_, rfl, rfl, rfl, fun k => by cases k <;> rfl⟩

theorem finalize_open {b : FieldDraft} (h : b.frozen = none) (hcheck : b.check = .ok ()) :
    b.finalize = .ok (b.freeze, b.labeled) := by
  simp only [finalize, h, hcheck]
  rfl

/-- The field after a change, or as it was if the change fails. -/
def tried (b : FieldDraft) (change : FieldDraft → Except Failure FieldDraft) : FieldDraft :=
  match change b with
  | .ok c => c
  | .error _ => b

theorem tried_setLabel_frozen {b : FieldDraft} {l : Labeled} (h : b.frozen = some l)
    (kind : LabelKind) (text : Text) : b.tried (fun c => c.setLabel kind text) = b := by
  rw [tried, setLabel_frozen h]

theorem tried_finalize_frozen {b : FieldDraft} {l : Labeled} (h : b.frozen = some l) :
    b.tried (fun c => c.finalize.map Prod.fst) = b := by
  rw [tried, finalize_frozen h]
  rfl

theorem freeze_frozen {b : FieldDraft} {l : Labeled} (hc : b.Coherent) (h : b.frozen = some l) :
    b.freeze = b := by
  obtain ⟨rfl, _⟩ := hc l h
  rw [freeze, ← h]

end FieldDraft

namespace Draft

/-- The expressions that actions add, in order. -/
def added (actions : List Action) : List Plan :=
  actions.filterMap fun
    | .add p => some p
    | _ => none

/-- What is done after the field at a place was added. -/
def since : Nat → List Action → List Action
  | _, [] => []
  | 0, .add _ :: actions => actions
  | i + 1, .add _ :: actions => since i actions
  | i, .setLabel _ _ _ :: actions => since i actions
  | i, .freeze _ :: actions => since i actions
  | i, .finalize :: actions => since i actions

/-- The label that an action sets on the field at a place. -/
def Action.label? (i : Nat) (kind : LabelKind) : Action → Option Text
  | .setLabel j k label => if j = i ∧ k = kind then some label else none
  | _ => none

/-- The label set last on the field at a place, empty if there is none. -/
def lastSet (i : Nat) (kind : LabelKind) (actions : List Action) : Text :=
  ((since i actions).filterMap (Action.label? i kind)).getLastD []

theorem since_concat {i : Nat} {actions : List Action} (h : i < (added actions).length)
    (a : Action) : since i (actions ++ [a]) = since i actions ++ [a] := by
  induction actions generalizing i with
  | nil => simp [added] at h
  | cons b actions ih =>
    cases b with
    | add p =>
      cases i with
      | zero => rfl
      | succ i => exact ih (by simpa [added] using h)
    | setLabel j kind label => simpa only [List.cons_append, since] using ih h
    | freeze j => simpa only [List.cons_append, since] using ih h
    | finalize => simpa only [List.cons_append, since] using ih h

theorem since_added (actions : List Action) (p : Plan) :
    since (added actions).length (actions ++ [.add p]) = [] := by
  induction actions with
  | nil => rfl
  | cons b actions ih =>
    cases b with
    | add q => simpa [added, since] using ih
    | setLabel j kind label => simpa [added, since] using ih
    | freeze j => simpa [added, since] using ih
    | finalize => simpa [added, since] using ih

theorem lastSet_concat {i : Nat} {actions : List Action} (h : i < (added actions).length)
    (kind : LabelKind) (a : Action) :
    lastSet i kind (actions ++ [a]) = (a.label? i kind).getD (lastSet i kind actions) := by
  rw [lastSet, since_concat h, List.filterMap_append]
  cases hl : a.label? i kind with
  | none => simp [hl, lastSet]
  | some label => simp [hl]

/-- The labelled expression frozen at a place. -/
def frozenAt (d : Draft) (i : Nat) : Option Labeled := d.fields[i]?.bind FieldDraft.frozen

/-- What an action does to the field at a place. A field is kept by actions on others and by those
that fail, as setting a label does on a frozen field. -/
inductive Effect (d : Draft) (i : Nat) : Action → Option FieldDraft → Prop
  | kept {a : Action}
      (unset : ∀ b, d.fields[i]? = some b → b.frozen = none → ∀ kind, a.label? i kind = none) :
      Effect d i a d.fields[i]?
  | appended {p : Plan} (isOpen : d.finalized = false) (next : i = d.fields.length) :
      Effect d i (.add p) (some { expression := p })
  | labelled {b c : FieldDraft} {kind : LabelKind} {label : Text}
      (found : d.fields[i]? = some b) (isOpen : b.frozen = none)
      (set : b.setLabel kind label = .ok c) : Effect d i (.setLabel i kind label) (some c)
  | frozen {a : Action} {b : FieldDraft} (cause : a = .freeze i ∨ a = .finalize ∧ d.Finalizes)
      (found : d.fields[i]? = some b) (isOpen : b.frozen = none) (checked : b.check = .ok ()) :
      Effect d i a (some b.freeze)

theorem Effect.of_none {d : Draft} {i : Nat} {a : Action} (h : d.fields[i]? = none) :
    Effect d i a none := by
  rw [← h]
  refine .kept fun b hb => ?_
  simp [h] at hb

theorem Effect.of_frozen {d : Draft} {i : Nat} {a : Action} {b : FieldDraft} {l : Labeled}
    (hb : d.fields[i]? = some b) (hl : b.frozen = some l) : Effect d i a (some b) := by
  rw [← hb]
  refine .kept fun c hc hopen => ?_
  cases hb.symm.trans hc
  simp [hl] at hopen

theorem fields_onField (d : Draft) (i : Nat) (change : FieldDraft → Except Failure FieldDraft) :
    (d.onField i change).fields = d.fields.modify i (fun b => b.tried change) := by
  rw [List.modify_eq_set_getElem?, onField]
  cases hb : d.fields[i]? with
  | none => rfl
  | some b =>
    cases hc : change b with
    | ok c => simp [FieldDraft.tried, hc]
    | error f =>
      obtain ⟨hi, rfl⟩ := List.getElem?_eq_some_iff.mp hb
      simp [FieldDraft.tried, hc]

theorem onField_eq_self {d : Draft} {i : Nat} {change : FieldDraft → Except Failure FieldDraft}
    (h : ∀ b ∈ d.fields, b.tried change = b) : d.onField i change = d := by
  have hfields : (d.onField i change).fields = d.fields := by
    rw [fields_onField]
    refine List.ext_getElem? fun j => ?_
    rw [List.getElem?_modify]
    cases hb : d.fields[j]? with
    | none => rfl
    | some b => simp [h b (List.mem_of_getElem? hb)]
  have hfinalized := d.finalized_onField i change
  calc d.onField i change
      = ⟨(d.onField i change).fields, (d.onField i change).finalized⟩ := rfl
    _ = d := by rw [hfields, hfinalized]

theorem effect_add (d : Draft) (i : Nat) (p : Plan) :
    Effect d i (.add p) (d.perform (.add p)).fields[i]? := by
  cases hf : d.finalized with
  | true =>
    have hd : d.perform (.add p) = d := by simp [perform, Draft.add, hf]
    rw [hd]
    exact .kept fun _ _ _ _ => rfl
  | false =>
    have hd : (d.perform (.add p)).fields = d.fields ++ [{ expression := p }] := by
      simp [perform, Draft.add, hf]
    rw [hd]
    rcases Nat.lt_trichotomy i d.fields.length with hi | rfl | hi
    · rw [List.getElem?_append_left hi]
      exact .kept fun _ _ _ _ => rfl
    · rw [List.getElem?_concat_length]
      exact .appended hf rfl
    · rw [List.getElem?_eq_none (by simpa using Nat.succ_le_of_lt hi)]
      exact .of_none (List.getElem?_eq_none (Nat.le_of_lt hi))

theorem effect_onField {d : Draft} {a : Action} (i j : Nat)
    {change : FieldDraft → Except Failure FieldDraft}
    (hother : j ≠ i → ∀ kind, a.label? i kind = none)
    (hfrozen : ∀ (b : FieldDraft) (l : Labeled), b.frozen = some l → b.tried change = b)
    (hopen : ∀ b, d.fields[j]? = some b → b.frozen = none → Effect d j a (some (b.tried change))) :
    Effect d i a (d.onField j change).fields[i]? := by
  rw [fields_onField, List.getElem?_modify]
  by_cases hj : j = i
  · subst hj
    cases hb : d.fields[j]? with
    | none => exact .of_none hb
    | some b =>
      simp only [↓reduceIte, Option.map_eq_map, Option.map_some]
      cases hl : b.frozen with
      | some l =>
        rw [hfrozen b l hl]
        exact .of_frozen hb hl
      | none => exact hopen b hb hl
  · simp only [hj, ↓reduceIte, Option.map_eq_map, Option.map_id_fun', id_eq]
    exact .kept fun _ _ _ => hother hj

theorem effect_setLabel (d : Draft) (i j : Nat) (kind : LabelKind) (label : Text) :
    Effect d i (.setLabel j kind label) (d.perform (.setLabel j kind label)).fields[i]? := by
  refine effect_onField i j (fun hj k => if_neg fun h => hj h.1)
    (fun b l hl => FieldDraft.tried_setLabel_frozen hl kind label) ?_
  intro b hb hl
  obtain ⟨c, hc, _⟩ := FieldDraft.setLabel_open hl kind label
  rw [FieldDraft.tried, hc]
  exact .labelled hb hl hc

theorem effect_freeze (d : Draft) (i j : Nat) :
    Effect d i (.freeze j) (d.perform (.freeze j)).fields[i]? := by
  refine effect_onField i j (fun _ _ => rfl)
    (fun b l hl => FieldDraft.tried_finalize_frozen hl) ?_
  intro b hb hl
  cases hcheck : b.check with
  | error f =>
    have hrefused : b.tried (fun c => c.finalize.map Prod.fst) = b := by
      simp only [FieldDraft.tried, FieldDraft.finalize, hl, hcheck]
      rfl
    rw [hrefused, ← hb]
    exact .kept fun _ _ _ _ => rfl
  | ok _ =>
    rw [FieldDraft.tried, FieldDraft.finalize_open hl hcheck]
    exact .frozen (.inl rfl) hb hl hcheck

theorem effect_finalize {d : Draft} (hc : d.Coherent) (i : Nat) :
    Effect d i .finalize (d.perform .finalize).fields[i]? := by
  rw [perform]
  by_cases hr : d.Ready
  · obtain ⟨fs, _, heq⟩ := attempt_ready hc hr
    rw [heq, List.getElem?_map]
    cases hb : d.fields[i]? with
    | none => exact .of_none hb
    | some b =>
      have hm := List.mem_of_getElem? hb
      cases hl : b.frozen with
      | some l =>
        rw [Option.map_some, FieldDraft.freeze_frozen (hc b hm) hl]
        exact .of_frozen hb hl
      | none => exact .frozen (.inr ⟨rfl, (finalizes_iff hc).mpr hr⟩) hb hl (hr.checked b hm)
  · obtain ⟨f, heq⟩ := attempt_not_ready hr
    rw [heq]
    exact .kept fun _ _ _ _ => rfl

theorem perform_effect {d : Draft} (hc : d.Coherent) (a : Action) (i : Nat) :
    Effect d i a (d.perform a).fields[i]? := by
  cases a with
  | add p => exact effect_add d i p
  | setLabel j kind label => exact effect_setLabel d i j kind label
  | freeze j => exact effect_freeze d i j
  | finalize => exact effect_finalize hc i

theorem length_onField (d : Draft) (i : Nat) (change : FieldDraft → Except Failure FieldDraft) :
    (d.onField i change).fields.length = d.fields.length := by
  rw [fields_onField, List.length_modify]

theorem length_perform {d : Draft} (hc : d.Coherent) (hopen : d.finalized = false) (a : Action) :
    (d.perform a).fields.length = d.fields.length + (added [a]).length := by
  cases a with
  | add p => simp [perform, Draft.add, hopen, added]
  | setLabel i kind label => exact length_onField d i _
  | freeze i => exact length_onField d i _
  | finalize =>
    by_cases hr : d.Ready
    · obtain ⟨fs, _, heq⟩ := attempt_ready hc hr
      simp [perform, heq, added]
    · obtain ⟨f, heq⟩ := attempt_not_ready hr
      simp [perform, heq, added]

theorem added_append (actions more : List Action) :
    added (actions ++ more) = added actions ++ added more :=
  List.filterMap_append

/-- The field at a place as actions have left it: the expression is the one that was added there,
and as long as it is open its labels are those set last. -/
structure Reflects (actions : List Action) (i : Nat) (b : FieldDraft) : Prop where
  expression : (added actions)[i]? = some b.expression
  label : b.frozen = none → ∀ kind, b.label kind = lastSet i kind actions

theorem Reflects.lt {actions : List Action} {i : Nat} {b : FieldDraft}
    (h : Reflects actions i b) : i < (added actions).length :=
  (List.getElem?_eq_some_iff.mp h.expression).1

theorem Reflects.expression_concat {actions : List Action} {i : Nat} {b : FieldDraft}
    (h : Reflects actions i b) (a : Action) :
    (added (actions ++ [a]))[i]? = some b.expression := by
  rw [added_append, List.getElem?_append_left h.lt]
  exact h.expression

theorem Effect.reflects {d : Draft} {i : Nat} {a : Action} {b : FieldDraft} {actions : List Action}
    (he : Effect d i a (some b))
    (hlength : d.finalized = false → d.fields.length = (added actions).length)
    (h : ∀ c, d.fields[i]? = some c → Reflects actions i c) : Reflects (actions ++ [a]) i b := by
  generalize hx : some b = x at he
  cases he with
  | kept unset =>
    have hb := h b hx.symm
    refine ⟨hb.expression_concat a, fun hopen kind => ?_⟩
    rw [lastSet_concat hb.lt, unset b hx.symm hopen kind]
    exact hb.label hopen kind
  | @appended p isOpen next =>
    cases hx
    rw [hlength isOpen] at next
    subst next
    refine ⟨by simp [added], fun _ kind => ?_⟩
    -- Labels set at this place before there was a field do not count.
    rw [lastSet, since_added]
    cases kind <;> rfl
  | @labelled c _ kind label found isOpen set =>
    cases hx
    have hc := h c found
    obtain ⟨e, he, _, hexpression, hlabel⟩ := FieldDraft.setLabel_open isOpen kind label
    cases set.symm.trans he
    refine ⟨hexpression ▸ hc.expression_concat _, fun _ k => ?_⟩
    rw [lastSet_concat hc.lt, hlabel, Action.label?]
    by_cases hk : k = kind
    · simp [hk]
    · simp [hk, Ne.symm hk, hc.label isOpen]
  | @frozen _ c _ found isOpen checked =>
    cases hx
    refine ⟨(h c found).expression_concat a, fun hopen => ?_⟩
    cases hopen

theorem run_reflects (actions : List Action) :
    ((run actions).finalized = false → (run actions).fields.length = (added actions).length) ∧
      ∀ i b, (run actions).fields[i]? = some b → Reflects actions i b := by
  induction actions using List.reverseRecOn with
  | nil => exact ⟨fun _ => rfl, fun i b hb => by simp [run] at hb⟩
  | append_singleton actions a ih =>
    obtain ⟨hlength, hfields⟩ := ih
    have hc := (run_reachable actions).coherent
    rw [run_concat]
    constructor
    · intro hopen
      have hbefore : (run actions).finalized = false := by
        cases hf : (run actions).finalized with
        | false => rfl
        | true => simp [(finalized_perform hc a).mpr (.inl hf)] at hopen
      rw [length_perform hc hbefore, hlength hbefore, added_append, List.length_append]
    · intro i b hb
      have he := perform_effect hc a i
      rw [hb] at he
      exact he.reflects hlength (hfields i)

/-- Nothing is done to a frozen field. -/
theorem perform_frozen {d : Draft} (hc : d.Coherent) (a : Action) {i : Nat} {b : FieldDraft}
    {l : Labeled} (hb : d.fields[i]? = some b) (hl : b.frozen = some l) :
    (d.perform a).fields[i]? = some b := by
  have he := perform_effect hc a i
  generalize (d.perform a).fields[i]? = x at he
  cases he with
  | kept unset => exact hb
  | appended isOpen next =>
    subst next
    simp at hb
  | labelled found isOpen set =>
    cases hb.symm.trans found
    simp [hl] at isOpen
  | frozen cause found isOpen checked =>
    cases hb.symm.trans found
    simp [hl] at isOpen

theorem run_frozen (earlier later : List Action) {i : Nat} {b : FieldDraft} {l : Labeled}
    (hb : (run earlier).fields[i]? = some b) (hl : b.frozen = some l) :
    (run (earlier ++ later)).fields[i]? = some b := by
  induction later using List.reverseRecOn with
  | nil => rwa [List.append_nil]
  | append_singleton later a ih =>
    rw [← List.append_assoc, run_concat]
    exact perform_frozen (run_reachable _).coherent a ih hl

/-- A field that an action freezes was ready, and is frozen with the labels that it had. -/
theorem perform_freezes {d : Draft} (hc : d.Coherent) {a : Action} {i : Nat} {l : Labeled}
    (hopen : d.frozenAt i = none) (hl : (d.perform a).frozenAt i = some l) :
    ∃ b, d.fields[i]? = some b ∧ b.frozen = none ∧ b.check = .ok () ∧ l = b.labeled ∧
      (d.perform a).fields[i]? = some b.freeze ∧
      (a = .freeze i ∨ a = .finalize ∧ d.Finalizes) := by
  have he := perform_effect hc a i
  unfold frozenAt at hopen hl
  generalize (d.perform a).fields[i]? = x at he hl
  cases he with
  | kept unset => simp [hopen] at hl
  | appended isOpen next => cases hl
  | labelled found isOpen set =>
    obtain ⟨_, hc⟩ := FieldDraft.frozen_setLabel set
    simp [hc] at hl
  | @frozen _ b cause found isOpen checked =>
    cases hl
    exact ⟨b, found, isOpen, checked, rfl, rfl, cause⟩

/-- In a finalized draft every field is frozen. -/
def Sealed (d : Draft) : Prop := d.finalized = true → ∀ b ∈ d.fields, ∃ l, b.frozen = some l

theorem Sealed.step {d next : Draft} (hc : d.Coherent) (h : d.Sealed) (hs : Step d next) :
    next.Sealed := by
  intro hf
  cases hs with
  | add ha =>
    unfold Draft.add at ha
    split at ha
    · cases ha
    · rename_i hopen
      cases ha
      exact absurd hf hopen
  | setLabel found hset =>
    obtain ⟨l, hl⟩ := h hf _ (List.mem_of_getElem? found)
    simp [(FieldDraft.frozen_setLabel hset).1] at hl
  | freeze found hfreeze =>
    obtain ⟨l, hl⟩ := h hf _ (List.mem_of_getElem? found)
    obtain ⟨rfl, rfl⟩ : _ = _ ∧ _ = _ := by
      simpa [FieldDraft.finalize_frozen hl] using hfreeze
    intro c hc
    rcases List.mem_or_eq_of_mem_set hc with hm | rfl
    · exact h hf c hm
    · exact ⟨_, hl⟩
  | finalize hfinalize =>
    obtain ⟨fs, _, heq⟩ := finalize_ready hc (ready_of_finalize hfinalize)
    cases hfinalize.symm.trans heq
    intro b hb
    obtain ⟨c, _, rfl⟩ := List.mem_map.mp hb
    exact ⟨c.labeled, rfl⟩

theorem Reachable.sealed {d : Draft} (h : d.Reachable) : d.Sealed := by
  induction h with
  | refl =>
    intro hf
    cases hf
  | tail h hs ih => exact ih.step (Reachable.coherent h) hs

/-- Nothing is done to a finalized draft. -/
theorem perform_finalized {d : Draft} (hs : d.Sealed) (hf : d.finalized = true) (a : Action) :
    d.perform a = d := by
  cases a with
  | add p => simp [perform, Draft.add, hf]
  | setLabel i kind label =>
    refine onField_eq_self fun b hb => ?_
    obtain ⟨l, hl⟩ := hs hf b hb
    exact FieldDraft.tried_setLabel_frozen hl kind label
  | freeze i =>
    refine onField_eq_self fun b hb => ?_
    obtain ⟨l, hl⟩ := hs hf b hb
    exact FieldDraft.tried_finalize_frozen hl
  | finalize => simp [perform, attempt, hf]

theorem refuses_finalized {d : Draft} (hs : d.Sealed) (hf : d.finalized = true) :
    (∀ p, d.add p = .error .finalized) ∧
      (∀ b ∈ d.fields, ∀ kind label, b.setLabel kind label = .error .finalized) ∧
      d.attempt = (d, .error .finalized) := by
  refine ⟨fun p => by simp [Draft.add, hf], ?_, by simp [attempt, hf]⟩
  intro b hb kind label
  obtain ⟨l, hl⟩ := hs hf b hb
  exact FieldDraft.setLabel_frozen hl kind label

theorem run_finalized (earlier later : List Action) (hf : (run earlier).finalized = true) :
    run (earlier ++ later) = run earlier := by
  induction later using List.reverseRecOn with
  | nil => rw [List.append_nil]
  | append_singleton later a ih =>
    rw [← List.append_assoc, run_concat, ih]
    exact perform_finalized (run_reachable earlier).sealed hf a

theorem entry_of_attempt {d : Draft} (hc : d.Coherent) {p : Projection}
    (hp : d.attempt.2 = .ok p) {i : Nat} {b : FieldDraft} (hb : d.fields[i]? = some b) :
    p.fields[i]? = some b.labeled := by
  obtain ⟨fs, _, heq⟩ := attempt_ready hc ((finalizes_iff hc).mp ⟨p, hp⟩)
  rw [heq] at hp
  cases hp
  simp [hb]

/-- A label, or another one if it is empty. -/
def labelOr (label other : Text) : Text := if label = [] then other else label

/-- The labelled expression that actions give for the field at a place. Its labels are those set
last; without a display label it has the serialization label in its place, and without a projected
label the display label. -/
structure LabelledBy (actions : List Action) (i : Nat) (l : Labeled) : Prop where
  expression : (added actions)[i]? = some l.expression
  serialization : l.serialization = lastSet i .serialization actions
  nonempty : l.serialization ≠ []
  display : l.display = labelOr (lastSet i .display actions) l.serialization
  projected : l.projected = labelOr (lastSet i .projected actions) l.display

theorem Reflects.labelledBy {actions : List Action} {i : Nat} {b : FieldDraft}
    (h : Reflects actions i b) (hopen : b.frozen = none) (hcheck : b.check = .ok ()) :
    LabelledBy actions i b.labeled where
  expression := h.expression
  serialization := h.label hopen .serialization
  nonempty := (FieldDraft.check_ok_iff.mp hcheck).2
  display := by
    rw [← h.label hopen .display]
    simp [FieldDraft.labeled, FieldDraft.label, labelOr]
  projected := by
    rw [← h.label hopen .projected]
    simp [FieldDraft.labeled, FieldDraft.label, labelOr]

/-- An action that freezes a field does so with the labels set last before it. Whatever is done
then, labels cannot be set on the field, freezing it gives the same again, and a projection has the
same as its entry. After a draft was finalized nothing can be done to it. -/
theorem frozen_for_good (before : List Action) (a : Action) (later : List Action) :
    let d := run (before ++ a :: later)
    (∀ i l, (run before).frozenAt i = none → (run (before ++ [a])).frozenAt i = some l →
      LabelledBy before i l ∧
      (a = .freeze i ∧ (∃ b c, (run before).fields[i]? = some b ∧ b.finalize = .ok (c, l)) ∨
        a = .finalize ∧ ∃ p, (run before).attempt.2 = .ok p ∧ p.fields[i]? = some l) ∧
      (∃ b, d.fields[i]? = some b ∧ (∀ kind label, b.setLabel kind label = .error .finalized) ∧
        b.finalize = .ok (b, l)) ∧
      ∀ p, d.attempt.2 = .ok p → p.fields[i]? = some l) ∧
    (a = .finalize → (run before).Finalizes →
      d = run (before ++ [a]) ∧ (∀ p, d.add p = .error .finalized) ∧
      (∀ b ∈ d.fields, ∀ kind label, b.setLabel kind label = .error .finalized) ∧
      d.attempt = (d, .error .finalized)) := by
  intro d
  have hd : d = run ((before ++ [a]) ++ later) := by simp [d]
  have hc : (run before).Coherent := (run_reachable before).coherent
  constructor
  · intro i l hopen hl
    rw [run_concat] at hl
    obtain ⟨b, hb, hbopen, hcheck, rfl, hfrozen, hcause⟩ := perform_freezes hc hopen hl
    rw [← run_concat] at hfrozen
    have hafter : d.fields[i]? = some b.freeze := by
      rw [hd]
      exact run_frozen _ later hfrozen rfl
    refine ⟨((run_reflects before).2 i b hb).labelledBy hbopen hcheck, ?_, ?_, ?_⟩
    · rcases hcause with ha | ⟨ha, p, hp⟩
      · exact .inl ⟨ha, b, b.freeze, hb, FieldDraft.finalize_open hbopen hcheck⟩
      · exact .inr ⟨ha, p, hp, entry_of_attempt hc hp hb⟩
    · exact ⟨b.freeze, hafter, FieldDraft.setLabel_frozen rfl, FieldDraft.finalize_frozen rfl⟩
    · intro p hp
      have hentry : p.fields[i]? = some b.freeze.labeled :=
        entry_of_attempt (run_reachable _).coherent hp hafter
      exact hentry
  · intro ha hf
    have hfinalized : (run (before ++ [a])).finalized = true := by
      rw [run_concat]
      exact (finalized_perform hc a).mpr (.inr ⟨ha, hf⟩)
    have hsame : d = run (before ++ [a]) := by
      rw [hd]
      exact run_finalized _ later hfinalized
    rw [hsame]
    exact ⟨rfl, refuses_finalized (run_reachable _).sealed hfinalized⟩

def one : Plan := .constant (.int 1) (some (.scalar .int))

/-- Two fields are added, and finalizing fails because the second one has no label yet. -/
def refusedActions : List Action :=
  [.add one, .setLabel 0 .serialization (utf8 "a"), .add one, .setLabel 0 .display (utf8 "b"),
    .finalize, .setLabel 0 .serialization (utf8 "c")]

/-- A label for the first field, which is refused if that is frozen, and one for the second. -/
def labelActions : List Action :=
  [.setLabel 0 .display (utf8 "d"), .setLabel 1 .serialization (utf8 "e")]

/-- The first field is frozen by itself, the second with the draft. -/
theorem frozen_for_good_apart :
    let l : Labeled := ⟨one, utf8 "b", utf8 "c", utf8 "b"⟩
    let d := run (refusedActions ++ .freeze 0 :: labelActions)
    ((run refusedActions).frozenAt 0 = none ∧
      (run (refusedActions ++ [.freeze 0])).frozenAt 0 = some l ∧
      LabelledBy refusedActions 0 l ∧ d.Finalizes ∧
      ∀ p, d.attempt.2 = .ok p → p.fields[0]? = some l) ∧
    ∀ later, run (refusedActions ++ .freeze 0 :: labelActions ++ .finalize :: later) =
      d.attempt.1 := by
  intro l d
  have hopen : (run refusedActions).frozenAt 0 = none := rfl
  have hl : (run (refusedActions ++ [.freeze 0])).frozenAt 0 = some l := rfl
  have hfinalizes : d.Finalizes := exists_of_isOk rfl
  obtain ⟨hlabels, _, _, hentry⟩ :=
    (frozen_for_good refusedActions (.freeze 0) labelActions).1 0 l hopen hl
  refine ⟨⟨hopen, hl, hlabels, hfinalizes, hentry⟩, fun later => ?_⟩
  have hlast := frozen_for_good (refusedActions ++ .freeze 0 :: labelActions) .finalize later
  rw [(hlast.2 rfl hfinalizes).1, run_concat]
  rfl

end Draft

end TypedStream
