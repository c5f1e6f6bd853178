import TypedStream.DataType.Construction
import TypedStream.Proofs.Interner
import TypedStream.Proofs.Registry.Choice

namespace TypedStream

namespace Kind

theorem mem_all (k : Kind) : k ∈ all := by
  cases k with
  | scalar s => cases s <;> decide
  | _ => decide

theorem eq_of_begins {k l : Kind} (h : k.name <+: l.name) : k = l := by
  have hall : ∀ k ∈ all, ∀ l ∈ all, k.name <+: l.name → k = l := by decide +kernel
  exact hall k k.mem_all l l.mem_all h

theorem name_append_inj {k l : Kind} {r r' : Text} (h : k.name ++ r = l.name ++ r') :
    k = l ∧ r = r' := by
  have hkind : k = l := by
    rcases List.append_eq_append_iff.mp h with ⟨more, hmore, _⟩ | ⟨more, hmore, _⟩
    · exact eq_of_begins ⟨more, hmore.symm⟩
    · exact (eq_of_begins ⟨more, hmore.symm⟩).symm
  subst hkind
  exact ⟨rfl, List.append_cancel_left h⟩

/-- A kind's name holds no blank (32), and begins neither with a closing bracket (41) nor like a
missing type (60). -/
theorem name_letters (k : Kind) :
    32 ∉ k.name ∧ ∃ b rest, k.name = b :: rest ∧ b ≠ 41 ∧ b ≠ 60 := by
  have hall : ∀ k ∈ all, 32 ∉ k.name ∧ ∃ b, k.name.head? = some b ∧ b ≠ 41 ∧ b ≠ 60 := by
    decide +kernel
  obtain ⟨hblank, b, hb, hne⟩ := hall k k.mem_all
  obtain ⟨rest, hrest⟩ := List.head?_eq_some_iff.mp hb
  exact ⟨hblank, b, rest, hrest, hne⟩

end Kind

namespace Text

/-- What follows the first of several parts. -/
def closing : List Text → Text
  | [] => utf8 ")"
  | part :: parts => utf8 ", " ++ part ++ closing parts

theorem join_closing (part : Text) (parts : List Text) :
    join (utf8 ", ") (part :: parts) ++ utf8 ")" = part ++ closing parts := by
  induction parts generalizing part with
  | nil => rfl
  | cons next parts ih =>
    rw [join, List.append_assoc, ih, closing]
    simp only [List.append_assoc]

theorem tuple_cons (part : Text) (parts : List Text) :
    tuple (part :: parts) = utf8 "(" ++ (part ++ closing parts) := by
  rw [tuple, List.append_assoc, join_closing]

/-- Begins with the closing bracket or the comma (41 or 44) that ends a part. -/
def Ended (r : Text) : Prop := ∃ m rest, r = m :: rest ∧ (m = 41 ∨ m = 44)

theorem ended_closing (parts : List Text) (r : Text) : Ended (closing parts ++ r) := by
  cases parts with
  | nil => exact ⟨41, r, rfl, .inl rfl⟩
  | cons part parts => exact ⟨44, _, rfl, .inr rfl⟩

/-- Where a part ends, the text tells which of the two it is. -/
def Separate {α : Type} (write : α → Text) (p q : α) : Prop :=
  ∀ ⦃r r'⦄, Ended r → Ended r' → write p ++ r = write q ++ r' → p = q ∧ r = r'

section Tuple

variable {α : Type} {write : α → Text} {ps qs : List α} {r r' : Text}

theorem closing_append_inj (hsep : ∀ p q, (p, q) ∈ ps.zip qs → Separate write p q)
    (h : closing (ps.map write) ++ r = closing (qs.map write) ++ r') : ps = qs ∧ r = r' := by
  induction ps generalizing qs with
  | nil =>
    cases qs with
    | nil => exact ⟨rfl, List.append_cancel_left h⟩
    | cons q qs => cases (List.cons.inj h).1
  | cons p ps ih =>
    cases qs with
    | nil => cases (List.cons.inj h).1
    | cons q qs =>
      simp only [List.map_cons, closing, List.append_assoc] at h
      obtain ⟨rfl, hrest⟩ := hsep p q List.mem_cons_self (ended_closing _ _) (ended_closing _ _)
        (List.append_cancel_left h)
      obtain ⟨rfl, hr⟩ := ih (fun p q hpq => hsep p q (List.mem_cons_of_mem _ hpq)) hrest
      exact ⟨rfl, hr⟩

/-- A tuple ends in one place only if its parts are told apart and none begins with a closing
bracket, as what follows the opening one in an empty tuple does. -/
theorem tuple_append_inj (hopen : ∀ p, p ∈ ps ∨ p ∈ qs → ∀ r, (write p ++ r).head? ≠ some 41)
    (hsep : ∀ p q, (p, q) ∈ ps.zip qs → Separate write p q)
    (h : tuple (ps.map write) ++ r = tuple (qs.map write) ++ r') : ps = qs ∧ r = r' := by
  cases ps with
  | nil =>
    cases qs with
    | nil => exact ⟨rfl, List.append_cancel_left h⟩
    | cons q qs =>
      rw [List.map_cons, tuple_cons, List.append_assoc, List.append_assoc] at h
      have hfirst := congrArg List.head? (List.cons.inj h).2
      exact absurd hfirst.symm (hopen q (.inr List.mem_cons_self) _)
  | cons p ps =>
    cases qs with
    | nil =>
      rw [List.map_cons, tuple_cons, List.append_assoc, List.append_assoc] at h
      have hfirst := congrArg List.head? (List.cons.inj h).2
      exact absurd hfirst (hopen p (.inl List.mem_cons_self) _)
    | cons q qs =>
      -- with a comma in the place of the bracket this is the end of a longer tuple
      apply closing_append_inj hsep
      simp only [List.map_cons, tuple_cons, closing, List.append_assoc] at h ⊢
      rw [List.append_cancel_left h]

end Tuple

end Text

namespace DataType

/-- What stands after the kind's name in the text of a type. -/
def rest : DataType → Text
  | scalar _ => []
  | nullable s => utf8 "(" ++ (Kind.scalar s).name ++ utf8 ")"
  | nullableAny => utf8 "(" ++ Kind.any.name ++ utf8 ")"
  | record fs => Text.tuple (fieldTexts fs)
  | function r ps => Text.tuple (allTexts ps) ++ utf8 " " ++ textMissing r

theorem text_eq (t : DataType) : t.text = t.kind.name ++ t.rest := by
  cases t with
  | scalar s => rw [text, rest, List.append_nil]; rfl
  | nullable s => rw [text, rest]; rfl
  | nullableAny => rfl
  | record fs => rw [text, rest]; rfl
  | function r ps => rw [text, rest, List.append_assoc, List.append_assoc, List.append_assoc]; rfl

theorem fieldTexts_eq (fs : List (Text × DataType)) :
    fieldTexts fs = fs.map fun f => f.1 ++ utf8 " " ++ f.2.text := by
  induction fs with
  | nil => rfl
  | cons f fs ih => rw [fieldTexts, ih, List.map_cons]

theorem allTexts_eq (ts : List (Option DataType)) : allTexts ts = ts.map textMissing := by
  induction ts with
  | nil => rfl
  | cons t ts ih => rw [allTexts, ih, List.map_cons]

theorem text_marked (t : DataType) {r : Text} (hr : Text.Ended r) :
    ∃ m ∈ utf8 "(,)", ∃ more, t.text ++ r = t.kind.name ++ [m] ++ more := by
  rw [text_eq, List.append_assoc]
  cases t with
  | scalar s =>
    obtain ⟨m, more, rfl, rfl | rfl⟩ := hr
    · exact ⟨41, by decide, more, by simp [rest]⟩
    · exact ⟨44, by decide, more, by simp [rest]⟩
  | _ => exact ⟨40, by decide, _, by rw [List.append_assoc]; rfl⟩

theorem bracketed_append_inj {k l : Kind} {r r' : Text}
    (h : utf8 "(" ++ k.name ++ utf8 ")" ++ r = utf8 "(" ++ l.name ++ utf8 ")" ++ r') :
    k = l ∧ r = r' := by
  simp only [List.append_assoc] at h
  obtain ⟨hk, hr⟩ := Kind.name_append_inj (List.append_cancel_left h)
  exact ⟨hk, List.append_cancel_left hr⟩

theorem text_append_cases {t u : DataType} {r r' : Text} (h : t.text ++ r = u.text ++ r') :
    t.kind = u.kind ∧ t.rest ++ r = u.rest ++ r' := by
  rw [text_eq, text_eq, List.append_assoc, List.append_assoc] at h
  exact Kind.name_append_inj h

/-- The text of a scalar, or of its nullable version, is that of no other type. -/
theorem text_append_inj_of_primitive {t u : DataType} {r r' : Text} (ht : t.isPrimitive = true)
    (h : t.text ++ r = u.text ++ r') : t = u ∧ r = r' := by
  obtain ⟨hk, hrest⟩ := text_append_cases h
  cases t with
  | scalar s =>
    cases u with
    | scalar s' =>
      cases hk
      exact ⟨rfl, hrest⟩
    | _ => cases hk
  | nullable s =>
    cases u with
    | nullable s' =>
      obtain ⟨hinner, hr⟩ := bracketed_append_inj hrest
      cases hinner
      exact ⟨rfl, hr⟩
    | nullableAny => cases (bracketed_append_inj hrest).1
    | _ => cases hk
  | nullableAny =>
    cases u with
    | nullable s' => cases (bracketed_append_inj hrest).1
    | nullableAny => exact ⟨rfl, (bracketed_append_inj hrest).2⟩
    | _ => cases hk
  | record fs => cases ht
  | function q ps => cases ht

/-- Does not look like part of a type: there is no closing bracket (41) in front, and nowhere a
blank, the name of a kind and a mark. -/
def LegibleName (name : Text) : Prop :=
  name.head? ≠ some 41 ∧
    ∀ k ∈ Kind.all, ∀ m ∈ utf8 "(,)", ¬ utf8 " " ++ (k.name ++ [m]) <:+: name

instance : DecidablePred LegibleName := fun _ => inferInstanceAs (Decidable (_ ∧ _))

/-- All names of fields are legible, at any depth. -/
def Legible (t : DataType) : Prop := ∀ c, Within c t → ∀ f ∈ c.fields, LegibleName f.1

theorem Legible.names {fs : List (Text × DataType)} (h : (record fs).Legible) :
    ∀ f ∈ fs, LegibleName f.1 :=
  h (record fs) .refl

theorem Legible.component {c t : DataType} (h : t.Legible) (hc : some c ∈ t.components) :
    c.Legible :=
  fun d hd => h d (hd.tail hc)

theorem legible_iff {t : DataType} : t.Legible ↔
    (∀ f ∈ t.fields, LegibleName f.1) ∧ ∀ c, some c ∈ t.components → c.Legible := by
  constructor
  · exact fun h => ⟨h t .refl, fun c => h.component⟩
  · rintro ⟨hnames, hcomponents⟩ c hc
    rcases Relation.ReflTransGen.cases_tail hc with rfl | ⟨d, hd, hdt⟩
    · exact hnames
    · exact hcomponents d hdt c hd

theorem legible_of_isPrimitive {t : DataType} (h : t.isPrimitive = true) : t.Legible := by
  apply legible_iff.mpr
  cases t with
  | record fs | function r ps => cases h
  | _ => exact ⟨nofun, nofun⟩

/-- A legible name goes on up to the type: what would follow a shorter one looks like a type. -/
theorem LegibleName.no_longer {name more : Text} {t : DataType} {r r' : Text}
    (hlegible : LegibleName (name ++ more)) (hr : Text.Ended r)
    (h : utf8 " " ++ (t.text ++ r) = more ++ (utf8 " " ++ r')) : more = [] := by
  cases more with
  | nil => rfl
  | cons b more =>
    obtain ⟨rfl, htype⟩ := List.cons.inj h
    obtain ⟨m, hm, behind, hmarked⟩ := t.text_marked hr
    have hword : t.kind.name ++ [m] ++ behind = more ++ (utf8 " " ++ r') := hmarked.symm.trans htype
    -- neither the name of a kind nor a mark has a blank in it
    have hblank : 32 ∉ t.kind.name ++ [m] := by
      simp only [List.mem_append, List.mem_singleton, not_or]
      refine ⟨t.kind.name_letters.1, ?_⟩
      rintro rfl
      exact absurd hm (by decide)
    have hbegins : t.kind.name ++ [m] <+: more := by
      rcases List.append_eq_append_iff.mp hword with ⟨_, hmore, _⟩ | ⟨between, hmore, hbetween⟩
      · exact ⟨_, hmore.symm⟩
      · cases between with
        | nil => exact ⟨[], by rw [hmore, List.append_nil, List.append_nil]⟩
        | cons b between =>
          obtain ⟨rfl, _⟩ := List.cons.inj hbetween
          exact absurd (hmore ▸ List.mem_append_right _ List.mem_cons_self) hblank
    obtain ⟨last, hlast⟩ := hbegins
    refine absurd ?_ (hlegible.2 _ t.kind.mem_all m hm)
    exact ⟨name, last, by rw [← hlast]; simp only [List.append_assoc]; rfl⟩

theorem LegibleName.field_open {name : Text} (h : LegibleName name) (t : DataType) (r : Text) :
    (name ++ utf8 " " ++ t.text ++ r).head? ≠ some 41 := by
  cases name with
  | nil => exact fun h => nomatch h
  | cons b name => exact h.1

theorem field_separate {f g : Text × DataType} (hf : LegibleName f.1) (hg : LegibleName g.1)
    (h : Text.Separate text f.2 g.2) :
    Text.Separate (fun f : Text × DataType => f.1 ++ utf8 " " ++ f.2.text) f g := by
  obtain ⟨n, t⟩ := f
  obtain ⟨m, u⟩ := g
  intro r r' hr hr' heq
  simp only [List.append_assoc] at heq
  have hname : n = m := by
    rcases List.append_eq_append_iff.mp heq with ⟨more, rfl, hrest⟩ | ⟨more, rfl, hrest⟩
    · rw [hg.no_longer hr hrest, List.append_nil]
    · rw [hf.no_longer hr' hrest, List.append_nil]
  subst hname
  obtain ⟨rfl, hends⟩ := h hr hr' (List.append_cancel_left (List.append_cancel_left heq))
  exact ⟨rfl, hends⟩

theorem textMissing_open (t : Option DataType) (r : Text) :
    (textMissing t ++ r).head? ≠ some 41 := by
  cases t with
  | none => exact fun h => nomatch h
  | some t =>
    obtain ⟨_, b, rest, hname, hb, _⟩ := t.kind.name_letters
    rw [textMissing, text_eq, hname]
    exact fun h => hb (Option.some.inj h)

theorem textMissing_separate {s t : Option DataType}
    (h : ∀ c d, s = some c → t = some d → Text.Separate text c d) :
    Text.Separate textMissing s t := by
  intro r r' hr hr' heq
  cases s with
  | none =>
    cases t with
    | none => exact ⟨rfl, List.append_cancel_left heq⟩
    | some d =>
      obtain ⟨_, b, rest, hname, _, hb⟩ := d.kind.name_letters
      rw [textMissing, textMissing, text_eq, hname] at heq
      exact absurd (List.cons.inj heq).1.symm hb
  | some c =>
    cases t with
    | none =>
      obtain ⟨_, b, rest, hname, _, hb⟩ := c.kind.name_letters
      rw [textMissing, textMissing, text_eq, hname] at heq
      exact absurd (List.cons.inj heq).1 hb
    | some d =>
      obtain ⟨rfl, hends⟩ := h c d rfl rfl hr hr' heq
      exact ⟨rfl, hends⟩

/-- Legible types are told apart by their texts. -/
theorem text_separate (t : DataType) :
    ∀ u : DataType, t.Legible → u.Legible → Text.Separate text t u := by
  induction t using componentInduction with
  | step t ih =>
    intro u ht hu r r' hr hr' h
    by_cases hprimitive : t.isPrimitive = true
    · exact text_append_inj_of_primitive hprimitive h
    obtain ⟨hk, hrest⟩ := text_append_cases h
    cases t with
    | record fs =>
      cases u with
      | record gs =>
        rw [rest, rest, fieldTexts_eq, fieldTexts_eq] at hrest
        have hnames : ∀ f, f ∈ fs ∨ f ∈ gs → LegibleName f.1 :=
          fun f hf => hf.elim (ht.names f) (hu.names f)
        have hsep : ∀ f g, (f, g) ∈ fs.zip gs → Text.Separate text f.2 g.2 := by
          intro f g hfg
          have hf := mem_components_of_field (List.of_mem_zip hfg).1
          have hg := mem_components_of_field (List.of_mem_zip hfg).2
          exact ih f.2 hf g.2 (ht.component hf) (hu.component hg)
        obtain ⟨rfl, hends⟩ := Text.tuple_append_inj (fun f hf => (hnames f hf).field_open f.2)
          (fun f g hfg => field_separate (hnames f (.inl (List.of_mem_zip hfg).1))
            (hnames g (.inr (List.of_mem_zip hfg).2)) (hsep f g hfg)) hrest
        exact ⟨rfl, hends⟩
      | _ => cases hk
    | function q ps =>
      cases u with
      | function q' ps' =>
        have hsep : ∀ s s', s ∈ q :: ps → s' ∈ q' :: ps' → Text.Separate textMissing s s' := by
          intro s s' hs hs'
          apply textMissing_separate
          rintro c d rfl rfl
          exact ih c hs d (ht.component hs) (hu.component hs')
        simp only [rest, allTexts_eq, List.append_assoc] at hrest
        obtain ⟨rfl, hresult⟩ := Text.tuple_append_inj (fun p _ => textMissing_open p)
          (fun p p' hp => hsep p p' (List.mem_cons_of_mem _ (List.of_mem_zip hp).1)
            (List.mem_cons_of_mem _ (List.of_mem_zip hp).2)) hrest
        obtain ⟨rfl, hends⟩ := hsep q q' List.mem_cons_self List.mem_cons_self hr hr'
          (List.append_cancel_left hresult)
        exact ⟨rfl, hends⟩
      | _ => cases hk
    | _ => exact absurd rfl hprimitive

theorem listText_inj {ss ts : List (Option DataType)}
    (hsep : ∀ s t, (s, t) ∈ ss.zip ts → Text.Separate textMissing s t)
    (h : listText ss = listText ts) : ss = ts := by
  rw [listText, listText, allTexts_eq, allTexts_eq] at h
  exact (Text.tuple_append_inj (fun t _ => textMissing_open t) hsep (congrArg (· ++ []) h)).1

theorem listText_inj_of_legible {ts us : List DataType} (hts : ∀ t ∈ ts, t.Legible)
    (hus : ∀ u ∈ us, u.Legible) (h : listText (ts.map some) = listText (us.map some)) :
    ts = us := by
  apply List.map_injective_iff.mpr (Option.some_injective _)
  apply listText_inj ?_ h
  intro s t hst
  apply textMissing_separate
  rintro c d rfl rfl
  obtain ⟨hc, hd⟩ := List.of_mem_zip hst
  simp only [List.mem_map, Option.some.injEq, exists_eq_right] at hc hd
  exact text_separate c d (hts c hc) (hus d hd)

/-- A type never promotes to another one with the same text, whatever the names. -/
theorem text_separate_of_promotesTo {s t : DataType} (h : s.promotesTo t = true) :
    Text.Separate text s t := by
  intro r r' _ _ heq
  by_cases hs : s.isPrimitive = true
  · exact text_append_inj_of_primitive hs heq
  · have hst : s = t := by
      cases s with
      | record fs => exact (equals_iff _ _).mp h
      | function q ps => exact (equals_iff _ _).mp h
      | _ => exact absurd rfl hs
    subst hst
    exact ⟨rfl, List.append_cancel_left heq⟩

end DataType

namespace Registry

open DataType

/-- The same binding, or a failure on both sides. -/
def SameAnswer (x y : Except Failure Binding) : Prop := x.toOption = y.toOption

/-- A function for arguments of these types that is not strict. -/
def probe (ts : List DataType) : ScalarFunction where
  result := some (.scalar .int)
  parameters := ts.map some
  strict := false
  description := utf8 "Returns zero."
  body := fun _ => .ok (.int 0)

theorem probe_typed (ts : List DataType) : (probe ts).Typed := ⟨rfl, by simp [probe]⟩

theorem overloads_probe (name : Text) (ts : List DataType) :
    (empty.registerEach [(name, probe ts)]).1.overloads name = [probe ts] := by
  simp [registerEach, register, empty, overloads]

/-- What a function that is not strict accepts promotes to the types of its parameters. -/
theorem takes_of_resolve_probe {name : Text} {ts : List DataType}
    {arguments : List (Option DataType)}
    {b : Binding} (h : (empty.registerEach [(name, probe ts)]).1.resolve name arguments = .ok b) :
    List.Forall₂ Takes arguments (ts.map some) := by
  rcases resolve_cases h with ⟨f, hf, rfl⟩ | ⟨bare, f, r, t, _, _, hf, _, _, rfl⟩
  · rw [overloads_probe, bestOverload_eq_some_iff (by simp [probe_typed])] at hf
    obtain ⟨hmem, haccepts⟩ := hf.accepts
    cases List.mem_singleton.mp hmem
    exact haccepts
  · rw [overloads_probe] at hf
    cases hf

theorem eq_of_takes {ts us : List DataType}
    (htakes : List.Forall₂ Takes (us.map some) (ts.map some))
    (h : listText (us.map some) = listText (ts.map some)) : us = ts := by
  apply List.map_injective_iff.mpr (Option.some_injective _)
  apply listText_inj ?_ h
  intro u t hut
  apply textMissing_separate
  rintro c d rfl rfl
  obtain ⟨_, hd, hpromotes⟩ := (List.forall₂_iff_zip.mp htakes).2 hut c rfl
  cases hd
  exact text_separate_of_promotesTo hpromotes

/-- Let two lists of argument types have one text. If all names of fields in them are legible, every
registry gives both the same answer for every function. If the lists differ, registering one
function is enough for the answers to differ. -/
theorem resolve_of_listText {ts us : List DataType}
    (h : listText (ts.map some) = listText (us.map some)) :
    ((∀ t ∈ ts, t.Legible) → (∀ u ∈ us, u.Legible) → ∀ (registry : Registry) (name : Text),
      registry.resolve name (ts.map some) = registry.resolve name (us.map some)) ∧
    (ts ≠ us → ∃ f : ScalarFunction, f.Typed ∧ ∀ name,
      let registry := (empty.registerEach [(name, f)]).1
      ¬ SameAnswer (registry.resolve name (ts.map some))
        (registry.resolve name (us.map some))) := by
  constructor
  · intro hts hus registry name
    rw [listText_inj_of_legible hts hus h]
  · intro hne
    refine ⟨probe ts, probe_typed ts, ?_⟩
    intro name registry hsame
    have hexact : registry.resolve name (ts.map some) = .ok ⟨name, probe ts, _, false⟩ :=
      resolve_exact ((distinct_start (.inl rfl)).registerEach _)
        (by rw [overloads_probe]; exact List.mem_singleton_self _) rfl
    cases hother : registry.resolve name (us.map some) with
    | ok b => exact hne (eq_of_takes (takes_of_resolve_probe hother) h.symm).symm
    | error e =>
      rw [SameAnswer, hexact, hother] at hsame
      cases hsame

/-- Names with blanks and brackets may be legible. Three arguments have the text of a single record
with two names that are not. -/
theorem resolve_of_listText_arity :
    let priced := DataType.record [(utf8 "price (USD)", .nullable .double),
      (utf8 "of RECORD", .record [(utf8 "INT, x", .scalar .int)])]
    let three := [DataType.record [], .scalar .string, .record [(utf8 "a", .scalar .int)]]
    let one := [DataType.record [(utf8 "),", .scalar .string), (utf8 "RECORD(a", .scalar .int)]]
    priced.Legible ∧ (∀ (registry : Registry) (name : Text),
      registry.resolve name [some priced] = registry.resolve name [some priced]) ∧
    listText (three.map some) = listText (one.map some) ∧
    ∃ f : ScalarFunction, f.Typed ∧ ∀ name,
      let registry := (empty.registerEach [(name, f)]).1
      ¬ SameAnswer (registry.resolve name (three.map some))
        (registry.resolve name (one.map some)) := by
  intro priced three one
  have hint : (DataType.scalar .int).Legible := legible_of_isPrimitive rfl
  have hdouble : (DataType.nullable .double).Legible := legible_of_isPrimitive rfl
  have hinner : (DataType.record [(utf8 "INT, x", .scalar .int)]).Legible :=
    legible_iff.mpr ⟨by decide +kernel, by simp [components, hint]⟩
  have hlegible : priced.Legible :=
    legible_iff.mpr ⟨by decide +kernel, by simp [priced, components, hinner, hdouble]⟩
  have hpriced : ∀ t ∈ [priced], t.Legible := by simpa using hlegible
  have h : listText (three.map some) = listText (one.map some) := by with_unfolding_all rfl
  have hne : three ≠ one := by simp [three, one]
  exact ⟨hlegible, (resolve_of_listText rfl).1 hpriced hpriced, h, (resolve_of_listText h).2 hne⟩

/-- Two record types with one text, of which a function takes only one. -/
theorem one_text_two_answers :
    let pair := DataType.record [(utf8 "a", .scalar .int), (utf8 "b", .scalar .int)]
    let single := DataType.record [(utf8 "a INT, b", .scalar .int)]
    ofFields [(utf8 "a", some (.scalar .int)), (utf8 "b", some (.scalar .int))] = .ok pair ∧
    ofFields [(utf8 "a INT, b", some (.scalar .int))] = .ok single ∧
    listText [some pair] = listText [some single] ∧
    ∃ registry, empty.register (utf8 "f") (probe [pair]) = .ok registry ∧
      registry.resolve (utf8 "f") [some pair] =
        .ok ⟨utf8 "f", probe [pair], some (.scalar .int), false⟩ ∧
      registry.resolve (utf8 "f") [some single] =
        .error (.type (.noOverload (utf8 "f") [some single])) := by
  refine ⟨?_, ?_, ?_, _, rfl, ?_, ?_⟩ <;> with_unfolding_all rfl

end Registry
end TypedStream
