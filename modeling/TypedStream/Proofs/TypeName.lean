import TypedStream.DataType.Construction
import TypedStream.Proofs.Trim

namespace TypedStream

namespace Text

theorem dropFront_eq_some_iff {front text rest : Text} :
    dropFront front text = some rest ↔ text = front ++ rest := by
  induction front generalizing text with
  | nil => simp [dropFront]
  | cons a front ih =>
    cases text with
    | nil => simp [dropFront]
    | cons b text =>
      rw [dropFront, List.cons_append, List.cons.injEq]
      by_cases h : a = b
      · simp [h, ih]
      · simp [h, Ne.symm h]

end Text

theorem Scalar.ofName?_eq_some_iff {name : Text} {s : Scalar} :
    ofName? name = some s ↔ name = s.name := by
  constructor
  · intro h
    have hname := List.find?_some h
    exact (eq_of_beq hname).symm
  · intro h
    rw [h]
    cases s <;> decide

namespace DataType

open Text

theorem bracketed?_eq_some_iff {text inner : Text} :
    bracketed? text = some inner ↔ text = utf8 "(" ++ inner ++ utf8 ")" := by
  have hbrackets : utf8 "(" ++ inner ++ utf8 ")" = 40 :: (inner ++ [41]) := rfl
  rw [hbrackets]
  constructor
  · intro h
    unfold bracketed? at h
    split at h
    · obtain ⟨hlast, hinner⟩ := Option.ite_none_right_eq_some.mp h
      obtain ⟨front, rfl⟩ := List.getLast?_eq_some_iff.mp (eq_of_beq hlast)
      rw [← Option.some.inj hinner, List.dropLast_concat]
    · cases h
  · intro h
    rw [h, bracketed?, List.getLast?_concat, List.dropLast_concat]
    rfl

/-- What may stand between the brackets of a nullable type, and the type that it gives. -/
inductive InnerName : Text → DataType → Prop
  | any : InnerName (utf8 "ANY") nullableAny
  | scalar (s : Scalar) : InnerName s.name (nullable s)

theorem innerOfName?_eq_some_iff {name : Text} {t : DataType} :
    innerOfName? name = some t ↔ InnerName name t := by
  constructor
  · intro h
    unfold innerOfName? at h
    split at h
    · rename_i hname
      rw [eq_of_beq hname]
      cases h
      exact .any
    · obtain ⟨s, hs, rfl⟩ := Option.map_eq_some_iff.mp h
      rw [Scalar.ofName?_eq_some_iff.mp hs]
      exact .scalar s
  · intro h
    cases h with
    | any => rfl
    | scalar s => cases s <;> rfl

/-- A nullable type's name, with white space wherever it may stand. -/
def Bracketed (inner name : Text) : Prop :=
  ∃ w₁ w₂ w₃ w₄, IsBlank w₁ ∧ IsBlank w₂ ∧ IsBlank w₃ ∧ IsBlank w₄ ∧
    name = utf8 "NULLABLE" ++ w₁ ++ utf8 "(" ++ w₂ ++ inner ++ w₃ ++ utf8 ")" ++ w₄

theorem bracketed_of_trim {rest inner : Text} (h : bracketed? rest.trim = some inner) :
    Bracketed inner.trim (utf8 "NULLABLE" ++ rest) := by
  obtain ⟨w₁, w₄, hw₁, hw₄, hrest⟩ := eq_trim rest
  obtain ⟨w₂, w₃, hw₂, hw₃, hinner⟩ := eq_trim inner
  refine ⟨w₁, w₂, w₃, w₄, hw₁, hw₂, hw₃, hw₄, ?_⟩
  rw [bracketed?_eq_some_iff.mp h] at hrest
  rw [hrest]
  conv_lhs => rw [hinner]
  simp only [List.append_assoc]

theorem Bracketed.trim {inner name : Text} (h : Bracketed inner name) (hinner : IsTrimmed inner) :
    ∃ rest middle, name = utf8 "NULLABLE" ++ rest ∧ bracketed? rest.trim = some middle ∧
      middle.trim = inner := by
  obtain ⟨w₁, w₂, w₃, w₄, hw₁, hw₂, hw₃, hw₄, rfl⟩ := h
  refine ⟨w₁ ++ (utf8 "(" ++ (w₂ ++ inner ++ w₃) ++ utf8 ")") ++ w₄, w₂ ++ inner ++ w₃, ?_, ?_,
    trim_between hw₂ hinner hw₃⟩
  · simp only [List.append_assoc]
  · rw [trim_between hw₁ (isTrimmed_bracketed hw₂ hinner hw₃) hw₄, bracketed?_eq_some_iff]

/-- The names of types, in upper case. -/
inductive Named : Text → DataType → Prop
  | scalar (s : Scalar) : Named s.name (.scalar s)
  | nullable {inner name : Text} {t : DataType} (innerName : InnerName inner t)
    (bracketed : Bracketed inner name) : Named name t

theorem InnerName.isTrimmed {name : Text} {t : DataType} (h : InnerName name t) :
    IsTrimmed name := by
  have hletters : name.all (fun b => 33 ≤ b.toNat && b.toNat < 0x80) = true := by
    cases h with
    | any => rfl
    | scalar s => cases s <;> rfl
  have hne : name ≠ [] := by
    cases h with
    | any => exact List.cons_ne_nil _ _
    | scalar s => cases s <;> exact List.cons_ne_nil _ _
  exact isTrimmed_visible hne (by simpa using hletters)

/-- What has a name is read from it. -/
theorem parse_of_named {text name : Text} {t : DataType} (hname : text.trim.upper = name)
    (h : Named name t) : parse text = .ok t := by
  rw [parse, hname]
  cases h with
  | scalar s =>
    -- no scalar's name begins like that of a nullable type
    cases s <;> rfl
  | nullable innerName bracketed =>
    obtain ⟨rest, middle, hrest, hmiddle, hinner⟩ := bracketed.trim innerName.isTrimmed
    rw [dropFront_eq_some_iff.mpr hrest]
    simp only [hmiddle, hinner, innerOfName?_eq_some_iff.mpr innerName]

/-- What a text is refused for. Without the front of a nullable type its name is unknown; with it,
there have to be brackets, and a name in them. -/
inductive Complaint (text : Text) : TypeError → Prop
  | unknown (hfront : ¬ utf8 "NULLABLE" <+: text.trim.upper) : Complaint text (.unknownType text)
  | invalid (hfront : utf8 "NULLABLE" <+: text.trim.upper) : Complaint text (.invalidNullable text)
  | inner {inner : Text} (h : Bracketed inner text.trim.upper) :
    Complaint text (.unknownInnerType inner text)

theorem parse_cases (text : Text) :
    (∃ t, parse text = .ok t ∧ Named text.trim.upper t) ∨
    ∃ e, parse text = .error e ∧ Complaint text e := by
  cases hfront : dropFront (utf8 "NULLABLE") text.trim.upper with
  | none =>
    have hnot : ¬ utf8 "NULLABLE" <+: text.trim.upper := by
      intro h
      obtain ⟨rest, hrest⟩ := h
      rw [dropFront_eq_some_iff.mpr hrest.symm] at hfront
      cases hfront
    cases hs : Scalar.ofName? text.trim.upper with
    | none => exact .inr ⟨_, by simp only [parse, hfront, hs], .unknown hnot⟩
    | some s =>
      have hname := Scalar.ofName?_eq_some_iff.mp hs
      exact .inl ⟨.scalar s, by simp only [parse, hfront, hs], hname ▸ .scalar s⟩
  | some rest =>
    have hname := dropFront_eq_some_iff.mp hfront
    cases hinner : bracketed? rest.trim with
    | none => exact .inr ⟨_, by simp only [parse, hfront, hinner], .invalid ⟨rest, hname.symm⟩⟩
    | some inner =>
      have hbracketed : Bracketed inner.trim text.trim.upper := hname ▸ bracketed_of_trim hinner
      cases ht : innerOfName? inner.trim with
      | none => exact .inr ⟨_, by simp only [parse, hfront, hinner, ht], .inner hbracketed⟩
      | some t =>
        exact .inl ⟨t, by simp only [parse, hfront, hinner, ht],
          .nullable (innerOfName?_eq_some_iff.mp ht) hbracketed⟩

theorem text_letters {t : DataType} (h : t.isPrimitive = true) :
    t.text ≠ [] ∧ ∀ b ∈ t.text, 40 ≤ b.toNat ∧ b.toNat ≤ 90 := by
  have hletters : t.text.all (fun b => 40 ≤ b.toNat && b.toNat ≤ 90) = true := by
    cases t with
    | scalar s | nullable s => cases s <;> rfl
    | nullableAny => rfl
    | _ => cases h
  have hne : t.text ≠ [] := by
    cases t with
    | scalar s | nullable s => cases s <;> exact List.cons_ne_nil _ _
    | nullableAny => exact List.cons_ne_nil _ _
    | _ => cases h
  exact ⟨hne, by simpa using hletters⟩

/-- The text of a type is one of its names, without white space. -/
theorem named_text {t : DataType} (h : t.isPrimitive = true) : Named t.text t := by
  have hplain : ∀ inner, Bracketed inner (utf8 "NULLABLE(" ++ inner ++ utf8 ")") := by
    intro inner
    refine ⟨[], [], [], [], isBlank_nil, isBlank_nil, isBlank_nil, isBlank_nil, ?_⟩
    simp only [List.append_nil]
    rfl
  cases t with
  | scalar s => exact .scalar s
  | nullable s => exact .nullable (.scalar s) (hplain s.name)
  | nullableAny => exact .nullable .any (hplain (utf8 "ANY"))
  | _ => cases h

/-- The text of such a type in other letter case has nothing to trim, and is the text again in upper
case. -/
theorem upper_eq_text {t : DataType} (ht : t.isPrimitive = true) {s : Text}
    (hs : s.map capital = t.text.map capital) : IsTrimmed s ∧ s.upper = t.text := by
  obtain ⟨hne, hletters⟩ := text_letters ht
  have hcapitals : t.text.map capital = t.text := by
    have hsame : ∀ b ∈ t.text, capital b = b := by
      intro b hb
      have hrange := hletters b hb
      exact if_neg (by omega)
    rw [List.map_congr_left hsame, List.map_id']
  rw [hcapitals] at hs
  -- small letters end at 122, and whatever is no letter stays as it is
  have hbytes : ∀ b ∈ s, 40 ≤ b.toNat ∧ b.toNat ≤ 122 := by
    intro b hb
    have hcapital : capital b ∈ t.text := hs ▸ List.mem_map_of_mem hb
    have hrange := hletters _ hcapital
    rw [toNat_capital] at hrange
    split at hrange <;> omega
  have hvisible : ∀ b ∈ s, 33 ≤ b.toNat ∧ b.toNat < 0x80 := by
    intro b hb
    have hrange := hbytes b hb
    omega
  refine ⟨isTrimmed_visible ?_ hvisible, ?_⟩
  · intro hnil
    rw [hnil] at hs
    exact hne hs.symm
  · rw [upper_eq_map_capital fun b hb => (hvisible b hb).2, hs]

/-- Which texts are read as a type. A type is read just from the texts that name it, after they are
trimmed and put in upper case; from all others none is read. So a scalar type or a nullable one is
read from its own text, whatever the case of its letters and whatever white space is around it. -/
theorem parse_grammar :
    (∀ (text : Text) (t : DataType), parse text = .ok t ↔ Named text.trim.upper t) ∧
    (∀ text : Text, (∀ t, ¬ Named text.trim.upper t) →
      ∃ e, parse text = .error e ∧ Complaint text e) ∧
    ∀ (t : DataType) (w s w' : Text), t.isPrimitive = true → IsBlank w → IsBlank w' →
      s.map capital = t.text.map capital → parse (w ++ s ++ w') = .ok t := by
  refine ⟨?_, ?_, ?_⟩
  · intro text t
    constructor
    · intro h
      rcases parse_cases text with ⟨t', hok, hnamed⟩ | ⟨e, herror, _⟩
      · rw [h] at hok
        cases hok
        exact hnamed
      · rw [h] at herror
        cases herror
    · intro h
      exact parse_of_named rfl h
  · intro text hnone
    rcases parse_cases text with ⟨t, _, hnamed⟩ | hrefused
    · exact absurd hnamed (hnone t)
    · exact hrefused
  · intro t w s w' ht hw hw' hs
    obtain ⟨htrimmed, hupper⟩ := upper_eq_text ht hs
    apply parse_of_named _ (named_text ht)
    rw [trim_between hw htrimmed hw', hupper]

/-- White space of several code points around a name, and a name that is only good in brackets. -/
theorem parse_grammar_spaced :
    parse (ofRunes [0x2003, 9] ++ utf8 "nullable(BigInt)" ++ ofRunes [10]) =
      .ok (nullable .bigint) ∧
    (∃ e, parse (utf8 "any") = .error e) ∧
    parse (utf8 "Nullable ( any )") = .ok nullableAny := by
  obtain ⟨hnames, hothers, hcase⟩ := parse_grammar
  have hspace : IsBlank (utf8 " ") := ⟨[32], by decide, rfl⟩
  refine ⟨?_, ?_, ?_⟩
  · exact hcase (nullable .bigint) _ _ _ rfl ⟨_, by decide, rfl⟩ ⟨_, by decide, rfl⟩ (by decide)
  · have hany : (utf8 "any").trim.upper = utf8 "ANY" := by decide +kernel
    have hnone : ∀ t, ¬ Named (utf8 "any").trim.upper t := by
      rw [hany]
      intro t h
      generalize hname : utf8 "ANY" = name at h
      cases h with
      | scalar s => cases s <;> cases hname
      | nullable _ bracketed =>
        obtain ⟨_, _, _, _, _, _, _, _, rfl⟩ := bracketed
        have hfirst : some (65 : UInt8) = some 78 := congrArg List.head? hname
        cases hfirst
    obtain ⟨e, he, _⟩ := hothers _ hnone
    exact ⟨e, he⟩
  · have hupper : (utf8 "Nullable ( any )").trim.upper = utf8 "NULLABLE ( ANY )" := by
      decide +kernel
    rw [hnames, hupper]
    exact .nullable .any ⟨_, _, _, _, hspace, hspace, hspace, isBlank_nil, rfl⟩

end DataType

end TypedStream
