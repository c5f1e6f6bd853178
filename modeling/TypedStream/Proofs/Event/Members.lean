import TypedStream.Proofs.Event

namespace TypedStream

namespace Json

def parts : Json → List Json
  | array items => items
  | object members => members.map Prod.snd
  | _ => []

def keys : Json → List Text
  | object members => members.map fun m => unescape m.1
  | _ => []

/-- No object has two members of one name, at any level. -/
inductive DistinctKeys : Json → Prop
  | intro {j : Json} (keys : j.keys.Nodup) (parts : ∀ k ∈ j.parts, DistinctKeys k) : DistinctKeys j

theorem DistinctKeys.member {entries : List (Text × Json)} (h : (object entries).DistinctKeys)
    {key : Text} {j : Json} (hm : (key, j) ∈ entries) : j.DistinctKeys := by
  cases h with
  | intro _ parts => exact parts j (List.mem_map.mpr ⟨(key, j), hm, rfl⟩)

theorem DistinctKeys.unique {entries : List (Text × Json)} (h : (object entries).DistinctKeys)
    {key key' : Text} {j k : Json} (hj : (key, j) ∈ entries) (hk : (key', k) ∈ entries)
    (he : unescape key = unescape key') : j = k := by
  cases h with
  | intro keys _ =>
    have hsame := List.inj_on_of_nodup_map keys hj hk he
    exact congrArg Prod.snd hsame

theorem Members.Of.lookup_eq_some_iff {entries : List (Text × Json)} {ms : Members}
    (h : ms.Of entries) (hd : (object entries).DistinctKeys) {name : Text} {j : Json} :
    (ms.lookup name).1 = some j ↔ ∃ key, (key, j) ∈ entries ∧ unescape key = name := by
  constructor
  · exact h.mem_of_lookup
  · intro hj
    obtain ⟨key, hmem, hname⟩ := hj
    cases hfound : (ms.lookup name).1 with
    | none => exact absurd hname (h.lookup_eq_none_iff.mp hfound _ hmem)
    | some k =>
      obtain ⟨key', hmem', hname'⟩ := h.mem_of_lookup hfound
      rw [hd.unique hmem hmem' (hname.trans hname'.symm)]

/-- The same literal, number or text, or the same kind of collection. -/
inductive SameLeaf : Json → Json → Prop
  | null : SameLeaf null null
  | true : SameLeaf true true
  | false : SameLeaf false false
  | number (token : Text) : SameLeaf (number token) (number token)
  | string {raw raw' : Text} (same : unescape raw = unescape raw') :
      SameLeaf (string raw) (string raw')
  | array (items items' : List Json) : SameLeaf (array items) (array items')
  | object (members members' : List (Text × Json)) : SameLeaf (object members) (object members')

end Json

namespace Event

open Json

/-- The object has a member with the name that is not null. -/
def Has (entries : List (Text × Json)) (name : Text) (j : Json) : Prop :=
  j ≠ .null ∧ ∃ key, (key, j) ∈ entries ∧ unescape key = name

mutual

/-- The same for a field of the type: objects have to have the same members where the field is a
record, and are not looked into where it is not. -/
def Alike : DataType → Json → Json → Prop
  | .record fs, .object ms, .object ns => SameMembers fs ms ns
  | _, a, b => SameLeaf a b

/-- For each field the objects have the same members, null apart. -/
def SameMembers : List (Text × DataType) → (ms ns : List (Text × Json)) → Prop
  | [], _, _ => True
  | (name, t) :: fs, ms, ns =>
    (∀ a, Has ms name a → ∃ b, Has ns name b ∧ Alike t a b) ∧
    (∀ b, Has ns name b → ∃ a, Has ms name a ∧ Alike t a b) ∧ SameMembers fs ms ns

end

variable {t : DataType} {a b : Json}

theorem scalar?_sameLeaf (h : SameLeaf a b) (s : Scalar) : scalar? s a = scalar? s b := by
  cases h with
  | string same => cases s <;> simp [scalar?, same]
  | array _ _ | object _ _ => cases s <;> rfl
  | _ => rfl

theorem value?_sameLeaf (h : SameLeaf a b)
    (hleaf : ∀ fs ms, t = .record fs → a ≠ .object ms) :
    value? t (some a) = value? t (some b) := by
  have hs := scalar?_sameLeaf h
  cases h with
  | null | true | false | number _ => rfl
  | string _ | array _ _ =>
    cases t with
    | scalar s | nullable s => exact hs s
    | _ => rfl
  | object ms _ =>
    cases t with
    | scalar s | nullable s => exact hs s
    | record fs => exact absurd rfl (hleaf fs ms rfl)
    | _ => rfl

theorem value?_absent {found : Option Json} (h : ∀ j, found = some j → j = .null) :
    value? t found = value? t none := by
  cases found with
  | none => rfl
  | some j =>
    rw [h j rfl]
    cases t <;> rfl

theorem value?_congr {found found' : Option Json}
    (h : ∀ a, found = some a → a ≠ .null → ∃ b, found' = some b ∧
      value? t (some a) = value? t (some b))
    (h' : ∀ b, found' = some b → b ≠ .null → ∃ a, found = some a ∧
      a ≠ .null) : value? t found = value? t found' := by
  by_cases hfound : ∃ a, found = some a ∧ a ≠ .null
  · obtain ⟨a, ha, hn⟩ := hfound
    obtain ⟨b, hb, hv⟩ := h a ha hn
    rw [ha, hb, hv]
  · have hnone : ∀ j, found = some j → j = .null := by
      intro j hj
      by_contra hn
      exact hfound ⟨j, hj, hn⟩
    have hnone' : ∀ j, found' = some j → j = .null := by
      intro j hj
      by_contra hn
      exact hfound (h' j hj hn)
    rw [value?_absent hnone, value?_absent hnone']

/-- Values that are alike for a type decode alike. -/
def Agree (t : DataType) : Prop :=
  ∀ a b, Alike t a b → a.DistinctKeys → b.DistinctKeys → value? t (some a) = value? t (some b)

variable {fs : List (Text × DataType)} {ms ns : List (Text × Json)} {m n : Members}

theorem has_iff (hm : m.Of ms) (hd : (Json.object ms).DistinctKeys) {name : Text} :
    Has ms name a ↔ (m.lookup name).1 = some a ∧ a ≠ .null := by
  rw [Has, hm.lookup_eq_some_iff hd, and_comm]

/-- A field has the same value in objects that have the same members for it. -/
theorem value?_lookup (hm : m.Of ms) (hn : n.Of ns) (hd : (Json.object ms).DistinctKeys)
    (hd' : (Json.object ns).DistinctKeys) (ht : Agree t) {name : Text}
    (hleft : ∀ a, Has ms name a → ∃ b, Has ns name b ∧ Alike t a b)
    (hright : ∀ b, Has ns name b → ∃ a, Has ms name a ∧ Alike t a b) :
    value? t (m.lookup name).1 = value? t (n.lookup name).1 := by
  apply value?_congr
  · intro a ha hnull
    have hhas := (has_iff hm hd).mpr ⟨ha, hnull⟩
    obtain ⟨b, hb, halike⟩ := hleft a hhas
    have hfound := (has_iff hn hd').mp hb
    obtain ⟨_, key, hkey, _⟩ := hhas
    obtain ⟨_, key', hkey', _⟩ := hb
    exact ⟨b, hfound.1, ht a b halike (hd.member hkey) (hd'.member hkey')⟩
  · intro b hb hnull
    obtain ⟨a, ha, _⟩ := hright b ((has_iff hn hd').mpr ⟨hb, hnull⟩)
    exact ⟨a, (has_iff hm hd).mp ha⟩

theorem decodeFields_sameMembers (hm : m.Of ms) (hn : n.Of ns)
    (hd : (Json.object ms).DistinctKeys) (hd' : (Json.object ns).DistinctKeys)
    (hfields : ∀ f ∈ fs, Agree f.2) (h : SameMembers fs ms ns) :
    decodeFields fs m = decodeFields fs n := by
  induction fs generalizing m n with
  | nil => rfl
  | cons f fs ih =>
    obtain ⟨name, t⟩ := f
    obtain ⟨ht, hrest⟩ := List.forall_mem_cons.mp hfields
    rw [SameMembers] at h
    obtain ⟨hleft, hright, hothers⟩ := h
    have hvalue := value?_lookup hm hn hd hd' ht hleft hright
    have hdecode := ih (hm.lookup name) (hn.lookup name) hrest hothers
    simp only [decodeFields, hvalue, hdecode]

/-- By induction on the type: the fields of a record agree. -/
theorem agree (t : DataType) : Agree t := by
  induction t using DataType.componentInduction with
  | step t ih =>
    intro a b h ha hb
    unfold Alike at h
    split at h
    · rename_i fs ms ns
      have hfields : ∀ f ∈ fs, Agree f.2 :=
        fun f hf => ih f.2 (DataType.mem_components_of_field hf)
      have hdecode := decodeFields_sameMembers .written .written ha hb hfields h
      have hvalues : fields? fs ⟨ms, Bool.false⟩ = fields? fs ⟨ns, Bool.false⟩ := by
        apply Option.ext
        intro vs
        rw [fields?_some_iff, fields?_some_iff, hdecode]
      rw [value?, value?, hvalues]
    · rename_i hleaf
      apply value?_sameLeaf h
      intro fs ms ht hobject
      subst ht hobject
      cases h with
      | object _ ns => exact hleaf fs ms ns rfl rfl rfl

/-- Two events that are objects of distinct keys, at every level, and have the same members for the
fields of the record type, null apart, are decoded alike: to the same values, or both not. -/
theorem decode_same_members (fs : List (Text × DataType)) {data data' : Text}
    {ms ns : List (Text × Json)} (hms : Json.parse? data = some (.object ms))
    (hns : Json.parse? data' = some (.object ns)) (hd : (Json.object ms).DistinctKeys)
    (hd' : (Json.object ns).DistinctKeys) (h : SameMembers fs ms ns) :
    decode (.record fs) data = decode (.record fs) data' := by
  simp only [decode, hms, hns]
  exact decodeFields_sameMembers .written .written hd hd' (fun f _ => agree f.2) h

/-- Objects have the same members for a field if both find values that are alike. -/
theorem SameMembers.cons (hd : (Json.object ms).DistinctKeys) (hd' : (Json.object ns).DistinctKeys)
    {name : Text} (ha : Has ms name a) (hb : Has ns name b) (halike : Alike t a b)
    (h : SameMembers fs ms ns) : SameMembers ((name, t) :: fs) ms ns := by
  have hunique : ∀ {entries : List (Text × Json)}, (Json.object entries).DistinctKeys →
      ∀ {j k}, Has entries name j → Has entries name k → j = k := by
    intro entries hdistinct j k hj hk
    obtain ⟨_, key, hkey, hname⟩ := hj
    obtain ⟨_, key', hkey', hname'⟩ := hk
    exact hdistinct.unique hkey hkey' (hname.trans hname'.symm)
  rw [SameMembers]
  refine ⟨?_, ?_, h⟩
  · intro c hc
    rw [hunique hd hc ha]
    exact ⟨b, hb, halike⟩
  · intro c hc
    rw [hunique hd' hc hb]
    exact ⟨a, ha, halike⟩

/-- A key and a text with escapes, another order, and a member that no field asks for, one record
further in. -/
theorem decode_same_members_apart :
    let fs : List (Text × DataType) := [(utf8 "s", .scalar .string),
      (utf8 "r", .record [(utf8 "y", .scalar .int)])]
    decode (.record fs) (utf8 "\x7b\"s\":\"A\",\"r\":\x7b\"y\":1\x7d\x7d") =
      decode (.record fs)
        (utf8 "\x7b\"r\":\x7b\"w\":2,\"y\":1\x7d,\"\\u0073\":\"\\u0041\"\x7d") := by
  intro fs
  let inner := [(utf8 "y", Json.number (utf8 "1"))]
  let inner' := [(utf8 "w", Json.number (utf8 "2")), (utf8 "y", Json.number (utf8 "1"))]
  let ms := [(utf8 "s", Json.string (utf8 "A")), (utf8 "r", Json.object inner)]
  let ns := [(utf8 "r", Json.object inner'), (utf8 "\\u0073", Json.string (utf8 "\\u0041"))]
  have hms : Json.parse? (utf8 "\x7b\"s\":\"A\",\"r\":\x7b\"y\":1\x7d\x7d") =
      some (.object ms) := by
    with_unfolding_all rfl
  have hns : Json.parse?
      (utf8 "\x7b\"r\":\x7b\"w\":2,\"y\":1\x7d,\"\\u0073\":\"\\u0041\"\x7d") =
      some (.object ns) := by
    with_unfolding_all rfl
  have hnumber : ∀ token, (Json.number token).DistinctKeys := fun _ => .intro .nil (by simp [parts])
  have hstring : ∀ raw, (Json.string raw).DistinctKeys := fun _ => .intro .nil (by simp [parts])
  have hinner : (Json.object inner).DistinctKeys :=
    .intro (by decide) (by simp [parts, inner, hnumber])
  have hinner' : (Json.object inner').DistinctKeys :=
    .intro (by decide) (by simp [parts, inner', hnumber])
  have hd : (Json.object ms).DistinctKeys :=
    .intro (by decide) (by simp [parts, ms, hstring, hinner])
  have hd' : (Json.object ns).DistinctKeys :=
    .intro (by decide) (by simp [parts, ns, hstring, hinner'])
  have hrecord : SameMembers [(utf8 "y", .scalar .int)] inner inner' := by
    apply SameMembers.cons hinner hinner' (a := .number (utf8 "1")) (b := .number (utf8 "1"))
    · exact ⟨by simp, utf8 "y", by simp [inner], by decide⟩
    · exact ⟨by simp, utf8 "y", by simp [inner'], by decide⟩
    · exact .number (utf8 "1")
    · trivial
  apply decode_same_members fs hms hns hd hd'
  apply SameMembers.cons hd hd' (a := .string (utf8 "A")) (b := .string (utf8 "\\u0041"))
  · exact ⟨by simp, utf8 "s", by simp [ms], by decide⟩
  · exact ⟨by simp, utf8 "\\u0073", by simp [ns], by decide⟩
  · exact .string (by decide)
  apply SameMembers.cons hd hd' (a := .object inner) (b := .object inner')
  · exact ⟨by simp, utf8 "r", by simp [ms], by decide⟩
  · exact ⟨by simp, utf8 "r", by simp [ns], by decide⟩
  · exact hrecord
  · trivial

end Event

end TypedStream
