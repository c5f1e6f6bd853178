import TypedStream.Event.Decode
import TypedStream.Proofs.Interner
import TypedStream.Proofs.Outcome

namespace TypedStream

namespace Json

theorem unescape_plain {raw : Text} (h : 92 ∉ raw) : unescape raw = raw := by
  unfold unescape
  induction raw with
  | nil => rfl
  | cons b rest ih =>
    have hb : b ≠ 92 := fun he => h (by simp [he])
    have hrest : 92 ∉ rest := fun hm => h (by simp [hm])
    rw [unescapeFrom, if_neg hb, ih hrest]

namespace Members

variable {entries : List (Text × Json)} {ms : Members} {name : Text}

/-- The members are those of an object, with keys as they are written or all unescaped. -/
inductive Of (entries : List (Text × Json)) : Members → Prop
  | written : Of entries ⟨entries, Bool.false⟩
  | unescaped : Of entries ⟨entries.map fun m => (unescape m.1, m.2), Bool.true⟩

theorem Of.unescapeKeys (h : Of entries ms) :
    ms.unescapeKeys = ⟨entries.map fun m => (unescape m.1, m.2), Bool.true⟩ := by
  cases h <;> rfl

theorem find_mem {j : Json} (h : ms.find name = some j) : (name, j) ∈ ms.entries := by
  obtain ⟨⟨key, k⟩, hfind, rfl⟩ := Option.map_eq_some_iff.mp h
  have hkey : key = name := by simpa using List.find?_some hfind
  rw [← hkey]
  exact List.mem_of_find?_eq_some hfind

theorem find_eq_none_iff : ms.find name = none ↔ ∀ m ∈ ms.entries, m.1 ≠ name := by
  simp [find]

/-- A lookup leaves the members as they are written if it finds a key that is written as the name,
and otherwise looks for the name among the unescaped keys. -/
theorem Of.lookup_cases (h : Of entries ms) (name : Text) :
    (∃ j, ms.lookup name = (some j, ms) ∧ (name, j) ∈ entries ∧ 92 ∉ name) ∨
      ms.lookup name = (ms.unescapeKeys.find name, ms.unescapeKeys) := by
  cases h with
  | unescaped => exact .inr rfl
  | written =>
    unfold lookup
    simp only [Bool.false_or]
    split
    · rename_i j hquick
      split at hquick
      · cases hquick
      · rename_i hplain
        exact .inl ⟨j, rfl, find_mem hquick, by simpa using hplain⟩
    · exact .inr rfl

theorem Of.lookup (h : Of entries ms) (name : Text) : Of entries (ms.lookup name).2 := by
  rcases h.lookup_cases name with ⟨j, hlookup, _⟩ | hlookup
  · rw [hlookup]
    exact h
  · rw [hlookup, h.unescapeKeys]
    exact .unescaped

theorem Of.mem_of_lookup (h : Of entries ms) {j : Json} (hfound : (ms.lookup name).1 = some j) :
    ∃ key, (key, j) ∈ entries ∧ unescape key = name := by
  rcases h.lookup_cases name with ⟨k, hlookup, hmem, hplain⟩ | hlookup
  · rw [hlookup] at hfound
    cases hfound
    exact ⟨name, hmem, unescape_plain hplain⟩
  · rw [hlookup, h.unescapeKeys] at hfound
    obtain ⟨⟨key, k⟩, hmem, hm⟩ := List.mem_map.mp (find_mem hfound)
    cases hm
    exact ⟨key, hmem, rfl⟩

theorem Of.lookup_eq_none_iff (h : Of entries ms) :
    (ms.lookup name).1 = none ↔ ∀ m ∈ entries, unescape m.1 ≠ name := by
  rcases h.lookup_cases name with ⟨k, hlookup, hmem, hplain⟩ | hlookup
  · rw [hlookup]
    simp only [reduceCtorEq, false_iff]
    intro hnone
    exact hnone _ hmem (unescape_plain hplain)
  · rw [hlookup, h.unescapeKeys, find_eq_none_iff]
    exact List.forall_mem_map

end Members

end Json

namespace Value

def parts : Value → List Value
  | record vs => vs
  | _ => []

/-- The value at a path of field indices. -/
def at? (v : Value) (path : List Nat) : Option Value := descend parts v path

end Value

namespace Event

variable {fs : List (Text × DataType)} {entries : List (Text × Json)}

/-- A field of a record type where it is looked up: in the members of an object, with what is found
there. -/
structure Slot where
  members : List (Text × Json)
  name : Text
  type : DataType
  found : Option Json

/-- The fields as they are looked up one after the other. -/
def slotsFrom (entries : List (Text × Json)) :
    List (Text × DataType) → Json.Members → List Slot
  | [], _ => []
  | (name, t) :: fs, ms =>
    ⟨entries, name, t, (ms.lookup name).1⟩ :: slotsFrom entries fs (ms.lookup name).2

def slots (fs : List (Text × DataType)) (entries : List (Text × Json)) : List Slot :=
  slotsFrom entries fs ⟨entries, false⟩

namespace Slot

/-- The slot has the value. -/
def Holds (s : Slot) (v : Value) : Prop := value? s.type s.found = some v

/-- The fields of the object that is found, if the field is a record. -/
def inner (s : Slot) : List Slot :=
  match s.type, s.found with
  | .record fs, some (.object entries) => slots fs entries
  | _, _ => []

/-- The field at a path of field indices. -/
def at? (s : Slot) (path : List Nat) : Option Slot := descend inner s path

/-- There is no member with the name, or it is null. -/
def Empty (s : Slot) : Prop :=
  (∀ m ∈ s.members, Json.unescape m.1 ≠ s.name) ∨ s.found = some .null

/-- What is found is what is there. -/
structure Sound (s : Slot) : Prop where
  mem : ∀ j, s.found = some j → ∃ key, (key, j) ∈ s.members ∧ Json.unescape key = s.name
  missing : s.found = none ↔ ∀ m ∈ s.members, Json.unescape m.1 ≠ s.name

theorem Sound.empty_iff {s : Slot} (h : s.Sound) :
    s.Empty ↔ s.found = none ∨ s.found = some .null := by
  rw [Empty, h.missing]

end Slot

theorem slotsFrom_sound {ms : Json.Members} (h : ms.Of entries) :
    ∀ s ∈ slotsFrom entries fs ms, s.Sound := by
  induction fs generalizing ms with
  | nil => simp [slotsFrom]
  | cons f fs ih =>
    obtain ⟨name, t⟩ := f
    intro s hs
    rcases List.mem_cons.mp hs with rfl | hs
    · exact ⟨fun j => h.mem_of_lookup, h.lookup_eq_none_iff⟩
    · exact ih (h.lookup name) s hs

@[simp] theorem slotsFrom_types (fs : List (Text × DataType)) (ms : Json.Members) :
    (slotsFrom entries fs ms).map Slot.type = fs.map Prod.snd := by
  induction fs generalizing ms with
  | nil => rfl
  | cons f fs ih => simp [slotsFrom, ih]

theorem fields?_some_iff {ms : Json.Members} {vs : List Value} :
    fields? fs ms = some vs ↔ decodeFields fs ms = .ok vs := by
  induction fs generalizing ms vs with
  | nil => simp [fields?, decodeFields]
  | cons f fs ih =>
    obtain ⟨name, t⟩ := f
    rw [fields?, decodeFields]
    cases hv : value? t (ms.lookup name).1 with
    | none => simp [hv]
    | some v =>
      simp only [hv, bind_ok_iff, ← ih]
      cases fields? fs (ms.lookup name).2 with
      | none => simp
      | some ws =>
        constructor
        · intro h
          cases h
          exact ⟨ws, rfl, rfl⟩
        · intro h
          obtain ⟨rest, hrest, hpure⟩ := h
          cases hrest
          cases hpure
          rfl

theorem decodeFields_ok_iff {ms : Json.Members} {vs : List Value} :
    decodeFields fs ms = .ok vs ↔ List.Forall₂ Slot.Holds (slotsFrom entries fs ms) vs := by
  induction fs generalizing ms vs with
  | nil => simp [decodeFields, slotsFrom, eq_comm]
  | cons f fs ih =>
    obtain ⟨name, t⟩ := f
    rw [decodeFields, slotsFrom, List.forall₂_cons_left_iff]
    cases hv : value? t (ms.lookup name).1 with
    | none => simp [hv, Slot.Holds]
    | some v =>
      simp only [hv, bind_ok_iff, ih, Slot.Holds, Option.some.injEq]
      constructor
      · intro h
        obtain ⟨rest, hrest, hpure⟩ := h
        cases hpure
        exact ⟨v, rest, rfl, hrest, rfl⟩
      · intro h
        obtain ⟨w, rest, hw, hrest, he⟩ := h
        subst hw he
        exact ⟨rest, hrest, rfl⟩

theorem value?_object_iff {v : Value} :
    value? (.record fs) (some (.object entries)) = some v ↔
      ∃ vs, v = .record vs ∧ List.Forall₂ Slot.Holds (slots fs entries) vs := by
  simp only [value?, Option.map_eq_some_iff, fields?_some_iff]
  constructor
  · intro h
    obtain ⟨vs, hvs, rfl⟩ := h
    exact ⟨vs, rfl, decodeFields_ok_iff.mp hvs⟩
  · intro h
    obtain ⟨vs, rfl, hvs⟩ := h
    exact ⟨vs, decodeFields_ok_iff.mpr hvs, rfl⟩

/-- A value is null where nothing is found, a scalar, or a record of what its fields hold. -/
theorem value?_cases {t : DataType} {found : Option Json} {v : Value}
    (h : value? t found = some v) :
    (found = none ∨ found = some .null) ∧ t.isNullable = true ∧ v = .null ∨
    (∃ s j, found = some j ∧ j ≠ .null ∧ (t = .scalar s ∨ t = .nullable s) ∧
      scalar? s j = some v) ∨
    ∃ fs entries vs, t = .record fs ∧ found = some (.object entries) ∧ v = .record vs ∧
      List.Forall₂ Slot.Holds (slots fs entries) vs := by
  rw [value?.eq_def] at h
  split at h
  · simp only [Option.ite_none_right_eq_some, Option.some.injEq] at h
    exact .inl ⟨.inl rfl, h.1, h.2.symm⟩
  · simp only [Option.ite_none_right_eq_some, Option.some.injEq] at h
    exact .inl ⟨.inr rfl, h.1, h.2.symm⟩
  · rename_i s j hj
    exact .inr (.inl ⟨s, j, rfl, hj, .inl rfl, h⟩)
  · rename_i s j hj
    exact .inr (.inl ⟨s, j, rfl, hj, .inr rfl, h⟩)
  · rename_i fs entries
    obtain ⟨vs, rfl, hvs⟩ := value?_object_iff.mp h
    exact .inr (.inr ⟨fs, entries, vs, rfl, rfl, rfl, hvs⟩)
  · cases h

namespace Slot

variable {s slot : Slot} {v : Value} {path : List Nat}

theorem inner_cases (s : Slot) : s.inner = [] ∨
    ∃ fs entries, s.type = .record fs ∧ s.found = some (.object entries) ∧
      s.inner = slots fs entries := by
  unfold inner
  split
  · rename_i fs entries ht hf
    exact .inr ⟨fs, entries, ht, hf, rfl⟩
  · exact .inl rfl

theorem Holds.inner (h : s.Holds v) {i : Nat} {field : Slot} (hi : s.inner[i]? = some field) :
    ∃ w, v.parts[i]? = some w ∧ field.Holds w := by
  rcases s.inner_cases with hnone | ⟨fs, entries, ht, hf, hinner⟩
  · simp [hnone] at hi
  · rw [Holds, ht, hf, value?_object_iff] at h
    obtain ⟨vs, rfl, hvs⟩ := h
    rw [hinner] at hi
    exact forall₂_getElem? hvs hi

/-- Where a record has a value, so has each of its fields at any depth: that of what it finds. -/
theorem Holds.at? (h : s.Holds v) (hs : s.at? path = some slot) :
    ∃ w, v.at? path = some w ∧ slot.Holds w :=
  descend_related (fun _ _ hholds _ _ hi => hholds.inner hi) h hs

theorem inner_sound (s : Slot) : ∀ field ∈ s.inner, field.Sound := by
  rcases s.inner_cases with hnone | ⟨fs, entries, _, _, hinner⟩
  · simp [hnone]
  · rw [hinner]
    exact slotsFrom_sound .written

theorem Sound.at? (h : s.Sound) (hs : s.at? path = some slot) : slot.Sound :=
  descend_keeps (fun field _ => field.inner_sound) h hs

end Slot

theorem decode_ok_iff {data : Text} {vs : List Value} :
    decode (.record fs) data = .ok vs ↔ ∃ entries, Json.parse? data = some (.object entries) ∧
      decodeFields fs ⟨entries, false⟩ = .ok vs := by
  unfold decode
  cases Json.parse? data with
  | none => simp
  | some j => cases j <;> simp

/-- The field at a path of field indices in an event. -/
def field? (fs : List (Text × DataType)) (entries : List (Text × Json)) : List Nat → Option Slot
  | [] => none
  | i :: path => (slots fs entries)[i]?.bind fun s => s.at? path

theorem field?_sound {path : List Nat} {slot : Slot} (h : field? fs entries path = some slot) :
    slot.Sound := by
  cases path with
  | nil => cases h
  | cons i path =>
    obtain ⟨s, hi, hs⟩ := Option.bind_eq_some_iff.mp h
    exact (slotsFrom_sound .written s (List.mem_of_getElem? hi)).at? hs

/-- In a decoded event every field, at any depth, has the value of what it finds. -/
theorem field?_holds {vs : List Value} (hvs : decodeFields fs ⟨entries, false⟩ = .ok vs)
    {path : List Nat} {slot : Slot} (h : field? fs entries path = some slot) :
    ∃ w, (Value.record vs).at? path = some w ∧ slot.Holds w := by
  cases path with
  | nil => cases h
  | cons i path =>
    obtain ⟨s, hi, hs⟩ := Option.bind_eq_some_iff.mp h
    obtain ⟨v, hv, hholds⟩ := forall₂_getElem? (decodeFields_ok_iff.mp hvs) hi
    obtain ⟨w, hw, hslot⟩ := hholds.at? hs
    refine ⟨w, ?_, hslot⟩
    rw [Value.at?, descend, Value.parts, hv]
    exact hw

theorem decode_holds {data : Text} {vs : List Value} (h : decode (.record fs) data = .ok vs)
    (hparse : Json.parse? data = some (.object entries)) {path : List Nat} {slot : Slot}
    (hslot : field? fs entries path = some slot) :
    ∃ w, (Value.record vs).at? path = some w ∧ slot.Holds w := by
  obtain ⟨entries', hparse', hvs⟩ := decode_ok_iff.mp h
  cases hparse.symm.trans hparse'
  exact field?_holds hvs hslot

end Event

end TypedStream
