import Mathlib.Data.Set.Card
import Mathlib.Logic.Relation
import TypedStream.DataType.Interner
import TypedStream.Proofs.Pointwise
import TypedStream.Proofs.Promotion

namespace TypedStream

namespace DataType

/-- The types that a record or function type is made of. -/
def components : DataType → List (Option DataType)
  | record fs => fs.map fun f => some f.2
  | function r ps => r :: ps
  | _ => []

/-- No type is missing, at any depth. -/
inductive Complete : DataType → Prop
  | intro {t : DataType} (present : none ∉ t.components)
      (each : ∀ c, some c ∈ t.components → Complete c) : Complete t

/-- Occurs somewhere inside, or is the type itself. -/
def Within : DataType → DataType → Prop :=
  Relation.ReflTransGen fun c t => some c ∈ t.components

/-- The record and function types that occur in some of the types. -/
def compositesIn (types : List DataType) : Set DataType :=
  {c | c.isPrimitive = false ∧ ∃ t ∈ types, c.Within t}

theorem sizeOf_component {c t : DataType} (h : some c ∈ t.components) : sizeOf c < sizeOf t := by
  cases t with
  | record fs =>
    obtain ⟨⟨name, d⟩, hf, hd⟩ := List.mem_map.mp h
    cases hd
    have := List.sizeOf_lt_of_mem hf
    simp only [Prod.mk.sizeOf_spec, record.sizeOf_spec] at this ⊢
    omega
  | function r ps =>
    rcases List.mem_cons.mp h with rfl | hm
    · simp only [function.sizeOf_spec, Option.some.sizeOf_spec]
      omega
    · have := List.sizeOf_lt_of_mem hm
      simp only [function.sizeOf_spec, Option.some.sizeOf_spec] at this ⊢
      omega
  | _ => cases h

theorem mem_components_of_field {f : Text × DataType} {fs : List (Text × DataType)} (h : f ∈ fs) :
    some f.2 ∈ (record fs).components :=
  List.mem_map.mpr ⟨f, h, rfl⟩

/-- Induction from the components of a type to the type. -/
theorem componentInduction {motive : DataType → Prop}
    (step : ∀ t, (∀ c, some c ∈ t.components → motive c) → motive t) (t : DataType) : motive t :=
  step t fun c _ => componentInduction step c
termination_by sizeOf t
decreasing_by exact sizeOf_component ‹_›

theorem Within.sizeOf_le {c t : DataType} (h : c.Within t) : sizeOf c ≤ sizeOf t := by
  induction h with
  | refl => exact Nat.le_refl _
  | tail _ hb ih =>
    have := sizeOf_component hb
    omega

theorem Complete.within {c t : DataType} (h : t.Complete) (hw : c.Within t) : c.Complete := by
  induction hw with
  | refl => exact h
  | tail _ hb ih =>
    cases h with
    | intro _ each => exact ih (each _ hb)

theorem not_within_component {c t : DataType} (h : some c ∈ t.components) : ¬ t.Within c := by
  intro hw
  have := sizeOf_component h
  have := hw.sizeOf_le
  omega

/-- The kind is the same, and so are the names of fields. -/
def SameHead (s t : DataType) : Prop :=
  s.kind = t.kind ∧ s.fields.map Prod.fst = t.fields.map Prod.fst

theorem eq_of_sameHead {s t : DataType} (hs : s.isPrimitive = false) (h : s.SameHead t)
    (hc : s.components = t.components) : s = t := by
  obtain ⟨hk, hn⟩ := h
  cases s with
  | record fs =>
    cases t with
    | record gs =>
      have htypes : fs.map Prod.snd = gs.map Prod.snd := by
        have := congrArg (List.map (Option.getD · nullableAny)) hc
        simpa [components, Function.comp_def] using this
      rw [← List.zip_unzip fs, ← List.zip_unzip gs, List.unzip_eq_map, List.unzip_eq_map]
      simp only [fields] at hn
      rw [hn, htypes]
    | _ => cases hk
  | function r ps =>
    cases t with
    | function q qs =>
      simp only [components, List.cons.injEq] at hc
      rw [hc.1, hc.2]
    | _ => cases hk
  | _ => simp [isPrimitive] at hs

end DataType

namespace Interner

/-- The instance that a type has so far. -/
def instanceOf? (self : Interner) (t : DataType) : Option Instance :=
  if t.isPrimitive then some (.table t) else (self.find? t).map .entry

def Assigned (self : Interner) (i : Instance) (c : Option DataType) : Prop :=
  ∃ t, c = some t ∧ self.instanceOf? t = some i

/-- Every entry is for a composite type of its own and refers to the instances of the components. -/
structure Canonical (interner : Interner) : Prop where
  composite : ∀ e ∈ interner.entries, e.type.isPrimitive = false
  distinct : (interner.entries.map Entry.type).Nodup
  parts : ∀ e ∈ interner.entries, List.Forall₂ interner.Assigned e.parts e.type.components

/-- Entries were added at the end, all of them for `new` types. -/
structure Extends (interner next : Interner) (new : DataType → Prop) : Prop where
  hash : next.hash = interner.hash
  kept : interner.entries <+: next.entries
  added : ∀ e ∈ next.entries, e ∈ interner.entries ∨ new e.type

theorem Extends.refl (self : Interner) (new : DataType → Prop) : self.Extends self new :=
  ⟨rfl, List.prefix_rfl, fun _ he => .inl he⟩

theorem Extends.trans {a b c : Interner} {new newer : DataType → Prop} (hab : a.Extends b new)
    (hbc : b.Extends c newer) : a.Extends c fun t => new t ∨ newer t := by
  refine ⟨hbc.hash.trans hab.hash, hab.kept.trans hbc.kept, ?_⟩
  intro e he
  rcases hbc.added e he with hb | hn
  · exact (hab.added e hb).imp_right .inl
  · exact .inr (.inr hn)

theorem Extends.mono {a b : Interner} {new newer : DataType → Prop} (h : a.Extends b new)
    (hn : ∀ t, new t → newer t) : a.Extends b newer :=
  ⟨h.hash, h.kept, fun e he => (h.added e he).imp_right (hn _)⟩

theorem find?_eq (self : Interner) (t : DataType) :
    self.find? t = self.entries.findIdx? fun e => e.type.equals t := by
  have hp : (fun e : Entry => self.hash e.type.text == self.hash t.text && e.type.equals t) =
      fun e => e.type.equals t := by
    funext e
    cases he : e.type.equals t with
    | false => rw [Bool.and_false]
    | true => simp [(DataType.equals_iff _ _).mp he]
  rw [find?, hp]

theorem find?_some {self : Interner} {t : DataType} {i : Nat} (h : self.find? t = some i) :
    ∃ e, self.entries[i]? = some e ∧ e.type = t := by
  rw [find?_eq] at h
  obtain ⟨hlt, he, _⟩ := List.findIdx?_eq_some_iff_getElem.mp h
  exact ⟨self.entries[i], List.getElem?_eq_getElem hlt, (DataType.equals_iff _ _).mp he⟩

theorem find?_none_iff {self : Interner} {t : DataType} :
    self.find? t = none ↔ ∀ e ∈ self.entries, e.type ≠ t := by
  rw [find?_eq, List.findIdx?_eq_none_iff]
  simp [← DataType.equals_iff]

theorem Extends.find? {self next : Interner} {new : DataType → Prop} (h : self.Extends next new)
    {t : DataType} {i : Nat} (hf : self.find? t = some i) : next.find? t = some i := by
  obtain ⟨added, ha⟩ := h.kept
  rw [find?_eq] at hf ⊢
  rw [← ha, List.findIdx?_append, hf]
  rfl

theorem Extends.instanceOf? {self next : Interner} {new : DataType → Prop}
    (h : self.Extends next new) {t : DataType} {i : Instance}
    (hi : self.instanceOf? t = some i) : next.instanceOf? t = some i := by
  unfold Interner.instanceOf? at hi ⊢
  split at hi
  · rename_i hp
    rw [if_pos hp, hi]
  · rename_i hp
    obtain ⟨j, hj, rfl⟩ := Option.map_eq_some_iff.mp hi
    rw [if_neg hp, h.find? hj]
    rfl

theorem Extends.assigned {self next : Interner} {new : DataType → Prop}
    (h : self.Extends next new) {is : List Instance} {cs : List (Option DataType)}
    (ha : List.Forall₂ self.Assigned is cs) : List.Forall₂ next.Assigned is cs := by
  refine ha.imp ?_
  rintro i c ⟨t, hc, hi⟩
  exact ⟨t, hc, h.instanceOf? hi⟩

theorem Canonical.empty (hash : Text → UInt64) : ({ hash := hash } : Interner).Canonical :=
  ⟨by simp, by simp, by simp⟩

theorem extends_push (self : Interner) (e : Entry) :
    self.Extends (self.push e) fun t => t = e.type := by
  refine ⟨rfl, List.prefix_append _ _, ?_⟩
  intro f hf
  rcases List.mem_append.mp hf with hm | hm
  · exact .inl hm
  · exact .inr (by rw [List.mem_singleton.mp hm])

theorem find?_push {self : Interner} {t : DataType} {ps : List Instance}
    (h : self.find? t = none) : (self.push ⟨t, ps⟩).find? t = some self.size := by
  rw [find?_eq] at h ⊢
  simp [push, size, List.findIdx?_append, h, List.findIdx?_cons, (DataType.equals_iff t t).mpr rfl]

theorem Canonical.push {self : Interner} (h : self.Canonical) {t : DataType} {ps : List Instance}
    (ht : t.isPrimitive = false) (hnew : self.find? t = none)
    (hps : List.Forall₂ self.Assigned ps t.components) : (self.push ⟨t, ps⟩).Canonical := by
  have hx := self.extends_push ⟨t, ps⟩
  refine ⟨?_, ?_, ?_⟩
  · intro e he
    rcases hx.added e he with hm | he
    · exact h.composite e hm
    · rw [he]
      exact ht
  · have hfresh : t ∉ self.entries.map Entry.type := by
      intro hm
      obtain ⟨e, he, het⟩ := List.mem_map.mp hm
      exact find?_none_iff.mp hnew e he het
    simp only [Interner.push, List.map_append, List.map_cons, List.map_nil]
    exact List.nodup_append.mpr ⟨h.distinct, List.nodup_singleton t, by
      rintro a ha b hb rfl
      rw [List.mem_singleton.mp hb] at ha
      exact hfresh ha⟩
  · intro e he
    rcases List.mem_append.mp he with hm | hm
    · exact hx.assigned (h.parts e hm)
    · rw [List.mem_singleton.mp hm]
      exact hx.assigned hps

theorem internFields_eq (self : Interner) (fs : List (Text × DataType)) :
    self.internFields fs = self.internAll (fs.map fun f => some f.2) := by
  induction fs generalizing self with
  | nil => simp [internFields, internAll]
  | cons f fs ih => simp only [internFields, List.map_cons, internAll, internMissing, ih]

theorem intern_composite (self : Interner) {t : DataType} (h : t.isPrimitive = false) :
    self.intern t = self.entryFor t fun next => next.internAll t.components := by
  cases t with
  | record fs => simp only [intern, internFields_eq, DataType.components]
  | function r ps => simp only [intern, internAll, DataType.components]
  | _ => simp [DataType.isPrimitive] at h

/-- A type that has an instance is interned as that one, and nothing changes. -/
theorem intern_instanceOf? {self : Interner} {t : DataType} {i : Instance}
    (h : self.instanceOf? t = some i) : self.intern t = (self, .ok i) := by
  unfold instanceOf? at h
  split at h
  · rename_i hp
    cases h
    cases t with
    | record fs => simp [DataType.isPrimitive] at hp
    | function r ps => simp [DataType.isPrimitive] at hp
    | _ => simp only [intern]
  · rename_i hp
    obtain ⟨j, hj, rfl⟩ := Option.map_eq_some_iff.mp h
    rw [intern_composite self (by simpa using hp), entryFor, hj]

/-- What interning a type comes to. -/
structure Interns (interner : Interner) (t : DataType) (next : Interner) (i : Instance) : Prop where
  result : interner.intern t = (next, .ok i)
  canonical : next.Canonical
  extended : interner.Extends next (·.Within t)
  assigned : next.instanceOf? t = some i

theorem internAll_spec {cs : List (Option DataType)} (hpresent : none ∉ cs)
    (heach : ∀ c, some c ∈ cs → ∀ self : Interner, self.Canonical → ∃ next i, self.Interns c next i)
    (self : Interner) (hself : self.Canonical) :
    ∃ next is, self.internAll cs = (next, .ok is) ∧ next.Canonical ∧
      self.Extends next (fun d => ∃ c, some c ∈ cs ∧ d.Within c) ∧
      List.Forall₂ next.Assigned is cs := by
  induction cs generalizing self with
  | nil => exact ⟨self, [], by rw [internAll], hself, .refl self _, .nil⟩
  | cons c cs ih =>
    obtain ⟨hc, hcs⟩ := not_or.mp (fun h => hpresent (List.mem_cons.mpr h))
    obtain ⟨t, rfl⟩ := Option.ne_none_iff_exists'.mp (Ne.symm hc)
    obtain ⟨mid, i, hi⟩ := heach t List.mem_cons_self self hself
    obtain ⟨next, is, his, hnext, hx, ha⟩ :=
      ih hcs (fun d hd => heach d (List.mem_cons_of_mem _ hd)) mid hi.canonical
    refine ⟨next, i :: is, ?_, hnext, (hi.extended.trans hx).mono ?_,
      .cons ⟨t, rfl, hx.instanceOf? hi.assigned⟩ ha⟩
    · simp only [internAll, internMissing, hi.result, his]
    · rintro d (hd | ⟨e, he, hd⟩)
      · exact ⟨t, List.mem_cons_self, hd⟩
      · exact ⟨e, List.mem_cons_of_mem _ he, hd⟩

/-- One call. Its components are interned first, and none of them is the type itself, so that it is
still new when it is added without another look. -/
theorem intern_spec {t : DataType} (ht : t.Complete) (self : Interner) (hself : self.Canonical) :
    ∃ next i, self.Interns t next i := by
  induction ht generalizing self with
  | @intro t hpresent _ ih =>
    cases hi : self.instanceOf? t with
    | some i => exact ⟨self, i, intern_instanceOf? hi, hself, .refl self _, hi⟩
    | none =>
      have hprim : t.isPrimitive = false := by
        by_contra hp
        rw [Bool.not_eq_false] at hp
        simp [instanceOf?, hp] at hi
      have hnew : self.find? t = none := by simpa [instanceOf?, hprim] using hi
      obtain ⟨next, is, his, hnext, hx, ha⟩ := internAll_spec hpresent ih self hself
      have hstill : next.find? t = none := by
        rw [find?_none_iff]
        intro e he het
        rcases hx.added e he with hm | ⟨c, hc, hw⟩
        · exact find?_none_iff.mp hnew e hm het
        · exact DataType.not_within_component hc (het ▸ hw)
      refine ⟨next.push ⟨t, is⟩, .entry next.size, ?_, hnext.push hprim hstill ha,
        (hx.trans (next.extends_push _)).mono ?_, ?_⟩
      · simp only [intern_composite self hprim, entryFor, hnew, his]
      · rintro d (⟨c, hc, hw⟩ | rfl)
        · exact hw.tail hc
        · exact .refl
      · simp [instanceOf?, hprim, find?_push hstill]

/-- Interns one type after another, with the outcome of every call. -/
def internEach (self : Interner) : List DataType → Interner × List (Except Defect Instance)
  | [] => (self, [])
  | t :: ts =>
    let (next, out) := self.intern t
    let (last, outs) := next.internEach ts
    (last, out :: outs)

/-- A whole run, from any canonical interner. -/
theorem internEach_spec {types : List DataType} (h : ∀ t ∈ types, t.Complete) (self : Interner)
    (hself : self.Canonical) :
    ∃ last is, self.internEach types = (last, is.map .ok) ∧ last.Canonical ∧
      self.Extends last (fun d => ∃ t ∈ types, d.Within t) ∧
      List.Forall₂ (fun i t => last.instanceOf? t = some i) is types := by
  induction types generalizing self with
  | nil => exact ⟨self, [], rfl, hself, .refl self _, .nil⟩
  | cons t ts ih =>
    obtain ⟨hfirst, hothers⟩ := List.forall_mem_cons.mp h
    obtain ⟨next, i, hi⟩ := intern_spec hfirst self hself
    obtain ⟨last, is, his, hlast, hx, ha⟩ := ih hothers next hi.canonical
    refine ⟨last, i :: is, ?_, hlast, (hi.extended.trans hx).mono ?_,
      .cons (hx.instanceOf? hi.assigned) ha⟩
    · simp only [internEach, hi.result, his, List.map_cons]
    · rintro d (hd | ⟨u, hu, hd⟩)
      · exact ⟨t, List.mem_cons_self, hd⟩
      · exact ⟨u, List.mem_cons_of_mem _ hu, hd⟩

theorem internEach_append (self : Interner) (early late : List DataType) :
    (self.internEach (early ++ late)).1 = ((self.internEach early).1.internEach late).1 := by
  induction early generalizing self with
  | nil => rfl
  | cons t ts ih => exact ih _

theorem instanceOf?_inj {self : Interner} {s t : DataType} {i : Instance}
    (hs : self.instanceOf? s = some i) (ht : self.instanceOf? t = some i) : s = t := by
  unfold instanceOf? at hs ht
  split at hs <;> split at ht
  · cases hs
    cases ht
    rfl
  · cases hs
    simp at ht
  · cases ht
    simp at hs
  · obtain ⟨j, hj, rfl⟩ := Option.map_eq_some_iff.mp hs
    obtain ⟨k, hk, he⟩ := Option.map_eq_some_iff.mp ht
    cases he
    obtain ⟨e, he, rfl⟩ := find?_some hj
    obtain ⟨f, hf, rfl⟩ := find?_some hk
    rw [Option.some.inj (he.symm.trans hf)]

/-- The parts of an instance are the instances of the components of its type. -/
theorem Canonical.partsOf {self : Interner} (h : self.Canonical) {t : DataType} {i : Instance}
    (hi : self.instanceOf? t = some i) :
    List.Forall₂ self.Assigned (self.partsOf i) t.components := by
  unfold instanceOf? at hi
  split at hi
  · cases hi
    cases t <;> first | exact .nil | simp_all [DataType.isPrimitive]
  · obtain ⟨j, hj, rfl⟩ := Option.map_eq_some_iff.mp hi
    obtain ⟨e, he, rfl⟩ := find?_some hj
    simpa [Interner.partsOf, he] using h.parts e (List.mem_of_getElem? he)

theorem Canonical.component {self : Interner} (h : self.Canonical) {c t : DataType}
    {i : Instance} (hi : self.instanceOf? t = some i) (hc : some c ∈ t.components) :
    ∃ k ∈ self.partsOf i, self.instanceOf? c = some k := by
  obtain ⟨k, hk, u, hu, hi⟩ := forall₂_mem_right (h.partsOf hi) hc
  cases hu
  exact ⟨k, hk, hi⟩

/-- Whatever occurs in a type that has an instance has one too. -/
theorem Canonical.within {self : Interner} (h : self.Canonical) {c t : DataType}
    (hw : c.Within t) {i : Instance} (hi : self.instanceOf? t = some i) :
    ∃ k, self.instanceOf? c = some k := by
  induction hw generalizing i with
  | refl => exact ⟨i, hi⟩
  | tail _ hb ih =>
    obtain ⟨k, _, hk⟩ := h.component hi hb
    exact ih hk

/-- Reached from an instance through parts. -/
def Nested (self : Interner) : Instance → Instance → Prop :=
  Relation.ReflTransGen fun k i => k ∈ self.partsOf i

theorem Canonical.nested {self : Interner} (h : self.Canonical) {k i : Instance}
    (hk : self.Nested k i) {t : DataType} (hi : self.instanceOf? t = some i) :
    ∃ c, c.Within t ∧ self.instanceOf? c = some k := by
  induction hk generalizing t with
  | refl => exact ⟨t, .refl, hi⟩
  | tail _ hpart ih =>
    obtain ⟨c, hc, u, rfl, hu⟩ := forall₂_mem_left (h.partsOf hi) hpart
    obtain ⟨d, hd, hk⟩ := ih hu
    exact ⟨d, hd.tail hc, hk⟩

/-- The type that is read off an instance by following its parts. Of the type in an entry only the
kind and the names are looked at. -/
inductive Shows (self : Interner) : Instance → DataType → Prop
  | table {t : DataType} (primitive : t.isPrimitive = true) : Shows self (.table t) t
  | entry {i : Nat} {e : Entry} {t : DataType} (found : self.entries[i]? = some e)
      (head : e.type.SameHead t) (composite : t.isPrimitive = false)
      (present : none ∉ t.components) (count : e.parts.length = t.components.length)
      (parts : ∀ p c, (p, some c) ∈ e.parts.zip t.components → Shows self p c) :
      Shows self (.entry i) t

/-- A complete type is read off its instance. -/
theorem Canonical.shows {self : Interner} (h : self.Canonical) {t : DataType} (ht : t.Complete)
    {i : Instance} (hi : self.instanceOf? t = some i) : self.Shows i t := by
  induction ht generalizing i with
  | @intro t hpresent _ ih =>
    have hparts := h.partsOf hi
    unfold instanceOf? at hi
    split at hi
    · rename_i hp
      cases hi
      exact .table hp
    · rename_i hp
      obtain ⟨j, hj, rfl⟩ := Option.map_eq_some_iff.mp hi
      obtain ⟨e, he, rfl⟩ := find?_some hj
      simp only [Interner.partsOf, he, Option.map_some, Option.getD_some] at hparts
      refine .entry he ⟨rfl, rfl⟩ (by simpa using hp) hpresent hparts.length_eq ?_
      intro p c hpc
      obtain ⟨u, hu, hi⟩ := List.forall₂_zip hparts hpc
      cases hu
      exact ih c (List.of_mem_zip hpc).2 hi

theorem Shows.unique {self : Interner} {i : Instance} {t u : DataType} (ht : self.Shows i t)
    (hu : self.Shows i u) : t = u := by
  induction ht generalizing u with
  | table _ =>
    cases hu
    rfl
  | entry found head composite present count _ ih =>
    cases hu with
    | entry found' head' composite' present' count' parts' =>
      cases Option.some.inj (found.symm.trans found')
      refine DataType.eq_of_sameHead composite ⟨head.1.symm.trans head'.1,
        head.2.symm.trans head'.2⟩ (eq_of_zip count count' ?_)
      intro p c d hc hd
      cases c with
      | none => exact absurd (List.of_mem_zip hc).2 present
      | some c =>
        cases d with
        | none => exact absurd (List.of_mem_zip hd).2 present'
        | some d => rw [ih p c hc (parts' p d hd)]

/-- The composite types that an interner has are those that occur in what it interned. -/
theorem size_eq {types : List DataType} {hash : Text → UInt64} {last : Interner}
    (h : last.Canonical)
    (hx : ({ hash := hash } : Interner).Extends last fun d => ∃ t ∈ types, d.Within t)
    (hfound : ∀ t ∈ types, ∃ i, last.instanceOf? t = some i) :
    (last.size : ℕ∞) = (DataType.compositesIn types).encard := by
  classical
  have hset : DataType.compositesIn types =
      ((last.entries.map Entry.type).toFinset : Set DataType) := by
    ext c
    simp only [DataType.compositesIn, Set.mem_ofPred_eq, List.coe_toFinset, List.mem_map]
    constructor
    · rintro ⟨hc, t, ht, hw⟩
      obtain ⟨i, hi⟩ := hfound t ht
      obtain ⟨k, hk⟩ := h.within hw hi
      obtain ⟨j, hj, _⟩ := Option.map_eq_some_iff.mp
        (show (last.find? c).map .entry = some k by simpa [instanceOf?, hc] using hk)
      obtain ⟨e, he, het⟩ := find?_some hj
      exact ⟨e, List.mem_of_getElem? he, het⟩
    · rintro ⟨e, he, rfl⟩
      rcases hx.added e he with hm | hw
      · cases hm
      · exact ⟨h.composite e he, hw⟩
  rw [hset, Set.encard_coe_eq_coe_finsetCard, List.toFinset_card_of_nodup h.distinct,
    List.length_map, size]

/-- Over every run of complete types, with any hash: every call succeeds and what its instance shows
is the argument; calls have one instance exactly if their arguments are equal, and a primitive one
is its own; all that is nested in an instance is what interning it would give; entries stay as they
are; and the size counts the composite types inside the arguments. -/
theorem internEach_canonical (hash : Text → UInt64) (types : List DataType)
    (h : ∀ t ∈ types, t.Complete) :
    ∃ (last : Interner) (is : List Instance),
      ({ hash := hash } : Interner).internEach types = (last, is.map .ok) ∧
      is.length = types.length ∧
      (∀ a ∈ is.zip types, ∀ u, last.Shows a.1 u ↔ u.equals a.2 = true) ∧
      (∀ a ∈ is.zip types, ∀ b ∈ is.zip types, a.1 = b.1 ↔ a.2.equals b.2 = true) ∧
      (∀ a ∈ is.zip types, a.2.isPrimitive = true → a.1 = .table a.2) ∧
      (∀ a ∈ is.zip types, ∀ k, last.Nested k a.1 →
        ∃ c, c.Within a.2 ∧ last.Shows k c ∧ last.intern c = (last, .ok k)) ∧
      (∀ early late, types = early ++ late →
        (({ hash := hash } : Interner).internEach early).1.entries <+: last.entries) ∧
      (last.size : ℕ∞) = (DataType.compositesIn types).encard := by
  obtain ⟨last, is, hrun, hlast, hx, ha⟩ := internEach_spec h _ (.empty hash)
  have hassigned : ∀ a ∈ is.zip types, a.2.Complete ∧ last.instanceOf? a.2 = some a.1 := by
    intro a hm
    exact ⟨h a.2 (List.of_mem_zip hm).2, List.forall₂_zip ha hm⟩
  refine ⟨last, is, hrun, ha.length_eq, ?_, ?_, ?_, ?_, ?_, ?_⟩
  · intro a hm u
    obtain ⟨hc, hi⟩ := hassigned a hm
    rw [DataType.equals_iff]
    constructor
    · intro hu
      exact hu.unique (hlast.shows hc hi)
    · rintro rfl
      exact hlast.shows hc hi
  · intro a hm b hn
    have hi := (hassigned a hm).2
    have hj := (hassigned b hn).2
    rw [DataType.equals_iff]
    constructor
    · intro he
      exact instanceOf?_inj hi (he ▸ hj)
    · intro he
      rw [he] at hi
      exact Option.some.inj (hi.symm.trans hj)
  · intro a hm hp
    have hi := (hassigned a hm).2
    rw [instanceOf?, if_pos hp] at hi
    exact (Option.some.inj hi).symm
  · intro a hm k hk
    obtain ⟨hc, hi⟩ := hassigned a hm
    obtain ⟨c, hw, hck⟩ := hlast.nested hk hi
    exact ⟨c, hw, hlast.shows (hc.within hw) hck, intern_instanceOf? hck⟩
  · intro early late he
    subst he
    have hearly : ∀ t ∈ early, t.Complete := fun t ht => h t (List.mem_append_left _ ht)
    have hlate : ∀ t ∈ late, t.Complete := fun t ht => h t (List.mem_append_right _ ht)
    obtain ⟨mid, _, hmid, hcanonical, _⟩ := internEach_spec hearly _ (.empty hash)
    obtain ⟨end', _, hend, _, hkept, _⟩ := internEach_spec hlate mid hcanonical
    have hlast' : last = end' := by
      have := internEach_append { hash := hash } early late
      rw [hrun, hmid, hend] at this
      exact this
    rw [hmid, hlast']
    exact hkept.kept
  · refine size_eq hlast hx ?_
    intro t ht
    obtain ⟨i, _, hi⟩ := forall₂_mem_right ha ht
    exact ⟨i, hi⟩

/-- A record of two integers, and one with a single field whose name makes up for the other. -/
def twins : DataType × DataType :=
  (.record [(utf8 "a", .scalar .int), (utf8 "b", .scalar .int)],
    .record [(utf8 "a INT, b", .scalar .int)])

/-- Two types with one text, and a function from one to the other, all with the same hash. -/
theorem internEach_canonical_twins :
    twins.1.text = twins.2.text ∧
    (∀ t ∈ [twins.1, .function (some twins.1) [some twins.2], twins.2], t.Complete) ∧
    ∃ (last : Interner) (i j k : Instance), ({ hash := fun _ => 0 } : Interner).internEach
        [twins.1, .function (some twins.1) [some twins.2], twins.2] =
          (last, [.ok i, .ok j, .ok k]) ∧
      i ≠ k ∧ last.Shows i twins.1 ∧ last.Shows k twins.2 ∧
      last.Shows j (.function (some twins.1) [some twins.2]) := by
  have hint : (DataType.scalar .int).Complete :=
    ⟨by simp [DataType.components], by simp [DataType.components]⟩
  have hfirst : twins.1.Complete :=
    ⟨by simp [twins, DataType.components], by simp [twins, DataType.components, hint]⟩
  have hsecond : twins.2.Complete :=
    ⟨by simp [twins, DataType.components], by simp [twins, DataType.components, hint]⟩
  have hcomplete : ∀ t ∈ [twins.1, .function (some twins.1) [some twins.2], twins.2],
      t.Complete := by
    simp only [List.forall_mem_cons, List.not_mem_nil, false_imp_iff, implies_true, and_true]
    refine ⟨hfirst, ⟨by simp [DataType.components], ?_⟩, hsecond⟩
    simp only [DataType.components, List.mem_cons, Option.some.injEq, List.not_mem_nil, or_false]
    rintro c (rfl | rfl)
    · exact hfirst
    · exact hsecond
  obtain ⟨last, is, hrun, hlength, hshows, hsame, -⟩ :=
    internEach_canonical (fun _ => 0) _ hcomplete
  obtain ⟨i, j, k, rfl⟩ := List.length_eq_three.mp hlength
  have hdiffer : twins.1.equals twins.2 = false := by decide +kernel
  refine ⟨by decide, hcomplete, last, i, j, k, hrun, ?_, ?_, ?_, ?_⟩
  · intro he
    have := (hsame (i, twins.1) (by simp) (k, twins.2) (by simp)).mp he
    simp [hdiffer] at this
  · exact (hshows (i, twins.1) (by simp) _).mpr ((DataType.equals_iff _ _).mpr rfl)
  · exact (hshows (k, twins.2) (by simp) _).mpr ((DataType.equals_iff _ _).mpr rfl)
  · exact (hshows (j, .function (some twins.1) [some twins.2]) (by simp) _).mpr
      ((DataType.equals_iff _ _).mpr rfl)

end Interner

end TypedStream
