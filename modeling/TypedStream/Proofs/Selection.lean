import TypedStream.Command.Run
import TypedStream.Proofs.Draft
import TypedStream.Proofs.FieldOrder

namespace TypedStream

namespace Text

theorem splitFirst_eq_none_iff {b : UInt8} {text : Text} :
    splitFirst b text = none ↔ b ∉ text := by
  induction text with
  | nil => simp [splitFirst]
  | cons a rest ih =>
    by_cases h : a = b
    · simp [splitFirst, h]
    · simp [splitFirst, h, Ne.symm h, ih]

theorem splitFirst_eq_some {b : UInt8} {text front back : Text}
    (h : splitFirst b text = some (front, back)) : text = front ++ b :: back := by
  induction text generalizing front with
  | nil => simp [splitFirst] at h
  | cons a rest ih =>
    by_cases hab : a = b
    · simp only [splitFirst, hab, ↓reduceIte, Option.some.injEq, Prod.mk.injEq] at h
      obtain ⟨rfl, rfl⟩ := h
      simp [hab]
    · simp only [splitFirst, hab, ↓reduceIte] at h
      obtain ⟨⟨before, behind⟩, hrest, he⟩ := Option.map_eq_some_iff.mp h
      cases he
      rw [List.cons_append, ← ih hrest]

end Text

namespace Selection

theorem parse_plain {name : Text} (h : 58 ∉ name) : parse name = ⟨name, name⟩ := by
  rw [parse, Text.splitFirst_eq_none_iff.mpr h]

theorem name_parse_iff {text : Text} : (parse text).name = text ↔ 58 ∉ text := by
  constructor
  · intro h hcolon
    cases hsplit : Text.splitFirst 58 text with
    | none => exact Text.splitFirst_eq_none_iff.mp hsplit hcolon
    | some parts =>
      rw [parse, hsplit] at h
      have hlength := congrArg List.length (Text.splitFirst_eq_some hsplit)
      rw [← h] at hlength
      simp at hlength
  · intro h
    rw [parse_plain h]

/-- The field that is drafted for a selection, of the record type in question. -/
def Drafts (env : Environment) (s : Selection) (b : FieldDraft) : Prop :=
  ∃ p, (Expr.variable s.name).check env = .ok p ∧
    b = { expression := p, display := s.name, serialization := s.label }

end Selection

namespace Draft

open Selection (Drafts)

variable {env : Environment} {fields : List FieldDraft} {next : Draft}

theorem select_ok_iff {s : Selection} :
    select ⟨fields, false⟩ env s = .ok next ↔
      ∃ b, Drafts env s b ∧ next = ⟨fields ++ [b], false⟩ := by
  rw [select, bind_ok_iff]
  constructor
  · intro ⟨p, hp, h⟩
    cases h
    exact ⟨_, ⟨p, hp, rfl⟩, rfl⟩
  · intro ⟨b, ⟨p, hp, hb⟩, hnext⟩
    subst hb hnext
    exact ⟨p, hp, rfl⟩

theorem selectAll_ok_iff {selections : List Selection} :
    selectAll env ⟨fields, false⟩ selections = .ok next ↔
      ∃ bs, List.Forall₂ (Drafts env) selections bs ∧ next = ⟨fields ++ bs, false⟩ := by
  induction selections generalizing fields with
  | nil => simp [selectAll, eq_comm]
  | cons s selections ih =>
    rw [selectAll, bind_ok_iff]
    constructor
    · intro ⟨middle, hs, h⟩
      obtain ⟨b, hb, rfl⟩ := select_ok_iff.mp hs
      obtain ⟨bs, hbs, rfl⟩ := ih.mp h
      exact ⟨b :: bs, .cons hb hbs, by simp⟩
    · intro ⟨bs, hbs, hnext⟩
      subst hnext
      cases hbs with
      | @cons _ b _ bs hb hbs =>
        refine ⟨_, select_ok_iff.mpr ⟨b, hb, rfl⟩, ?_⟩
        exact ih.mpr ⟨bs, hbs, by simp⟩

end Draft

theorem DataType.names_of_checkFields {index : Nat} {seen : List Text}
    {fields : List (Text × Option DataType)} {fs : List (Text × DataType)}
    (h : checkFields index seen fields = .ok fs) :
    (fs.map Prod.fst).Nodup ∧ ∀ f ∈ fs, f.1 ≠ [] ∧ f.1 ∉ seen := by
  induction fields generalizing index seen fs with
  | nil =>
    cases h
    simp
  | cons field rest ih =>
    obtain ⟨name, type⟩ := field
    unfold checkFields at h
    split at h
    · cases h
    · rename_i hempty
      split at h
      · cases h
      · rename_i hseen
        cases type with
        | none => cases h
        | some t =>
          obtain ⟨gs, hgs, h⟩ := bind_ok_iff.mp h
          cases h
          obtain ⟨hnodup, hnames⟩ := ih hgs
          have hname : name ≠ [] ∧ name ∉ seen := by simp_all
          refine ⟨?_, List.forall_mem_cons.mpr ⟨hname, ?_⟩⟩
          · rw [List.map_cons, List.nodup_cons]
            refine ⟨fun hmem => ?_, hnodup⟩
            obtain ⟨g, hg, he⟩ := List.mem_map.mp hmem
            exact (hnames g hg).2 (by simp [he])
          · intro f hf
            obtain ⟨hne, hnew⟩ := hnames f hf
            exact ⟨hne, fun hmem => hnew (List.mem_cons_of_mem _ hmem)⟩

theorem StreamDeclaration.names_of_schema {s : StreamDeclaration} {t : DataType}
    (h : s.schema = .ok t) :
    ∃ fs, t = .record fs ∧ (fs.map Prod.fst).Nodup ∧ ∀ f ∈ fs, f.1 ≠ [] := by
  obtain ⟨fields, _, h⟩ := bind_ok_iff.mp h
  obtain ⟨fs, hfs, rfl⟩ := map_ok_iff.mp (mapError_ok_iff.mp h)
  obtain ⟨hnodup, hnames⟩ := DataType.names_of_checkFields hfs
  exact ⟨fs, rfl, hnodup, fun f hf => (hnames f hf).1⟩

theorem DataType.fieldIndex_of_getElem? {fs : List (Text × DataType)}
    (hnames : (fs.map Prod.fst).Nodup) {i : Nat} {f : Text × DataType} (h : fs[i]? = some f) :
    (DataType.record fs).fieldIndex f.1 = some i := by
  obtain ⟨j, hj, hfound⟩ := fieldIndex_of_mem hnames (List.mem_of_getElem? h)
  have hnamesEq : (fs.map Prod.fst)[i]? = (fs.map Prod.fst)[j]? := by simp [h, hfound]
  obtain ⟨hlt, _⟩ := List.getElem?_eq_some_iff.mp h
  rw [hj, (List.getElem?_inj (by simpa using hlt) hnames).mp hnamesEq]

namespace Projection

/-- The projection takes over every field of the records, under its own name. -/
structure Whole (p : Projection) (record : DataType) : Prop where
  type : p.recordType.equals record = true
  fields : p.fields = record.fields.mapIdx fun i f =>
    ⟨.variable f.1 i (some f.2), f.1, f.1, f.1⟩

variable {fs : List (Text × DataType)}

/-- The field that is drafted for a field of the record type. -/
def taken (i : Nat) (f : Text × DataType) : FieldDraft :=
  { expression := .variable f.1 i (some f.2), display := f.1, serialization := f.1 }

theorem drafts_taken {env : Environment} (henv : env.record = some (.record fs))
    (hnames : (fs.map Prod.fst).Nodup) {i : Nat} {f : Text × DataType} (h : fs[i]? = some f) :
    Selection.Drafts env ⟨f.1, f.1⟩ (taken i f) := by
  refine ⟨.variable f.1 i (some f.2), ?_, rfl⟩
  rw [Expr.check]
  exact Expr.checkVariable_ok_iff.mpr
    ⟨_, i, f.2, henv, DataType.fieldIndex_of_getElem? hnames h, h, rfl⟩

theorem eq_of_describes {gs : List (Text × DataType)}
    (h : List.Forall₂ FieldDraft.Describes (fs.mapIdx taken) gs) : gs = fs := by
  apply List.ext_getElem?
  intro i
  cases hf : fs[i]? with
  | none =>
    have hlength := h.length_eq
    rw [List.length_mapIdx] at hlength
    rw [List.getElem?_eq_none_iff] at hf ⊢
    omega
  | some f =>
    have htaken : (fs.mapIdx taken)[i]? = some (taken i f) := by simp [hf]
    obtain ⟨g, hg, hname, htype⟩ := forall₂_getElem? h htaken
    rw [hg, Prod.ext hname (Option.some.inj htype).symm]

theorem serialization_taken (fs : List (Text × DataType)) :
    (fs.mapIdx taken).map FieldDraft.serialization = fs.map Prod.fst := by
  apply List.ext_getElem?
  intro i
  simp [taken, Function.comp_def]

theorem labeled_taken (fs : List (Text × DataType)) :
    (fs.mapIdx taken).map FieldDraft.labeled =
      fs.mapIdx fun i f => ⟨.variable f.1 i (some f.2), f.1, f.1, f.1⟩ := by
  apply List.ext_getElem?
  intro i
  simp [taken, FieldDraft.labeled, Function.comp_def]

theorem ready_taken (hne : fs ≠ []) (hnames : (fs.map Prod.fst).Nodup)
    (hnamed : ∀ f ∈ fs, f.1 ≠ []) : Draft.Ready ⟨fs.mapIdx taken, false⟩ := by
  refine ⟨rfl, by simpa using hne, ?_, by rwa [serialization_taken]⟩
  intro b hb
  obtain ⟨i, hi, rfl⟩ := List.mem_mapIdx.mp hb
  exact FieldDraft.check_ok_iff.mpr ⟨rfl, hnamed _ (List.getElem_mem hi)⟩

theorem coherent_of_drafts {env : Environment} {selections : List Selection}
    {bs : List FieldDraft} (h : List.Forall₂ (Selection.Drafts env) selections bs) :
    Draft.Coherent ⟨bs, false⟩ := by
  intro b hb l hl
  obtain ⟨s, _, p, _, rfl⟩ := forall₂_mem_right h hb
  cases hl

theorem ofSelections_ok_iff {strictNulls : Bool} {p : Projection} :
    ofSelections (.record fs) strictNulls [] = .ok p ↔
      ∃ bs next, List.Forall₂ (Selection.Drafts
          ⟨some (.record fs), some Registry.builtin, strictNulls⟩)
          (fs.map fun f => Selection.parse f.1) bs ∧
        Draft.finalize ⟨bs, false⟩ = .ok (next, p) := by
  rw [ofSelections, bind_ok_iff]
  constructor
  · intro ⟨d, hd, h⟩
    obtain ⟨bs, hbs, rfl⟩ := Draft.selectAll_ok_iff.mp hd
    obtain ⟨⟨next, q⟩, hfinal, h⟩ := bind_ok_iff.mp h
    cases h
    exact ⟨bs, next, hbs, hfinal⟩
  · intro ⟨bs, next, hbs, hfinal⟩
    refine ⟨⟨bs, false⟩, Draft.selectAll_ok_iff.mpr ⟨bs, hbs, rfl⟩, ?_⟩
    rw [bind_ok_iff]
    exact ⟨(next, p), hfinal, rfl⟩

theorem ofSelections_whole (hne : fs ≠ []) (hnames : (fs.map Prod.fst).Nodup)
    (hnamed : ∀ f ∈ fs, f.1 ≠ []) (hplain : ∀ f ∈ fs, 58 ∉ f.1) (strictNulls : Bool) :
    ∃ p, ofSelections (.record fs) strictNulls [] = .ok p ∧ p.Whole (.record fs) := by
  have hdrafts : List.Forall₂
      (Selection.Drafts ⟨some (.record fs), some Registry.builtin, strictNulls⟩)
      (fs.map fun f => Selection.parse f.1) (fs.mapIdx taken) := by
    apply forall₂_mapIdx
    intro i f hf
    rw [Selection.parse_plain (hplain f (List.mem_of_getElem? hf))]
    exact drafts_taken rfl hnames hf
  obtain ⟨gs, hgs, hfinal⟩ := Draft.finalize_ready (coherent_of_drafts hdrafts)
    (ready_taken hne hnames hnamed)
  refine ⟨_, ofSelections_ok_iff.mpr ⟨_, _, hdrafts, hfinal⟩, ?_, ?_⟩
  · rw [eq_of_describes hgs]
    exact (DataType.equals_iff _ _).mpr rfl
  · exact labeled_taken fs

/-- A projection of the whole record was selected by names without colons: what stands before a
colon is another name than that of the field. -/
theorem plain_of_whole {strictNulls : Bool} {p : Projection}
    (h : ofSelections (.record fs) strictNulls [] = .ok p) (hwhole : p.Whole (.record fs)) :
    ∀ f ∈ fs, 58 ∉ f.1 := by
  intro f hf
  obtain ⟨i, hi⟩ := List.mem_iff_getElem?.mp hf
  obtain ⟨bs, next, hbs, hfinal⟩ := ofSelections_ok_iff.mp h
  obtain ⟨gs, _, hfinal'⟩ := Draft.finalize_ready (coherent_of_drafts hbs)
    (Draft.ready_of_finalize hfinal)
  cases hfinal.symm.trans hfinal'
  have hselection : (fs.map fun f => Selection.parse f.1)[i]? = some (Selection.parse f.1) := by
    simp [hi]
  obtain ⟨b, hb, q, hq, rfl⟩ := forall₂_getElem? hbs hselection
  rw [Expr.check] at hq
  obtain ⟨_, j, t, _, _, _, rfl⟩ := Expr.checkVariable_ok_iff.mp hq
  have hfields := congrArg (fun labels => (labels[i]?).map Labeled.expression) hwhole.fields
  simp only [List.getElem?_map, hb, Option.map_some, DataType.fields, List.getElem?_mapIdx, hi,
    FieldDraft.labeled, Option.some.injEq, Plan.variable.injEq] at hfields
  exact Selection.name_parse_iff.mp hfields.1

theorem ne_nil_of_ofSelections {strictNulls : Bool} {p : Projection}
    (h : ofSelections (.record fs) strictNulls [] = .ok p) : fs ≠ [] := by
  obtain ⟨bs, next, hbs, hfinal⟩ := ofSelections_ok_iff.mp h
  intro hnil
  rw [hnil] at hbs
  cases hbs
  exact (Draft.ready_of_finalize hfinal).nonempty rfl

theorem variable_of_whole {record : DataType} {p : Projection} (h : p.Whole record) :
    ∀ l ∈ p.fields, ∃ name i t, l.expression = .variable name i t := by
  intro l hl
  rw [h.fields] at hl
  obtain ⟨i, hi, rfl⟩ := List.mem_mapIdx.mp hl
  exact ⟨_, _, _, rfl⟩

theorem exists_dumpAll? {labels : List Labeled}
    (h : ∀ l ∈ labels, ∃ name i t, l.expression = .variable name i t) :
    ∃ text, dumpAll? labels = some text := by
  induction labels with
  | nil => exact ⟨[], rfl⟩
  | cons l labels ih =>
    obtain ⟨⟨name, i, t, hl⟩, hrest⟩ := List.forall_mem_cons.mp h
    obtain ⟨text, htext⟩ := ih hrest
    simp [dumpAll?, Labeled.dump?, hl, Plan.dump?, Plan.ownLines?, Plan.heading?, htext]

theorem exists_explainAll? {labels : List Labeled}
    (h : ∀ l ∈ labels, ∃ name i t, l.expression = .variable name i t) :
    ∃ nodes, explainAll? labels = some nodes := by
  induction labels with
  | nil => exact ⟨[], rfl⟩
  | cons l labels ih =>
    obtain ⟨⟨name, i, t, hl⟩, hrest⟩ := List.forall_mem_cons.mp h
    obtain ⟨nodes, hnodes⟩ := ih hrest
    simp [explainAll?, Labeled.explain?, hl, Plan.explain?, hnodes]

theorem exists_shown {record : DataType} {p : Projection} (h : p.Whole record) (graph : Bool) :
    ∃ text, (if graph then p.explain?.map Diagram.dot else p.dump?) = some text := by
  cases graph with
  | true =>
    obtain ⟨nodes, hnodes⟩ := exists_explainAll? (variable_of_whole h)
    simp [explain?, hnodes]
  | false =>
    obtain ⟨text, htext⟩ := exists_dumpAll? (variable_of_whole h)
    simp [dump?, htext]

end Projection

namespace Command

theorem projection_eq {c : Config} {name : Text} {s : StreamDeclaration} {record : DataType}
    {strictNulls : Bool} (hdeclared : c.stream? name = some s) (hschema : s.schema = .ok record)
    (hstrict : c.strictNulls = .ok strictNulls) (selections : List Selection) :
    projection c name selections =
      (Projection.ofSelections record strictNulls selections).mapError .failure := by
  rw [projection]
  simp only [hdeclared, hstrict]
  change (s.schema.mapError Error.failure >>= fun record =>
    (Projection.ofSelections record strictNulls selections).mapError .failure) = _
  rw [hschema]
  rfl

/-- Projecting with no arguments gives the whole stream just where it has fields and no name of one
has a colon in it: a name is read as an argument, and what stands behind a colon is taken for a
label. -/
theorem run_project_whole_iff {read : Reader} {o : Options} {c : Config} {name : Text}
    {s : StreamDeclaration} {record : DataType} {strictNulls : Bool}
    (hconfig : o.readConfig read = .ok c) (hstream : o.stream = some name)
    (hnone : o.arguments = []) (hdeclared : c.stream? name = some s)
    (hschema : s.schema = .ok record) (hstrict : c.strictNulls = .ok strictNulls) :
    (∃ p text, projection c name [] = .ok p ∧ p.Whole record ∧
      (if o.graph then p.explain?.map Diagram.dot else p.dump?) = some text ∧
      (run read o .project).result = .ok text) ↔
    record.fields ≠ [] ∧ ∀ f ∈ record.fields, 58 ∉ f.1 := by
  obtain ⟨fs, rfl, hnames, hnamed⟩ := StreamDeclaration.names_of_schema hschema
  have hprojection := projection_eq hdeclared hschema hstrict []
  constructor
  · intro ⟨p, text, hp, hwhole, _, _⟩
    have hselected := mapError_ok_iff.mp (hprojection.symm.trans hp)
    exact ⟨Projection.ne_nil_of_ofSelections hselected,
      Projection.plain_of_whole hselected hwhole⟩
  · intro ⟨hne, hplain⟩
    change fs ≠ [] at hne
    obtain ⟨p, hp, hwhole⟩ := Projection.ofSelections_whole hne hnames hnamed hplain strictNulls
    obtain ⟨text, htext⟩ := Projection.exists_shown hwhole o.graph
    have hproject : projection c name [] = .ok p := by rw [hprojection, hp, mapError_ok]
    refine ⟨p, text, hproject, hwhole, htext, ?_⟩
    have hrun : (run read o .project).result = runProject c name o.graph [] := by
      simp only [run, hstream, hconfig, hnone]
      rfl
    rw [hrun, runProject, List.map_nil, hproject]
    simp only [bind, Except.bind, htext]
    rfl

def spacedStream : StreamDeclaration :=
  { name := utf8 "s", fields := [⟨utf8 "a b", utf8 "NULLABLE(DOUBLE)"⟩, ⟨utf8 "k", utf8 "INT"⟩] }

theorem run_project_spaced :
    ∃ p text, projection ⟨[spacedStream], [], []⟩ (utf8 "s") [] = .ok p ∧
      p.Whole (.record [(utf8 "a b", .nullable .double), (utf8 "k", .scalar .int)]) ∧
      p.dump? = some text ∧
      (run (fun _ => .ok ⟨[spacedStream], [], []⟩)
        { config := utf8 "c", stream := some (utf8 "s") } .project).result = .ok text :=
  (run_project_whole_iff (o := { config := utf8 "c", stream := some (utf8 "s") })
    (s := spacedStream) rfl rfl rfl rfl rfl rfl).mpr ⟨by decide, by decide⟩

def colonStream : StreamDeclaration :=
  { name := utf8 "s", fields := [⟨utf8 "a:b", utf8 "INT"⟩] }

/-- The part before the colon is no field of the records. -/
theorem run_project_colon :
    colonStream.schema = .ok (.record [(utf8 "a:b", .scalar .int)]) ∧
      (run (fun _ => .ok ⟨[colonStream], [], []⟩)
        { config := utf8 "c", stream := some (utf8 "s") } .project).result =
      .error (.failure (.type (.unknownVariable (utf8 "a")))) :=
  ⟨rfl, rfl⟩

end Command

end TypedStream
