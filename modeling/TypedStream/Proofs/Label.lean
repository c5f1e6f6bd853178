import Mathlib.Data.List.Forall2
import TypedStream.Diagram
import TypedStream.Proofs.Text

namespace TypedStream

namespace Label

/-- The bytes that divide a label, unless they are escaped. -/
inductive Mark where
  | quote
  | opening
  | closing
  | divider
  | outletOpening
  | outletClosing

def Mark.ofByte? (b : UInt8) : Option Mark :=
  if b = 34 then some quote
  else if b = 123 then some opening
  else if b = 125 then some closing
  else if b = 124 then some divider
  else if b = 60 then some outletOpening
  else if b = 62 then some outletClosing
  else none

/-- A byte of a text, or a mark. -/
inductive Symbol where
  | byte (b : UInt8)
  | mark (m : Mark)

/-- Tells bytes of texts from marks. A backslash makes the next byte one of a text, whatever it is;
there has to be one. -/
def scan : Text → Option (List Symbol)
  | [] => some []
  | b :: rest =>
    if b = 92 then
      match rest with
      | [] => none
      | c :: behind => (scan behind).map (.byte c :: ·)
    else
      (scan rest).map ((Mark.ofByte? b).elim (.byte b) .mark :: ·)

/-- A cell, from which an edge may start, or parts in curly brackets. -/
inductive Part where
  | cell (outlet : Option Text) (text : Text)
  | group (parts : List Part)

/-- What was read of a part that may go on. -/
inductive Pending where
  | nothing
  | outlet (name : Text)
  | part (p : Part)

namespace Pending

def add (b : UInt8) : Pending → Option Pending
  | nothing => some (.part (.cell none [b]))
  | outlet name => some (.outlet (name ++ [b]))
  | part (.cell name text) => some (.part (.cell name (text ++ [b])))
  | part (.group _) => none

/-- The part if it ends here. -/
def finish : Pending → Option Part
  | nothing => some (.cell none [])
  | outlet _ => none
  | part p => some p

end Pending

/-- How far a label was read. -/
inductive Reading where
  | start
  /-- In a group with the given parts, the last first, and inside of groups with such parts, the
  innermost first. -/
  | inside (parts : List Part) (around : List (List Part)) (pending : Pending)
  | done (parts : List Part)

namespace Reading

def step : Reading → Symbol → Option Reading
  | start, .mark .quote => some (.inside [] [] .nothing)
  | inside parts around pending, .byte b => (pending.add b).map (.inside parts around)
  | inside parts around .nothing, .mark .opening => some (.inside [] (parts :: around) .nothing)
  | inside parts around .nothing, .mark .outletOpening => some (.inside parts around (.outlet []))
  | inside parts around (.outlet name), .mark .outletClosing =>
    some (.inside parts around (.part (.cell (some name) [])))
  | inside parts around pending, .mark .divider =>
    pending.finish.map fun p => .inside (p :: parts) around .nothing
  | inside parts (outer :: around) pending, .mark .closing =>
    pending.finish.map fun p => .inside outer around (.part (.group (p :: parts).reverse))
  | inside parts [] pending, .mark .quote =>
    pending.finish.map fun p => .done (p :: parts).reverse
  | _, _ => none

def run (r : Reading) (symbols : List Symbol) : Option Reading := symbols.foldlM step r

end Reading

/-- The parts of a label, if it is well-formed. -/
def read (label : Text) : Option (List Part) :=
  match (scan label).bind (Reading.run .start) with
  | some (.done parts) => some parts
  | _ => none

theorem plain_of_not_isSpecial {b : UInt8} (h : Diagram.isSpecial b = false) :
    b ≠ 92 ∧ Mark.ofByte? b = none := by
  simp only [Diagram.isSpecial, Bool.or_eq_false_iff, beq_eq_false_iff_ne] at h
  obtain ⟨⟨⟨⟨⟨⟨h92, h34⟩, h60⟩, h62⟩, h123⟩, h125⟩, h124⟩ := h
  simp [Mark.ofByte?, h92, h34, h60, h62, h123, h125, h124]

theorem scan_of_ne {b : UInt8} (h : b ≠ 92) (rest : Text) :
    scan (b :: rest) = (scan rest).map ((Mark.ofByte? b).elim (.byte b) .mark :: ·) := by
  cases rest <;> simp [scan, h]

theorem scan_escape_append (s rest : Text) :
    scan (Diagram.escape s ++ rest) = (scan rest).map (s.map Symbol.byte ++ ·) := by
  induction s with
  | nil => simp [Diagram.escape]
  | cons b s ih =>
    rw [Diagram.escape]
    cases hb : Diagram.isSpecial b with
    | true => simp [scan, ih, Option.map_map, Function.comp_def]
    | false =>
      obtain ⟨hne, hmark⟩ := plain_of_not_isSpecial hb
      simp [scan_of_ne hne, hmark, ih, Option.map_map, Function.comp_def]

/-- Escaped text is read as that text: there are no marks in it, and no backslash is left over. -/
theorem scan_escape (s : Text) : scan (Diagram.escape s) = some (s.map .byte) := by
  have h := scan_escape_append s []
  simpa [scan] using h

theorem escape_append (s t : Text) :
    Diagram.escape (s ++ t) = Diagram.escape s ++ Diagram.escape t := by
  induction s with
  | nil => rfl
  | cons b s ih =>
    rw [List.cons_append, Diagram.escape, Diagram.escape, ih]
    split <;> rfl

theorem escape_plain {s : Text} (h : ∀ b ∈ s, Diagram.isSpecial b = false) :
    Diagram.escape s = s := by
  induction s with
  | nil => rfl
  | cons b s ih =>
    obtain ⟨hb, hs⟩ := List.forall_mem_cons.mp h
    simp [Diagram.escape, hb, ih hs]

def readFrom (r : Reading) (text : Text) : Option Reading := (scan text).bind r.run

/-- A text leads from one reading to another, whatever comes behind it. -/
def Passes (text : Text) (r next : Reading) : Prop :=
  ∀ rest, readFrom r (text ++ rest) = readFrom next rest

theorem Passes.append {s t : Text} {r middle next : Reading} (hs : Passes s r middle)
    (ht : Passes t middle next) : Passes (s ++ t) r next := by
  intro rest
  rw [List.append_assoc, hs, ht]

theorem passes_mark {b : UInt8} {m : Mark} {r next : Reading} (hb : b ≠ 92)
    (hm : Mark.ofByte? b = some m) (h : r.step (.mark m) = some next) : Passes [b] r next := by
  intro rest
  have hscan : scan ([b] ++ rest) = (scan rest).map (.mark m :: ·) := by
    simp [scan_of_ne hb, hm]
  rw [readFrom, readFrom, hscan]
  cases scan rest with
  | none => rfl
  | some symbols => simp [Reading.run, h]

/-- What becomes of a part when a text is added. -/
def Pending.addAll : Text → Pending → Option Pending
  | [], pending => some pending
  | b :: text, pending => (pending.add b).bind (addAll text)

theorem addAll_cell (outlet : Option Text) (text more : Text) :
    Pending.addAll more (.part (.cell outlet text)) =
      some (.part (.cell outlet (text ++ more))) := by
  induction more generalizing text with
  | nil => simp [Pending.addAll]
  | cons b more ih => simp [Pending.addAll, Pending.add, ih]

theorem addAll_outlet (name more : Text) :
    Pending.addAll more (.outlet name) = some (.outlet (name ++ more)) := by
  induction more generalizing name with
  | nil => simp [Pending.addAll]
  | cons b more ih => simp [Pending.addAll, Pending.add, ih]

theorem addAll_nothing {text : Text} (h : text ≠ []) :
    Pending.addAll text .nothing = some (.part (.cell none text)) := by
  cases text with
  | nil => exact absurd rfl h
  | cons b more => simp [Pending.addAll, Pending.add, addAll_cell]

theorem run_bytes {s : Text} {parts : List Part} {around : List (List Part)}
    {pending next : Pending} (h : pending.addAll s = some next) (symbols : List Symbol) :
    (Reading.inside parts around pending).run (s.map .byte ++ symbols) =
      (Reading.inside parts around next).run symbols := by
  induction s generalizing pending with
  | nil =>
    cases h
    rfl
  | cons b s ih =>
    obtain ⟨middle, hadd, hrest⟩ := Option.bind_eq_some_iff.mp h
    rw [← ih hrest]
    simp [Reading.run, Reading.step, hadd]

theorem passes_escape {s : Text} {pending next : Pending} (h : pending.addAll s = some next)
    (parts : List Part) (around : List (List Part)) :
    Passes (Diagram.escape s) (.inside parts around pending) (.inside parts around next) := by
  intro rest
  rw [readFrom, readFrom, scan_escape_append]
  cases scan rest with
  | none => rfl
  | some symbols => exact run_bytes h symbols

/-- The text is a written form of the part: wherever a part may begin, the part is read. -/
def Writes (text : Text) (p : Part) : Prop :=
  ∀ parts around, Passes text (.inside parts around .nothing) (.inside parts around (.part p))

theorem writes_cell {s : Text} (h : s ≠ []) : Writes (Diagram.escape s) (.cell none s) :=
  passes_escape (addAll_nothing h)

theorem writes_outlet {outlet : Text} (h : Diagram.escape outlet = outlet) (s : Text) :
    Writes (utf8 "<" ++ outlet ++ utf8 ">" ++ Diagram.escape s) (.cell (some outlet) s) := by
  intro parts around
  have hopening : Passes (utf8 "<") (.inside parts around .nothing)
      (.inside parts around (.outlet [])) := passes_mark (by decide) rfl rfl
  have hname : Passes outlet (.inside parts around (.outlet []))
      (.inside parts around (.outlet outlet)) := by
    rw [← h]
    apply passes_escape
    rw [addAll_outlet, h]
    rfl
  have hclosing : Passes (utf8 ">") (.inside parts around (.outlet outlet))
      (.inside parts around (.part (.cell (some outlet) []))) := passes_mark (by decide) rfl rfl
  exact ((hopening.append hname).append hclosing).append (passes_escape (addAll_cell _ _ _) _ _)

theorem passes_joined {texts : List Text} {ps : List Part} (h : List.Forall₂ Writes texts ps)
    (hne : texts ≠ []) (parts outer : List Part) (around : List (List Part)) :
    Passes (Text.join (utf8 "|") texts ++ utf8 "\x7d") (.inside parts (outer :: around) .nothing)
      (.inside outer around (.part (.group (parts.reverse ++ ps)))) := by
  induction h generalizing parts with
  | nil => exact absurd rfl hne
  | @cons text p texts ps hp hrest ih =>
    have hclosing : Passes (utf8 "\x7d") (.inside parts (outer :: around) (.part p))
        (.inside outer around (.part (.group (p :: parts).reverse))) :=
      passes_mark (by decide) rfl rfl
    have hdivider : Passes (utf8 "|") (.inside parts (outer :: around) (.part p))
        (.inside (p :: parts) (outer :: around) .nothing) := passes_mark (by decide) rfl rfl
    cases hrest with
    | nil => simpa [Text.join] using (hp parts (outer :: around)).append hclosing
    | cons =>
      have hall := ((hp parts (outer :: around)).append hdivider).append (ih (by simp) (p :: parts))
      simpa [Text.join] using hall

theorem writes_group {texts : List Text} {ps : List Part} (h : List.Forall₂ Writes texts ps)
    (hne : texts ≠ []) :
    Writes (utf8 "\x7b" ++ (Text.join (utf8 "|") texts ++ utf8 "\x7d")) (.group ps) := by
  intro parts around
  have hopening : Passes (utf8 "\x7b") (.inside parts around .nothing)
      (.inside [] (parts :: around) .nothing) := passes_mark (by decide) rfl rfl
  exact hopening.append (passes_joined h hne [] parts around)

theorem read_quoted {text : Text} {p : Part} (h : Writes text p) :
    read (utf8 "\"" ++ text ++ utf8 "\"") = some [p] := by
  have hstart : Passes (utf8 "\"") .start (.inside [] [] .nothing) :=
    passes_mark (by decide) rfl rfl
  have hend : Passes (utf8 "\"") (.inside [] [] (.part p)) (.done [p]) :=
    passes_mark (by decide) rfl rfl
  have hall := (hstart.append (h [] [])).append hend []
  rw [List.append_nil] at hall
  rw [read, ← readFrom, hall]
  rfl

end Label

namespace Diagram

open Label

/-- A row of a label, left out if it has no cells. -/
def row (cells : List Part) : List Part := if cells.isEmpty then [] else [.group cells]

/-- The cells of a vertex: the name, the fields with their values, and the children with outlets. -/
def cells (d : Diagram) : Part :=
  .group (.group [.cell (some (utf8 "f0")) (utf8 " " ++ d.name)] ::
    (row (d.fields.map fun f => .cell none (f.1 ++ utf8 ": " ++ f.2)) ++
      row (d.children.mapIdx fun i c => .cell (some (outletText i)) (utf8 " " ++ c.1))))

def bracketed (row : Text) : Text := utf8 "\x7b" ++ (row ++ utf8 "\x7d")

theorem bracketed_join {rows : List Text} (h : rows ≠ []) :
    bracketed (Text.join (utf8 "\x7d|\x7b") rows) = Text.join (utf8 "|") (rows.map bracketed) := by
  induction rows with
  | nil => exact absurd rfl h
  | cons row rows ih =>
    cases rows with
    | nil => rfl
    | cons next rows =>
      have hrest := ih (by simp)
      have hmarks : utf8 "\x7d|\x7b" = utf8 "\x7d" ++ (utf8 "|" ++ utf8 "\x7b") := rfl
      simp only [List.map_cons, Text.join, bracketed, hmarks, List.append_assoc] at hrest ⊢
      rw [hrest]

theorem labelRows_ne_nil (d : Diagram) : d.labelRows ≠ [] := by
  cases d
  simp [labelRows]

theorem label_eq (d : Diagram) :
    d.label = utf8 "\"" ++ bracketed (Text.join (utf8 "|") (d.labelRows.map bracketed)) ++
      utf8 "\"" := by
  have hopening : utf8 "\"\x7b\x7b" = utf8 "\"" ++ (utf8 "\x7b" ++ utf8 "\x7b") := rfl
  have hclosing : utf8 "\x7d\x7d\"" = utf8 "\x7d" ++ (utf8 "\x7d" ++ utf8 "\"") := rfl
  rw [← bracketed_join d.labelRows_ne_nil]
  simp only [label, bracketed, hopening, hclosing, List.append_assoc]

theorem isSpecial_digit {b : UInt8} (h : 48 ≤ b.toNat ∧ b.toNat ≤ 57) : isSpecial b = false := by
  simp only [isSpecial, Bool.or_eq_false_iff, beq_eq_false_iff_ne, ne_eq, ← UInt8.toNat_inj]
  simp
  omega

theorem escape_outletText (i : Nat) : escape (outletText i) = outletText i := by
  apply escape_plain
  intro b hb
  rcases List.mem_append.mp hb with hc | hdigit
  · cases List.mem_singleton.mp hc
    rfl
  · exact isSpecial_digit (Text.digit_of_mem_ofNat hdigit)

theorem writes_fieldCells (fields : List (Text × Text)) :
    List.Forall₂ Writes (fieldCells fields)
      (fields.map fun f => .cell none (f.1 ++ utf8 ": " ++ f.2)) := by
  induction fields with
  | nil => exact .nil
  | cons f fields ih =>
    have hcolon : utf8 ": " = [58, 32] := rfl
    have hcell : Writes (escape (f.1 ++ utf8 ": " ++ f.2)) (.cell none (f.1 ++ utf8 ": " ++ f.2)) :=
      writes_cell (by simp [hcolon])
    rw [escape_append, escape_append] at hcell
    exact .cons hcell ih

theorem writes_outletCells (index : Nat) (children : List (Text × Diagram)) :
    List.Forall₂ Writes (outletCells index children) (children.mapIdx fun i c =>
      .cell (some (outletText (index + i))) (utf8 " " ++ c.1)) := by
  induction children generalizing index with
  | nil => exact .nil
  | cons c children ih =>
    have hcell : Writes (utf8 "<" ++ outletText index ++ utf8 ">" ++ escape (utf8 " " ++ c.1))
        (.cell (some (outletText index)) (utf8 " " ++ c.1)) :=
      writes_outlet (escape_outletText index) _
    have hspace : utf8 "> " = utf8 ">" ++ utf8 " " := rfl
    have hescape : escape (utf8 " ") = utf8 " " := rfl
    have hrest := ih (index + 1)
    rw [escape_append, hescape] at hcell
    rw [List.mapIdx_cons, outletCells, hspace]
    refine .cons ?_ ?_
    · simpa using hcell
    · simpa [Nat.add_assoc, Nat.add_comm 1] using hrest

theorem writes_row {texts : List Text} {ps : List Part} (h : List.Forall₂ Writes texts ps) :
    List.Forall₂ Writes
      ((if texts.isEmpty then [] else [Text.join (utf8 "|") texts]).map bracketed) (row ps) := by
  cases h with
  | nil => exact .nil
  | cons hp hrest => exact .cons (writes_group (.cons hp hrest) (by simp)) .nil

theorem writes_labelRows (d : Diagram) :
    List.Forall₂ Writes (d.labelRows.map bracketed)
      (.group [.cell (some (utf8 "f0")) (utf8 " " ++ d.name)] ::
        (row (d.fields.map fun f => .cell none (f.1 ++ utf8 ": " ++ f.2)) ++
          row (d.children.mapIdx fun i c => .cell (some (outletText i)) (utf8 " " ++ c.1)))) := by
  cases d with
  | node name fields children =>
    have hname : Writes (utf8 "<f0> " ++ escape name)
        (.cell (some (utf8 "f0")) (utf8 " " ++ name)) :=
      @writes_outlet (utf8 "f0") rfl (utf8 " " ++ name)
    rw [labelRows, List.map_cons, List.map_append]
    refine .cons (writes_group (.cons hname .nil) (by simp)) ?_
    apply List.rel_append (writes_row (writes_fieldCells fields))
    have houtlets := writes_outletCells 0 children
    simp only [Nat.zero_add] at houtlets
    exact writes_row houtlets

/-- Labels keep their structure whatever the texts in them. Escaped text is read as that text, with
no mark in it and no backslash left over; and the cells that are read from the label of a vertex are
the cells of the vertex. -/
theorem label_keeps_cells (s : Text) (d : Diagram) :
    scan (escape s) = some (s.map .byte) ∧ read d.label = some [d.cells] := by
  refine ⟨scan_escape s, ?_⟩
  rw [label_eq]
  apply read_quoted
  apply writes_group (writes_labelRows d)
  simp [labelRows_ne_nil]

end Diagram

end TypedStream
