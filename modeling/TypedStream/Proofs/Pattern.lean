import TypedStream.Proofs.Arithmetic
import TypedStream.Proofs.Rune

namespace TypedStream

/-- What a pattern is made of. -/
inductive PatternItem where
  | one
  | many
  | exactly (r : Rune)

namespace PatternItem

/-- How an item is written: `_` and `%` (95 and 37) for what they mean, and a code point after a
backslash (92), or as it is if it means nothing else. -/
def Spells : PatternItem → List Rune → Prop
  | one, word => word = [95]
  | many, word => word = [37]
  | exactly r, word => word = [92, r] ∨ word = [r] ∧ r ∉ [37, 92, 95]

/-- What an item takes of a text. -/
def Takes : PatternItem → List Rune → Prop
  | one, piece => ∃ c, piece = [c]
  | many, _ => True
  | exactly r, piece => piece = [r]

/-- The item as a part of an expression. -/
def translated : PatternItem → RegexpItem
  | one => .any
  | many => .all
  | exactly r => .exactly r

end PatternItem

namespace Pattern

variable {R : PatternItem → List Rune → Prop} {items : List PatternItem}

/-- The whole can be split, in order, among the items, each with a piece that is right for it. -/
def Split (R : PatternItem → List Rune → Prop) (items : List PatternItem) (whole : List Rune) :
    Prop :=
  ∃ pieces, whole = pieces.flatten ∧ List.Forall₂ R items pieces

theorem split_nil {whole : List Rune} : Split R [] whole ↔ whole = [] := by
  simp [Split]

theorem split_cons {item : PatternItem} {whole : List Rune} :
    Split R (item :: items) whole ↔
      ∃ piece rest, whole = piece ++ rest ∧ R item piece ∧ Split R items rest := by
  constructor
  · rintro ⟨pieces, rfl, h⟩
    cases h with
    | cons hpiece hrest => exact ⟨_, _, rfl, hpiece, _, rfl, hrest⟩
  · rintro ⟨piece, rest, rfl, hpiece, pieces, rfl, hrest⟩
    exact ⟨piece :: pieces, rfl, .cons hpiece hrest⟩

/-- The last backslash of a pattern that ends in an odd number of them escapes nothing. -/
def OpenEscape (pattern : List Rune) : Prop :=
  (pattern.reverse.takeWhile (· == 92)).length % 2 = 1

instance (pattern : List Rune) : Decidable (OpenEscape pattern) :=
  inferInstanceAs (Decidable (_ = _))

theorem openEscape_plain {r : Rune} (h : r ≠ 92) (rest : List Rune) :
    OpenEscape (r :: rest) ↔ OpenEscape rest := by
  simp only [OpenEscape, List.reverse_cons, List.takeWhile_append]
  split
  · rename_i hall
    simp [h, hall]
  · rfl

/-- Two code points at the front do not change whether an odd number ends the pattern. -/
theorem openEscape_escaped (r : Rune) (rest : List Rune) :
    OpenEscape (92 :: r :: rest) ↔ OpenEscape rest := by
  simp only [OpenEscape, List.reverse_cons, List.append_assoc, List.takeWhile_append]
  split
  · rename_i hall
    rw [hall]
    by_cases hr : r = 92
    · simp [hr]
    · simp [hr]
  · rfl

end Pattern

/-- What an item takes of a text, between what stands before it and what is left. -/
def RegexpItem.Takes : RegexpItem → (before piece rest : List Rune) → Prop
  | start, before, piece, _ => before = [] ∧ piece = []
  | finish, _, piece, rest => piece = [] ∧ rest = []
  | any, _, piece, _ => ∃ c, piece = [c]
  | all, _, _, _ => True
  | exactly r, _, piece, _ => piece = [r]

namespace Regexp

/-- The expression fits at a place of a text, given by what stands before it and what is left. -/
inductive Fits : (before : List Rune) → List RegexpItem → (left : List Rune) → Prop
  | nil {before left : List Rune} : Fits before [] left
  | cons {before piece rest : List Rune} {item : RegexpItem} {items : List RegexpItem}
    (here : item.Takes before piece rest) (next : Fits (before ++ piece) items rest) :
    Fits before (item :: items) (piece ++ rest)

theorem fits_cons {before left : List Rune} {item : RegexpItem} {items : List RegexpItem} :
    Fits before (item :: items) left ↔
      ∃ piece rest, left = piece ++ rest ∧ item.Takes before piece rest ∧
        Fits (before ++ piece) items rest := by
  constructor
  · intro h
    cases h with
    | cons here next => exact ⟨_, _, rfl, here, next⟩
  · rintro ⟨piece, rest, rfl, here, next⟩
    exact .cons here next

/-- For each place from one on, the list tells whether it has the property. -/
inductive Marks (Q : (before left : List Rune) → Prop) :
    (before left : List Rune) → List Bool → Prop
  | nil {before : List Rune} {b : Bool} (here : b = true ↔ Q before []) : Marks Q before [] [b]
  | cons {before left : List Rune} {c : Rune} {b : Bool} {bs : List Bool}
    (here : b = true ↔ Q before (c :: left)) (rest : Marks Q (before ++ [c]) left bs) :
    Marks Q before (c :: left) (b :: bs)

namespace Marks

variable {Q : List Rune → List Rune → Prop} {before left : List Rune} {bs : List Bool}

theorem head (h : Marks Q before left bs) : bs.headD false = true ↔ Q before left := by
  cases h with
  | nil here => exact here
  | cons here rest => exact here

theorem length (h : Marks Q before left bs) : bs.length = left.length + 1 := by
  induction h with
  | nil here => rfl
  | cons here rest ih => simp [ih]

theorem congr {P : List Rune → List Rune → Prop} (h : Marks Q before left bs)
    (hQ : ∀ b l, Q b l ↔ P b l) : Marks P before left bs := by
  rwa [show P = Q from funext fun b => funext fun l => propext (hQ b l).symm]

theorem const {b : Bool} (h : ∀ front rest, left = front ++ rest →
    (b = true ↔ Q (before ++ front) rest)) : Marks Q before left (b :: left.map fun _ => b) := by
  induction left generalizing before with
  | nil => exact .nil (by simpa using h [] [] rfl)
  | cons c left ih =>
    refine .cons (by simpa using h [] (c :: left) rfl) (ih fun front rest hleft => ?_)
    rw [List.append_assoc]
    exact h (c :: front) rest (by rw [hleft]; rfl)

theorem later_iff {c : Rune} :
    (∃ front rest, c :: left = front ++ rest ∧ Q (before ++ front) rest) ↔
      Q before (c :: left) ∨ ∃ front rest, left = front ++ rest ∧
        Q (before ++ [c] ++ front) rest := by
  constructor
  · rintro ⟨front, rest, hsplit, hlater⟩
    cases front with
    | nil =>
      rw [hsplit]
      exact .inl (by simpa using hlater)
    | cons d front =>
      cases hsplit
      exact .inr ⟨front, rest, rfl, by simpa using hlater⟩
  · rintro (hnow | ⟨front, rest, rfl, hlater⟩)
    · exact ⟨[], c :: left, rfl, by simpa using hnow⟩
    · exact ⟨c :: front, rest, rfl, by simpa using hlater⟩

theorem any_iff (h : Marks Q before left bs) :
    bs.any id = true ↔ ∃ front rest, left = front ++ rest ∧ Q (before ++ front) rest := by
  induction h with
  | nil here => simp [here]
  | cons here _ ih => rw [List.any_cons, Bool.or_eq_true, id, here, ih, later_iff]

theorem someLater (h : Marks Q before left bs) :
    Marks (fun b l => ∃ piece rest, l = piece ++ rest ∧ Q (b ++ piece) rest) before left
      (someLater bs) := by
  induction h with
  | nil here => exact .nil (by simp [Regexp.someLater, here])
  | cons here _ ih =>
    apply Marks.cons _ ih
    rw [Bool.or_eq_true, here, ih.head, later_iff]

/-- An item that takes one code point, if it passes a test, looks one place ahead. -/
theorem ahead (h : Marks Q before left bs) (test : Rune → Bool) :
    Marks (fun b l => ∃ c rest, l = c :: rest ∧ test c = true ∧ Q (b ++ [c]) rest) before left
      (List.zipWith (fun c later => test c && later) left (bs.drop 1) ++ [false]) := by
  induction h with
  | nil here => exact .nil (by simp)
  | cons here rest ih =>
    have hnext := rest.head
    cases rest with
    | nil _ => exact .cons (by simp_all) ih
    | cons _ _ => exact .cons (by simp_all) ih

theorem finish (h : Marks Q before left bs) :
    Marks (fun b l => l = [] ∧ Q b []) before left
      ((left.map fun _ => false) ++ bs.drop left.length) := by
  induction h with
  | nil here => exact .nil (by simpa using here)
  | cons here rest ih => exact .cons (by simp) (by simpa using ih)

theorem start (h : Marks Q [] left bs) :
    Marks (fun b l => b = [] ∧ Q [] l) [] left (bs.take 1 ++ left.map fun _ => false) := by
  cases h with
  | nil here => exact .nil (by simpa using here)
  | cons here rest => exact .cons (by simpa using here) (.const fun front rest _ => by simp)

theorem extend (h : Marks Q [] left bs) (item : RegexpItem) :
    Marks (fun b l => ∃ piece rest, l = piece ++ rest ∧ item.Takes b piece rest ∧
      Q (b ++ piece) rest) [] left (extend left item bs) := by
  cases item with
  | start =>
    apply h.start.congr
    intro b l
    constructor
    · rintro ⟨rfl, hl⟩
      exact ⟨[], l, rfl, ⟨rfl, rfl⟩, hl⟩
    · rintro ⟨_, rest, rfl, ⟨rfl, rfl⟩, hrest⟩
      exact ⟨rfl, hrest⟩
  | finish =>
    apply h.finish.congr
    intro b l
    constructor
    · rintro ⟨rfl, hb⟩
      exact ⟨[], [], rfl, ⟨rfl, rfl⟩, by simpa using hb⟩
    · rintro ⟨_, _, rfl, ⟨rfl, rfl⟩, hb⟩
      exact ⟨rfl, by simpa using hb⟩
  | any =>
    have hlength : (bs.drop 1).length ≤ left.length := by
      rw [List.length_drop, h.length]
      omega
    have hall : List.zipWith (fun _ later => true && later) left (bs.drop 1) = bs.drop 1 := by
      simpa [List.zip, List.map_zipWith] using List.map_snd_zip hlength
    have hahead := h.ahead fun _ => true
    rw [hall] at hahead
    apply hahead.congr
    intro b l
    constructor
    · rintro ⟨c, rest, rfl, _, hrest⟩
      exact ⟨[c], rest, rfl, ⟨c, rfl⟩, hrest⟩
    · rintro ⟨_, rest, rfl, ⟨c, rfl⟩, hrest⟩
      exact ⟨c, rest, rfl, rfl, hrest⟩
  | all =>
    apply h.someLater.congr
    simp [RegexpItem.Takes]
  | exactly r =>
    apply (h.ahead (· == r)).congr
    simp [RegexpItem.Takes]

end Marks

theorem marks_fitting (text : List Rune) (items : List RegexpItem) :
    Marks (fun before left => Fits before items left) [] text (fitting text items) := by
  induction items with
  | nil => exact .const fun _ _ _ => iff_of_true rfl .nil
  | cons item items ih => exact (ih.extend item).congr fun _ _ => fits_cons.symm

/-- An expression is found just if it fits at some place of the text. -/
theorem occurs_iff {items : List RegexpItem} {text : List Rune} :
    occurs items text = true ↔ ∃ before left, text = before ++ left ∧ Fits before items left :=
  (marks_fitting text items).any_iff

end Regexp

namespace Pattern

open Regexp

variable {items : List PatternItem}

theorem translate_eq_none_iff (p : List Rune) :
    (Regexp.translate false p = none ↔ OpenEscape p) ∧
      (Regexp.translate true p = none ↔ OpenEscape (92 :: p)) := by
  induction p with
  | nil => simp [Regexp.translate, OpenEscape]
  | cons r rest ih =>
    refine ⟨?_, by rw [Regexp.translate, Option.map_eq_none_iff, ih.1, openEscape_escaped]⟩
    rw [Regexp.translate]
    by_cases hescape : r = 92
    · rw [if_pos hescape, ih.2, hescape]
    · rw [if_neg hescape, openEscape_plain hescape, ← ih.1]
      split
      · exact Option.map_eq_none_iff
      · split
        · exact Option.map_eq_none_iff
        · exact Option.map_eq_none_iff

theorem translate_plain {r : Rune} (h : r ∉ [37, 92, 95]) (rest : List Rune) :
    Regexp.translate false (r :: rest) = (Regexp.translate false rest).map (.exactly r :: ·) := by
  simp only [List.mem_cons, List.not_mem_nil, or_false, not_or] at h
  rw [Regexp.translate, if_neg h.2.1, if_neg h.2.2, if_neg h.1]

theorem translate_of_written {p : List Rune} (h : Split PatternItem.Spells items p) :
    Regexp.translate false p = some (items.map PatternItem.translated ++ [.finish]) := by
  induction items generalizing p with
  | nil =>
    rw [split_nil] at h
    rw [h]
    rfl
  | cons item items ih =>
    obtain ⟨word, rest, rfl, hword, hrest⟩ := split_cons.mp h
    have htranslate := ih hrest
    cases item with
    | one =>
      cases hword
      simp [Regexp.translate, htranslate, PatternItem.translated]
    | many =>
      cases hword
      simp [Regexp.translate, htranslate, PatternItem.translated]
    | exactly r =>
      rcases hword with rfl | ⟨rfl, hplain⟩
      · simp [Regexp.translate, htranslate, PatternItem.translated]
      · rw [List.singleton_append, translate_plain hplain, htranslate]
        rfl

/-- What is translated was written in items. Inside an escape, the first code point is one. -/
theorem written_of_translate {p : List Rune} :
    (Regexp.translate false p ≠ none → ∃ items, Split PatternItem.Spells items p) ∧
      (Regexp.translate true p ≠ none → ∃ items, Split PatternItem.Spells items (92 :: p)) := by
  have hcons : ∀ (item : PatternItem) {word rest : List Rune}, item.Spells word →
      (∃ items, Split PatternItem.Spells items rest) →
        ∃ items, Split PatternItem.Spells items (word ++ rest) := by
    rintro item word rest hword ⟨items, hitems⟩
    exact ⟨item :: items, split_cons.mpr ⟨word, rest, rfl, hword, hitems⟩⟩
  induction p with
  | nil => exact ⟨fun _ => ⟨[], split_nil.mpr rfl⟩, fun h => absurd rfl h⟩
  | cons r rest ih =>
    refine ⟨fun h => ?_, fun h => ?_⟩
    · by_cases hescape : r = 92
      · rw [Regexp.translate, if_pos hescape] at h
        rw [hescape]
        exact ih.2 h
      by_cases hone : r = 95
      · rw [Regexp.translate, if_neg hescape, if_pos hone, ne_eq, Option.map_eq_none_iff] at h
        have hword : PatternItem.one.Spells [r] := by rw [hone]; rfl
        exact hcons .one hword (ih.1 h)
      by_cases hmany : r = 37
      · rw [Regexp.translate, if_neg hescape, if_neg hone, if_pos hmany, ne_eq,
          Option.map_eq_none_iff] at h
        have hword : PatternItem.many.Spells [r] := by rw [hmany]; rfl
        exact hcons .many hword (ih.1 h)
      have hplain : r ∉ [37, 92, 95] := by simp [hescape, hone, hmany]
      rw [translate_plain hplain, ne_eq, Option.map_eq_none_iff] at h
      exact hcons (.exactly r) (.inr ⟨rfl, hplain⟩) (ih.1 h)
    · rw [Regexp.translate, ne_eq, Option.map_eq_none_iff] at h
      exact hcons (.exactly r) (.inl rfl) (ih.1 h)

/-- Translated items fit where the text that is left can be split among them. -/
theorem fits_translated {before left : List Rune} :
    Fits before (items.map PatternItem.translated ++ [.finish]) left ↔
      Split PatternItem.Takes items left := by
  induction items generalizing before left with
  | nil =>
    rw [List.map_nil, List.nil_append, fits_cons, split_nil]
    constructor
    · rintro ⟨_, _, rfl, ⟨rfl, rfl⟩, _⟩
      rfl
    · rintro rfl
      exact ⟨[], [], rfl, ⟨rfl, rfl⟩, .nil⟩
  | cons item items ih =>
    rw [List.map_cons, List.cons_append, fits_cons, split_cons]
    simp only [ih]
    cases item <;> rfl

/-- The expression for a pattern is found just if the whole text can be split among the items. -/
theorem occurs_translated {text : List Rune} :
    occurs (.start :: (items.map PatternItem.translated ++ [.finish])) text = true ↔
      Split PatternItem.Takes items text := by
  rw [occurs_iff]
  constructor
  · rintro ⟨before, left, rfl, hfits⟩
    obtain ⟨_, rest, rfl, ⟨rfl, rfl⟩, hrest⟩ := fits_cons.mp hfits
    exact fits_translated.mp hrest
  · intro h
    exact ⟨[], text, rfl, fits_cons.mpr ⟨[], text, rfl, ⟨rfl, rfl⟩, fits_translated.mpr h⟩⟩

end Pattern

namespace Builtin

open Pattern

theorem like_eq (s p : Text) : like (.string s) (.string p) =
    match Regexp.ofPattern? p.runes with
    | some items => .ok (.boolean (Regexp.occurs items s.runes))
    | none => Arithmetic.fails (.openEscape p) := rfl

/-- What the pattern means for the text: no result, or whether the text matches. -/
theorem like_cases (s p : Text) :
    OpenEscape p.runes ∧ Refused (like (.string s) (.string p)) ∨
    ¬ OpenEscape p.runes ∧ ∃ b, like (.string s) (.string p) = .ok (.boolean b) ∧
      (b = true ↔ ∃ items, Split PatternItem.Spells items p.runes ∧
        Split PatternItem.Takes items s.runes) := by
  by_cases hopen : OpenEscape p.runes
  · refine .inl ⟨hopen, ?_⟩
    rw [like_eq, Regexp.ofPattern?, (translate_eq_none_iff _).1.mpr hopen]
    exact refused_fails rfl
  · refine .inr ⟨hopen, ?_⟩
    obtain ⟨items, hitems⟩ := written_of_translate.1 (mt (translate_eq_none_iff _).1.mp hopen)
    have htranslate := translate_of_written hitems
    rw [like_eq, Regexp.ofPattern?, htranslate]
    refine ⟨_, rfl, occurs_translated.trans ⟨fun htext => ⟨items, hitems, htext⟩, ?_⟩⟩
    rintro ⟨others, hothers, htext⟩
    -- Other items for the same pattern have the same expression.
    rw [translate_of_written hothers] at htranslate
    rw [← occurs_translated] at htext ⊢
    rwa [← Option.some.inj htranslate]

/-- Over the code points of both arguments: a pattern is refused just if it ends in an open escape,
and any other says that the text matches just if the text can be split among its items. -/
theorem like_splits : ∃ f, Overload "like" [.string, .string] .boolean f ∧
    ∀ s p text pattern, Text.Reading s text → Text.Reading p pattern →
      (Refused (f.call [.string s, .string p]) ↔ OpenEscape pattern) ∧
      (¬ OpenEscape pattern → ∃ b, f.call [.string s, .string p] = .ok (.boolean b) ∧
        (b = true ↔ ∃ items, Split PatternItem.Spells items pattern ∧
          Split PatternItem.Takes items text)) := by
  refine ⟨_, overload_strict rfl List.mem_cons_self, ?_⟩
  intro s p text pattern hs hp
  rw [hs.eq_runes, hp.eq_runes]
  rcases like_cases s p with ⟨hopen, hrefused⟩ | ⟨hclosed, b, hb, hsplit⟩
  · rw [call_binary rfl rfl (hrefused.conforms _)]
    exact ⟨iff_of_true hrefused hopen, fun h => absurd hopen h⟩
  · have hconforms : ∀ v, like (.string s) (.string p) = .ok v →
        v.conforms (.scalar .boolean) = true := by
      intro v hv
      rw [hb] at hv
      cases hv
      rfl
    rw [call_binary rfl rfl hconforms, hb]
    refine ⟨iff_of_false ?_ hclosed, fun _ => ⟨b, rfl, hsplit⟩⟩
    rintro ⟨_, h, _⟩
    cases h

/-- An escaped percent sign takes itself only and `_` a byte that encodes nothing; three backslashes
at the end leave one that escapes nothing. -/
theorem like_splits_escapes : ∃ f, Overload "like" [.string, .string] .boolean f ∧
    f.call [.string (utf8 "5%" ++ [255]), .string (utf8 "5\\%_")] = .ok (.boolean true) ∧
    Refused (f.call [.string (utf8 "5"), .string (utf8 "%\\\\\\")]) := by
  obtain ⟨f, hf, hlike⟩ := like_splits
  refine ⟨f, hf, ?_, ?_⟩
  · obtain ⟨b, hb, hsplit⟩ := (hlike (utf8 "5%" ++ [255]) (utf8 "5\\%_") _ _
      (Text.runes_reading _) (Text.runes_reading _)).2 (by decide)
    rw [hb, hsplit.mpr ?_]
    exact ⟨[.exactly 53, .exactly 37, .one],
      ⟨[[53], [92, 37], [95]], by decide, by simp [PatternItem.Spells]⟩,
      ⟨[[53], [37], [0xFFFD]], by decide, by simp [PatternItem.Takes]⟩⟩
  · exact (hlike (utf8 "5") _ _ _ (Text.runes_reading _) (Text.runes_reading _)).1.mpr (by decide)

end Builtin

end TypedStream
