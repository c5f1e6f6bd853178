import Mathlib.Data.List.DropRight
import TypedStream.Proofs.Rune
import TypedStream.Text.Rune
import TypedStream.Text.Case

namespace TypedStream

theorem CaseRun.apply_cons (run : CaseRun) (runs : List CaseRun) (r : Rune) :
    apply (run :: runs) r =
      if run.covers r then (Int.ofNat r + run.shift).toNat else apply runs r := by
  rw [apply, List.find?_cons]
  cases run.covers r <;> rfl

theorem CaseRun.apply_of_lt {runs : List CaseRun} {r : Rune} (h : ∀ run ∈ runs, r < run.first) :
    apply runs r = r := by
  have hnone : runs.find? (·.covers r) = none := by
    rw [List.find?_eq_none]
    intro run hrun
    simp [covers, Nat.not_le.mpr (h run hrun)]
  rw [apply, hnone]

namespace Rune

/-- Of the first 128 code points just the small letters have another upper case. -/
theorem upper_of_lt {r : Nat} (h : r < 0x80) :
    upper r = if 97 ≤ r ∧ r ≤ 122 then r - 32 else r := by
  have hlater : ∀ run ∈ upperRuns.tail, 0x80 ≤ run.first := by decide +kernel
  have hothers : CaseRun.apply upperRuns.tail r = r :=
    CaseRun.apply_of_lt fun run hrun => Nat.lt_of_lt_of_le h (hlater run hrun)
  have hfirst : CaseRun.covers ⟨97, 122, 1, -32⟩ r = decide (97 ≤ r ∧ r ≤ 122) := by
    simp [CaseRun.covers, Nat.mod_one]
  rw [upper, show upperRuns = ⟨97, 122, 1, -32⟩ :: upperRuns.tail from rfl, CaseRun.apply_cons,
    hothers, hfirst]
  simp only [decide_eq_true_eq]
  split
  · have hshift : ((r : Int) + -32).toNat = r - 32 := by omega
    exact hshift
  · rfl

theorem isScalar_of_isBlank {r : Nat} (h : isBlank r = true) : IsScalar r := by
  simp only [isBlank, Rune, Bool.or_eq_true, Bool.and_eq_true, decide_eq_true_eq, beq_iff_eq] at h
  unfold IsScalar
  omega

theorem isBlank_of_visible {r : Nat} (h : 33 ≤ r) (h' : r < 0x80) : isBlank r = false := by
  rw [← Bool.not_eq_true]
  intro hblank
  simp only [isBlank, Rune, Bool.or_eq_true, Bool.and_eq_true, decide_eq_true_eq,
    beq_iff_eq] at hblank
  omega

theorem isScalar_of_lt {r : Nat} (h : r < 0x80) : IsScalar r := by
  unfold IsScalar
  omega

end Rune

namespace Text

open Rune

theorem glyphs_cons (a : UInt8) (rest : Text) : glyphs (a :: rest) =
    ⟨(front a rest).1, a :: rest.take (front a rest).2⟩ :: glyphs (rest.drop (front a rest).2) := by
  rw [← glyphsFrom_eq]
  rfl

theorem glyphs_encode {r : Rune} (hr : IsScalar r) (t : Text) :
    glyphs (encode r ++ t) = ⟨r, encode r⟩ :: glyphs t := by
  obtain ⟨a, tail, hencode⟩ := List.exists_cons_of_ne_nil (encode_ne_nil r)
  rw [hencode, List.cons_append, glyphs_cons, (encoding_of_encode hr hencode).front,
    List.drop_left, List.take_left]

theorem glyphs_ofRunes {rs : List Rune} (h : ∀ r ∈ rs, IsScalar r) :
    glyphs (ofRunes rs) = rs.map fun r => ⟨r, encode r⟩ := by
  induction rs with
  | nil => rfl
  | cons r rs ih =>
    obtain ⟨hr, hrs⟩ := List.forall_mem_cons.mp h
    rw [ofRunes, List.flatMap_cons, glyphs_encode hr, List.map_cons]
    exact congrArg _ (ih hrs)

theorem ofRunes_append (rs rs' : List Rune) : ofRunes (rs ++ rs') = ofRunes rs ++ ofRunes rs' :=
  List.flatMap_append

/-- The bytes of a text are those of its glyphs; a glyph stands for a code point and its encoding,
or for a byte that is replaced. -/
theorem glyphs_bytes (t : Text) : t.glyphs.flatMap Glyph.bytes = t ∧
    ∀ g ∈ t.glyphs, g.bytes = encode g.rune ∨ g.rune = replacement := by
  match t with
  | [] => exact ⟨rfl, by simp [glyphs, glyphsFrom]⟩
  | a :: rest =>
    obtain ⟨hbytes, hglyphs⟩ := glyphs_bytes (rest.drop (front a rest).2)
    rw [glyphs_cons]
    constructor
    · rw [List.flatMap_cons, hbytes, List.cons_append, List.take_append_drop]
    · rw [List.forall_mem_cons]
      refine ⟨?_, hglyphs⟩
      rcases front_cases a rest with ⟨tail, more, r, rfl, hencoding⟩ | hfront
      · rw [hencoding.front, List.take_left]
        exact .inl hencoding.encode.2.symm
      · rw [hfront]
        exact .inr rfl
termination_by t.length
decreasing_by
  rw [List.length_drop, List.length_cons]
  omega

/-- White space, and nothing else. -/
def IsBlank (t : Text) : Prop := ∃ rs, (∀ r ∈ rs, isBlank r = true) ∧ t = ofRunes rs

theorem isBlank_nil : IsBlank [] := ⟨[], by simp, rfl⟩

theorem isBlank_glyphs {t : Text} {gs : List Glyph} (hgs : gs ⊆ t.glyphs)
    (hblank : ∀ g ∈ gs, g.rune.isBlank = true) : IsBlank (gs.flatMap Glyph.bytes) := by
  refine ⟨gs.map Glyph.rune, by simpa using hblank, ?_⟩
  rw [ofRunes, List.flatMap_map]
  apply List.flatMap_congr
  intro g hg
  rcases (glyphs_bytes t).2 g (hgs hg) with hbytes | hreplaced
  · exact hbytes
  · have hr := hblank g hg
    rw [hreplaced] at hr
    cases hr

theorem eq_trim (t : Text) : ∃ w w', IsBlank w ∧ IsBlank w' ∧ t = w ++ t.trim ++ w' := by
  let blank : Glyph → Bool := (·.rune.isBlank)
  let kept := t.glyphs.dropWhile blank
  have hfront : t.glyphs.takeWhile blank ++ kept = t.glyphs := List.takeWhile_append_dropWhile
  have hback : trimGlyphs t.glyphs ++ kept.rtakeWhile blank = kept :=
    List.rdropWhile_append_rtakeWhile
  have hw : IsBlank ((t.glyphs.takeWhile blank).flatMap Glyph.bytes) := by
    apply isBlank_glyphs (List.takeWhile_sublist blank).subset
    intro g hg
    exact List.mem_takeWhile_imp (p := blank) hg
  have hw' : IsBlank ((kept.rtakeWhile blank).flatMap Glyph.bytes) := by
    apply isBlank_glyphs ((List.rtakeWhile_suffix blank kept).sublist.trans
      (List.dropWhile_sublist blank)).subset
    intro g hg
    exact List.mem_rtakeWhile_imp (p := blank) hg
  refine ⟨_, _, hw, hw', ?_⟩
  rw [trim, ← List.flatMap_append, ← List.flatMap_append, List.append_assoc, hback, hfront,
    (glyphs_bytes t).1]

theorem dropWhile_append {α : Type} {p : α → Bool} {as bs : List α} (has : ∀ a ∈ as, p a = true)
    (hbs : ∀ b ∈ bs.head?, p b = false) : (as ++ bs).dropWhile p = bs := by
  rw [List.dropWhile_append_of_pos has]
  cases bs with
  | nil => rfl
  | cons b bs => exact List.dropWhile_cons_of_neg (by simpa using hbs)

/-- A text that neither begins nor ends with white space. -/
def IsTrimmed (t : Text) : Prop :=
  ∃ rs, rs ≠ [] ∧ (∀ r ∈ rs, IsScalar r) ∧ (∀ r ∈ rs.head?, isBlank r = false) ∧
    (∀ r ∈ rs.getLast?, isBlank r = false) ∧ t = ofRunes rs

theorem isScalar_between {ws rs ws' : List Rune} (hws : ∀ r ∈ ws, isBlank r = true)
    (hrs : ∀ r ∈ rs, IsScalar r) (hws' : ∀ r ∈ ws', isBlank r = true) :
    ∀ r ∈ ws ++ rs ++ ws', IsScalar r := by
  simp only [List.forall_mem_append]
  exact ⟨⟨fun r hr => isScalar_of_isBlank (hws r hr), hrs⟩,
    fun r hr => isScalar_of_isBlank (hws' r hr)⟩

theorem trim_between {w t w' : Text} (hw : IsBlank w) (ht : IsTrimmed t) (hw' : IsBlank w') :
    trim (w ++ t ++ w') = t := by
  obtain ⟨ws, hws, rfl⟩ := hw
  obtain ⟨ws', hws', rfl⟩ := hw'
  obtain ⟨rs, hne, hscalar, hfirst, hlast, rfl⟩ := ht
  -- the text is one of code points throughout, and dropping them stops at its two ends
  rw [← ofRunes_append, ← ofRunes_append, trim, glyphs_ofRunes (isScalar_between hws hscalar hws'),
    trimGlyphs, List.append_assoc, List.map_append, dropWhile_append, List.map_append,
    List.reverse_append, dropWhile_append, List.reverse_reverse]
  · rw [ofRunes, List.flatMap_map]
  · simpa using hws'
  · simpa using hlast
  · simpa using hws
  · simpa [hne] using hfirst

theorem ofRunes_ascii {t : Text} (h : ∀ b ∈ t, b.toNat < 0x80) :
    ofRunes (t.map UInt8.toNat) = t := by
  induction t with
  | nil => rfl
  | cons b t ih =>
    obtain ⟨hb, ht⟩ := List.forall_mem_cons.mp h
    rw [List.map_cons, ofRunes, List.flatMap_cons, encode_one hb, toUInt8_eq rfl]
    exact congrArg (b :: ·) (ih ht)

theorem isScalar_ascii {t : Text} (h : ∀ b ∈ t, b.toNat < 0x80) :
    ∀ r ∈ t.map UInt8.toNat, IsScalar r := by
  intro r hr
  obtain ⟨b, hb, rfl⟩ := List.mem_map.mp hr
  exact isScalar_of_lt (h b hb)

theorem isTrimmed_visible {t : Text} (hne : t ≠ [])
    (h : ∀ b ∈ t, 33 ≤ b.toNat ∧ b.toNat < 0x80) : IsTrimmed t := by
  have hascii : ∀ b ∈ t, b.toNat < 0x80 := fun b hb => (h b hb).2
  have hrunes : ∀ r ∈ t.map UInt8.toNat, isBlank r = false := by
    intro r hr
    obtain ⟨b, hb, rfl⟩ := List.mem_map.mp hr
    exact isBlank_of_visible (h b hb).1 (h b hb).2
  exact ⟨t.map UInt8.toNat, by simpa using hne, isScalar_ascii hascii,
    fun r hr => hrunes r (List.mem_of_head? hr), fun r hr => hrunes r (List.mem_of_getLast? hr),
    (ofRunes_ascii hascii).symm⟩

theorem isTrimmed_bracketed {w t w' : Text} (hw : IsBlank w) (ht : IsTrimmed t) (hw' : IsBlank w') :
    IsTrimmed (utf8 "(" ++ (w ++ t ++ w') ++ utf8 ")") := by
  obtain ⟨ws, hws, rfl⟩ := hw
  obtain ⟨ws', hws', rfl⟩ := hw'
  obtain ⟨rs, _, hscalar, _, _, rfl⟩ := ht
  refine ⟨[40] ++ (ws ++ rs ++ ws') ++ [41], by simp, ?_, ?_, ?_, ?_⟩
  · rw [List.forall_mem_append, List.forall_mem_append]
    exact ⟨⟨List.forall_mem_singleton.mpr (isScalar_of_lt (by decide)),
      isScalar_between hws hscalar hws'⟩, List.forall_mem_singleton.mpr (isScalar_of_lt (by decide))⟩
  · intro r hr
    cases hr
    rfl
  · intro r hr
    rw [List.getLast?_concat] at hr
    cases hr
    rfl
  · simp only [ofRunes_append]
    rfl

theorem runes_ascii {t : Text} (h : ∀ b ∈ t, b.toNat < 0x80) : runes t = t.map UInt8.toNat := by
  have hglyphs := glyphs_ofRunes (isScalar_ascii h)
  rw [ofRunes_ascii h] at hglyphs
  rw [runes, hglyphs, List.map_map]
  exact List.map_id _

/-- The capital for a small letter of the first 128 code points. -/
def capital (b : UInt8) : UInt8 := if 97 ≤ b.toNat ∧ b.toNat ≤ 122 then b - 32 else b

theorem toNat_capital (b : UInt8) : (capital b).toNat =
    if 97 ≤ b.toNat ∧ b.toNat ≤ 122 then b.toNat - 32 else b.toNat := by
  unfold capital
  split
  · rename_i h
    have hle : (32 : UInt8) ≤ b := by
      rw [UInt8.le_iff_toNat_le]
      exact Nat.le_trans (by decide) h.1
    exact UInt8.toNat_sub_of_le _ _ hle
  · rfl

theorem upper_eq_map_capital {t : Text} (h : ∀ b ∈ t, b.toNat < 0x80) :
    t.upper = t.map capital := by
  have hcapital : ∀ b ∈ t.map capital, b.toNat < 0x80 := by
    intro b hb
    obtain ⟨a, ha, rfl⟩ := List.mem_map.mp hb
    have hlt := h a ha
    rw [toNat_capital]
    split <;> omega
  rw [upper, runes_ascii h, List.map_map, ← ofRunes_ascii hcapital, List.map_map]
  apply congrArg ofRunes
  apply List.map_congr_left
  intro b hb
  exact (upper_of_lt (h b hb)).trans (toNat_capital b).symm

end Text

end TypedStream
