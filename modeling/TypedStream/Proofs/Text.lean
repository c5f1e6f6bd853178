import Mathlib.Logic.Function.Defs
import TypedStream.Text

namespace TypedStream.Text

theorem toNat_digit {c : Char} (h : c.isDigit = true) :
    c.toNat.toUInt8.toNat = c.toNat ∧ 48 ≤ c.toNat ∧ c.toNat ≤ 57 := by
  have hbounds : 48 ≤ c.toNat ∧ c.toNat ≤ 57 := by
    simpa [Char.isDigit, UInt32.le_iff_toNat_le] using h
  have hbyte : c.toNat.toUInt8.toNat = c.toNat % 256 := UInt8.toNat_ofNat
  omega

theorem digit_of_mem_ofNat {n : Nat} {b : UInt8} (h : b ∈ ofNat n) :
    48 ≤ b.toNat ∧ b.toNat ≤ 57 := by
  obtain ⟨c, hc, rfl⟩ := List.mem_map.mp h
  obtain ⟨hbyte, hbounds⟩ := toNat_digit (Nat.isDigit_of_mem_toDigits (by decide) (by decide) hc)
  rwa [hbyte]

theorem digits_ofNat (n : Nat) :
    (ofNat n).map (fun b => Char.ofNat b.toNat) = Nat.toDigits 10 n := by
  have hdigits : ∀ c ∈ Nat.toDigits 10 n, Char.ofNat c.toNat.toUInt8.toNat = c := by
    intro c hc
    have hdigit := Nat.isDigit_of_mem_toDigits (by decide) (by decide) hc
    rw [(toNat_digit hdigit).1, Char.ofNat_toNat]
  rw [ofNat, List.map_map]
  exact (List.map_congr_left hdigits).trans (List.map_id _)

theorem ofNat_injective : Function.Injective ofNat := by
  intro m n h
  have hdigits : Nat.toDigits 10 m = Nat.toDigits 10 n := by
    rw [← digits_ofNat, ← digits_ofNat, h]
  calc m = Nat.ofDigitChars 10 (Nat.toDigits 10 m) 0 := Nat.ofDigitChars_ten_toDigits.symm
    _ = Nat.ofDigitChars 10 (Nat.toDigits 10 n) 0 := by rw [hdigits]
    _ = n := Nat.ofDigitChars_ten_toDigits

theorem splitAll_ne_nil (b : UInt8) (text : Text) : splitAll b text ≠ [] := by
  cases text with
  | nil => simp [splitAll]
  | cons a rest =>
    rw [splitAll]
    split
    · simp
    · split <;> simp

theorem splitAll_cons {a b : UInt8} (h : a ≠ b) {rest piece : Text} {pieces : List Text}
    (hrest : splitAll b rest = piece :: pieces) :
    splitAll b (a :: rest) = (a :: piece) :: pieces := by
  simp [splitAll, h, hrest]

theorem join_cons (separator piece : Text) {pieces : List Text} (h : pieces ≠ []) :
    join separator (piece :: pieces) = piece ++ separator ++ join separator pieces := by
  cases pieces with
  | nil => exact absurd rfl h
  | cons next pieces => rfl

theorem join_splitAll (b : UInt8) (text : Text) : join [b] (splitAll b text) = text := by
  induction text with
  | nil => rfl
  | cons a rest ih =>
    by_cases h : a = b
    · subst h
      have hsplit : splitAll a (a :: rest) = [] :: splitAll a rest := by simp [splitAll]
      rw [hsplit, join_cons _ _ (splitAll_ne_nil a rest), ih]
      rfl
    · cases hrest : splitAll b rest with
      | nil => exact absurd hrest (splitAll_ne_nil b rest)
      | cons piece pieces =>
        rw [splitAll_cons h hrest]
        rw [hrest] at ih
        cases pieces <;> simpa [join] using ih

theorem not_mem_of_mem_splitAll {b : UInt8} {text piece : Text} (h : piece ∈ splitAll b text) :
    b ∉ piece := by
  induction text generalizing piece with
  | nil =>
    have hpiece : piece = [] := by simpa [splitAll] using h
    simp [hpiece]
  | cons a rest ih =>
    by_cases hab : a = b
    · have hsplit : splitAll b (a :: rest) = [] :: splitAll b rest := by simp [splitAll, hab]
      rw [hsplit] at h
      rcases List.mem_cons.mp h with he | hm
      · simp [he]
      · exact ih hm
    · cases hrest : splitAll b rest with
      | nil => exact absurd hrest (splitAll_ne_nil b rest)
      | cons first pieces =>
        rw [splitAll_cons hab hrest] at h
        rw [hrest] at ih
        rcases List.mem_cons.mp h with he | hm
        · simp [he, Ne.symm hab, ih List.mem_cons_self]
        · exact ih (List.mem_cons_of_mem _ hm)

theorem splitAll_of_not_mem {b : UInt8} {piece : Text} (h : b ∉ piece) :
    splitAll b piece = [piece] := by
  induction piece with
  | nil => rfl
  | cons a rest ih =>
    obtain ⟨hne, hrest⟩ := List.ne_and_not_mem_of_not_mem_cons h
    exact splitAll_cons (Ne.symm hne) (ih hrest)

theorem splitAll_append {b : UInt8} {piece : Text} (h : b ∉ piece) (text : Text) :
    splitAll b (piece ++ b :: text) = piece :: splitAll b text := by
  induction piece with
  | nil => simp [splitAll]
  | cons a rest ih =>
    obtain ⟨hne, hrest⟩ := List.ne_and_not_mem_of_not_mem_cons h
    exact splitAll_cons (Ne.symm hne) (ih hrest)

theorem splitAll_join {b : UInt8} {pieces : List Text} (hne : pieces ≠ [])
    (h : ∀ piece ∈ pieces, b ∉ piece) : splitAll b (join [b] pieces) = pieces := by
  induction pieces with
  | nil => exact absurd rfl hne
  | cons piece pieces ih =>
    obtain ⟨hpiece, hpieces⟩ := List.forall_mem_cons.mp h
    by_cases hlast : pieces = []
    · subst hlast
      exact splitAll_of_not_mem hpiece
    · rw [join_cons _ _ hlast, List.append_assoc]
      exact (splitAll_append hpiece _).trans (congrArg (piece :: ·) (ih hlast hpieces))

/-- Lines below each other, each with its end. -/
def ofLines (lines : List Text) : Text := lines.flatMap (· ++ [10])

theorem ofLines_append (lines more : List Text) :
    ofLines (lines ++ more) = ofLines lines ++ ofLines more :=
  List.flatMap_append

theorem ofLines_eq_join {lines : List Text} (h : lines ≠ []) :
    ofLines lines = join [10] lines ++ [10] := by
  induction lines with
  | nil => exact absurd rfl h
  | cons line lines ih =>
    by_cases hlast : lines = []
    · subst hlast
      simp [ofLines, join]
    · have hstart : ofLines (line :: lines) = line ++ [10] ++ ofLines lines := rfl
      rw [hstart, ih hlast, join_cons _ _ hlast]
      simp

/-- The lines of a text below each other are the text, with its last line ended. -/
theorem ofLines_splitAll (text : Text) : ofLines (splitAll 10 text) = text ++ [10] := by
  rw [ofLines_eq_join (splitAll_ne_nil 10 text), join_splitAll]

theorem ofLines_flatMap_splitAll (texts : List Text) :
    ofLines (texts.flatMap (splitAll 10)) = ofLines texts := by
  induction texts with
  | nil => rfl
  | cons text texts ih =>
    rw [List.flatMap_cons, ofLines_append, ofLines_splitAll, ih]
    rfl

/-- A line further in, unless it is blank. -/
def inset (margin line : Text) : Text := if line = [] then [] else margin ++ line

theorem inset_nil : inset [] = id := by
  funext line
  by_cases h : line = [] <;> simp [inset, h]

theorem inset_inset (outer inner line : Text) :
    inset outer (inset inner line) = inset (outer ++ inner) line := by
  by_cases h : line = [] <;> simp [inset, h]

theorem not_mem_inset {b : UInt8} {margin line : Text} (hmargin : b ∉ margin) (hline : b ∉ line) :
    b ∉ inset margin line := by
  unfold inset
  split
  · exact List.not_mem_nil
  · simp [hmargin, hline]

theorem indentFrom_line {line : Text} (h : 10 ∉ line) (margin rest : Text) :
    indentFrom margin false (line ++ 10 :: rest) = line ++ 10 :: indent margin rest := by
  induction line with
  | nil => simp [indentFrom, indent]
  | cons b line ih =>
    obtain ⟨hne, hline⟩ := List.ne_and_not_mem_of_not_mem_cons h
    simp [indentFrom, Ne.symm hne, ih hline]

theorem indent_line {line : Text} (h : 10 ∉ line) (margin rest : Text) :
    indent margin (line ++ 10 :: rest) = inset margin line ++ 10 :: indent margin rest := by
  cases line with
  | nil => simp [indent, indentFrom, inset]
  | cons b line =>
    obtain ⟨hne, hline⟩ := List.ne_and_not_mem_of_not_mem_cons h
    simp [indent, indentFrom, Ne.symm hne, indentFrom_line hline, inset]

/-- Whole lines are indented one by one, and what comes behind them on its own. -/
theorem indent_ofLines {lines : List Text} (h : ∀ line ∈ lines, 10 ∉ line) (margin rest : Text) :
    indent margin (ofLines lines ++ rest) =
      ofLines (lines.map (inset margin)) ++ indent margin rest := by
  induction lines with
  | nil => rfl
  | cons line lines ih =>
    obtain ⟨hline, hlines⟩ := List.forall_mem_cons.mp h
    calc indent margin (ofLines (line :: lines) ++ rest)
        = indent margin (line ++ 10 :: (ofLines lines ++ rest)) := by simp [ofLines]
      _ = inset margin line ++ 10 :: indent margin (ofLines lines ++ rest) :=
          indent_line hline margin _
      _ = inset margin line ++
            10 :: (ofLines (lines.map (inset margin)) ++ indent margin rest) := by
          rw [ih hlines]
      _ = ofLines ((line :: lines).map (inset margin)) ++ indent margin rest := by simp [ofLines]

end TypedStream.Text
