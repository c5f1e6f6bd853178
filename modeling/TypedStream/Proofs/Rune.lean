import TypedStream.Text.Rune

namespace TypedStream

namespace Rune

/-- The code points that have an encoding: all but the surrogates. -/
def IsScalar (r : Nat) : Prop := r < 0xD800 ∨ 0xDFFF < r ∧ r ≤ 0x10FFFF

/-- Whether a byte may stand second after a lead byte. -/
def mayFollow (a b : UInt8) : Bool := (secondBounds a).1 ≤ b && b ≤ (secondBounds a).2

/-- The lead byte and the bytes after it are the encoding of the code point: the conditions on the
bytes, length by length. -/
inductive Encoding (a : UInt8) : Text → Nat → Prop
  | one (lead : a.toNat < 0x80) : Encoding a [] a.toNat
  | two {b : UInt8} (lead : 0xC2 ≤ a.toNat ∧ a.toNat ≤ 0xDF) (second : mayFollow a b = true) :
    Encoding a [b] ((a.toNat - 0xC0) * 64 + payload b)
  | three {b c : UInt8} (lead : 0xE0 ≤ a.toNat ∧ a.toNat ≤ 0xEF) (second : mayFollow a b = true)
    (third : isTail c = true) :
    Encoding a [b, c] ((a.toNat - 0xE0) * 4096 + payload b * 64 + payload c)
  | four {b c d : UInt8} (lead : 0xF0 ≤ a.toNat ∧ a.toNat ≤ 0xF4) (second : mayFollow a b = true)
    (third : isTail c = true) (fourth : isTail d = true) :
    Encoding a [b, c, d]
      ((a.toNat - 0xF0) * 262144 + payload b * 4096 + payload c * 64 + payload d)

theorem tailLength_cases (a : UInt8) :
    (0xC2 ≤ a.toNat ∧ a.toNat ≤ 0xDF) ∧ tailLength a = 1 ∨
    (0xE0 ≤ a.toNat ∧ a.toNat ≤ 0xEF) ∧ tailLength a = 2 ∨
    (0xF0 ≤ a.toNat ∧ a.toNat ≤ 0xF4) ∧ tailLength a = 3 ∨
    (a.toNat < 0xC2 ∨ 0xF4 < a.toNat) ∧ tailLength a = 0 := by
  unfold tailLength
  simp only [UInt8.le_iff_toNat_le, Bool.and_eq_true, decide_eq_true_eq]
  repeat' split
  all_goals
    simp_all
    try omega

theorem Encoding.front {a : UInt8} {tail : Text} {r : Nat} (h : Encoding a tail r) (more : Text) :
    front a (tail ++ more) = (r, tail.length) := by
  have hlong : 0x80 ≤ a.toNat → ¬ a < 0x80 := by
    intro h
    simpa [UInt8.lt_iff_toNat_lt] using h
  have hlength := tailLength_cases a
  cases h with
  | one lead => exact if_pos (UInt8.lt_iff_toNat_lt.mpr lead)
  | two lead second =>
    have hone : tailLength a = 1 := by omega
    rw [Rune.front, if_neg (hlong (by omega)), hone]
    exact if_pos second
  | three lead second third =>
    have htwo : tailLength a = 2 := by omega
    rw [Rune.front, if_neg (hlong (by omega)), htwo]
    exact if_pos (Bool.and_eq_true_iff.mpr ⟨second, third⟩)
  | four lead second third fourth =>
    have hthree : tailLength a = 3 := by omega
    rw [Rune.front, if_neg (hlong (by omega)), hthree]
    exact if_pos (Bool.and_eq_true_iff.mpr ⟨Bool.and_eq_true_iff.mpr ⟨second, third⟩, fourth⟩)

/-- Reading goes by the conditions on the bytes: where nothing meets them, one byte is replaced. -/
theorem front_cases (a : UInt8) (rest : Text) :
    (∃ tail more r, rest = tail ++ more ∧ Encoding a tail r) ∨ front a rest = (replacement, 0) := by
  by_cases hlead : a.toNat < 0x80
  · exact .inl ⟨[], rest, _, rfl, .one hlead⟩
  · have hlong : ¬ a < 0x80 := by simpa [UInt8.lt_iff_toNat_lt] using hlead
    rw [front, if_neg hlong]
    dsimp only
    rcases tailLength_cases a with ⟨h, hl⟩ | ⟨h, hl⟩ | ⟨h, hl⟩ | ⟨_, hl⟩
    · rw [hl]
      match rest with
      | [] => exact .inr rfl
      | b :: more =>
        by_cases hb : mayFollow a b = true
        · exact .inl ⟨[b], more, _, rfl, .two h hb⟩
        · exact .inr (if_neg hb)
    · rw [hl]
      match rest with
      | [] | [_] => exact .inr rfl
      | b :: c :: more =>
        by_cases hb : mayFollow a b = true ∧ isTail c = true
        · exact .inl ⟨[b, c], more, _, rfl, .three h hb.1 hb.2⟩
        · exact .inr (if_neg (by simpa [mayFollow] using hb))
    · rw [hl]
      match rest with
      | [] | [_] | [_, _] => exact .inr rfl
      | b :: c :: d :: more =>
        by_cases hb : mayFollow a b = true ∧ isTail c = true ∧ isTail d = true
        · exact .inl ⟨[b, c, d], more, _, rfl, .four h hb.1 hb.2.1 hb.2.2⟩
        · exact .inr (if_neg (by simpa [mayFollow, and_assoc] using hb))
    · rw [hl]
      exact .inr rfl

theorem isTail_iff (b : UInt8) : isTail b = true ↔ 0x80 ≤ b.toNat ∧ b.toNat ≤ 0xBF := by
  simp [isTail, UInt8.le_iff_toNat_le]

/-- Some lead bytes leave less room for the byte after them, so that the encoding is the shortest,
of no surrogate, and of nothing beyond the last code point. -/
theorem mayFollow_iff (a b : UInt8) : mayFollow a b = true ↔ isTail b = true ∧
    (a.toNat = 0xE0 → 0xA0 ≤ b.toNat) ∧ (a.toNat = 0xED → b.toNat ≤ 0x9F) ∧
    (a.toNat = 0xF0 → 0x90 ≤ b.toNat) ∧ (a.toNat = 0xF4 → b.toNat ≤ 0x8F) := by
  have heq : ∀ n : UInt8, a = n ↔ a.toNat = n.toNat := fun n => UInt8.toNat_inj.symm
  rw [isTail_iff, mayFollow, secondBounds]
  repeat' split
  all_goals
    simp_all [UInt8.le_iff_toNat_le]
    try omega

theorem toUInt8_eq {n : Nat} {a : UInt8} (h : n = a.toNat) : n.toUInt8 = a := by
  subst h
  simp

theorem exists_byte {n : Nat} (h : n < 256) : ∃ b : UInt8, n.toUInt8 = b ∧ b.toNat = n := by
  refine ⟨_, rfl, ?_⟩
  simp only [Nat.toUInt8_eq, UInt8.toNat_ofNat']
  omega

theorem encode_one {r : Nat} (h : r < 0x80) : encode r = [r.toUInt8] := if_pos h

theorem encode_two {r : Nat} (h : 0x80 ≤ r) (h' : r < 0x800) :
    encode r = [(0xC0 + r / 64).toUInt8, (0x80 + r % 64).toUInt8] :=
  (if_neg (Nat.not_lt.mpr h)).trans (if_pos h')

theorem encode_three {r : Nat} (h : 0x800 ≤ r) (h' : r < 0x10000) :
    encode r = [(0xE0 + r / 4096).toUInt8, (0x80 + r / 64 % 64).toUInt8,
      (0x80 + r % 64).toUInt8] :=
  (if_neg (show ¬ r < 0x80 by omega)).trans ((if_neg (Nat.not_lt.mpr h)).trans (if_pos h'))

theorem encode_four {r : Nat} (h : 0x10000 ≤ r) :
    encode r = [(0xF0 + r / 262144).toUInt8, (0x80 + r / 4096 % 64).toUInt8,
      (0x80 + r / 64 % 64).toUInt8, (0x80 + r % 64).toUInt8] :=
  (if_neg (show ¬ r < 0x80 by omega)).trans ((if_neg (show ¬ r < 0x800 by omega)).trans
    (if_neg (Nat.not_lt.mpr h)))

/-- The bytes that meet the conditions are the encoding of their code point. -/
theorem Encoding.encode {a : UInt8} {tail : Text} {r : Nat} (h : Encoding a tail r) :
    IsScalar r ∧ encode r = a :: tail := by
  unfold IsScalar
  cases h with
  | one lead =>
    refine ⟨by omega, ?_⟩
    rw [encode_one lead, toUInt8_eq rfl]
  | two lead second =>
    rw [mayFollow_iff, isTail_iff] at second
    unfold payload
    refine ⟨by omega, ?_⟩
    rw [encode_two (by omega) (by omega), toUInt8_eq, toUInt8_eq]
    · omega
    · omega
  | three lead second third =>
    rw [mayFollow_iff, isTail_iff] at second
    rw [isTail_iff] at third
    unfold payload
    refine ⟨by omega, ?_⟩
    rw [encode_three (by omega) (by omega), toUInt8_eq, toUInt8_eq, toUInt8_eq]
    · omega
    · omega
    · omega
  | four lead second third fourth =>
    rw [mayFollow_iff, isTail_iff] at second
    rw [isTail_iff] at third fourth
    unfold payload
    refine ⟨by omega, ?_⟩
    rw [encode_four (by omega), toUInt8_eq, toUInt8_eq, toUInt8_eq, toUInt8_eq]
    · omega
    · omega
    · omega
    · omega

theorem encoding_of_encode {r : Nat} (hr : IsScalar r) {a : UInt8} {tail : Text}
    (h : encode r = a :: tail) : Encoding a tail r := by
  unfold IsScalar at hr
  obtain ⟨z, hz, hz'⟩ := exists_byte (n := 0x80 + r % 64) (by omega)
  obtain ⟨y, hy, hy'⟩ := exists_byte (n := 0x80 + r / 64 % 64) (by omega)
  obtain ⟨x, hx, hx'⟩ := exists_byte (n := 0x80 + r / 4096 % 64) (by omega)
  by_cases h1 : r < 0x80
  · obtain ⟨b, hb, rfl⟩ := exists_byte (n := r) (by omega)
    rw [encode_one h1, hb] at h
    cases h
    exact .one h1
  by_cases h2 : r < 0x800
  · obtain ⟨b, hb, hb'⟩ := exists_byte (n := 0xC0 + r / 64) (by omega)
    rw [encode_two (by omega) h2, hb, hz] at h
    cases h
    have henc : Encoding a [z] ((a.toNat - 0xC0) * 64 + payload z) :=
      .two (by omega) ((mayFollow_iff a z).mpr ⟨(isTail_iff z).mpr (by omega), by omega⟩)
    have hback : (a.toNat - 0xC0) * 64 + payload z = r := by
      unfold payload
      omega
    rwa [hback] at henc
  by_cases h3 : r < 0x10000
  · obtain ⟨b, hb, hb'⟩ := exists_byte (n := 0xE0 + r / 4096) (by omega)
    rw [encode_three (by omega) h3, hb, hy, hz] at h
    cases h
    have henc : Encoding a [y, z] ((a.toNat - 0xE0) * 4096 + payload y * 64 + payload z) :=
      .three (by omega) ((mayFollow_iff a y).mpr ⟨(isTail_iff y).mpr (by omega), by omega⟩)
        ((isTail_iff z).mpr (by omega))
    have hback : (a.toNat - 0xE0) * 4096 + payload y * 64 + payload z = r := by
      unfold payload
      omega
    rwa [hback] at henc
  · obtain ⟨b, hb, hb'⟩ := exists_byte (n := 0xF0 + r / 262144) (by omega)
    rw [encode_four (by omega), hb, hx, hy, hz] at h
    cases h
    have henc : Encoding a [x, y, z]
        ((a.toNat - 0xF0) * 262144 + payload x * 4096 + payload y * 64 + payload z) :=
      .four (by omega) ((mayFollow_iff a x).mpr ⟨(isTail_iff x).mpr (by omega), by omega⟩)
        ((isTail_iff y).mpr (by omega)) ((isTail_iff z).mpr (by omega))
    have hback :
        (a.toNat - 0xF0) * 262144 + payload x * 4096 + payload y * 64 + payload z = r := by
      unfold payload
      omega
    rwa [hback] at henc

end Rune

namespace Text

open Rune

/-- The code points of a text, by what their encodings are and not by how they are found. -/
inductive Reading : Text → List Rune → Prop
  | nil : Reading [] []
  | encoded {r : Nat} {t : Text} {rs : List Rune} (scalar : IsScalar r) (rest : Reading t rs) :
    Reading (encode r ++ t) (r :: rs)
  | replaced {b : UInt8} {t : Text} {rs : List Rune}
    (invalid : ∀ r, IsScalar r → ¬ encode r <+: b :: t) (rest : Reading t rs) :
    Reading (b :: t) (replacement :: rs)

theorem glyphsFrom_eq (skip : Nat) (t : Text) : glyphsFrom skip t = glyphs (t.drop skip) := by
  induction t generalizing skip with
  | nil => cases skip <;> rfl
  | cons a rest ih =>
    cases skip with
    | zero => rfl
    | succ skip => exact ih skip

theorem runes_cons (a : UInt8) (rest : Text) :
    runes (a :: rest) = (front a rest).1 :: runes (rest.drop (front a rest).2) := by
  rw [runes, runes, ← glyphsFrom_eq]
  rfl

theorem encode_ne_nil (r : Nat) : encode r ≠ [] := by
  unfold encode
  repeat' split
  all_goals simp

theorem runes_encode {r : Nat} (hr : IsScalar r) (t : Text) :
    runes (encode r ++ t) = r :: runes t := by
  obtain ⟨a, tail, hencode⟩ := List.exists_cons_of_ne_nil (encode_ne_nil r)
  rw [hencode, List.cons_append, runes_cons, (encoding_of_encode hr hencode).front, List.drop_left]

theorem runes_replaced {b : UInt8} {t : Text} (h : ∀ r, IsScalar r → ¬ encode r <+: b :: t) :
    runes (b :: t) = replacement :: runes t := by
  rcases front_cases b t with ⟨tail, more, r, rfl, hencoding⟩ | hfront
  · obtain ⟨hscalar, hencode⟩ := hencoding.encode
    exact absurd ⟨more, by rw [hencode, List.cons_append]⟩ (h r hscalar)
  · rw [runes_cons, hfront, List.drop_zero]

/-- Every text has a reading: the one that `runes` gives. -/
theorem runes_reading (t : Text) : Reading t t.runes := by
  match t with
  | [] => exact .nil
  | b :: rest =>
    by_cases h : ∃ r, IsScalar r ∧ encode r <+: b :: rest
    · obtain ⟨r, hr, more, hmore⟩ := h
      have hshorter : more.length ≤ rest.length := by
        have hpositive := List.length_pos_iff.mpr (encode_ne_nil r)
        have hlength := congrArg List.length hmore
        rw [List.length_append, List.length_cons] at hlength
        omega
      rw [← hmore, runes_encode hr]
      exact .encoded hr (runes_reading more)
    · have hinvalid : ∀ r, IsScalar r → ¬ encode r <+: b :: rest := fun r hr hp => h ⟨r, hr, hp⟩
      rw [runes_replaced hinvalid]
      exact .replaced hinvalid (runes_reading rest)
termination_by t.length

/-- A text has no other reading. -/
theorem Reading.eq_runes {t : Text} {rs : List Rune} (h : Reading t rs) : rs = t.runes := by
  induction h with
  | nil => rfl
  | encoded scalar _ ih => rw [runes_encode scalar, ih]
  | replaced invalid _ ih => rw [runes_replaced invalid, ih]

end Text

end TypedStream
