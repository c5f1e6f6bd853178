import Mathlib.Algebra.Group.Nat.Defs
import TypedStream.Wire.Primitive

namespace TypedStream.Wire

theorem toNat_toUInt64 {n : Nat} (h : n < 2 ^ 64) : n.toUInt64.toNat = n := by
  simp only [UInt64.toNat_ofNat']
  omega

/-- The last group has a single bit, so `left` further groups hold numbers below `2 · 128 ^ left`. -/
theorem readGroups_varintGroups (left n : Nat) (h : n < 2 * 128 ^ left) (rest : Text) :
    readGroups left (varintGroups (left + 1) n ++ rest) = .ok (n, rest) := by
  induction left generalizing n with
  | zero =>
    have hb : n.toUInt8.toNat = n := by simp; omega
    have hlt : n.toUInt8 < 2 := UInt8.lt_iff_toNat_lt.mpr (by simp [hb]; omega)
    simp [varintGroups, readGroups, show n < 128 by omega, hlt, hb]
  | succ left ih =>
    by_cases hn : n < 128
    · have hb : n.toUInt8.toNat = n := by simp; omega
      have hlt : n.toUInt8 < 128 := UInt8.lt_iff_toNat_lt.mpr (by simp [hb]; omega)
      simp [varintGroups, readGroups, hn, hlt, hb]
    · have hb : (n % 128 + 128).toUInt8.toNat = n % 128 + 128 := by simp; omega
      have hge : ¬ (n % 128 + 128).toUInt8 < 128 := by
        rw [UInt8.lt_iff_toNat_lt, hb]
        simp
      have hsmall : n / 128 < 2 * 128 ^ left := by
        rw [Nat.div_lt_iff_lt_mul (by decide)]
        rw [Nat.pow_succ] at h
        omega
      rw [varintGroups, if_neg hn, List.cons_append, readGroups, if_neg hge, ih _ hsmall]
      dsimp only
      rw [hb]
      congr 2
      omega

theorem readVarint_encodeVarint (n : UInt64) (rest : Text) :
    readVarint (encodeVarint n ++ rest) = .ok (n.toNat, rest) :=
  readGroups_varintGroups 9 n.toNat (by have := n.toNat_lt; omega) rest

/-- Folding the sign into the lowest bit loses nothing, at the extremes neither. -/
theorem unzigzag_zigzag (i : Int64) : unzigzag (zigzag i).toNat = i.toInt := by
  have hlow := i.le_toInt
  have hhigh := i.toInt_lt
  unfold zigzag
  split
  · rw [toNat_toUInt64 (by omega), unzigzag, if_pos (by omega)]
    omega
  · rw [toNat_toUInt64 (by omega), unzigzag, if_neg (by omega)]
    omega

theorem readFixed_littleEndian (count n : Nat) (h : n < 256 ^ count) (rest : Text) :
    readFixed count (littleEndian count n ++ rest) = .ok (n, rest) := by
  induction count generalizing n with
  | zero =>
    have hn : n = 0 := by simpa using h
    subst hn
    rfl
  | succ count ih =>
    have hb : (n % 256).toUInt8.toNat = n % 256 := by simp
    have hsmall : n / 256 < 256 ^ count := by
      rw [Nat.div_lt_iff_lt_mul (by decide)]
      rwa [Nat.pow_succ] at h
    rw [littleEndian, List.cons_append, readFixed, ih _ hsmall]
    dsimp only
    rw [hb]
    congr 2
    omega

theorem readBytes_encode (t : Text) (h : t.length < 2 ^ 64) (rest : Text) :
    readBytes (encodeVarint t.length.toUInt64 ++ t ++ rest) = .ok (t, rest) := by
  rw [readBytes, List.append_assoc, readVarint_encodeVarint, toNat_toUInt64 h]
  simp [bind, Except.bind, pure, Except.pure]

/-- A field's number and form come back; a number has 31 bits and a form three. -/
theorem readTag_encodeTag {number : Nat} {form : Form} (hpos : 1 ≤ number)
    (hmax : number ≤ 2147483647) (hcode : form.code < 8) (hform : Form.ofCode form.code = form)
    (rest : Text) : readTag (encodeTag number form ++ rest) = .ok (number, form, rest) := by
  have hdiv : (8 * number + form.code) / 8 = number := by omega
  have hmod : (8 * number + form.code) % 8 = form.code := by omega
  rw [readTag, encodeTag, readVarint_encodeVarint, toNat_toUInt64 (by omega)]
  simp only [bind, Except.bind, hdiv, hmod, hform]
  rw [if_neg (by omega)]
  rfl

end TypedStream.Wire
