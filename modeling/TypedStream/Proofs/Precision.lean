import Mathlib.Algebra.Group.Nat.Defs
import TypedStream.Binary.Shortest

namespace TypedStream

namespace Binary

theorem nearest_mul (m : Nat) {d : Nat} (hd : 0 < d) : nearest (m * d) d = m := by
  simp only [nearest, Nat.mul_mod_left, Nat.mul_div_cancel _ hd]
  rw [if_neg (by omega)]

theorem scaled_le_iff {num : Nat} (hnum : num ≠ 0) (s : Int) (k : Nat) :
    (scaled num 1 s).2 * 2 ^ k ≤ (scaled num 1 s).1 ↔ (k : Int) ≤ Nat.log2 num + s := by
  simp only [scaled, Nat.pow_eq]
  split
  · rename_i hs
    obtain ⟨j, rfl⟩ := Int.eq_ofNat_of_zero_le hs
    simp only [Int.toNat_natCast, Nat.one_mul]
    by_cases hk : k ≤ j
    · have hpow : 2 ^ k ≤ 2 ^ j := Nat.pow_le_pow_right (by decide) hk
      have : 2 ^ j ≤ num * 2 ^ j := Nat.le_mul_of_pos_left _ (by omega)
      constructor <;> intro _ <;> omega
    · obtain ⟨i, rfl⟩ : ∃ i, k = i + j := ⟨k - j, by omega⟩
      rw [Nat.pow_add, Nat.mul_le_mul_right_iff (Nat.two_pow_pos j), ← Nat.le_log2 hnum]
      omega
  · rename_i hs
    rw [Nat.one_mul, ← Nat.pow_add, ← Nat.le_log2 hnum]
    omega

namespace Format

variable {f : Format}

theorem scaleFor_eq {num : Nat} (hnum : num ≠ 0) (scale : Int) :
    f.scaleFor num 1 scale = max f.leastScale (Nat.log2 num + scale - f.fraction) := by
  have hlog : Nat.log2 1 = 0 := by decide
  simp only [scaleFor, hlog, Nat.pow_eq]
  split
  · rename_i h
    have := (scaled_le_iff hnum _ _).mp h
    omega
  · rename_i h
    have := mt (scaled_le_iff hnum _ _).mpr h
    omega

/-- The format has the number `mantissa · 2 ^ scale`, in this form. -/
structure Holds (f : Format) (mantissa : Nat) (scale : Int) : Prop where
  bits : mantissa < 2 ^ (f.fraction + 1)
  least : f.leastScale ≤ scale
  normal : 2 ^ f.fraction ≤ mantissa ∨ scale = f.leastScale

/-- The place of a number among the magnitudes. -/
def place (f : Format) (mantissa : Nat) (scale : Int) : Nat :=
  (scale - f.leastScale).toNat * 2 ^ f.fraction + mantissa

/-- A number of the format is rounded to itself, in whatever form it is given. -/
theorem round_holds {num m d : Nat} {scale e : Int} (h : f.Holds m e) (hm : m ≠ 0) (hd : 0 < d)
    (hs : scaled num 1 (scale - e) = (m * d, d)) :
    f.round num 1 scale = min f.infinity (f.place m e) := by
  have hnum : num ≠ 0 := by
    rintro rfl
    have : m * d = 0 := by
      simp only [scaled] at hs
      split at hs <;> simp only [Nat.zero_mul, Prod.mk.injEq] at hs <;> exact hs.1.symm
    exact absurd this (Nat.mul_ne_zero hm (by omega))
  have hlog : (Nat.log2 num : Int) + (scale - e) = Nat.log2 m := by
    have hiff (k : Nat) : k ≤ Nat.log2 m ↔ (k : Int) ≤ Nat.log2 num + (scale - e) := by
      rw [← scaled_le_iff hnum, hs, Nat.le_log2 hm, Nat.mul_comm d, Nat.mul_le_mul_right_iff hd]
    have hlow := (hiff (Nat.log2 m)).mp (Nat.le_refl _)
    have hhigh := mt (hiff (Nat.log2 m + 1)).mpr (by omega)
    omega
  have hbound : Nat.log2 m ≤ f.fraction := by
    have := (Nat.log2_lt hm).mpr h.bits
    omega
  have hscale : f.scaleFor num 1 scale = e := by
    rw [scaleFor_eq hnum]
    have := h.least
    rcases h.normal with hn | hn
    · have := (Nat.le_log2 hm).mpr hn
      omega
    · omega
  simp only [round, if_neg hnum, hscale, hs, nearest_mul m hd, place, Nat.pow_eq]

theorem infinity_lt_signBit (f : Format) : f.infinity < f.signBit := by
  have hpos := Nat.two_pow_pos f.exponent
  have : (2 ^ f.exponent - 1) * 2 ^ f.fraction < 2 ^ f.exponent * 2 ^ f.fraction :=
    Nat.mul_lt_mul_of_pos_right (by omega) (Nat.two_pow_pos f.fraction)
  rwa [infinity, signBit, Nat.pow_eq, Nat.pow_eq, Nat.pow_eq, Nat.add_comm, Nat.pow_add]

theorem unpack_withSign (negative : Bool) {k : Nat} (hk : k < f.signBit) :
    decide (f.signBit ≤ f.withSign negative k) = negative ∧
      f.withSign negative k % f.signBit = k := by
  cases negative with
  | false => simp [withSign, hk, Nat.mod_eq_of_lt hk]
  | true => simp [withSign, Nat.mod_eq_of_lt hk]

theorem withSign_lt (negative : Bool) {k : Nat} (hk : k < f.signBit) :
    f.withSign negative k < 2 * f.signBit := by
  cases negative <;> simp only [withSign, Bool.false_eq_true, ↓reduceIte] <;> omega

theorem withSign_magnitude {bits : Nat} (h : bits < 2 * f.signBit) :
    f.withSign (decide (f.signBit ≤ bits)) (bits % f.signBit) = bits := by
  by_cases hs : f.signBit ≤ bits
  · rw [Nat.mod_eq_sub_mod hs, Nat.mod_eq_of_lt (by omega)]
    simp only [hs, decide_true, withSign, if_pos]
    omega
  · rw [Nat.mod_eq_of_lt (by omega)]
    simp [hs, withSign]

theorem unpack_place (negative : Bool) {m : Nat} {e : Int} (h : f.Holds m e)
    (hlt : f.place m e < f.infinity) :
    f.unpack (f.withSign negative (f.place m e)) = .finite negative m e := by
  obtain ⟨hsign, hmagnitude⟩ :=
    unpack_withSign negative (Nat.lt_trans hlt f.infinity_lt_signBit)
  have hpos := Nat.two_pow_pos f.fraction
  have hleast := h.least
  simp only [unpack, hsign, hmagnitude, Nat.pow_eq]
  rw [if_neg (by omega), if_neg (by omega)]
  by_cases hm : m < 2 ^ f.fraction
  · have he : e = f.leastScale := h.normal.resolve_left (by omega)
    have hp : f.place m e = m := by simp [place, he]
    rw [hp, Nat.div_eq_of_lt hm, if_pos rfl, Nat.mod_eq_of_lt hm, he]
  · have hbits := h.bits
    rw [Nat.pow_succ] at hbits
    have hp : f.place m e =
        (m - 2 ^ f.fraction) + 2 ^ f.fraction * ((e - f.leastScale).toNat + 1) := by
      rw [place, Nat.mul_comm, Nat.mul_succ]
      omega
    have hsmall : m - 2 ^ f.fraction < 2 ^ f.fraction := by omega
    rw [hp, Nat.add_mul_div_left _ _ hpos, Nat.add_mul_mod_self_left, Nat.div_eq_of_lt hsmall,
      Nat.mod_eq_of_lt hsmall, if_neg (by omega)]
    congr 1 <;> omega

theorem holds_of_unpack {bits m : Nat} {e : Int} {negative : Bool} (hbits : bits < 2 * f.signBit)
    (h : f.unpack bits = .finite negative m e) :
    f.Holds m e ∧ f.place m e < f.infinity ∧ f.withSign negative (f.place m e) = bits := by
  have hpos := Nat.two_pow_pos f.fraction
  have hback := withSign_magnitude hbits
  generalize hk : bits % f.signBit = k at hback
  simp only [unpack, hk, Nat.pow_eq] at h
  split at h
  · cases h
  · split at h
    · cases h
    · have hdiv := Nat.div_add_mod k (2 ^ f.fraction)
      have hlow := Nat.mod_lt k hpos
      split at h
      · rename_i hfield
        cases h
        have hp : f.place (k % 2 ^ f.fraction) f.leastScale = k := by
          rw [hfield] at hdiv
          simp [place]
          omega
        refine ⟨⟨?_, Int.le_refl _, .inr rfl⟩, by rw [hp]; omega, by rw [hp, hback]⟩
        rw [Nat.pow_succ]
        omega
      · rename_i hfield
        cases h
        have hp : f.place (2 ^ f.fraction + k % 2 ^ f.fraction)
            (f.leastScale + (k / 2 ^ f.fraction - 1 : Nat)) = k := by
          obtain ⟨j, hj⟩ := Nat.exists_eq_succ_of_ne_zero hfield
          rw [hj, Nat.mul_succ, Nat.mul_comm] at hdiv
          simp only [place, hj, Nat.succ_sub_one]
          rw [show (f.leastScale + (j : Int) - f.leastScale).toNat = j by omega]
          omega
        refine ⟨⟨?_, by omega, .inl (by omega)⟩, by rw [hp]; omega, by rw [hp, hback]⟩
        rw [Nat.pow_succ]
        omega

theorem unpack_infinity (f : Format) (negative : Bool) :
    f.unpack (f.withSign negative f.infinity) = .infinite negative := by
  obtain ⟨hsign, hmagnitude⟩ := unpack_withSign negative f.infinity_lt_signBit
  simp only [unpack, hsign, hmagnitude, ↓reduceIte]

theorem eq_of_unpack_infinite {bits : Nat} {negative : Bool} (hbits : bits < 2 * f.signBit)
    (h : f.unpack bits = .infinite negative) : f.withSign negative f.infinity = bits := by
  have hback := withSign_magnitude hbits
  simp only [unpack] at h
  split at h
  · rename_i hm
    cases h
    rw [← hm, hback]
  · split at h
    · cases h
    · split at h <;> cases h

/-- What is made quiet keeps all of its payload but the first bit, which is set. -/
theorem unpack_quiet (negative : Bool) (payload : Nat) (hf : 0 < f.fraction) :
    f.quiet negative payload < 2 * f.signBit ∧ f.unpack (f.quiet negative payload) =
      .nan negative (2 ^ (f.fraction - 1) + payload % 2 ^ (f.fraction - 1)) := by
  have hhalf : 2 ^ f.fraction = 2 ^ (f.fraction - 1) + 2 ^ (f.fraction - 1) := by
    obtain ⟨n, hn⟩ := Nat.exists_eq_succ_of_ne_zero (by omega : f.fraction ≠ 0)
    rw [hn, Nat.succ_sub_one, Nat.pow_succ]
    omega
  have hsmall := Nat.mod_lt payload (Nat.two_pow_pos (f.fraction - 1))
  have htop : f.infinity + 2 ^ f.fraction = f.signBit := by
    rw [infinity, signBit, Nat.pow_eq, Nat.pow_eq, Nat.pow_eq, Nat.add_comm f.fraction,
      Nat.pow_add, ← Nat.succ_mul, Nat.succ_eq_add_one,
      Nat.sub_add_cancel (Nat.two_pow_pos f.exponent)]
  simp only [quiet, Nat.pow_eq]
  generalize 2 ^ (f.fraction - 1) = half at *
  generalize payload % half = rest at *
  have hlt : f.infinity + half + rest < f.signBit := by omega
  obtain ⟨hsign, hmagnitude⟩ := unpack_withSign negative hlt
  have hlow : (f.infinity + half + rest) % 2 ^ f.fraction = half + rest := by
    rw [Nat.add_assoc, infinity, Nat.pow_eq, Nat.pow_eq, Nat.mul_add_mod_self_right]
    exact Nat.mod_eq_of_lt (by omega)
  refine ⟨withSign_lt negative hlt, ?_⟩
  simp only [unpack, hsign, hmagnitude, Nat.pow_eq, hlow]
  rw [if_neg (by omega), if_pos (by omega)]

theorem quiet_congr (negative : Bool) {p q : Nat}
    (h : p % 2 ^ (f.fraction - 1) = q % 2 ^ (f.fraction - 1)) :
    f.quiet negative p = f.quiet negative q := by
  simp only [quiet, Nat.pow_eq, h]

end Format

end Binary

open Binary

theorem Double.parts_ofNat {n : Nat} (h : n < 2 * Format.double.signBit) :
    (Double.ofNat n).parts = Format.double.unpack n := by
  have hn : n.toUInt64.toNat = n := by
    simp only [UInt64.toNat_ofNat']
    exact Nat.mod_eq_of_lt h
  rw [parts, ofNat, hn]

namespace Single

theorem parts_ofNat {n : Nat} (h : n < 2 * Format.single.signBit) :
    (ofNat n).parts = Format.single.unpack n := by
  have hn : n.toUInt32.toNat = n := by
    simp only [UInt32.toNat_ofNat']
    exact Nat.mod_eq_of_lt h
  rw [parts, ofNat, hn]

theorem bits_lt (x : Single) : x.bits.toNat < 2 * Format.single.signBit := x.bits.toNat_lt

theorem ofNat_bits (x : Single) : ofNat x.bits.toNat = x := by
  simp [ofNat]

/-- Mantissas of single precision leave room in those of double precision for normal form. -/
theorem double_holds {m : Nat} {e : Int} (hm : m ≠ 0) (h : Format.single.Holds m e)
    (hlt : Format.single.place m e < Format.single.infinity) :
    ∃ k : Nat, 0 < k ∧ Format.double.Holds (m * 2 ^ k) (e - k) ∧
      Format.double.place (m * 2 ^ k) (e - k) < Format.double.infinity := by
  have hlog : Nat.log2 m < 24 := (Nat.log2_lt hm).mpr h.bits
  obtain ⟨k, hk⟩ : ∃ k, Nat.log2 m + k = 52 := ⟨52 - Nat.log2 m, by omega⟩
  have hleast : (-149 : Int) ≤ e := h.least
  have hplace : (e + 149).toNat * 8388608 + m < 2139095040 := by
    simpa [Format.place, Format.single, Format.leastScale, Format.infinity] using hlt
  have hnormal : 2 ^ 52 ≤ m * 2 ^ k := by
    calc 2 ^ 52 = 2 ^ Nat.log2 m * 2 ^ k := by rw [← Nat.pow_add, hk]
      _ ≤ m * 2 ^ k := Nat.mul_le_mul_right _ (Nat.log2_self_le hm)
  have hbits : m * 2 ^ k < 2 ^ 53 := by
    calc m * 2 ^ k < 2 ^ (Nat.log2 m + 1) * 2 ^ k :=
          Nat.mul_lt_mul_of_pos_right Nat.lt_log2_self (Nat.two_pow_pos k)
      _ = 2 ^ 53 := by rw [← Nat.pow_add, Nat.add_right_comm, hk]
  have hscale : Format.double.leastScale = -1074 := by decide
  refine ⟨k, by omega, ⟨hbits, by omega, .inl hnormal⟩, ?_⟩
  have hexponent : (e - k - -1074).toNat ≤ 1155 := by omega
  have hinfinity : Format.double.infinity = 2047 * 2 ^ 52 := by decide
  rw [Format.place, hscale, hinfinity]
  calc (e - k - -1074).toNat * 2 ^ 52 + m * 2 ^ k < 1155 * 2 ^ 52 + 2 ^ 53 :=
        Nat.add_lt_add_of_le_of_lt (Nat.mul_le_mul_right _ hexponent) hbits
    _ ≤ 2047 * 2 ^ 52 := by decide

/-- A number of single precision has a form of double precision, from which it is rounded back to
itself. -/
theorem round_there_and_back {m : Nat} {e : Int} (h : Format.single.Holds m e)
    (hlt : Format.single.place m e < Format.single.infinity) :
    ∃ n g, Format.double.Holds n g ∧ Format.double.place n g < Format.double.infinity ∧
      Format.double.round m 1 e = Format.double.place n g ∧
      Format.single.round n 1 g = Format.single.place m e := by
  by_cases hm : m = 0
  · subst hm
    have he : e = Format.single.leastScale := h.normal.resolve_left (by simp [Format.single])
    have hzero : Format.double.Holds 0 Format.double.leastScale :=
      ⟨Nat.two_pow_pos _, Int.le_refl _, .inr rfl⟩
    refine ⟨0, Format.double.leastScale, hzero, ?_, ?_, ?_⟩
    · simp [Format.place, Format.infinity, Format.double]
    · simp [Format.place, Format.round]
    · simp [Format.place, Format.round, he]
  · obtain ⟨k, hk, hdouble, hfits⟩ := double_holds hm h hlt
    have hne : m * 2 ^ k ≠ 0 := Nat.mul_ne_zero hm (Nat.pos_iff_ne_zero.mp (Nat.two_pow_pos k))
    refine ⟨m * 2 ^ k, e - k, hdouble, hfits, ?_, ?_⟩
    · have hs : scaled m 1 (e - (e - k)) = (m * 2 ^ k * 1, 1) := by
        rw [scaled, if_pos (by omega), Int.sub_sub_self, Int.toNat_natCast, Nat.mul_one,
          Nat.pow_eq]
      rw [Format.round_holds hdouble hne Nat.one_pos hs, Nat.min_eq_right (Nat.le_of_lt hfits)]
    · have hs : scaled (m * 2 ^ k) 1 (e - k - e) = (m * 2 ^ k, 2 ^ k) := by
        rw [scaled, if_neg (by omega), Nat.one_mul, Nat.pow_eq]
        congr 2
        omega
      rw [Format.round_holds h hm (Nat.two_pow_pos k) hs, Nat.min_eq_right (Nat.le_of_lt hlt)]

/-- A number that is not NaN survives the way to double precision and back. -/
theorem narrow_widen {x : Single} (h : x.isNaN = false) : x.widen.narrow = x := by
  cases hp : x.parts with
  | nan negative payload => simp [isNaN, hp] at h
  | infinite negative =>
    have hparts : x.widen.parts = .infinite negative := by
      rw [widen, hp]
      exact (Double.parts_ofNat (Format.withSign_lt negative (Format.infinity_lt_signBit _))).trans
        (Format.unpack_infinity _ negative)
    have hbits := Format.eq_of_unpack_infinite x.bits_lt hp
    rw [Double.narrow, hparts, Format.convert, hbits, ofNat_bits]
  | finite negative m e =>
    obtain ⟨hholds, hlt, hbits⟩ := Format.holds_of_unpack x.bits_lt hp
    obtain ⟨n, g, hdouble, hfits, hthere, hback⟩ := round_there_and_back hholds hlt
    have hparts : x.widen.parts = .finite negative n g := by
      rw [widen, hp, Format.convert, Format.roundSigned, hthere]
      exact (Double.parts_ofNat (Format.withSign_lt negative
        (Nat.lt_trans hfits (Format.infinity_lt_signBit _)))).trans
        (Format.unpack_place negative hdouble hfits)
    rw [Double.narrow, hparts, Format.convert, Format.roundSigned, hback, hbits, ofNat_bits]

theorem widen_nan {x : Single} {negative : Bool} {payload : Nat}
    (hp : x.parts = .nan negative payload) :
    x.widen = Double.ofNat (Format.double.quiet negative (payload * 2 ^ 29)) ∧
      x.widen.parts = .nan negative (2 ^ 51 + payload * 2 ^ 29 % 2 ^ 51) := by
  have hwiden : x.widen = Double.ofNat (Format.double.quiet negative (payload * 2 ^ 29)) := by
    rw [widen, hp]
    rfl
  obtain ⟨hlt, hunpack⟩ :=
    Format.unpack_quiet (f := .double) negative (payload * 2 ^ 29) (by decide)
  exact ⟨hwiden, by rw [hwiden, Double.parts_ofNat hlt, hunpack]; rfl⟩

theorem narrow_nan {y : Double} {negative : Bool} {payload : Nat}
    (hp : y.parts = .nan negative payload) :
    y.narrow.parts = .nan negative (2 ^ 22 + payload / 2 ^ 29 % 2 ^ 22) := by
  have hnarrow : y.narrow = ofNat (Format.single.quiet negative (payload / 2 ^ 29)) := by
    rw [Double.narrow, hp]
    rfl
  obtain ⟨hlt, hunpack⟩ :=
    Format.unpack_quiet (f := .single) negative (payload / 2 ^ 29) (by decide)
  rw [hnarrow, parts_ofNat hlt, hunpack]
  rfl

/-- A payload is cut where it was filled up, and all but the first bit is left. -/
theorem payload_there_and_back (p : Nat) :
    (2 ^ 22 + (2 ^ 51 + p * 2 ^ 29 % 2 ^ 51) / 2 ^ 29 % 2 ^ 22) * 2 ^ 29 % 2 ^ 51 =
      p * 2 ^ 29 % 2 ^ 51 := by
  omega

theorem narrow_widen_nan {x : Single} {negative : Bool} {payload : Nat}
    (hp : x.parts = .nan negative payload) : x.widen.narrow.widen = x.widen := by
  obtain ⟨hwiden, hparts⟩ := widen_nan hp
  have hquiet := Format.quiet_congr (f := .double) negative (payload_there_and_back payload)
  exact ((widen_nan (narrow_nan hparts)).1.trans (congrArg Double.ofNat hquiet)).trans hwiden.symm

/-- Single precision numbers widen to what they are narrowed from. -/
theorem widen_narrow_widen (x : Single) : x.widen.narrow.widen = x.widen := by
  cases hp : x.parts with
  | nan negative payload => exact narrow_widen_nan hp
  | _ => rw [narrow_widen (by simp [isNaN, hp])]

theorem isNaN_narrow_widen {x : Double} (h : x.isNaN = true) : x.narrow.widen.isNaN = true := by
  cases hp : x.parts with
  | nan negative payload => simp [Double.isNaN, (widen_nan (narrow_nan hp)).2]
  | _ => simp [Double.isNaN, hp] at h

end Single

end TypedStream
