import TypedStream.Proofs.Builtin
import TypedStream.Proofs.Registry

namespace TypedStream

open Value

namespace Scalar

def least : Scalar → Int
  | int => -2147483648
  | _ => -9223372036854775808

/-- The numbers of an integer type: as many below zero as not. -/
def Spans (s : Scalar) (i : Int) : Prop := s.least ≤ i ∧ i < -s.least

instance (s : Scalar) (i : Int) : Decidable (s.Spans i) := inferInstanceAs (Decidable (_ ∧ _))

theorem spans_word (w : Int64) : bigint.Spans w.toInt := ⟨w.le_toInt, w.toInt_lt⟩

end Scalar

namespace Arithmetic

/-- The word that holds a number, if one does. -/
def word? (i : Int) : Option Int64 :=
  if Scalar.bigint.Spans i then some (Int64.ofInt i) else none

/-- The word stands for the number up to multiples of what wraps. -/
def Wraps (w : Int64) (i : Int) : Prop := ∃ k : Int, w.toInt = i + 18446744073709551616 * k

theorem wraps_of_bmod {w : Int64} {i : Int} (h : w.toInt = i.bmod (2 ^ 64)) : Wraps w i := by
  rw [Int.bmod_def] at h
  refine ⟨if i % 18446744073709551616 < 9223372036854775808 then -(i / 18446744073709551616)
    else -(i / 18446744073709551616) - 1, ?_⟩
  split at h <;> split <;> omega

/-- A test that refuses a word just where it is not the number it stands for refuses the numbers
that no word holds. -/
theorem checked_eq_word? {w : Int64} {i : Int} {refused : Bool} (hwraps : Wraps w i)
    (h : refused = true ↔ w.toInt ≠ i) : (if refused then none else some w) = word? i := by
  obtain ⟨k, hk⟩ := hwraps
  have hw := Scalar.spans_word w
  have hheld : Scalar.bigint.Spans i ↔ w.toInt = i := by
    simp only [Scalar.Spans, Scalar.least] at hw ⊢
    omega
  rw [word?]
  by_cases he : w.toInt = i
  · rw [if_neg (by simp [h, he]), if_pos (hheld.mpr he), ← he, Int64.ofInt_toInt]
  · rw [if_pos (h.mpr he), if_neg (mt hheld.mp he)]

/-- A word that is off its number lies on the wrong side of where it came from. -/
theorem wrapped_iff {a w : Int64} {d : Int} (hwraps : Wraps w (a.toInt + d))
    (hd : d.natAbs ≤ 9223372036854775808) :
    w.toInt ≠ a.toInt + d ↔ 0 < d ∧ w < a ∨ d < 0 ∧ a < w := by
  obtain ⟨k, hk⟩ := hwraps
  have ha := Scalar.spans_word a
  have hw := Scalar.spans_word w
  simp only [Scalar.Spans, Scalar.least] at ha hw
  simp only [Int64.lt_iff_toInt_lt]
  omega

theorem natAbs_word (w : Int64) : w.toInt.natAbs ≤ 9223372036854775808 := by
  have hw := Scalar.spans_word w
  simp only [Scalar.Spans, Scalar.least] at hw
  omega

theorem sum?_eq (a b : Int64) : sum? a b = word? (a.toInt + b.toInt) := by
  have hwraps : Wraps (a + b) (a.toInt + b.toInt) := wraps_of_bmod (Int64.toInt_add a b)
  refine checked_eq_word? hwraps ?_
  rw [wrapped_iff hwraps (natAbs_word b)]
  simp [Int64.lt_iff_toInt_lt]

theorem difference?_eq (a b : Int64) : difference? a b = word? (a.toInt - b.toInt) := by
  have hwraps : Wraps (a - b) (a.toInt - b.toInt) := wraps_of_bmod (Int64.toInt_sub a b)
  refine checked_eq_word? hwraps ?_
  rw [Int.sub_eq_add_neg] at hwraps ⊢
  rw [wrapped_iff hwraps (by simpa using natAbs_word b)]
  simp [Int64.lt_iff_toInt_lt]

theorem difference?_zero (a : Int64) : difference? 0 a = word? (-a.toInt) := by
  rw [difference?_eq, Int64.toInt_zero, Int.zero_sub]

theorem toInt_quotient {a b : Int64} (h : ¬ (a = Int64.minValue ∧ b = -1)) :
    (a / b).toInt = a.toInt.tdiv b.toInt := by
  by_cases ha : a = Int64.minValue
  · exact Int64.toInt_div_of_ne_right a b fun hb => h ⟨ha, hb⟩
  · exact Int64.toInt_div_of_ne_left a b ha

/-- A product is exact if dividing it gives the second factor back: what it is off by is less than
the first factor and cannot be a multiple of what wraps. -/
theorem product_exact_iff {a b : Int64} (ha : a ≠ 0) (h : ¬ (a = -1 ∧ b = Int64.minValue)) :
    a * b / a = b ↔ (a * b).toInt = a.toInt * b.toInt := by
  have hzero : a.toInt ≠ 0 := by simpa [← Int64.toInt_inj] using ha
  constructor
  · intro hback
    have hquotient : (a * b).toInt.tdiv a.toInt = b.toInt := by
      rw [← toInt_quotient ?_, hback]
      rintro ⟨hproduct, rfl⟩
      refine h ⟨rfl, ?_⟩
      rw [← hback, hproduct]
      rfl
    obtain ⟨k, hk⟩ := wraps_of_bmod (Int64.toInt_mul a b)
    have hrest : a.toInt * b.toInt + (a * b).toInt.tmod a.toInt = (a * b).toInt := by
      rw [← hquotient]
      exact Int.mul_tdiv_add_tmod _ _
    have hsmall : ((a * b).toInt.tmod a.toInt).natAbs < a.toInt.natAbs := by
      rw [Int.natAbs_tmod]
      exact Nat.mod_lt _ (by omega)
    have hspans := Scalar.spans_word a
    simp only [Scalar.Spans, Scalar.least] at hspans
    omega
  · intro hexact
    rw [← Int64.toInt_inj, Int64.toInt_div, hexact, Int.mul_tdiv_cancel_left _ hzero]
    exact Int64.toInt_bmod b

theorem product?_eq (a b : Int64) : product? a b = word? (a.toInt * b.toInt) := by
  refine checked_eq_word? (wraps_of_bmod (Int64.toInt_mul a b)) ?_
  by_cases ha : a = 0
  · subst ha
    simp
  · by_cases hlast : a = -1 ∧ b = Int64.minValue
    · obtain ⟨rfl, rfl⟩ := hlast
      decide
    · simp [ha, hlast, product_exact_iff ha hlast, -Int64.toInt_mul]

theorem quotient?_eq (a b : Int64) : quotient? a b = word? (a.toInt.tdiv b.toInt) := by
  refine checked_eq_word? (wraps_of_bmod (Int64.toInt_div a b)) ?_
  by_cases hlast : a = Int64.minValue ∧ b = -1
  · obtain ⟨rfl, rfl⟩ := hlast
    decide
  · simp [hlast, toInt_quotient hlast]

theorem toInt_remainder (a b : Int64) : (remainder a b).toInt = a.toInt.tmod b.toInt := by
  unfold remainder
  by_cases hb : b = -1
  · subst hb
    simp
  · simp [hb, Int64.toInt_mod]

theorem word?_cases (i : Int) :
    (∃ w, word? i = some w ∧ w.toInt = i) ∨ word? i = none ∧ ¬ Scalar.bigint.Spans i := by
  by_cases h : Scalar.bigint.Spans i
  · exact .inl ⟨Int64.ofInt i, if_pos h, Int64.toInt_ofInt_of_le h.1 h.2⟩
  · exact .inr ⟨if_neg h, h⟩

end Arithmetic

namespace Builtin

open Arithmetic

/-- The call has no result for arguments that fit. -/
def Refused (x : Except Failure Value) : Prop := ∃ f, x = .error f ∧ f.IsComputation

/-- The value is the number, as one of the type. -/
structure Holds (s : Scalar) (v : Value) (i : Int) : Prop where
  conforms : v.conforms (.scalar s) = true
  number : v.integer.toInt = i

/-- The result is the number if the type has it, and otherwise there is none. -/
structure ExactIn (s : Scalar) (i : Int) (x : Except Failure Value) : Prop where
  held : s.Spans i → ∃ v, x = .ok v ∧ Holds s v i
  refused : ¬ s.Spans i → Refused x

theorem Refused.conforms {x : Except Failure Value} (h : Refused x) (t : DataType) :
    ∀ v, x = .ok v → v.conforms t = true := by
  rintro v rfl
  obtain ⟨f, hf, _⟩ := h
  cases hf

theorem ExactIn.conforms {s : Scalar} {i : Int} {x : Except Failure Value} (h : ExactIn s i x) :
    ∀ v, x = .ok v → v.conforms (.scalar s) = true := by
  by_cases hi : s.Spans i
  · rintro v rfl
    obtain ⟨w, hw, hholds⟩ := h.held hi
    cases hw
    exact hholds.conforms
  · exact (h.refused hi).conforms _

theorem refused_fails {e : EvalError} (h : e.kind = .computation) : Refused (fails e) :=
  ⟨_, rfl, e, rfl, h⟩

theorem fitsInt_iff (w : Int64) : fitsInt w = true ↔ Scalar.int.Spans w.toInt := by
  simp only [fitsInt, Scalar.Spans, Scalar.least, Bool.and_eq_true, decide_eq_true_eq]
  omega

theorem exactIn_word {s : Scalar} (hs : isInteger s = true) (w : Int64) :
    ExactIn s w.toInt (ofInteger s (some w)) := by
  cases s with
  | int =>
    constructor
    · intro h
      have hfits := (fitsInt_iff w).mpr h
      exact ⟨.int w, if_pos hfits, ⟨hfits, rfl⟩⟩
    · intro h
      rw [ofInteger, if_neg (mt (fitsInt_iff w).mp h)]
      exact refused_fails rfl
  | bigint => exact ⟨fun _ => ⟨.bigint w, rfl, ⟨rfl, rfl⟩⟩, absurd (Scalar.spans_word w)⟩
  | _ => cases hs

theorem exactIn_ofInteger {s : Scalar} (hs : isInteger s = true) (i : Int) :
    ExactIn s i (ofInteger s (word? i)) := by
  rcases word?_cases i with ⟨w, hw, rfl⟩ | ⟨hnone, hbeyond⟩
  · rw [hw]
    exact exactIn_word hs w
  · -- What no word holds is in neither range.
    have houtside : ¬ s.Spans i := by
      cases s with
      | int =>
        simp only [Scalar.Spans, Scalar.least] at hbeyond ⊢
        omega
      | _ => exact hbeyond
    rw [hnone]
    exact ⟨(absurd · houtside), fun _ => refused_fails rfl⟩

theorem Holds.spans {s : Scalar} (hs : isInteger s = true) {a : Value} {i : Int}
    (h : Holds s a i) : s.Spans i := by
  obtain ⟨ha, rfl⟩ := h
  cases s with
  | int =>
    cases a with
    | int i => exact (fitsInt_iff i).mp ha
    | malformed m => cases m <;> cases ha
    | _ => cases ha
  | bigint => exact Scalar.spans_word _
  | _ => cases hs

theorem exact_binary {integer : Int64 → Int64 → Option Int64} {op : Int → Int → Int}
    (h : ∀ a b, integer a b = word? (op a.toInt b.toInt)) (real : Double → Double → Double)
    {s : Scalar} (hs : isInteger s = true) {a b : Value} {i j : Int} (ha : Holds s a i)
    (hb : Holds s b j) : ExactIn s (op i j) (Arithmetic.binary integer real s a b) := by
  rw [Arithmetic.binary, if_pos hs, h, ha.number, hb.number]
  exact exactIn_ofInteger hs _

theorem exact_negate {s : Scalar} (hs : isInteger s = true) {a : Value} {i : Int}
    (ha : Holds s a i) : ExactIn s (-i) (negate s a) := by
  rw [negate, if_pos hs, difference?_zero, ha.number]
  exact exactIn_ofInteger hs _

theorem exact_absolute {s : Scalar} (hs : isInteger s = true) {a : Value} {i : Int}
    (ha : Holds s a i) : ExactIn s i.natAbs (absolute s a) := by
  rw [absolute, if_pos hs, difference?_zero]
  simp only [Int64.le_iff_toInt_le, Int64.toInt_zero, ha.number]
  by_cases hi : 0 ≤ i
  · rw [if_pos hi, Int.natAbs_of_nonneg hi]
    exact ⟨fun _ => ⟨a, rfl, ha⟩, absurd (ha.spans hs)⟩
  · have hopposite : (i.natAbs : Int) = -i := by omega
    rw [if_neg hi, hopposite]
    exact exactIn_ofInteger hs _

/-- The function is what a call of the name with arguments of just these scalars is bound to. -/
structure Overload (name : String) (ss : List Scalar) (r : Scalar) (f : ScalarFunction) : Prop where
  parameters : f.parameters = ss.map fun s => some (.scalar s)
  result : f.result = some (.scalar r)
  bound : Registry.builtin.resolve (utf8 name) f.parameters = .ok ⟨utf8 name, f, f.result, false⟩

theorem overload_strict {name : String} {fs : List ScalarFunction}
    (htable : table.lookup name = some fs) {r : Scalar} {ss : List Scalar} {d : String}
    {body : List Value → Except Failure Value} (hmem : strict r ss d body ∈ fs) :
    Overload name ss r (strict r ss d body) := by
  refine ⟨rfl, rfl, ?_⟩
  have hmap : (strict r ss d body).parameters = (ss.map DataType.scalar).map some := by
    rw [List.map_map]
    rfl
  rw [hmap]
  refine Registry.resolve_exact (Registry.distinct_start (.inr rfl)) ?_ hmap
  rw [Registry.overloads_of_lookup htable]
  exact hmem

theorem isInteger_iff {s : Scalar} : isInteger s = true ↔ s ∈ [Scalar.int, .bigint] := by
  cases s <;> decide

theorem mem_numericTypes {s : Scalar} (hs : isInteger s = true) : s ∈ numericTypes := by
  simp only [numericTypes, List.mem_filter]
  cases s with
  | int | bigint => decide
  | _ => cases hs

theorem overload_numericBinary {name d : String} {fs : List ScalarFunction}
    (htable : table.lookup name = some fs) {types : List Scalar}
    {g : Scalar → Value → Value → Except Failure Value}
    (hfs : ∀ f ∈ numericBinary d types g, f ∈ fs) {s : Scalar} (hs : s ∈ types) :
    Overload name [s, s] s (strict s [s, s] d (binary (g s))) :=
  overload_strict htable (hfs _ (List.mem_map_of_mem hs))

theorem exact_numericBinary (op : Int → Int → Int) {name d : String} {fs : List ScalarFunction}
    (htable : table.lookup name = some fs) {g : Scalar → Value → Value → Except Failure Value}
    (hfs : ∀ f ∈ numericBinary d numericTypes g, f ∈ fs) {s : Scalar} (hs : isInteger s = true)
    (hg : ∀ {a b i j}, Holds s a i → Holds s b j → ExactIn s (op i j) (g s a b)) :
    ∃ f, Overload name [s, s] s f ∧ ∀ a b i j, Holds s a i → Holds s b j →
      ExactIn s (op i j) (f.call [a, b]) := by
  refine ⟨_, overload_numericBinary htable hfs (mem_numericTypes hs), ?_⟩
  intro a b i j ha hb
  rw [call_binary ha.conforms hb.conforms (hg ha hb).conforms]
  exact hg ha hb

theorem exact_numericUnary (op : Int → Int) {name d : String} {fs : List ScalarFunction}
    (htable : table.lookup name = some fs) {g : Scalar → Value → Except Failure Value}
    (hfs : ∀ f ∈ numericUnary d g, f ∈ fs) {s : Scalar} (hs : isInteger s = true)
    (hg : ∀ {a i}, Holds s a i → ExactIn s (op i) (g s a)) :
    ∃ f, Overload name [s] s f ∧ ∀ a i, Holds s a i → ExactIn s (op i) (f.call [a]) := by
  refine ⟨_, overload_strict htable (hfs _ (List.mem_map_of_mem (mem_numericTypes hs))), ?_⟩
  intro a i ha
  rw [call_unary ha.conforms (hg ha).conforms]
  exact hg ha

/-- The functions of two numbers that are exact or fail, and what they compute. -/
def exactBinary : List (String × (Int → Int → Int)) :=
  [("+", fun i j => i + j), ("-", fun i j => i - j), ("*", fun i j => i * j)]

def exactUnary : List (String × (Int → Int)) :=
  [("-", fun i => -i), ("abs", fun i => i.natAbs)]

/-- On the integer types a sum, a difference, a product, an opposite or an absolute value is exact
if the type has it, and otherwise the call fails; no result ever wraps. -/
theorem integers_exact_or_refused {s : Scalar} (hs : s ∈ [Scalar.int, .bigint]) :
    (∀ entry ∈ exactBinary, ∃ f, Overload entry.1 [s, s] s f ∧ ∀ a b i j,
      Holds s a i → Holds s b j → ExactIn s (entry.2 i j) (f.call [a, b])) ∧
    ∀ entry ∈ exactUnary, ∃ f, Overload entry.1 [s] s f ∧ ∀ a i,
      Holds s a i → ExactIn s (entry.2 i) (f.call [a]) := by
  replace hs := isInteger_iff.mpr hs
  simp only [exactBinary, exactUnary, List.forall_mem_cons, List.not_mem_nil, false_imp_iff,
    implies_true, and_true]
  refine ⟨⟨?_, ?_, ?_⟩, ?_, ?_⟩
  · exact exact_numericBinary (· + ·) rfl (fun f hf => hf) hs (exact_binary sum?_eq _ hs)
  · exact exact_numericBinary (· - ·) rfl (fun f hf => List.mem_append_left _ hf) hs
      (exact_binary difference?_eq _ hs)
  · exact exact_numericBinary (· * ·) rfl (fun f hf => hf) hs (exact_binary product?_eq _ hs)
  · exact exact_numericUnary (- ·) rfl (fun f hf => List.mem_append_right _ hf) hs (exact_negate hs)
  · exact exact_numericUnary (fun i => i.natAbs) rfl (fun f hf => hf) hs (exact_absolute hs)

/-- Minus one times the least word is refused, though dividing by minus one would give it back, and
so is the absolute value of the least number of 32 bits; that of the next one is not. -/
theorem integers_exact_or_refused_least :
    (∃ f, Overload "*" [.bigint, .bigint] .bigint f ∧
      Refused (f.call [.bigint (-1), .bigint Int64.minValue])) ∧
    ∃ f, Overload "abs" [.int] .int f ∧ Refused (f.call [.int (-2147483648)]) ∧
      ∃ v, f.call [.int (-2147483647)] = .ok v ∧ Holds .int v 2147483647 := by
  obtain ⟨f, hf, hproduct⟩ := (integers_exact_or_refused (s := .bigint) (by decide)).1
    ("*", fun i j => i * j) (by simp [exactBinary])
  obtain ⟨g, hg, habsolute⟩ := (integers_exact_or_refused (s := .int) (by decide)).2
    ("abs", fun i => i.natAbs) (by simp [exactUnary])
  refine ⟨⟨f, hf, ?_⟩, g, hg, ?_, ?_⟩
  · exact (hproduct _ _ _ _ ⟨rfl, rfl⟩ ⟨rfl, rfl⟩).refused (by decide)
  · exact (habsolute (.int (-2147483648)) _ ⟨rfl, rfl⟩).refused (by decide)
  · exact (habsolute (.int (-2147483647)) _ ⟨rfl, rfl⟩).held (by decide)

/-- The one quotient that a type lacks is the opposite of its least number: every divisor but one
and minus one halves the number at least. -/
theorem spans_tdiv_iff {s : Scalar} {i j : Int} (hi : s.Spans i) (hj : j ≠ 0) :
    s.Spans (i.tdiv j) ↔ ¬ (i = s.least ∧ j = -1) := by
  have hleast : s.least ≤ -2 := by cases s <;> decide
  unfold Scalar.Spans at hi ⊢
  by_cases hone : j = 1
  · subst hone
    rw [Int.tdiv_one]
    omega
  by_cases hminus : j = -1
  · subst hminus
    rw [Int.tdiv_neg, Int.tdiv_one]
    omega
  have hhalf : (i.tdiv j).natAbs ≤ i.natAbs / 2 := by
    rw [Int.natAbs_tdiv]
    exact Nat.div_le_div_left (by omega) (by omega)
  omega

theorem Holds.zero_iff {s : Scalar} {b : Value} {j : Int} (h : Holds s b j) :
    b.integer = 0 ↔ j = 0 := by
  rw [← h.number, ← Int64.toInt_inj, Int64.toInt_zero]

theorem refused_divide {s : Scalar} (hs : isInteger s = true) {a b : Value} (hb : Holds s b 0) :
    Refused (divide s a b) := by
  rw [divide, if_pos hs, if_pos (hb.zero_iff.mpr rfl)]
  exact refused_fails rfl

theorem refused_modulo {s : Scalar} {a b : Value} (hb : Holds s b 0) : Refused (modulo s a b) := by
  rw [modulo, if_pos (hb.zero_iff.mpr rfl)]
  exact refused_fails rfl

theorem exact_divide {s : Scalar} (hs : isInteger s = true) {a b : Value} {i j : Int}
    (ha : Holds s a i) (hb : Holds s b j) (hj : j ≠ 0) :
    ExactIn s (i.tdiv j) (divide s a b) := by
  rw [divide, if_pos hs, if_neg (mt hb.zero_iff.mp hj), quotient?_eq, ha.number, hb.number]
  exact exactIn_ofInteger hs _

theorem exact_modulo {s : Scalar} (hs : isInteger s = true) {a b : Value} {i j : Int}
    (ha : Holds s a i) (hb : Holds s b j) (hj : j ≠ 0) :
    ExactIn s (i.tmod j) (modulo s a b) := by
  rw [modulo, if_neg (mt hb.zero_iff.mp hj), ← ha.number, ← hb.number, ← toInt_remainder]
  exact exactIn_word hs _

/-- A remainder is closer to zero than the number that it remains of, so the type has it. -/
theorem spans_tmod {s : Scalar} {i : Int} (hi : s.Spans i) (j : Int) : s.Spans (i.tmod j) := by
  have hle : (i.tmod j).natAbs ≤ i.natAbs := by
    rw [Int.natAbs_tmod]
    exact Nat.mod_le _ _
  unfold Scalar.Spans at hi ⊢
  rcases Int.le_total 0 i with hsign | hsign
  · have hnonneg := Int.tmod_nonneg j hsign
    omega
  · have hnonpos := Int.tmod_nonneg j (Int.neg_nonneg.mpr hsign)
    rw [Int.neg_tmod] at hnonpos
    omega

/-- Integers are divided toward zero. A divisor of zero is refused; any other leaves a remainder
that is smaller than it and has the sign of the dividend, and there is a quotient to it unless the
type lacks it. -/
theorem integers_divide_toward_zero {s : Scalar} (hmem : s ∈ [Scalar.int, .bigint]) :
    ∃ f g, Overload "/" [s, s] s f ∧ Overload "%" [s, s] s g ∧
      ∀ a b i j, Holds s a i → Holds s b j →
        (j = 0 → Refused (f.call [a, b]) ∧ Refused (g.call [a, b])) ∧
        (j ≠ 0 → ∃ v r, g.call [a, b] = .ok v ∧ Holds s v r ∧ r.natAbs < j.natAbs ∧
          (r = 0 ∨ r.sign = i.sign) ∧
          (i = s.least ∧ j = -1 → Refused (f.call [a, b])) ∧
          (¬ (i = s.least ∧ j = -1) →
            ∃ w q, f.call [a, b] = .ok w ∧ Holds s w q ∧ i = q * j + r)) := by
  have hs := isInteger_iff.mpr hmem
  refine ⟨_, _, overload_numericBinary rfl (fun f hf => hf) (mem_numericTypes hs),
    overload_numericBinary rfl (fun f hf => hf) hmem, ?_⟩
  intro a b i j ha hb
  constructor
  · rintro rfl
    have hf := refused_divide hs (a := a) hb
    have hg := refused_modulo (a := a) hb
    rw [call_binary ha.conforms hb.conforms (hf.conforms _),
      call_binary ha.conforms hb.conforms (hg.conforms _)]
    exact ⟨hf, hg⟩
  · intro hj
    have hf := exact_divide hs ha hb hj
    have hg := exact_modulo hs ha hb hj
    have hspans := spans_tdiv_iff (ha.spans hs) hj
    rw [call_binary ha.conforms hb.conforms hf.conforms,
      call_binary ha.conforms hb.conforms hg.conforms]
    obtain ⟨v, hv, hr⟩ := hg.held (spans_tmod (ha.spans hs) j)
    refine ⟨v, i.tmod j, hv, hr, ?_, ?_, ?_, ?_⟩
    · rw [Int.natAbs_tmod]
      exact Nat.mod_lt _ (by omega)
    · rw [Int.sign_tmod, ← Int.dvd_iff_tmod_eq_zero]
      by_cases hdvd : j ∣ i
      · exact .inl hdvd
      · exact .inr (if_neg hdvd)
    · intro hlast
      exact hf.refused fun h => hspans.mp h hlast
    · intro hother
      obtain ⟨w, hw, hq⟩ := hf.held (hspans.mpr hother)
      exact ⟨w, i.tdiv j, hw, hq, (Int.tdiv_mul_add_tmod i j).symm⟩

/-- The least number of 32 bits has no quotient by minus one and the remainder zero, and what is
said of quotient and remainder leaves one of each for a negative dividend. -/
theorem integers_divide_toward_zero_negative :
    ∃ f g, Overload "/" [.int, .int] .int f ∧ Overload "%" [.int, .int] .int g ∧
      Refused (f.call [.int 7, .int 0]) ∧ Refused (f.call [.int (-2147483648), .int (-1)]) ∧
      (∃ v, g.call [.int (-2147483648), .int (-1)] = .ok v ∧ Holds .int v 0) ∧
      ∃ v w, g.call [.int (-7), .int 2] = .ok v ∧ Holds .int v (-1) ∧
        f.call [.int (-7), .int 2] = .ok w ∧ Holds .int w (-3) := by
  obtain ⟨f, g, hf, hg, hdivides⟩ := integers_divide_toward_zero (s := .int) (by decide)
  have hzero := (hdivides (.int 7) (.int 0) 7 0 ⟨rfl, rfl⟩ ⟨rfl, rfl⟩).1 rfl
  obtain ⟨u, z, hu, huz, hz, _, hlast, _⟩ :=
    (hdivides (.int (-2147483648)) (.int (-1)) _ _ ⟨rfl, rfl⟩ ⟨rfl, rfl⟩).2 (by decide)
  obtain ⟨v, r, hv, hvr, hr, hsign, _, hquotient⟩ :=
    (hdivides (.int (-7)) (.int 2) (-7) 2 ⟨rfl, rfl⟩ ⟨rfl, rfl⟩).2 (by decide)
  obtain ⟨w, q, hw, hwq, hback⟩ := hquotient (by decide)
  have hnegative : r < 0 := by
    rcases hsign with hnone | hsame
    · omega
    · exact Int.sign_eq_neg_one_iff_neg.mp hsame
  obtain rfl : r = -1 := by omega
  obtain rfl : q = -3 := by omega
  obtain rfl : z = 0 := Int.natAbs_eq_zero.mp (Nat.lt_one_iff.mp hz)
  exact ⟨f, g, hf, hg, hzero.1, hlast ⟨rfl, rfl⟩, ⟨u, hu, huz⟩, v, w, hv, hvr, hw, hwq⟩

end Builtin

end TypedStream
