import TypedStream.Proofs.Event

namespace TypedStream.Event

/-- A decimal numeral and its number: digits, with a minus sign (45) in front if need be. -/
inductive Numeral : Text → Int → Prop
  | plain {digits : Text} (some : digits ≠ []) (all : ∀ b ∈ digits, Text.isDigit b = true) :
    Numeral digits (Text.decimal digits)
  | negative {digits : Text} (some : digits ≠ []) (all : ∀ b ∈ digits, Text.isDigit b = true) :
    Numeral (45 :: digits) (-Text.decimal digits)

/-- The integer of a run of digits and a sign, if it is one and has 64 bits. -/
def integerOf? (negative : Bool) (digits : Text) : Option Int :=
  if digits.isEmpty || !digits.all Text.isDigit then none
  else
    let i := Double.signed negative (Text.decimal digits)
    if -9223372036854775808 ≤ i ∧ i ≤ 9223372036854775807 then some i else none

theorem integer?_negative (digits : Text) : integer? (45 :: digits) = integerOf? true digits := rfl

theorem integer?_plain {token : Text} (h : ∀ rest, token ≠ 45 :: rest) :
    integer? token = integerOf? false token := by
  unfold integer?
  split
  rename_i heq
  split at heq
  · exact absurd rfl (h _)
  · cases heq
    rfl

theorem integerOf?_eq_some_iff {negative : Bool} {digits : Text} {i : Int} :
    integerOf? negative digits = some i ↔ (digits ≠ [] ∧ ∀ b ∈ digits, Text.isDigit b = true) ∧
      i = Double.signed negative (Text.decimal digits) ∧
      -9223372036854775808 ≤ i ∧ i ≤ 9223372036854775807 := by
  have hdigits : (digits.isEmpty || !digits.all Text.isDigit) = false ↔
      digits ≠ [] ∧ ∀ b ∈ digits, Text.isDigit b = true := by
    simp [List.isEmpty_eq_false_iff]
  rw [← hdigits, integerOf?]
  cases digits.isEmpty || !digits.all Text.isDigit with
  | true => simp
  | false =>
    simp only [Bool.false_eq_true, if_false, Option.ite_none_right_eq_some, Option.some.injEq,
      true_and]
    constructor
    · intro h
      obtain ⟨hrange, rfl⟩ := h
      exact ⟨rfl, hrange⟩
    · intro h
      obtain ⟨rfl, hrange⟩ := h
      exact ⟨hrange, rfl⟩

/-- The integers that are read are those of numerals, as far as they have 64 bits. -/
theorem integer?_eq_some_iff {token : Text} {i : Int} : integer? token = some i ↔
    Numeral token i ∧ -9223372036854775808 ≤ i ∧ i ≤ 9223372036854775807 := by
  constructor
  · intro h
    by_cases hminus : ∃ digits, token = 45 :: digits
    · obtain ⟨digits, rfl⟩ := hminus
      rw [integer?_negative, integerOf?_eq_some_iff] at h
      obtain ⟨⟨hsome, hall⟩, rfl, hrange⟩ := h
      exact ⟨.negative hsome hall, hrange⟩
    · rw [integer?_plain (not_exists.mp hminus), integerOf?_eq_some_iff] at h
      obtain ⟨⟨hsome, hall⟩, rfl, hrange⟩ := h
      exact ⟨.plain hsome hall, hrange⟩
  · intro h
    obtain ⟨hnumeral, hrange⟩ := h
    cases hnumeral with
    | plain hsome hall =>
      -- a minus sign is no digit
      have hplain : ∀ rest, token ≠ 45 :: rest := by
        intro rest he
        rw [he] at hall
        exact absurd (hall 45 (by simp)) (by decide)
      rw [integer?_plain hplain, integerOf?_eq_some_iff]
      exact ⟨⟨hsome, hall⟩, rfl, hrange⟩
    | negative hsome hall =>
      rw [integer?_negative, integerOf?_eq_some_iff]
      exact ⟨⟨hsome, hall⟩, rfl, hrange⟩

/-- A number as a value of a floating-point type. -/
def realValue (s : Scalar) (x : Double) : Value :=
  if s = .float then .float x.narrow.widen else .double x

namespace Slot

variable {slot : Slot} {s : Scalar} {token : Text} {w : Value}

/-- A field of a scalar type, nullable or not, that finds a number token. -/
structure FindsNumber (slot : Slot) (s : Scalar) (token : Text) : Prop where
  type : slot.type = .scalar s ∨ slot.type = .nullable s
  found : slot.found = some (.number token)

theorem FindsNumber.holds_iff (h : slot.FindsNumber s token) :
    slot.Holds w ↔ scalar? s (.number token) = some w := by
  rw [Holds, h.found]
  rcases h.type with ht | ht
  · rw [ht]
    rfl
  · rw [ht]
    rfl

/-- A field of an integer type has the integer that the token is a numeral of. -/
theorem FindsNumber.integer (h : slot.FindsNumber s token) (hs : s = .int ∨ s = .bigint)
    (hw : slot.Holds w) :
    ∃ i, integer? token = some i ∧ w.kind = .scalar s ∧ w.integer.toInt = i := by
  rw [h.holds_iff] at hw
  rcases hs with rfl | rfl
  · obtain ⟨i, hi, hrange⟩ := Option.bind_eq_some_iff.mp hw
    split at hrange
    · cases hrange
      refine ⟨i, hi, rfl, ?_⟩
      apply Int64.toInt_ofInt_of_le <;> omega
    · cases hrange
  · obtain ⟨i, hi, rfl⟩ := Option.map_eq_some_iff.mp hw
    obtain ⟨_, hlow, hhigh⟩ := integer?_eq_some_iff.mp hi
    refine ⟨i, hi, rfl, ?_⟩
    apply Int64.toInt_ofInt_of_le <;> omega

theorem FindsNumber.real (h : slot.FindsNumber s token) (hs : s = .float ∨ s = .double) :
    slot.Holds w ↔ w = realValue s ((real? token).getD Double.zero) := by
  rw [h.holds_iff]
  rcases hs with rfl | rfl
  · simp [scalar?, realValue, eq_comm]
  · simp [scalar?, realValue, eq_comm]

end Slot

/-- Number tokens in an event, at every field of a numeric type and at any depth. For an integer
type a decoded event has the integer of a numeral there, and a token from which no integer is read
leaves the event without values. For a floating-point type it has the number that is read from the
token, or else zero: a token from which none is read is as good as a zero. -/
theorem decode_number_tokens (fs : List (Text × DataType)) (data : Text)
    {entries : List (Text × Json)} (hparse : Json.parse? data = some (.object entries))
    {path : List Nat} {slot : Slot} (hslot : field? fs entries path = some slot) {s : Scalar}
    {token : Text} (hnumber : slot.FindsNumber s token) :
    (s = .int ∨ s = .bigint →
      (∀ vs, decode (.record fs) data = .ok vs → ∃ i w, integer? token = some i ∧
        Numeral token i ∧ (Value.record vs).at? path = some w ∧ w.kind = .scalar s ∧
        w.integer.toInt = i) ∧
      (integer? token = none → ∃ e, decode (.record fs) data = .error e)) ∧
    (s = .float ∨ s = .double →
      (∀ vs, decode (.record fs) data = .ok vs →
        (Value.record vs).at? path = some (realValue s ((real? token).getD Double.zero))) ∧
      (real? token = none → slot.Holds (realValue s Double.zero))) := by
  constructor
  · intro hs
    have hread : ∀ vs, decode (.record fs) data = .ok vs → ∃ i w, integer? token = some i ∧
        Numeral token i ∧ (Value.record vs).at? path = some w ∧ w.kind = .scalar s ∧
        w.integer.toInt = i := by
      intro vs h
      obtain ⟨w, hw, hv⟩ := decode_holds h hparse hslot
      obtain ⟨i, hi, hkind, hinteger⟩ := hnumber.integer hs hv
      exact ⟨i, w, hi, (integer?_eq_some_iff.mp hi).1, hw, hkind, hinteger⟩
    refine ⟨hread, ?_⟩
    intro hnone
    cases hd : decode (.record fs) data with
    | error e => exact ⟨e, rfl⟩
    | ok vs =>
      obtain ⟨i, _, hi, _⟩ := hread vs hd
      rw [hnone] at hi
      cases hi
  · intro hs
    constructor
    · intro vs h
      obtain ⟨w, hw, hv⟩ := decode_holds h hparse hslot
      rw [hw, (hnumber.real hs).mp hv]
    · intro hnone
      rw [hnumber.real hs, hnone]
      rfl

def readingFields : List (Text × DataType) :=
  [(utf8 "a", .record [(utf8 "n", .nullable .int), (utf8 "x", .scalar .double)])]

def reading (n x : String) : Text :=
  utf8 "\x7b\"a\":\x7b\"n\":" ++ utf8 n ++ utf8 ",\"x\":" ++ utf8 x ++ utf8 "\x7d\x7d"

def readingMembers (n x : String) : List (Text × Json) :=
  [(utf8 "n", .number (utf8 n)), (utf8 "x", .number (utf8 x))]

theorem reading_slots (n x : String) :
    field? readingFields [(utf8 "a", .object (readingMembers n x))] [0, 0] =
        some ⟨readingMembers n x, utf8 "n", .nullable .int, some (.number (utf8 n))⟩ ∧
      field? readingFields [(utf8 "a", .object (readingMembers n x))] [0, 1] =
        some ⟨readingMembers n x, utf8 "x", .scalar .double, some (.number (utf8 x))⟩ := by
  constructor
  · with_unfolding_all rfl
  · with_unfolding_all rfl

/-- Of one malformed token the field is zero; another one leaves the event without values. -/
theorem decode_number_tokens_malformed :
    (∃ vs, decode (.record readingFields) (reading "-7" "1.2.3") = .ok vs ∧
      (∃ w, (Value.record vs).at? [0, 0] = some w ∧ w.integer.toInt = -7) ∧
      (Value.record vs).at? [0, 1] = some (.double Double.zero)) ∧
    ∃ e, decode (.record readingFields) (reading "1.5" "2") = .error e := by
  constructor
  · have hparse : Json.parse? (reading "-7" "1.2.3") =
        some (.object [(utf8 "a", .object (readingMembers "-7" "1.2.3"))]) := by
      with_unfolding_all rfl
    have hdecode : decode (.record readingFields) (reading "-7" "1.2.3") =
        .ok [.record [.int (-7), .double Double.zero]] := by
      with_unfolding_all rfl
    have hseven : integer? (utf8 "-7") = some (-7) := by with_unfolding_all rfl
    obtain ⟨hn, hx⟩ := reading_slots "-7" "1.2.3"
    obtain ⟨hinteger, _⟩ := (decode_number_tokens _ _ hparse hn ⟨.inr rfl, rfl⟩).1 (.inl rfl)
    obtain ⟨hreal, _⟩ := (decode_number_tokens _ _ hparse hx ⟨.inl rfl, rfl⟩).2 (.inr rfl)
    obtain ⟨i, w, hi, _, hw, _, hwi⟩ := hinteger _ hdecode
    cases hi.symm.trans hseven
    exact ⟨_, hdecode, ⟨w, hw, hwi⟩, hreal _ hdecode⟩
  · have hparse : Json.parse? (reading "1.5" "2") =
        some (.object [(utf8 "a", .object (readingMembers "1.5" "2"))]) := by
      with_unfolding_all rfl
    have hnone : integer? (utf8 "1.5") = none := by with_unfolding_all rfl
    obtain ⟨hn, _⟩ := reading_slots "1.5" "2"
    obtain ⟨_, hrefused⟩ := (decode_number_tokens _ _ hparse hn ⟨.inr rfl, rfl⟩).1 (.inl rfl)
    exact hrefused hnone

/-- No number can be read from `1.2.3`, and yet the event with that token is decoded. -/
theorem malformed_number_decoded :
    ∃ entries slot, Json.parse? (utf8 "\x7b\"x\":1.2.3\x7d") = some (.object entries) ∧
      field? [(utf8 "x", .scalar .double)] entries [0] = some slot ∧
      slot.FindsNumber .double (utf8 "1.2.3") ∧ real? (utf8 "1.2.3") = none ∧
      decode (.record [(utf8 "x", .scalar .double)]) (utf8 "\x7b\"x\":1.2.3\x7d") =
        .ok [.double Double.zero] := by
  refine ⟨[(utf8 "x", .number (utf8 "1.2.3"))], ⟨[(utf8 "x", .number (utf8 "1.2.3"))], utf8 "x",
    .scalar .double, some (.number (utf8 "1.2.3"))⟩, ?_, ?_, ⟨.inl rfl, rfl⟩, ?_, ?_⟩
  · with_unfolding_all rfl
  · with_unfolding_all rfl
  · with_unfolding_all rfl
  · with_unfolding_all rfl

end TypedStream.Event
