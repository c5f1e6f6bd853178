import TypedStream.Proofs.Conversion.Coherence
import TypedStream.Value.Basic

namespace TypedStream

theorem compare_int_eq (x y : Int) :
    compare x y = if x < y then Ordering.lt else if y < x then .gt else .eq := by
  rcases Int.lt_trichotomy x y with h | h | h
  · rw [if_pos h, Int.compare_eq_lt.mpr h]
  · simp [h]
  · rw [if_neg (Int.not_lt.mpr (Int.le_of_lt h)), if_pos h, Int.compare_eq_gt.mpr h]

/-- Two keys are ordered as `o` says, whatever stands behind them; that counts only if `o` leaves it
open. -/
def KeyOrder (o : Ordering) (xs ys : List Int) : Prop :=
  ∀ more others : List Int, compare (xs ++ more) (ys ++ others) = o.then (compare more others)

namespace KeyOrder

variable {o p : Ordering} {x y : Int} {xs ys xs' ys' : List Int}

theorem nil : KeyOrder .eq [] [] := fun _ _ => rfl

theorem cons (h : KeyOrder o xs ys) : KeyOrder ((compare x y).then o) (x :: xs) (y :: ys) := by
  intro more others
  rw [List.cons_append, List.cons_append, List.compare_cons_cons, h, Ordering.then_assoc]

theorem cons_self (h : KeyOrder o xs ys) : KeyOrder o (x :: xs) (x :: ys) := by
  have hcons := h.cons (x := x) (y := x)
  rwa [Int.compare_eq_eq.mpr rfl] at hcons

theorem singleton (x y : Int) : KeyOrder (compare x y) [x] [y] := by
  have hcons := nil.cons (x := x) (y := y)
  rwa [Ordering.then_eq] at hcons

theorem of_ne (h : x ≠ y) : KeyOrder (compare x y) (x :: xs) (y :: ys) := by
  intro more others
  rw [List.cons_append, List.cons_append, List.compare_cons_cons]
  rcases Int.lt_or_gt_of_ne h with hlt | hgt
  · rw [Int.compare_eq_lt.mpr hlt]
    rfl
  · rw [Int.compare_eq_gt.mpr hgt]
    rfl

theorem append (h : KeyOrder o xs ys) (h' : KeyOrder p xs' ys') :
    KeyOrder (o.then p) (xs ++ xs') (ys ++ ys') := by
  intro more others
  rw [List.append_assoc, List.append_assoc, h, h', Ordering.then_assoc]

theorem append_of_ne (h : KeyOrder o xs ys) (ho : o ≠ .eq) :
    KeyOrder o (xs ++ xs') (ys ++ ys') := by
  intro more others
  rw [List.append_assoc, List.append_assoc, h]
  cases o with
  | eq => exact absurd rfl ho
  | _ => rfl

theorem compare_eq (h : KeyOrder o xs ys) : compare xs ys = o := by
  simpa using h [] []

end KeyOrder

namespace Text

/-- The bytes, each raised by one, and a zero behind them. -/
def key : Text → List Int
  | [] => [0]
  | b :: t => (b.toNat + 1) :: key t

theorem key_order (s t : Text) : KeyOrder (s.compare t) s.key t.key := by
  induction s generalizing t with
  | nil =>
    cases t with
    | nil => exact .singleton 0 0
    | cons b t =>
      have hless : Ord.compare (0 : Int) (b.toNat + 1) = .lt := Int.compare_eq_lt.mpr (by omega)
      rw [compare, ← hless]
      exact .of_ne (by omega)
  | cons a s ih =>
    cases t with
    | nil =>
      have hgreater : Ord.compare ((a.toNat : Int) + 1) 0 = .gt :=
        Int.compare_eq_gt.mpr (by omega)
      rw [compare, ← hgreater]
      exact .of_ne (by omega)
    | cons b t =>
      have hbytes : compare (a :: s) (b :: t) =
          (Ord.compare ((a.toNat : Int) + 1) (b.toNat + 1)).then (compare s t) := by
        simp only [compare, compare_int_eq, Int.add_lt_add_iff_right, Int.ofNat_lt,
          UInt8.lt_iff_toNat_lt]
        split
        · rfl
        · split <;> rfl
      rw [hbytes]
      exact (ih t).cons

end Text

namespace Instant

theorem compareCalendar_eq (t u : Instant) : t.compareCalendar u =
    (Ord.compare t.seconds.toInt u.seconds.toInt).then (Ord.compare (t.nanos : Int) u.nanos) := by
  simp only [compareCalendar, compare_int_eq, Int64.lt_iff_toInt_lt, Nat.compare_eq_ite_lt,
    Int.ofNat_lt]
  split
  · rfl
  · split <;> rfl

theorem compareCalendar_swap (t u : Instant) :
    u.compareCalendar t = (t.compareCalendar u).swap := by
  rw [compareCalendar_eq, compareCalendar_eq, Ordering.swap_then]
  exact congrArg₂ Ordering.then Std.OrientedCmp.eq_swap Std.OrientedCmp.eq_swap

theorem compare_of_reading {t u : Instant} {m n : Int64} (ht : t.reading = some m)
    (hu : u.reading = some n) : t.compare u = Ord.compare m.toInt n.toInt := by
  simp only [compare, ht, hu, compare_int_eq, Int64.lt_iff_toInt_lt]

theorem compare_of_none {t u : Instant} (h : t.reading = none ∨ u.reading = none) :
    t.compare u = t.compareCalendar u := by
  unfold compare
  split
  · rename_i ht hu
    simp [ht, hu] at h
  · rfl

theorem compare_swap (t u : Instant) : u.compare t = (t.compare u).swap := by
  cases ht : t.reading with
  | none => rw [compare_of_none (.inl ht), compare_of_none (.inr ht), compareCalendar_swap]
  | some m =>
    cases hu : u.reading with
    | none => rw [compare_of_none (.inr hu), compare_of_none (.inl hu), compareCalendar_swap]
    | some n =>
      rw [compare_of_reading ht hu, compare_of_reading hu ht]
      exact Std.OrientedCmp.eq_swap

end Instant

namespace Double

theorem compare_of_isNaN {x y : Double} (h : x.isNaN = true ∨ y.isNaN = true) :
    x.compare y = .eq := by
  rw [compare, if_pos]
  simpa using h

theorem compare_eq {x y : Double} (hx : x.isNaN = false) (hy : y.isNaN = false) :
    x.compare y = Ord.compare x.rank y.rank := by
  simp [compare, hx, hy, compare_int_eq]

theorem compare_swap (x y : Double) : y.compare x = (x.compare y).swap := by
  by_cases h : x.isNaN = true ∨ y.isNaN = true
  · rw [compare_of_isNaN h, compare_of_isNaN h.symm]
    rfl
  · obtain ⟨hx, hy⟩ := not_or.mp h
    rw [Bool.not_eq_true] at hx hy
    rw [compare_eq hx hy, compare_eq hy hx]
    exact Std.OrientedCmp.eq_swap

end Double

theorem Kind.ofCode?_code (k : Kind) : ofCode? k.code = some k := by
  cases k with
  | scalar s => cases s <;> rfl
  | _ => rfl

theorem Kind.code_inj {k l : Kind} (h : k.code = l.code) : k = l := by
  have hcode : some k = some l := by rw [← ofCode?_code k, h, ofCode?_code]
  exact Option.some.inj hcode

namespace Value

variable {a b c : Value} {o : Ordering}

theorem compareInt_eq (a b : Int64) : compareInt a b = Ord.compare a.toInt b.toInt := by
  simp only [compareInt, compare_int_eq, Int64.lt_iff_toInt_lt]

theorem compareBool_eq (a b : Bool) :
    compareBool a b = Ord.compare (a.toNat : Int) b.toNat := by
  cases a <;> cases b <;> rfl

theorem compareKinds_eq (k l : Kind) : compareKinds k l = Ord.compare (k.code : Int) l.code := by
  simp only [compareKinds, compare_int_eq, Nat.compare_eq_ite_lt, Int.ofNat_lt]

inductive SameKind : Value → Value → Prop where
  | null : SameKind null null
  | boolean (x y : Bool) : SameKind (boolean x) (boolean y)
  | int (i j : Int64) : SameKind (int i) (int j)
  | bigint (i j : Int64) : SameKind (bigint i) (bigint j)
  | float (x y : Double) : SameKind (float x) (float y)
  | double (x y : Double) : SameKind (double x) (double y)
  | string (s t : Text) : SameKind (string s) (string t)
  | timestamp (t u : Instant) : SameKind (timestamp t) (timestamp u)
  | timespan (s t : Span) : SameKind (timespan s) (timespan t)
  | record (as bs : List Value) : SameKind (record as) (record bs)
  | malformed (m : Misnomer) : SameKind (malformed m) (malformed m)

theorem kind_eq_iff : a.kind = b.kind ↔ SameKind a b := by
  constructor
  · intro h
    cases a with
    | malformed m =>
      cases b with
      | malformed n =>
        have he : m = n := by cases m <;> cases n <;> first | rfl | cases h
        rw [he]
        exact .malformed n
      | _ => cases m <;> cases h
    | _ =>
      cases b with
      | malformed n => cases n <;> cases h
      | _ => first | constructor | cases h
  · intro h
    cases h <;> rfl

theorem compare?_of_kind_ne (h : a.kind ≠ b.kind) :
    a.compare? b = some (compareKinds a.kind b.kind) := by
  cases a with
  | malformed m =>
    cases b with
    | malformed n =>
      have hne : m ≠ n := fun he => h (by rw [he])
      simp [compare?, hne]
    | _ => rfl
  | _ =>
    cases b with
    | malformed n => rfl
    | _ => first | rfl | exact absurd rfl h

/-- A record has what its fields have, and the other values have it by themselves. -/
theorem fieldInduction {motive : Value → Prop} (leaf : ∀ v, v.kind ≠ .record → motive v)
    (record : ∀ vs, (∀ v ∈ vs, motive v) → motive (record vs)) (v : Value) : motive v := by
  cases v with
  | record vs => exact record vs fun v _ => fieldInduction leaf record v
  | malformed m => exact leaf _ (by cases m <;> exact nofun)
  | _ => exact leaf _ nofun
termination_by sizeOf v
decreasing_by
  rename_i hmem
  have := List.sizeOf_lt_of_mem hmem
  simp
  omega

/-- A value that the order has no place for: not a number, a point in time with a reading of the
clock, or a record with such a value inside. -/
inductive Adrift : Value → Prop where
  | float {x : Double} (h : x.isNaN = true) : Adrift (float x)
  | double {x : Double} (h : x.isNaN = true) : Adrift (double x)
  | timestamp {t : Instant} (h : t.reading ≠ none) : Adrift (timestamp t)
  | field {v : Value} {vs : List Value} (hmem : v ∈ vs) (h : Adrift v) : Adrift (record vs)

mutual

/-- What counts among values of a kind. -/
def content : Value → List Int
  | boolean b => [b.toNat]
  | int i | bigint i => [i.toInt]
  | float x | double x => [x.rank]
  | string t => t.key
  | timestamp t => [t.seconds.toInt, t.nanos]
  | timespan s => [s.nanos.toInt]
  | record vs => fieldsKey vs
  | null | malformed _ => []

/-- Each key behind a one, and a zero at the end. -/
def fieldsKey : List Value → List Int
  | [] => [0]
  | v :: vs => 1 :: v.kind.code :: (v.content ++ fieldsKey vs)

end

/-- The kind and the content. -/
def key (v : Value) : List Int := v.kind.code :: v.content

theorem fieldsKey_cons (v : Value) (vs : List Value) :
    fieldsKey (v :: vs) = 1 :: (v.key ++ fieldsKey vs) := rfl

/-- Where the contents of two values of a kind are ordered as the values, so are the keys. -/
theorem key_order_of_content (h : a.compare? b = some o)
    (hcontent : a.kind = b.kind → KeyOrder o a.content b.content) : KeyOrder o a.key b.key := by
  by_cases hkind : a.kind = b.kind
  · rw [key, key, hkind]
    exact (hcontent hkind).cons_self
  · rw [compare?_of_kind_ne hkind] at h
    cases h
    rw [compareKinds_eq]
    exact .of_ne fun he => hkind (Kind.code_inj (Int.ofNat_inj.mp he))

theorem fieldsKey_order {as bs : List Value} (h : compareAll? as bs = some o)
    (hkeys : ∀ a ∈ as, ∀ b ∈ bs, ∀ p, a.compare? b = some p → KeyOrder p a.key b.key) :
    KeyOrder o (fieldsKey as) (fieldsKey bs) := by
  induction as generalizing bs with
  | nil =>
    cases bs with
    | nil =>
      cases h
      exact .singleton 0 0
    | cons b bs =>
      cases h
      exact .of_ne (x := 0) (y := 1) (by decide)
  | cons a as ih =>
    cases bs with
    | nil =>
      cases h
      exact .of_ne (x := 1) (y := 0) (by decide)
    | cons b bs =>
      rw [fieldsKey_cons, fieldsKey_cons]
      apply KeyOrder.cons_self
      rw [compareAll?] at h
      split at h
      · rename_i hab
        have hfirst := hkeys a (by simp) b (by simp) .eq hab
        have hrest := ih h fun v hv w hw => hkeys v (by simp [hv]) w (by simp [hw])
        exact hfirst.append hrest
      · rename_i hne
        have hfirst := hkeys a (by simp) b (by simp) o h
        apply hfirst.append_of_ne
        intro he
        exact hne (he ▸ h)

/-- By induction on the value: a record is ordered by the keys of its fields. -/
theorem key_order (ha : ¬a.Adrift) (hb : ¬b.Adrift) (h : a.compare? b = some o) :
    KeyOrder o a.key b.key := by
  induction a using fieldInduction generalizing b o with
  | leaf a hleaf =>
    apply key_order_of_content h
    intro hkind
    cases kind_eq_iff.mp hkind with
    | null =>
      cases h
      exact .nil
    | boolean x y =>
      cases h
      rw [compareBool_eq]
      exact .singleton _ _
    | int i j =>
      cases h
      rw [compareInt_eq]
      exact .singleton _ _
    | bigint i j =>
      cases h
      rw [compareInt_eq]
      exact .singleton _ _
    | float x y =>
      cases h
      have hx : x.isNaN = false := Bool.not_eq_true _ ▸ fun he => ha (.float he)
      have hy : y.isNaN = false := Bool.not_eq_true _ ▸ fun he => hb (.float he)
      rw [Double.compare_eq hx hy]
      exact .singleton _ _
    | double x y =>
      cases h
      have hx : x.isNaN = false := Bool.not_eq_true _ ▸ fun he => ha (.double he)
      have hy : y.isNaN = false := Bool.not_eq_true _ ▸ fun he => hb (.double he)
      rw [Double.compare_eq hx hy]
      exact .singleton _ _
    | string s t =>
      cases h
      exact Text.key_order s t
    | timestamp t u =>
      cases h
      have ht : t.reading = none := not_not.mp fun hr => ha (.timestamp hr)
      rw [Instant.compare_of_none (.inl ht), Instant.compareCalendar_eq]
      exact (KeyOrder.singleton _ _).cons
    | timespan s t =>
      cases h
      rw [compareInt_eq]
      exact .singleton _ _
    | record as bs => exact absurd rfl hleaf
    | malformed m => simp [compare?] at h
  | record as ih =>
    apply key_order_of_content h
    intro hkind
    cases kind_eq_iff.mp hkind with
    | record as bs =>
      apply fieldsKey_order h
      intro v hv w hw p hp
      exact ih v hv (fun hn => ha (.field hv hn)) (fun hn => hb (.field hw hn)) hp

theorem exists_compareAll? {as : List Value}
    (h : ∀ a ∈ as, ∀ b, ∃ o, a.compare? b = some o) (bs : List Value) :
    ∃ o, compareAll? as bs = some o := by
  induction as generalizing bs with
  | nil => cases bs <;> exact ⟨_, rfl⟩
  | cons a as ih =>
    cases bs with
    | nil => exact ⟨_, rfl⟩
    | cons b bs =>
      obtain ⟨o, ho⟩ := h a (by simp) b
      rw [compareAll?, ho]
      cases o with
      | eq => exact ih (fun v hv => h v (by simp [hv])) bs
      | _ => exact ⟨_, rfl⟩

theorem exists_compare? (ha : ¬a.Malformed) (b : Value) : ∃ o, a.compare? b = some o := by
  induction a using fieldInduction generalizing b with
  | leaf a hleaf =>
    cases a with
    | record vs => exact absurd rfl hleaf
    | malformed m => exact absurd (.misnamed m) ha
    | _ => cases b <;> exact ⟨_, rfl⟩
  | record vs ih =>
    cases b with
    | record ws => exact exists_compareAll? (fun v hv => ih v hv fun hm => ha (.field hv hm)) ws
    | _ => exact ⟨_, rfl⟩

theorem compare?_eq_key (hwell : ¬a.Malformed) (ha : ¬a.Adrift) (hb : ¬b.Adrift) :
    a.compare? b = some (Ord.compare a.key b.key) := by
  obtain ⟨o, ho⟩ := exists_compare? hwell b
  rw [ho, (key_order ha hb ho).compare_eq]

theorem compare?_swap_of_placed (hwell : ¬b.Malformed) (ha : ¬a.Adrift) (hb : ¬b.Adrift)
    (h : a.compare? b = some o) : b.compare? a = some o.swap := by
  rw [compare?_eq_key hwell hb ha, ← (key_order ha hb h).compare_eq]
  exact congrArg some Std.OrientedCmp.eq_swap

theorem compareAll?_swap {as bs : List Value} (h : compareAll? as bs = some o)
    (hswap : ∀ a ∈ as, ∀ b p, a.compare? b = some p → b.compare? a = some p.swap) :
    compareAll? bs as = some o.swap := by
  induction as generalizing bs with
  | nil =>
    cases bs <;> cases h <;> rfl
  | cons a as ih =>
    cases bs with
    | nil =>
      cases h
      rfl
    | cons b bs =>
      rw [compareAll?] at h
      rw [compareAll?]
      split at h
      · rename_i hab
        rw [hswap a (by simp) b .eq hab]
        exact ih h fun v hv => hswap v (by simp [hv])
      · rename_i hne
        rw [hswap a (by simp) b o h]
        cases o with
        | eq => exact absurd h hne
        | _ => rfl

/-- From the other side the order is the opposite one, also where there is no place in it. -/
theorem compare?_swap (h : a.compare? b = some o) : b.compare? a = some o.swap := by
  induction a using fieldInduction generalizing b o with
  | leaf a hleaf =>
    by_cases hkind : a.kind = b.kind
    · cases kind_eq_iff.mp hkind with
      | float x y =>
        cases h
        exact congrArg some (Double.compare_swap x y)
      | double x y =>
        cases h
        exact congrArg some (Double.compare_swap x y)
      | timestamp t u =>
        cases h
        exact congrArg some (Instant.compare_swap t u)
      | record as bs => exact absurd rfl hleaf
      | malformed m => simp [compare?] at h
      | _ =>
        apply compare?_swap_of_placed _ _ _ h
        · intro hm
          cases hm
        · intro hn
          cases hn
        · intro hn
          cases hn
    · rw [compare?_of_kind_ne hkind] at h
      cases h
      rw [compare?_of_kind_ne (Ne.symm hkind), compareKinds_eq, compareKinds_eq]
      exact congrArg some Std.OrientedCmp.eq_swap
  | record as ih =>
    cases b with
    | record bs => exact compareAll?_swap h fun v hv w p hp => ih v hv hp
    | malformed m =>
      cases h
      cases m <;> rfl
    | _ =>
      cases h
      rfl

theorem compare?_self (h : ¬a.Malformed) : a.compare? a = some .eq := by
  obtain ⟨o, ho⟩ := exists_compare? h a
  have hback := compare?_swap ho
  rw [ho] at hback
  cases o with
  | eq => exact ho
  | _ => cases hback

/-- A value that has a place in the order. -/
structure Placed (v : Value) : Prop where
  wellFormed : ¬v.Malformed
  fixed : ¬v.Adrift

/-- The first value stands before the second or beside it. -/
def AtMost (a b : Value) : Prop := ∃ o, a.compare? b = some o ∧ o.isLE = true

theorem Placed.compare? (ha : a.Placed) (hb : b.Placed) :
    a.compare? b = some (Ord.compare a.key b.key) :=
  compare?_eq_key ha.wellFormed ha.fixed hb.fixed

theorem Placed.atMost_iff (ha : a.Placed) (hb : b.Placed) :
    a.AtMost b ↔ (Ord.compare a.key b.key).isLE = true := by
  simp [AtMost, ha.compare? hb]

/-- The order of values is a total preorder. Any two values that are not malformed, at no depth,
are ordered, from the other side in the opposite way, and each is beside itself. Among those that
hold neither a NaN nor a point in time with a reading of the clock, the order is transitive, and two
values that stand beside each other are ordered alike against every third one. -/
theorem compare?_totalPreorder :
    (∀ a b : Value, ¬a.Malformed → ¬b.Malformed →
      ∃ o, a.compare? b = some o ∧ b.compare? a = some o.swap) ∧
    (∀ a : Value, ¬a.Malformed → a.compare? a = some .eq) ∧
    ∀ a b c : Value, a.Placed → b.Placed → c.Placed →
      (a.AtMost b → b.AtMost c → a.AtMost c) ∧
      (a.compare? b = some .eq → a.compare? c = b.compare? c ∧ c.compare? a = c.compare? b) := by
  refine ⟨?_, ?_, ?_⟩
  · intro a b ha _
    obtain ⟨o, ho⟩ := exists_compare? ha b
    exact ⟨o, ho, compare?_swap ho⟩
  · intro a ha
    exact compare?_self ha
  · intro a b c ha hb hc
    constructor
    · rw [ha.atMost_iff hb, hb.atMost_iff hc, ha.atMost_iff hc]
      exact Std.TransCmp.isLE_trans
    · rw [ha.compare? hb, ha.compare? hc, hb.compare? hc, hc.compare? ha, hc.compare? hb]
      intro h
      have hbeside : Ord.compare a.key b.key = .eq := Option.some.inj h
      exact ⟨congrArg some (Std.TransCmp.congr_left hbeside),
        congrArg some (Std.TransCmp.congr_right hbeside)⟩

theorem Placed.record {vs : List Value} (h : ∀ v ∈ vs, v.Placed) : (record vs).Placed := by
  constructor
  · intro hm
    cases hm with
    | field hmem hm => exact (h _ hmem).wellFormed hm
  · intro hn
    cases hn with
    | field hmem hn => exact (h _ hmem).fixed hn

/-- A point in time as it is shown in a zone, a null and a record. -/
def noted (offset : Int64) (inner : List Value) : Value :=
  record [timestamp (Instant.ofUnix 0 0 offset), null, record inner]

theorem noted_placed (offset : Int64) {inner : List Value} (h : ∀ v ∈ inner, v.Placed) :
    (noted offset inner).Placed := by
  apply Placed.record
  simp only [List.forall_mem_cons, List.not_mem_nil, false_imp_iff, implies_true, and_true]
  refine ⟨⟨?_, ?_⟩, ⟨?_, ?_⟩, .record h⟩
  case refine_2 =>
    intro hbad
    cases hbad with
    | timestamp hr => exact hr rfl
  all_goals
    intro hbad
    cases hbad

/-- One moment in two zones, a longer record after both, and a NaN that stands beside itself. -/
theorem compare?_totalPreorder_nested :
    (∃ o, (double Double.nan).compare? (noted 0 []) = some o ∧
      (noted 0 []).compare? (double Double.nan) = some o.swap) ∧
    (double Double.nan).compare? (double Double.nan) = some .eq ∧
    (noted 0 []).compare? (noted 3600 []) = some .eq ∧
    (noted 0 []).AtMost (noted 3600 []) ∧ (noted 3600 []).AtMost (noted 0 [null]) ∧
    (noted 0 []).AtMost (noted 0 [null]) ∧
    (noted 0 []).compare? (noted 0 [null]) = (noted 3600 []).compare? (noted 0 [null]) := by
  obtain ⟨htotal, hself, horder⟩ := compare?_totalPreorder
  have hnan : ¬(double Double.nan).Malformed := by
    intro hm
    cases hm
  have hnull : null.Placed := by
    constructor
    all_goals
      intro hbad
      cases hbad
  have hhere : (noted 0 []).Placed := noted_placed 0 (by simp)
  have hthere : (noted 3600 []).Placed := noted_placed 3600 (by simp)
  have hlonger : (noted 0 [null]).Placed := noted_placed 0 (by simp [hnull])
  have hbeside : (noted 0 []).compare? (noted 3600 []) = some .eq := rfl
  have hfirst : (noted 0 []).AtMost (noted 3600 []) := ⟨.eq, hbeside, rfl⟩
  have hsecond : (noted 3600 []).AtMost (noted 0 [null]) := ⟨.lt, rfl, rfl⟩
  obtain ⟨htrans, halike⟩ := horder _ _ _ hhere hthere hlonger
  exact ⟨htotal _ _ hnan hhere.wellFormed, hself _ hnan, hbeside, hfirst, hsecond,
    htrans hfirst hsecond, (halike hbeside).1⟩

/-- A point in time of a day, with what the clock showed if it was read. -/
def clocked (seconds : Int64) (reading : Option Int64) : Value :=
  timestamp ⟨seconds, 0, 0, reading⟩

/-- At ten the clock is read, set back by an hour and read again a second later. The second reading
comes after the first and is before half past nine, which is before ten. -/
theorem clock_set_back :
    (clocked 36000 (some 0)).compare? (clocked 32401 (some 1000000000)) = some .lt ∧
      (clocked 32401 (some 1000000000)).compare? (clocked 34200 none) = some .lt ∧
      (clocked 36000 (some 0)).compare? (clocked 34200 none) = some .gt :=
  ⟨rfl, rfl, rfl⟩

end Value

end TypedStream
