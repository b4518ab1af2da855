import Mathlib.Algebra.Group.Int.Defs
import Mathlib.Data.List.Forall2
import NostdbServer.Protocol.Wire

/-!
# Integer parameters

What becomes of the integers in the parameters of a query. A JSON integer is
held as an `i64` or a `u64`; the engine has the first only, and an integer
beyond it is not refused but converted to a float. A value in which no integer
is that large is passed exactly: writing the converted value gives back the
value itself.
-/

namespace NostdbServer

open Effects

/-- The integer a number stands for. -/
def JsonNumber.integer? : JsonNumber → Option Int
  | .posInt n => some n
  | .negInt i => some i
  | .float _ => none

/-- An integer as `serde_json` holds it. -/
def JsonNumber.Integral : JsonNumber → Prop
  | .posInt n => n < 2 ^ 64
  | .negInt i => -2 ^ 63 ≤ i ∧ i < 0
  | .float _ => False

mutual

/-- Every number of the value satisfies `P`. -/
def Json.Numbers (P : JsonNumber → Prop) : Json → Prop
  | .number n => P n
  | .array values => Json.NumbersOf P values
  | .object fields => Json.NumbersIn P fields
  | .null | .bool _ | .string _ => True

def Json.NumbersOf (P : JsonNumber → Prop) : List Json → Prop
  | [] => True
  | value :: rest => value.Numbers P ∧ Json.NumbersOf P rest

def Json.NumbersIn (P : JsonNumber → Prop) : List (String × Json) → Prop
  | [] => True
  | (_, value) :: rest => value.Numbers P ∧ Json.NumbersIn P rest

end

/-- Every number is an integer from -2^63 to 2^64-1. -/
abbrev Json.Integral (value : Json) : Prop := value.Numbers JsonNumber.Integral

/-- Every number is below 2^63. -/
abbrev Json.Signed (value : Json) : Prop :=
  value.Numbers fun n => ∀ i, n.integer? = some i → i < 2 ^ 63

mutual

/-- The engine's value has the shape of the JSON value, with an integer of the
same value for every number. -/
def Exact : Json → QueryValue → Prop
  | .null, .null => True
  | .bool value, .boolean value' => value = value'
  | .number n, .integer i => n.integer? = some i
  | .string value, .string value' => value = value'
  | .array values, .list values' => ExactAll values values'
  | .object fields, .map fields' => ExactFields fields fields'
  | _, _ => False

def ExactAll : List Json → List QueryValue → Prop
  | [], [] => True
  | value :: rest, value' :: rest' => Exact value value' ∧ ExactAll rest rest'
  | _, _ => False

def ExactFields : List (String × Json) → List (String × QueryValue) → Prop
  | [], [] => True
  | (name, value) :: rest, (name', value') :: rest' =>
    name = name' ∧ Exact value value' ∧ ExactFields rest rest'
  | _, _ => False

end

-- ---------------------------------------------------------------------------
-- Numbers
-- ---------------------------------------------------------------------------

section
variable {n : JsonNumber} {i : Int}

theorem JsonNumber.asI64_some (h : n.asI64 = some i) : n.integer? = some i := by
  cases n with
  | posInt m =>
    simp only [asI64] at h
    split at h
    · exact h
    · cases h
  | negInt j => exact h
  | float bits => cases h

theorem JsonNumber.asI64_isSome (hn : n.Integral) :
    (∃ i, n.asI64 = some i) ↔ ∀ i, n.integer? = some i → i < 2 ^ 63 := by
  cases n with
  | posInt m =>
    by_cases hm : m < 2 ^ 63
    · refine ⟨fun _ i hi => ?_, fun _ => ⟨m, if_pos hm⟩⟩
      cases hi
      omega
    · refine ⟨?_, fun h => absurd (h m rfl) (by omega)⟩
      rintro ⟨i, hi⟩
      cases (if_neg hm).symm.trans hi
  | negInt j =>
    have hj : j < 0 := hn.2
    simp [asI64, integer?]
    omega
  | float bits => exact hn.elim

/-- An integer is written as the number it was read from. -/
theorem Json.int_of_integer? (hn : n.Integral) (h : n.integer? = some i) :
    Json.int i = .number n := by
  cases n with
  | posInt m =>
    cases h
    rfl
  | negInt j =>
    cases h
    cases i with
    | ofNat m => exact absurd hn.2 (by simp)
    | negSucc m => rfl
  | float bits => cases h

end

-- ---------------------------------------------------------------------------
-- Values
-- ---------------------------------------------------------------------------

section
variable {floatOfInt : Int → UInt64}

mutual

/-- What was converted exactly is written as it was. -/
theorem queryValueJson_of_exact {value : Json} {q : QueryValue} (hv : value.Integral)
    (h : Exact value q) : queryValueJson q = value := by
  cases value with
  | null => cases q <;> first | rfl | exact h.elim
  | bool b => cases q <;> first | exact h.elim | (cases h; rfl)
  | number n =>
    cases q with
    | integer i => exact Json.int_of_integer? hv h
    | _ => exact h.elim
  | string s => cases q <;> first | exact h.elim | (cases h; rfl)
  | array values =>
    cases q with
    | list qs => exact congrArg Json.array (queryValuesJson_of_exact hv h)
    | _ => exact h.elim
  | object fields =>
    cases q with
    | map ps => exact congrArg Json.object (propertiesJson_of_exact hv h)
    | _ => exact h.elim

theorem queryValuesJson_of_exact {values : List Json} {qs : List QueryValue}
    (hv : Json.NumbersOf JsonNumber.Integral values) (h : ExactAll values qs) :
    queryValuesJson qs = values := by
  cases values with
  | nil => cases qs <;> first | rfl | exact h.elim
  | cons value rest =>
    cases qs with
    | nil => exact h.elim
    | cons q qs =>
      simp only [queryValuesJson, queryValueJson_of_exact hv.1 h.1,
        queryValuesJson_of_exact hv.2 h.2]

theorem propertiesJson_of_exact {fields : List (String × Json)} {ps : List (String × QueryValue)}
    (hv : Json.NumbersIn JsonNumber.Integral fields) (h : ExactFields fields ps) :
    propertiesJson ps = fields := by
  cases fields with
  | nil => cases ps <;> first | rfl | exact h.elim
  | cons field rest =>
    cases ps with
    | nil => exact h.elim
    | cons p ps =>
      obtain ⟨name, value⟩ := field
      obtain ⟨name', q⟩ := p
      obtain ⟨rfl, hexact, hrest⟩ : name = name' ∧ Exact value q ∧ ExactFields rest ps := h
      simp only [propertiesJson, queryValueJson_of_exact hv.1 hexact,
        propertiesJson_of_exact hv.2 hrest]

end

mutual

/-- Integers are never refused. -/
theorem queryValue_ok {value : Json} (hv : value.Integral) :
    ∃ q, queryValue floatOfInt value = .ok q ∧ (Exact value q ↔ value.Signed) := by
  cases value with
  | null => exact ⟨.null, rfl, Iff.rfl⟩
  | bool b => exact ⟨.boolean b, rfl, by simp [Exact, Json.Signed, Json.Numbers]⟩
  | number n =>
    cases hi : n.asI64 with
    | some i =>
      refine ⟨.integer i, by simp [queryValue, hi], ?_⟩
      exact iff_of_true (JsonNumber.asI64_some hi) ((JsonNumber.asI64_isSome hv).mp ⟨i, hi⟩)
    | none =>
      have hlarge : ¬ Json.Signed (.number n) := fun hs => by
        obtain ⟨i, hsome⟩ := (JsonNumber.asI64_isSome hv).mpr hs
        cases hi.symm.trans hsome
      cases n with
      | posInt m =>
        exact ⟨.float (floatOfInt m), by simp [queryValue, hi, JsonNumber.asF64],
          iff_of_false id hlarge⟩
      | negInt j => cases hi
      | float bits => exact hv.elim
  | string s => exact ⟨.string s, rfl, by simp [Exact, Json.Signed, Json.Numbers]⟩
  | array values =>
    obtain ⟨qs, hqs, hiff⟩ := queryValues_ok hv
    exact ⟨.list qs, by simp [queryValue, hqs, Except.map], hiff⟩
  | object fields =>
    obtain ⟨ps, hps, hiff⟩ := parameters_ok hv
    exact ⟨.map ps, by simp [queryValue, hps, Except.map], hiff⟩

theorem queryValues_ok {values : List Json} (hv : Json.NumbersOf JsonNumber.Integral values) :
    ∃ qs, queryValues floatOfInt values = .ok qs ∧ (ExactAll values qs ↔
      Json.NumbersOf (fun n => ∀ i, n.integer? = some i → i < 2 ^ 63) values) := by
  cases values with
  | nil => exact ⟨[], rfl, Iff.rfl⟩
  | cons value rest =>
    obtain ⟨q, hq, hiff⟩ := queryValue_ok hv.1
    obtain ⟨qs, hqs, hrest⟩ := queryValues_ok hv.2
    exact ⟨q :: qs, by simp [queryValues, hq, hqs, Except.map], and_congr hiff hrest⟩

theorem parameters_ok {fields : List (String × Json)}
    (hv : Json.NumbersIn JsonNumber.Integral fields) :
    ∃ ps, parameters floatOfInt fields = .ok ps ∧ (ExactFields fields ps ↔
      Json.NumbersIn (fun n => ∀ i, n.integer? = some i → i < 2 ^ 63) fields) := by
  cases fields with
  | nil => exact ⟨[], rfl, Iff.rfl⟩
  | cons field rest =>
    obtain ⟨q, hq, hiff⟩ := queryValue_ok hv.1
    obtain ⟨ps, hps, hrest⟩ := parameters_ok hv.2
    refine ⟨(field.1, q) :: ps, by simp [parameters, hq, hps, Except.map], ?_⟩
    exact (and_iff_right rfl).trans (and_congr hiff hrest)

end

/-- Every name is kept, with its own converted value. -/
theorem parameters_kept {fields : List (String × Json)} {ps : List (String × QueryValue)}
    (h : parameters floatOfInt fields = .ok ps) :
    List.Forall₂ (fun field p => p.1 = field.1 ∧ queryValue floatOfInt field.2 = .ok p.2)
      fields ps := by
  induction fields generalizing ps with
  | nil =>
    cases h
    exact .nil
  | cons field rest ih =>
    obtain ⟨name, value⟩ := field
    simp only [parameters] at h
    split at h
    · cases h
    · rename_i q hq
      obtain ⟨qs, hqs, rfl⟩ := map_ok.mp h
      exact .cons ⟨rfl, hq⟩ (ih hqs)

end

/-- A value whose numbers are integers is passed exactly just when all of them fit the
engine's integers, and the parameters of a query are converted one by one. -/
theorem integers_are_passed_exactly_iff (floatOfInt : Int → UInt64) (value : Json)
    (fields : WireParameters) (hv : value.Integral) :
    (((∃ message, queryValue floatOfInt value = .error message) ∨
      ∃ q, queryValue floatOfInt value = .ok q ∧ Exact value q ∧ queryValueJson q = value) ↔
        value.Signed) ∧
    ((∃ message, parameters floatOfInt fields = .error message) ∨
      ∃ ps, parameters floatOfInt fields = .ok ps ∧
        List.Forall₂ (fun field p => p.1 = field.1 ∧ queryValue floatOfInt field.2 = .ok p.2)
          fields ps) := by
  obtain ⟨q, hq, hiff⟩ : ∃ q, queryValue floatOfInt value = .ok q ∧ (Exact value q ↔ value.Signed) :=
    queryValue_ok hv
  refine ⟨⟨?_, fun hs => .inr ⟨q, hq, hiff.mpr hs, queryValueJson_of_exact hv (hiff.mpr hs)⟩⟩, ?_⟩
  · rintro (⟨message, he⟩ | ⟨q', hq', hexact, -⟩)
    · cases hq.symm.trans he
    · cases hq.symm.trans hq'
      exact hiff.mp hexact
  · cases hps : parameters floatOfInt fields with
    | error message => exact .inl ⟨message, rfl⟩
    | ok ps => exact .inr ⟨ps, rfl, parameters_kept hps⟩

/-- The largest `i64` and a negative one, in a list in an object. -/
def nestedIntegers : Json :=
  .object [("a", .array [.nat (2 ^ 63 - 1), .number (.negInt (-1))])]

theorem integers_are_passed_exactly_nested : nestedIntegers.Integral ∧
    ((∃ message, queryValue (fun _ => 0) nestedIntegers = .error message) ∨
      ∃ q, queryValue (fun _ => 0) nestedIntegers = .ok q ∧ Exact nestedIntegers q ∧
        queryValueJson q = nestedIntegers) := by
  have hv : nestedIntegers.Integral := by
    simp [nestedIntegers, Json.Numbers, Json.NumbersIn, Json.NumbersOf, Json.nat,
      JsonNumber.Integral]
  refine ⟨hv, (integers_are_passed_exactly_iff (fun _ => 0) _ [] hv).1.mpr ?_⟩
  simp [nestedIntegers, Json.Numbers, Json.NumbersIn, Json.NumbersOf, Json.nat,
    JsonNumber.integer?]

/-- 2^63 + 1 becomes a float, here the nearest one, which is 2^63. -/
theorem large_integer_becomes_a_float : (Json.nat (2 ^ 63 + 1)).Integral ∧
    ∃ q, queryValue (fun _ => 0x43e0000000000000) (.nat (2 ^ 63 + 1)) = .ok q ∧
      q = .float 0x43e0000000000000 ∧ ¬ Exact (.nat (2 ^ 63 + 1)) q ∧
      queryValueJson q ≠ .nat (2 ^ 63 + 1) := by
  refine ⟨by simp [Json.nat, Json.Numbers, JsonNumber.Integral], _, rfl, rfl, id, ?_⟩
  rw [queryValueJson, Json.float, if_neg (by decide)]
  simp [Json.nat]

end NostdbServer
