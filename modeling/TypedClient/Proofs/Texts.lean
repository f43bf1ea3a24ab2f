import Mathlib.Algebra.Group.Nat.Defs
import TypedClient.Value.Display

/-!
# Values without a text

A number has a text if it is less than a power of ten (`hasNumeral_iff`), and a value that is no
moment has one if all numbers that it holds have (`isInspected_iff`).
-/

namespace TypedClient.Value

theorem hasNumeral_iff {i : Int} : hasNumeral i = true ↔ i.natAbs < 10 ^ Text.numeralLimit := by
  rw [hasNumeral, decide_eq_true_eq, Nat.length_toDigits_le_iff (by decide) (by decide)]

/-- The second value is the first one or stands in it, as an item, a key or the value of a key. -/
inductive Holds : Value → Value → Prop
  | self (v : Value) : Holds v v
  | item {items : List Value} {v w : Value} : v ∈ items → Holds v w → Holds (.list items) w
  | key {entries : List (Value × Value)} {e : Value × Value} {w : Value} : e ∈ entries →
    Holds e.1 w → Holds (.map entries) w
  | value {entries : List (Value × Value)} {e : Value × Value} {w : Value} : e ∈ entries →
    Holds e.2 w → Holds (.map entries) w

theorem areInspected_eq_all : ∀ vs : List Value, areInspected vs = vs.all isInspected
  | [] => rfl
  | v :: vs => by rw [areInspected, List.all_cons, areInspected_eq_all vs]

theorem entriesInspected_eq_all : ∀ es : List (Value × Value),
    entriesInspected es = es.all fun e => e.1.isInspected && e.2.isInspected
  | [] => rfl
  | (k, v) :: es => by rw [entriesInspected, List.all_cons, entriesInspected_eq_all es]

theorem sizeOf_item_lt {items : List Value} {v : Value} (h : v ∈ items) :
    sizeOf v < sizeOf (Value.list items) := by
  have := List.sizeOf_lt_of_mem h
  rw [Value.list.sizeOf_spec]
  omega

theorem sizeOf_key_lt {entries : List (Value × Value)} {e : Value × Value} (h : e ∈ entries) :
    sizeOf e.1 < sizeOf (Value.map entries) := by
  have hmem := List.sizeOf_lt_of_mem h
  obtain ⟨k, v⟩ := e
  rw [Prod.mk.sizeOf_spec] at hmem
  rw [Value.map.sizeOf_spec]
  show sizeOf k < _
  omega

/-- A value is written with its structure if all numbers in it are written. -/
theorem isInspected_iff (v : Value) :
    v.isInspected = true ↔ ∀ i, v.Holds (.int i) → hasNumeral i = true := by
  cases v with
  | int i =>
    refine ⟨fun h j hj => ?_, fun h => h i (.self _)⟩
    cases hj
    exact h
  | list items =>
    rw [isInspected, areInspected_eq_all, List.all_eq_true]
    constructor
    · rintro h i (_ | ⟨hv, hi⟩)
      exact (isInspected_iff _).1 (h _ hv) i hi
    · exact fun h v hv => (isInspected_iff v).2 fun i hi => h i (.item hv hi)
  | map entries =>
    simp only [isInspected, entriesInspected_eq_all, List.all_eq_true, Bool.and_eq_true]
    constructor
    · rintro h i (_ | _ | ⟨he, hi⟩ | ⟨he, hi⟩)
      · exact (isInspected_iff _).1 (h _ he).1 i hi
      · exact (isInspected_iff _).1 (h _ he).2 i hi
    · exact fun h e he => ⟨(isInspected_iff e.1).2 fun i hi => h i (.key he hi),
        (isInspected_iff e.2).2 fun i hi => h i (.value he hi)⟩
  | _ => exact iff_of_true rfl fun i hi => by cases hi
termination_by sizeOf v
decreasing_by
  · exact sizeOf_item_lt hv
  · exact sizeOf_item_lt hv
  · exact sizeOf_key_lt he
  · exact sizeOf_lt_of_mem he
  · exact sizeOf_key_lt he
  · exact sizeOf_lt_of_mem he

/-- A power of ten. -/
def power (n : Nat) : Value :=
  .int (10 ^ n : Nat)

theorem hasText_power {n : Nat} : (power n).hasText = true ↔ n < Text.numeralLimit := by
  have htext : (power n).hasText = hasNumeral ((10 ^ n : Nat) : Int) := rfl
  rw [htext, hasNumeral_iff, Int.natAbs_natCast, Nat.pow_lt_pow_iff_right (by decide)]

/-- The least number without a text. -/
def oversized : Value :=
  power Text.numeralLimit

theorem hasText_oversized : oversized.hasText = false :=
  Bool.eq_false_iff.2 fun h => Nat.lt_irrefl _ (hasText_power.1 h)

end TypedClient.Value
