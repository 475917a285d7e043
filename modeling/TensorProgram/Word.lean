/-!
Exact arithmetic on 64-bit signed words: a result that no word can hold is
refused instead of wrapped.
-/

namespace TensorProgram

/-- The operation whose exact result no 64-bit word holds. -/
inductive Overflow where
  | add
  | subtract
  deriving DecidableEq, Repr

def Overflow.message : Overflow → String
  | .add => "attempt to add with overflow"
  | .subtract => "attempt to subtract with overflow"

/-- The word that denotes `n`, if there is one. -/
def word? (n : Int) : Option Int64 :=
  if Int64.minValue.toInt ≤ n ∧ n ≤ Int64.maxValue.toInt then some (Int64.ofInt n) else none

theorem word?_toInt (w : Int64) : word? w.toInt = some w := by
  have := Int64.minValue_le_toInt w
  have := Int64.toInt_le w
  simp_all [word?, Int64.ofInt_toInt]

theorem word?_eq_some_iff {n : Int} {w : Int64} : word? n = some w ↔ w.toInt = n := by
  constructor
  · intro h
    unfold word? at h
    split at h
    · rename_i hn
      obtain rfl := Option.some.inj h
      have hi : Int64.maxValue.toInt = 2 ^ 63 - 1 := by decide
      exact Int64.toInt_ofInt_of_le hn.1 (by have := hn.2; omega)
    · cases h
  · rintro rfl
    exact word?_toInt w

/-- The exact sum. -/
def addExact (a b : Int64) : Except Overflow Int64 :=
  match word? (a.toInt + b.toInt) with
  | some w => .ok w
  | none => .error .add

/-- The exact difference. -/
def subExact (a b : Int64) : Except Overflow Int64 :=
  match word? (a.toInt - b.toInt) with
  | some w => .ok w
  | none => .error .subtract

/-- The exact product. -/
def mulExact? (a b : Int64) : Option Int64 :=
  word? (a.toInt * b.toInt)

theorem addExact_eq_ok_iff {a b c : Int64} :
    addExact a b = .ok c ↔ c.toInt = a.toInt + b.toInt := by
  rw [← word?_eq_some_iff, addExact]
  cases word? (a.toInt + b.toInt) <;> simp

theorem subExact_eq_ok_iff {a b c : Int64} :
    subExact a b = .ok c ↔ c.toInt = a.toInt - b.toInt := by
  rw [← word?_eq_some_iff, subExact]
  cases word? (a.toInt - b.toInt) <;> simp

theorem mulExact?_eq_some_iff {a b c : Int64} :
    mulExact? a b = some c ↔ c.toInt = a.toInt * b.toInt :=
  word?_eq_some_iff

end TensorProgram
