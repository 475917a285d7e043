import TensorProgram.Proofs.LoopRange

/-!
Folding. A folded difference or sum is there to stand for the node that it saves: it is to have the
type of that node and its value, whatever the leaves stand for. Literals are folded unless no word
holds the exact result. All differences keep the type, and so do all sums but one kind: a literal
zero in front of something that is no literal is dropped with its type.
-/

namespace TensorProgram

namespace Expr

/-- The expressions have one type, and one value whatever integers their leaves stand for. -/
structure Interchangeable (e e' : Expr) : Prop where
  dtype : e.dtype = e'.dtype
  denote : ∀ ρ, e.denote ρ = e'.denote ρ

/-- If the operands are literals, a word holds the exact result. -/
def Exact (op : BinOp) (a b : Expr) : Prop :=
  ∀ x y, a.asInt? = some x → b.asInt? = some y →
    Int64.minValue.toInt ≤ op.denote x.toInt y.toInt ∧
      op.denote x.toInt y.toInt ≤ Int64.maxValue.toInt

/-- The sum of the two drops a zero that is of another type than the rest. -/
def DropsType (a b : Expr) : Prop :=
  a.asInt? = some 0 ∧ b.asInt? = none ∧ b.dtype ≠ a.dtype

end Expr

theorem word?_of_mem {n : Int} (h : Int64.minValue.toInt ≤ n ∧ n ≤ Int64.maxValue.toInt) :
    word? n = some (Int64.ofInt n) := if_pos h

theorem addExact_eq_error {a b : Int64} {o : Overflow} (h : addExact a b = .error o) :
    word? (a.toInt + b.toInt) = none := by
  rw [addExact] at h
  cases hw : word? (a.toInt + b.toInt) with
  | some w => simp [hw] at h
  | none => rfl

namespace Expr

variable {a b e : Expr}

/-- Only two literals can have a sum that does not fold. -/
theorem addFolded_eq_error {o : Overflow} (h : a.addFolded b = .error o) :
    ∃ x y, a.asInt? = some x ∧ b.asInt? = some y ∧ addExact x y = .error o := by
  simp only [addFolded] at h
  split at h
  · rename_i x d y d'
    refine ⟨x, y, rfl, rfl, ?_⟩
    cases hs : addExact x y with
    | error o' => simpa [hs] using h
    | ok z => simp [hs] at h
  · simp at h
  · simp at h
  · simp at h

theorem exists_subFolded (h : Exact .sub a b) : ∃ e, a.subFolded b = .ok e := by
  cases hf : a.subFolded b with
  | ok e => exact ⟨e, rfl⟩
  | error o =>
      obtain ⟨x, y, hx, hy, hs⟩ := subFolded_eq_error hf
      have hw := word?_of_mem (h x y hx hy)
      simp only [BinOp.denote, (subExact_eq_error hs).2] at hw
      cases hw

theorem exists_addFolded (h : Exact .add a b) : ∃ e, a.addFolded b = .ok e := by
  cases hf : a.addFolded b with
  | ok e => exact ⟨e, rfl⟩
  | error o =>
      obtain ⟨x, y, hx, hy, hs⟩ := addFolded_eq_error hf
      have hw := word?_of_mem (h x y hx hy)
      simp only [BinOp.denote, addExact_eq_error hs] at hw
      cases hw

/-- A sum is folded to a literal, to one of its terms beside a zero, or not at all. -/
theorem addFolded_eq_ok (h : a.addFolded b = .ok e) :
    (∃ x y z d, a = .int x d ∧ b.asInt? = some y ∧ addExact x y = .ok z ∧ e = .int z d) ∨
    (a.asInt? = some 0 ∧ b.asInt? = none ∧ e = b) ∨
    (a.asInt? = none ∧ b.asInt? = some 0 ∧ e = a) ∨
    (¬(a.asInt? = some 0 ∧ b.asInt? = none) ∧ e = .binary .add a b) := by
  cases hx : a.asInt? with
  | some x =>
      obtain ⟨d, rfl⟩ := asInt?_eq_some.1 hx
      cases hy : b.asInt? with
      | some y =>
          obtain ⟨d', rfl⟩ := asInt?_eq_some.1 hy
          obtain ⟨z, hz, rfl⟩ := addFolded_literals.1 h
          exact .inl ⟨x, y, z, d, rfl, rfl, hz, rfl⟩
      | none =>
          have hf : addFolded (.int x d) b =
              .ok (if x = 0 then b else .binary .add (.int x d) b) := by
            cases b with
            | int y d' => cases hy
            | _ => rfl
          cases hf.symm.trans h
          by_cases h0 : x = 0
          · exact .inr (.inl ⟨congrArg some h0, rfl, if_pos h0⟩)
          · exact .inr (.inr (.inr ⟨fun hn => h0 (Option.some.inj hn.1), if_neg h0⟩))
  | none =>
      cases hy : b.asInt? with
      | some y =>
          obtain ⟨d', rfl⟩ := asInt?_eq_some.1 hy
          have hf : addFolded a (.int y d') =
              .ok (if y = 0 then a else .binary .add a (.int y d')) := by
            cases a with
            | int x d => cases hx
            | _ => rfl
          cases hf.symm.trans h
          by_cases h0 : y = 0
          · exact .inr (.inr (.inl ⟨rfl, congrArg some h0, if_pos h0⟩))
          · exact .inr (.inr (.inr ⟨by simp, if_neg h0⟩))
      | none =>
          have hf : addFolded a b = .ok (.binary .add a b) := by
            cases a with
            | int x d => cases hx
            | _ =>
                cases b with
                | int y d' => cases hy
                | _ => rfl
          cases hf.symm.trans h
          exact .inr (.inr (.inr ⟨by simp, rfl⟩))

theorem denote_of_asInt? {ρ : Expr → Int} {x : Int64} (h : a.asInt? = some x) :
    a.denote ρ = x.toInt := by
  obtain ⟨d, rfl⟩ := asInt?_eq_some.1 h
  rw [denote]

/-- Folding does not change the sum. -/
theorem denote_addFolded {ρ : Expr → Int} (h : a.addFolded b = .ok e) :
    e.denote ρ = a.denote ρ + b.denote ρ := by
  have zero : (0 : Int64).toInt = 0 := rfl
  obtain ⟨x, y, z, d, rfl, hy, hz, rfl⟩ | ⟨ha, -, rfl⟩ | ⟨-, hb, rfl⟩ | ⟨-, rfl⟩ :=
    addFolded_eq_ok h
  · rw [denote_of_asInt? hy, denote, denote]
    exact addExact_eq_ok_iff.1 hz
  · rw [denote_of_asInt? ha, zero, Int.zero_add]
  · rw [denote_of_asInt? hb, zero, Int.add_zero]
  · rw [denote, BinOp.denote]

/-- A sum has the type of its first term, or of the second one if the first is dropped. -/
theorem dtype_addFolded (h : a.addFolded b = .ok e) :
    e.dtype = if a.asInt? = some 0 ∧ b.asInt? = none then b.dtype else a.dtype := by
  obtain ⟨x, y, z, d, rfl, hy, -, rfl⟩ | ⟨ha, hb, rfl⟩ | ⟨ha, -, rfl⟩ | ⟨hn, rfl⟩ :=
    addFolded_eq_ok h
  · simp [hy, dtype]
  · rw [if_pos ⟨ha, hb⟩]
  · simp [ha]
  · rw [if_neg hn, dtype]
    rfl

/-- Every difference that is folded can stand for its node, and every sum but one that drops a
zero with its type. Such a sum has the value of its node, and is what comes after the zero. -/
theorem folded_interchangeable (a b : Expr) :
    (Exact .sub a b → ∃ e, a.subFolded b = .ok e ∧ e.Interchangeable (.binary .sub a b)) ∧
    (Exact .add a b → ∃ e, a.addFolded b = .ok e ∧
      (¬DropsType a b → e.Interchangeable (.binary .add a b)) ∧
      (DropsType a b → e = b ∧ ¬e.Interchangeable (.binary .add a b) ∧
        ∀ ρ, e.denote ρ = (binary .add a b).denote ρ)) := by
  refine ⟨fun h => ?_, fun h => ?_⟩
  · obtain ⟨e, he⟩ := exists_subFolded h
    refine ⟨e, he, (dtype_subFolded he).trans rfl, fun ρ => ?_⟩
    rw [denote_subFolded he, denote, BinOp.denote]
  · obtain ⟨e, he⟩ := exists_addFolded h
    have value (ρ : Expr → Int) : e.denote ρ = (binary .add a b).denote ρ := by
      rw [denote_addFolded he, denote, BinOp.denote]
    have type := dtype_addFolded he
    refine ⟨e, he, fun hn => ⟨?_, value⟩, fun hd => ⟨?_, ?_, value⟩⟩
    · change e.dtype = a.dtype
      rw [type]
      split
      · rename_i hz
        by_contra hne
        exact hn ⟨hz.1, hz.2, hne⟩
      · rfl
    · obtain ⟨ha, hb, -⟩ := hd
      obtain ⟨_, y, _, _, -, hy, -⟩ | ⟨-, -, he⟩ | ⟨ha', -⟩ | ⟨hn, -⟩ := addFolded_eq_ok he
      · rw [hb] at hy
        cases hy
      · exact he
      · rw [ha] at ha'
        cases ha'
      · exact absurd ⟨ha, hb⟩ hn
    · intro hi
      have hi : e.dtype = a.dtype := hi.dtype
      rw [type, if_pos ⟨hd.1, hd.2.1⟩] at hi
      exact hd.2.2 hi

/-- Literals of two types, a zero behind a variable of another type, and one in front of it. -/
theorem folded_interchangeable_mixed :
    let x : Expr := .var ⟨0, "x", .int 64, none⟩
    (Exact .sub (.int64 7) (.int32 9) ∧ ∃ e, (int64 7).subFolded (.int32 9) = .ok e ∧
      e.Interchangeable (.binary .sub (.int64 7) (.int32 9))) ∧
    (Exact .add x (.int32 0) ∧ ¬DropsType x (.int32 0) ∧ ∃ e, x.addFolded (.int32 0) = .ok e ∧
      e.Interchangeable (.binary .add x (.int32 0))) ∧
    (Exact .add (.int32 0) x ∧ DropsType (.int32 0) x ∧ ∃ e, (int32 0).addFolded x = .ok e ∧
      e = x ∧ ¬e.Interchangeable (.binary .add (.int32 0) x)) := by
  intro x
  have literals : Exact .sub (.int64 7) (.int32 9) := by
    rintro _ _ ⟨⟩ ⟨⟩
    decide
  have behind : Exact .add x (.int32 0) := by
    rintro _ _ ⟨⟩
  have front : Exact .add (.int32 0) x := by
    rintro _ _ - ⟨⟩
  have keeps : ¬DropsType x (.int32 0) := by
    rintro ⟨⟨⟩, -⟩
  have drops : DropsType (.int32 0) x := ⟨rfl, rfl, by decide⟩
  refine ⟨⟨literals, (folded_interchangeable _ _).1 literals⟩, ⟨behind, keeps, ?_⟩,
    ⟨front, drops, ?_⟩⟩
  · obtain ⟨e, he, hi, -⟩ := (folded_interchangeable x (.int32 0)).2 behind
    exact ⟨e, he, hi keeps⟩
  · obtain ⟨e, he, -, hd⟩ := (folded_interchangeable (.int32 0) x).2 front
    exact ⟨e, he, (hd drops).1, (hd drops).2.1⟩

/-- A zero in front of a variable of another type is dropped with its type, whereas the first of
two literals, and a variable in front of a zero, keep theirs. -/
theorem dropped_zero_changes_type :
    let x : Expr := .var ⟨0, "x", .int 64, none⟩
    Exact .add (.int32 0) x ∧ (int32 0).addFolded x = .ok x ∧
      x.dtype = .int 64 ∧ (binary .add (.int32 0) x).dtype = .int 32 ∧
      ¬x.Interchangeable (.binary .add (.int32 0) x) ∧
      (int32 0).addFolded (.int64 5) = .ok (.int32 5) ∧
      x.addFolded (.int32 0) = .ok x ∧ (binary .add x (.int32 0)).dtype = .int 64 := by
  intro x
  have front : Exact .add (.int32 0) x := by
    rintro _ _ - ⟨⟩
  refine ⟨front, rfl, rfl, rfl, fun h => ?_, rfl, rfl, rfl⟩
  exact absurd h.dtype (by decide)

end Expr

end TensorProgram
