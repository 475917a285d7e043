import TensorProgram.Proofs.Contents
import TensorProgram.Proofs.Transaction

/-!
Sequences. Statements that are put one after the other lose nothing and stay in order, and what
comes out is no sequence in a sequence, if none went in. It does not matter how they are grouped,
as long as no group is empty: the statement that does nothing would stay where it was put for an
empty one. So the statements delivered where no scope is open come to one sequence of them all.
-/

namespace TensorProgram

namespace Stmt

/-- No sequence of the list has a sequence among its members. -/
def OneLevel (xs : List Stmt) : Prop :=
  ∀ ss, .seq ss ∈ xs → ∀ c ∈ ss, ∀ cs, c ≠ .seq cs

/-- A sequence has members to put in order, none of which is a sequence. -/
def Proper (s : Stmt) : Prop :=
  ∀ ss, s = .seq ss → 2 ≤ ss.length ∧ ∀ c ∈ ss, ∀ cs, c ≠ .seq cs

variable {s : Stmt} {xs ys : List Stmt}

theorem OneLevel.append (hx : OneLevel xs) (hy : OneLevel ys) : OneLevel (xs ++ ys) := by
  intro ss h
  obtain h | h := List.mem_append.1 h
  · exact hx ss h
  · exact hy ss h

theorem OneLevel.of_append (h : OneLevel (xs ++ ys)) : OneLevel xs ∧ OneLevel ys :=
  ⟨fun ss hs => h ss (List.mem_append_left ys hs), fun ss hs => h ss (List.mem_append_right xs hs)⟩

theorem members_of_ne_seq (h : ∀ cs, s ≠ .seq cs) : s.members = [s] := by
  cases s with
  | seq cs => exact absurd rfl (h cs)
  | block _ _ _ _ | branch _ _ _ | under _ _ | leaf _ => rfl

theorem ne_seq_of_members (h : s.members = [s]) (cs : List Stmt) : s ≠ .seq cs := by
  rintro rfl
  have hs := congrArg sizeOf (show cs = [.seq cs] from h)
  simp only [List.cons.sizeOf_spec, List.nil.sizeOf_spec, seq.sizeOf_spec] at hs
  omega

theorem OneLevel.flat (h : OneLevel xs) : Flat (xs.flatMap members) := by
  intro c hc
  obtain ⟨s, hs, hc⟩ := List.mem_flatMap.1 hc
  cases s with
  | seq ss => exact members_of_ne_seq (h ss hs c hc)
  | block _ _ _ _ | branch _ _ _ | under _ _ | leaf _ =>
      obtain rfl := List.mem_singleton.1 hc
      rfl

theorem proper_sequence (h : OneLevel xs) : (sequence xs).Proper := by
  have hf := h.flat
  intro ss hs
  rw [sequence] at hs
  split at hs
  · cases hs
  · rename_i s he
    rw [he] at hf
    exact absurd hs (ne_seq_of_members (hf s List.mem_cons_self) ss)
  · rename_i s t r he
    cases hs
    rw [he] at hf
    exact ⟨by simp, fun c hc => ne_seq_of_members (hf c hc)⟩

theorem sequence_of_nil (h : xs.flatMap members = []) : sequence xs = noOp := by
  rw [sequence, h]

/-- A proper statement is the sequence of itself alone. -/
theorem Proper.sequence_eq (h : s.Proper) : sequence [s] = s := by
  rw [sequence, List.flatMap_singleton]
  cases s with
  | seq ss =>
      have hl := (h ss rfl).1
      cases ss with
      | nil => simp at hl
      | cons s ss =>
          cases ss with
          | nil => simp at hl
          | cons t ss => rfl
  | block _ _ _ _ | branch _ _ _ | under _ _ | leaf _ => rfl

/-- A group of statements can be put in order first. -/
theorem sequence_cons_sequence (hx : OneLevel xs) (hn : xs.flatMap members ≠ []) (ys : List Stmt) :
    sequence (sequence xs :: ys) = sequence (xs ++ ys) := by
  apply sequence_congr
  rw [List.flatMap_cons, members_sequence_of_flat hx.flat hn, List.flatMap_append]

theorem sequence_pair (hx : OneLevel xs) (hxn : xs.flatMap members ≠ [])
    (hy : OneLevel ys) (hyn : ys.flatMap members ≠ []) :
    sequence [sequence xs, sequence ys] = sequence (xs ++ ys) := by
  rw [sequence_cons_sequence hx hxn]
  apply sequence_congr
  rw [List.flatMap_append, List.flatMap_append, List.flatMap_singleton,
    members_sequence_of_flat hy.flat hyn]

end Stmt

namespace Builder

variable {b : Builder} {xs ys : List Stmt}

/-- Statements join a result that is a sequence already. -/
theorem appendedAll_sequence (hf : b.frames = []) (hr : b.result = some (.stmt (.sequence xs)))
    (hn : xs.flatMap Stmt.members ≠ []) (h : Stmt.OneLevel (xs ++ ys)) :
    b.appendedAll ys = .ok { b with result := some (.stmt (.sequence (xs ++ ys))) } := by
  induction ys generalizing b xs with
  | nil => rw [appendedAll, List.append_nil, ← hr]
  | cons y ys ih =>
      have hs : b.appended y = .ok { b with result := some (.stmt (.sequence (xs ++ [y]))) } := by
        rw [← Stmt.sequence_cons_sequence h.of_append.1 hn [y]]
        simp [appended, hf, hr]
      have hn' : (xs ++ [y]).flatMap Stmt.members ≠ [] := by
        rw [List.flatMap_append]
        exact List.append_ne_nil_of_left_ne_nil hn _
      rw [List.append_cons] at h ⊢
      rw [appendedAll, hs]
      exact ih hf rfl hn' h

/-- The first statement is the result as it is. With more to come it need not be proper. -/
theorem appendedAll_of_none {x : Stmt} (hf : b.frames = []) (hr : b.result = none)
    (hn : x.members ≠ []) (hx : xs = [] → x.Proper) (h : Stmt.OneLevel (x :: xs)) :
    b.appendedAll (x :: xs) = .ok { b with result := some (.stmt (.sequence (x :: xs))) } := by
  have first : b.appended x = .ok { b with result := some (.stmt x) } := by
    simp [appended, hf, hr]
  rw [appendedAll, first]
  cases xs with
  | nil =>
      rw [(hx rfl).sequence_eq]
      rfl
  | cons y xs =>
      have hf' : { b with result := some (.stmt (.sequence [x, y])) }.frames = [] := hf
      have hn' : [x, y].flatMap Stmt.members ≠ [] := List.append_ne_nil_of_left_ne_nil hn _
      have second : { b with result := some (.stmt x) }.appended y =
          .ok { b with result := some (.stmt (.sequence [x, y])) } := by
        simp [appended, hf]
      rw [Except.bind, appendedAll, second]
      exact appendedAll_sequence hf' rfl hn' h

end Builder

namespace Stmt

/-- A sequence has the members of its statements in order, and is proper. Statements that are not
all empty can be grouped in any way, so that a session without open scopes comes to the sequence
of all that is delivered to it. -/
theorem sequence_grouped {xs ys : List Stmt} (hx : OneLevel xs) (hy : OneLevel ys) :
    (sequence xs).Proper ∧
    (xs.flatMap members = [] → sequence xs = noOp) ∧
    (xs.flatMap members ≠ [] → (sequence xs).members = xs.flatMap members) ∧
    (xs.flatMap members ≠ [] → ys.flatMap members ≠ [] →
      sequence [sequence xs, sequence ys] = sequence (xs ++ ys)) ∧
    (∀ b : Builder, b.frames = [] → b.result = some (.stmt (sequence xs)) →
      xs.flatMap members ≠ [] → Change.appendAll ys b =
        (.ok (), { b with result := some (.stmt (sequence (xs ++ ys))) })) ∧
    (∀ b : Builder, b.frames = [] → b.result = none → ∀ x rest, xs = x :: rest →
      x.members ≠ [] → (rest = [] → x.Proper) →
        Change.appendAll xs b = (.ok (), { b with result := some (.stmt (sequence xs)) })) := by
  refine ⟨proper_sequence hx, sequence_of_nil, members_sequence_of_flat hx.flat,
    fun hxn hyn => sequence_pair hx hxn hy hyn, ?_, ?_⟩
  · intro b hf hr hn
    rw [Change.appendAll_eq, Builder.appendedAll_sequence hf hr hn (hx.append hy)]
    rfl
  · rintro b hf hr x rest rfl hn hp
    rw [Change.appendAll_eq, Builder.appendedAll_of_none hf hr hn hp hx]
    rfl

/-- Two statements in a sequence, one alone, and one after these. -/
theorem sequence_grouped_nested :
    let e (n : Int64) : Stmt := evaluate (.int32 n)
    let xs : List Stmt := [.seq [e 1, e 2], e 3]
    let b : Builder := { config := {} }
    OneLevel xs ∧ OneLevel [e 4] ∧
      (sequence xs).Proper ∧ (sequence xs).members = [e 1, e 2, e 3] ∧
      sequence [sequence xs, sequence [e 4]] = .seq [e 1, e 2, e 3, e 4] ∧
      Change.appendAll xs b = (.ok (), { b with result := some (.stmt (sequence xs)) }) ∧
      Change.appendAll [e 4] { b with result := some (.stmt (sequence xs)) } =
        (.ok (), { b with result := some (.stmt (.seq [e 1, e 2, e 3, e 4])) }) := by
  intro e xs b
  have one (n : Int64) (cs : List Stmt) : e n ≠ .seq cs := by
    rintro ⟨⟩
  have pair : ∀ c ∈ [e 1, e 2], ∀ cs, c ≠ .seq cs := by
    simp [one]
  have hx : OneLevel xs := by
    intro ss h
    obtain h | h := List.mem_cons.1 h
    · cases h
      exact pair
    · exact absurd (List.mem_singleton.1 h).symm (one 3 ss)
  have hy : OneLevel [e 4] := by
    intro ss h
    exact absurd (List.mem_singleton.1 h).symm (one 4 ss)
  have hn : xs.flatMap members ≠ [] := List.cons_ne_nil _ _
  obtain ⟨proper, -, whole, grouped, joined, started⟩ := sequence_grouped hx hy
  exact ⟨hx, hy, proper, whole hn, grouped hn (List.cons_ne_nil _ _),
    started b rfl rfl _ _ rfl (List.cons_ne_nil _ _) (fun h => nomatch h), joined _ rfl rfl hn⟩

end Stmt

end TensorProgram
