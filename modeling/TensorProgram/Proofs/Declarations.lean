import TensorProgram.Proofs.Minting

/-!
Declarations of buffers. The options of a declaration are checked for its rank, and nothing else
can be wrong with one; what is declared then keeps what was checked, and the parts left open
have their defaults. The calls that declare a buffer differ in the options that they hand on.
-/

namespace TensorProgram

/-- Strides and axis separators that make sense in this rank. -/
structure Layout (rank : Nat) (strides : List Expr) (separators : List Int64) : Prop where
  strides : strides = [] ∨ strides.length = rank
  increasing : separators.Pairwise (·.toInt < ·.toInt)
  inside : ∀ x ∈ separators, 1 ≤ x.toInt ∧ x.toInt < rank

theorem BufferKind.ofText?_isSome_iff (text : String) :
    (ofText? text).isSome ↔ text = "default" ∨ text = "auto_broadcast" := by
  rw [ofText?]
  split <;> simp_all

namespace BufferOptions

structure Valid (o : BufferOptions) (rank : Nat) : Prop where
  kind : o.kind = "default" ∨ o.kind = "auto_broadcast"
  layout : Layout rank o.strides o.separators

/-- The bound that runs along is below all that is still to come. -/
theorem separatorsOk_iff (rank : Nat) (low : Int) (xs : List Int64) :
    separatorsOk rank low xs = true ↔
      xs.Pairwise (·.toInt < ·.toInt) ∧ ∀ x ∈ xs, low < x.toInt ∧ x.toInt < rank := by
  induction xs generalizing low with
  | nil => simp [separatorsOk]
  | cons x xs ih =>
      simp only [separatorsOk, Bool.and_eq_true, decide_eq_true_eq, ih, List.pairwise_cons,
        List.forall_mem_cons]
      constructor
      · rintro ⟨⟨hl, hr⟩, hp, hxs⟩
        refine ⟨⟨fun y hy => (hxs y hy).1, hp⟩, ⟨hl, hr⟩, fun y hy => ?_⟩
        exact ⟨Int.lt_trans hl (hxs y hy).1, (hxs y hy).2⟩
      · rintro ⟨⟨hx, hp⟩, ⟨hl, hr⟩, hxs⟩
        exact ⟨⟨hl, hr⟩, hp, fun y hy => ⟨hx y hy, (hxs y hy).2⟩⟩

/-- What the check asks of strides and separators. -/
theorem layout_iff {rank : Nat} {strides : List Expr} {separators : List Int64} :
    Layout rank strides separators ↔
      ¬ (strides ≠ [] ∧ strides.length ≠ rank) ∧ separatorsOk rank 0 separators = true := by
  rw [separatorsOk_iff]
  constructor
  · intro h
    refine ⟨fun hd => ?_, h.increasing, h.inside⟩
    exact h.strides.elim hd.1 hd.2
  · rintro ⟨hd, hp, hi⟩
    exact ⟨by tauto, hp, hi⟩

theorem check_eq_ok_iff {o : BufferOptions} {rank : Nat} {kind : BufferKind} :
    o.check rank = .ok kind ↔
      BufferKind.ofText? o.kind = some kind ∧ Layout rank o.strides o.separators := by
  rw [layout_iff, check]
  cases BufferKind.ofText? o.kind with
  | none => simp
  | some k =>
      dsimp only
      split
      · rename_i hd
        simp [hd]
      · rename_i hd
        cases separatorsOk rank 0 o.separators <;> simp [hd]

theorem valid_iff {o : BufferOptions} {rank : Nat} :
    o.Valid rank ↔ ∃ kind, o.check rank = .ok kind := by
  simp only [check_eq_ok_iff, exists_and_right, ← Option.isSome_iff_exists,
    BufferKind.ofText?_isSome_iff]
  exact ⟨fun h => ⟨h.kind, h.layout⟩, fun h => ⟨h.1, h.2⟩⟩

/-- Only the alignment is filled in. -/
theorem alignmentOr_eq (o : BufferOptions) (a : Int64) :
    o.alignmentOr a = { o with alignment := if 0 < o.alignment.toInt then o.alignment else a } := by
  rw [alignmentOr]
  split
  · rename_i h
    rw [if_neg (by omega)]
  · rename_i h
    rw [if_pos (by omega)]

end BufferOptions

/-- The first positive one of the alignments that are asked for, in this order, or the default. -/
def firstPositive (alignments : List Int64) : Int64 :=
  (alignments.find? (0 < ·.toInt)).getD Buffer.defaultAlignment

theorem firstPositive_pos (alignments : List Int64) : 0 < (firstPositive alignments).toInt := by
  rw [firstPositive]
  cases h : alignments.find? (0 < ·.toInt) with
  | none => decide
  | some a => simpa using List.find?_some h

theorem firstPositive_cons (a : Int64) (as : List Int64) :
    firstPositive (a :: as) = if 0 < a.toInt then a else firstPositive as := by
  by_cases h : 0 < a.toInt <;> simp [firstPositive, h]

namespace Buffer

/-- The buffer `b` is what has been declared with the options `o` while the supply went from `s`
to `s'`, where `alignments` have been asked for. -/
structure DeclaredBy (b : Buffer) (shape : List Expr) (dtype : DataType) (o : BufferOptions)
    (alignments : List Int64) (s s' : Supply) : Prop where
  shape : b.shape = shape
  dtype : b.dtype = dtype
  name : b.name = o.name
  kind : BufferKind.ofText? o.kind = some b.kind
  strides : b.strides = o.strides
  separators : b.separators = o.separators
  layout : Layout b.rank b.strides b.separators
  positive : 0 < b.alignment.toInt
  alignment : b.alignment = firstPositive alignments
  factor : b.offsetFactor ≠ 0
  given : ∀ v ∈ o.data, b.data = v
  pointer : o.data = none → s.Mints [b.data.id] s' ∧ b.data.dtype = .handle ∧
    b.data.typeHint = some (.pointer b.dtype o.scope) ∧ b.scope = o.scope

/-- The declaration of a buffer checks its options and nothing else. -/
theorem declare_ok_iff (shape : List Expr) (dtype : DataType) (o : BufferOptions) (s : Supply) :
    (∃ r, declare shape dtype o s = .ok r) ↔ o.Valid shape.length := by
  rw [BufferOptions.valid_iff, declare]
  cases o.check shape.length <;> simp

variable {shape : List Expr} {dtype : DataType} {o : BufferOptions} {s s' : Supply} {b : Buffer}

theorem declaredBy_of_declare (h : declare shape dtype o s = .ok (b, s')) :
    b.DeclaredBy shape dtype o [o.alignment] s s' := by
  rw [declare] at h
  cases hc : o.check shape.length with
  | error e => simp [hc] at h
  | ok kind =>
      obtain ⟨hk, hl⟩ := BufferOptions.check_eq_ok_iff.1 hc
      simp only [hc, ok_bind, pure_eq_ok, Except.ok.injEq, Prod.mk.injEq] at h
      obtain ⟨rfl, rfl⟩ := h
      have ha : (o.alignmentOr defaultAlignment).alignment = firstPositive [o.alignment] := by
        rw [BufferOptions.alignmentOr_eq, firstPositive_cons]
        rfl
      refine ⟨rfl, rfl, rfl, hk, rfl, rfl, hl, ?_, ha, ?_, ?_, ?_⟩
      · exact ha ▸ firstPositive_pos _
      · dsimp only
        split
        · decide
        · assumption
      · intro v hv
        simp [BufferOptions.pointer, Option.mem_def.1 hv]
      · intro hn
        have hp : o.pointer dtype s = Var.freshPointer o.name dtype o.scope s := by
          rw [BufferOptions.pointer, hn]
        rw [hp]
        exact ⟨(Supply.Mints.take s).trans (o.mints_offset _), rfl, rfl, rfl⟩

/-- An alignment that the options leave open is asked for elsewhere. -/
theorem declaredBy_of_declare_alignmentOr {a : Int64}
    (h : declare shape dtype (o.alignmentOr a) s = .ok (b, s')) :
    b.DeclaredBy shape dtype o [o.alignment, a] s s' := by
  have hd := declaredBy_of_declare h
  have ha : firstPositive [(o.alignmentOr a).alignment] = firstPositive [o.alignment, a] := by
    rw [BufferOptions.alignmentOr_eq, firstPositive_cons o.alignment [a]]
    split
    · simp [firstPositive_cons, *]
    · rfl
  have hal := hd.alignment.trans ha
  rw [BufferOptions.alignmentOr_eq] at hd
  exact { hd with alignment := hal }

end Buffer

/-- The buffers of allocations leave everything open but their scope. -/
theorem Opening.declaredBy_of_allocation {extents : List Expr} {dtype : DataType} {scope : String}
    {s s' : Supply} {b : Buffer} (h : allocation extents dtype scope s = .ok (b, s')) :
    b.DeclaredBy extents dtype { name := "buf", scope } [] s s' := by
  have hd := Buffer.declaredBy_of_declare (Attempt.declare_eq_ok.1 h)
  exact { hd with alignment := hd.alignment }

/-- A call that declares a buffer, and then finds out what to do with it. -/
theorem Call.declare_check_eq_ok {shape : List Expr} {dtype : DataType} {o : BufferOptions}
    {x : Buffer → Except BuildError Effect} {eff : Effect} {v : Value} {s s' : Supply}
    (h : (do
      let b ← Attempt.declare shape dtype o
      return (← Attempt.check (x b), Value.buffer b)) s = .ok ((eff, v), s')) :
    ∃ b, v = .buffer b ∧ Buffer.declare shape dtype o s = .ok (b, s') ∧ x b = .ok eff := by
  simp only [Attempt.bind_eq_ok, Attempt.check_eq_ok, Attempt.pure_eq_ok,
    Attempt.declare_eq_ok] at h
  obtain ⟨b, s₁, hb, e, s₂, ⟨he, rfl⟩, h⟩ := h
  cases h
  exact ⟨b, rfl, hb, he⟩

namespace World

variable {w w' : World} {t : ThreadId} {v : Value}

/-- A call that goes through is for the session that is live. -/
theorem call_eq_ok {c : Call} (h : w.call t c = (.ok v, w')) :
    ∃ id eff, w.live t = some id ∧
      c.effect (w.builder id) w.supply = .ok ((eff, v), w'.supply) := by
  cases live : w.live t with
  | none => simp [call_of_idle live] at h
  | some id =>
      obtain ⟨r, b', s, hr⟩ : ∃ r b' s, (w.builder id).call w.supply c = (r, b', s) :=
        ⟨_, _, _, rfl⟩
      rw [call_of_live live, hr] at h
      obtain ⟨rfl, rfl⟩ := Prod.mk.inj h
      obtain ⟨eff, he, -⟩ := Builder.call_ok hr
      exact ⟨id, eff, rfl, he⟩

/-- An opening that goes through is for the session that is live, and so is its guard. -/
theorem openScope_eq_ok {o : Opening} {g : Guard} (h : w.openScope t o = (.ok (g, v), w')) :
    ∃ x, w.live t = some g.session ∧
      o.scope (w.builder g.session) w.supply = .ok ((x, v), w'.supply) := by
  cases live : w.live t with
  | none => simp [openScope_of_idle live] at h
  | some id =>
      cases ho : o.scope (w.builder id) w.supply with
      | error f => simp [openScope_of_live live, Builder.openScope_eq, ho, Except.map] at h
      | ok r =>
          rw [openScope_opened live ho] at h
          cases h
          exact ⟨_, rfl, ho⟩

/-- A declaration outside of every session. -/
theorem declare_eq_ok {shape : List Expr} {dtype : DataType} {o : BufferOptions} {b : Buffer}
    (h : w.declare shape dtype o = (.ok b, w')) :
    Buffer.declare shape dtype o w.supply = .ok (b, w'.supply) := by
  rw [declare] at h
  cases hb : Buffer.declare shape dtype o w.supply with
  | error e => simp [hb] at h
  | ok r =>
      simp only [hb, Prod.mk.injEq, Except.ok.injEq] at h
      obtain ⟨rfl, rfl⟩ := h
      rfl

/-- The buffers that are declared in the world `w`. Outside of every session a declaration goes
through whenever its options are valid. A buffer that is declared, by whatever call, has a valid
layout, the first positive one of the alignments asked for, and the memory that it was given or
else a new pointer; a session adds its own alignment for the buffers that it allocates or matches,
and a view before flattening lies in the memory of the buffer that it is a view of. -/
theorem declarations (w : World) (t : ThreadId) (shape : List Expr) (dtype : DataType)
    (o : BufferOptions) :
    ((∃ b, (w.declare shape dtype o).1 = .ok b) ↔ o.Valid shape.length) ∧
    (∀ b w', w.declare shape dtype o = (.ok b, w') →
      b.DeclaredBy shape dtype o [o.alignment] w.supply w'.supply) ∧
    (∀ v w', w.call t (.allocBuffer shape dtype o) = (.ok v, w') →
      ∃ id b, w.live t = some id ∧ v = .buffer b ∧ b.DeclaredBy shape dtype o
        [o.alignment, (w.builder id).config.alignment] w.supply w'.supply) ∧
    (∀ target v w', w.call t (.matchBuffer target shape dtype o) = (.ok v, w') →
      ∃ id b, w.live t = some id ∧ v = .buffer b ∧ b.DeclaredBy shape dtype o
        [o.alignment, (w.builder id).config.alignment] w.supply w'.supply) ∧
    (∀ of v w', w.call t (.preflattenedBuffer of shape dtype o) = (.ok v, w') →
      ∃ id b, w.live t = some id ∧ v = .buffer b ∧
        (∃ f x, (w.builder id).Top (.func f) ∧ x ∈ f.bufferMap.values ∧ x.sameAs of) ∧
        b.DeclaredBy shape dtype { o with data := o.data.or (some of.data) } [o.alignment]
          w.supply w'.supply) ∧
    (∀ scope condition annotations g v w',
      w.openScope t (.allocate shape dtype scope condition annotations) = (.ok (g, v), w') →
      ∃ b, w.live t = some g.session ∧ v = .buffer b ∧ b.DeclaredBy shape dtype
        { name := "buf", scope := (w.builder g.session).storageScopeOr scope } []
        w.supply w'.supply) ∧
    ∀ data annotations g v w',
      w.openScope t (.allocateConst data dtype shape annotations) = (.ok (g, v), w') →
      ∃ b, w.live t = some g.session ∧ v = .buffer b ∧ b.DeclaredBy shape dtype
        { name := "buf", scope := (w.builder g.session).config.storageScope } []
        w.supply w'.supply := by
  refine ⟨?_, ?_, ?_, ?_, ?_, ?_, ?_⟩
  · rw [← Buffer.declare_ok_iff shape dtype o w.supply, declare]
    cases Buffer.declare shape dtype o w.supply <;> simp
  · intro b w' h
    exact Buffer.declaredBy_of_declare (declare_eq_ok h)
  · intro v w' h
    obtain ⟨id, eff, live, he⟩ := call_eq_ok h
    obtain ⟨b, hv, hb, -⟩ := Call.declare_check_eq_ok he
    exact ⟨id, b, live, hv, Buffer.declaredBy_of_declare_alignmentOr hb⟩
  · intro target v w' h
    obtain ⟨id, eff, live, he⟩ := call_eq_ok h
    obtain ⟨b, hv, hb, -⟩ := Call.declare_check_eq_ok he
    exact ⟨id, b, live, hv, Buffer.declaredBy_of_declare_alignmentOr hb⟩
  · intro of v w' h
    obtain ⟨id, eff, live, he⟩ := call_eq_ok h
    obtain ⟨b, hv, hb, hp⟩ := Call.declare_check_eq_ok he
    obtain ⟨f, p, x, top, hx, -, -⟩ := Call.preflattenEffect_eq_ok hp
    have hm : x ∈ f.bufferMap.values := List.mem_map_of_mem (List.mem_of_find?_eq_some hx)
    have hs : x.sameAs of = true := by simpa using List.find?_some hx
    exact ⟨id, b, live, hv, ⟨f, x, top, hm, hs⟩, Buffer.declaredBy_of_declare hb⟩
  · intro scope condition annotations g v w' h
    obtain ⟨x, live, ho⟩ := openScope_eq_ok h
    obtain ⟨-, b, hb, hv, -⟩ := Opening.scope_allocate_eq_ok ho
    exact ⟨b, live, hv, Opening.declaredBy_of_allocation hb⟩
  · intro data annotations g v w' h
    obtain ⟨x, live, ho⟩ := openScope_eq_ok h
    obtain ⟨-, b, hb, hv, -⟩ := Opening.scope_allocateConst_eq_ok ho
    exact ⟨b, live, hv, Opening.declaredBy_of_allocation hb⟩

/-- A buffer of rank one. -/
def flatBuffer : Buffer :=
  ⟨⟨0, "A", .handle, some (.pointer (.float 32) "global")⟩, .float 32, [.int32 64], [], .int32 0,
    "A", 64, 1, .default, []⟩

/-- A session without an alignment of its own, in a function whose argument is the buffer. -/
def declaring : World :=
  let w := ((start .counting).enter 0 { alignment := -5 }).2
  let w := (w.openScope 0 .primFunc).2
  (w.call 0 (.argBuffer "A" flatBuffer)).2

/-- A view of the parameter in rank three, and buffers like it. -/
theorem declarations_declaring :
    let shape : List Expr := [.int32 4, .int32 4, .int32 4]
    let o : BufferOptions := { separators := [1, 2], alignment := -9223372036854775808 }
    (∃ b, (declaring.declare shape (.float 32) o).1 = .ok b) ∧
    (∃ b w', declaring.declare shape (.float 32) o = (.ok b, w') ∧ b.alignment = 64) ∧
    (∃ b w', declaring.call 0 (.allocBuffer shape (.float 32) o) = (.ok (.buffer b), w') ∧
      b.alignment = 64) ∧
    (∃ b w', declaring.call 0 (.matchBuffer (.param ⟨8, "b", .handle, none⟩) shape (.float 32) o) =
      (.ok (.buffer b), w') ∧ b.scope = "global") ∧
    (∃ b w', declaring.call 0 (.preflattenedBuffer flatBuffer shape (.float 32) o) =
      (.ok (.buffer b), w') ∧ b.data = flatBuffer.data) ∧
    (∃ g b w', declaring.openScope 0 (.allocate shape (.float 32) "shared" none none) =
      (.ok (g, .buffer b), w') ∧ b.scope = "shared") ∧
    ∃ g b w', declaring.openScope 0 (.allocateConst (.floats (List.replicate 64 ⟨0⟩)) (.float 32)
      shape none) = (.ok (g, .buffer b), w') ∧ b.scope = "global" := by
  intro shape o
  obtain ⟨accepts, outside, alloc, matched, view, temporary, constant⟩ :=
    declarations declaring 0 shape (.float 32) o
  have inside : ∀ x ∈ o.separators, 1 ≤ x.toInt ∧ x.toInt < shape.length :=
    List.forall_mem_cons.2 ⟨by decide, List.forall_mem_singleton.2 (by decide)⟩
  have valid : o.Valid shape.length := ⟨Or.inl rfl, Or.inl rfl, by decide, inside⟩
  refine ⟨accepts.2 valid, ⟨_, _, rfl, (outside _ _ rfl).alignment⟩, ?_, ?_, ?_, ?_, ?_⟩
  · obtain ⟨id, b, live, hv, hb⟩ := alloc _ _ rfl
    cases live
    cases hv
    exact ⟨_, _, rfl, hb.alignment⟩
  · obtain ⟨id, b, live, hv, hb⟩ := matched (.param ⟨8, "b", .handle, none⟩) _ _ rfl
    cases live
    cases hv
    exact ⟨_, _, rfl, (hb.pointer rfl).2.2.2⟩
  · obtain ⟨id, b, live, hv, -, hb⟩ := view flatBuffer _ _ rfl
    cases live
    cases hv
    exact ⟨_, _, rfl, hb.given _ rfl⟩
  · obtain ⟨b, -, hv, hb⟩ := temporary "shared" none none _ _ _ rfl
    cases hv
    exact ⟨_, _, _, rfl, (hb.pointer rfl).2.2.2⟩
  · obtain ⟨b, -, hv, hb⟩ := constant (.floats (List.replicate 64 ⟨0⟩)) none _ _ _ rfl
    cases hv
    exact ⟨_, _, _, rfl, (hb.pointer rfl).2.2.2⟩

end World

end TensorProgram
