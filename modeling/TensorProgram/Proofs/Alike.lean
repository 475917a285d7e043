import TensorProgram.Proofs.Equivariance

/-!
Two runs side by side. Two values are alike when one mask of the first is another mask of the
second; two computations are alike when they take builders and supplies that are alike to results
that are alike. Alike arguments make every operation alike, although one run may come to
identities, and names made of identities, that the other has not.
-/

namespace TensorProgram

open Masked

section

variable {ρ ρ' : VarId → VarId}

/-! What two masks do not tell apart. -/

section

variable {α : Type} [Masked α]

theorem option_alike {a a' : Option α} (h : mask ρ a = mask ρ' a') :
    (a = none ∧ a' = none) ∨ ∃ x x', a = some x ∧ a' = some x' ∧ mask ρ x = mask ρ' x' := by
  cases a with
  | none =>
      cases a' with
      | none => exact Or.inl ⟨rfl, rfl⟩
      | some x' => cases h
  | some x =>
      cases a' with
      | none => cases h
      | some x' => exact Or.inr ⟨x, x', rfl, rfl, Option.some.inj h⟩

theorem list_alike {as as' : List α} (h : mask ρ as = mask ρ' as') :
    (as = [] ∧ as' = []) ∨ ∃ x xs x' xs', as = x :: xs ∧ as' = x' :: xs' ∧
      mask ρ x = mask ρ' x' ∧ mask ρ xs = mask ρ' xs' := by
  cases as with
  | nil =>
      cases as' with
      | nil => exact Or.inl ⟨rfl, rfl⟩
      | cons x' xs' => cases h
  | cons x xs =>
      cases as' with
      | nil => cases h
      | cons x' xs' =>
          exact Or.inr ⟨x, xs, x', xs', rfl, rfl, (List.cons.inj h).1, (List.cons.inj h).2⟩

theorem except_alike {ε : Type} [Masked ε] {x x' : Except ε α} (h : mask ρ x = mask ρ' x') :
    (∃ e e', x = .error e ∧ x' = .error e' ∧ mask ρ e = mask ρ' e') ∨
      ∃ a a', x = .ok a ∧ x' = .ok a' ∧ mask ρ a = mask ρ' a' := by
  cases x with
  | error e =>
      cases x' with
      | error e' => exact Or.inl ⟨e, e', rfl, rfl, Except.error.inj h⟩
      | ok a' => cases h
  | ok a =>
      cases x' with
      | error e' => cases h
      | ok a' => exact Or.inr ⟨a, a', rfl, rfl, Except.ok.inj h⟩

/-- What an operation comes to, and what it leaves. -/
theorem result_alike {ε σ : Type} [Masked ε] [Masked σ] {x x' : Except ε α × σ}
    (h : mask ρ x = mask ρ' x') :
    (∃ e e' c c', x = (.error e, c) ∧ x' = (.error e', c') ∧ mask ρ e = mask ρ' e' ∧
        mask ρ c = mask ρ' c') ∨
      ∃ a a' c c', x = (.ok a, c) ∧ x' = (.ok a', c') ∧ mask ρ a = mask ρ' a' ∧
        mask ρ c = mask ρ' c' := by
  obtain ⟨r, c⟩ := x
  obtain ⟨r', c'⟩ := x'
  obtain ⟨hr, hc⟩ := Prod.mk.inj h
  obtain ⟨e, e', rfl, rfl, he⟩ | ⟨a, a', rfl, rfl, ha⟩ := except_alike hr
  · exact Or.inl ⟨e, e', c, c', rfl, rfl, he, hc⟩
  · exact Or.inr ⟨a, a', c, c', rfl, rfl, ha, hc⟩

/-- Where the errors are the same, the results decide. -/
theorem alike_of_map {ε : Type} [Masked ε]
    (he : ∀ (τ τ' : VarId → VarId) (e : ε), mask τ e = mask τ' e)
    {x x' : Except ε α} (h : x.map (mask ρ) = x'.map (mask ρ')) : mask ρ x = mask ρ' x' := by
  cases x with
  | error e =>
      cases x' with
      | error e' =>
          obtain rfl : e = e' := Except.error.inj h
          exact congrArg Except.error (he ρ ρ' e)
      | ok a' => cases h
  | ok a =>
      cases x' with
      | error e' => cases h
      | ok a' => exact congrArg Except.ok (Except.ok.inj h)

end

/-! What is equivariant makes alike things of alike ones, and what a mask leaves as it is is the
same for both. -/

section

variable {α β γ : Type} [Masked α] [Masked β] {a a' : α} (ha : mask ρ a = mask ρ' a')

include ha

theorem same_of_mask {f : α → γ} (hf : ∀ τ a, f (mask τ a) = f a) : f a = f a' := by
  rw [← hf ρ, ha, hf]

theorem alike_of_mask {f : α → β} (hf : ∀ τ a, f (mask τ a) = mask τ (f a)) :
    mask ρ (f a) = mask ρ' (f a') := by
  rw [← hf, ha, hf]

variable [Masked γ] {b b' : β} (hb : mask ρ b = mask ρ' b')

include hb

theorem alike_of_mask₂ {f : α → β → γ} (hf : ∀ τ a b, f (mask τ a) (mask τ b) = mask τ (f a b)) :
    mask ρ (f a b) = mask ρ' (f a' b') := by
  rw [← hf, ha, hb, hf]

theorem folded_alike {f : α → β → Except Overflow γ}
    (hf : ∀ τ a b, f (mask τ a) (mask τ b) = (f a b).map (mask τ)) :
    mask ρ (f a b) = mask ρ' (f a' b') := by
  apply alike_of_map (fun _ _ _ => rfl)
  rw [← hf, ha, hb, hf]

end

section

variable {α : Type} [Masked α]

theorem getD_alike {a a' : Option α} (h : mask ρ a = mask ρ' a') {d d' : α}
    (hd : mask ρ d = mask ρ' d') : mask ρ (a.getD d) = mask ρ' (a'.getD d') :=
  alike_of_mask₂ h hd getD_mask

theorem length_alike {as as' : List α} (h : mask ρ as = mask ρ' as') : as.length = as'.length :=
  same_of_mask h length_mask

theorem append_alike {as as' bs bs' : List α} (ha : mask ρ as = mask ρ' as')
    (hb : mask ρ bs = mask ρ' bs') : mask ρ (as ++ bs) = mask ρ' (as' ++ bs') := by
  rw [mask_append, ha, hb, mask_append]

variable (hρ : Function.Injective ρ) (hρ' : Function.Injective ρ') {m m' : OrderedMap Var α}
  (hm : mask ρ m = mask ρ' m') {v v' : Var} (hv : mask ρ v = mask ρ' v')

include hρ hρ' hm hv

theorem OrderedMap.get?_alike : mask ρ (m.get? v) = mask ρ' (m'.get? v') := by
  rw [← get?_mask hρ, hm, hv, get?_mask hρ']

theorem OrderedMap.contains_alike : m.contains v = m'.contains v' := by
  rw [← contains_mask hρ, hm, hv, contains_mask hρ']

theorem OrderedMap.insert_alike {a a' : α} (ha : mask ρ a = mask ρ' a') :
    mask ρ (m.insert v a) = mask ρ' (m'.insert v' a') := by
  rw [← insert_mask hρ, hm, hv, ha, insert_mask hρ']

end

theorem Expr.asIndex_alike (d : DataType) {e e' : Expr} (h : mask ρ e = mask ρ' e') :
    mask ρ (e.asIndex d) = mask ρ' (e'.asIndex d) :=
  alike_of_mask h fun τ e => e.asIndex_mask τ d

theorem Expr.castTo_alike (d : DataType) {e e' : Expr} (h : mask ρ e = mask ρ' e') :
    mask ρ (e.castTo d) = mask ρ' (e'.castTo d) :=
  alike_of_mask h fun τ e => e.castTo_mask τ d

section

variable {b b' : Buffer} (h : mask ρ b = mask ρ' b')

include h

theorem Buffer.data_alike : mask ρ b.data = mask ρ' b'.data := alike_of_mask h data_mask

theorem Buffer.dtype_alike : b.dtype = b'.dtype := same_of_mask h dtype_mask

theorem Buffer.name_alike : b.name = b'.name := same_of_mask h name_mask

theorem Buffer.rank_alike : b.rank = b'.rank := same_of_mask h rank_mask

end

/-- Of alike supplies the next identities are alike, and so is what is left. -/
theorem take_alike {s s' : Supply} (h : mask ρ s = mask ρ' s') :
    ρ s.take.1 = ρ' s'.take.1 ∧ mask ρ s.take.2 = mask ρ' s'.take.2 := by
  have hn (n : Nat) : ρ (s.stream (s.used + n)) = ρ' (s'.stream (s'.used + n)) :=
    congrFun (congrArg Supply.stream h) n
  refine ⟨hn 0, congrArg (Supply.mk · 0) ?_⟩
  funext n
  have ht (t : Supply) : t.take.2.stream (t.take.2.used + n) = t.stream (t.used + (n + 1)) :=
    congrArg t.stream (by rw [Nat.add_comm n, ← Nat.add_assoc]; rfl)
  rw [ht, ht, hn]

theorem fresh_alike (name name' : String) (d : DataType) {s s' : Supply}
    (h : mask ρ s = mask ρ' s') :
    mask ρ (Var.fresh name d s) = mask ρ' (Var.fresh name' d s') := by
  obtain ⟨hi, hs⟩ := take_alike h
  exact congrArg₂ Prod.mk (congrArg (Var.mk · "" d none) hi) hs

theorem freshPointer_alike (name name' : String) (d : DataType) (scope : String) {s s' : Supply}
    (h : mask ρ s = mask ρ' s') :
    mask ρ (Var.freshPointer name d scope s) = mask ρ' (Var.freshPointer name' d scope s') := by
  obtain ⟨hi, hs⟩ := take_alike h
  exact congrArg₂ Prod.mk (congrArg (Var.mk · "" .handle (some (.pointer d scope))) hi) hs

end

/-! Attempts. -/

namespace Attempt

variable {α β : Type} [Masked α] [Masked β] (ρ ρ' : VarId → VarId)

/-- From alike supplies the two fail alike, or come to alike results and leave alike supplies. -/
def Alike (x x' : Attempt α) : Prop :=
  ∀ s s', mask ρ s = mask ρ' s' → mask ρ (x s) = mask ρ' (x' s')

variable {ρ ρ'}

theorem alike_pure {a a' : α} (h : mask ρ a = mask ρ' a') :
    Alike ρ ρ' (pure a) (pure a') := by
  intro s s' hs
  exact congrArg Except.ok (congrArg₂ Prod.mk h hs)

theorem Alike.bind {x x' : Attempt α} {f f' : α → Attempt β} (hx : Alike ρ ρ' x x')
    (hf : ∀ a a', mask ρ a = mask ρ' a' → Alike ρ ρ' (f a) (f' a')) :
    Alike ρ ρ' (x >>= f) (x' >>= f') := by
  intro s s' hs
  rw [bind_apply, bind_apply]
  obtain ⟨e, e', h, h', he⟩ | ⟨⟨a, t⟩, ⟨a', t'⟩, h, h', ha⟩ := except_alike (hx s s' hs)
  · rw [h, h']
    exact congrArg Except.error he
  · rw [h, h']
    exact hf a a' (Prod.mk.inj ha).1 t t' (Prod.mk.inj ha).2

theorem alike_check {x x' : Except BuildError α} (h : mask ρ x = mask ρ' x') :
    Alike ρ ρ' (check x) (check x') := by
  intro s s' hs
  obtain ⟨e, e', rfl, rfl, he⟩ | ⟨a, a', rfl, rfl, ha⟩ := except_alike h
  · exact congrArg (Except.error ∘ Failure.refused) he
  · exact alike_pure ha s s' hs

/-- A check that does not look at identities. -/
theorem alike_guard (x : Except BuildError Unit) : Alike ρ ρ' (check x) (check x) :=
  alike_check (alike_of_map (fun _ _ _ => rfl) rfl)

/-- Such a check, and what is there when it has been passed. -/
theorem alike_checked {x x' : Except BuildError Unit} (hx : x = x') {a a' : α}
    (ha : mask ρ a = mask ρ' a') :
    Alike ρ ρ' (check x >>= fun _ => pure a) (check x' >>= fun _ => pure a') := by
  subst hx
  exact (alike_guard x).bind fun _ _ _ => alike_pure ha

theorem alike_exact {x x' : Except Overflow α} (h : mask ρ x = mask ρ' x') :
    Alike ρ ρ' (exact x) (exact x') := by
  intro s s' hs
  obtain ⟨e, e', rfl, rfl, he⟩ | ⟨a, a', rfl, rfl, ha⟩ := except_alike h
  · exact congrArg (Except.error ∘ Failure.overflow) he
  · exact alike_pure ha s s' hs

theorem alike_refuse {e e' : BuildError} (h : mask ρ e = mask ρ' e') :
    Alike ρ ρ' (refuse e : Attempt α) (refuse e') := by
  intro s s' _
  exact congrArg (Except.error ∘ Failure.refused) h

theorem alike_fresh (name name' : String) (d : DataType) :
    Alike ρ ρ' (fresh name d) (fresh name' d) := by
  intro s s' hs
  exact congrArg Except.ok (fresh_alike name name' d hs)

end Attempt

/-! Declarations of buffers. -/

namespace BufferOptions

variable (ρ : VarId → VarId)

theorem check_mask (o : BufferOptions) (rank : Nat) : (mask ρ o).check rank = o.check rank := by
  have hk : (mask ρ o).kind = o.kind := rfl
  have hs : (mask ρ o).strides = mask ρ o.strides := rfl
  have hp : (mask ρ o).separators = o.separators := rfl
  have hn : mask ρ o.strides ≠ [] ↔ o.strides ≠ [] := not_congr List.map_eq_nil_iff
  rw [check, check, hk, hs, hp, length_mask]
  simp only [hn]

theorem alignmentOr_mask (o : BufferOptions) (default : Int64) :
    (mask ρ o).alignmentOr default = mask ρ (o.alignmentOr default) := by
  change (if o.alignment.toInt ≤ 0 then mask ρ { o with alignment := default } else mask ρ o) = _
  rw [alignmentOr]
  split <;> rfl

end BufferOptions

section

variable {ρ ρ' : VarId → VarId}

theorem BufferOptions.pointer_alike {o o' : BufferOptions} (ho : mask ρ o = mask ρ' o')
    (d : DataType) {s s' : Supply} (hs : mask ρ s = mask ρ' s') :
    mask ρ (o.pointer d s) = mask ρ' (o'.pointer d s') := by
  have hd : mask ρ o.data = mask ρ' o'.data := congrArg BufferOptions.data ho
  have hc : o.scope = o'.scope := (congrArg BufferOptions.scope ho :)
  rw [pointer, pointer]
  obtain ⟨h, h'⟩ | ⟨v, v', h, h', hv⟩ := option_alike hd
  · rw [h, h', hc]
    exact freshPointer_alike o.name o'.name d o'.scope hs
  · rw [h, h']
    exact congrArg₂ Prod.mk hv hs

theorem BufferOptions.offset_alike {o o' : BufferOptions} (ho : mask ρ o = mask ρ' o')
    {s s' : Supply} (hs : mask ρ s = mask ρ' s') :
    mask ρ (o.offset s) = mask ρ' (o'.offset s') := by
  have he : mask ρ o.elemOffset = mask ρ' o'.elemOffset := congrArg BufferOptions.elemOffset ho
  have hf : o.offsetFactor = o'.offsetFactor := (congrArg BufferOptions.offsetFactor ho :)
  rw [offset, offset]
  obtain ⟨h, h'⟩ | ⟨e, e', h, h', hv⟩ := option_alike he
  · rw [h, h', hf]
    dsimp only
    split
    · exact congrArg (Prod.mk (Expr.int32 0)) hs
    · have hv := fresh_alike (o.name ++ "_elem_offset") (o'.name ++ "_elem_offset") (.int 32) hs
      exact congrArg (Prod.map Expr.var (·)) hv
  · rw [h, h']
    exact congrArg₂ Prod.mk hv hs

theorem Attempt.alike_declare {es es' : List Expr} (he : mask ρ es = mask ρ' es') (d : DataType)
    {o o' : BufferOptions} (ho : mask ρ o = mask ρ' o') :
    Alike ρ ρ' (declare es d o) (declare es' d o') := by
  intro s s' hs
  have hl : es.length = es'.length := length_alike he
  have hc : o.check es.length = o'.check es'.length := by
    rw [hl, ← BufferOptions.check_mask ρ, ho, BufferOptions.check_mask]
  rw [declare_apply, declare_apply, Buffer.declare, Buffer.declare, hc]
  cases o'.check es'.length with
  | error e => rfl
  | ok kind =>
      obtain ⟨hp, hs⟩ := Prod.mk.inj (BufferOptions.pointer_alike ho d hs)
      obtain ⟨hf, hs⟩ := Prod.mk.inj (BufferOptions.offset_alike ho hs)
      refine congrArg Except.ok (congrArg₂ Prod.mk ?_ hs)
      have hn : o.name = o'.name := (congrArg BufferOptions.name ho :)
      have hr : mask ρ o.strides = mask ρ' o'.strides := congrArg BufferOptions.strides ho
      have hz : o.offsetFactor = o'.offsetFactor := (congrArg BufferOptions.offsetFactor ho :)
      have hx : o.separators = o'.separators := (congrArg BufferOptions.separators ho :)
      have ha : (o.alignmentOr Buffer.defaultAlignment).alignment =
          (o'.alignmentOr Buffer.defaultAlignment).alignment := by
        have ha := (o.alignmentOr_mask ρ Buffer.defaultAlignment).symm
        rw [ho, BufferOptions.alignmentOr_mask] at ha
        exact (congrArg BufferOptions.alignment ha :)
      rw [mask_buffer, mask_buffer, hp, he, hr, hf, hn, ha, hz, hx]

end

/-! Changes to a builder. -/

namespace Change

variable {α β : Type} [Masked α] [Masked β] (ρ ρ' : VarId → VarId)

/-- On alike builders the two come to alike results, and leave alike builders. -/
def Alike (x x' : Change α) : Prop :=
  ∀ b b', mask ρ b = mask ρ' b' →
    mask (α := Except BuildError α × Builder) ρ (x b) =
      mask (α := Except BuildError α × Builder) ρ' (x' b')

variable {ρ ρ'}

theorem Alike.bind {x x' : Change α} {f f' : α → Change β} (hx : Alike ρ ρ' x x')
    (hf : ∀ a a', mask ρ a = mask ρ' a' → Alike ρ ρ' (f a) (f' a')) :
    Alike ρ ρ' (x >>= f) (x' >>= f') := by
  intro b b' hb
  rw [bind_inPlace, bind_inPlace]
  obtain ⟨e, e', c, c', h, h', he, hc⟩ | ⟨a, a', c, c', h, h', ha, hc⟩ := result_alike (hx b b' hb)
  · rw [h, h']
    exact congrArg₂ Prod.mk (congrArg Except.error he) hc
  · rw [h, h']
    exact hf a a' ha c c' hc

theorem alike_get : Alike ρ ρ' get get := by
  intro b b' hb
  exact congrArg₂ Prod.mk (congrArg Except.ok hb) hb

theorem alike_look {f f' : Builder → Except BuildError α}
    (hf : ∀ b b', mask ρ b = mask ρ' b' → mask ρ (f b) = mask ρ' (f' b')) :
    Alike ρ ρ' (look f) (look f') := by
  intro b b' hb
  exact congrArg₂ Prod.mk (hf b b' hb) hb

theorem alike_write {f f' : Builder → Builder}
    (hf : ∀ b b', mask ρ b = mask ρ' b' → mask ρ (f b) = mask ρ' (f' b')) :
    Alike ρ ρ' (write f) (write f') := by
  intro b b' hb
  exact congrArg (Prod.mk (Except.ok ())) (hf b b' hb)

theorem alike_throw (e : BuildError) : Alike ρ ρ' (throw e : Change α) (throw e) := by
  intro b b' hb
  exact congrArg (Prod.mk (Except.error (mask ρ e))) hb

theorem alike_settle {f f' : Builder → Except BuildError Builder}
    (hf : ∀ b b', mask ρ b = mask ρ' b' → (f b).map (mask ρ) = (f' b').map (mask ρ')) :
    Alike ρ ρ' (fun b => b.settle (f b)) (fun b => b.settle (f' b)) := by
  intro b b' hb
  obtain ⟨e, e', h, h', he⟩ | ⟨c, c', h, h', hc⟩ :=
    except_alike (alike_of_map (fun _ _ _ => rfl) (hf b b' hb))
  · dsimp only
    rw [h, h']
    exact congrArg₂ Prod.mk (congrArg Except.error he) hb
  · dsimp only
    rw [h, h']
    exact congrArg (Prod.mk (Except.ok ())) hc

theorem alike_append {s s' : Stmt} (hs : mask ρ s = mask ρ' s') :
    Alike ρ ρ' (append s) (append s') := by
  rw [funext (append_eq s), funext (append_eq s')]
  apply alike_settle
  intro b b' hb
  rw [← Builder.appended_mask, hb, hs, Builder.appended_mask]

theorem alike_deliver {p p' : Product} (hp : mask ρ p = mask ρ' p') :
    Alike ρ ρ' (deliver p) (deliver p') := by
  rw [funext (deliver_eq p), funext (deliver_eq p')]
  apply alike_settle
  intro b b' hb
  rw [← Builder.delivered_mask, hb, hp, Builder.delivered_mask]

/-- The same scope is closed, or cannot be closed for the same reason. -/
theorem alike_close (hρ : Function.Injective ρ) (hρ' : Function.Injective ρ') (id : Nat)
    (kind : ScopeKind) : Alike ρ ρ' (close id kind) (close id kind) := by
  apply Alike.bind alike_get
  intro b b' hb
  have hs : mask ρ b.frames = mask ρ' b'.frames := congrArg Builder.frames hb
  obtain ⟨h, h'⟩ | ⟨f, fs, f', fs', h, h', hf, hfs⟩ := list_alike hs
  · rw [h, h']
    exact alike_throw _
  · have hi : f.id = f'.id := (congrArg Frame.id hf :)
    have hk : f.kind = f'.kind := by
      have hx : mask ρ f.scope = mask ρ' f'.scope := congrArg Frame.scope hf
      exact same_of_mask hx Scope.kind_mask
    have ha : fs.any (·.id = id) = fs'.any (·.id = id) := by
      have ha (τ : VarId → VarId) (fs : List Frame) :
          (mask τ fs).any (·.id = id) = fs.any (·.id = id) := any_mask (fun _ => rfl) fs
      rw [← ha ρ, hfs, ha]
    rw [h, h']
    dsimp only
    rw [hi, hk, ha]
    split
    · refine Alike.bind (alike_write fun c c' hc => ?_) fun _ _ _ => ?_
      · exact congrArg₂ (fun (c : Builder) fs => { c with frames := fs }) hc hfs
      refine Alike.bind (alike_look fun c c' hc => ?_) fun p p' hp => alike_deliver hp
      have hg : c.config = c'.config := (congrArg Builder.config hc :)
      rw [hg, mask_frame_close hρ, hf, ← mask_frame_close hρ']
    · split
      · exact alike_throw _
      · exact alike_throw _

end Change

theorem Builder.close_alike {ρ ρ' : VarId → VarId} (hρ : Function.Injective ρ)
    (hρ' : Function.Injective ρ') {b b' : Builder} (hb : mask ρ b = mask ρ' b') (id : Nat)
    (kind : ScopeKind) : mask ρ (b.close id kind) = mask ρ' (b'.close id kind) := by
  rw [close, close]
  obtain ⟨e, e', c, c', h, h', he, hc⟩ | ⟨a, a', c, c', h, h', ha, hc⟩ :=
    result_alike (Change.alike_close hρ hρ' id kind b b' hb)
  · rw [h, h']
    refine congrArg₂ Prod.mk (congrArg Except.error he) ?_
    exact alike_of_mask₂ hc he fun _ => record_mask
  · rw [h, h']
    exact congrArg₂ Prod.mk rfl hc

theorem Builder.finish_alike {ρ ρ' : VarId → VarId} {b b' : Builder}
    (hb : mask ρ b = mask ρ' b') : mask ρ b.finish = mask ρ' b'.finish := by
  have he : mask ρ b.firstError = mask ρ' b'.firstError := congrArg Builder.firstError hb
  have hr : mask ρ b.result = mask ρ' b'.result := congrArg Builder.result hb
  have hf : mask ρ b.frames = mask ρ' b'.frames := congrArg Builder.frames hb
  have hk : b.openKinds = b'.openKinds := same_of_mask hb fun _ b => b.openKinds_mask
  have hn : b.frames.isEmpty = b'.frames.isEmpty := same_of_mask hf isEmpty_mask
  rw [finish, finish]
  obtain ⟨h, h'⟩ | ⟨e, e', h, h', he⟩ := option_alike he
  · rw [h, h']
    dsimp only
    rw [hn, hk]
    split
    · obtain ⟨h, h'⟩ | ⟨r, r', h, h', hr⟩ := option_alike hr
      · rw [h, h']
        exact congrArg (Prod.mk _) hb
      · rw [h, h']
        exact congrArg₂ Prod.mk (congrArg Except.ok hr)
          (congrArg (fun b : Builder => { b with result := none, firstError := none }) hb)
    · exact congrArg (Prod.mk _) hb
  · rw [h, h']
    exact congrArg₂ Prod.mk (congrArg Except.error he)
      (congrArg (fun b : Builder => { b with firstError := none }) hb)

/-! Operations on a builder. -/

namespace Edit

variable {α β : Type} [Masked α] [Masked β] (ρ ρ' : VarId → VarId)

/-- On alike builders and supplies the two come to alike results, and leave alike builders and
supplies. -/
def Alike (x x' : Edit α) : Prop :=
  ∀ p p' : Builder × Supply, mask ρ p = mask ρ' p' →
    mask (α := Except Failure α × Builder × Supply) ρ (x p) =
      mask (α := Except Failure α × Builder × Supply) ρ' (x' p')

variable {ρ ρ'}

theorem alike_pure {a a' : α} (h : mask ρ a = mask ρ' a') :
    Alike ρ ρ' (pure a) (pure a') := by
  intro p p' hp
  exact congrArg₂ Prod.mk (congrArg Except.ok h) hp

theorem Alike.bind {x x' : Edit α} {f f' : α → Edit β} (hx : Alike ρ ρ' x x')
    (hf : ∀ a a', mask ρ a = mask ρ' a' → Alike ρ ρ' (f a) (f' a')) :
    Alike ρ ρ' (x >>= f) (x' >>= f') := by
  intro p p' hp
  rw [bind_inPlace, bind_inPlace]
  obtain ⟨e, e', q, q', h, h', he, hq⟩ | ⟨a, a', q, q', h, h', ha, hq⟩ := result_alike (hx p p' hp)
  · rw [h, h']
    exact congrArg₂ Prod.mk (congrArg Except.error he) hq
  · rw [h, h']
    exact hf a a' ha q q' hq

theorem alike_get : Alike ρ ρ' get get := by
  intro p p' hp
  exact congrArg₂ Prod.mk (congrArg Except.ok hp) hp

theorem alike_refuse {e e' : BuildError} (h : mask ρ e = mask ρ' e') :
    Alike ρ ρ' (refuse e : Edit α) (refuse e') := by
  intro p p' hp
  exact congrArg₂ Prod.mk (congrArg (Except.error ∘ Failure.refused) h) hp

theorem alike_attempt {x x' : Builder → Attempt α}
    (hx : ∀ b b', mask ρ b = mask ρ' b' → Attempt.Alike ρ ρ' (x b) (x' b')) :
    Alike ρ ρ' (attempt x) (attempt x') := by
  rintro ⟨b, s⟩ ⟨b', s'⟩ hp
  obtain ⟨hb, hs⟩ := Prod.mk.inj hp
  rw [attempt_apply, attempt_apply]
  obtain ⟨e, e', h, h', he⟩ | ⟨r, r', h, h', hr⟩ := except_alike (hx b b' hb s s' hs)
  · rw [h, h']
    exact congrArg₂ Prod.mk (congrArg Except.error he) hp
  · rw [h, h']
    obtain ⟨ha, hs⟩ := Prod.mk.inj hr
    exact congrArg₂ Prod.mk (congrArg Except.ok ha) (congrArg₂ Prod.mk hb hs)

theorem alike_fresh (name name' : String) (d : DataType) :
    Alike ρ ρ' (fresh name d) (fresh name' d) :=
  alike_attempt fun _ _ _ => Attempt.alike_fresh name name' d

theorem alike_change {x x' : Change α} (hx : Change.Alike ρ ρ' x x') :
    Alike ρ ρ' (change x) (change x') := by
  rintro ⟨b, s⟩ ⟨b', s'⟩ hp
  obtain ⟨hb, hs⟩ := Prod.mk.inj hp
  rw [change, change]
  obtain ⟨e, e', c, c', h, h', he, hc⟩ | ⟨a, a', c, c', h, h', ha, hc⟩ := result_alike (hx b b' hb)
  · rw [h, h']
    exact congrArg₂ Prod.mk (congrArg (Except.error ∘ Failure.refused) he)
      (congrArg₂ Prod.mk hc hs)
  · rw [h, h']
    exact congrArg₂ Prod.mk (congrArg Except.ok ha) (congrArg₂ Prod.mk hc hs)

theorem alike_look {f f' : Builder → Except BuildError α}
    (hf : ∀ b b', mask ρ b = mask ρ' b' → mask ρ (f b) = mask ρ' (f' b')) :
    Alike ρ ρ' (look f) (look f') :=
  alike_change (Change.alike_look hf)

theorem alike_write {f f' : Builder → Builder}
    (hf : ∀ b b', mask ρ b = mask ρ' b' → mask ρ (f b) = mask ρ' (f' b')) :
    Alike ρ ρ' (write f) (write f') :=
  alike_change (Change.alike_write hf)

end Edit

end TensorProgram
