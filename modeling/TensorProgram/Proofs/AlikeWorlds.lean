import TensorProgram.Proofs.AlikeCalls

/-!
Worlds side by side. In worlds that are alike a session is entered, worked on and ended alike: which
session is live on a thread does not hang on identities, and what is done to it is done by alike
operations.
-/

namespace TensorProgram

open Masked

instance : Masked Guard := ⟨fun _ g => g⟩

instance : Masked World where
  mask ρ w := { w with supply := mask ρ w.supply, builder := fun id => mask ρ (w.builder id) }

section

variable {ρ ρ' : VarId → VarId}

namespace Builder

variable {b b' : Builder} (hb : mask ρ b = mask ρ' b') {s s' : Supply}
  (hs : mask ρ s = mask ρ' s')

include hb hs

theorem edit_alike {α : Type} [Masked α] {x x' : Edit α} (hx : x.Alike ρ ρ' x') :
    mask ρ (b.edit s x) = mask ρ' (b'.edit s' x') := by
  rw [edit, edit]
  obtain ⟨f, f', ⟨c, u⟩, ⟨c', u'⟩, h, h', hf, hcu⟩ | ⟨a, a', c, c', h, h', ha, hc⟩ :=
    result_alike (hx (b, s) (b', s') (congrArg₂ Prod.mk hb hs))
  · obtain ⟨hc, hu⟩ := Prod.mk.inj hcu
    rw [h, h']
    cases f with
    | refused e =>
        cases f' with
        | overflow o => cases hf
        | refused e' =>
            have he : mask ρ e = mask ρ' e' := Failure.refused.inj hf
            refine congrArg₂ Prod.mk (congrArg Except.error hf) (congrArg₂ Prod.mk ?_ hu)
            exact alike_of_mask₂ hc he fun _ => record_mask
    | overflow o =>
        cases f' with
        | refused e' => cases hf
        | overflow o' => exact congrArg₂ Prod.mk (congrArg Except.error hf) hcu
  · rw [h, h']
    exact congrArg₂ Prod.mk (congrArg Except.ok ha) hc

theorem openScope_alike (hρ : Function.Injective ρ) (hρ' : Function.Injective ρ')
    {o o' : Opening} (ho : o.Alike ρ ρ' o') :
    mask ρ (b.openScope s o) = mask ρ' (b'.openScope s' o') := by
  apply edit_alike hb hs
  refine .bind (Edit.alike_attempt fun _ _ hb => ho.scope hρ hρ' hb) ?_
  rintro ⟨x, v⟩ ⟨x', v'⟩ hx
  obtain ⟨hx, hv⟩ := Prod.mk.inj hx
  have hk : x.kind = x'.kind := same_of_mask hx Scope.kind_mask
  refine .bind Edit.alike_get fun p p' hp => ?_
  have hn : p.1.nextId = p'.1.nextId := (congrArg (fun p : Builder × Supply => p.1.nextId) hp :)
  refine .bind (Edit.alike_write fun c c' hc => ?_) fun _ _ _ => ?_
  · rw [← push_mask, hc, hx, push_mask]
  · rw [hk, hn]
    exact Edit.alike_pure (congrArg (fun v => (p'.1.nextId, x'.kind, v)) hv)

theorem call_alike (hρ : Function.Injective ρ) (hρ' : Function.Injective ρ') {c c' : Call}
    (hc : c.Alike ρ ρ' c') : mask ρ (b.call s c) = mask ρ' (b'.call s' c') :=
  edit_alike hb hs (hc.run hρ hρ')

end Builder

namespace World

variable {w w' : World} (hw : mask ρ w = mask ρ' w')

theorem update_alike {f f' : SessionId → Builder}
    (hf : ∀ id, mask ρ (f id) = mask ρ' (f' id)) (id : SessionId) {b b' : Builder}
    (hb : mask ρ b = mask ρ' b') (i : SessionId) :
    mask ρ (update f id b i) = mask ρ' (update f' id b' i) := by
  rw [update, update]
  split
  · exact hb
  · exact hf i

include hw

theorem builder_alike (id : SessionId) : mask ρ (w.builder id) = mask ρ' (w'.builder id) :=
  congrFun (congrArg World.builder hw) id

theorem with_alike {s s' : Supply} (hs : mask ρ s = mask ρ' s') {f f' : SessionId → Builder}
    (hf : ∀ id, mask ρ (f id) = mask ρ' (f' id)) :
    mask ρ { w with supply := s, builder := f } =
      mask ρ' { w' with supply := s', builder := f' } := by
  have he : w.entered = w'.entered := (congrArg World.entered hw :)
  have hl : w.live = w'.live := (congrArg World.live hw :)
  change World.mk (mask ρ s) w.entered (fun id => mask ρ (f id)) w.live = _
  rw [hs, he, hl, funext hf]
  rfl

theorem onBuilder_alike {α : Type} [Masked α] (t : ThreadId) (op : String) {u u' : Supply}
    (hu : mask ρ u = mask ρ' u')
    {act act' : SessionId → Builder → Supply → Except Failure α × Builder × Supply}
    (hact : ∀ id b b' s s', mask ρ b = mask ρ' b' → mask ρ s = mask ρ' s' →
      mask ρ (act id b s) = mask ρ' (act' id b' s')) :
    mask ρ (w.onBuilder t op u act) = mask ρ' (w'.onBuilder t op u' act') := by
  have hl : w.live = w'.live := (congrArg World.live hw :)
  have hs : mask ρ w.supply = mask ρ' w'.supply := congrArg World.supply hw
  have hc : w.current t op = w'.current t op := by rw [current, current, hl]
  rw [onBuilder, onBuilder, hc]
  cases w'.current t op with
  | error e => exact congrArg (Prod.mk _) (with_alike hw hu (builder_alike hw))
  | ok id =>
      obtain ⟨hr, hbs⟩ := Prod.mk.inj (hact id _ _ _ _ (builder_alike hw id) hs)
      obtain ⟨hb, hs⟩ := Prod.mk.inj hbs
      exact congrArg₂ Prod.mk hr (with_alike hw hs (update_alike (builder_alike hw) id hb))

theorem enter_alike (t : ThreadId) (c : Config) :
    mask ρ (w.enter t c) = mask ρ' (w'.enter t c) := by
  have he : w.entered = w'.entered := (congrArg World.entered hw :)
  have hl : w.live = w'.live := (congrArg World.live hw :)
  have hb := update_alike (builder_alike hw) w'.entered (rfl : mask ρ { config := c } = mask ρ' _)
  rw [enter, enter, hl]
  cases w'.live t with
  | some id => exact congrArg (Prod.mk _) hw
  | none =>
      rw [he]
      refine congrArg (Prod.mk _) ?_
      have hs : mask ρ w.supply = mask ρ' w'.supply := congrArg World.supply hw
      change World.mk _ _ _ _ = World.mk _ _ _ _
      rw [hs, funext hb]

theorem openScope_alike (hρ : Function.Injective ρ) (hρ' : Function.Injective ρ') (t : ThreadId)
    {o o' : Opening} (ho : o.Alike ρ ρ' o') :
    mask ρ (w.openScope t o) = mask ρ' (w'.openScope t o') := by
  have hop : o.op = o'.op := by cases ho <;> rfl
  rw [openScope, openScope, hop]
  apply onBuilder_alike hw _ _ (congrArg World.supply hw)
  intro id b b' s s' hb hs
  obtain ⟨hr, hbs⟩ := Prod.mk.inj (Builder.openScope_alike hb hs hρ hρ' ho)
  refine congrArg₂ Prod.mk ?_ hbs
  obtain ⟨e, e', h, h', he⟩ | ⟨⟨i, k, v⟩, ⟨i', k', v'⟩, h, h', hv⟩ := except_alike hr
  · rw [h, h']
    exact congrArg Except.error he
  · rw [h, h']
    exact congrArg (fun r : Nat × ScopeKind × Value => Except.ok (Guard.mk id r.1 r.2.1, r.2.2)) hv

theorem call_alike (hρ : Function.Injective ρ) (hρ' : Function.Injective ρ') (t : ThreadId)
    {c c' : Call} (hc : c.Alike ρ ρ' c') :
    mask ρ (w.call t c) = mask ρ' (w'.call t c') := by
  have hop : c.op = c'.op := by cases hc <;> rfl
  rw [call, call, hop]
  apply onBuilder_alike hw _ _ (hc.unserved (congrArg World.supply hw))
  intro _ b b' s s' hb hs
  exact Builder.call_alike hb hs hρ hρ' hc

theorem close_alike (hρ : Function.Injective ρ) (hρ' : Function.Injective ρ') (g : Guard) :
    mask ρ (w.close g) = mask ρ' (w'.close g) := by
  have h := Builder.close_alike hρ hρ' (builder_alike hw g.session) g.frame g.kind
  have hs : mask ρ w.supply = mask ρ' w'.supply := congrArg World.supply hw
  obtain ⟨hr, hb⟩ := Prod.mk.inj h
  exact congrArg₂ Prod.mk hr (with_alike hw hs (update_alike (builder_alike hw) g.session hb))

theorem leave_alike (id : SessionId) : mask ρ (w.leave id) = mask ρ' (w'.leave id) :=
  congrArg (fun w : World => w.leave id) hw

theorem finish_alike (id : SessionId) : mask ρ (w.finish id) = mask ρ' (w'.finish id) := by
  have hs : mask ρ w.supply = mask ρ' w'.supply := congrArg World.supply hw
  obtain ⟨hr, hb⟩ := Prod.mk.inj (Builder.finish_alike (builder_alike hw id))
  exact congrArg₂ Prod.mk hr
    (leave_alike (with_alike hw hs (update_alike (builder_alike hw) id hb)) id)

theorem mint_alike {α : Type} [Masked α] {f f' : Supply → α × Supply}
    (hf : ∀ s s', mask ρ s = mask ρ' s' → mask ρ (f s) = mask ρ' (f' s')) :
    mask ρ (w.mint f) = mask ρ' (w'.mint f') := by
  have hs : mask ρ w.supply = mask ρ' w'.supply := congrArg World.supply hw
  obtain ⟨ha, hs⟩ := Prod.mk.inj (hf _ _ hs)
  exact congrArg₂ Prod.mk ha (with_alike hw hs (builder_alike hw))

theorem declare_alike {es es' : List Expr} (hes : mask ρ es = mask ρ' es') (d : DataType)
    {o o' : BufferOptions} (ho : mask ρ o = mask ρ' o') :
    mask ρ (w.declare es d o) = mask ρ' (w'.declare es' d o') := by
  have hs : mask ρ w.supply = mask ρ' w'.supply := congrArg World.supply hw
  have h := Attempt.alike_declare hes d ho w.supply w'.supply hs
  rw [Attempt.declare_apply, Attempt.declare_apply] at h
  rw [declare, declare]
  cases hd : Buffer.declare es d o w.supply with
  | error e =>
      cases hd' : Buffer.declare es' d o' w'.supply with
      | error e' =>
          rw [hd, hd'] at h
          have he : mask ρ e = mask ρ' e' := Failure.refused.inj (Except.error.inj h)
          exact congrArg₂ Prod.mk (congrArg Except.error he) hw
      | ok r' =>
          rw [hd, hd'] at h
          cases h
  | ok r =>
      cases hd' : Buffer.declare es' d o' w'.supply with
      | error e' =>
          rw [hd, hd'] at h
          cases h
      | ok r' =>
          rw [hd, hd'] at h
          obtain ⟨hb, hs⟩ := Prod.mk.inj (Except.ok.inj h)
          exact congrArg₂ Prod.mk (congrArg Except.ok hb) (with_alike hw hs (builder_alike hw))

end World

end

end TensorProgram
