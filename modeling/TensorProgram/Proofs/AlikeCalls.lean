import TensorProgram.Proofs.Alike

/-!
Openings and calls side by side. An opening or a call is alike another one when it is the same
but for arguments that are alike.
-/

namespace TensorProgram

open Masked

/-- One opening with alike arguments. -/
inductive Opening.Alike (ρ ρ' : VarId → VarId) : Opening → Opening → Prop
  | primFunc : Alike ρ ρ' .primFunc .primFunc
  | block (name : String) (bare : Bool) : Alike ρ ρ' (.block name bare) (.block name bare)
  | blockInit : Alike ρ ρ' .blockInit .blockInit
  | loop (mode : LoopMode) {start start' stop stop' : Expr} {m m' : Option Annotations}
      (hstart : mask ρ start = mask ρ' start') (hstop : mask ρ stop = mask ρ' stop')
      (hm : mask ρ m = mask ρ' m') :
      Alike ρ ρ' (.loop mode start stop m) (.loop mode start' stop' m')
  | grid {es es' : List Expr} (hes : mask ρ es = mask ρ' es') : Alike ρ ρ' (.grid es) (.grid es')
  | branch {c c' : Expr} (hc : mask ρ c = mask ρ' c') : Alike ρ ρ' (.branch c) (.branch c')
  | thenCase : Alike ρ ρ' .thenCase .thenCase
  | elseCase : Alike ρ ρ' .elseCase .elseCase
  | whileLoop {c c' : Expr} (hc : mask ρ c = mask ρ' c') :
      Alike ρ ρ' (.whileLoop c) (.whileLoop c')
  | bind {v v' : Var} {e e' : Expr} (hv : mask ρ v = mask ρ' v') (he : mask ρ e = mask ρ' e') :
      Alike ρ ρ' (.bind v e) (.bind v' e')
  | allocate (d : DataType) (scope : String) {es es' : List Expr} {c c' : Option Expr}
      {m m' : Option Annotations} (hes : mask ρ es = mask ρ' es') (hc : mask ρ c = mask ρ' c')
      (hm : mask ρ m = mask ρ' m') :
      Alike ρ ρ' (.allocate es d scope c m) (.allocate es' d scope c' m')
  | allocateConst (data : ConstantData) (d : DataType) {es es' : List Expr}
      {m m' : Option Annotations} (hes : mask ρ es = mask ρ' es') (hm : mask ρ m = mask ρ' m') :
      Alike ρ ρ' (.allocateConst data d es m) (.allocateConst data d es' m')
  | attr (key : String) {n n' : AttrNode} {e e' : Expr} (hn : mask ρ n = mask ρ' n')
      (he : mask ρ e = mask ρ' e') : Alike ρ ρ' (.attr n key e) (.attr n' key e')
  | assert (message : String) {c c' : Expr} (hc : mask ρ c = mask ρ' c') :
      Alike ρ ρ' (.assert c message) (.assert c' message)
  | launchThread {v v' : Var} {e e' : Expr} (hv : mask ρ v = mask ρ' v')
      (he : mask ρ e = mask ρ' e') : Alike ρ ρ' (.launchThread v e) (.launchThread v' e')
  | realize (scope : String) {r r' : Region} {c c' : Option Expr} (hr : mask ρ r = mask ρ' r')
      (hc : mask ρ c = mask ρ' c') : Alike ρ ρ' (.realize r scope c) (.realize r' scope c')

namespace Opening

section

variable {ρ : VarId → VarId}

theorem checkFunc_mask (b : Builder) : checkFunc (mask ρ b) = checkFunc b := by
  have hr : (mask ρ b).result.isSome = b.result.isSome := isSome_mask ρ b.result
  rw [checkFunc, checkFunc, Builder.topKind?_mask, hr]

theorem checkInit_mask (b : Builder) : checkInit (mask ρ b) = checkInit b := by
  rw [checkInit, checkInit, Builder.topBlock_mask]
  cases b.topBlock "init" with
  | error e => rfl
  | ok x =>
      have hx : (mask ρ x).init.isSome = x.init.isSome := isSome_mask ρ x.init
      change (if (mask ρ x).init.isSome then _ else _) = if x.init.isSome then _ else _
      rw [hx]

theorem checkThen_mask (b : Builder) : checkThen (mask ρ b) = checkThen b := by
  rw [checkThen, checkThen, Builder.top?_mask (Scope.branch?_mask ρ)]
  cases b.top? Scope.branch? with
  | none => rfl
  | some i =>
      have hi : (mask ρ i).thenCase.isSome = i.thenCase.isSome := isSome_mask ρ i.thenCase
      rw [mask_some]
      dsimp only
      rw [hi]

theorem checkElse_mask (b : Builder) : checkElse (mask ρ b) = checkElse b := by
  rw [checkElse, checkElse, Builder.top?_mask (Scope.branch?_mask ρ)]
  cases b.top? Scope.branch? with
  | none => rfl
  | some i =>
      have ht : (mask ρ i).thenCase.isNone = i.thenCase.isNone := by
        cases h : i.thenCase <;> simp [mask, h]
      have he : (mask ρ i).elseCase.isSome = i.elseCase.isSome := isSome_mask ρ i.elseCase
      rw [mask_some]
      dsimp only
      rw [ht, he]

theorem checkRealize_mask (hρ : Function.Injective ρ) (b : Builder) (r : Region) :
    checkRealize (mask ρ b) (mask ρ r) = checkRealize b r := by
  have hb : (mask ρ r).buffer = mask ρ r.buffer := rfl
  have hr : (mask ρ r).ranges.length = r.ranges.length := length_mask ρ r.ranges
  rw [checkRealize, checkRealize, hb, hr, Buffer.rank_mask, Buffer.name_mask,
    Builder.declares_mask hρ]

end

section

variable {ρ ρ' : VarId → VarId}

theorem registeredThread_alike (hρ : Function.Injective ρ) (hρ' : Function.Injective ρ')
    {b b' : Builder} (hb : mask ρ b = mask ρ' b') {v v' : Var} (hv : mask ρ v = mask ρ' v') :
    mask ρ (registeredThread b v) = mask ρ' (registeredThread b' v') := by
  have hn : mask ρ b.nearestFunc? = mask ρ' b'.nearestFunc? :=
    alike_of_mask hb fun _ b => b.nearestFunc?_mask
  rw [registeredThread, registeredThread]
  obtain ⟨h, h'⟩ | ⟨f, f', h, h', hf⟩ := option_alike hn
  · rw [h, h']
    rfl
  · have ht : mask ρ f.threads = mask ρ' f'.threads := congrArg FuncScope.threads hf
    have hg : mask ρ (f.threads.get? v) = mask ρ' (f'.threads.get? v') :=
      OrderedMap.get?_alike hρ hρ' ht hv
    rw [h, h']
    dsimp only
    obtain ⟨h, h'⟩ | ⟨t, t', h, h', ht⟩ := option_alike hg
    · rw [h, h']
      rfl
    · rw [h, h']
      exact congrArg Except.ok ht

theorem singleLoop_alike {b b' : Builder} (hb : mask ρ b = mask ρ' b') (mode : LoopMode)
    {start start' stop stop' : Expr} (hstart : mask ρ start = mask ρ' start')
    (hstop : mask ρ stop = mask ρ' stop') {m m' : Annotations} (hm : mask ρ m = mask ρ' m') :
    Attempt.Alike ρ ρ' (singleLoop b mode start stop m) (singleLoop b' mode start' stop' m') := by
  have hc : b.config = b'.config := (congrArg Builder.config hb :)
  have hd : b.config.loopType start stop = b'.config.loopType start' stop' := by
    rw [hc, ← Config.loopType_mask ρ, hstart, hstop, Config.loopType_mask]
  have hk : checkBounds mode.op start stop = checkBounds mode.op start' stop' := by
    rw [← checkBounds_mask ρ, hstart, hstop, checkBounds_mask]
  have hi (d : DataType) : mask ρ (start.asIndex d) = mask ρ' (start'.asIndex d) :=
    Expr.asIndex_alike d hstart
  have he (d : DataType) : mask ρ (stop.asIndex d) = mask ρ' (stop'.asIndex d) :=
    Expr.asIndex_alike d hstop
  rw [singleLoop, singleLoop, hd, hk]
  refine .bind (Attempt.alike_guard _) fun _ _ _ => ?_
  have hn (d : DataType) := folded_alike (he d) (hi d) Expr.subFolded_mask
  refine .bind (Attempt.alike_exact (hn _)) fun x x' hx => ?_
  refine .bind (Attempt.alike_fresh "i" "i" _) fun v v' hv => ?_
  have hr (d : DataType) : mask ρ (⟨start.asIndex d, x⟩ : Range) = mask ρ' ⟨start'.asIndex d, x'⟩ :=
    congrArg₂ Range.mk (hi d) hx
  refine Attempt.alike_pure (congrArg₂ Prod.mk hv (congrArg Head.loop ?_))
  rw [← Loop.over_mask, hv, hr, hm, Loop.over_mask]

theorem gridLoop_alike {b b' : Builder} (hb : mask ρ b = mask ρ' b') (k : Nat) {e e' : Expr}
    (he : mask ρ e = mask ρ' e') : Attempt.Alike ρ ρ' (gridLoop b k e) (gridLoop b' k e') := by
  have hc : b.config = b'.config := (congrArg Builder.config hb :)
  have hd : b.config.loopType (.int32 0) e = b'.config.loopType (.int32 0) e' := by
    have hd := b.config.loopType_mask ρ (.int32 0) e
    rw [he] at hd
    rw [← hd, hc]
    exact b'.config.loopType_mask ρ' (.int32 0) e'
  have hx (d : DataType) : mask ρ (⟨.int 0 d, e.asIndex d⟩ : Range) =
      mask ρ' ⟨.int 0 d, e'.asIndex d⟩ := by
    exact congrArg (Range.mk (.int 0 d)) (Expr.asIndex_alike d he)
  rw [gridLoop, gridLoop, hd]
  refine .bind (Attempt.alike_fresh _ _ _) fun v v' hv => ?_
  refine Attempt.alike_pure (congrArg₂ Prod.mk hv (congrArg Head.loop ?_))
  rw [← Loop.over_mask, ← Loop.over_mask, hv, hx]
  rfl

theorem gridLoops_alike {b b' : Builder} (hb : mask ρ b = mask ρ' b') (k : Nat)
    {es es' : List Expr} (hes : mask ρ es = mask ρ' es') :
    Attempt.Alike ρ ρ' (gridLoops b k es) (gridLoops b' k es') := by
  induction es generalizing k es' with
  | nil =>
      cases es' with
      | nil => exact Attempt.alike_pure rfl
      | cons e' es' => cases hes
  | cons e es ih =>
      cases es' with
      | nil => cases hes
      | cons e' es' =>
          obtain ⟨he, hes⟩ := List.cons.inj hes
          refine .bind (gridLoop_alike hb k he) fun l l' hl => ?_
          refine .bind (ih (k + 1) hes) fun ls ls' hls => ?_
          exact Attempt.alike_pure (congrArg₂ List.cons hl hls)

theorem allocation_alike {es es' : List Expr} (hes : mask ρ es = mask ρ' es') (d : DataType)
    (scope : String) : Attempt.Alike ρ ρ' (allocation es d scope) (allocation es' d scope) :=
  Attempt.alike_declare hes d rfl

theorem wrapping_alike (kind : WrapKind) {hs hs' : List Head} (hh : mask ρ hs = mask ρ' hs')
    {v v' : Value} (hv : mask ρ v = mask ρ' v') :
    mask ρ (wrapping kind hs v) = mask ρ' (wrapping kind hs' v') :=
  congrArg₂ Prod.mk (congrArg (fun hs => Scope.wrap { kind, heads := hs }) hh) hv

theorem storageScopeOr_alike {b b' : Builder} (hb : mask ρ b = mask ρ' b') (given : String) :
    b.storageScopeOr given = b'.storageScopeOr given := by
  rw [← Builder.storageScopeOr_mask, hb, Builder.storageScopeOr_mask]

theorem scope_allocate_alike {b b' : Builder} (hb : mask ρ b = mask ρ' b') (d : DataType)
    (scope : String) {es es' : List Expr} (hes : mask ρ es = mask ρ' es') {c c' : Option Expr}
    (hc : mask ρ c = mask ρ' c') {m m' : Option Annotations} (hm : mask ρ m = mask ρ' m') :
    Attempt.Alike ρ ρ' ((Opening.allocate es d scope c m).scope b)
      ((Opening.allocate es' d scope c' m').scope b') := by
  have hc : mask ρ (c.getD (.bool true)) = mask ρ' (c'.getD (.bool true)) := getD_alike hc rfl
  have hm : mask ρ (m.getD ∅) = mask ρ' (m'.getD ∅) := getD_alike hm rfl
  have he := congrArg List.isEmpty hes
  rw [isEmpty_mask, isEmpty_mask] at he
  rw [Opening.scope, Opening.scope, he, storageScopeOr_alike hb]
  split
  · exact Attempt.alike_refuse rfl
  · apply Attempt.Alike.bind (allocation_alike hes d _)
    intro x x' hx
    have hh : mask ρ (Head.allocate x.data x.dtype es (c.getD (.bool true)) (m.getD ∅)) =
        mask ρ' (Head.allocate x'.data x'.dtype es' (c'.getD (.bool true)) (m'.getD ∅)) := by
      rw [mask_head_allocate, mask_head_allocate, Buffer.data_alike hx, Buffer.dtype_alike hx,
        hes, hc, hm]
    exact Attempt.alike_pure (congrArg₂ (fun h x => (Scope.wrap ⟨.allocate, [h], some x⟩,
      Value.buffer x)) hh hx)

theorem scope_allocateConst_alike {b b' : Builder} (hb : mask ρ b = mask ρ' b')
    (data : ConstantData) (d : DataType) {es es' : List Expr} (hes : mask ρ es = mask ρ' es')
    {m m' : Option Annotations} (hm : mask ρ m = mask ρ' m') :
    Attempt.Alike ρ ρ' ((Opening.allocateConst data d es m).scope b)
      ((Opening.allocateConst data d es' m').scope b') := by
  have hc : b.config = b'.config := (congrArg Builder.config hb :)
  have hm : mask ρ (m.getD ∅) = mask ρ' (m'.getD ∅) := getD_alike hm rfl
  have hk := data.check_mask ρ d es
  rw [hes, ConstantData.check_mask] at hk
  rw [Opening.scope, Opening.scope, ← hk, hc]
  apply Attempt.Alike.bind (Attempt.alike_guard _)
  intro _ _ _
  apply Attempt.Alike.bind (allocation_alike hes d _)
  intro x x' hx
  have hh : mask ρ (Head.allocateConst x.data x.dtype es data (m.getD ∅)) =
      mask ρ' (Head.allocateConst x'.data x'.dtype es' data (m'.getD ∅)) := by
    rw [mask_head_allocateConst, mask_head_allocateConst, Buffer.data_alike hx,
      Buffer.dtype_alike hx, hes, hm]
  exact Attempt.alike_pure (congrArg₂ (fun h x => (Scope.wrap ⟨.allocateConst, [h], some x⟩,
    Value.buffer x)) hh hx)

theorem scope_launchThread_alike (hρ : Function.Injective ρ) (hρ' : Function.Injective ρ')
    {b b' : Builder} (hb : mask ρ b = mask ρ' b') {v v' : Var} (hv : mask ρ v = mask ρ' v')
    {e e' : Expr} (he : mask ρ e = mask ρ' e') :
    Attempt.Alike ρ ρ' ((Opening.launchThread v e).scope b)
      ((Opening.launchThread v' e').scope b') := by
  apply Attempt.Alike.bind (Attempt.alike_check (registeredThread_alike hρ hρ' hb hv))
  intro t t' ht
  have hv : mask ρ t.var = mask ρ' t'.var := congrArg IterVar.var ht
  have hd : t.var.dtype = t'.var.dtype := (congrArg Var.dtype hv :)
  refine Attempt.alike_pure (wrapping_alike .launchThread ?_ (congrArg Value.var hv))
  rw [hd]
  exact congrArg₂ (fun t e => [Head.attr (.iterVar ⟨some ⟨.int 0 t'.var.dtype, e⟩, t.var,
    t.kind, t.tag⟩) "thread_extent" e]) ht he

theorem scope_realize_alike (hρ : Function.Injective ρ) (hρ' : Function.Injective ρ')
    {b b' : Builder} (hb : mask ρ b = mask ρ' b') (scope : String) {r r' : Region}
    (hr : mask ρ r = mask ρ' r') {c c' : Option Expr} (hc : mask ρ c = mask ρ' c') :
    Attempt.Alike ρ ρ' ((Opening.realize r scope c).scope b)
      ((Opening.realize r' scope c').scope b') := by
  have hk : checkRealize b r = checkRealize b' r' := by
    rw [← checkRealize_mask hρ, hb, hr, checkRealize_mask hρ']
  rw [Opening.scope, Opening.scope, hk, storageScopeOr_alike hb]
  apply Attempt.Alike.bind (Attempt.alike_guard _)
  intro _ _ _
  have hx : mask ρ r.buffer = mask ρ' r'.buffer := congrArg Region.buffer hr
  have hp := congrArg (fun v => Head.attr (.var v) "realize_scope"
    (.str (b'.storageScopeOr scope))) (Buffer.data_alike hx)
  exact Attempt.alike_pure (wrapping_alike .realize
    (congrArg₂ List.cons hp (congrArg₂ (fun r c => [Head.realize r c]) hr (getD_alike hc rfl)))
    rfl)

/-- Alike openings of alike builders make alike scopes. -/
theorem Alike.scope (hρ : Function.Injective ρ) (hρ' : Function.Injective ρ') {b b' : Builder}
    (hb : mask ρ b = mask ρ' b') {o o' : Opening} (ho : o.Alike ρ ρ' o') :
    Attempt.Alike ρ ρ' (o.scope b) (o'.scope b') := by
  cases ho with
  | primFunc => exact Attempt.alike_checked (same_of_mask hb fun _ => checkFunc_mask) rfl
  | block name bare => exact Attempt.alike_pure rfl
  | blockInit => exact Attempt.alike_checked (same_of_mask hb fun _ => checkInit_mask) rfl
  | loop mode hstart hstop hm =>
      apply Attempt.Alike.bind (singleLoop_alike hb mode hstart hstop (getD_alike hm rfl))
      rintro ⟨v, h⟩ ⟨v', h'⟩ hl
      obtain ⟨hv, hh⟩ := Prod.mk.inj hl
      exact Attempt.alike_pure (wrapping_alike .loops (congrArg (List.cons · []) hh)
        (congrArg Value.var hv))
  | grid hes =>
      apply Attempt.Alike.bind (gridLoops_alike hb 0 hes)
      intro ls ls' hls
      have hf : mask ρ (ls.map Prod.fst) = mask ρ' (ls'.map Prod.fst) :=
        alike_of_mask hls map_fst_mask
      have hh : mask ρ (ls.map Prod.snd) = mask ρ' (ls'.map Prod.snd) :=
        alike_of_mask hls map_snd_mask
      exact Attempt.alike_pure (wrapping_alike .loops hh (congrArg Value.vars hf))
  | branch hc =>
      exact Attempt.alike_pure
        (congrArg (fun c => (Scope.branch { condition := c }, Value.unit)) hc)
  | thenCase => exact Attempt.alike_checked (same_of_mask hb fun _ => checkThen_mask) rfl
  | elseCase => exact Attempt.alike_checked (same_of_mask hb fun _ => checkElse_mask) rfl
  | whileLoop hc =>
      exact Attempt.alike_pure (wrapping_alike .whileLoop
        (congrArg (fun c => [Head.whileLoop c]) hc) rfl)
  | bind hv he =>
      exact Attempt.alike_pure (wrapping_alike .bind (congrArg₂ (fun v e => [Head.bind v e]) hv he)
        (congrArg Value.var hv))
  | allocate d scope hes hc hm => exact scope_allocate_alike hb d scope hes hc hm
  | allocateConst data d hes hm => exact scope_allocateConst_alike hb data d hes hm
  | attr key hn he =>
      exact Attempt.alike_pure (wrapping_alike .attr
        (congrArg₂ (fun n e => [Head.attr n key e]) hn he) rfl)
  | assert message hc =>
      exact Attempt.alike_pure (wrapping_alike .assert
        (congrArg (fun c => [Head.assert c (.str message)]) hc) rfl)
  | launchThread hv he => exact scope_launchThread_alike hρ hρ' hb hv he
  | realize scope hr hc => exact scope_realize_alike hρ hρ' hb scope hr hc

end

end Opening

/-- One call with alike arguments. -/
inductive Call.Alike (ρ ρ' : VarId → VarId) : Call → Call → Prop
  | guard {e e' : Expr} (he : mask ρ e = mask ρ' e') : Alike ρ ρ' (.guard e) (.guard e')
  | reads {rs rs' : List Region} (hrs : mask ρ rs = mask ρ' rs') :
      Alike ρ ρ' (.reads rs) (.reads rs')
  | writes {rs rs' : List Region} (hrs : mask ρ rs = mask ρ' rs') :
      Alike ρ ρ' (.writes rs) (.writes rs')
  | blockAttrs {m m' : Annotations} (hm : mask ρ m = mask ρ' m') :
      Alike ρ ρ' (.blockAttrs m) (.blockAttrs m')
  | allocBuffer (d : DataType) {es es' : List Expr} {o o' : BufferOptions}
      (hes : mask ρ es = mask ρ' es') (ho : mask ρ o = mask ρ' o') :
      Alike ρ ρ' (.allocBuffer es d o) (.allocBuffer es' d o')
  | matchBuffer (d : DataType) {t t' : MatchTarget} {es es' : List Expr} {o o' : BufferOptions}
      (ht : mask ρ t = mask ρ' t') (hes : mask ρ es = mask ρ' es') (ho : mask ρ o = mask ρ' o') :
      Alike ρ ρ' (.matchBuffer t es d o) (.matchBuffer t' es' d o')
  | preflattenedBuffer (d : DataType) {b b' : Buffer} {es es' : List Expr} {o o' : BufferOptions}
      (hb : mask ρ b = mask ρ' b') (hes : mask ρ es = mask ρ' es') (ho : mask ρ o = mask ρ' o') :
      Alike ρ ρ' (.preflattenedBuffer b es d o) (.preflattenedBuffer b' es' d o')
  | argVar (name : String) {v v' : Var} (hv : mask ρ v = mask ρ' v') :
      Alike ρ ρ' (.argVar name v) (.argVar name v')
  | argBuffer (name : String) {b b' : Buffer} (hb : mask ρ b = mask ρ' b') :
      Alike ρ ρ' (.argBuffer name b) (.argBuffer name b')
  | funcName (name : String) : Alike ρ ρ' (.funcName name) (.funcName name)
  | funcAttrs {m m' : Annotations} (hm : mask ρ m = mask ρ' m') :
      Alike ρ ρ' (.funcAttrs m) (.funcAttrs m')
  | funcRet (t : ValueType) : Alike ρ ρ' (.funcRet t) (.funcRet t)
  | envThread (tag : String) : Alike ρ ρ' (.envThread tag) (.envThread tag)
  | store {b b' : Buffer} {e e' : Expr} {is is' : List Expr} (hb : mask ρ b = mask ρ' b')
      (he : mask ρ e = mask ρ' e') (his : mask ρ is = mask ρ' is') :
      Alike ρ ρ' (.store b e is) (.store b' e' is')
  | prefetch {b b' : Buffer} {rs rs' : List Range} (hb : mask ρ b = mask ρ' b')
      (hrs : mask ρ rs = mask ρ' rs') : Alike ρ ρ' (.prefetch b rs) (.prefetch b' rs')
  | evaluate {e e' : Expr} (he : mask ρ e = mask ρ' e') : Alike ρ ρ' (.evaluate e) (.evaluate e')
  | axis (kind : AxisKind) (d : Option DataType) {dom dom' : Range} {e e' : Expr}
      (hdom : mask ρ dom = mask ρ' dom') (he : mask ρ e = mask ρ' e') :
      Alike ρ ρ' (.axis kind dom e d) (.axis kind dom' e' d)
  | remap (kinds : String) (d : Option DataType) {es es' : List Expr}
      (hes : mask ρ es = mask ρ' es') : Alike ρ ρ' (.remap kinds es d) (.remap kinds es' d)

section

variable {ρ ρ' : VarId → VarId} {b b' : Builder} (hb : mask ρ b = mask ρ' b')

include hb

theorem Builder.topBlock_alike (op : String) :
    mask ρ (b.topBlock op) = mask ρ' (b'.topBlock op) := by
  apply alike_of_map (fun _ _ _ => rfl)
  rw [← topBlock_mask, hb, topBlock_mask]

theorem Builder.topFunc_alike (op : String) :
    mask ρ (b.topFunc op) = mask ρ' (b'.topFunc op) := by
  apply alike_of_map (fun _ _ _ => rfl)
  rw [← topFunc_mask, hb, topFunc_mask]

theorem Builder.setTop_alike {x x' : Scope} (hx : mask ρ x = mask ρ' x') :
    mask ρ (b.setTop x) = mask ρ' (b'.setTop x') := by
  exact alike_of_mask₂ hb hx fun _ => setTop_mask

end

namespace Call

section

variable {ρ ρ' : VarId → VarId}

theorem checkRank_alike {b b' : Buffer} (hb : mask ρ b = mask ρ' b') {n n' : Nat} (hn : n = n')
    (op what : String) : mask ρ (checkRank op what n b) = mask ρ' (checkRank op what n' b') := by
  apply alike_of_map (fun _ _ _ => rfl)
  rw [checkRank, checkRank, hn, Buffer.rank_alike hb, Buffer.name_alike hb]
  rfl

theorem setTop_edit {x x' : Scope} (hx : mask ρ x = mask ρ' x') :
    Edit.Alike ρ ρ' (.write (·.setTop x)) (.write (·.setTop x')) :=
  Edit.alike_write fun _ _ hb => Builder.setTop_alike hb hx

theorem setBlock_alike {α : Type} (op field : String) {old : BlockScope → Option α}
    (hold : ∀ τ x, (old (mask τ x)).isSome = (old x).isSome) {set set' : BlockScope → BlockScope}
    (hset : ∀ x x', mask ρ x = mask ρ' x' → mask ρ (set x) = mask ρ' (set' x')) :
    Edit.Alike ρ ρ' (setBlock op field old set) (setBlock op field old set') := by
  refine .bind (Edit.alike_look fun _ _ hb => Builder.topBlock_alike hb op) fun x x' hx => ?_
  have hs : (old x).isSome = (old x').isSome := by rw [← hold ρ, hx, hold]
  rw [hs]
  split
  · exact Edit.alike_refuse rfl
  · exact setTop_edit (congrArg Scope.block (hset x x' hx))

theorem setFunc_alike {α : Type} (op : String) {old : FuncScope → Option α}
    (hold : ∀ τ f, (old (mask τ f)).isSome = (old f).isSome) {set set' : FuncScope → FuncScope}
    (hset : ∀ f f', mask ρ f = mask ρ' f' → mask ρ (set f) = mask ρ' (set' f')) :
    Edit.Alike ρ ρ' (setFunc op old set) (setFunc op old set') := by
  refine .bind (Edit.alike_look fun _ _ hb => Builder.topFunc_alike hb op) fun f f' hf => ?_
  have hs : (old f).isSome = (old f').isSome := by rw [← hold ρ, hf, hold]
  rw [hs]
  split
  · exact Edit.alike_refuse rfl
  · exact setTop_edit (congrArg Scope.func (hset f f' hf))

theorem own_alike {x x' : Buffer} (hx : mask ρ x = mask ρ' x') :
    Edit.Alike ρ ρ' (own x) (own x') := by
  refine .bind Edit.alike_get fun p p' hp => ?_
  have hb : mask ρ p.1 = mask ρ' p'.1 := congrArg Prod.fst hp
  have ht : mask ρ (p.1.top? Scope.block?) = mask ρ' (p'.1.top? Scope.block?) :=
    alike_of_mask hb fun τ b => b.top?_mask (Scope.block?_mask τ)
  have hf : mask ρ (p.1.top? Scope.func?) = mask ρ' (p'.1.top? Scope.func?) :=
    alike_of_mask hb fun τ b => b.top?_mask (Scope.func?_mask τ)
  have hm (op : String) (kind : ScopeKind) : p.1.misplaced op kind = p'.1.misplaced op kind := by
    rw [← Builder.misplaced_mask (ρ := ρ), hb, Builder.misplaced_mask]
  have hl : mask ρ [x] = mask ρ' [x'] := congrArg (List.cons · []) hx
  dsimp only
  obtain ⟨h, h'⟩ | ⟨y, y', h, h', hy⟩ := option_alike ht
  · rw [h, h']
    obtain ⟨h, h'⟩ | ⟨f, f', h, h', hf⟩ := option_alike hf
    · rw [h, h', hm]
      exact Edit.alike_refuse rfl
    · rw [h, h']
      have ha : mask ρ f.allocs = mask ρ' f'.allocs := congrArg FuncScope.allocs hf
      exact setTop_edit (congrArg₂ (fun (f : FuncScope) l => Scope.func { f with allocs := l }) hf
        (append_alike ha hl))
  · rw [h, h']
    have ha : mask ρ y.allocs = mask ρ' y'.allocs := congrArg BlockScope.allocs hy
    exact setTop_edit (congrArg₂ (fun (y : BlockScope) l => Scope.block { y with allocs := l }) hy
      (append_alike ha hl))

theorem matchTo_alike (hρ : Function.Injective ρ) (hρ' : Function.Injective ρ') {x x' : Buffer}
    (hx : mask ρ x = mask ρ' x') {t t' : MatchTarget} (ht : mask ρ t = mask ρ' t') :
    Edit.Alike ρ ρ' (matchTo x t) (matchTo x' t') := by
  cases t with
  | param v =>
      cases t' with
      | region r' => cases ht
      | param v' =>
          have hv : mask ρ v = mask ρ' v' := MatchTarget.param.inj ht
          refine .bind (Edit.alike_look fun _ _ hb => Builder.topFunc_alike hb _) fun f f' hf => ?_
          have hm : mask ρ f.bufferMap = mask ρ' f'.bufferMap := congrArg FuncScope.bufferMap hf
          have hc : f.bufferMap.contains v = f'.bufferMap.contains v' :=
            OrderedMap.contains_alike hρ hρ' hm hv
          rw [hc]
          split
          · exact Edit.alike_refuse rfl
          · have hi : mask ρ (f.bufferMap.insert v x) = mask ρ' (f'.bufferMap.insert v' x') :=
              OrderedMap.insert_alike hρ hρ' hm hv hx
            exact setTop_edit (congrArg₂ (fun (f : FuncScope) m =>
              Scope.func { f with bufferMap := m }) hf hi)
  | region r =>
      cases t' with
      | param v' => cases ht
      | region r' =>
          have hr : mask ρ r = mask ρ' r' := MatchTarget.region.inj ht
          refine .bind (Edit.alike_look fun _ _ hb => Builder.topBlock_alike hb _) fun y y' hy => ?_
          have hm : mask ρ y.matched = mask ρ' y'.matched := congrArg BlockScope.matched hy
          have hl : mask ρ [MatchRegion.mk x r] = mask ρ' [MatchRegion.mk x' r'] :=
            congrArg₂ (fun x r => [MatchRegion.mk x r]) hx hr
          exact setTop_edit (congrArg₂ (fun (y : BlockScope) l =>
            Scope.block { y with matched := l }) hy (append_alike hm hl))

theorem preflatten_alike (hρ : Function.Injective ρ) (hρ' : Function.Injective ρ')
    {of of' x x' : Buffer} (ho : mask ρ of = mask ρ' of') (hx : mask ρ x = mask ρ' x') :
    Edit.Alike ρ ρ' (preflatten of x) (preflatten of' x') := by
  refine .bind (Edit.alike_look fun _ _ hb => Builder.topFunc_alike hb _) fun f f' hf => ?_
  have hm : mask ρ f.bufferMap = mask ρ' f'.bufferMap := congrArg FuncScope.bufferMap hf
  have hp : mask ρ f.preflattened = mask ρ' f'.preflattened := congrArg FuncScope.preflattened hf
  have hs {τ : VarId → VarId} (hτ : Function.Injective τ) (m : OrderedMap Var Buffer) (c : Buffer) :
      (mask τ m).entries.find? (fun e => e.2.sameAs (mask τ c)) =
        mask τ (m.entries.find? fun e => e.2.sameAs c) := by
    rw [OrderedMap.entries_mask hτ]
    exact OrderedMap.find?_mask (fun e => e.2.sameAs_mask hτ c) m.entries
  have hf' : mask ρ (f.bufferMap.entries.find? fun e => e.2.sameAs of) =
      mask ρ' (f'.bufferMap.entries.find? fun e => e.2.sameAs of') := by
    rw [← hs hρ, hm, ho, hs hρ']
  obtain ⟨h, h'⟩ | ⟨⟨v, y⟩, ⟨v', y'⟩, h, h', hv⟩ := option_alike hf'
  · rw [h, h', Buffer.name_alike ho]
    exact Edit.alike_refuse rfl
  · rw [h, h']
    have hv : mask ρ v = mask ρ' v' := (Prod.mk.inj hv).1
    have hc : f.preflattened.contains v = f'.preflattened.contains v' :=
      OrderedMap.contains_alike hρ hρ' hp hv
    dsimp only
    rw [hc]
    split
    · exact Edit.alike_refuse rfl
    · have hi : mask ρ (f.preflattened.insert v x) = mask ρ' (f'.preflattened.insert v' x') :=
        OrderedMap.insert_alike hρ hρ' hp hv hx
      exact setTop_edit (congrArg₂ (fun (f : FuncScope) m =>
        Scope.func { f with preflattened := m }) hf hi)

theorem addAxes_alike (op : String) {as as' : List (IterVar × Expr)}
    (has : mask ρ as = mask ρ' as') : Edit.Alike ρ ρ' (addAxes op as) (addAxes op as') := by
  induction as generalizing as' with
  | nil =>
      cases as' with
      | nil => exact Edit.alike_pure rfl
      | cons a' as' => cases has
  | cons a as ih =>
      cases as' with
      | nil => cases has
      | cons a' as' =>
          obtain ⟨ha, has⟩ := List.cons.inj has
          refine .bind (Edit.alike_look fun _ _ hb => Builder.topBlock_alike hb op) ?_
          intro x x' hx
          have hl : mask ρ x.axes = mask ρ' x'.axes := congrArg BlockScope.axes hx
          have hs : mask ρ [a] = mask ρ' [a'] := congrArg (List.cons · []) ha
          exact .bind (setTop_edit (congrArg₂ (fun (x : BlockScope) l =>
            Scope.block { x with axes := l }) hx (append_alike hl hs))) fun _ _ _ => ih has

theorem remapAxis_alike (hρ : Function.Injective ρ) (hρ' : Function.Injective ρ') {b b' : Builder}
    (hb : mask ρ b = mask ρ' b') (d : Option DataType) (c : Char) {e e' : Expr}
    (he : mask ρ e = mask ρ' e') :
    Attempt.Alike ρ ρ' (remapAxis b d c e) (remapAxis b' d c e') := by
  have hv : mask ρ e.asVar? = mask ρ' e'.asVar? := alike_of_mask he Expr.asVar?_mask
  rw [remapAxis, remapAxis]
  cases AxisKind.ofChar? c with
  | none => exact Attempt.alike_refuse rfl
  | some kind =>
      dsimp only
      obtain ⟨h, h'⟩ | ⟨v, v', h, h', hv⟩ := option_alike hv
      · rw [h, h']
        exact Attempt.alike_refuse rfl
      · have hd : v.dtype = v'.dtype := (congrArg Var.dtype hv :)
        have hl : mask ρ (b.loopDomain? v) = mask ρ' (b'.loopDomain? v') := by
          rw [← Builder.loopDomain?_mask hρ, hb, hv, Builder.loopDomain?_mask hρ']
        rw [h, h']
        dsimp only
        obtain ⟨h, h'⟩ | ⟨dom, dom', h, h', hdom⟩ := option_alike hl
        · rw [h, h']
          exact Attempt.alike_refuse rfl
        · rw [h, h', hd]
          refine .bind (Attempt.alike_fresh _ _ _) fun x x' hx => ?_
          have hmin : mask ρ dom.min = mask ρ' dom'.min := congrArg Range.min hdom
          have hext : mask ρ dom.extent = mask ρ' dom'.extent := congrArg Range.extent hdom
          have hr : mask ρ (⟨dom.min.asIndex _, dom.extent.asIndex _⟩ : Range) =
              mask ρ' ⟨dom'.min.asIndex _, dom'.extent.asIndex _⟩ :=
            congrArg₂ Range.mk (Expr.asIndex_alike (d.getD v'.dtype) hmin)
              (Expr.asIndex_alike (d.getD v'.dtype) hext)
          have hc : mask ρ (e.castTo (d.getD v'.dtype)) = mask ρ' (e'.castTo (d.getD v'.dtype)) :=
            Expr.castTo_alike _ he
          exact Attempt.alike_pure (congrArg₂ Prod.mk
            (congrArg₂ (IterVar.mk · · kind.iterKind "") (congrArg some hr) hx) hc)

theorem makeAxes_alike (hρ : Function.Injective ρ) (hρ' : Function.Injective ρ')
    (d : Option DataType) (cs : List Char) {es es' : List Expr} (hes : mask ρ es = mask ρ' es') :
    Edit.Alike ρ ρ' (makeAxes d (cs.zip es)) (makeAxes d (cs.zip es')) := by
  induction cs generalizing es es' with
  | nil => exact Edit.alike_pure rfl
  | cons c cs ih =>
      cases es with
      | nil =>
          cases es' with
          | nil => exact Edit.alike_pure rfl
          | cons e' es' => cases hes
      | cons e es =>
          cases es' with
          | nil => cases hes
          | cons e' es' =>
              obtain ⟨he, hes⟩ := List.cons.inj hes
              refine .bind (Edit.alike_attempt fun _ _ hb => remapAxis_alike hρ hρ' hb d c he)
                fun a a' ha => ?_
              refine .bind (ih hes) fun as as' has => ?_
              exact Edit.alike_pure (congrArg₂ List.cons ha has)

theorem declare_alike (d : DataType) {es es' : List Expr} (hes : mask ρ es = mask ρ' es')
    {o o' : BufferOptions} (ho : mask ρ o = mask ρ' o') :
    Edit.Alike ρ ρ' (.attempt fun b => .declare es d (o.alignmentOr b.config.alignment))
      (.attempt fun b => .declare es' d (o'.alignmentOr b.config.alignment)) := by
  apply Edit.alike_attempt
  intro b b' hb
  have hc : b.config = b'.config := (congrArg Builder.config hb :)
  rw [hc]
  apply Attempt.alike_declare hes
  rw [← BufferOptions.alignmentOr_mask, ho, BufferOptions.alignmentOr_mask]

/-- An operation of which only the value `unit` is given back. -/
theorem unit_alike {x x' : Edit Unit} (h : Edit.Alike ρ ρ' x x') :
    Edit.Alike ρ ρ' (x >>= fun _ => pure Value.unit) (x' >>= fun _ => pure Value.unit) :=
  h.bind fun _ _ _ => Edit.alike_pure rfl

theorem preflattenedBuffer_alike (hρ : Function.Injective ρ) (hρ' : Function.Injective ρ')
    (d : DataType) {b b' : Buffer} (hb : mask ρ b = mask ρ' b') {es es' : List Expr}
    (hes : mask ρ es = mask ρ' es') {o o' : BufferOptions} (ho : mask ρ o = mask ρ' o') :
    Edit.Alike ρ ρ' (preflattenedBuffer b es d o).run (preflattenedBuffer b' es' d o').run := by
  have hd : mask ρ (o.data.or (some b.data)) = mask ρ' (o'.data.or (some b'.data)) := by
    have hv : mask ρ o.data = mask ρ' o'.data := congrArg BufferOptions.data ho
    obtain ⟨h, h'⟩ | ⟨v, v', h, h', hv⟩ := option_alike hv
    · rw [h, h']
      exact congrArg some (Buffer.data_alike hb)
    · rw [h, h']
      exact congrArg some hv
  refine .bind (Edit.alike_attempt fun _ _ _ => Attempt.alike_declare hes d
    (congrArg₂ (fun (o : BufferOptions) v => { o with data := v }) ho hd)) fun x x' hx => ?_
  refine .bind (preflatten_alike hρ hρ' hb hx) fun _ _ _ => ?_
  exact Edit.alike_pure (congrArg Value.buffer hx)

theorem argVar_alike (name : String) {v v' : Var} (hv : mask ρ v = mask ρ' v') :
    Edit.Alike ρ ρ' (argVar name v).run (argVar name v').run := by
  -- A mask does not show the name.
  have hr : mask ρ (v.renamed name) = mask ρ' (v'.renamed name) := hv
  refine .bind (Edit.alike_look fun _ _ hb => Builder.topFunc_alike hb _) fun f f' hf => ?_
  have hp : mask ρ f.params = mask ρ' f'.params := congrArg FuncScope.params hf
  have hl : mask ρ [v.renamed name] = mask ρ' [v'.renamed name] :=
    congrArg (List.cons · []) hr
  refine .bind (setTop_edit (congrArg₂ (fun (f : FuncScope) l =>
    Scope.func { f with params := l }) hf (append_alike hp hl))) fun _ _ _ => ?_
  exact Edit.alike_pure (congrArg Value.var hr)

theorem argBuffer_alike (hρ : Function.Injective ρ) (hρ' : Function.Injective ρ') (name : String)
    {b b' : Buffer} (hb : mask ρ b = mask ρ' b') :
    Edit.Alike ρ ρ' (argBuffer name b).run (argBuffer name b').run := by
  refine .bind (Edit.alike_fresh _ _ _) fun v v' hv => ?_
  have hx : mask ρ { b with name } = mask ρ' { b' with name } := by
    rw [Buffer.withName_mask, hb, ← Buffer.withName_mask]
  refine .bind (Edit.alike_look fun _ _ hb => Builder.topFunc_alike hb _) fun f f' hf => ?_
  have hp : mask ρ f.params = mask ρ' f'.params := congrArg FuncScope.params hf
  have hl : mask ρ [v] = mask ρ' [v'] := congrArg (List.cons · []) hv
  have hm : mask ρ f.bufferMap = mask ρ' f'.bufferMap := congrArg FuncScope.bufferMap hf
  have hi : mask ρ (f.bufferMap.insert v { b with name }) =
      mask ρ' (f'.bufferMap.insert v' { b' with name }) :=
    OrderedMap.insert_alike hρ hρ' hm hv hx
  have hs := congrArg₂ (fun (f : FuncScope) l => { f with params := l }) hf (append_alike hp hl)
  refine .bind (setTop_edit (congrArg Scope.func hs)) fun _ _ _ => ?_
  refine .bind (setTop_edit (congrArg₂ (fun (f : FuncScope) m =>
    Scope.func { f with bufferMap := m }) hs hi)) fun _ _ _ => ?_
  exact Edit.alike_pure (congrArg Value.buffer hx)

theorem envThread_alike (hρ : Function.Injective ρ) (hρ' : Function.Injective ρ') (tag : String) :
    Edit.Alike ρ ρ' (envThread tag).run (envThread tag).run := by
  refine .bind Edit.alike_get fun p p' hp => ?_
  have hb : mask ρ p.1 = mask ρ' p'.1 := congrArg Prod.fst hp
  have hc : p.1.config = p'.1.config := (congrArg Builder.config hb :)
  have hf : mask ρ p.1.nearestFunc? = mask ρ' p'.1.nearestFunc? :=
    alike_of_mask hb fun _ b => b.nearestFunc?_mask
  have hn : p.1.nearestFunc?.isNone = p'.1.nearestFunc?.isNone := by
    obtain ⟨h, h'⟩ | ⟨f, f', h, h', hf⟩ := option_alike hf
    · rw [h, h']
    · rw [h, h']
      rfl
  dsimp only
  rw [hn, hc]
  split
  · exact Edit.alike_refuse rfl
  · refine .bind (Edit.alike_fresh _ _ _) fun v v' hv => ?_
    refine .bind (Edit.alike_write fun b b' hb => ?_) fun _ _ _ => ?_
    · rw [← Builder.registerThread_mask hρ, hb, hv, Builder.registerThread_mask hρ']
    · exact Edit.alike_pure (congrArg Value.var hv)

theorem store_alike {b b' : Buffer} (hb : mask ρ b = mask ρ' b') {e e' : Expr}
    (he : mask ρ e = mask ρ' e') {is is' : List Expr} (his : mask ρ is = mask ρ' is') :
    Edit.Alike ρ ρ' (store b e is).run (store b' e' is').run := by
  have hc : mask ρ (e.castTo b.dtype) = mask ρ' (e'.castTo b'.dtype) := by
    rw [Buffer.dtype_alike hb]
    exact Expr.castTo_alike b'.dtype he
  have hs : mask ρ (Stmt.store b (e.castTo b.dtype) is) =
      mask ρ' (Stmt.store b' (e'.castTo b'.dtype) is') := by
    change Stmt.leaf (.store (mask ρ b) (mask ρ _) (mask ρ is)) = _
    rw [hb, hc, his]
    rfl
  refine .bind (Edit.alike_look fun _ _ _ => ?_) fun _ _ _ => ?_
  · exact checkRank_alike hb (length_alike his) _ _
  · exact unit_alike (Edit.alike_change (Change.alike_append hs))

theorem prefetch_alike {b b' : Buffer} (hb : mask ρ b = mask ρ' b') {rs rs' : List Range}
    (hrs : mask ρ rs = mask ρ' rs') : Edit.Alike ρ ρ' (prefetch b rs).run (prefetch b' rs').run := by
  refine .bind (Edit.alike_look fun _ _ _ => ?_) fun _ _ _ => ?_
  · exact checkRank_alike hb (length_alike hrs) _ _
  · exact unit_alike (Edit.alike_change (Change.alike_append
      (congrArg₂ (fun b rs => Stmt.leaf (.prefetch b rs)) hb hrs)))

theorem axis_alike (kind : AxisKind) (d : Option DataType) {dom dom' : Range}
    (hdom : mask ρ dom = mask ρ' dom') {e e' : Expr} (he : mask ρ e = mask ρ' e') :
    Edit.Alike ρ ρ' (axis kind dom e d).run (axis kind dom' e' d).run := by
  have hd : e.dtype = e'.dtype := same_of_mask he Expr.dtype_mask
  refine .bind (Edit.alike_look fun _ _ hb => Builder.topBlock_alike hb _) fun _ _ _ => ?_
  rw [hd]
  refine .bind (Edit.alike_fresh _ _ _) fun v v' hv => ?_
  have ha : mask ρ [(IterVar.axis dom v kind.iterKind, e)] =
      mask ρ' [(IterVar.axis dom' v' kind.iterKind, e')] :=
    congrArg₂ (fun v e => [(v, e)])
      (congrArg₂ (fun dom v => IterVar.mk (some dom) v kind.iterKind "") hdom hv) he
  refine .bind (addAxes_alike _ ha) fun _ _ _ => ?_
  exact Edit.alike_pure (congrArg Value.var hv)

theorem remap_alike (hρ : Function.Injective ρ) (hρ' : Function.Injective ρ') (kinds : String)
    (d : Option DataType) {es es' : List Expr} (hes : mask ρ es = mask ρ' es') :
    Edit.Alike ρ ρ' (remap kinds es d).run (remap kinds es' d).run := by
  have hl : es.length = es'.length := length_alike hes
  have hv {as as' : List (IterVar × Expr)} (has : mask ρ as = mask ρ' as') :
      mask ρ (as.map fun a => a.1.var) = mask ρ' (as'.map fun a => a.1.var) := by
    have hm (τ : VarId → VarId) (as : List (IterVar × Expr)) :
        mask τ (as.map fun a => a.1.var) = (mask τ as).map fun a => a.1.var := by
      simp only [mask_list, List.map_map]
      rfl
    rw [hm, has, hm]
  rw [run, run, hl]
  split
  · exact Edit.alike_refuse rfl
  · refine .bind (Edit.alike_look fun _ _ hb => Builder.topBlock_alike hb _) fun _ _ _ => ?_
    refine .bind (makeAxes_alike hρ hρ' d kinds.toList hes) fun as as' has => ?_
    refine .bind (addAxes_alike _ has) fun _ _ _ => ?_
    exact Edit.alike_pure (congrArg Value.vars (hv has))

/-- Alike calls do alike things. -/
theorem Alike.run (hρ : Function.Injective ρ) (hρ' : Function.Injective ρ') {c c' : Call}
    (hc : c.Alike ρ ρ' c') : Edit.Alike ρ ρ' c.run c'.run := by
  cases hc with
  | guard he =>
      exact unit_alike (setBlock_alike _ _ (fun τ x => isSome_mask τ x.predicate) fun x x' hx =>
        congrArg₂ (fun (x : BlockScope) e => { x with predicate := some e }) hx he)
  | reads hrs =>
      exact unit_alike (setBlock_alike _ _ (fun τ x => isSome_mask τ x.reads) fun x x' hx =>
        congrArg₂ (fun (x : BlockScope) rs => { x with reads := some rs }) hx hrs)
  | writes hrs =>
      exact unit_alike (setBlock_alike _ _ (fun τ x => isSome_mask τ x.writes) fun x x' hx =>
        congrArg₂ (fun (x : BlockScope) rs => { x with writes := some rs }) hx hrs)
  | blockAttrs hm =>
      exact unit_alike (setBlock_alike _ _ (fun τ x => isSome_mask τ x.annotations) fun x x' hx =>
        congrArg₂ (fun (x : BlockScope) m => { x with annotations := some m }) hx hm)
  | allocBuffer d hes ho =>
      refine .bind (declare_alike d hes ho) fun x x' hx => .bind (own_alike hx) fun _ _ _ => ?_
      exact Edit.alike_pure (congrArg Value.buffer hx)
  | matchBuffer d ht hes ho =>
      refine .bind (declare_alike d hes ho) fun x x' hx =>
        .bind (matchTo_alike hρ hρ' hx ht) fun _ _ _ => ?_
      exact Edit.alike_pure (congrArg Value.buffer hx)
  | preflattenedBuffer d hb hes ho => exact preflattenedBuffer_alike hρ hρ' d hb hes ho
  | argVar name hv => exact argVar_alike name hv
  | argBuffer name hb => exact argBuffer_alike hρ hρ' name hb
  | funcName name =>
      exact unit_alike (setFunc_alike _ (fun _ _ => rfl) fun f f' hf =>
        congrArg (fun f : FuncScope => { f with name := some name }) hf)
  | funcAttrs hm =>
      exact unit_alike (setFunc_alike _ (fun τ f => isSome_mask τ f.attrs) fun f f' hf =>
        congrArg₂ (fun (f : FuncScope) m => { f with attrs := some m }) hf hm)
  | funcRet t =>
      exact .bind (setFunc_alike _ (fun _ _ => rfl) fun f f' hf =>
        congrArg (fun f : FuncScope => { f with retType := some t }) hf) fun _ _ _ =>
          Edit.alike_pure rfl
  | envThread tag => exact envThread_alike hρ hρ' tag
  | store hb he his => exact store_alike hb he his
  | prefetch hb hrs => exact prefetch_alike hb hrs
  | evaluate he =>
      exact unit_alike (Edit.alike_change (Change.alike_append
        (congrArg (fun e => Stmt.leaf (.evaluate e)) he)))
  | axis kind d hdom he => exact axis_alike kind d hdom he
  | remap kinds d hes => exact remap_alike hρ hρ' kinds d hes

theorem Alike.unserved {c c' : Call} (hc : c.Alike ρ ρ' c') {s s' : Supply}
    (hs : mask ρ s = mask ρ' s') : mask ρ (c.unserved s) = mask ρ' (c'.unserved s') := by
  cases hc with
  | argBuffer name hb => exact (take_alike hs).2
  | _ => exact hs

end

end Call

end TensorProgram
