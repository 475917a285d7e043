import TensorProgram.Proofs.Transaction

/-!
What the operations do, one by one: the scope that an opening makes and the effect that a
call has, with everything that has been checked on the way.
-/

namespace TensorProgram

/-- The innermost open scope is `x`. -/
def Builder.Top (b : Builder) (x : Scope) : Prop := ∃ f fs, b.frames = f :: fs ∧ f.scope = x

theorem Builder.Top.frames_ne_nil {b : Builder} {x : Scope} (h : b.Top x) : b.frames ≠ [] := by
  obtain ⟨f, fs, hf, -⟩ := h
  rw [hf]
  exact List.cons_ne_nil f fs

theorem Builder.Top.unique {b : Builder} {x y : Scope} (hx : b.Top x) (hy : b.Top y) : x = y := by
  obtain ⟨f, fs, hf, rfl⟩ := hx
  obtain ⟨g, gs, hg, rfl⟩ := hy
  rw [hf] at hg
  cases hg
  rfl

namespace Call

variable {α : Type} {b : Builder} {eff : Effect}

theorem blockEffect_eq_ok {op field : String} {old : BlockScope → Option α}
    {set : BlockScope → BlockScope} (h : blockEffect b op field old set = .ok eff) :
    ∃ x, b.Top (.block x) ∧ old x = none ∧ eff = .setTop (.block (set x)) := by
  cases ht : b.topBlock op with
  | error e => simp [blockEffect, ht] at h
  | ok x =>
      simp only [blockEffect, ht, ok_bind] at h
      cases ho : old x with
      | some a => simp [ho] at h
      | none =>
          simp only [ho, Option.isSome_none, Bool.false_eq_true, if_false] at h
          exact ⟨x, Builder.topBlock_eq_ok_iff.1 ht, ho, (Except.ok.inj h).symm⟩

theorem funcEffect_eq_ok {op : String} {old : FuncScope → Option α}
    {set : FuncScope → FuncScope} (h : funcEffect b op old set = .ok eff) :
    ∃ g, b.Top (.func g) ∧ old g = none ∧ eff = .setTop (.func (set g)) := by
  cases ht : b.topFunc op with
  | error e => simp [funcEffect, ht] at h
  | ok g =>
      simp only [funcEffect, ht, ok_bind] at h
      cases ho : old g with
      | some a => simp [ho] at h
      | none =>
          simp only [ho, Option.isSome_none, Bool.false_eq_true, if_false] at h
          exact ⟨g, Builder.topFunc_eq_ok_iff.1 ht, ho, (Except.ok.inj h).symm⟩

/-- A call that is a check and gives back nothing else does what has been checked. -/
theorem check_value_eq_ok {x : Except BuildError Effect} {v w : Value} {s s' : Supply}
    (h : (do return (← Attempt.check x, w)) s = .ok ((eff, v), s')) : x = .ok eff ∧ v = w := by
  simp only [Attempt.bind_eq_ok, Attempt.check_eq_ok, Attempt.pure_eq_ok] at h
  obtain ⟨_, _, ⟨hx, -⟩, h⟩ := h
  cases h
  exact ⟨hx, rfl⟩

theorem ownEffect_eq_ok {buffer : Buffer} (h : ownEffect b buffer = .ok eff) :
    (∃ x, b.Top (.block x) ∧
      eff = .setTop (.block { x with allocs := x.allocs ++ [buffer] })) ∨
    (∃ g, b.Top (.func g) ∧
      eff = .setTop (.func { g with allocs := g.allocs ++ [buffer] })) := by
  rw [ownEffect, Builder.top?, Builder.top?] at h
  cases hb : b.frames with
  | nil => simp [hb] at h
  | cons f fs =>
      cases hs : f.scope with
      | block x =>
          simp only [hb, hs, List.head?_cons, Option.bind_some, Scope.block?] at h
          exact Or.inl ⟨x, ⟨f, fs, hb, hs⟩, (Except.ok.inj h).symm⟩
      | func g =>
          simp only [hb, hs, List.head?_cons, Option.bind_some, Scope.block?, Scope.func?] at h
          exact Or.inr ⟨g, ⟨f, fs, hb, hs⟩, (Except.ok.inj h).symm⟩
      | blockInit | branch i | thenCase | elseCase | wrap w =>
          simp [hb, hs, Scope.block?, Scope.func?] at h

theorem matchEffect_param_eq_ok {buffer : Buffer} {v : Var}
    (h : matchEffect b buffer (.param v) = .ok eff) :
    ∃ g, b.Top (.func g) ∧ g.bufferMap.contains v = false ∧
      eff = .setTop (.func { g with bufferMap := g.bufferMap.insert v buffer }) := by
  cases ht : b.topFunc "match_buffer" with
  | error e => simp [matchEffect, ht] at h
  | ok g =>
      simp only [matchEffect, ht, ok_bind] at h
      split at h
      · cases h
      · rename_i hc
        exact ⟨g, Builder.topFunc_eq_ok_iff.1 ht, by simpa using hc, (Except.ok.inj h).symm⟩

theorem matchEffect_region_eq_ok {buffer : Buffer} {r : Region}
    (h : matchEffect b buffer (.region r) = .ok eff) :
    ∃ x, b.Top (.block x) ∧
      eff = .setTop (.block { x with matched := x.matched ++ [⟨buffer, r⟩] }) := by
  cases ht : b.topBlock "match_buffer" with
  | error e => simp [matchEffect, ht] at h
  | ok x =>
      simp only [matchEffect, ht, ok_bind] at h
      exact ⟨x, Builder.topBlock_eq_ok_iff.1 ht, (Except.ok.inj h).symm⟩

theorem preflattenEffect_eq_ok {of buffer : Buffer}
    (h : preflattenEffect b of buffer = .ok eff) :
    ∃ g v y, b.Top (.func g) ∧
      g.bufferMap.entries.find? (fun e => e.2.sameAs of) = some (v, y) ∧
      g.preflattened.contains v = false ∧
      eff = .setTop (.func { g with preflattened := g.preflattened.insert v buffer }) := by
  cases ht : b.topFunc "preflattened_buffer" with
  | error e => simp [preflattenEffect, ht] at h
  | ok g =>
      cases he : g.bufferMap.entries.find? fun e => e.2.sameAs of with
      | none =>
          simp [preflattenEffect, ht, he] at h
      | some e =>
          simp only [preflattenEffect, ht, he, ok_bind] at h
          split at h
          · cases h
          · rename_i hc
            exact ⟨g, e.1, e.2, Builder.topFunc_eq_ok_iff.1 ht, he, by simpa using hc,
              (Except.ok.inj h).symm⟩

/-- An axis of a remapping takes over the domain of the loop whose variable it is bound to. -/
theorem remapAxis_eq_ok {dtype : Option DataType} {c : Char} {e : Expr}
    {a : IterVar × Expr} {s s' : Supply} (h : remapAxis b dtype c e s = .ok (a, s')) :
    ∃ kind v dom w, AxisKind.ofChar? c = some kind ∧ e.asVar? = some v ∧
      b.loopDomain? v = some dom ∧
      (w, s') = Var.fresh ("v" ++ v.text) (dtype.getD v.dtype) s ∧
      a = (.axis ⟨dom.min.asIndex (dtype.getD v.dtype), dom.extent.asIndex (dtype.getD v.dtype)⟩ w
        kind.iterKind, e.castTo (dtype.getD v.dtype)) := by
  rw [remapAxis] at h
  cases hk : AxisKind.ofChar? c with
  | none =>
      rw [hk] at h
      cases h
  | some kind =>
      cases hv : e.asVar? with
      | none =>
          rw [hk, hv] at h
          cases h
      | some v =>
          cases hd : b.loopDomain? v with
          | none =>
              simp only [hk, hv, hd] at h
              cases h
          | some dom =>
              simp only [hk, hv, hd, Attempt.bind_eq_ok, Attempt.pure_eq_ok,
                Attempt.fresh_eq_ok] at h
              obtain ⟨w, _, hw, h⟩ := h
              cases h
              exact ⟨kind, v, dom, w, rfl, rfl, hd, hw, rfl⟩

/-- What a call that goes through does, call by call. -/
inductive Does (b : Builder) (s : Supply) : Call → Value → Effect → Prop where
  | guard (p : Expr) {x : BlockScope} (top : b.Top (.block x)) (unset : x.predicate = none) :
      Does b s (.guard p) .unit (.setTop (.block { x with predicate := some p }))
  | reads (rs : List Region) {x : BlockScope} (top : b.Top (.block x)) (unset : x.reads = none) :
      Does b s (.reads rs) .unit (.setTop (.block { x with reads := some rs }))
  | writes (rs : List Region) {x : BlockScope} (top : b.Top (.block x)) (unset : x.writes = none) :
      Does b s (.writes rs) .unit (.setTop (.block { x with writes := some rs }))
  | blockAttrs (m : Annotations) {x : BlockScope} (top : b.Top (.block x))
      (unset : x.annotations = none) :
      Does b s (.blockAttrs m) .unit (.setTop (.block { x with annotations := some m }))
  | allocInBlock (shape : List Expr) (dtype : DataType) (o : BufferOptions) (buffer : Buffer)
      {x : BlockScope} (top : b.Top (.block x)) :
      Does b s (.allocBuffer shape dtype o) (.buffer buffer)
        (.setTop (.block { x with allocs := x.allocs ++ [buffer] }))
  | allocInFunc (shape : List Expr) (dtype : DataType) (o : BufferOptions) (buffer : Buffer)
      {g : FuncScope} (top : b.Top (.func g)) :
      Does b s (.allocBuffer shape dtype o) (.buffer buffer)
        (.setTop (.func { g with allocs := g.allocs ++ [buffer] }))
  | matchParam (p : Var) (shape : List Expr) (dtype : DataType) (o : BufferOptions)
      (buffer : Buffer) {g : FuncScope} (top : b.Top (.func g))
      (free : g.bufferMap.contains p = false) :
      Does b s (.matchBuffer (.param p) shape dtype o) (.buffer buffer)
        (.setTop (.func { g with bufferMap := g.bufferMap.insert p buffer }))
  | matchRegion (r : Region) (shape : List Expr) (dtype : DataType) (o : BufferOptions)
      (buffer : Buffer) {x : BlockScope} (top : b.Top (.block x)) :
      Does b s (.matchBuffer (.region r) shape dtype o) (.buffer buffer)
        (.setTop (.block { x with matched := x.matched ++ [⟨buffer, r⟩] }))
  | preflattened (of : Buffer) (shape : List Expr) (dtype : DataType) (o : BufferOptions)
      (buffer : Buffer) {p : Var} {y : Buffer} {g : FuncScope} (top : b.Top (.func g))
      (behind : g.bufferMap.entries.find? (fun e => e.2.sameAs of) = some (p, y))
      (free : g.preflattened.contains p = false) :
      Does b s (.preflattenedBuffer of shape dtype o) (.buffer buffer)
        (.setTop (.func { g with preflattened := g.preflattened.insert p buffer }))
  | argVar (name : String) (v : Var) {g : FuncScope} (top : b.Top (.func g)) :
      Does b s (.argVar name v) (.var (v.renamed name))
        (.setTop (.func { g with params := g.params ++ [v.renamed name] }))
  | argBuffer (name : String) (buffer : Buffer) {g : FuncScope} (top : b.Top (.func g)) :
      Does b s (.argBuffer name buffer) (.buffer { buffer with name })
        (.setTop (.func { g with
          params := g.params ++ [(Var.fresh name .handle s).1]
          bufferMap := g.bufferMap.insert (Var.fresh name .handle s).1 { buffer with name } }))
  | funcName (name : String) {g : FuncScope} (top : b.Top (.func g)) (unset : g.name = none) :
      Does b s (.funcName name) .unit (.setTop (.func { g with name := some name }))
  | funcAttrs (m : Annotations) {g : FuncScope} (top : b.Top (.func g)) (unset : g.attrs = none) :
      Does b s (.funcAttrs m) .unit (.setTop (.func { g with attrs := some m }))
  | funcRet (t : ValueType) {g : FuncScope} (top : b.Top (.func g)) (unset : g.retType = none) :
      Does b s (.funcRet t) (.type t) (.setTop (.func { g with retType := some t }))
  | envThread (v : Var) : Does b s (.envThread v.name) (.var v) (.registerThread v v.name)
  | store (buffer : Buffer) (value : Expr) (indices : List Expr) :
      Does b s (.store buffer value indices) .unit
        (.append (.store buffer (value.castTo buffer.dtype) indices))
  | prefetch (buffer : Buffer) (bounds : List Range) :
      Does b s (.prefetch buffer bounds) .unit (.append (.prefetch buffer bounds))
  | evaluate (value : Expr) : Does b s (.evaluate value) .unit (.append (.evaluate value))
  | axis (kind : AxisKind) (dom : Range) (binding : Expr) (dtype : Option DataType) (v : Var)
      {x : BlockScope} (top : b.Top (.block x)) :
      Does b s (.axis kind dom binding dtype) (.var v)
        (.setTop (.block { x with axes := x.axes ++ [(.axis dom v kind.iterKind, binding)] }))
  | remap (kinds : String) (bindings : List Expr) (dtype : Option DataType)
      {axes : List (IterVar × Expr)} {s' : Supply} {x : BlockScope} (top : b.Top (.block x))
      (made : remapAxes b dtype (kinds.toList.zip bindings) s = .ok (axes, s')) :
      Does b s (.remap kinds bindings dtype) (.vars (axes.map fun a => a.1.var))
        (.setTop (.block { x with axes := x.axes ++ axes }))

theorem effect_does {c : Call} {v : Value} {s s' : Supply}
    (h : c.effect b s = .ok ((eff, v), s')) : Does b s c v eff := by
  cases c with
  | guard p =>
      obtain ⟨he, rfl⟩ := check_value_eq_ok h
      obtain ⟨x, ht, ho, rfl⟩ := blockEffect_eq_ok he
      exact .guard p ht ho
  | reads rs =>
      obtain ⟨he, rfl⟩ := check_value_eq_ok h
      obtain ⟨x, ht, ho, rfl⟩ := blockEffect_eq_ok he
      exact .reads rs ht ho
  | writes rs =>
      obtain ⟨he, rfl⟩ := check_value_eq_ok h
      obtain ⟨x, ht, ho, rfl⟩ := blockEffect_eq_ok he
      exact .writes rs ht ho
  | blockAttrs m =>
      obtain ⟨he, rfl⟩ := check_value_eq_ok h
      obtain ⟨x, ht, ho, rfl⟩ := blockEffect_eq_ok he
      exact .blockAttrs m ht ho
  | funcName name =>
      obtain ⟨he, rfl⟩ := check_value_eq_ok h
      obtain ⟨g, ht, ho, rfl⟩ := funcEffect_eq_ok he
      exact .funcName name ht ho
  | funcAttrs m =>
      obtain ⟨he, rfl⟩ := check_value_eq_ok h
      obtain ⟨g, ht, ho, rfl⟩ := funcEffect_eq_ok he
      exact .funcAttrs m ht ho
  | funcRet t =>
      obtain ⟨he, rfl⟩ := check_value_eq_ok h
      obtain ⟨g, ht, ho, rfl⟩ := funcEffect_eq_ok he
      exact .funcRet t ht ho
  | allocBuffer shape dtype options =>
      simp only [effect, Attempt.bind_eq_ok, Attempt.check_eq_ok, Attempt.pure_eq_ok] at h
      obtain ⟨buffer, _, -, _, _, ⟨he, rfl⟩, h⟩ := h
      cases h
      obtain ⟨x, ht, rfl⟩ | ⟨g, ht, rfl⟩ := ownEffect_eq_ok he
      · exact .allocInBlock shape dtype options buffer ht
      · exact .allocInFunc shape dtype options buffer ht
  | matchBuffer target shape dtype options =>
      simp only [effect, Attempt.bind_eq_ok, Attempt.check_eq_ok, Attempt.pure_eq_ok] at h
      obtain ⟨buffer, _, -, _, _, ⟨he, rfl⟩, h⟩ := h
      cases h
      cases target with
      | param p =>
          obtain ⟨g, ht, hc, rfl⟩ := matchEffect_param_eq_ok he
          exact .matchParam p shape dtype options buffer ht hc
      | region r =>
          obtain ⟨x, ht, rfl⟩ := matchEffect_region_eq_ok he
          exact .matchRegion r shape dtype options buffer ht
  | preflattenedBuffer of shape dtype options =>
      simp only [effect, Attempt.bind_eq_ok, Attempt.check_eq_ok, Attempt.pure_eq_ok] at h
      obtain ⟨buffer, _, -, _, _, ⟨he, rfl⟩, h⟩ := h
      obtain ⟨g, p, y, ht, hp, hc, rfl⟩ := preflattenEffect_eq_ok he
      cases h
      exact .preflattened of shape dtype options buffer ht hp hc
  | argVar name v =>
      simp only [effect, Attempt.bind_eq_ok, Attempt.check_eq_ok, Attempt.pure_eq_ok] at h
      obtain ⟨g, _, ⟨hg, rfl⟩, h⟩ := h
      cases h
      exact .argVar name v (Builder.topFunc_eq_ok_iff.1 hg)
  | argBuffer name buffer =>
      simp only [effect, Attempt.bind_eq_ok, Attempt.check_eq_ok, Attempt.pure_eq_ok,
        Attempt.fresh_eq_ok] at h
      obtain ⟨p, _, hp, g, _, ⟨hg, rfl⟩, h⟩ := h
      cases h
      obtain rfl : p = (Var.fresh name .handle s).1 := congrArg Prod.fst hp
      exact .argBuffer name buffer (Builder.topFunc_eq_ok_iff.1 hg)
  | envThread tag =>
      simp only [effect] at h
      split at h
      · cases h
      · simp only [Attempt.bind_eq_ok, Attempt.pure_eq_ok, Attempt.fresh_eq_ok] at h
        obtain ⟨p, _, hp, h⟩ := h
        cases h
        cases hp
        exact .envThread ⟨_, tag, _, none⟩
  | store buffer value indices =>
      simp only [effect, Attempt.bind_eq_ok, Attempt.pure_eq_ok] at h
      obtain ⟨_, _, -, h⟩ := h
      cases h
      exact .store buffer value indices
  | prefetch buffer bounds =>
      simp only [effect, Attempt.bind_eq_ok, Attempt.pure_eq_ok] at h
      obtain ⟨_, _, -, h⟩ := h
      cases h
      exact .prefetch buffer bounds
  | evaluate value =>
      simp only [effect, Attempt.pure_eq_ok] at h
      cases h
      exact .evaluate value
  | axis kind dom binding dtype =>
      simp only [effect, Attempt.bind_eq_ok, Attempt.check_eq_ok, Attempt.pure_eq_ok] at h
      obtain ⟨x, _, ⟨hx, rfl⟩, p, _, -, h⟩ := h
      cases h
      exact .axis kind dom binding dtype p (Builder.topBlock_eq_ok_iff.1 hx)
  | remap kinds bindings dtype =>
      simp only [effect] at h
      split at h
      · cases h
      · simp only [Attempt.bind_eq_ok, Attempt.check_eq_ok, Attempt.pure_eq_ok] at h
        obtain ⟨x, _, ⟨hx, rfl⟩, axes, _, ha, h⟩ := h
        cases h
        exact .remap kinds bindings dtype (Builder.topBlock_eq_ok_iff.1 hx) ha

end Call

/-- The loop of this mode over `v`, from `min` on and `extent` long. One that is bound to a thread
has the thread beside it, with the same variable and range. -/
def LoopMode.node (v : Var) (min extent : Expr) (annotations : Annotations) : LoopMode → Loop
  | .serial => ⟨v, min, extent, .serial, none, annotations⟩
  | .parallel => ⟨v, min, extent, .parallel, none, annotations⟩
  | .vectorized => ⟨v, min, extent, .vectorized, none, annotations⟩
  | .unrolled => ⟨v, min, extent, .unrolled, none, annotations⟩
  | .thread tag => ⟨v, min, extent, .threadBinding,
      some ⟨some ⟨min, extent⟩, v, .threadIndex, tag⟩, annotations⟩

@[simp]
theorem LoopMode.node_var (v : Var) (min extent : Expr) (m : Annotations) (mode : LoopMode) :
    (mode.node v min extent m).var = v := by
  cases mode <;> rfl

@[simp]
theorem LoopMode.node_extent (v : Var) (min extent : Expr) (m : Annotations) (mode : LoopMode) :
    (mode.node v min extent m).extent = extent := by
  cases mode <;> rfl

theorem Loop.over_eq (mode : LoopMode) (v : Var) (min extent : Expr) (m : Annotations) :
    Loop.over mode v ⟨min, extent⟩ m = mode.node v min extent m := by
  cases mode <;> rfl

namespace Opening

/-- The loop over a dimension of a grid. -/
def gridHead (extent : Expr) (v : Var) : Head :=
  .loop ⟨v, .int 0 v.dtype, extent.asIndex v.dtype, .serial, none, ∅⟩

/-- What an opening that goes through makes, kind by kind. -/
inductive Makes (b : Builder) : Opening → Value → Scope → Prop where
  | primFunc (top : b.frames = []) (idle : b.result = none) : Makes b .primFunc .unit (.func {})
  | block (name : String) (bare : Bool) : Makes b (.block name bare) .unit (.block { name, bare })
  | blockInit {x : BlockScope} (top : b.Top (.block x)) (unset : x.init = none) :
      Makes b .blockInit .unit .blockInit
  | loop (mode : LoopMode) (start stop : Expr) (annotations : Option Annotations) {v : Var}
      {extent : Expr} (type : v.dtype = b.config.loopType start stop)
      (length : (stop.asIndex v.dtype).subFolded (start.asIndex v.dtype) = .ok extent) :
      Makes b (.loop mode start stop annotations) (.var v) (.wrap { kind := .loops, heads :=
        [.loop (mode.node v (start.asIndex v.dtype) extent (annotations.getD ∅))] })
  | grid (extents : List Expr) {vs : List Var} (length : vs.length = extents.length) :
      Makes b (.grid extents) (.vars vs)
        (.wrap { kind := .loops, heads := List.zipWith gridHead extents vs })
  | branch (condition : Expr) : Makes b (.branch condition) .unit (.branch { condition })
  | thenCase {i : BranchScope} (top : b.Top (.branch i)) (unset : i.thenCase = none) :
      Makes b .thenCase .unit .thenCase
  | elseCase {i : BranchScope} (top : b.Top (.branch i)) (set : i.thenCase.isSome)
      (unset : i.elseCase = none) : Makes b .elseCase .unit .elseCase
  | whileLoop (condition : Expr) : Makes b (.whileLoop condition) .unit
      (.wrap { kind := .whileLoop, heads := [.whileLoop condition] })
  | bind (v : Var) (value : Expr) : Makes b (.bind v value) (.var v)
      (.wrap { kind := .bind, heads := [.bind v value] })
  | allocate (extents : List Expr) (dtype : DataType) (scope : String) (condition : Option Expr)
      (annotations : Option Annotations) (buffer : Buffer) :
      Makes b (.allocate extents dtype scope condition annotations) (.buffer buffer)
        (.wrap { kind := .allocate, buffer, heads := [.allocate buffer.data buffer.dtype extents
          (condition.getD (.bool true)) (annotations.getD ∅)] })
  | allocateConst (data : ConstantData) (dtype : DataType) (extents : List Expr)
      (annotations : Option Annotations) (buffer : Buffer) :
      Makes b (.allocateConst data dtype extents annotations) (.buffer buffer)
        (.wrap { kind := .allocateConst, buffer, heads := [.allocateConst buffer.data buffer.dtype
          extents data (annotations.getD ∅)] })
  | attr (node : AttrNode) (key : String) (value : Expr) : Makes b (.attr node key value) .unit
      (.wrap { kind := .attr, heads := [.attr node key value] })
  | assert (condition : Expr) (message : String) : Makes b (.assert condition message) .unit
      (.wrap { kind := .assert, heads := [.assert condition (.str message)] })
  | launchThread (var : Var) (extent : Expr) {g : FuncScope} {t : IterVar}
      (inside : b.nearestFunc? = some g) (registered : g.threads.get? var = some t) :
      Makes b (.launchThread var extent) (.var t.var) (.wrap { kind := .launchThread, heads :=
        [.attr (.iterVar { t with dom := some ⟨.int 0 t.var.dtype, extent⟩ }) "thread_extent"
          extent] })
  | realize (region : Region) (scope : String) (condition : Option Expr)
      (ranks : region.ranges.length = region.buffer.rank) (declared : b.declares region.buffer) :
      Makes b (.realize region scope condition) .unit (.wrap { kind := .realize, heads :=
        [.attr (.var region.buffer.data) "realize_scope" (.str (b.storageScopeOr scope)),
          .realize region (condition.getD (.bool true))] })

theorem gridLoops_eq_ok {b : Builder} {k : Nat} {es : List Expr} {s s' : Supply}
    {loops : List (Var × Head)} (h : gridLoops b k es s = .ok (loops, s')) :
    ∃ vs, vs.length = es.length ∧ loops.map Prod.fst = vs ∧
      loops.map Prod.snd = List.zipWith gridHead es vs := by
  induction es generalizing k s loops with
  | nil =>
      simp only [gridLoops, Attempt.pure_eq_ok] at h
      cases h
      exact ⟨[], rfl, rfl, rfl⟩
  | cons e es ih =>
      simp only [gridLoops, gridLoop, Attempt.bind_eq_ok, Attempt.pure_eq_ok,
        Attempt.fresh_eq_ok] at h
      obtain ⟨_, _, ⟨v, _, hv, hp⟩, rest, _, hr, h⟩ := h
      cases hp
      cases h
      obtain ⟨vs, hl, hf, hs⟩ := ih hr
      have hd : v.dtype = b.config.loopType (.int32 0) e := congrArg (·.1.dtype) hv
      refine ⟨v :: vs, by simp [hl], by simp [hf], ?_⟩
      simp [hs, gridHead, hd, Loop.over_eq, LoopMode.node]

theorem checkFunc_eq_ok {b : Builder} {u : Unit} (h : checkFunc b = .ok u) :
    b.frames = [] ∧ b.result = none := by
  rw [checkFunc, Builder.topKind?] at h
  cases hf : b.frames with
  | cons f fs => simp [hf] at h
  | nil =>
      cases hr : b.result with
      | some r => simp [hf, hr] at h
      | none => exact ⟨rfl, rfl⟩

theorem checkInit_eq_ok {b : Builder} {u : Unit} (h : checkInit b = .ok u) :
    ∃ x, b.Top (.block x) ∧ x.init = none := by
  cases ht : b.topBlock "init" with
  | error e => simp [checkInit, ht] at h
  | ok x =>
      cases hx : x.init with
      | some i =>
          simp [checkInit, ht, hx] at h
      | none => exact ⟨x, Builder.topBlock_eq_ok_iff.1 ht, hx⟩

theorem top?_branch_eq_some {b : Builder} {i : BranchScope} :
    b.top? Scope.branch? = some i → b.Top (.branch i) := by
  intro h
  rw [Builder.top?] at h
  cases hb : b.frames with
  | nil => simp [hb] at h
  | cons f fs =>
      cases hs : f.scope with
      | branch j =>
          simp only [hb, hs, List.head?_cons, Option.bind_some, Scope.branch?,
            Option.some.injEq] at h
          exact ⟨f, fs, hb, by rw [hs, h]⟩
      | func _ | block _ | blockInit | thenCase | elseCase | wrap _ =>
          simp [hb, hs, Scope.branch?] at h

theorem checkThen_eq_ok {b : Builder} {u : Unit} (h : checkThen b = .ok u) :
    ∃ i, b.Top (.branch i) ∧ i.thenCase = none := by
  rw [checkThen] at h
  cases ht : b.top? Scope.branch? with
  | none => simp [ht] at h
  | some i =>
      cases hi : i.thenCase with
      | some s => simp [ht, hi] at h
      | none => exact ⟨i, top?_branch_eq_some ht, hi⟩

theorem checkElse_eq_ok {b : Builder} {u : Unit} (h : checkElse b = .ok u) :
    ∃ i, b.Top (.branch i) ∧ i.thenCase.isSome ∧ i.elseCase = none := by
  rw [checkElse] at h
  cases ht : b.top? Scope.branch? with
  | none => simp [ht] at h
  | some i =>
      cases hi : i.thenCase with
      | none => simp [ht, hi] at h
      | some s =>
          cases he : i.elseCase with
          | some e => simp [ht, hi, he] at h
          | none => exact ⟨i, top?_branch_eq_some ht, by simp [hi], he⟩

theorem registeredThread_eq_ok {b : Builder} {var : Var} {t : IterVar}
    (h : registeredThread b var = .ok t) :
    ∃ g, b.nearestFunc? = some g ∧ g.threads.get? var = some t := by
  rw [registeredThread] at h
  cases hn : b.nearestFunc? with
  | none => simp [hn] at h
  | some g =>
      cases ht : g.threads.get? var with
      | none => simp [hn, ht] at h
      | some t' =>
          simp only [hn, ht, pure_eq_ok, Except.ok.injEq] at h
          exact ⟨g, rfl, by rw [ht, h]⟩

theorem checkRealize_eq_ok {b : Builder} {r : Region} {u : Unit} (h : checkRealize b r = .ok u) :
    r.ranges.length = r.buffer.rank ∧ b.declares r.buffer := by
  rw [checkRealize] at h
  split at h
  · cases h
  · rename_i hr
    split at h
    · rename_i hd
      exact ⟨Decidable.not_not.1 hr, hd⟩
    · cases h

theorem scope_allocate_eq_ok {b : Builder} {extents : List Expr} {dtype : DataType}
    {scope : String} {condition : Option Expr} {annotations : Option Annotations} {v : Value}
    {x : Scope} {s s' : Supply}
    (h : (allocate extents dtype scope condition annotations).scope b s = .ok ((x, v), s')) :
    extents ≠ [] ∧ ∃ buffer : Buffer,
      allocation extents dtype (b.storageScopeOr scope) s = .ok (buffer, s') ∧ v = .buffer buffer ∧
      x = .wrap { kind := .allocate, buffer, heads := [.allocate buffer.data buffer.dtype extents
        (condition.getD (.bool true)) (annotations.getD ∅)] } := by
  simp only [Opening.scope] at h
  split at h
  · cases h
  · rename_i he
    simp only [Attempt.bind_eq_ok, Attempt.pure_eq_ok] at h
    obtain ⟨buffer, _, hb, h⟩ := h
    cases h
    exact ⟨by simpa using he, buffer, hb, rfl, rfl⟩

theorem scope_allocateConst_eq_ok {b : Builder} {data : ConstantData} {dtype : DataType}
    {extents : List Expr} {annotations : Option Annotations} {v : Value} {x : Scope}
    {s s' : Supply}
    (h : (allocateConst data dtype extents annotations).scope b s = .ok ((x, v), s')) :
    (∃ u, data.check dtype extents = .ok u) ∧ ∃ buffer : Buffer,
      allocation extents dtype b.config.storageScope s = .ok (buffer, s') ∧ v = .buffer buffer ∧
      x = .wrap { kind := .allocateConst, buffer, heads := [.allocateConst buffer.data buffer.dtype
        extents data (annotations.getD ∅)] } := by
  simp only [Opening.scope, Attempt.bind_eq_ok, Attempt.check_eq_ok, Attempt.pure_eq_ok] at h
  obtain ⟨u, _, ⟨hc, rfl⟩, buffer, _, hb, h⟩ := h
  cases h
  exact ⟨⟨u, hc⟩, buffer, hb, rfl, rfl⟩

theorem scope_makes {b : Builder} {o : Opening} {v : Value} {scope : Scope} {s s' : Supply}
    (h : o.scope b s = .ok ((scope, v), s')) : Makes b o v scope := by
  cases o with
  | primFunc =>
      simp only [Opening.scope, Attempt.bind_eq_ok, Attempt.check_eq_ok, Attempt.pure_eq_ok] at h
      obtain ⟨_, _, ⟨hc, -⟩, h⟩ := h
      cases h
      obtain ⟨hf, hr⟩ := checkFunc_eq_ok hc
      exact .primFunc hf hr
  | block name bare =>
      simp only [Opening.scope, Attempt.pure_eq_ok] at h
      cases h
      exact .block name bare
  | blockInit =>
      simp only [Opening.scope, Attempt.bind_eq_ok, Attempt.check_eq_ok, Attempt.pure_eq_ok] at h
      obtain ⟨_, _, ⟨hc, -⟩, h⟩ := h
      cases h
      obtain ⟨x, ht, hn⟩ := checkInit_eq_ok hc
      exact .blockInit ht hn
  | loop mode start stop annotations =>
      simp only [Opening.scope, singleLoop, Attempt.bind_eq_ok, Attempt.check_eq_ok,
        Attempt.exact_eq_ok, Attempt.fresh_eq_ok, Attempt.pure_eq_ok] at h
      obtain ⟨_, _, ⟨_, _, -, extent, _, ⟨hl, -⟩, w, _, hw, hp⟩, h⟩ := h
      have hd : w.dtype = b.config.loopType start stop := congrArg (·.1.dtype) hw
      cases hp
      cases h
      rw [← hd] at hl ⊢
      rw [Loop.over_eq]
      exact .loop mode start stop annotations hd hl
  | grid extents =>
      simp only [Opening.scope, Attempt.bind_eq_ok, Attempt.pure_eq_ok] at h
      obtain ⟨loops, _, hl, h⟩ := h
      obtain ⟨vs, hn, hv, hh⟩ := gridLoops_eq_ok hl
      cases h
      rw [hv, hh]
      exact .grid extents hn
  | branch condition =>
      simp only [Opening.scope, Attempt.pure_eq_ok] at h
      cases h
      exact .branch condition
  | thenCase =>
      simp only [Opening.scope, Attempt.bind_eq_ok, Attempt.check_eq_ok, Attempt.pure_eq_ok] at h
      obtain ⟨_, _, ⟨hc, -⟩, h⟩ := h
      cases h
      obtain ⟨i, ht, hn⟩ := checkThen_eq_ok hc
      exact .thenCase ht hn
  | elseCase =>
      simp only [Opening.scope, Attempt.bind_eq_ok, Attempt.check_eq_ok, Attempt.pure_eq_ok] at h
      obtain ⟨_, _, ⟨hc, -⟩, h⟩ := h
      cases h
      obtain ⟨i, ht, hs, hn⟩ := checkElse_eq_ok hc
      exact .elseCase ht hs hn
  | whileLoop condition =>
      simp only [Opening.scope, Attempt.pure_eq_ok] at h
      cases h
      exact .whileLoop condition
  | bind w value =>
      simp only [Opening.scope, Attempt.pure_eq_ok] at h
      cases h
      exact .bind w value
  | allocate extents dtype scope condition annotations =>
      obtain ⟨-, buffer, -, rfl, rfl⟩ := scope_allocate_eq_ok h
      exact .allocate extents dtype scope condition annotations buffer
  | allocateConst data dtype extents annotations =>
      obtain ⟨-, buffer, -, rfl, rfl⟩ := scope_allocateConst_eq_ok h
      exact .allocateConst data dtype extents annotations buffer
  | attr node key value =>
      simp only [Opening.scope, Attempt.pure_eq_ok] at h
      cases h
      exact .attr node key value
  | assert condition message =>
      simp only [Opening.scope, Attempt.pure_eq_ok] at h
      cases h
      exact .assert condition message
  | launchThread var extent =>
      simp only [Opening.scope, Attempt.bind_eq_ok, Attempt.check_eq_ok, Attempt.pure_eq_ok] at h
      obtain ⟨t, _, ⟨hc, -⟩, h⟩ := h
      cases h
      obtain ⟨g, hg, ht⟩ := registeredThread_eq_ok hc
      exact .launchThread var extent hg ht
  | realize region scope condition =>
      simp only [Opening.scope, Attempt.bind_eq_ok, Attempt.check_eq_ok, Attempt.pure_eq_ok] at h
      obtain ⟨_, _, ⟨hc, -⟩, h⟩ := h
      cases h
      obtain ⟨hr, hd⟩ := checkRealize_eq_ok hc
      exact .realize region scope condition hr hd

end Opening

theorem BlockScope.realization_eq_ok {x : BlockScope} {r : Option Realization}
    (h : x.realization = .ok r) :
    r = if x.bare then none else some ⟨x.axes.map Prod.snd, x.predicate.getD (.bool true)⟩ := by
  rw [realization] at h
  cases hb : x.bare with
  | false =>
      simp only [hb, Bool.false_eq_true, if_false] at h
      exact (Except.ok.inj h).symm
  | true =>
      cases ha : x.axes.isEmpty with
      | false => simp [hb, ha] at h
      | true =>
          cases hp : x.predicate with
          | some p => simp [hb, ha, hp] at h
          | none =>
              simp only [hb, ha, hp, Option.isNone_none, if_true] at h
              exact (Except.ok.inj h).symm

/-- What a scope with these statements makes when it is closed. -/
inductive Scope.Closes (c : Config) (stmts : List Stmt) : Scope → Product → Prop where
  | func {g : FuncScope} (sound : g.check = .ok ()) : Closes c stmts (.func g) (.func {
      name := g.name
      params := g.params
      body := if g.allocs.isEmpty then .sequence stmts
        else FuncScope.rootBlock c.rootName g.allocs (.sequence stmts)
      retType := g.retType.getD .void
      bufferMap := g.bufferMap
      preflattened := g.preflattened
      attrs := g.attrs.getD ∅ })
  | block {x : BlockScope} {r : Option Realization} (bound : x.realization = .ok r) :
      Closes c stmts (.block x) (.stmts [.block r x.head x.init (.sequence stmts)])
  | blockInit : Closes c stmts .blockInit (.blockInit (.sequence stmts))
  | branch {i : BranchScope} {s : Stmt} (empty : stmts = []) (paired : i.thenCase = some s) :
      Closes c stmts (.branch i) (.stmts [.branch i.condition s i.elseCase])
  | thenCase : Closes c stmts .thenCase (.thenCase (.sequence stmts))
  | elseCase : Closes c stmts .elseCase (.elseCase (.sequence stmts))
  | wrap (w : Wrapper) : Closes c stmts (.wrap w) (.stmts (w.close stmts))

theorem Frame.close_closes {c : Config} {f : Frame} {p : Product} (h : f.close c = .ok p) :
    f.scope.Closes c f.stmts p := by
  rw [Frame.close] at h
  cases hs : f.scope with
  | func g =>
      cases hc : g.check with
      | error e => simp [hs, FuncScope.close, hc] at h
      | ok u =>
          simp only [hs, FuncScope.close, hc, ok_bind, pure_eq_ok,
            Except.ok.injEq] at h
          exact h ▸ .func hc
  | block x =>
      cases hr : x.realization with
      | error e => simp [hs, BlockScope.close, hr] at h
      | ok r =>
          simp only [hs, BlockScope.close, hr, ok_bind, pure_eq_ok,
            Except.ok.injEq] at h
          exact h ▸ .block hr
  | blockInit =>
      rw [hs] at h
      exact Except.ok.inj h ▸ .blockInit
  | branch i =>
      cases hf : f.stmts with
      | cons s ss =>
          simp [hs, BranchScope.close, hf] at h
      | nil =>
          cases ht : i.thenCase with
          | none =>
              simp [hs, BranchScope.close, hf, ht] at h
          | some s =>
              simp only [hs, BranchScope.close, hf, ht, ok_bind, pure_eq_ok,
                List.isEmpty_nil, if_true, Except.ok.injEq] at h
              exact h ▸ .branch rfl ht
  | thenCase =>
      rw [hs] at h
      exact Except.ok.inj h ▸ .thenCase
  | elseCase =>
      rw [hs] at h
      exact Except.ok.inj h ▸ .elseCase
  | wrap w =>
      rw [hs] at h
      exact Except.ok.inj h ▸ .wrap w

namespace Builder

variable {b b' : Builder}

theorem delivered_func {f : PrimFunc} (h : b.delivered (.func f) = .ok b') :
    b.frames = [] ∧ b.result = none ∧ b' = { b with result := some (.func f) } := by
  rw [delivered, topKind?] at h
  cases hf : b.frames with
  | cons g gs => simp [hf] at h
  | nil =>
      cases hr : b.result with
      | some r => simp [hf, hr] at h
      | none =>
          simp only [hf, hr, List.head?_nil, Option.map_none, Option.isSome_none,
            Bool.false_eq_true, if_false, Except.ok.injEq] at h
          exact ⟨rfl, rfl, h.symm⟩

theorem delivered_blockInit {s : Stmt} (h : b.delivered (.blockInit s) = .ok b') :
    ∃ x, b.Top (.block x) ∧ b' = b.setTop (.block { x with init := some s }) := by
  cases ht : b.topBlock "init" with
  | error e => simp [delivered, ht, Except.map] at h
  | ok x =>
      simp only [delivered, ht, Except.map, Except.ok.injEq] at h
      exact ⟨x, topBlock_eq_ok_iff.1 ht, h.symm⟩

theorem delivered_thenCase {s : Stmt} (h : b.delivered (.thenCase s) = .ok b') :
    ∃ i, b.Top (.branch i) ∧ b' = b.setTop (.branch { i with thenCase := some s }) := by
  cases ht : b.topBranch "then_" with
  | error e => simp [delivered, ht, Except.map] at h
  | ok i =>
      simp only [delivered, ht, Except.map, Except.ok.injEq] at h
      exact ⟨i, topBranch_eq_ok_iff.1 ht, h.symm⟩

theorem delivered_elseCase {s : Stmt} (h : b.delivered (.elseCase s) = .ok b') :
    ∃ i, b.Top (.branch i) ∧ b' = b.setTop (.branch { i with elseCase := some s }) := by
  cases ht : b.topBranch "else_" with
  | error e => simp [delivered, ht, Except.map] at h
  | ok i =>
      simp only [delivered, ht, Except.map, Except.ok.injEq] at h
      exact ⟨i, topBranch_eq_ok_iff.1 ht, h.symm⟩

theorem finish_eq_ok {out : Output} (h : b.finish.1 = .ok out) :
    b.firstError = none ∧ b.frames = [] ∧ b.result = some out := by
  rw [finish] at h
  cases he : b.firstError with
  | some e => simp [he] at h
  | none =>
      cases hf : b.frames with
      | cons f fs => simp [he, hf] at h
      | nil =>
          cases hr : b.result with
          | none => simp [he, hf, hr] at h
          | some r =>
              simp only [he, hf, hr, List.isEmpty_nil, if_true, Except.ok.injEq] at h
              exact ⟨rfl, rfl, by rw [h]⟩

end Builder

end TensorProgram
