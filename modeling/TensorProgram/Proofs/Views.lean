import TensorProgram.Proofs.Effects

/-!
Views. An operation learns of a builder only what can be seen from where it is called: of the
scopes around it the nearest function, the storage scope in force, the buffers that are declared
and the domains of the loops, and of the innermost one whether it is the scope that the operation
belongs into. Builders that look alike from there are open to the same operations.
-/

namespace TensorProgram

namespace Builder

/-- The same can be seen of the scopes around, however far out they are. -/
structure SameContext (b b' : Builder) : Prop where
  config : b'.config = b.config
  nearestFunc : b'.nearestFunc? = b.nearestFunc?
  storageScope : b'.storageScope = b.storageScope
  declares : ∀ x, b'.declares x = b.declares x
  loopDomain : ∀ v, b'.loopDomain? v = b.loopDomain? v

/-- The same can be seen of the innermost scope too. -/
structure SameView (b b' : Builder) : Prop extends b.SameContext b' where
  topKind : b'.topKind? = b.topKind?
  block : b'.top? Scope.block? = b.top? Scope.block?
  func : b'.top? Scope.func? = b.top? Scope.func?
  branch : b'.top? Scope.branch? = b.top? Scope.branch?
  misplaced : ∀ op kind, kind ≠ .loops → b'.misplaced op kind = b.misplaced op kind
  result : b.topKind? = none → b'.result.isSome = b.result.isSome

variable {b b' : Builder}

theorem SameView.topBlock (h : b.SameView b') (op : String) : b'.topBlock op = b.topBlock op := by
  rw [Builder.topBlock, Builder.topBlock, h.block, h.misplaced op .block (by decide)]

theorem SameView.topFunc (h : b.SameView b') (op : String) : b'.topFunc op = b.topFunc op := by
  rw [Builder.topFunc, Builder.topFunc, h.func, h.misplaced op .primFunc (by decide)]

theorem SameView.topBranch (h : b.SameView b') (op : String) :
    b'.topBranch op = b.topBranch op := by
  rw [Builder.topBranch, Builder.topBranch, h.branch, h.misplaced op .branch (by decide)]

/-- A scope of heads is no block, function or conditional. -/
theorem Top.block? {w : Wrapper} (h : b.Top (.wrap w)) : b.top? Scope.block? = none := by
  obtain ⟨f, fs, hf, hx⟩ := h
  simp [top?, hf, hx, Scope.block?]

theorem Top.branch? {w : Wrapper} (h : b.Top (.wrap w)) : b.top? Scope.branch? = none := by
  obtain ⟨f, fs, hf, hx⟩ := h
  simp [top?, hf, hx, Scope.branch?]

theorem Top.topBlock {w : Wrapper} (h : b.Top (.wrap w)) (op : String) :
    b.topBlock op = .error (b.misplaced op .block) := by
  rw [Builder.topBlock, h.block?]
  rfl

end Builder

/-! Openings. -/

theorem Attempt.check_bind_error {α β : Type} {x : Except BuildError α} {e : BuildError}
    (h : x = .error e) (f : α → Attempt β) (s : Supply) :
    (check x >>= f) s = .error (.refused e) := by
  rw [bind_apply, check_apply, h]

/-- Only a check stands between the start and a result. -/
theorem Attempt.check_of_error {α β : Type} {x : Except BuildError α} {g : α → β} {f : Failure}
    {s : Supply} (h : (check x >>= fun a => pure (g a)) s = .error f) : ∃ e, x = .error e := by
  cases x with
  | error e => exact ⟨e, rfl⟩
  | ok a => cases h

namespace Opening

variable {b b' : Builder}

theorem gridLoops_congr (h : b'.config = b.config) (k : Nat) (es : List Expr) :
    gridLoops b' k es = gridLoops b k es := by
  induction es generalizing k with
  | nil => rfl
  | cons e es ih => simp only [gridLoops, gridLoop, h, ih]

theorem checkFunc_congr (h : b.SameView b') : checkFunc b' = checkFunc b := by
  rw [checkFunc, checkFunc, h.topKind]
  cases ht : b.topKind? with
  | some k => rfl
  | none => rw [h.result ht]

/-- Whether `realize` is accepted hangs on the buffers that are declared around it. -/
theorem checkRealize_congr (h : b.SameContext b') (r : Region) :
    checkRealize b' r = checkRealize b r := by
  rw [checkRealize, checkRealize, h.declares]

theorem registeredThread_congr (h : b.SameContext b') (v : Var) :
    registeredThread b' v = registeredThread b v := by
  rw [registeredThread, registeredThread, h.nearestFunc]

/-- An opening that does not belong into a scope of its own kind looks at the context only. -/
theorem scope_congr_context (h : b.SameContext b') {o : Opening}
    (ho : o ≠ .primFunc ∧ o ≠ .blockInit ∧ o ≠ .thenCase ∧ o ≠ .elseCase) (s : Supply) :
    o.scope b' s = o.scope b s := by
  cases o with
  | primFunc => exact absurd rfl ho.1
  | blockInit => exact absurd rfl ho.2.1
  | thenCase => exact absurd rfl ho.2.2.1
  | elseCase => exact absurd rfl ho.2.2.2
  | loop mode start stop annotations => simp only [scope, singleLoop, h.config]
  | grid extents => simp only [scope, gridLoops_congr h.config]
  | allocate extents dtype scope condition annotations =>
      simp only [Opening.scope, Builder.storageScopeOr, h.storageScope]
  | allocateConst data dtype extents annotations => simp only [scope, h.config]
  | launchThread var extent => simp only [scope, registeredThread_congr h]
  | realize region scope condition =>
      simp only [Opening.scope, checkRealize_congr h, Builder.storageScopeOr, h.storageScope]
  | block _ _ | branch _ | whileLoop _ | bind _ _ | attr _ _ _ | assert _ _ => rfl

theorem scope_congr (h : b.SameView b') (o : Opening) (s : Supply) :
    o.scope b' s = o.scope b s := by
  cases o with
  | primFunc => simp only [scope, checkFunc_congr h]
  | blockInit => simp only [scope, checkInit, h.topBlock]
  | thenCase => simp only [scope, checkThen, h.branch]
  | elseCase => simp only [scope, checkElse, h.branch]
  | _ => exact scope_congr_context h.toSameContext (by simp) s

/-- Right inside a scope of heads nothing is accepted that belongs into another scope, and all
else looks at the context only. -/
theorem scope_inside (h : b.SameContext b') {w : Wrapper} (ht : b.Top (.wrap w)) (o : Opening)
    (s : Supply) :
    (∃ e, o.scope b s = .error (.refused e)) ∨ o.scope b' s = o.scope b s := by
  cases o with
  | primFunc =>
      obtain ⟨f, fs, hf, -⟩ := ht
      have hc : checkFunc b = .error (.nestedFunction f.kind) := by
        simp [checkFunc, Builder.topKind?, hf]
      exact Or.inl ⟨_, Attempt.check_bind_error hc _ s⟩
  | blockInit =>
      have hc : checkInit b = .error (b.misplaced "init" .block) := by
        rw [checkInit, ht.topBlock]
        rfl
      exact Or.inl ⟨_, Attempt.check_bind_error hc _ s⟩
  | thenCase =>
      have hc : checkThen b = .error .thenOutsideIf := by rw [checkThen, ht.branch?]; rfl
      exact Or.inl ⟨_, Attempt.check_bind_error hc _ s⟩
  | elseCase =>
      have hc : checkElse b = .error .elseOutsideIf := by rw [checkElse, ht.branch?]; rfl
      exact Or.inl ⟨_, Attempt.check_bind_error hc _ s⟩
  | _ => exact Or.inr (scope_congr_context h (by simp) s)

end Opening

/-! Calls. -/

namespace Call

variable {b b' : Builder}

theorem remapAxis_congr (h : b.SameContext b') (dtype : Option DataType) (c : Char) (e : Expr) :
    remapAxis b' dtype c e = remapAxis b dtype c e := by
  simp only [remapAxis, h.loopDomain]

theorem remapAxes_congr (h : b.SameContext b') (dtype : Option DataType) (ps : List (Char × Expr)) :
    remapAxes b' dtype ps = remapAxes b dtype ps := by
  induction ps with
  | nil => rfl
  | cons p ps ih => simp only [remapAxes, remapAxis_congr h, ih]

theorem afterAxes_congr (h : b.SameContext b') (dtype : Option DataType) (ps : List (Char × Expr))
    (s : Supply) : afterAxes b' dtype ps s = afterAxes b dtype ps s := by
  induction ps generalizing s with
  | nil => rfl
  | cons p ps ih => simp only [afterAxes, remapAxis_congr h, ih]

theorem effect_congr (h : b.SameView b') (c : Call) (s : Supply) :
    c.effect b' s = c.effect b s := by
  cases c with
  | guard _ | reads _ | writes _ | blockAttrs _ => simp only [effect, blockEffect, h.topBlock]
  | funcName _ | funcAttrs _ | funcRet _ => simp only [effect, funcEffect, h.topFunc]
  | allocBuffer shape dtype options =>
      simp only [effect, ownEffect, h.config, h.block, h.func, h.misplaced _ .block (by decide)]
  | matchBuffer target shape dtype options =>
      cases target <;> simp only [effect, matchEffect, h.config, h.topFunc, h.topBlock]
  | preflattenedBuffer of shape dtype options => simp only [effect, preflattenEffect, h.topFunc]
  | argVar _ _ | argBuffer _ _ => simp only [effect, h.topFunc]
  | envThread tag => simp only [effect, h.config, h.nearestFunc]
  | axis kind dom binding dtype => simp only [effect, h.topBlock]
  | remap kinds bindings dtype =>
      simp only [effect, h.topBlock, remapAxes_congr h.toSameContext]
  | store _ _ _ | prefetch _ _ | evaluate _ => rfl

/-- What goes through right inside a scope of heads looks at the context only. -/
theorem effect_inside (h : b.SameContext b') {w : Wrapper} (ht : b.Top (.wrap w)) {c : Call}
    {s s' : Supply} {eff : Effect} {v : Value} (he : c.effect b s = .ok ((eff, v), s')) :
    c.effect b' s = c.effect b s ∧ ∀ x, eff ≠ .setTop x := by
  have hd := effect_does he
  cases hd with
  | guard _ top _ | reads _ top _ | writes _ top _ | blockAttrs _ top _ | allocInBlock _ _ _ _ top
  | matchRegion _ _ _ _ _ top | axis _ _ _ _ _ top | remap _ _ _ top _
  | allocInFunc _ _ _ _ top | matchParam _ _ _ _ _ top _ | preflattened _ _ _ _ _ top _ _
  | argVar _ _ top | argBuffer _ _ top | funcName _ top _ | funcAttrs _ top _
  | funcRet _ top _ => cases top.unique ht
  | envThread v =>
      refine ⟨?_, fun _ h => by cases h⟩
      simp only [effect, h.config, h.nearestFunc]
  | store _ _ _ | prefetch _ _ | evaluate _ => exact ⟨rfl, fun _ h => by cases h⟩

/-- The supply after a declaration, which takes nothing if it fails. -/
def afterDeclare (shape : List Expr) (dtype : DataType) (o : BufferOptions) (s : Supply) : Supply :=
  match Buffer.declare shape dtype o s with
  | .ok (_, s') => s'
  | .error _ => s

/-- The supply after the call has been refused: what was made before then is used up. -/
def spent (b : Builder) (s : Supply) : Call → Supply
  | .allocBuffer shape dtype options | .matchBuffer _ shape dtype options =>
      afterDeclare shape dtype (options.alignmentOr b.config.alignment) s
  | .preflattenedBuffer of shape dtype options =>
      afterDeclare shape dtype { options with data := options.data.or (some of.data) } s
  | .argBuffer _ _ => s.take.2
  | .remap kinds bindings dtype =>
      if kinds.length = bindings.length ∧ (b.topBlock "axis::remap").isOk then
        afterAxes b dtype (kinds.toList.zip bindings) s
      else s
  | _ => s

theorem spent_congr (h : b.SameView b') (c : Call) (s : Supply) : c.spent b' s = c.spent b s := by
  cases c with
  | allocBuffer _ _ _ | matchBuffer _ _ _ _ => simp only [spent, h.config]
  | remap kinds bindings dtype =>
      simp only [spent, h.topBlock, afterAxes_congr h.toSameContext]
  | _ => rfl

theorem supply_perform {α : Type} (u : Builder → Except BuildError Effect) (a : α) (b : Builder)
    (s : Supply) : ((do Edit.perform u; return a : Edit α) (b, s)).2.2 = s := by
  simp only [bind_inPlace, Edit.perform]
  cases u b with
  | error e => rfl
  | ok eff =>
      dsimp only
      cases b.performed eff <;> rfl

/-- A declaration and what is done to the builder with it. -/
theorem supply_declare {shape : List Expr} {dtype : DataType} {o : Builder → BufferOptions}
    (u : Buffer → Builder → Except BuildError Effect) (b : Builder) (s : Supply) :
    ((do
        let buffer ← Edit.attempt fun b => .declare shape dtype (o b)
        Edit.perform (u buffer)
        return Value.buffer buffer : Edit Value) (b, s)).2.2 =
      afterDeclare shape dtype (o b) s := by
  rw [bind_inPlace, Edit.attempt_apply, Attempt.declare_apply, afterDeclare]
  cases Buffer.declare shape dtype (o b) s with
  | error e => rfl
  | ok p => exact supply_perform _ _ b p.2

theorem supply_run {c : Call} {s : Supply} {f : Failure} (h : c.effect b s = .error f) :
    (c.run (b, s)).2.2 = c.spent b s := by
  cases c with
  | guard _ | reads _ | writes _ | blockAttrs _ =>
      simp only [run, setBlock_eq]
      exact supply_perform _ _ b s
  | funcName _ | funcAttrs _ | funcRet _ =>
      simp only [run, setFunc_eq]
      exact supply_perform _ _ b s
  | allocBuffer shape dtype options =>
      simp only [run, own_eq]
      exact supply_declare (fun x b => ownEffect b x) b s
  | matchBuffer target shape dtype options =>
      simp only [run, matchTo_eq]
      exact supply_declare (fun x b => matchEffect b x target) b s
  | preflattenedBuffer of shape dtype options =>
      simp only [run, preflatten_eq]
      exact supply_declare (fun x b => preflattenEffect b of x) b s
  | argVar name v | argBuffer name buffer =>
      cases ht : b.topFunc "arg" <;>
        simp [run, Edit.fresh, Edit.attempt_apply, Attempt.fresh_apply, Edit.look_apply, ht, spent]
      all_goals rfl
  | envThread tag =>
      simp only [effect] at h
      split at h
      · rename_i hn
        simp only [run, bind_inPlace, Edit.get_apply, spent]
        rw [if_pos hn]
        rfl
      · cases h
  | store buffer value indices =>
      obtain ⟨e, he⟩ := Attempt.check_of_error h
      simp [run, Edit.look_apply, he, spent]
  | prefetch buffer bounds =>
      obtain ⟨e, he⟩ := Attempt.check_of_error h
      simp [run, Edit.look_apply, he, spent]
  | evaluate value => cases h
  | axis kind dom binding dtype =>
      cases ht : b.topBlock kind.op with
      | error e => simp [run, Edit.look_apply, ht, spent]
      | ok x =>
          simp only [effect, Attempt.bind_apply, Attempt.check_apply, ht] at h
          cases h
  | remap kinds bindings dtype =>
      simp only [effect] at h
      simp only [run, spent]
      split at h
      · rename_i hl
        rw [if_pos hl, if_neg fun hc => hl hc.1]
        rfl
      · rename_i hl
        rw [if_neg hl]
        cases ht : b.topBlock "axis::remap" with
        | error e => simp [Edit.look_apply, ht, Except.isOk, Except.toBool]
        | ok x =>
            simp only [Attempt.bind_apply, Attempt.check_apply, ht] at h
            simp only [bind_inPlace, Edit.look_apply, makeAxes_apply, ht]
            rw [if_pos ⟨Decidable.not_not.1 hl, rfl⟩]
            cases ha : remapAxes b dtype (kinds.toList.zip bindings) s with
            | error e => rfl
            | ok p =>
                rw [ha] at h
                cases h

theorem run_of_effect_error {c : Call} {s : Supply} {f : Failure} (h : c.effect b s = .error f) :
    c.run (b, s) = (.error f, b, c.spent b s) := by
  have ht := run_transacts c b s
  simp only [h, Edit.Settles] at ht
  obtain ⟨s', hr⟩ := ht
  rw [hr, ← supply_run h, hr]

end Call

/-- A call is the effect that it comes to, performed, or else its failure. -/
theorem Builder.call_eq (b : Builder) (s : Supply) (c : Call) :
    b.call s c = match c.effect b s with
      | .error f => (.error f, b.failed f, c.spent b s)
      | .ok ((eff, v), s') => match b.performed eff with
          | .ok b' => (.ok v, b', s')
          | .error e => (.error (.refused e), b.record e, s') := by
  cases he : c.effect b s with
  | error f =>
      rw [call, edit, Call.run_of_effect_error he]
      cases f <;> rfl
  | ok p =>
      have ht := Call.run_transacts c b s
      simp only [he, Edit.Settles] at ht
      rw [call, edit, ht]
      dsimp only
      cases b.performed p.1.1 <;> rfl

namespace Builder

/-- Why a scope cannot be closed under `f`. -/
def missed (fs : List Frame) (f : Frame) (id : Nat) (kind : ScopeKind) : BuildError :=
  if fs.any (·.id = id) then .outOfOrderClose kind f.kind else .frameNotOpen kind

variable {b : Builder} {id : Nat}

theorem close_of_nil (kind : ScopeKind) (h : b.frames = []) :
    b.close id kind = (.error (.frameNotOpen kind), b.record (.frameNotOpen kind)) := by
  simp [close, Change.close, h]

theorem close_of_ne (kind : ScopeKind) {f : Frame} {fs : List Frame} (h : b.frames = f :: fs)
    (hid : f.id ≠ id) :
    b.close id kind = (.error (missed fs f id kind), b.record (missed fs f id kind)) := by
  simp only [close, Change.close, h, bind_inPlace, Change.get_apply, if_neg hid, missed]
  cases fs.any (·.id = id) <;> rfl

theorem close_of_delivered (kind : ScopeKind) {f : Frame} {fs : List Frame} {p : Product}
    {b' : Builder} (h : b.frames = f :: fs) (hp : f.close b.config = .ok p)
    (hd : { b with frames := fs }.delivered p = .ok b') : b.close f.id kind = (.ok (), b') := by
  rw [close_of_top kind h, hp]
  simp only [Except.bind, hd]

/-- A scope on top is removed. Its product is delivered, or there is a mistake. -/
theorem close_cases (kind : ScopeKind) {f : Frame} {fs : List Frame} (h : b.frames = f :: fs) :
    (∃ e, b.close f.id kind = (.error e, { b with frames := fs }.record e)) ∨
      ∃ p b', f.close b.config = .ok p ∧ { b with frames := fs }.delivered p = .ok b' ∧
        b.close f.id kind = (.ok (), b') := by
  have hc := close_of_top kind h
  cases hp : f.close b.config with
  | error e =>
      rw [hp] at hc
      exact Or.inl ⟨e, hc⟩
  | ok p =>
      cases hd : { b with frames := fs }.delivered p with
      | error e =>
          simp only [hp, Except.bind, hd] at hc
          exact Or.inl ⟨e, hc⟩
      | ok b' => exact Or.inr ⟨p, b', rfl, hd, close_of_delivered kind h hp hd⟩

end Builder

end TensorProgram
