import TensorProgram.Proofs.Masking
import TensorProgram.Proofs.Transaction

/-!
Equivariance. What is read off a masked value, or made of it, is the mask of what is read off
the value or made of it, as long as different variables stay different. Nothing depends on what
a variable is called, apart from the texts of errors.
-/

namespace TensorProgram

open Masked

/-! What is given to calls, and what a builder holds. -/

instance : Masked BufferOptions where
  mask ρ o := { o with
    data := mask ρ o.data, strides := mask ρ o.strides, elemOffset := mask ρ o.elemOffset }

instance : LawfulMasked BufferOptions where
  mask_mask {ρ} hρ τ o := by
    have h (ρ : VarId → VarId) (o : BufferOptions) : mask ρ o = { o with
        data := mask ρ o.data, strides := mask ρ o.strides, elemOffset := mask ρ o.elemOffset } :=
      rfl
    simp only [h, mask_mask hρ]

instance : Masked MatchTarget where
  mask ρ
    | .param v => .param (mask ρ v)
    | .region r => .region (mask ρ r)

instance : LawfulMasked MatchTarget where
  mask_mask hρ τ t := by
    cases t with
    | param v => exact congrArg MatchTarget.param (mask_mask hρ τ v)
    | region r => exact congrArg MatchTarget.region (mask_mask hρ τ r)

instance : Masked FuncScope where
  mask ρ f := { f with
    params := mask ρ f.params
    bufferMap := mask ρ f.bufferMap
    preflattened := mask ρ f.preflattened
    attrs := mask ρ f.attrs
    threads := mask ρ f.threads
    allocs := mask ρ f.allocs }

instance : Masked BlockScope where
  mask ρ x := { x with
    axes := mask ρ x.axes
    reads := mask ρ x.reads
    writes := mask ρ x.writes
    predicate := mask ρ x.predicate
    annotations := mask ρ x.annotations
    allocs := mask ρ x.allocs
    matched := mask ρ x.matched
    init := mask ρ x.init }

instance : Masked BranchScope where
  mask ρ i := ⟨mask ρ i.condition, mask ρ i.thenCase, mask ρ i.elseCase⟩

instance : Masked Wrapper where
  mask ρ w := ⟨w.kind, mask ρ w.heads, mask ρ w.buffer⟩

instance : Masked Scope where
  mask ρ
    | .func f => .func (mask ρ f)
    | .block x => .block (mask ρ x)
    | .blockInit => .blockInit
    | .branch i => .branch (mask ρ i)
    | .thenCase => .thenCase
    | .elseCase => .elseCase
    | .wrap w => .wrap (mask ρ w)

instance : Masked Product where
  mask ρ
    | .stmts ss => .stmts (mask ρ ss)
    | .func f => .func (mask ρ f)
    | .blockInit s => .blockInit (mask ρ s)
    | .thenCase s => .thenCase (mask ρ s)
    | .elseCase s => .elseCase (mask ρ s)

instance : Masked Frame where
  mask ρ f := ⟨f.id, mask ρ f.scope, mask ρ f.stmts⟩

instance : Masked Builder where
  mask ρ b := { b with
    frames := mask ρ b.frames
    result := mask ρ b.result
    firstError := mask ρ b.firstError }

/-- Of a supply there is left what has not been handed out. -/
instance : Masked Supply where
  mask ρ s := ⟨fun n => ρ (s.stream (s.used + n)), 0⟩

/-! Expressions. -/

section

variable (ρ : VarId → VarId)

namespace Buffer

@[simp]
theorem data_mask (b : Buffer) : (mask ρ b).data = mask ρ b.data := by
  cases b
  rfl

@[simp]
theorem dtype_mask (b : Buffer) : (mask ρ b).dtype = b.dtype := by
  cases b
  rfl

@[simp]
theorem shape_mask (b : Buffer) : (mask ρ b).shape = mask ρ b.shape := by
  cases b
  exact Expr.maskedList_eq ρ _

@[simp]
theorem name_mask (b : Buffer) : (mask ρ b).name = b.name := by
  cases b
  rfl

@[simp]
theorem rank_mask (b : Buffer) : (mask ρ b).rank = b.rank := by
  simp [rank]

theorem withName_mask (b : Buffer) (name : String) :
    mask ρ { b with name } = { mask ρ b with name } := by
  cases b
  rfl

end Buffer

namespace Expr

@[simp]
theorem dtype_mask : (e : Expr) → (mask ρ e).dtype = e.dtype
  | .int _ _ | .float _ _ | .str _ | .var _ | .cast _ _ | .call _ _ _ => rfl
  | .binary op a _ => by rw [mask_binary, dtype, dtype, dtype_mask a]
  | .not a => a.dtype_mask
  | .load b is => by
      rw [mask_load]
      exact b.dtype_mask ρ
termination_by structural e => e

@[simp]
theorem asInt?_mask (e : Expr) : (mask ρ e).asInt? = e.asInt? := by
  cases e <;> rfl

@[simp]
theorem asVar?_mask (e : Expr) : (mask ρ e).asVar? = mask ρ e.asVar? := by
  cases e <;> rfl

@[simp]
theorem isLiteral_mask (e : Expr) : (mask ρ e).isLiteral = e.isLiteral := by
  simp [isLiteral]

@[simp]
theorem castTo_mask (d : DataType) (e : Expr) : (mask ρ e).castTo d = mask ρ (e.castTo d) := by
  rw [castTo, castTo, dtype_mask]
  split <;> rfl

@[simp]
theorem asIndex_mask (d : DataType) (e : Expr) : (mask ρ e).asIndex d = mask ρ (e.asIndex d) := by
  cases e with
  | int v _ => rfl
  | _ => exact castTo_mask ρ d _

/-- Whether a difference folds, and whether it overflows, is up to the literals in it. -/
theorem subFolded_mask (a b : Expr) :
    (mask ρ a).subFolded (mask ρ b) = (a.subFolded b).map (mask ρ) := by
  have hd (a : Expr) (y : Int64) (d : DataType) :
      (Except.ok (if y = 0 then mask ρ a else .binary .sub (mask ρ a) (.int y d)) :
        Except Overflow Expr) =
        (Except.ok (if y = 0 then a else .binary .sub a (.int y d))).map (mask ρ) := by
    split <;> rfl
  cases b with
  | int y d =>
      cases a with
      | int x d' =>
          change (subExact x y >>= fun z => Except.ok (Expr.int z d')) =
            (subExact x y >>= fun z => Except.ok (Expr.int z d')).map (mask ρ)
          cases subExact x y <;> rfl
      | _ => exact hd _ y d
  | _ => cases a <;> rfl

theorem addFolded_mask (a b : Expr) :
    (mask ρ a).addFolded (mask ρ b) = (a.addFolded b).map (mask ρ) := by
  have hl (b : Expr) (x : Int64) (d : DataType) :
      (Except.ok (if x = 0 then mask ρ b else .binary .add (.int x d) (mask ρ b)) :
        Except Overflow Expr) =
        (Except.ok (if x = 0 then b else .binary .add (.int x d) b)).map (mask ρ) := by
    split <;> rfl
  have hr (a : Expr) (y : Int64) (d : DataType) :
      (Except.ok (if y = 0 then mask ρ a else .binary .add (mask ρ a) (.int y d)) :
        Except Overflow Expr) =
        (Except.ok (if y = 0 then a else .binary .add a (.int y d))).map (mask ρ) := by
    split <;> rfl
  cases a with
  | int x d =>
      cases b with
      | int y d' =>
          change (addExact x y >>= fun z => Except.ok (Expr.int z d)) =
            (addExact x y >>= fun z => Except.ok (Expr.int z d)).map (mask ρ)
          cases addExact x y <;> rfl
      | _ => exact hl _ x d
  | _ =>
      cases b with
      | int y d => exact hr _ y d
      | _ => rfl

end Expr

theorem Range.point_mask (e : Expr) :
    Range.point (mask ρ e) = mask ρ (Range.point e) := by
  rw [Range.point, Expr.dtype_mask]
  rfl

theorem Range.upTo_mask (e : Expr) :
    Range.upTo (mask ρ e) = mask ρ (Range.upTo e) := by
  rw [Range.upTo, Expr.dtype_mask]
  rfl

theorem Buffer.full_mask (b : Buffer) :
    (mask ρ b).full = mask ρ b.full := by
  have hr : (mask ρ b.shape).map Range.upTo = mask ρ (b.shape.map Range.upTo) := by
    rw [mask_list, mask_list, List.map_map, List.map_map]
    exact List.map_congr_left fun e _ => Range.upTo_mask ρ e
  rw [Buffer.full, Buffer.shape_mask, hr]
  rfl

theorem Buffer.point_mask (b : Buffer) (is : List Expr) :
    (mask ρ b).point (mask ρ is) = mask ρ (b.point is) := by
  have hr : (mask ρ is).map Range.point = mask ρ (is.map Range.point) := by
    rw [mask_list, mask_list, List.map_map, List.map_map]
    exact List.map_congr_left fun e _ => Range.point_mask ρ e
  rw [Buffer.point, hr]
  rfl

theorem Range.ofBounds_mask (start stop : Expr) :
    ofBounds (mask ρ start) (mask ρ stop) = (ofBounds start stop).map (mask ρ) := by
  change ((mask ρ stop).subFolded (mask ρ start) >>= fun e =>
      Except.ok (Range.mk (mask ρ start) e)) =
    (stop.subFolded start >>= fun e => Except.ok (Range.mk start e)).map (mask ρ)
  rw [Expr.subFolded_mask]
  cases stop.subFolded start <;> rfl

end

section

variable {α β : Type} [Masked α] [Masked β] (ρ : VarId → VarId)

theorem map_fst_mask (l : List (α × β)) : (mask ρ l).map Prod.fst = mask ρ (l.map Prod.fst) := by
  simp only [mask_list, List.map_map]
  rfl

theorem map_snd_mask (l : List (α × β)) : (mask ρ l).map Prod.snd = mask ρ (l.map Prod.snd) := by
  simp only [mask_list, List.map_map]
  rfl

end

/-! Maps. A key is found under an injective map exactly where it was. -/

namespace OrderedMap

variable {β : Type} [Masked β] {ρ : VarId → VarId}

theorem keys_mask (hρ : Function.Injective ρ) (m : OrderedMap Var β) :
    (mask ρ m).keys = mask ρ m.keys := by
  rw [keys, entries_mask hρ, keys, map_fst_mask]

theorem values_mask (hρ : Function.Injective ρ) (m : OrderedMap Var β) :
    (mask ρ m).values = mask ρ m.values := by
  rw [values, entries_mask hρ, values, map_snd_mask]

theorem find?_mask {α : Type} [Masked α] {p q : α → Bool} (h : ∀ a, p (mask ρ a) = q a)
    (as : List α) : (mask ρ as).find? p = mask ρ (as.find? q) := by
  induction as with
  | nil => rfl
  | cons a as ih =>
      rw [mask_cons, List.find?_cons, List.find?_cons, h, ih]
      cases q a <;> rfl

theorem get?_mask (hρ : Function.Injective ρ) (m : OrderedMap Var β) (v : Var) :
    (mask ρ m).get? (mask ρ v) = mask ρ (m.get? v) := by
  have hk (e : Var × β) : decide (Keyed.key (mask ρ e).1 = Keyed.key (mask ρ v)) =
      decide (Keyed.key e.1 = Keyed.key v) := decide_eq_decide.2 hρ.eq_iff
  rw [get?, entries_mask hρ, find?_mask hk, get?]
  cases m.entries.find? fun e => decide (Keyed.key e.1 = Keyed.key v) <;> rfl

theorem contains_mask (hρ : Function.Injective ρ) (m : OrderedMap Var β) (v : Var) :
    (mask ρ m).contains (mask ρ v) = m.contains v := by
  rw [contains, get?_mask hρ, isSome_mask, contains]

theorem put_mask (hρ : Function.Injective ρ) (v : Var) (b : β) (es : List (Var × β)) :
    put (mask ρ v) (mask ρ b) (mask ρ es) = mask ρ (put v b es) := by
  induction es with
  | nil => rfl
  | cons e es ih =>
      have hk : Keyed.key (mask ρ e).1 = Keyed.key (mask ρ v) ↔ Keyed.key e.1 = Keyed.key v :=
        hρ.eq_iff
      rw [mask_cons, put, put, ih]
      by_cases h : Keyed.key e.1 = Keyed.key v
      · rw [if_pos h, if_pos (hk.2 h)]
        rfl
      · rw [if_neg h, if_neg (mt hk.1 h)]
        rfl

theorem insert_mask (hρ : Function.Injective ρ) (m : OrderedMap Var β) (v : Var) (b : β) :
    (mask ρ m).insert (mask ρ v) (mask ρ b) = mask ρ (m.insert v b) := by
  refine OrderedMap.ext ?_
  rw [entries_insert, entries_mask hρ, entries_mask hρ, put_mask hρ, entries_insert]

end OrderedMap

theorem Annotations.insert_mask (key : String) (τ : VarId → VarId) (m : Annotations)
    (a : AttrValue) : (mask τ m).insert key (mask τ a) = mask τ (m.insert key a) := by
  refine OrderedMap.ext ?_
  have hm (m : Annotations) : (mask τ m).entries = m.entries.map fun e => (e.1, mask τ e.2) := rfl
  rw [OrderedMap.entries_insert, hm, hm, OrderedMap.entries_insert]
  induction m.entries with
  | nil => rfl
  | cons e es ih =>
      rw [List.map_cons, OrderedMap.put, OrderedMap.put, ih]
      dsimp only
      split <;> rfl

section

variable {α β : Type} [Masked α] [Masked β] {ρ : VarId → VarId}

theorem any_mask {p q : α → Bool} (h : ∀ a, p (mask ρ a) = q a) (as : List α) :
    (mask ρ as).any p = as.any q := by
  simp [mask_list, Function.comp_def, h]

theorem findSome?_mask {f g : α → Option β} (h : ∀ a, f (mask ρ a) = mask ρ (g a))
    (as : List α) : (mask ρ as).findSome? f = mask ρ (as.findSome? g) := by
  induction as with
  | nil => rfl
  | cons a as ih =>
      rw [mask_cons, List.findSome?_cons, List.findSome?_cons, h, ih]
      cases g a <;> rfl

theorem flatMap_mask {f g : α → List β} (h : ∀ a, f (mask ρ a) = mask ρ (g a)) (as : List α) :
    (mask ρ as).flatMap f = mask ρ (as.flatMap g) := by
  induction as with
  | nil => rfl
  | cons a as ih => rw [mask_cons, List.flatMap_cons, List.flatMap_cons, h, ih, mask_append]

end

theorem Var.same_mask {ρ : VarId → VarId} (hρ : Function.Injective ρ) (v w : Var) :
    (mask ρ v).same (mask ρ w) = v.same w :=
  decide_eq_decide.2 hρ.eq_iff

theorem Buffer.sameAs_mask {ρ : VarId → VarId} (hρ : Function.Injective ρ) (b c : Buffer) :
    (mask ρ b).sameAs (mask ρ c) = b.sameAs c := by
  simp only [sameAs, data_mask, name_mask, Var.same_mask hρ]

theorem getD_mask {α : Type} [Masked α] (ρ : VarId → VarId) (a : Option α) (d : α) :
    (mask ρ a).getD (mask ρ d) = mask ρ (a.getD d) := by
  cases a <;> rfl

/-- Two computations that fail alike or go on from like results, to like results. -/
theorem mask_bind {ε α β : Type} [Masked ε] [Masked α] [Masked β] {ρ τ : VarId → VarId}
    {x y : Except ε α} {f g : α → Except ε β} (h : mask ρ x = mask τ y)
    (hf : ∀ a b, mask ρ a = mask τ b → mask ρ (f a) = mask τ (g b)) :
    mask ρ (x >>= f) = mask τ (y >>= g) := by
  cases x with
  | error e =>
      cases y with
      | error e' => exact congrArg Except.error (Except.error.inj h)
      | ok b => cases h
  | ok a =>
      cases y with
      | error e' => cases h
      | ok b => exact hf a b (Except.ok.inj h)

/-- An error that names no variable is the same under every mask. -/
theorem mask_of_map {α : Type} [Masked α] [LawfulMasked α] {ρ : VarId → VarId}
    (hρ : Function.Injective ρ) {x y : Except BuildError α} (h : y = x.map (mask ρ)) :
    mask ρ x = mask id y := by
  subst h
  cases x with
  | error e => rfl
  | ok a => exact congrArg Except.ok (mask_mask hρ id a).symm

/-! Scopes. -/

section

variable (ρ : VarId → VarId)

theorem Config.loopType_mask (c : Config) (start stop : Expr) :
    c.loopType (mask ρ start) (mask ρ stop) = c.loopType start stop := by
  simp only [loopType, Expr.isLiteral_mask, Expr.dtype_mask]

theorem Loop.over_mask (mode : LoopMode) (v : Var) (dom : Range) (m : Annotations) :
    Loop.over mode (mask ρ v) (mask ρ dom) (mask ρ m) = mask ρ (Loop.over mode v dom m) := by
  cases mode <;> rfl

theorem ConstantData.check_mask (data : ConstantData) (d : DataType) (es : List Expr) :
    data.check d (mask ρ es) = data.check d es := by
  have h : (mask ρ es).mapM Expr.asInt? = es.mapM Expr.asInt? := by
    induction es with
    | nil => rfl
    | cons e es ih => rw [mask_cons, List.mapM_cons, List.mapM_cons, ih, Expr.asInt?_mask]
  rw [check, check, checkCount, checkCount, h]

theorem Opening.checkBounds_mask (op : String) (start stop : Expr) :
    checkBounds op (mask ρ start) (mask ρ stop) = checkBounds op start stop := by
  rw [checkBounds, checkBounds, Expr.asInt?_mask, Expr.asInt?_mask]

namespace Head

theorem domain?_mask (hρ : Function.Injective ρ) (v : Var) (h : Head) :
    domain? (mask ρ v) (mask ρ h) = mask ρ (domain? v h) := by
  cases h with
  | loop l =>
      change (if (mask ρ l.var).same (mask ρ v) then some (mask ρ (Range.mk l.min l.extent))
        else none) = mask ρ (if l.var.same v then some (Range.mk l.min l.extent) else none)
      rw [Var.same_mask hρ]
      split <;> rfl
  | _ => rfl

theorem storageScope?_mask (h : Head) : (mask ρ h).storageScope? = h.storageScope? := by
  cases h with
  | attr n key e => cases e <;> rfl
  | _ => rfl

theorem wrap_mask (hs : List Head) (s : Stmt) :
    wrap (mask ρ hs) (mask ρ s) = mask ρ (wrap hs s) := by
  induction hs with
  | nil => rfl
  | cons h hs ih =>
      change Stmt.under (mask ρ h) (wrap (mask ρ hs) (mask ρ s)) = _
      rw [ih]
      rfl

end Head

namespace Stmt

theorem members_mask (s : Stmt) : (mask ρ s).members = mask ρ s.members := by
  cases s with
  | seq ss => exact maskedList_eq ρ ss
  | _ => rfl

theorem sequence_mask (ss : List Stmt) : sequence (mask ρ ss) = mask ρ (sequence ss) := by
  rw [sequence, sequence, flatMap_mask (members_mask ρ)]
  match ss.flatMap members with
  | [] => rfl
  | [s] => rfl
  | s :: t :: r =>
      change Stmt.seq (mask ρ (s :: t :: r)) = _
      exact (mask_seq ρ (s :: t :: r)).symm

end Stmt

namespace Scope

@[simp]
theorem kind_mask (x : Scope) : (mask ρ x).kind = x.kind := by
  cases x <;> rfl

@[simp]
theorem func?_mask (x : Scope) : (mask ρ x).func? = mask ρ x.func? := by
  cases x <;> rfl

@[simp]
theorem block?_mask (x : Scope) : (mask ρ x).block? = mask ρ x.block? := by
  cases x <;> rfl

@[simp]
theorem branch?_mask (x : Scope) : (mask ρ x).branch? = mask ρ x.branch? := by
  cases x <;> rfl

@[simp]
theorem heads_mask (x : Scope) : (mask ρ x).heads = mask ρ x.heads := by
  cases x <;> rfl

theorem buffers_mask {ρ : VarId → VarId} (hρ : Function.Injective ρ) (x : Scope) :
    (mask ρ x).buffers = mask ρ x.buffers := by
  cases x with
  | func f =>
      have hf : mask ρ (Scope.func f) = .func (mask ρ f) := rfl
      have hm : (mask ρ f).bufferMap = mask ρ f.bufferMap := rfl
      have hp : (mask ρ f).preflattened = mask ρ f.preflattened := rfl
      rw [hf, buffers, buffers, hm, hp, OrderedMap.values_mask hρ, OrderedMap.values_mask hρ,
        mask_append, mask_append]
      rfl
  | block b =>
      have hb : mask ρ (Scope.block b) = .block (mask ρ b) := rfl
      rw [hb, buffers, buffers, mask_append, mask_list, mask_list, List.map_map]
      congr 1
      exact List.map_map
  | wrap w =>
      have hw : mask ρ (Scope.wrap w) = .wrap (mask ρ w) := rfl
      have hb : (mask ρ w).buffer = mask ρ w.buffer := rfl
      rw [hw, buffers, buffers, hb]
      cases w.buffer <;> rfl
  | _ => rfl

end Scope

end

/-! Builders. -/

section

variable {ρ : VarId → VarId}

namespace Builder

theorem topKind?_mask (b : Builder) : (mask ρ b).topKind? = b.topKind? := by
  have hf : (mask ρ b).frames = mask ρ b.frames := rfl
  rw [topKind?, topKind?, hf]
  cases b.frames with
  | nil => rfl
  | cons f fs => exact congrArg some (f.scope.kind_mask ρ)

theorem openKinds_mask (b : Builder) : (mask ρ b).openKinds = b.openKinds := by
  have hf : (mask ρ b).frames.map Frame.kind = b.frames.map Frame.kind := by
    refine List.map_map.trans (List.map_congr_left fun f _ => ?_)
    exact f.scope.kind_mask ρ
  rw [openKinds, openKinds, hf]

theorem misplaced_mask (b : Builder) (op : String) (kind : ScopeKind) :
    (mask ρ b).misplaced op kind = b.misplaced op kind := by
  have ha : (mask ρ b).frames.any (·.kind = kind) = b.frames.any (·.kind = kind) :=
    any_mask (fun f => congrArg (decide <| · = kind) (f.scope.kind_mask ρ)) b.frames
  rw [misplaced, misplaced, topKind?_mask, ha]

theorem top?_mask {α : Type} [Masked α] {view : Scope → Option α}
    (h : ∀ x, view (mask ρ x) = mask ρ (view x)) (b : Builder) :
    (mask ρ b).top? view = mask ρ (b.top? view) := by
  have hf : (mask ρ b).frames = mask ρ b.frames := rfl
  rw [top?, top?, hf]
  cases b.frames with
  | nil => rfl
  | cons f fs => exact h f.scope

theorem topBlock_mask (b : Builder) (op : String) :
    (mask ρ b).topBlock op = (b.topBlock op).map (mask ρ) := by
  rw [topBlock, topBlock, top?_mask (Scope.block?_mask ρ), misplaced_mask]
  cases b.top? Scope.block? <;> rfl

theorem topFunc_mask (b : Builder) (op : String) :
    (mask ρ b).topFunc op = (b.topFunc op).map (mask ρ) := by
  rw [topFunc, topFunc, top?_mask (Scope.func?_mask ρ), misplaced_mask]
  cases b.top? Scope.func? <;> rfl

theorem topBranch_mask (b : Builder) (op : String) :
    (mask ρ b).topBranch op = (b.topBranch op).map (mask ρ) := by
  rw [topBranch, topBranch, top?_mask (Scope.branch?_mask ρ), misplaced_mask]
  cases b.top? Scope.branch? <;> rfl

theorem setTop_mask (b : Builder) (x : Scope) :
    (mask ρ b).setTop (mask ρ x) = mask ρ (b.setTop x) := by
  have hf : (mask ρ b).frames = mask ρ b.frames := rfl
  rw [setTop, setTop, hf]
  cases b.frames <;> rfl

theorem nearestFunc?_mask (b : Builder) : (mask ρ b).nearestFunc? = mask ρ b.nearestFunc? :=
  findSome?_mask (fun f => f.scope.func?_mask ρ) b.frames

theorem updateFunc_mask {g g' : FuncScope → FuncScope} (h : ∀ f, g' (mask ρ f) = mask ρ (g f))
    (fs : List Frame) : updateFunc g' (mask ρ fs) = mask ρ (updateFunc g fs) := by
  induction fs with
  | nil => rfl
  | cons f fs ih =>
      obtain ⟨id, scope, stmts⟩ := f
      cases scope with
      | func x =>
          change (⟨id, .func (g' (mask ρ x)), mask ρ stmts⟩ : Frame) :: mask ρ fs = _
          rw [h]
          rfl
      | _ => exact congrArg (List.cons _) ih

theorem registerThread_mask (hρ : Function.Injective ρ) (b : Builder) (v : Var) (tag : String) :
    (mask ρ b).registerThread (mask ρ v) tag = mask ρ (b.registerThread v tag) := by
  refine congrArg (fun fs => { mask ρ b with frames := fs }) ?_
  refine updateFunc_mask (fun f => ?_) b.frames
  exact congrArg (fun t => { mask ρ f with threads := t })
    (OrderedMap.insert_mask hρ f.threads v (.thread none v tag))

theorem storageScope_mask (b : Builder) : (mask ρ b).storageScope = b.storageScope := by
  have hh (hs : List Head) : (mask ρ hs).findSome? Head.storageScope? =
      hs.findSome? Head.storageScope? := by
    rw [mask_list, List.findSome?_map]
    exact congrArg (hs.findSome? ·) (funext (Head.storageScope?_mask ρ))
  have hf : (mask ρ b).frames.findSome? (fun f => f.scope.heads.findSome? Head.storageScope?) =
      b.frames.findSome? fun f => f.scope.heads.findSome? Head.storageScope? := by
    refine List.findSome?_map.trans (congrArg (b.frames.findSome? ·) (funext fun f => ?_))
    exact (congrArg (List.findSome? Head.storageScope?) (f.scope.heads_mask ρ)).trans (hh _)
  rw [storageScope, storageScope, hf]
  rfl

theorem storageScopeOr_mask (b : Builder) (given : String) :
    (mask ρ b).storageScopeOr given = b.storageScopeOr given := by
  rw [storageScopeOr, storageScopeOr, storageScope_mask]

theorem declares_mask (hρ : Function.Injective ρ) (b : Builder) (x : Buffer) :
    (mask ρ b).declares (mask ρ x) = b.declares x := by
  refine any_mask (fun f => ?_) b.frames
  have hf : (mask ρ f).scope = mask ρ f.scope := rfl
  rw [hf, Scope.buffers_mask hρ]
  exact any_mask (fun y => y.sameAs_mask hρ x) f.scope.buffers

theorem loopDomain?_mask (hρ : Function.Injective ρ) (b : Builder) (v : Var) :
    (mask ρ b).loopDomain? (mask ρ v) = mask ρ (b.loopDomain? v) := by
  refine findSome?_mask (fun f => ?_) b.frames
  have hf : (mask ρ f).scope = mask ρ f.scope := rfl
  rw [hf, Scope.heads_mask]
  exact findSome?_mask (Head.domain?_mask ρ hρ v) f.scope.heads

theorem push_mask (b : Builder) (x : Scope) :
    (mask ρ b).push (mask ρ x) = mask ρ (b.push x) := rfl

theorem record_mask (b : Builder) (e : BuildError) :
    (mask ρ b).record (mask ρ e) = mask ρ (b.record e) := by
  have hb : mask ρ (b.record e) =
    { mask ρ b with firstError := mask ρ (b.firstError.or (some e)) } := rfl
  rw [hb, record]
  cases hf : b.firstError <;> simp [mask, hf]

theorem appended_mask (b : Builder) (s : Stmt) :
    (mask ρ b).appended (mask ρ s) = (b.appended s).map (mask ρ) := by
  have hf : (mask ρ b).frames = mask ρ b.frames := rfl
  have hr : (mask ρ b).result = mask ρ b.result := rfl
  rw [appended, appended, hf, hr]
  cases b.frames with
  | cons f fs =>
      change _ = Except.ok { mask ρ b with
        frames := { mask ρ f with stmts := mask ρ (f.stmts ++ [s]) } :: mask ρ fs }
      rw [mask_append]
      rfl
  | nil =>
      cases b.result with
      | none => rfl
      | some r =>
          cases r with
          | stmt r =>
              change _ = Except.ok { mask ρ b with
                frames := [], result := some (.stmt (mask ρ (Stmt.sequence [r, s]))) }
              rw [← Stmt.sequence_mask]
              rfl
          | func f => rfl

theorem appendedAll_mask (ss : List Stmt) (b : Builder) :
    (mask ρ b).appendedAll (mask ρ ss) = (b.appendedAll ss).map (mask ρ) := by
  induction ss generalizing b with
  | nil => rfl
  | cons s ss ih =>
      rw [mask_cons, appendedAll, appendedAll, appended_mask]
      cases b.appended s with
      | error e => rfl
      | ok b' => exact ih b'

/-- What a scope hands over is put into the scope around, or refused with the same error. -/
theorem delivered_mask (b : Builder) (p : Product) :
    (mask ρ b).delivered (mask ρ p) = (b.delivered p).map (mask ρ) := by
  cases p with
  | stmts ss => exact appendedAll_mask ss b
  | func f =>
      have hp : mask ρ (Product.func f) = .func (mask ρ f) := rfl
      have hr : (mask ρ b).result.isSome = b.result.isSome := isSome_mask ρ b.result
      rw [hp, delivered, delivered, topKind?_mask, hr]
      cases b.topKind? with
      | some top => rfl
      | none =>
          cases b.result.isSome <;> rfl
  | blockInit s =>
      have hp : mask ρ (Product.blockInit s) = .blockInit (mask ρ s) := rfl
      rw [hp, delivered, delivered, topBlock_mask]
      cases b.topBlock "init" with
      | error e => rfl
      | ok x => exact congrArg Except.ok (setTop_mask b (.block { x with init := some s }))
  | thenCase s =>
      have hp : mask ρ (Product.thenCase s) = .thenCase (mask ρ s) := rfl
      rw [hp, delivered, delivered, topBranch_mask]
      cases b.topBranch "then_" with
      | error e => rfl
      | ok i => exact congrArg Except.ok (setTop_mask b (.branch { i with thenCase := some s }))
  | elseCase s =>
      have hp : mask ρ (Product.elseCase s) = .elseCase (mask ρ s) := rfl
      rw [hp, delivered, delivered, topBranch_mask]
      cases b.topBranch "else_" with
      | error e => rfl
      | ok i => exact congrArg Except.ok (setTop_mask b (.branch { i with elseCase := some s }))

end Builder

namespace FuncScope

theorem repeated?_mask (hρ : Function.Injective ρ) (seen : List VarId) (vs : List Var) :
    repeated? (seen.map ρ) (mask ρ vs) = mask ρ (repeated? seen vs) := by
  induction vs generalizing seen with
  | nil => rfl
  | cons v vs ih =>
      have hv : (mask ρ v).id = ρ v.id := rfl
      rw [mask_cons, repeated?, repeated?, hv, ← List.map_cons, ih]
      by_cases hs : v.id ∈ seen
      · rw [if_pos hs, if_pos (List.mem_map_of_mem hs)]
        rfl
      · rw [if_neg hs, if_neg (mt (List.mem_map_of_injective hρ).1 hs)]

/-- Only the text of the error can change when a function is refused. -/
theorem check_mask (hρ : Function.Injective ρ) (f : FuncScope) :
    mask ρ f.check = mask id (mask ρ f).check := by
  have hp : (mask ρ f).params = mask ρ f.params := rfl
  have hb : (mask ρ f).bufferMap = mask ρ f.bufferMap := rfl
  have hq : (mask ρ f).preflattened = mask ρ f.preflattened := rfl
  have hr : repeated? [] (mask ρ f.params) = mask ρ (repeated? [] f.params) :=
    repeated?_mask hρ [] f.params
  have hk (k : Var) : (!(mask ρ f.params).any (mask ρ k).same) = !f.params.any k.same :=
    congrArg not (any_mask (Var.same_mask hρ k) f.params)
  rw [check, check, hp, hb, hq, hr, OrderedMap.keys_mask hρ, OrderedMap.keys_mask hρ, ← mask_append,
    OrderedMap.find?_mask hk]
  cases repeated? [] f.params with
  | some v => rfl
  | none =>
      cases (f.bufferMap.keys ++ f.preflattened.keys).find? fun k => !f.params.any k.same <;> rfl

theorem close_mask (hρ : Function.Injective ρ) (c : Config) (f : FuncScope) (ss : List Stmt) :
    mask ρ (f.close c ss) = mask id ((mask ρ f).close c (mask ρ ss)) := by
  have hb (s : Stmt) : (if (mask ρ f).allocs.isEmpty then mask ρ s
      else rootBlock c.rootName (mask ρ f).allocs (mask ρ s)) =
      mask ρ (if f.allocs.isEmpty then s else rootBlock c.rootName f.allocs s) := by
    have he : (mask ρ f).allocs.isEmpty = f.allocs.isEmpty := isEmpty_mask ρ f.allocs
    rw [he]
    split
    · rfl
    · rw [rootBlock, rootBlock, mask_block]
      rfl
  have ha : (mask ρ f).attrs.getD ∅ = mask ρ (f.attrs.getD ∅) := getD_mask ρ f.attrs ∅
  rw [close, close, Stmt.sequence_mask]
  refine mask_bind (check_mask hρ f) fun _ _ _ => ?_
  dsimp only
  rw [hb, ha]
  exact congrArg Except.ok (mask_mask hρ id _).symm

end FuncScope

theorem BlockScope.realization_mask (x : BlockScope) :
    (mask ρ x).realization = x.realization.map (mask ρ) := by
  have hb : (mask ρ x).bare = x.bare := rfl
  have ha : (mask ρ x).axes = mask ρ x.axes := rfl
  have hp : (mask ρ x).predicate = mask ρ x.predicate := rfl
  have hd : (mask ρ x.predicate).getD (.bool true) = mask ρ (x.predicate.getD (.bool true)) :=
    getD_mask ρ x.predicate (.bool true)
  rw [realization, realization, hb, ha, hp, map_snd_mask, hd, isEmpty_mask]
  cases x.bare with
  | false => rfl
  | true =>
      cases x.axes.isEmpty with
      | false => rfl
      | true => cases x.predicate <;> rfl

theorem BlockScope.head_mask (x : BlockScope) : (mask ρ x).head = mask ρ x.head := by
  have hr (r : Option (List Region)) : (mask ρ r).getD [] = mask ρ (r.getD []) := getD_mask ρ r []
  have ha : (mask ρ x.annotations).getD ∅ = mask ρ (x.annotations.getD ∅) :=
    getD_mask ρ x.annotations ∅
  change Block.mk x.name ((mask ρ x.axes).map Prod.fst) ((mask ρ x.reads).getD [])
    ((mask ρ x.writes).getD []) (mask ρ x.allocs) (mask ρ x.matched)
    ((mask ρ x.annotations).getD ∅) = _
  rw [map_fst_mask, hr, hr, ha]
  rfl

theorem BlockScope.close_mask (x : BlockScope) (ss : List Stmt) :
    (mask ρ x).close (mask ρ ss) = (x.close ss).map (mask ρ) := by
  have hi : (mask ρ x).init = mask ρ x.init := rfl
  rw [close, close, realization_mask, head_mask, Stmt.sequence_mask, hi]
  cases x.realization with
  | error e => rfl
  | ok r => exact congrArg Except.ok (mask_block ρ r x.head x.init _).symm

theorem BranchScope.close_mask (i : BranchScope) (ss : List Stmt) :
    (mask ρ i).close (mask ρ ss) = (i.close ss).map (mask ρ) := by
  have ht : (mask ρ i).thenCase = mask ρ i.thenCase := rfl
  have he : (mask ρ i).elseCase = mask ρ i.elseCase := rfl
  have hc : (mask ρ i).condition = mask ρ i.condition := rfl
  rw [close, close, ht, he, hc, isEmpty_mask]
  split
  · cases i.thenCase with
    | none => rfl
    | some s => exact congrArg Except.ok (mask_branch ρ i.condition s i.elseCase).symm
  · rfl

theorem Wrapper.close_mask (w : Wrapper) (ss : List Stmt) :
    (mask ρ w).close (mask ρ ss) = mask ρ (w.close ss) := by
  have hh : (mask ρ w).heads = mask ρ w.heads := rfl
  rw [close, close, hh, isEmpty_mask, Stmt.sequence_mask, Head.wrap_mask]
  split <;> rfl

theorem mask_frame_close (hρ : Function.Injective ρ) (c : Config) (f : Frame) :
    mask ρ (f.close c) = mask id ((mask ρ f).close c) := by
  obtain ⟨i, scope, ss⟩ := f
  have hs : mask ρ (Stmt.sequence ss) = mask id (Stmt.sequence (mask ρ ss)) :=
    (mask_mask hρ id _).symm.trans (congrArg (mask id) (Stmt.sequence_mask ρ ss).symm)
  cases scope with
  | func g =>
      refine mask_bind (FuncScope.close_mask hρ c g ss) fun a b h => ?_
      exact congrArg (Except.ok ∘ Product.func) h
  | block x =>
      refine mask_bind (mask_of_map hρ (x.close_mask ss)) fun a b h => ?_
      exact congrArg (fun s => Except.ok (Product.stmts [s])) h
  | branch i =>
      refine mask_bind (mask_of_map hρ (i.close_mask ss)) fun a b h => ?_
      exact congrArg (fun s => Except.ok (Product.stmts [s])) h
  | blockInit => exact congrArg (Except.ok ∘ Product.blockInit) hs
  | thenCase => exact congrArg (Except.ok ∘ Product.thenCase) hs
  | elseCase => exact congrArg (Except.ok ∘ Product.elseCase) hs
  | wrap w =>
      have hw : mask ρ (w.close ss) = mask id ((mask ρ w).close (mask ρ ss)) :=
        (mask_mask hρ id _).symm.trans (congrArg (mask id) (w.close_mask ss).symm)
      exact congrArg (Except.ok ∘ Product.stmts) hw

end

end TensorProgram
