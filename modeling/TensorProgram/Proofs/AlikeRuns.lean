import Mathlib.Data.List.Induction
import TensorProgram.Proofs.AlikeWorlds
import TensorProgram.Proofs.Script

/-!
Runs of a script side by side. In worlds that are alike the terms of a script stand for things that
are alike, and so every call comes to answers that are alike and leaves worlds that are.
-/

namespace TensorProgram

open Masked

namespace Script

instance Ty.masked : (t : Ty) → Masked t.Val
  | .var => inferInstanceAs (Masked Var)
  | .expr => inferInstanceAs (Masked Expr)
  | .range => inferInstanceAs (Masked Range)
  | .iterVar => inferInstanceAs (Masked IterVar)
  | .buffer => inferInstanceAs (Masked Buffer)
  | .region => inferInstanceAs (Masked Region)
  | .attrValue => inferInstanceAs (Masked AttrValue)
  | .annotations => inferInstanceAs (Masked Annotations)
  | .node => inferInstanceAs (Masked AttrNode)
  | .options => inferInstanceAs (Masked BufferOptions)
  | .target => inferInstanceAs (Masked MatchTarget)
  | .type => inferInstanceAs (Masked ValueType)
  | .bufferMap => inferInstanceAs (Masked (OrderedMap Var Buffer))
  | .matched => inferInstanceAs (Masked MatchRegion)
  | .stmt => inferInstanceAs (Masked Stmt)
  | .func => inferInstanceAs (Masked PrimFunc)
  | .list t => have := t.masked; inferInstanceAs (Masked (List t.Val))
  | .option t => have := t.masked; inferInstanceAs (Masked (Option t.Val))

instance : Masked Answer where
  mask ρ
    | .opened g v => .opened g (mask ρ v)
    | .returned v => .returned (mask ρ v)
    | .made t a => .made t (mask ρ a)
    | .output out => .output (mask ρ out)
    | .failed f => .failed (mask ρ f)
    | a => a

instance : Masked Run := ⟨fun ρ x => ⟨mask ρ x.world, mask ρ x.answers⟩⟩

section

variable (ρ ρ' : VarId → VarId)

def Kind.Alike : (k : Kind) → k.Den → k.Den → Prop
  | .value _, a, a' => mask ρ a = mask ρ' a'
  | .folded _, x, x' => mask ρ x = mask ρ' x'
  | .minted _, f, f' => ∀ s s', mask ρ s = mask ρ' s' → mask ρ (f s) = mask ρ' (f' s')
  | .opening, o, o' => o.Alike ρ ρ' o'
  | .call, c, c' => c.Alike ρ ρ' c'

/-- Of alike arguments the two make alike things. -/
def Fn.Alike : (ts : List Ty) → (k : Kind) → Fn ts k → Fn ts k → Prop
  | [], k, a, a' => k.Alike ρ ρ' a a'
  | t :: ts, k, f, f' => ∀ a a' : t.Val, mask ρ a = mask ρ' a' → Fn.Alike ts k (f a) (f' a')

end

section

variable {ρ ρ' : VarId → VarId}

theorem castOrFresh_alike (d : DataType) {e e' : Option Expr} (he : mask ρ e = mask ρ' e')
    {s s' : Supply} (hs : mask ρ s = mask ρ' s') :
    mask ρ (Expr.castOrFresh d e s) = mask ρ' (Expr.castOrFresh d e' s') := by
  obtain ⟨rfl, rfl⟩ | ⟨x, x', rfl, rfl, hx⟩ := option_alike he
  · exact congrArg (Prod.map Expr.var (·)) (fresh_alike "" "" d hs)
  · exact congrArg₂ Prod.mk (Expr.castTo_alike d hx) hs

theorem block_alike (name : String) {vs vs' : List IterVar} (hv : mask ρ vs = mask ρ' vs')
    {rs rs' ws ws' : List Region} (hr : mask ρ rs = mask ρ' rs') (hw : mask ρ ws = mask ρ' ws')
    {bs bs' : List Buffer} (hb : mask ρ bs = mask ρ' bs') {ms ms' : List MatchRegion}
    (hm : mask ρ ms = mask ρ' ms') {m m' : Annotations} (h : mask ρ m = mask ρ' m') :
    mask ρ (Block.mk name vs rs ws bs ms m) = mask ρ' (Block.mk name vs' rs' ws' bs' ms' m') := by
  change Block.mk name (mask ρ vs) (mask ρ rs) (mask ρ ws) (mask ρ bs) (mask ρ ms) (mask ρ m) = _
  rw [hv, hr, hw, hb, hm, h]
  rfl

theorem Data.alike {ts : List Ty} {k : Kind} (p : Data ts k) : Fn.Alike ρ ρ' ts k p.fn p.fn := by
  cases p with
  | renamed name => exact fun _ _ h => h
  | int v d => exact rfl
  | float v d => exact rfl
  | str s => exact rfl
  | ofVar => exact fun _ _ h => congrArg Expr.var h
  | binary op => exact fun _ _ h _ _ h' => congrArg₂ (Expr.binary op) h h'
  | not => exact fun _ _ h => congrArg Expr.not h
  | cast d => exact fun _ _ h => congrArg (Expr.cast d) h
  | castTo d => exact fun _ _ h => Expr.castTo_alike d h
  | load => exact fun _ _ h _ _ h' => alike_of_mask₂ h h' (fun τ b is => (mask_load τ b is).symm)
  | intrinsic op d => exact fun _ _ h => alike_of_mask h (fun τ es => (mask_call τ op es d).symm)
  | subFolded => exact fun _ _ h _ _ h' => folded_alike h h' Expr.subFolded_mask
  | addFolded => exact fun _ _ h _ _ h' => folded_alike h h' Expr.addFolded_mask
  | range => exact fun _ _ h _ _ h' => congrArg₂ Range.mk h h'
  | pointRange => exact fun _ _ h => alike_of_mask h Range.point_mask
  | upTo => exact fun _ _ h => alike_of_mask h Range.upTo_mask
  | ofBounds => exact fun _ _ h _ _ h' => folded_alike h h' Range.ofBounds_mask
  | iterVar kind tag => exact fun _ _ h _ _ h' => congrArg₂ (IterVar.mk · · kind tag) h h'
  | buffer d name alignment factor kind separators =>
      intro v v' hv es es' hes is is' his e e' he
      change mask ρ (Buffer.mk v d es is e name alignment factor kind separators) =
        mask ρ' (Buffer.mk v' d es' is' e' name alignment factor kind separators)
      rw [mask_buffer, mask_buffer, hv, hes, his, he]
  | data => exact fun _ _ h => Buffer.data_alike h
  | shape => exact fun _ _ h => alike_of_mask h (fun τ b => b.shape_mask τ)
  | region => exact fun _ _ h _ _ h' => congrArg₂ Region.mk h h'
  | full => exact fun _ _ h => alike_of_mask h Buffer.full_mask
  | pointRegion => exact fun _ _ h _ _ h' => alike_of_mask₂ h h' Buffer.point_mask
  | attrInt v => exact rfl
  | attrFloat v => exact rfl
  | attrBool v => exact rfl
  | attrStr s => exact rfl
  | attrExpr => exact fun _ _ h => congrArg AttrValue.expr h
  | attrArray => exact fun _ _ h => alike_of_mask h (fun τ as => (mask_array τ as).symm)
  | noAnnotations => exact rfl
  | annotate key => exact fun _ _ h _ _ h' => alike_of_mask₂ h h' (Annotations.insert_mask key)
  | nodeVar => exact fun _ _ h => congrArg AttrNode.var h
  | nodeIterVar => exact fun _ _ h => congrArg AttrNode.iterVar h
  | nodeBuffer => exact fun _ _ h => congrArg AttrNode.buffer h
  | nodeStr s => exact rfl
  | options name scope alignment factor kind separators =>
      intro v v' hv is is' his e e' he
      change BufferOptions.mk name (mask ρ v) (mask ρ is) (mask ρ e) scope alignment factor kind
        separators = _
      rw [hv, his, he]
      rfl
  | targetParam => exact fun _ _ h => congrArg MatchTarget.param h
  | targetRegion => exact fun _ _ h => congrArg MatchTarget.region h
  | type t => exact rfl
  | nil t => exact rfl
  | cons t => exact fun _ _ h _ _ h' => congrArg₂ List.cons h h'
  | none t => exact rfl
  | some t => exact fun _ _ h => congrArg Option.some h
  | newVar name d => exact fun _ _ h => fresh_alike name name d h
  | newPointer name elem scope => exact fun _ _ h => freshPointer_alike name name elem scope h
  | ptr elem scope =>
      intro s s' hs
      exact congrArg (Prod.map Expr.var (·)) (freshPointer_alike "ptr" "ptr" elem scope hs)
  | castOrFresh d => exact fun _ _ h _ _ hs => castOrFresh_alike d h hs

theorem Node.alike (hρ : Function.Injective ρ) (hρ' : Function.Injective ρ') {ts : List Ty}
    {k : Kind} (p : Node ts k) : Fn.Alike ρ ρ' ts k p.fn p.fn := by
  cases p with
  | noBuffers => exact rfl
  | putBuffer =>
      intro m m' hm v v' hv b b' hb
      change mask ρ (m.insert v b) = mask ρ' (m'.insert v' b')
      exact OrderedMap.insert_alike hρ hρ' hm hv hb
  | matchRegion => exact fun _ _ h _ _ h' => congrArg₂ MatchRegion.mk h h'
  | sequence => exact fun _ _ h => alike_of_mask h Stmt.sequence_mask
  | seq => exact fun _ _ h => alike_of_mask h (fun τ ss => (mask_seq τ ss).symm)
  | bareBlock name =>
      intro vs vs' hv rs rs' hr ws ws' hw bs bs' hb ms ms' hm m m' h init init' hi s s' hs
      change mask ρ (Stmt.block .none ⟨name, vs, rs, ws, bs, ms, m⟩ init s) =
        mask ρ' (Stmt.block .none ⟨name, vs', rs', ws', bs', ms', m'⟩ init' s')
      rw [mask_block, mask_block, hi, hs]
      exact congrArg (Stmt.block .none · _ _) (block_alike name hv hr hw hb hm h)
  | boundBlock name =>
      intro es es' he p p' hp vs vs' hv rs rs' hr ws ws' hw bs bs' hb ms ms' hm m m' h init init' hi
        s s' hs
      change mask ρ (Stmt.block (.some ⟨es, p⟩) ⟨name, vs, rs, ws, bs, ms, m⟩ init s) =
        mask ρ' (Stmt.block (.some ⟨es', p'⟩) ⟨name, vs', rs', ws', bs', ms', m'⟩ init' s')
      rw [mask_block, mask_block, hi, hs]
      exact congrArg₂ (Stmt.block · · _ _) (congrArg Option.some (congrArg₂ Realization.mk he hp))
        (block_alike name hv hr hw hb hm h)
  | branchStmt =>
      intro c c' hc s s' hs e e' he
      change mask ρ (Stmt.branch c s e) = mask ρ' (Stmt.branch c' s' e')
      rw [mask_branch, mask_branch, hc, hs, he]
  | loopStmt kind =>
      intro v v' hv e e' he x x' hx t t' ht m m' hm s s' hs
      change Stmt.under (.loop ⟨mask ρ v, mask ρ e, mask ρ x, kind, mask ρ t, mask ρ m⟩)
        (mask ρ s) = _
      rw [hv, he, hx, ht, hm, hs]
      rfl
  | whileStmt => exact fun _ _ h _ _ h' => congrArg₂ (fun c => Stmt.under (.whileLoop c)) h h'
  | bindStmt =>
      intro v v' hv e e' he s s' hs
      exact congrArg₂ Stmt.under (congrArg₂ Head.bind hv he) hs
  | allocateStmt d =>
      intro v v' hv es es' hes c c' hc m m' hm s s' hs
      change Stmt.under (.allocate (mask ρ v) d (mask ρ es) (mask ρ c) (mask ρ m)) (mask ρ s) = _
      rw [hv, hes, hc, hm, hs]
      rfl
  | allocateConstStmt d data =>
      intro v v' hv es es' hes m m' hm s s' hs
      change Stmt.under (.allocateConst (mask ρ v) d (mask ρ es) data (mask ρ m)) (mask ρ s) = _
      rw [hv, hes, hm, hs]
      rfl
  | attrStmt key =>
      intro n n' hn e e' he s s' hs
      exact congrArg₂ Stmt.under (congrArg₂ (Head.attr · key ·) hn he) hs
  | assertStmt =>
      intro c c' hc e e' he s s' hs
      exact congrArg₂ Stmt.under (congrArg₂ Head.assert hc he) hs
  | realizeStmt =>
      intro r r' hr c c' hc s s' hs
      exact congrArg₂ Stmt.under (congrArg₂ Head.realize hr hc) hs
  | storeStmt =>
      intro b b' hb e e' he is is' his
      change Stmt.leaf (.store (mask ρ b) (mask ρ e) (mask ρ is)) = _
      rw [hb, he, his]
      rfl
  | prefetchStmt =>
      exact fun _ _ h _ _ h' => congrArg₂ (fun b rs => Stmt.leaf (.prefetch b rs)) h h'
  | evaluateStmt => exact fun _ _ h => congrArg (fun e => Stmt.leaf (.evaluate e)) h
  | func name ret =>
      intro vs vs' hv s s' hs m m' hm p p' hp a a' ha
      change PrimFunc.mk name (mask ρ vs) (mask ρ s) ret (mask ρ m) (mask ρ p) (mask ρ a) = _
      rw [hv, hs, hm, hp, ha]
      rfl
  | withName name => exact fun _ _ h => congrArg (fun f : PrimFunc => f.withName name) h

theorem Opens.alike {ts : List Ty} (p : Opens ts) : Fn.Alike ρ ρ' ts .opening p.fn p.fn := by
  cases p with
  | primFunc => exact .primFunc
  | block name bare => exact .block name bare
  | blockInit => exact .blockInit
  | loop mode => exact fun _ _ h _ _ h' _ _ h'' => .loop mode h h' h''
  | grid => exact fun _ _ h => .grid h
  | branch => exact fun _ _ h => .branch h
  | thenCase => exact .thenCase
  | elseCase => exact .elseCase
  | whileLoop => exact fun _ _ h => .whileLoop h
  | bind => exact fun _ _ h _ _ h' => .bind h h'
  | allocate d scope => exact fun _ _ h _ _ h' _ _ h'' => .allocate d scope h h' h''
  | allocateConst data d => exact fun _ _ h _ _ h' => .allocateConst data d h h'
  | attr key => exact fun _ _ h _ _ h' => .attr key h h'
  | assert message => exact fun _ _ h => .assert message h
  | launchThread => exact fun _ _ h _ _ h' => .launchThread h h'
  | realize scope => exact fun _ _ h _ _ h' => .realize scope h h'

theorem Calls.alike {ts : List Ty} (p : Calls ts) : Fn.Alike ρ ρ' ts .call p.fn p.fn := by
  cases p with
  | guard => exact fun _ _ h => .guard h
  | reads => exact fun _ _ h => .reads h
  | writes => exact fun _ _ h => .writes h
  | blockAttrs => exact fun _ _ h => .blockAttrs h
  | allocBuffer d => exact fun _ _ h _ _ h' => .allocBuffer d h h'
  | matchBuffer d => exact fun _ _ h _ _ h' _ _ h'' => .matchBuffer d h h' h''
  | preflattenedBuffer d => exact fun _ _ h _ _ h' _ _ h'' => .preflattenedBuffer d h h' h''
  | argVar name => exact fun _ _ h => .argVar name h
  | argBuffer name => exact fun _ _ h => .argBuffer name h
  | funcName name => exact .funcName name
  | funcAttrs => exact fun _ _ h => .funcAttrs h
  | funcRet =>
      intro t t' h
      obtain rfl : t = t' := h
      exact .funcRet t
  | envThread tag => exact .envThread tag
  | store => exact fun _ _ h _ _ h' _ _ h'' => .store h h' h''
  | prefetch => exact fun _ _ h _ _ h' => .prefetch h h'
  | evaluate => exact fun _ _ h => .evaluate h
  | axis kind d => exact fun _ _ h _ _ h' => .axis kind d h h'
  | remap kinds d => exact fun _ _ h => .remap kinds d h

end

section

variable {ρ ρ' : VarId → VarId}

namespace Answer

theorem ofValue_mask (τ : VarId → VarId) (v : Value) (t : Ty) :
    ofValue (mask τ v) t = mask τ (ofValue v t) := by
  cases v with
  | unit => rfl
  | vars vs =>
      cases t with
      | list u => cases u <;> rfl
      | _ => rfl
  | _ => cases t <;> rfl

theorem get?_mask (τ : VarId → VarId) (a : Answer) (t : Ty) :
    (mask τ a).get? t = mask τ (a.get? t) := by
  cases a with
  | opened g v => exact ofValue_mask τ v t
  | returned v => exact ofValue_mask τ v t
  | made u a =>
      change (if h : u = t then some (h ▸ mask τ a) else none) =
        mask τ (if h : u = t then some (h ▸ a) else none)
      by_cases h : u = t
      · subst h
        rw [dif_pos rfl, dif_pos rfl]
        rfl
      · rw [dif_neg h, dif_neg h]
        rfl
  | output out => cases out <;> cases t <;> rfl
  | _ => rfl

end Answer

section

variable {α β : Type} [Masked α] [Masked β]

theorem getElem?_alike {as as' : List α} (h : mask ρ as = mask ρ' as') (n : Nat) :
    mask ρ as[n]? = mask ρ' as'[n]? := by
  have hn (τ : VarId → VarId) (as : List α) : (mask τ as)[n]? = mask τ as[n]? :=
    List.getElem?_map
  rw [← hn, h, hn]

theorem bind_alike {a a' : Option α} (h : mask ρ a = mask ρ' a') {f f' : α → Option β}
    (hf : ∀ x x', mask ρ x = mask ρ' x' → mask ρ (f x) = mask ρ' (f' x')) :
    mask ρ (a.bind f) = mask ρ' (a'.bind f') := by
  obtain ⟨rfl, rfl⟩ | ⟨x, x', rfl, rfl, hx⟩ := option_alike h
  · rfl
  · exact hf x x' hx

theorem rel_of_alike {a a' : Option α} (h : mask ρ a = mask ρ' a') :
    Option.Rel (fun x x' => mask ρ x = mask ρ' x') a a' := by
  obtain ⟨rfl, rfl⟩ | ⟨x, x', rfl, rfl, hx⟩ := option_alike h
  · exact .none
  · exact .some hx

end

/-- After alike answers a term stands for alike things, if the masks agree on the identities given
in it. -/
theorem Term.eval_alike (hρ : Function.Injective ρ) (hρ' : Function.Injective ρ')
    {as as' : List Answer} (has : mask ρ as = mask ρ' as') {ts : List Ty} {k : Kind}
    (e : Term ts k) (he : ∀ g ∈ e.ids, ρ g = ρ' g) :
    Option.Rel (Fn.Alike ρ ρ' ts k) (e.eval as) (e.eval as') := by
  induction e with
  | given v =>
      apply Option.Rel.some
      exact congrArg (Var.mk · "" v.dtype v.typeHint) (he v.id List.mem_cons_self)
  | result n t =>
      refine rel_of_alike (bind_alike (getElem?_alike has n) fun a a' h => ?_)
      rw [← Answer.get?_mask, h, Answer.get?_mask]
  | item t l n ih =>
      have ih := ih he
      rw [eval, eval]
      generalize l.eval as = x at ih ⊢
      generalize l.eval as' = x' at ih ⊢
      cases ih with
      | none => exact .none
      | some h => exact rel_of_alike (getElem?_alike h n)
  | data p => exact .some p.alike
  | node p => exact .some (p.alike hρ hρ')
  | opening p => exact .some p.alike
  | call p => exact .some p.alike
  | app f a ihf iha =>
      have ihf := ihf fun g hg => he g (List.mem_append_left _ hg)
      have iha := iha fun g hg => he g (List.mem_append_right _ hg)
      rw [eval, eval]
      generalize f.eval as = x at ihf ⊢
      generalize f.eval as' = x' at ihf ⊢
      generalize a.eval as = y at iha ⊢
      generalize a.eval as' = y' at iha ⊢
      cases ihf with
      | none => exact .none
      | some hf =>
          cases iha with
          | none => exact .none
          | some ha => exact .some (hf _ _ ha)

namespace Answer

variable {α : Type} [Masked α]

theorem ofCall_alike {f f' : α → Answer}
    (hf : ∀ a a', mask ρ a = mask ρ' a' → mask ρ (f a) = mask ρ' (f' a'))
    {r r' : Except Failure α} (h : mask ρ r = mask ρ' r') :
    mask ρ (ofCall f r) = mask ρ' (ofCall f' r') := by
  obtain ⟨e, e', rfl, rfl, he⟩ | ⟨a, a', rfl, rfl, ha⟩ := except_alike h
  · exact congrArg Answer.failed he
  · exact hf a a' ha

theorem ofCheck_alike {f f' : α → Answer}
    (hf : ∀ a a', mask ρ a = mask ρ' a' → mask ρ (f a) = mask ρ' (f' a'))
    {r r' : Except BuildError α} (h : mask ρ r = mask ρ' r') :
    mask ρ (ofCheck f r) = mask ρ' (ofCheck f' r') := by
  obtain ⟨e, e', rfl, rfl, he⟩ | ⟨a, a', rfl, rfl, ha⟩ := except_alike h
  · exact congrArg (Answer.failed ∘ Failure.refused) he
  · exact hf a a' ha

theorem map_alike {r r' : α × World} (h : mask ρ r = mask ρ' r') {f f' : α → Answer}
    (hf : ∀ a a', mask ρ a = mask ρ' a' → mask ρ (f a) = mask ρ' (f' a')) :
    mask ρ (r.map f id) = mask ρ' (r'.map f' id) :=
  congrArg₂ Prod.mk (hf _ _ (congrArg Prod.fst h)) (congrArg Prod.snd h)

/-- What an answer has in it besides variables is the same in both. -/
theorem bind_same {β : Type} {f : Answer → Option β} (hf : ∀ τ a, f (mask τ a) = f a)
    {as as' : List Answer} (has : mask ρ as = mask ρ' as') (n : Nat) :
    as[n]?.bind f = as'[n]?.bind f := by
  obtain ⟨h, h'⟩ | ⟨a, a', h, h', ha⟩ := option_alike (getElem?_alike has n)
  · rw [h, h']
  · rw [h, h']
    change f a = f a'
    rw [← hf ρ, ha, hf]

theorem session?_mask (τ : VarId → VarId) (a : Answer) : (mask τ a).session? = a.session? := by
  cases a <;> rfl

theorem guard?_mask (τ : VarId → VarId) (a : Answer) : (mask τ a).guard? = a.guard? := by
  cases a <;> rfl

theorem output?_mask (τ : VarId → VarId) (a : Answer) :
    (mask τ a).output? = mask τ a.output? := by
  cases a <;> rfl

theorem output?_alike {as as' : List Answer} (has : mask ρ as = mask ρ' as') (n : Nat) :
    mask ρ (as[n]?.bind output?) = mask ρ' (as'[n]?.bind output?) :=
  bind_alike (getElem?_alike has n) fun _ _ h => alike_of_mask h output?_mask

end Answer

namespace Step

theorem asFunc_alike {out out' : Output} (h : mask ρ out = mask ρ' out') :
    mask ρ out.asFunc = mask ρ' out'.asFunc := by
  apply alike_of_mask h _
  intro τ out
  cases out <;> rfl

theorem asStmt_alike {out out' : Output} (h : mask ρ out = mask ρ' out') :
    mask ρ out.asStmt = mask ρ' out'.asStmt := by
  apply alike_of_mask h _
  intro τ out
  cases out <;> rfl

theorem attempt_alike {α : Type} {R : α → α → Prop} {w w' : World} (hw : mask ρ w = mask ρ' w')
    {x x' : Option α} (hx : Option.Rel R x x') {f f' : α → Answer × World}
    (hf : ∀ a a', R a a' → mask ρ (f a) = mask ρ' (f' a')) :
    mask ρ (attempt w x f) = mask ρ' (attempt w' x' f') := by
  cases hx with
  | none => exact congrArg (Prod.mk Answer.skipped) hw
  | some h => exact hf _ _ h

theorem attempt_same {α : Type} {w w' : World} (hw : mask ρ w = mask ρ' w') {x x' : Option α}
    (hx : x = x') {f f' : α → Answer × World} (hf : ∀ a, mask ρ (f a) = mask ρ' (f' a)) :
    mask ρ (attempt w x f) = mask ρ' (attempt w' x' f') := by
  subst hx
  cases x with
  | none => exact congrArg (Prod.mk Answer.skipped) hw
  | some a => exact hf a

/-- One call after alike answers, in alike worlds. -/
theorem act_alike (hρ : Function.Injective ρ) (hρ' : Function.Injective ρ')
    {as as' : List Answer} (has : mask ρ as = mask ρ' as') {w w' : World}
    (hw : mask ρ w = mask ρ' w') (s : Step) (hs : ∀ g ∈ s.ids, ρ g = ρ' g) :
    mask ρ (s.act as w) = mask ρ' (s.act as' w') := by
  cases s with
  | enter t c =>
      exact Answer.map_alike (World.enter_alike hw t c) fun r r' hr =>
        Answer.ofCheck_alike (fun i i' hi => congrArg Answer.entered hi) hr
  | current t op =>
      have hl : w.live = w'.live := (congrArg World.live hw :)
      have hc : w.current t op = w'.current t op := by rw [World.current, World.current, hl]
      refine congrArg₂ Prod.mk ?_ hw
      rw [hc]
      cases w'.current t op <;> rfl
  | openScope t o =>
      refine attempt_alike hw (o.eval_alike hρ hρ' has hs) fun o o' ho => ?_
      exact Answer.map_alike (World.openScope_alike hw hρ hρ' t ho) fun r r' hr =>
        Answer.ofCall_alike (fun p p' hp =>
          congrArg (fun p : Guard × Value => Answer.opened p.1 p.2) hp) hr
  | call t c =>
      refine attempt_alike hw (c.eval_alike hρ hρ' has hs) fun c c' hc => ?_
      exact Answer.map_alike (World.call_alike hw hρ hρ' t hc) fun r r' hr =>
        Answer.ofCall_alike (fun v v' hv => congrArg Answer.returned hv) hr
  | close n =>
      refine attempt_same hw (Answer.bind_same Answer.guard?_mask has n) fun g => ?_
      refine Answer.map_alike (World.close_alike hw hρ hρ' g) fun r r' hr => ?_
      apply Answer.ofCheck_alike _ hr
      intro _ _ _
      rfl
  | drop n =>
      refine attempt_same hw (Answer.bind_same Answer.guard?_mask has n) fun g => ?_
      exact congrArg (Prod.mk Answer.done) (Prod.mk.inj (World.close_alike hw hρ hρ' g)).2
  | finish n =>
      refine attempt_same hw (Answer.bind_same Answer.session?_mask has n) fun i => ?_
      exact Answer.map_alike (World.finish_alike hw i) fun r r' hr =>
        Answer.ofCheck_alike (fun out out' h => congrArg Answer.output h) hr
  | leave n =>
      refine attempt_same hw (Answer.bind_same Answer.session?_mask has n) fun i => ?_
      exact congrArg (Prod.mk Answer.done) (World.leave_alike hw i)
  | asFunc n =>
      refine attempt_alike hw (rel_of_alike (Answer.output?_alike has n)) fun out out' ho => ?_
      refine congrArg₂ Prod.mk ?_ hw
      exact Answer.ofCheck_alike (fun f f' hf => congrArg (Answer.made .func) hf) (asFunc_alike ho)
  | asStmt n =>
      refine attempt_alike hw (rel_of_alike (Answer.output?_alike has n)) fun out out' ho => ?_
      refine congrArg₂ Prod.mk ?_ hw
      exact Answer.ofCheck_alike (fun s s' hs => congrArg (Answer.made .stmt) hs) (asStmt_alike ho)
  | make t a =>
      refine attempt_alike hw (a.eval_alike hρ hρ' has hs) fun a a' ha => ?_
      exact congrArg₂ Prod.mk (congrArg (Answer.made t) ha) hw
  | fold t a =>
      refine attempt_alike hw (a.eval_alike hρ hρ' has hs) fun r r' hr => ?_
      refine congrArg₂ Prod.mk ?_ hw
      obtain ⟨o, o', rfl, rfl, ho⟩ | ⟨a, a', rfl, rfl, ha⟩ := except_alike hr
      · exact congrArg (Answer.failed ∘ Failure.overflow) ho
      · exact congrArg (Answer.made t) ha
  | mint t a =>
      refine attempt_alike hw (a.eval_alike hρ hρ' has hs) fun f f' hf => ?_
      exact Answer.map_alike (World.mint_alike hw hf) fun a a' ha => congrArg (Answer.made t) ha
  | declare d shape o =>
      have hshape : ∀ g ∈ shape.ids, ρ g = ρ' g := fun g hg => hs g (List.mem_append_left _ hg)
      have ho : ∀ g ∈ o.ids, ρ g = ρ' g := fun g hg => hs g (List.mem_append_right _ hg)
      refine attempt_alike hw (shape.eval_alike hρ hρ' has hshape) fun es es' hes => ?_
      refine attempt_alike hw (o.eval_alike hρ hρ' has ho) fun o o' ho => ?_
      exact Answer.map_alike (World.declare_alike hw hes d ho) fun r r' hr =>
        Answer.ofCheck_alike (fun b b' hb => congrArg (Answer.made .buffer) hb) hr

end Step

theorem Run.step_alike (hρ : Function.Injective ρ) (hρ' : Function.Injective ρ') {x x' : Run}
    (hx : mask ρ x = mask ρ' x') (s : Step) (hs : ∀ g ∈ s.ids, ρ g = ρ' g) :
    mask ρ (x.step s) = mask ρ' (x'.step s) := by
  have has : mask ρ x.answers = mask ρ' x'.answers := congrArg Run.answers hx
  have hw : mask ρ x.world = mask ρ' x'.world := congrArg Run.world hx
  have h := Step.act_alike hρ hρ' has hw s hs
  have hl : mask ρ [(s.act x.answers x.world).1] = mask ρ' [(s.act x'.answers x'.world).1] :=
    congrArg (List.cons · []) (congrArg Prod.fst h)
  exact congrArg₂ Run.mk (congrArg Prod.snd h) (append_alike has hl)

/-- Two runs of a script from alike worlds go alike, if the masks agree on the identities given in
the script. -/
theorem run_alike (hρ : Function.Injective ρ) (hρ' : Function.Injective ρ') {w w' : World}
    (hw : mask ρ w = mask ρ' w') (script : List Step) (h : ∀ g ∈ ids script, ρ g = ρ' g) :
    mask ρ (run script w) = mask ρ' (run script w') := by
  induction script using List.reverseRecOn with
  | nil => exact congrArg (Run.mk · []) hw
  | append_singleton script s ih =>
      have hs : ids (script ++ [s]) = ids script ++ s.ids := by simp [ids]
      rw [hs] at h
      have ih := ih fun g hg => h g (List.mem_append_left _ hg)
      rw [run, run, List.foldl_append, List.foldl_append]
      exact Run.step_alike hρ hρ' ih s fun g hg => h g (List.mem_append_right _ hg)

end

end Script

end TensorProgram
