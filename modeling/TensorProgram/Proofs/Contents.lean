import TensorProgram.Proofs.Nesting
import TensorProgram.Proofs.Stack

/-!
What an open scope holds. It is what the items in it say and deliver: a call that goes
through, or a product that is accepted, adds to the scope what one more item adds to the
nesting, and the scope closes to the product of the nesting.
-/

namespace TensorProgram

/-! Statements that are delivered are never sequences, so that sequences of them do not
depend on how they are put together. -/

namespace Stmt

/-- No statement of the list is a sequence. -/
def Flat (ss : List Stmt) : Prop := ∀ s ∈ ss, s.members = [s]

theorem Flat.nil : Flat [] := by
  intro s hs
  cases hs

theorem Flat.append {ss ts : List Stmt} (hs : Flat ss) (ht : Flat ts) : Flat (ss ++ ts) := by
  intro s h
  obtain h | h := List.mem_append.1 h
  · exact hs s h
  · exact ht s h

theorem Flat.flatMap_members {ss : List Stmt} (h : Flat ss) : ss.flatMap members = ss := by
  induction ss with
  | nil => rfl
  | cons s ss ih =>
      rw [List.flatMap_cons, h s List.mem_cons_self,
        ih fun t ht => h t (List.mem_cons_of_mem s ht), List.singleton_append]

theorem sequence_congr {ss ts : List Stmt} (h : ss.flatMap members = ts.flatMap members) :
    sequence ss = sequence ts := by
  rw [sequence, sequence, h]

/-- A sequence of statements has their members, unless there are none. -/
theorem members_sequence_of_flat {ss : List Stmt} (h : Flat (ss.flatMap members))
    (hn : ss.flatMap members ≠ []) : (sequence ss).members = ss.flatMap members := by
  rw [sequence]
  split
  · rename_i he
    exact absurd he hn
  · rename_i s he
    rw [he] at h ⊢
    exact h s List.mem_cons_self
  · rename_i s t r he
    exact he.symm

theorem members_sequence {s : Stmt} {ss : List Stmt} (h : Flat (s :: ss)) :
    (sequence (s :: ss)).members = s :: ss := by
  have hm := h.flatMap_members
  rw [members_sequence_of_flat (hm.symm ▸ h) (hm.symm ▸ List.cons_ne_nil s ss), hm]

/-- To put one more statement after a sequence is to put it among its members. -/
theorem sequence_sequence {s t : Stmt} {ss : List Stmt} (h : Flat (s :: ss))
    (ht : t.members = [t]) : sequence [sequence (s :: ss), t] = sequence (s :: (ss ++ [t])) := by
  have hl : [sequence (s :: ss), t].flatMap members = s :: (ss ++ [t]) := by
    simp [members_sequence h, ht]
  have hr : (s :: (ss ++ [t])).flatMap members = s :: (ss ++ [t]) := by
    refine Flat.flatMap_members (Flat.append h ?_)
    intro u hu
    obtain rfl := List.mem_singleton.1 hu
    exact ht
  exact sequence_congr (hl.trans hr.symm)

end Stmt

theorem Call.flat_stmts (c : Call) : Stmt.Flat c.stmts := by
  intro s hs
  cases c <;> simp [Call.stmts, Stmt.store, Stmt.prefetch, Stmt.evaluate] at hs <;> rw [hs] <;> rfl

/-- The scope wraps its body in heads. -/
def Opening.wraps : Opening → Bool
  | .primFunc | .block _ _ | .blockInit | .branch _ | .thenCase | .elseCase => false
  | _ => true

theorem Opening.product_of_wraps {c : Config} {around : List Head} {v : Value}
    {items : List Item} {ps : List Product} {o : Opening} (h : o.wraps = true) :
    o.product c around v items ps = .stmts
      (if (o.heads c around v).isEmpty then ps.flatMap Product.body
        else [Head.wrap (o.heads c around v) (.sequence (ps.flatMap Product.body))]) := by
  cases o with
  | grid es => cases es <;> rfl
  | _ => first | rfl | cases h

theorem Opening.flat_product (c : Config) (around : List Head) (v : Value) (items : List Item)
    {ps : List Product} (h : Stmt.Flat (ps.flatMap Product.body)) (o : Opening) :
    Stmt.Flat (o.product c around v items ps).body := by
  have hone (s : Stmt) (hs : s.members = [s]) : Stmt.Flat [s] := by
    intro t ht
    obtain rfl := List.mem_singleton.1 ht
    exact hs
  cases hw : o.wraps with
  | true =>
      rw [product_of_wraps hw]
      cases o.heads c around v with
      | nil => exact h
      | cons x xs => exact hone _ rfl
  | false =>
      cases o with
      | primFunc | blockInit | thenCase | elseCase => exact Stmt.Flat.nil
      | block _ _ | branch _ => exact hone _ rfl
      | _ => cases hw

namespace Item

mutual

theorem flat_product (c : Config) (around : List Head) :
    (i : Item) → Stmt.Flat (i.product c around).body
  | .call _ k _ => k.flat_stmts
  | .scope _ o v items =>
      o.flat_product c around v items (flat_products c (o.heads c around v ++ around) items)
termination_by structural i => i

theorem flat_products (c : Config) (around : List Head) :
    (is : List Item) → Stmt.Flat ((products c around is).flatMap Product.body)
  | [] => Stmt.Flat.nil
  | i :: is => (flat_product c around i).append (flat_products c around is)
termination_by structural is => is

end

theorem products_eq (c : Config) (around : List Head) (is : List Item) :
    products c around is = is.map (product c around) := by
  induction is with
  | nil => rfl
  | cons i is ih => rw [products, ih, List.map_cons]

theorem products_append (c : Config) (around : List Head) (is js : List Item) :
    products c around (is ++ js) = products c around is ++ products c around js := by
  rw [products_eq, products_eq, products_eq, List.map_append]

theorem eventsList_append (is js : List Item) :
    eventsList (is ++ js) = eventsList is ++ eventsList js := by
  induction is with
  | nil => rfl
  | cons i is ih => rw [List.cons_append, eventsList, eventsList, ih, List.append_assoc]

end Item

namespace Call

variable {b : Builder} {around : List Head}

theorem remapAxis_remapped {dtype : Option DataType} {kind : Char} {binding : Expr}
    {a : IterVar × Expr} {s s' : Supply} (h : remapAxis b dtype kind binding s = .ok (a, s'))
    (hd : ∀ v, b.loopDomain? v = around.findSome? (Head.domain? v)) :
    Item.remapped around a.1.var kind binding = some a := by
  obtain ⟨k, v, dom, w, hk, hv, hl, hw, rfl⟩ := remapAxis_eq_ok h
  have ht : w.dtype = dtype.getD v.dtype := congrArg (·.1.dtype) hw
  rw [hd] at hl
  simp [Item.remapped, hk, hv, hl, ht, IterVar.axis]

theorem remapAxes_remapped {dtype : Option DataType} {ps : List (Char × Expr)}
    {axes : List (IterVar × Expr)} {s s' : Supply} (h : remapAxes b dtype ps s = .ok (axes, s'))
    (hd : ∀ v, b.loopDomain? v = around.findSome? (Head.domain? v)) :
    ((axes.map fun a => a.1.var).zip ps).filterMap
      (fun x => Item.remapped around x.1 x.2.1 x.2.2) = axes := by
  induction ps generalizing axes s with
  | nil =>
      simp only [remapAxes, Attempt.pure_eq_ok] at h
      cases h
      rfl
  | cons p ps ih =>
      simp only [remapAxes, Attempt.bind_eq_ok, Attempt.pure_eq_ok] at h
      obtain ⟨a, _, ha, as, _, has, h⟩ := h
      cases h
      simp only [List.map_cons, List.zip_cons_cons, List.filterMap_cons,
        remapAxis_remapped ha hd, ih has]

end Call

theorem Opening.gridHeads_eq {es : List Expr} {vs : List Var} (h : vs.length = es.length) :
    gridHeads es vs = List.zipWith gridHead es vs := by
  induction es generalizing vs with
  | nil => rfl
  | cons e es ih =>
      cases vs with
      | nil => cases h
      | cons v vs =>
          rw [gridHeads, List.tail_cons, ih (Nat.succ.inj h)]
          rfl

/-- The open scope `x` holds what `items` say that were done directly in it. The threads of a
function are not among it. -/
inductive Opening.Shows (c : Config) (around : List Head) (v : Value) (items : List Item)
    (ps : List Product) : Opening → Scope → Prop where
  | func (threads : OrderedMap Var IterVar) : Shows c around v items ps .primFunc
      (.func { FuncScope.collect items with threads })
  | block (name : String) (bare : Bool) : Shows c around v items ps (.block name bare)
      (.block (BlockScope.collect around name bare items ps))
  | blockInit : Shows c around v items ps .blockInit .blockInit
  | branch (condition : Expr) : Shows c around v items ps (.branch condition) (.branch
      ⟨condition, ps.findSome? Product.then?, ps.findSome? Product.else?⟩)
  | thenCase : Shows c around v items ps .thenCase .thenCase
  | elseCase : Shows c around v items ps .elseCase .elseCase
  | wrap {o : Opening} {w : Wrapper} (ho : o.wraps = true) (hw : w.heads = o.heads c around v) :
      Shows c around v items ps o (.wrap w)

/-- The item says nothing that a block or function keeps. -/
def Item.Quiet : Item → Prop
  | .scope _ _ _ _ => True
  | .call _ k _ => match k with
    | .store _ _ _ | .prefetch _ _ | .evaluate _ | .envThread _ => True
    | _ => False

theorem filterMap_singleton {α β : Type} (f : α → Option β) (a : α) :
    [a].filterMap f = (f a).toList := by
  cases h : f a <;> simp [h]

attribute [simp] Item.axes Item.reads? Item.writes? Item.predicate? Item.blockAttrs? Item.alloc?
  Item.matched? Item.funcName? Item.param? Item.funcRet? Item.behind Item.funcAttrs?
  Product.init? Product.then? Product.else?

namespace Opening.Shows

variable {c : Config} {around : List Head} {v : Value} {items : List Item} {ps : List Product}
  {o : Opening} {x : Scope}

theorem collectBlock_snoc (name : String) (bare : Bool) (i : Item) (p : Product) :
    let x := BlockScope.collect around name bare items ps
    BlockScope.collect around name bare (items ++ [i]) (ps ++ [p]) = { x with
      axes := x.axes ++ i.axes around
      reads := x.reads.or i.reads?
      writes := x.writes.or i.writes?
      predicate := x.predicate.or i.predicate?
      annotations := x.annotations.or i.blockAttrs?
      allocs := x.allocs ++ i.alloc?.toList
      matched := x.matched ++ i.matched?.toList
      init := x.init.or p.init? } := by
  simp [BlockScope.collect, List.findSome?_append, filterMap_singleton]

theorem collectFunc_snoc (i : Item) :
    let g := FuncScope.collect items
    FuncScope.collect (items ++ [i]) = { g with
      name := g.name.or i.funcName?
      params := g.params ++ i.param?.toList
      retType := g.retType.or i.funcRet?
      bufferMap := (i.behind (g.bufferMap, g.preflattened)).1
      preflattened := (i.behind (g.bufferMap, g.preflattened)).2
      attrs := g.attrs.or i.funcAttrs?
      allocs := g.allocs ++ i.alloc?.toList } := by
  simp [FuncScope.collect, List.findSome?_append, filterMap_singleton]

theorem collectFunc_quiet {i : Item} (hi : i.Quiet) :
    FuncScope.collect (items ++ [i]) = FuncScope.collect items := by
  rw [collectFunc_snoc]
  cases i with
  | scope _ _ _ _ => simp
  | call s k u =>
      cases k with
      | store _ _ _ | prefetch _ _ | evaluate _ | envThread _ => simp
      | _ => cases hi

theorem collectBlock_quiet (around : List Head) (items : List Item) (ps : List Product)
    {i : Item} (hi : i.Quiet) (name : String) (bare : Bool) (p : Product) :
    let x := BlockScope.collect around name bare items ps
    BlockScope.collect around name bare (items ++ [i]) (ps ++ [p]) =
      { x with init := x.init.or p.init? } := by
  rw [collectBlock_snoc]
  cases i with
  | scope _ _ _ _ => simp
  | call s k u =>
      cases k with
      | store _ _ _ | prefetch _ _ | evaluate _ | envThread _ => simp
      | _ => cases hi

theorem quiet {i : Item} (h : o.Shows c around v items ps x) (hi : i.Quiet) (ss : List Stmt) :
    o.Shows c around v (items ++ [i]) (ps ++ [Product.stmts ss]) x := by
  cases h with
  | func threads => exact collectFunc_quiet hi ▸ .func threads
  | block name bare =>
      have hb := collectBlock_quiet around items ps hi name bare (.stmts ss)
      simp only [Product.init?, Option.or_none] at hb
      have hb' : BlockScope.collect around name bare (items ++ [i]) (ps ++ [.stmts ss]) =
          BlockScope.collect around name bare items ps := hb
      exact hb' ▸ .block name bare
  | branch condition =>
      have ht : (ps ++ [Product.stmts ss]).findSome? Product.then? =
          ps.findSome? Product.then? := by simp
      have he : (ps ++ [Product.stmts ss]).findSome? Product.else? =
          ps.findSome? Product.else? := by simp
      rw [← ht, ← he]
      exact .branch condition
  | blockInit => exact .blockInit
  | thenCase => exact .thenCase
  | elseCase => exact .elseCase
  | wrap ho hw => exact .wrap ho hw

theorem init {i : Item} {y : BlockScope} (h : o.Shows c around v items ps (.block y))
    (hi : i.Quiet) (hn : y.init = none) (s : Stmt) :
    o.Shows c around v (items ++ [i]) (ps ++ [Product.blockInit s])
      (.block { y with init := some s }) := by
  cases h with
  | block name bare =>
      have hb := collectBlock_quiet around items ps hi name bare (.blockInit s)
      simp only [Product.init?, hn, Option.none_or] at hb
      exact hb ▸ .block name bare

theorem thenBranch {i : Item} {y : BranchScope} (h : o.Shows c around v items ps (.branch y))
    (hn : y.thenCase = none) (s : Stmt) :
    o.Shows c around v (items ++ [i]) (ps ++ [Product.thenCase s])
      (.branch { y with thenCase := some s }) := by
  cases h with
  | branch condition =>
      have ht : (ps ++ [Product.thenCase s]).findSome? Product.then? = some s := by
        rw [List.findSome?_append, show ps.findSome? Product.then? = none from hn]
        rfl
      have he : (ps ++ [Product.thenCase s]).findSome? Product.else? =
          ps.findSome? Product.else? := by simp
      dsimp only
      rw [← ht, ← he]
      exact .branch condition

theorem elseBranch {i : Item} {y : BranchScope} (h : o.Shows c around v items ps (.branch y))
    (hn : y.elseCase = none) (s : Stmt) :
    o.Shows c around v (items ++ [i]) (ps ++ [Product.elseCase s])
      (.branch { y with elseCase := some s }) := by
  cases h with
  | branch condition =>
      have ht : (ps ++ [Product.elseCase s]).findSome? Product.then? =
          ps.findSome? Product.then? := by simp
      have he : (ps ++ [Product.elseCase s]).findSome? Product.else? = some s := by
        rw [List.findSome?_append, show ps.findSome? Product.else? = none from hn]
        rfl
      dsimp only
      rw [← ht, ← he]
      exact .branch condition

/-- A call that changes a field of a block adds what it says to what has been said. -/
theorem block_call {b : Builder} {s : Supply} {k : Call} {u : Value} {y z : BlockScope}
    (h : o.Shows c around v items ps (.block y)) (ht : b.Top (.block y))
    (hd : k.Does b s u (.setTop (.block z)))
    (hl : ∀ v, b.loopDomain? v = around.findSome? (Head.domain? v)) :
    o.Shows c around v (items ++ [.call s k u]) (ps ++ [Product.stmts []]) (.block z) := by
  cases h with
  | block name bare =>
      have hz : z = BlockScope.collect around name bare (items ++ [.call s k u])
          (ps ++ [Product.stmts []]) := by
        rw [collectBlock_snoc]
        cases hd with
        | guard _ top unset | reads _ top unset | writes _ top unset | blockAttrs _ top unset =>
            obtain rfl := Scope.block.inj (top.unique ht)
            simp [unset]
        | allocInBlock _ _ _ _ top | matchRegion _ _ _ _ _ top =>
            obtain rfl := Scope.block.inj (top.unique ht)
            simp
        | axis _ _ _ _ _ top =>
            obtain rfl := Scope.block.inj (top.unique ht)
            simp [IterVar.axis]
        | remap _ _ _ top made =>
            obtain rfl := Scope.block.inj (top.unique ht)
            simp [Call.remapAxes_remapped made hl]
      rw [hz]
      exact .block name bare

theorem func_call {b : Builder} {s : Supply} {k : Call} {u : Value} {y z : FuncScope}
    (h : o.Shows c around v items ps (.func y)) (ht : b.Top (.func y))
    (hd : k.Does b s u (.setTop (.func z))) :
    o.Shows c around v (items ++ [.call s k u]) (ps ++ [Product.stmts []]) (.func z) := by
  cases h with
  | func threads =>
      have hz : z = { FuncScope.collect (items ++ [.call s k u]) with threads } := by
        rw [collectFunc_snoc]
        cases hd with
        | allocInFunc _ _ _ _ top | matchParam _ _ _ _ _ top _ | argVar _ _ top
        | argBuffer _ _ top =>
            obtain rfl := Scope.func.inj (top.unique ht)
            simp
        | preflattened _ _ _ _ _ top behind _ =>
            obtain rfl := Scope.func.inj (top.unique ht)
            simp [behind]
        | funcName _ top unset =>
            obtain rfl := Scope.func.inj (top.unique ht)
            have hn : (FuncScope.collect items).name = none := unset
            simp [hn]
        | funcAttrs _ top unset =>
            obtain rfl := Scope.func.inj (top.unique ht)
            have hn : (FuncScope.collect items).attrs = none := unset
            simp [hn]
        | funcRet _ top unset =>
            obtain rfl := Scope.func.inj (top.unique ht)
            have hn : (FuncScope.collect items).retType = none := unset
            simp [hn]
      rw [hz]
      exact .func threads

theorem closes {p : Product} (h : o.Shows c around v items ps x)
    (hc : x.Closes c (ps.flatMap Product.body) p) : o.product c around v items ps = p := by
  cases h with
  | func threads =>
      cases hc with
      | func sound => rfl
  | block name bare =>
      cases hc with
      | @block _ r bound =>
          have hr : r = if bare then none else
              some ⟨(BlockScope.collect around name bare items ps).axes.map Prod.snd,
                (BlockScope.collect around name bare items ps).predicate.getD (.bool true)⟩ :=
              BlockScope.realization_eq_ok bound
          rw [hr]
          rfl
  | blockInit =>
      cases hc
      rfl
  | branch condition =>
      cases hc with
      | branch empty paired =>
          simp only [Opening.product]
          rw [show ps.findSome? Product.then? = some _ from paired]
          rfl
  | thenCase =>
      cases hc
      rfl
  | elseCase =>
      cases hc
      rfl
  | wrap ho hw =>
      cases hc with
      | wrap w => rw [product_of_wraps ho, Wrapper.close, hw]

end Opening.Shows

end TensorProgram
