import TensorProgram.Proofs.Effects
import TensorProgram.Proofs.History

/-!
What a session makes, by plain recursion. A run without mistakes is a nesting: scopes with
calls and further scopes in them. A scope makes the node of its kind from what its direct
parts make, and nothing here knows of a stack. What a call or an opening makes depends on
its arguments, on the value that it gave back, and on the heads of the scopes around it,
which are listed from the inside out.
-/

namespace TensorProgram

/-- A call, or a scope with everything that was done directly in it. -/
inductive Item where
  | call (s : Supply) (c : Call) (value : Value)
  | scope (id : Nat) (o : Opening) (value : Value) (items : List Item)

namespace Value

instance : Inhabited Var := ⟨⟨0, "", .handle, none⟩⟩

instance : Inhabited Buffer := ⟨⟨default, .handle, [], [], default, "", 0, 0, .default, []⟩⟩

def asVar : Value → Var
  | .var v => v
  | _ => default

def asVars : Value → List Var
  | .vars vs => vs
  | _ => []

def asBuffer : Value → Buffer
  | .buffer x => x
  | _ => default

end Value

namespace Item

mutual

/-- The run that the item stands for. -/
def events : Item → List Event
  | .call s c v => [.called s c v]
  | .scope id o v items => .opened id o v :: (eventsList items ++ [.closed id])
termination_by structural i => i

def eventsList : List Item → List Event
  | [] => []
  | i :: is => i.events ++ eventsList is
termination_by structural is => is

end

/-! What the calls made directly in a block or a function say. -/

def predicate? : Item → Option Expr
  | .call _ (.guard p) _ => some p
  | _ => none

def reads? : Item → Option (List Region)
  | .call _ (.reads rs) _ => some rs
  | _ => none

def writes? : Item → Option (List Region)
  | .call _ (.writes rs) _ => some rs
  | _ => none

def blockAttrs? : Item → Option Annotations
  | .call _ (.blockAttrs m) _ => some m
  | _ => none

def alloc? : Item → Option Buffer
  | .call _ (.allocBuffer _ _ _) (.buffer x) => some x
  | _ => none

def matched? : Item → Option MatchRegion
  | .call _ (.matchBuffer (.region r) _ _ _) (.buffer x) => some ⟨x, r⟩
  | _ => none

/-- The axis with the variable `v` over the loop that `binding` is the variable of. -/
def remapped (around : List Head) (v : Var) (kind : Char) (binding : Expr) :
    Option (IterVar × Expr) := do
  let kind ← AxisKind.ofChar? kind
  let dom ← around.findSome? (Head.domain? (← binding.asVar?))
  return (⟨some ⟨dom.min.asIndex v.dtype, dom.extent.asIndex v.dtype⟩, v, kind.iterKind, ""⟩,
    binding.castTo v.dtype)

def axes (around : List Head) : Item → List (IterVar × Expr)
  | .call _ (.axis kind dom binding _) (.var v) => [(⟨some dom, v, kind.iterKind, ""⟩, binding)]
  | .call _ (.remap kinds bindings _) (.vars vs) =>
      (vs.zip (kinds.toList.zip bindings)).filterMap fun x => remapped around x.1 x.2.1 x.2.2
  | _ => []

def funcName? : Item → Option String
  | .call _ (.funcName name) _ => some name
  | _ => none

def funcAttrs? : Item → Option Annotations
  | .call _ (.funcAttrs m) _ => some m
  | _ => none

def funcRet? : Item → Option ValueType
  | .call _ (.funcRet t) _ => some t
  | _ => none

/-- A buffer that is an argument lies behind a fresh handle. -/
def param? : Item → Option Var
  | .call _ (.argVar _ _) (.var v) => some v
  | .call s (.argBuffer name _) _ => some (Var.fresh name .handle s).1
  | _ => none

/-- Adds what the item says to the maps from parameters to buffers, before and after
flattening. -/
def behind (maps : OrderedMap Var Buffer × OrderedMap Var Buffer) :
    Item → OrderedMap Var Buffer × OrderedMap Var Buffer
  | .call s (.argBuffer name _) (.buffer x) =>
      (maps.1.insert (Var.fresh name .handle s).1 x, maps.2)
  | .call _ (.matchBuffer (.param p) _ _ _) (.buffer x) => (maps.1.insert p x, maps.2)
  | .call _ (.preflattenedBuffer of _ _ _) (.buffer x) =>
      match maps.1.entries.find? fun e => e.2.sameAs of with
      | some (p, _) => (maps.1, maps.2.insert p x)
      | none => maps
  | _ => maps

end Item

namespace Product

/-- The statements for the body of the scope around. -/
def body : Product → List Stmt
  | .stmts ss => ss
  | _ => []

def func? : Product → Option PrimFunc
  | .func f => some f
  | _ => none

def init? : Product → Option Stmt
  | .blockInit s => some s
  | _ => none

def then? : Product → Option Stmt
  | .thenCase s => some s
  | _ => none

def else? : Product → Option Stmt
  | .elseCase s => some s
  | _ => none

end Product

/-- What is said directly in a function, without its threads. -/
def FuncScope.collect (items : List Item) : FuncScope where
  name := items.findSome? Item.funcName?
  params := items.filterMap Item.param?
  retType := items.findSome? Item.funcRet?
  bufferMap := (items.foldl Item.behind (∅, ∅)).1
  preflattened := (items.foldl Item.behind (∅, ∅)).2
  attrs := items.findSome? Item.funcAttrs?
  allocs := items.filterMap Item.alloc?

/-- What is said directly in a block, and the init among the products of its scopes. -/
def BlockScope.collect (around : List Head) (name : String) (bare : Bool) (items : List Item)
    (ps : List Product) : BlockScope where
  name
  bare
  axes := items.flatMap (Item.axes around)
  reads := items.findSome? Item.reads?
  writes := items.findSome? Item.writes?
  predicate := items.findSome? Item.predicate?
  annotations := items.findSome? Item.blockAttrs?
  allocs := items.filterMap Item.alloc?
  matched := items.filterMap Item.matched?
  init := ps.findSome? Product.init?

/-- The statement that a call delivers. -/
def Call.stmts : Call → List Stmt
  | .store buffer value indices => [.store buffer (value.castTo buffer.dtype) indices]
  | .prefetch buffer bounds => [.prefetch buffer bounds]
  | .evaluate value => [.evaluate value]
  | _ => []

namespace Opening

/-- The storage scope as given, or the one that the innermost attribute around sets. -/
def place (c : Config) (around : List Head) (given : String) : String :=
  if given = "" then (around.findSome? Head.storageScope?).getD c.storageScope else given

/-- The length of the interval from `start` to `stop`. A loop is opened only if there is one. -/
def length (start stop : Expr) : Expr :=
  match stop.subFolded start with
  | .ok extent => extent
  | .error _ => .binary .sub stop start

def gridHeads : List Expr → List Var → List Head
  | [], _ => []
  | e :: es, vs => gridHead e (vs.headD default) :: gridHeads es vs.tail

/-- The heads of a scope, outermost first. -/
def heads (c : Config) (around : List Head) (value : Value) : Opening → List Head
  | .loop mode start stop annotations =>
      let v := value.asVar
      let min := start.asIndex v.dtype
      [.loop (mode.node v min (length min (stop.asIndex v.dtype)) (annotations.getD ∅))]
  | .grid extents => gridHeads extents value.asVars
  | .whileLoop condition => [.whileLoop condition]
  | .bind v e => [.bind v e]
  | .allocate extents _ _ condition annotations =>
      let x := value.asBuffer
      [.allocate x.data x.dtype extents (condition.getD (.bool true)) (annotations.getD ∅)]
  | .allocateConst data _ extents annotations =>
      let x := value.asBuffer
      [.allocateConst x.data x.dtype extents data (annotations.getD ∅)]
  | .attr node key e => [.attr node key e]
  | .assert condition message => [.assert condition (.str message)]
  | .launchThread _ extent =>
      let v := value.asVar
      [.attr (.iterVar ⟨some ⟨.int 0 v.dtype, extent⟩, v, .threadIndex, v.name⟩) "thread_extent"
        extent]
  | .realize region scope condition =>
      [.attr (.var region.buffer.data) "realize_scope" (.str (place c around scope)),
        .realize region (condition.getD (.bool true))]
  | .primFunc | .block _ _ | .blockInit | .branch _ | .thenCase | .elseCase => []

/-- What a scope makes of what was done directly in it. A function with allocations has its body
in a block that owns them. A grid without extents hands on its statements one by one. -/
def product (c : Config) (around : List Head) (value : Value) (items : List Item)
    (ps : List Product) : Opening → Product
  | .primFunc =>
      let allocs := items.filterMap Item.alloc?
      let body := Stmt.sequence (ps.flatMap Product.body)
      .func {
        name := items.findSome? Item.funcName?
        params := items.filterMap Item.param?
        body :=
          if allocs.isEmpty then body
          else .block (some ⟨[], .bool true⟩) ⟨c.rootName, [], [], [], allocs, [], ∅⟩ none body
        retType := (items.findSome? Item.funcRet?).getD .void
        bufferMap := (items.foldl Item.behind (∅, ∅)).1
        preflattened := (items.foldl Item.behind (∅, ∅)).2
        attrs := (items.findSome? Item.funcAttrs?).getD ∅ }
  | .block name bare =>
      let axes := items.flatMap (Item.axes around)
      let realization : Realization :=
        ⟨axes.map Prod.snd, (items.findSome? Item.predicate?).getD (.bool true)⟩
      let node : Block := {
        name
        iterVars := axes.map Prod.fst
        reads := (items.findSome? Item.reads?).getD []
        writes := (items.findSome? Item.writes?).getD []
        allocs := items.filterMap Item.alloc?
        matched := items.filterMap Item.matched?
        annotations := (items.findSome? Item.blockAttrs?).getD ∅ }
      .stmts [.block (if bare then none else some realization) node
        (ps.findSome? Product.init?) (.sequence (ps.flatMap Product.body))]
  | .blockInit => .blockInit (.sequence (ps.flatMap Product.body))
  | .branch condition =>
      .stmts [.branch condition ((ps.findSome? Product.then?).getD .noOp)
        (ps.findSome? Product.else?)]
  | .thenCase => .thenCase (.sequence (ps.flatMap Product.body))
  | .elseCase => .elseCase (.sequence (ps.flatMap Product.body))
  | .grid [] => .stmts (ps.flatMap Product.body)
  | o => .stmts [(o.heads c around value).foldr .under (.sequence (ps.flatMap Product.body))]

end Opening

namespace Item

mutual

def product (c : Config) (around : List Head) : Item → Product
  | .call _ k _ => .stmts k.stmts
  | .scope _ o v items =>
      o.product c around v items (products c (o.heads c around v ++ around) items)
termination_by structural i => i

def products (c : Config) (around : List Head) : List Item → List Product
  | [] => []
  | i :: is => i.product c around :: products c around is
termination_by structural is => is

end

end Item

/-- The result of a session: its function, or else the statements at depth zero in one. -/
def Output.collect : Option PrimFunc → List Stmt → Option Output
  | some f, _ => some (.func f)
  | none, [] => none
  | none, s :: ss => some (.stmt (.sequence (s :: ss)))

def Item.output (c : Config) (items : List Item) : Option Output :=
  let ps := products c [] items
  Output.collect (ps.findSome? Product.func?) (ps.flatMap Product.body)

namespace Item

/-- The item is a function. -/
def seals : Item → Bool
  | .scope _ .primFunc _ _ => true
  | _ => false

mutual

/-- The item has a statement for the body of the scope around, or for the result. -/
def delivers : Item → Bool
  | .call _ k _ => !k.stmts.isEmpty
  | .scope _ .primFunc _ _ | .scope _ .blockInit _ _ | .scope _ .thenCase _ _
  | .scope _ .elseCase _ _ => false
  | .scope _ (.grid []) _ items => deliversAny items
  | .scope _ _ _ _ => true
termination_by structural i => i

def deliversAny : List Item → Bool
  | [] => false
  | i :: is => i.delivers || deliversAny is
termination_by structural is => is

end

end Item

end TensorProgram
