import TensorProgram.Builder.Basic
import TensorProgram.BufferDecl

/-!
The calls that open a scope. An opening looks at the builder and makes the scope to
be pushed; what is open already stays as it is. It has nothing to write before it has
the scope, and every mistake in it shows before then: to make the scope out of the
builder and to push it later is the whole of it. New variables come from the supply.
-/

namespace TensorProgram

/-- Why a call does not go through: a mistake that the session remembers, or literal
bounds whose difference no word holds. -/
inductive Failure where
  | refused (e : BuildError)
  | overflow (o : Overflow)
  deriving DecidableEq, Repr

/-- A computation that draws on the supply of variables and may fail. -/
abbrev Attempt := StateT Supply (Except Failure)

namespace Attempt

def check {α : Type} : Except BuildError α → Attempt α
  | .ok a => pure a
  | .error e => throw (.refused e)

def exact {α : Type} : Except Overflow α → Attempt α
  | .ok a => pure a
  | .error o => throw (.overflow o)

def refuse {α : Type} (e : BuildError) : Attempt α := throw (.refused e)

def fresh (name : String) (dtype : DataType) : Attempt Var := modifyGet (Var.fresh name dtype)

def declare (shape : List Expr) (dtype : DataType) (o : BufferOptions) : Attempt Buffer := do
  let (buffer, s) ← check (Buffer.declare shape dtype o (← get))
  set s
  return buffer

end Attempt

/-- How a single loop runs. A loop has a thread if and only if it is bound to one, so that the
kind of the loop and the tag of its thread are one choice. -/
inductive LoopMode where
  | serial
  | parallel
  | vectorized
  | unrolled
  /-- On the hardware thread `tag`. -/
  | thread (tag : String)
  deriving DecidableEq, Repr

namespace LoopMode

def kind : LoopMode → LoopKind
  | .serial => .serial
  | .parallel => .parallel
  | .vectorized => .vectorized
  | .unrolled => .unrolled
  | .thread _ => .threadBinding

def op : LoopMode → String
  | .serial => "serial"
  | .parallel => "parallel"
  | .vectorized => "vectorized"
  | .unrolled => "unroll"
  | .thread _ => "thread_binding"

/-- The thread that the loop over `v` is bound to. -/
def binding (mode : LoopMode) (v : Var) (dom : Range) : Option IterVar :=
  match mode with
  | .thread tag => some (.thread (some dom) v tag)
  | _ => none

end LoopMode

def Loop.over (mode : LoopMode) (v : Var) (dom : Range) (annotations : Annotations) : Loop :=
  ⟨v, dom.min, dom.extent, mode.kind, mode.binding v dom, annotations⟩

/-- A call that opens a scope. -/
inductive Opening where
  | primFunc
  | block (name : String) (bare : Bool)
  | blockInit
  | loop (mode : LoopMode) (start stop : Expr) (annotations : Option Annotations)
  /-- One serial loop for each extent, outermost first. -/
  | grid (extents : List Expr)
  | branch (condition : Expr)
  | thenCase
  | elseCase
  | whileLoop (condition : Expr)
  | bind (var : Var) (value : Expr)
  | allocate (extents : List Expr) (dtype : DataType) (scope : String) (condition : Option Expr)
      (annotations : Option Annotations)
  | allocateConst (data : ConstantData) (dtype : DataType) (extents : List Expr)
      (annotations : Option Annotations)
  | attr (node : AttrNode) (key : String) (value : Expr)
  | assert (condition : Expr) (message : String)
  | launchThread (var : Var) (extent : Expr)
  | realize (region : Region) (scope : String) (condition : Option Expr)

/-- What a call gives back. -/
inductive Value where
  | unit
  | var (v : Var)
  | vars (vs : List Var)
  | buffer (b : Buffer)
  | type (t : ValueType)

/-- The type of the variable of a loop from `start` to `stop`: the first of the two that is
no literal decides. -/
def Config.loopType (c : Config) (start stop : Expr) : DataType :=
  if start.isLiteral then
    if stop.isLiteral then c.indexType else stop.dtype
  else start.dtype

namespace ConstantData

/-- The number of elements of an array with these extents. -/
def sizeFrom : Int64 → List Int64 → Except BuildError Int64
  | size, [] => return size
  | size, d :: ds =>
      if d.toInt < 0 then throw (.negativeExtent d)
      else
        match mulExact? size d with
        | some size => sizeFrom size ds
        | none => throw .extentsTooLarge

/-- Extents that are all literals must hold exactly the values given. -/
def checkCount (data : ConstantData) (extents : List Expr) : Except BuildError Unit :=
  match extents.mapM Expr.asInt? with
  | none => return
  | some dims => do
      let size ← sizeFrom 1 dims
      if size.toInt = data.length then return else throw (.constantCount size data.length)

def check (data : ConstantData) (dtype : DataType) (extents : List Expr) :
    Except BuildError Unit := do
  data.checkCount extents
  if data.fits dtype then return else throw (.constantKind dtype)

end ConstantData

namespace Opening

def op : Opening → String
  | .primFunc => "prim_func"
  | .block _ _ => "block"
  | .blockInit => "init"
  | .loop mode _ _ _ => mode.op
  | .grid _ => "grid"
  | .branch _ => "if_"
  | .thenCase => "then_"
  | .elseCase => "else_"
  | .whileLoop _ => "while_"
  | .bind _ _ => "let_"
  | .allocate _ _ _ _ _ => "allocate"
  | .allocateConst _ _ _ _ => "allocate_const"
  | .attr _ _ _ => "attr"
  | .assert _ _ => "assert_"
  | .launchThread _ _ => "launch_thread"
  | .realize _ _ _ => "realize"

/-- A function is the outermost scope and the only product of its session. -/
def checkFunc (b : Builder) : Except BuildError Unit :=
  match b.topKind? with
  | some top => throw (.nestedFunction top)
  | none => if b.result.isSome then throw .functionAfterResult else return

def checkInit (b : Builder) : Except BuildError Unit := do
  if (← b.topBlock "init").init.isSome then throw (.duplicateSetting .block "init") else return

def checkThen (b : Builder) : Except BuildError Unit :=
  match b.top? Scope.branch? with
  | none => throw .thenOutsideIf
  | some i => if i.thenCase.isSome then throw .secondThen else return

def checkElse (b : Builder) : Except BuildError Unit :=
  match b.top? Scope.branch? with
  | none => throw .elseOutsideIf
  | some i =>
      if i.thenCase.isNone then throw .elseBeforeThen
      else if i.elseCase.isSome then throw .secondElse
      else return

def checkBounds (op : String) (start stop : Expr) : Except BuildError Unit :=
  match start.asInt?, stop.asInt? with
  | some lo, some hi => if hi.toInt < lo.toInt then throw (.emptyRange op lo hi) else return
  | _, _ => return

/-- The loop over `[start, stop)`. -/
def singleLoop (b : Builder) (mode : LoopMode) (start stop : Expr) (annotations : Annotations) :
    Attempt (Var × Head) := do
  .check (checkBounds mode.op start stop)
  let dtype := b.config.loopType start stop
  let min := start.asIndex dtype
  let extent ← .exact ((stop.asIndex dtype).subFolded min)
  let v ← .fresh "i" dtype
  return (v, .loop (.over mode v ⟨min, extent⟩ annotations))

/-- The loop over `[0, extent)` that comes `k`th in a grid. -/
def gridLoop (b : Builder) (k : Nat) (extent : Expr) : Attempt (Var × Head) := do
  let dtype := b.config.loopType (.int32 0) extent
  let v ← .fresh ("i" ++ toString k) dtype
  return (v, .loop (.over .serial v ⟨.int 0 dtype, extent.asIndex dtype⟩ ∅))

def gridLoops (b : Builder) : Nat → List Expr → Attempt (List (Var × Head))
  | _, [] => return []
  | k, e :: es => return (← gridLoop b k e) :: (← gridLoops b (k + 1) es)

/-- The thread `var` as registered in the function around. -/
def registeredThread (b : Builder) (var : Var) : Except BuildError IterVar :=
  match b.nearestFunc? with
  | none => throw (.noEnclosingScope "launch_thread" .primFunc)
  | some f =>
      match f.threads.get? var with
      | none => throw (.unknownEnvThread var.text)
      | some t => return t

def checkRealize (b : Builder) (r : Region) : Except BuildError Unit :=
  if r.ranges.length ≠ r.buffer.rank then
    throw (.regionRank r.ranges.length r.buffer.name r.buffer.rank)
  else if b.declares r.buffer then return
  else throw (.undeclaredBuffer "realize" r.buffer.name)

/-- A buffer for an allocation. -/
def allocation (extents : List Expr) (dtype : DataType) (scope : String) : Attempt Buffer :=
  .declare extents dtype { name := "buf", scope }

/-- A scope that wraps its body in the heads, and what it gives back. -/
def wrapping (kind : WrapKind) (heads : List Head) (value : Value := .unit) : Scope × Value :=
  (.wrap { kind, heads }, value)

/-- The scope to push, and the value that goes with it. -/
def scope (b : Builder) : Opening → Attempt (Scope × Value)
  | .primFunc => do
      .check (checkFunc b)
      return (.func {}, .unit)
  | .block name bare => return (.block { name, bare }, .unit)
  | .blockInit => do
      .check (checkInit b)
      return (.blockInit, .unit)
  | .loop mode start stop annotations => do
      let (v, head) ← singleLoop b mode start stop (annotations.getD ∅)
      return wrapping .loops [head] (.var v)
  | .grid extents => do
      let loops ← gridLoops b 0 extents
      return wrapping .loops (loops.map Prod.snd) (.vars (loops.map Prod.fst))
  | .branch condition => return (.branch { condition }, .unit)
  | .thenCase => do
      .check (checkThen b)
      return (.thenCase, .unit)
  | .elseCase => do
      .check (checkElse b)
      return (.elseCase, .unit)
  | .whileLoop condition => return wrapping .whileLoop [.whileLoop condition]
  | .bind v value => return wrapping .bind [.bind v value] (.var v)
  | .allocate extents dtype scope condition annotations => do
      if extents.isEmpty then .refuse .noExtents
      else
        let buffer ← allocation extents dtype (b.storageScopeOr scope)
        let head := Head.allocate buffer.data buffer.dtype extents (condition.getD (.bool true))
          (annotations.getD ∅)
        return (.wrap { kind := .allocate, heads := [head], buffer }, .buffer buffer)
  | .allocateConst data dtype extents annotations => do
      .check (data.check dtype extents)
      let buffer ← allocation extents dtype b.config.storageScope
      let head := Head.allocateConst buffer.data buffer.dtype extents data (annotations.getD ∅)
      return (.wrap { kind := .allocateConst, heads := [head], buffer }, .buffer buffer)
  | .attr node key value => return wrapping .attr [.attr node key value]
  | .assert condition message => return wrapping .assert [.assert condition (.str message)]
  | .launchThread var extent => do
      let t ← .check (registeredThread b var)
      let node := AttrNode.iterVar { t with dom := some ⟨.int 0 t.var.dtype, extent⟩ }
      return wrapping .launchThread [.attr node "thread_extent" extent] (.var t.var)
  | .realize region scope condition => do
      .check (checkRealize b region)
      let place := Head.attr (.var region.buffer.data) "realize_scope" (.str (b.storageScopeOr scope))
      return wrapping .realize [place, .realize region (condition.getD (.bool true))]

end Opening

end TensorProgram
