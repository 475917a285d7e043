import TensorProgram.World

/-!
Scripts. A script is a list of calls: of sessions, of scopes and in them, and of the constructors
of all that can be passed to a call. Arguments are literals, variables whose identities are given,
and results of earlier calls. How a script runs depends on the world in which it starts, that is,
on the identities that it will be handed.
-/

namespace TensorProgram

namespace Script

/-- The types of arguments. -/
inductive Ty where
  | var
  | expr
  | range
  | iterVar
  | buffer
  | region
  | attrValue
  | annotations
  | node
  | options
  | target
  | type
  | bufferMap
  | matched
  | stmt
  | func
  | list (t : Ty)
  | option (t : Ty)
  deriving DecidableEq

abbrev Ty.Val : Ty → Type
  | .var => Var
  | .expr => Expr
  | .range => Range
  | .iterVar => IterVar
  | .buffer => Buffer
  | .region => Region
  | .attrValue => AttrValue
  | .annotations => Annotations
  | .node => AttrNode
  | .options => BufferOptions
  | .target => MatchTarget
  | .type => ValueType
  | .bufferMap => OrderedMap Var Buffer
  | .matched => MatchRegion
  | .stmt => Stmt
  | .func => PrimFunc
  | .list t => List t.Val
  | .option t => Option t.Val

/-- What a constructor makes when it has its arguments. -/
inductive Kind where
  | value (t : Ty)
  /-- A value, unless a literal overflows. -/
  | folded (t : Ty)
  /-- A value with new variables in it. -/
  | minted (t : Ty)
  | opening
  | call

abbrev Kind.Den : Kind → Type
  | .value t => t.Val
  | .folded t => Except Overflow t.Val
  | .minted t => Supply → t.Val × Supply
  | .opening => Opening
  | .call => Call

/-- Functions of arguments of types `ts`. -/
abbrev Fn : List Ty → Kind → Type
  | [], k => k.Den
  | t :: ts, k => t.Val → Fn ts k

/-- The constructors of data, each with its literal arguments. -/
inductive Data : List Ty → Kind → Type
  | renamed (name : String) : Data [.var] (.value .var)
  | int (value : Int64) (d : DataType) : Data [] (.value .expr)
  | float (value : Binary64) (d : DataType) : Data [] (.value .expr)
  | str (value : String) : Data [] (.value .expr)
  | ofVar : Data [.var] (.value .expr)
  | binary (op : BinOp) : Data [.expr, .expr] (.value .expr)
  | not : Data [.expr] (.value .expr)
  | cast (d : DataType) : Data [.expr] (.value .expr)
  | castTo (d : DataType) : Data [.expr] (.value .expr)
  | load : Data [.buffer, .list .expr] (.value .expr)
  | intrinsic (op : String) (d : DataType) : Data [.list .expr] (.value .expr)
  | subFolded : Data [.expr, .expr] (.folded .expr)
  | addFolded : Data [.expr, .expr] (.folded .expr)
  | range : Data [.expr, .expr] (.value .range)
  | pointRange : Data [.expr] (.value .range)
  | upTo : Data [.expr] (.value .range)
  | ofBounds : Data [.expr, .expr] (.folded .range)
  | iterVar (kind : IterKind) (tag : String) : Data [.option .range, .var] (.value .iterVar)
  | buffer (d : DataType) (name : String) (alignment factor : Int64) (kind : BufferKind)
      (separators : List Int64) :
      Data [.var, .list .expr, .list .expr, .expr] (.value .buffer)
  | data : Data [.buffer] (.value .var)
  | shape : Data [.buffer] (.value (.list .expr))
  | region : Data [.buffer, .list .range] (.value .region)
  | full : Data [.buffer] (.value .region)
  | pointRegion : Data [.buffer, .list .expr] (.value .region)
  | attrInt (value : Int64) : Data [] (.value .attrValue)
  | attrFloat (value : Binary64) : Data [] (.value .attrValue)
  | attrBool (value : Bool) : Data [] (.value .attrValue)
  | attrStr (value : String) : Data [] (.value .attrValue)
  | attrExpr : Data [.expr] (.value .attrValue)
  | attrArray : Data [.list .attrValue] (.value .attrValue)
  | noAnnotations : Data [] (.value .annotations)
  | annotate (key : String) : Data [.annotations, .attrValue] (.value .annotations)
  | nodeVar : Data [.var] (.value .node)
  | nodeIterVar : Data [.iterVar] (.value .node)
  | nodeBuffer : Data [.buffer] (.value .node)
  | nodeStr (value : String) : Data [] (.value .node)
  | options (name scope : String) (alignment factor : Int64) (kind : String)
      (separators : List Int64) :
      Data [.option .var, .list .expr, .option .expr] (.value .options)
  | targetParam : Data [.var] (.value .target)
  | targetRegion : Data [.region] (.value .target)
  | type (t : ValueType) : Data [] (.value .type)
  | nil (t : Ty) : Data [] (.value (.list t))
  | cons (t : Ty) : Data [t, .list t] (.value (.list t))
  | none (t : Ty) : Data [] (.value (.option t))
  | some (t : Ty) : Data [t] (.value (.option t))
  | newVar (name : String) (d : DataType) : Data [] (.minted .var)
  | newPointer (name : String) (elem : DataType) (scope : String) : Data [] (.minted .var)
  | ptr (elem : DataType) (scope : String) : Data [] (.minted .expr)
  | castOrFresh (d : DataType) : Data [.option .expr] (.minted .expr)

/-- The constructors of statements and functions. -/
inductive Node : List Ty → Kind → Type
  | noBuffers : Node [] (.value .bufferMap)
  | putBuffer : Node [.bufferMap, .var, .buffer] (.value .bufferMap)
  | matchRegion : Node [.buffer, .region] (.value .matched)
  | sequence : Node [.list .stmt] (.value .stmt)
  | seq : Node [.list .stmt] (.value .stmt)
  | bareBlock (name : String) : Node [.list .iterVar, .list .region, .list .region, .list .buffer,
      .list .matched, .annotations, .option .stmt, .stmt] (.value .stmt)
  | boundBlock (name : String) : Node [.list .expr, .expr, .list .iterVar, .list .region,
      .list .region, .list .buffer, .list .matched, .annotations, .option .stmt, .stmt]
      (.value .stmt)
  | branchStmt : Node [.expr, .stmt, .option .stmt] (.value .stmt)
  | loopStmt (kind : LoopKind) :
      Node [.var, .expr, .expr, .option .iterVar, .annotations, .stmt] (.value .stmt)
  | whileStmt : Node [.expr, .stmt] (.value .stmt)
  | bindStmt : Node [.var, .expr, .stmt] (.value .stmt)
  | allocateStmt (d : DataType) :
      Node [.var, .list .expr, .expr, .annotations, .stmt] (.value .stmt)
  | allocateConstStmt (d : DataType) (data : ConstantData) :
      Node [.var, .list .expr, .annotations, .stmt] (.value .stmt)
  | attrStmt (key : String) : Node [.node, .expr, .stmt] (.value .stmt)
  | assertStmt : Node [.expr, .expr, .stmt] (.value .stmt)
  | realizeStmt : Node [.region, .expr, .stmt] (.value .stmt)
  | storeStmt : Node [.buffer, .expr, .list .expr] (.value .stmt)
  | prefetchStmt : Node [.buffer, .list .range] (.value .stmt)
  | evaluateStmt : Node [.expr] (.value .stmt)
  | func (name : Option String) (ret : ValueType) :
      Node [.list .var, .stmt, .bufferMap, .bufferMap, .annotations] (.value .func)
  | withName (name : String) : Node [.func] (.value .func)

/-- The calls that open scopes. -/
inductive Opens : List Ty → Type
  | primFunc : Opens []
  | block (name : String) (bare : Bool) : Opens []
  | blockInit : Opens []
  | loop (mode : LoopMode) : Opens [.expr, .expr, .option .annotations]
  | grid : Opens [.list .expr]
  | branch : Opens [.expr]
  | thenCase : Opens []
  | elseCase : Opens []
  | whileLoop : Opens [.expr]
  | bind : Opens [.var, .expr]
  | allocate (d : DataType) (scope : String) :
      Opens [.list .expr, .option .expr, .option .annotations]
  | allocateConst (data : ConstantData) (d : DataType) :
      Opens [.list .expr, .option .annotations]
  | attr (key : String) : Opens [.node, .expr]
  | assert (message : String) : Opens [.expr]
  | launchThread : Opens [.var, .expr]
  | realize (scope : String) : Opens [.region, .option .expr]

/-- The calls in open scopes. -/
inductive Calls : List Ty → Type
  | guard : Calls [.expr]
  | reads : Calls [.list .region]
  | writes : Calls [.list .region]
  | blockAttrs : Calls [.annotations]
  | allocBuffer (d : DataType) : Calls [.list .expr, .options]
  | matchBuffer (d : DataType) : Calls [.target, .list .expr, .options]
  | preflattenedBuffer (d : DataType) : Calls [.buffer, .list .expr, .options]
  | argVar (name : String) : Calls [.var]
  | argBuffer (name : String) : Calls [.buffer]
  | funcName (name : String) : Calls []
  | funcAttrs : Calls [.annotations]
  | funcRet : Calls [.type]
  | envThread (tag : String) : Calls []
  | store : Calls [.buffer, .expr, .list .expr]
  | prefetch : Calls [.buffer, .list .range]
  | evaluate : Calls [.expr]
  | axis (kind : AxisKind) (d : Option DataType) : Calls [.range, .expr]
  | remap (kinds : String) (d : Option DataType) : Calls [.list .expr]

def Data.fn : {ts : List Ty} → {k : Kind} → Data ts k → Fn ts k
  | _, _, renamed name => (·.renamed name)
  | _, _, int v d => Expr.int v d
  | _, _, float v d => Expr.float v d
  | _, _, str s => Expr.str s
  | _, _, ofVar => Expr.var
  | _, _, binary op => Expr.binary op
  | _, _, not => Expr.not
  | _, _, cast d => Expr.cast d
  | _, _, castTo d => Expr.castTo d
  | _, _, load => Expr.load
  | _, _, intrinsic op d => (Expr.call op · d)
  | _, _, subFolded => Expr.subFolded
  | _, _, addFolded => Expr.addFolded
  | _, _, range => Range.mk
  | _, _, pointRange => Range.point
  | _, _, upTo => Range.upTo
  | _, _, ofBounds => Range.ofBounds
  | _, _, iterVar kind tag => (IterVar.mk · · kind tag)
  | _, _, buffer d name alignment factor kind separators => fun data shape strides offset =>
      ⟨data, d, shape, strides, offset, name, alignment, factor, kind, separators⟩
  | _, _, data => Buffer.data
  | _, _, shape => Buffer.shape
  | _, _, region => Region.mk
  | _, _, full => Buffer.full
  | _, _, pointRegion => Buffer.point
  | _, _, attrInt v => AttrValue.int v
  | _, _, attrFloat v => AttrValue.float v
  | _, _, attrBool v => AttrValue.bool v
  | _, _, attrStr s => AttrValue.str s
  | _, _, attrExpr => AttrValue.expr
  | _, _, attrArray => AttrValue.array
  | _, _, noAnnotations => (∅ : Annotations)
  | _, _, annotate key => (OrderedMap.insert · key ·)
  | _, _, nodeVar => AttrNode.var
  | _, _, nodeIterVar => AttrNode.iterVar
  | _, _, nodeBuffer => AttrNode.buffer
  | _, _, nodeStr s => AttrNode.str s
  | _, _, options name scope alignment offsetFactor kind separators =>
      fun data strides elemOffset =>
        { name, data, strides, elemOffset, scope, alignment, offsetFactor, kind, separators }
  | _, _, targetParam => MatchTarget.param
  | _, _, targetRegion => MatchTarget.region
  | _, _, type t => t
  | _, _, nil _ => []
  | _, _, cons _ => List.cons
  | _, _, none _ => Option.none
  | _, _, some _ => Option.some
  | _, _, newVar name d => Var.fresh name d
  | _, _, newPointer name elem scope => Var.freshPointer name elem scope
  | _, _, ptr elem scope => Expr.freshPointer elem scope
  | _, _, castOrFresh d => Expr.castOrFresh d

def Node.fn : {ts : List Ty} → {k : Kind} → Node ts k → Fn ts k
  | _, _, noBuffers => (∅ : OrderedMap Var Buffer)
  | _, _, putBuffer => OrderedMap.insert
  | _, _, matchRegion => MatchRegion.mk
  | _, _, sequence => Stmt.sequence
  | _, _, seq => Stmt.seq
  | _, _, bareBlock name => fun axes reads writes allocs matched m init body =>
      .block .none ⟨name, axes, reads, writes, allocs, matched, m⟩ init body
  | _, _, boundBlock name => fun values p axes reads writes allocs matched m init body =>
      .block (.some ⟨values, p⟩) ⟨name, axes, reads, writes, allocs, matched, m⟩ init body
  | _, _, branchStmt => Stmt.branch
  | _, _, loopStmt kind => fun v min extent thread m =>
      .under (.loop ⟨v, min, extent, kind, thread, m⟩)
  | _, _, whileStmt => fun c => .under (.whileLoop c)
  | _, _, bindStmt => fun v e => .under (.bind v e)
  | _, _, allocateStmt d => fun v es c m => .under (.allocate v d es c m)
  | _, _, allocateConstStmt d values => fun v es m => .under (.allocateConst v d es values m)
  | _, _, attrStmt key => fun n e => .under (.attr n key e)
  | _, _, assertStmt => fun c message => .under (.assert c message)
  | _, _, realizeStmt => fun r c => .under (.realize r c)
  | _, _, storeStmt => Stmt.store
  | _, _, prefetchStmt => Stmt.prefetch
  | _, _, evaluateStmt => Stmt.evaluate
  | _, _, func name ret => fun params body buffers preflattened attrs =>
      ⟨name, params, body, ret, buffers, preflattened, attrs⟩
  | _, _, withName name => (·.withName name)

def Opens.fn : {ts : List Ty} → Opens ts → Fn ts .opening
  | _, primFunc => Opening.primFunc
  | _, block name bare => Opening.block name bare
  | _, blockInit => Opening.blockInit
  | _, loop mode => Opening.loop mode
  | _, grid => Opening.grid
  | _, branch => Opening.branch
  | _, thenCase => Opening.thenCase
  | _, elseCase => Opening.elseCase
  | _, whileLoop => Opening.whileLoop
  | _, bind => Opening.bind
  | _, allocate d scope => (Opening.allocate · d scope · ·)
  | _, allocateConst values d => Opening.allocateConst values d
  | _, attr key => (Opening.attr · key ·)
  | _, assert message => (Opening.assert · message)
  | _, launchThread => Opening.launchThread
  | _, realize scope => (Opening.realize · scope ·)

def Calls.fn : {ts : List Ty} → Calls ts → Fn ts .call
  | _, guard => Call.guard
  | _, reads => Call.reads
  | _, writes => Call.writes
  | _, blockAttrs => Call.blockAttrs
  | _, allocBuffer d => (Call.allocBuffer · d ·)
  | _, matchBuffer d => (Call.matchBuffer · · d ·)
  | _, preflattenedBuffer d => (Call.preflattenedBuffer · · d ·)
  | _, argVar name => Call.argVar name
  | _, argBuffer name => Call.argBuffer name
  | _, funcName name => Call.funcName name
  | _, funcAttrs => Call.funcAttrs
  | _, funcRet => Call.funcRet
  | _, envThread tag => Call.envThread tag
  | _, store => Call.store
  | _, prefetch => Call.prefetch
  | _, evaluate => Call.evaluate
  | _, axis kind d => (Call.axis kind · · d)
  | _, remap kinds d => (Call.remap kinds · d)

/-- What a call of a script comes to. -/
inductive Answer where
  /-- It is not made, as there is no result that it could refer to. -/
  | skipped
  | failed (f : Failure)
  | done
  | entered (session : SessionId)
  | opened (guard : Guard) (value : Value)
  | returned (value : Value)
  | made (t : Ty) (a : t.Val)
  | output (out : Output)

namespace Answer

def ofCall {α : Type} (f : α → Answer) : Except Failure α → Answer
  | .ok a => f a
  | .error e => .failed e

def ofCheck {α : Type} (f : α → Answer) : Except BuildError α → Answer
  | .ok a => f a
  | .error e => .failed (.refused e)

def ofFold (t : Ty) : Except Overflow t.Val → Answer
  | .ok a => .made t a
  | .error o => .failed (.overflow o)

def ofValue : Value → (t : Ty) → Option t.Val
  | .var v, .var => some v
  | .vars vs, .list .var => some vs
  | .buffer b, .buffer => some b
  | .type u, .type => some u
  | _, _ => none

/-- The result that a later call can refer to. -/
def get? : Answer → (t : Ty) → Option t.Val
  | .opened _ v, t | .returned v, t => ofValue v t
  | .made u a, t => if h : u = t then some (h ▸ a) else none
  | .output (.func f), .func => some f
  | .output (.stmt s), .stmt => some s
  | _, _ => none

def session? : Answer → Option SessionId
  | .entered id => some id
  | _ => none

def guard? : Answer → Option Guard
  | .opened g _ => some g
  | _ => none

def output? : Answer → Option Output
  | .output out => some out
  | _ => none

end Answer

/-- An argument, or what makes one from the arguments that it still takes. -/
inductive Term : List Ty → Kind → Type
  | given (v : Var) : Term [] (.value .var)
  /-- The result of the `n`th call. -/
  | result (n : Nat) (t : Ty) : Term [] (.value t)
  | item (t : Ty) (l : Term [] (.value (.list t))) (n : Nat) : Term [] (.value t)
  | data {ts : List Ty} {k : Kind} (p : Data ts k) : Term ts k
  | node {ts : List Ty} {k : Kind} (p : Node ts k) : Term ts k
  | opening {ts : List Ty} (p : Opens ts) : Term ts .opening
  | call {ts : List Ty} (p : Calls ts) : Term ts .call
  | app {t : Ty} {ts : List Ty} {k : Kind} (f : Term (t :: ts) k) (a : Term [] (.value t)) :
      Term ts k

namespace Term

/-- What the term stands for after some calls, if these gave back what it refers to. -/
def eval (as : List Answer) : {ts : List Ty} → {k : Kind} → Term ts k → Option (Fn ts k)
  | _, _, given v => some v
  | _, _, result n t => as[n]?.bind (·.get? t)
  | _, _, item _ l n => (l.eval as).bind fun l : List _ => l[n]?
  | _, _, data p => some p.fn
  | _, _, node p => some p.fn
  | _, _, opening p => some p.fn
  | _, _, call p => some p.fn
  | _, _, app f a => (f.eval as).bind fun f => (a.eval as).map f

/-- The identities given in the term. -/
def ids : {ts : List Ty} → {k : Kind} → Term ts k → List VarId
  | _, _, given v => [v.id]
  | _, _, item _ l _ => l.ids
  | _, _, app f a => f.ids ++ a.ids
  | _, _, _ => []

end Term

/-- A call of a script. A scope to be closed, a session to be ended and an output to be taken are
those of an earlier call. -/
inductive Step where
  | enter (t : ThreadId) (c : Config)
  | current (t : ThreadId) (op : String)
  | openScope (t : ThreadId) (o : Term [] .opening)
  | call (t : ThreadId) (c : Term [] .call)
  | close (n : Nat)
  | drop (n : Nat)
  | finish (n : Nat)
  | leave (n : Nat)
  | asFunc (n : Nat)
  | asStmt (n : Nat)
  | make (t : Ty) (a : Term [] (.value t))
  | fold (t : Ty) (a : Term [] (.folded t))
  | mint (t : Ty) (a : Term [] (.minted t))
  | declare (d : DataType) (shape : Term [] (.value (.list .expr))) (o : Term [] (.value .options))

namespace Step

def ids : Step → List VarId
  | .openScope _ o => o.ids
  | .call _ c => c.ids
  | .make _ a | .fold _ a | .mint _ a => a.ids
  | .declare _ shape o => shape.ids ++ o.ids
  | _ => []

/-- Makes a call if there is all that it refers to. -/
def attempt {α : Type} (w : World) (x : Option α) (f : α → Answer × World) : Answer × World :=
  match x with
  | some a => f a
  | none => (.skipped, w)

/-- What the call comes to after `as`, and the world that it leaves. -/
def act (as : List Answer) (w : World) : Step → Answer × World
  | .enter t c => (w.enter t c).map (.ofCheck .entered) id
  | .current t op => (.ofCheck (fun _ => .done) (w.current t op), w)
  | .openScope t o => attempt w (o.eval as) fun o =>
      (w.openScope t o).map (.ofCall fun r => .opened r.1 r.2) id
  | .call t c => attempt w (c.eval as) fun c => (w.call t c).map (.ofCall .returned) id
  | .close n => attempt w (as[n]?.bind Answer.guard?) fun g =>
      (w.close g).map (.ofCheck fun _ => .done) id
  | .drop n => attempt w (as[n]?.bind Answer.guard?) fun g => (.done, w.drop g)
  | .finish n => attempt w (as[n]?.bind Answer.session?) fun i =>
      (w.finish i).map (.ofCheck .output) id
  | .leave n => attempt w (as[n]?.bind Answer.session?) fun i => (.done, w.leave i)
  | .asFunc n => attempt w (as[n]?.bind Answer.output?) fun out =>
      (.ofCheck (.made .func) out.asFunc, w)
  | .asStmt n => attempt w (as[n]?.bind Answer.output?) fun out =>
      (.ofCheck (.made .stmt) out.asStmt, w)
  | .make t a => attempt w (a.eval as) fun a => (.made t a, w)
  | .fold t a => attempt w (a.eval as) fun r => (.ofFold t r, w)
  | .mint t a => attempt w (a.eval as) fun f => (w.mint f).map (.made t) id
  | .declare d shape o => attempt w (shape.eval as) fun es => attempt w (o.eval as) fun o =>
      (w.declare es d o).map (.ofCheck (.made .buffer)) id

end Step

/-- A run of a script so far: the world, and what the calls have come to. -/
structure Run where
  world : World
  answers : List Answer

def Run.step (x : Run) (s : Step) : Run :=
  ⟨(s.act x.answers x.world).2, x.answers ++ [(s.act x.answers x.world).1]⟩

def run (script : List Step) (w : World) : Run := script.foldl Run.step ⟨w, []⟩

/-- The identities given in a script. -/
def ids (script : List Step) : List VarId := script.flatMap Step.ids

end Script

end TensorProgram
