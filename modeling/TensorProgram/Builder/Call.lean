import TensorProgram.Builder.Opening

/-!
The calls made in an open scope. A call sets or extends a field of the innermost
scope, registers a thread with the function around, or delivers a statement; like
every change to the builder it does so in place.
-/

namespace TensorProgram

/-- The roles that a call can give to an axis of a block. -/
inductive AxisKind where
  | spatial
  | reduce
  | scan
  | opaqueIndex
  deriving DecidableEq, Repr

namespace AxisKind

def iterKind : AxisKind → IterKind
  | .spatial => .spatial
  | .reduce => .reduce
  | .scan => .scan
  | .opaqueIndex => .opaqueIndex

def op : AxisKind → String
  | .spatial => "axis::spatial"
  | .reduce => "axis::reduce"
  | .scan => "axis::scan"
  | .opaqueIndex => "axis::opaque"

/-- `S` is for spatial and `R` for reduce. -/
def ofChar? (c : Char) : Option AxisKind :=
  if c = 'S' then some .spatial else if c = 'R' then some .reduce else none

end AxisKind

/-- What a buffer is matched against. -/
inductive MatchTarget where
  | param (v : Var)
  | region (r : Region)

/-- A call in an open scope. -/
inductive Call where
  | guard (predicate : Expr)
  | reads (regions : List Region)
  | writes (regions : List Region)
  | blockAttrs (attrs : Annotations)
  | allocBuffer (shape : List Expr) (dtype : DataType) (options : BufferOptions)
  | matchBuffer (target : MatchTarget) (shape : List Expr) (dtype : DataType)
      (options : BufferOptions)
  | preflattenedBuffer (of : Buffer) (shape : List Expr) (dtype : DataType)
      (options : BufferOptions)
  | argVar (name : String) (v : Var)
  | argBuffer (name : String) (buffer : Buffer)
  | funcName (name : String)
  | funcAttrs (attrs : Annotations)
  | funcRet (type : ValueType)
  | envThread (tag : String)
  | store (buffer : Buffer) (value : Expr) (indices : List Expr)
  | prefetch (buffer : Buffer) (bounds : List Range)
  | evaluate (value : Expr)
  | axis (kind : AxisKind) (dom : Range) (binding : Expr) (dtype : Option DataType)
  /-- One axis for each character, over the loop whose variable it is bound to. -/
  | remap (kinds : String) (bindings : List Expr) (dtype : Option DataType)

/-- An operation on a builder, in progress: a change that can also draw on the supply of
variables. As for a change, a failure undoes nothing. -/
abbrev Edit := ExceptT Failure (StateM (Builder × Supply))

namespace Edit

variable {α : Type}

/-- Something that is found out or made without a change to the builder. An attempt looks before
it draws on the supply, so that one that fails has used up nothing. -/
def attempt (x : Builder → Attempt α) : Edit α := fun (b, s) =>
  match x b s with
  | .ok (a, s') => (.ok a, b, s')
  | .error e => (.error e, b, s)

def change (x : Change α) : Edit α := fun (b, s) =>
  match x b with
  | (.ok a, b') => (.ok a, b', s)
  | (.error e, b') => (.error (.refused e), b', s)

def look (f : Builder → Except BuildError α) : Edit α := change (.look f)

def write (f : Builder → Builder) : Edit Unit := change (.write f)

def refuse (e : BuildError) : Edit α := throw (.refused e)

def fresh (name : String) (dtype : DataType) : Edit Var := attempt fun _ => .fresh name dtype

end Edit

namespace Call

def op : Call → String
  | .guard _ => "where_"
  | .reads _ => "reads"
  | .writes _ => "writes"
  | .blockAttrs _ => "block_attrs"
  | .allocBuffer _ _ _ => "alloc_buffer"
  | .matchBuffer _ _ _ _ => "match_buffer"
  | .preflattenedBuffer _ _ _ _ => "preflattened_buffer"
  | .argVar _ _ | .argBuffer _ _ => "arg"
  | .funcName _ => "func_name"
  | .funcAttrs _ => "func_attrs"
  | .funcRet _ => "func_ret"
  | .envThread _ => "env_thread"
  | .store _ _ _ => "buffer_store"
  | .prefetch _ _ => "prefetch"
  | .evaluate _ => "evaluate"
  | .axis kind _ _ _ => kind.op
  | .remap _ _ _ => "axis::remap"

/-- Sets a field of the innermost block that can be set once. -/
def setBlock {α : Type} (op field : String) (old : BlockScope → Option α)
    (set : BlockScope → BlockScope) : Edit Unit := do
  let x ← .look (·.topBlock op)
  if (old x).isSome then .refuse (.duplicateSetting .block field)
  else .write (·.setTop (.block (set x)))

/-- Sets a field of the innermost function that can be set once, named like the call. -/
def setFunc {α : Type} (op : String) (old : FuncScope → Option α)
    (set : FuncScope → FuncScope) : Edit Unit := do
  let f ← .look (·.topFunc op)
  if (old f).isSome then .refuse (.duplicateSetting .primFunc op)
  else .write (·.setTop (.func (set f)))

/-- As many indices or ranges as dimensions. -/
def checkRank (op what : String) (given : Nat) (buffer : Buffer) : Except BuildError Unit :=
  if given = buffer.rank then return
  else throw (.accessRank op what given buffer.name buffer.rank)

/-- Gives `buffer` to the block or function that it is allocated in. -/
def own (buffer : Buffer) : Edit Unit := do
  let b := (← get).1
  match b.top? Scope.block?, b.top? Scope.func? with
  | some x, _ => .write (·.setTop (.block { x with allocs := x.allocs ++ [buffer] }))
  | none, some f => .write (·.setTop (.func { f with allocs := f.allocs ++ [buffer] }))
  | none, none => .refuse (b.misplaced "alloc_buffer" .block)

def matchTo (buffer : Buffer) : MatchTarget → Edit Unit
  | .param v => do
      let f ← .look (·.topFunc "match_buffer")
      if f.bufferMap.contains v then .refuse (.parameterMatched v.text)
      else .write (·.setTop (.func { f with bufferMap := f.bufferMap.insert v buffer }))
  | .region source => do
      let x ← .look (·.topBlock "match_buffer")
      .write (·.setTop (.block { x with matched := x.matched ++ [⟨buffer, source⟩] }))

/-- Records `buffer` as the view before flattening of `of`, which lies behind a parameter. -/
def preflatten (of buffer : Buffer) : Edit Unit := do
  let f ← .look (·.topFunc "preflattened_buffer")
  match f.bufferMap.entries.find? fun e => e.2.sameAs of with
  | none => .refuse (.bufferUnmatched of.name)
  | some (v, _) =>
      if f.preflattened.contains v then
        .refuse (.duplicateSetting .primFunc "preflattened_buffer")
      else .write (·.setTop (.func { f with preflattened := f.preflattened.insert v buffer }))

/-- Adds axes to the innermost block, one by one. -/
def addAxes (op : String) : List (IterVar × Expr) → Edit Unit
  | [] => return
  | a :: as => do
      let x ← .look (·.topBlock op)
      .write (·.setTop (.block { x with axes := x.axes ++ [a] }))
      addAxes op as

/-- An axis over the loop that `binding` is the variable of. An explicit type retypes the
domain and the binding too. -/
def remapAxis (b : Builder) (dtype : Option DataType) (c : Char) (binding : Expr) :
    Attempt (IterVar × Expr) := do
  match AxisKind.ofChar? c with
  | none => .refuse (.unknownAxis c)
  | some kind =>
      match binding.asVar? with
      | none => .refuse .bindingNotVar
      | some v =>
          match b.loopDomain? v with
          | none => .refuse (.bindingNotLoop v.text)
          | some dom =>
              let dtype := dtype.getD v.dtype
              let axis ← .fresh ("v" ++ v.text) dtype
              return (.axis ⟨dom.min.asIndex dtype, dom.extent.asIndex dtype⟩ axis kind.iterKind,
                binding.castTo dtype)

/-- An axis for each letter with its binding, one after the other. Those made before one is
refused are lost. -/
def makeAxes (dtype : Option DataType) : List (Char × Expr) → Edit (List (IterVar × Expr))
  | [] => return []
  | (c, e) :: r => do
      let a ← .attempt fun b => remapAxis b dtype c e
      return a :: (← makeAxes dtype r)

/-- Carries out the call. The result is the value that it gives back. -/
def run : Call → Edit Value
  | .guard predicate => do
      setBlock "where_" "where" (·.predicate) fun x => { x with predicate := some predicate }
      return .unit
  | .reads regions => do
      setBlock "reads" "reads" (·.reads) fun x => { x with reads := some regions }
      return .unit
  | .writes regions => do
      setBlock "writes" "writes" (·.writes) fun x => { x with writes := some regions }
      return .unit
  | .blockAttrs attrs => do
      setBlock "block_attrs" "block_attrs" (·.annotations) fun x =>
        { x with annotations := some attrs }
      return .unit
  | .allocBuffer shape dtype options => do
      let buffer ← .attempt fun b =>
        .declare shape dtype (options.alignmentOr b.config.alignment)
      own buffer
      return .buffer buffer
  | .matchBuffer target shape dtype options => do
      let buffer ← .attempt fun b =>
        .declare shape dtype (options.alignmentOr b.config.alignment)
      matchTo buffer target
      return .buffer buffer
  | .preflattenedBuffer of shape dtype options => do
      let buffer ← .attempt fun _ =>
        .declare shape dtype { options with data := options.data.or (some of.data) }
      preflatten of buffer
      return .buffer buffer
  | .argVar name v => do
      let v := v.renamed name
      let f ← .look (·.topFunc "arg")
      .write (·.setTop (.func { f with params := f.params ++ [v] }))
      return .var v
  | .argBuffer name buffer => do
      let v ← .fresh name .handle
      let buffer := { buffer with name }
      let f ← .look (·.topFunc "arg")
      .write (·.setTop (.func { f with params := f.params ++ [v] }))
      .write (·.setTop (.func { f with
        params := f.params ++ [v], bufferMap := f.bufferMap.insert v buffer }))
      return .buffer buffer
  | .funcName name => do
      setFunc "func_name" (·.name) fun f => { f with name := some name }
      return .unit
  | .funcAttrs attrs => do
      setFunc "func_attrs" (·.attrs) fun f => { f with attrs := some attrs }
      return .unit
  | .funcRet type => do
      setFunc "func_ret" (·.retType) fun f => { f with retType := some type }
      return .type type
  | .envThread tag => do
      let b := (← get).1
      if b.nearestFunc?.isNone then .refuse (.noEnclosingScope "env_thread" .primFunc)
      else
        let v ← .fresh tag b.config.indexType
        .write (·.registerThread v tag)
        return .var v
  | .store buffer value indices => do
      .look fun _ => checkRank "buffer_store" "indices" indices.length buffer
      .change (.append (.store buffer (value.castTo buffer.dtype) indices))
      return .unit
  | .prefetch buffer bounds => do
      .look fun _ => checkRank "prefetch" "bounds" bounds.length buffer
      .change (.append (.prefetch buffer bounds))
      return .unit
  | .evaluate value => do
      .change (.append (.evaluate value))
      return .unit
  | .axis kind dom binding dtype => do
      let _ ← .look (·.topBlock kind.op)
      let v ← .fresh "v" (dtype.getD binding.dtype)
      addAxes kind.op [(.axis dom v kind.iterKind, binding)]
      return .var v
  | .remap kinds bindings dtype => do
      if kinds.length ≠ bindings.length then
        .refuse (.bindingCount kinds.length bindings.length)
      else
        let _ ← .look (·.topBlock "axis::remap")
        let axes ← makeAxes dtype (kinds.toList.zip bindings)
        addAxes "axis::remap" axes
        return .vars (axes.map fun a => a.1.var)

/-- The supply after a call for which there is no session. The handle of an argument is made
before a session is looked for. -/
def unserved (s : Supply) : Call → Supply
  | .argBuffer _ _ => s.take.2
  | _ => s

end Call

namespace Builder

variable {α : Type}

/-- Carries out an operation; a refusal is remembered. -/
def edit (b : Builder) (s : Supply) (x : Edit α) : Except Failure α × Builder × Supply :=
  match x (b, s) with
  | (.error (.refused e), b', s') => (.error (.refused e), b'.record e, s')
  | r => r

/-- Opens a scope. The result is its number and kind, and the value that goes with it. -/
def openScope (b : Builder) (s : Supply) (o : Opening) :
    Except Failure (Nat × ScopeKind × Value) × Builder × Supply :=
  b.edit s do
    let (scope, value) ← .attempt fun b => o.scope b
    let id := (← get).1.nextId
    .write (·.push scope)
    return (id, scope.kind, value)

def call (b : Builder) (s : Supply) (c : Call) : Except Failure Value × Builder × Supply :=
  b.edit s c.run

end Builder

end TensorProgram
