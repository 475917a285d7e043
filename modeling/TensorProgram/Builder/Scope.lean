import TensorProgram.Error
import TensorProgram.PrimFunc

/-!
Open scopes. A scope holds the statements already delivered into it and what its
opening and the calls made directly in it have said; closing it makes one product.
Most kinds of scope wrap their statements in heads fixed at the opening, outermost
first, so that a nest of loops and a single `while` close by one rule.
-/

namespace TensorProgram

/-- The options of a session. -/
structure Config where
  /-- Where memory lives when neither the call nor an attribute around it says. -/
  storageScope : String := "global"
  /-- The type of a loop variable between literal bounds. -/
  indexType : DataType := .int 32
  /-- The name of the block that owns the allocations of a function. -/
  rootName : String := "root"
  /-- The alignment of buffers declared in the session without one. -/
  alignment : Int64 := 64
  deriving DecidableEq

/-- A function in the making. -/
structure FuncScope where
  name : Option String := none
  params : List Var := []
  retType : Option ValueType := none
  bufferMap : OrderedMap Var Buffer := ∅
  preflattened : OrderedMap Var Buffer := ∅
  attrs : Option Annotations := none
  threads : OrderedMap Var IterVar := ∅
  allocs : List Buffer := []

/-- A block in the making. A bare one is to stand without values of its axes. -/
structure BlockScope where
  name : String
  bare : Bool
  /-- The iteration variables and their values, in pairs: every call that adds an axis adds one of
  each, at the end, and the block that is made of the scope lists them apart. -/
  axes : List (IterVar × Expr) := []
  reads : Option (List Region) := none
  writes : Option (List Region) := none
  predicate : Option Expr := none
  annotations : Option Annotations := none
  allocs : List Buffer := []
  matched : List MatchRegion := []
  init : Option Stmt := none

/-- A conditional in the making. -/
structure BranchScope where
  condition : Expr
  thenCase : Option Stmt := none
  elseCase : Option Stmt := none

/-- The kinds of scope that wrap their body in heads. -/
inductive WrapKind where
  | loops
  | whileLoop
  | bind
  | allocate
  | allocateConst
  | attr
  | assert
  | launchThread
  | realize
  deriving DecidableEq, Repr

def WrapKind.scopeKind : WrapKind → ScopeKind
  | .loops => .loops
  | .whileLoop => .whileLoop
  | .bind => .bind
  | .allocate => .allocate
  | .allocateConst => .allocateConst
  | .attr => .attr
  | .assert => .assert
  | .launchThread => .launchThread
  | .realize => .realize

/-- Heads for the statements of a scope, outermost first, and the buffer it allocates. -/
structure Wrapper where
  kind : WrapKind
  heads : List Head
  buffer : Option Buffer := none

inductive Scope where
  | func (f : FuncScope)
  | block (b : BlockScope)
  | blockInit
  | branch (i : BranchScope)
  | thenCase
  | elseCase
  | wrap (w : Wrapper)

namespace Scope

def kind : Scope → ScopeKind
  | .func _ => .primFunc
  | .block _ => .block
  | .blockInit => .blockInit
  | .branch _ => .branch
  | .thenCase => .thenCase
  | .elseCase => .elseCase
  | .wrap w => w.kind.scopeKind

def func? : Scope → Option FuncScope
  | .func f => some f
  | _ => none

def block? : Scope → Option BlockScope
  | .block b => some b
  | _ => none

def branch? : Scope → Option BranchScope
  | .branch i => some i
  | _ => none

/-- The buffers that the scope declares for everything inside it. -/
def buffers : Scope → List Buffer
  | .func f => f.bufferMap.values ++ f.preflattened.values ++ f.allocs
  | .block b => b.allocs ++ b.matched.map MatchRegion.buffer
  | .wrap w => w.buffer.toList
  | _ => []

/-- The heads around everything inside the scope. -/
def heads : Scope → List Head
  | .wrap w => w.heads
  | _ => []

end Scope

namespace Head

/-- The domain of `v`, if the head is the loop over it. -/
def domain? (v : Var) : Head → Option Range
  | .loop l => if l.var.same v then some ⟨l.min, l.extent⟩ else none
  | _ => none

/-- The storage scope that an attribute sets. -/
def storageScope? : Head → Option String
  | .attr _ key (.str scope) => if key = "storage_scope" then some scope else none
  | _ => none

/-- The statement made of heads around `body`. -/
def wrap (heads : List Head) (body : Stmt) : Stmt := heads.foldr .under body

end Head

/-- What a closed scope hands to the scope around it. -/
inductive Product where
  /-- Statements of its body, to be delivered one by one. -/
  | stmts (ss : List Stmt)
  | func (f : PrimFunc)
  | blockInit (s : Stmt)
  | thenCase (s : Stmt)
  | elseCase (s : Stmt)

namespace FuncScope

/-- The first parameter that occurs a second time. -/
def repeated? : List VarId → List Var → Option Var
  | _, [] => none
  | seen, v :: vs => if v.id ∈ seen then some v else repeated? (v.id :: seen) vs

/-- Parameters are distinct, and buffers lie behind parameters. -/
def check (f : FuncScope) : Except BuildError Unit :=
  match repeated? [] f.params with
  | some v => throw (.repeatedParameter v.text)
  | none =>
      match (f.bufferMap.keys ++ f.preflattened.keys).find? fun k => !f.params.any k.same with
      | some k => throw (.unknownParameter k.text)
      | none => return

/-- The block around the body of a function that owns `allocs`. -/
def rootBlock (name : String) (allocs : List Buffer) (body : Stmt) : Stmt :=
  .block (some ⟨[], .bool true⟩) ⟨name, [], [], [], allocs, [], ∅⟩ none body

def close (c : Config) (f : FuncScope) (stmts : List Stmt) : Except BuildError PrimFunc := do
  f.check
  let body := Stmt.sequence stmts
  return {
    name := f.name
    params := f.params
    body := if f.allocs.isEmpty then body else rootBlock c.rootName f.allocs body
    retType := f.retType.getD .void
    bufferMap := f.bufferMap
    preflattened := f.preflattened
    attrs := f.attrs.getD ∅ }

end FuncScope

namespace BlockScope

def head (b : BlockScope) : Block where
  name := b.name
  iterVars := b.axes.map Prod.fst
  reads := b.reads.getD []
  writes := b.writes.getD []
  allocs := b.allocs
  matched := b.matched
  annotations := b.annotations.getD ∅

/-- A bare block has no values to bind and no predicate. -/
def realization (b : BlockScope) : Except BuildError (Option Realization) :=
  if b.bare then
    if b.axes.isEmpty then
      if b.predicate.isNone then return none else throw (.bareBlockPredicate b.name)
    else throw (.bareBlockBinds b.name)
  else return some ⟨b.axes.map Prod.snd, b.predicate.getD (.bool true)⟩

def close (b : BlockScope) (stmts : List Stmt) : Except BuildError Stmt :=
  return .block (← b.realization) b.head b.init (.sequence stmts)

end BlockScope

/-- A conditional holds its branches and nothing else. -/
def BranchScope.close (i : BranchScope) (stmts : List Stmt) : Except BuildError Stmt :=
  if stmts.isEmpty then
    match i.thenCase with
    | some s => return .branch i.condition s i.elseCase
    | none => throw .ifWithoutThen
  else throw .statementInIf

/-- Without heads the statements go to the scope around as they are. -/
def Wrapper.close (w : Wrapper) (stmts : List Stmt) : List Stmt :=
  if w.heads.isEmpty then stmts else [Head.wrap w.heads (.sequence stmts)]

/-- An open scope with its place in the order of openings and the statements
delivered so far. -/
structure Frame where
  id : Nat
  scope : Scope
  stmts : List Stmt := []

namespace Frame

def kind (f : Frame) : ScopeKind := f.scope.kind

def close (c : Config) (f : Frame) : Except BuildError Product :=
  match f.scope with
  | .func g => return .func (← g.close c f.stmts)
  | .block b => return .stmts [← b.close f.stmts]
  | .blockInit => return .blockInit (.sequence f.stmts)
  | .branch i => return .stmts [← i.close f.stmts]
  | .thenCase => return .thenCase (.sequence f.stmts)
  | .elseCase => return .elseCase (.sequence f.stmts)
  | .wrap w => return .stmts (w.close f.stmts)

end Frame

end TensorProgram
