import TensorProgram.Builder.Scope

/-!
The builder of one session: the stack of open scopes, what the session has
produced, and the first mistake made in it. A change to the builder is carried out
in place, step by step; where it is refused on the way, the builder is left as it is
at that moment.
-/

namespace TensorProgram

/-- What a session produces. -/
inductive Output where
  | func (f : PrimFunc)
  | stmt (s : Stmt)

namespace Output

def name : Output → String
  | .func _ => "function"
  | .stmt _ => "statement"

def asFunc : Output → Except BuildError PrimFunc
  | .func f => return f
  | .stmt s => throw (.unexpectedResult "function" (stmt s).name)

def asStmt : Output → Except BuildError Stmt
  | .stmt s => return s
  | .func f => throw (.unexpectedResult "statement" (func f).name)

end Output

structure Builder where
  config : Config
  /-- The open scopes, innermost first. -/
  frames : List Frame := []
  nextId : Nat := 0
  result : Option Output := none
  firstError : Option BuildError := none

namespace Builder

def depth (b : Builder) : Nat := b.frames.length

/-- The kinds of the open scopes, outermost first. -/
def openKinds (b : Builder) : List ScopeKind := (b.frames.map Frame.kind).reverse

def topKind? (b : Builder) : Option ScopeKind := b.frames.head?.map Frame.kind

/-- Remembers a mistake, unless there was one before. -/
def record (b : Builder) (e : BuildError) : Builder :=
  { b with firstError := b.firstError.or (some e) }

def push (b : Builder) (s : Scope) : Builder :=
  { b with frames := ⟨b.nextId, s, []⟩ :: b.frames, nextId := b.nextId + 1 }

/-- Why a call that belongs directly into an `expected` scope is refused: such a scope is
open further out, or there is none. -/
def misplaced (b : Builder) (op : String) (expected : ScopeKind) : BuildError :=
  match b.topKind? with
  | some top =>
      if b.frames.any (·.kind = expected) then .scopeMismatch op expected top
      else .noEnclosingScope op expected
  | none => .noEnclosingScope op expected

/-- The innermost scope as seen by `view`. -/
def top? {α : Type} (view : Scope → Option α) (b : Builder) : Option α :=
  b.frames.head?.bind fun f => view f.scope

/-- Replaces the innermost scope. -/
def setTop (b : Builder) (s : Scope) : Builder :=
  match b.frames with
  | [] => b
  | f :: fs => { b with frames := { f with scope := s } :: fs }

/-- The block that `op` must be called directly in. -/
def topBlock (b : Builder) (op : String) : Except BuildError BlockScope :=
  match b.top? Scope.block? with
  | some x => return x
  | none => throw (b.misplaced op .block)

/-- The function that `op` must be called directly in. -/
def topFunc (b : Builder) (op : String) : Except BuildError FuncScope :=
  match b.top? Scope.func? with
  | some x => return x
  | none => throw (b.misplaced op .primFunc)

/-- The conditional that `op` must be called directly in. -/
def topBranch (b : Builder) (op : String) : Except BuildError BranchScope :=
  match b.top? Scope.branch? with
  | some x => return x
  | none => throw (b.misplaced op .branch)

/-- The innermost function scope. -/
def nearestFunc? (b : Builder) : Option FuncScope := b.frames.findSome? (·.scope.func?)

/-- Changes the innermost function scope. -/
def updateFunc (g : FuncScope → FuncScope) : List Frame → List Frame
  | [] => []
  | f :: fs =>
      match f.scope with
      | .func x => { f with scope := .func (g x) } :: fs
      | _ => f :: updateFunc g fs

/-- Registers the thread `v` with the innermost function scope, without a domain yet. -/
def registerThread (b : Builder) (v : Var) (tag : String) : Builder :=
  let register (f : FuncScope) := { f with threads := f.threads.insert v (.thread none v tag) }
  { b with frames := updateFunc register b.frames }

/-- The storage scope that the innermost attribute sets, or the default. -/
def storageScope (b : Builder) : String :=
  (b.frames.findSome? fun f => f.scope.heads.findSome? Head.storageScope?).getD
    b.config.storageScope

/-- A storage scope as given, or the one in force when it is left empty. -/
def storageScopeOr (b : Builder) (given : String) : String :=
  if given = "" then b.storageScope else given

def declares (b : Builder) (x : Buffer) : Bool :=
  b.frames.any fun f => f.scope.buffers.any fun y => y.sameAs x

/-- The domain of the innermost open loop over `v`. -/
def loopDomain? (b : Builder) (v : Var) : Option Range :=
  b.frames.findSome? fun f => f.scope.heads.findSome? (Head.domain? v)

end Builder

/-- A change to a builder, in progress. A refusal ends it, and what has been written by then
stays written. -/
abbrev Change := ExceptT BuildError (StateM Builder)

namespace Change

variable {α : Type}

/-- What can be told from the builder as it stands. -/
def look (f : Builder → Except BuildError α) : Change α := fun b => (f b, b)

def write (f : Builder → Builder) : Change Unit := fun b => (.ok (), f b)

/-- Takes the result out of the builder. -/
def takeResult : Change (Option Output) := fun b => (.ok b.result, { b with result := none })

def setResult (r : Output) : Change Unit := write fun b => { b with result := some r }

/-- Delivers a statement to the innermost scope or, when none is open, to the result,
which no statement can follow once it is a function. -/
def append (s : Stmt) : Change Unit := do
  match (← get).frames with
  | f :: fs => write fun b => { b with frames := { f with stmts := f.stmts ++ [s] } :: fs }
  | [] =>
      match ← takeResult with
      | none => setResult (.stmt s)
      | some (.stmt r) => setResult (.stmt (.sequence [r, s]))
      | some (.func f) =>
          setResult (.func f)
          throw .statementAfterFunction

def appendAll : List Stmt → Change Unit
  | [] => return
  | s :: ss => do
      append s
      appendAll ss

/-- Delivers the product of a scope that has been removed. -/
def deliver : Product → Change Unit
  | .stmts ss => appendAll ss
  | .func f => do
      match (← get).topKind? with
      | some top => throw (.nestedFunction top)
      | none =>
          if (← get).result.isSome then throw .functionAfterResult
          else setResult (.func f)
  | .blockInit s => do
      let x ← look (·.topBlock "init")
      write (·.setTop (.block { x with init := some s }))
  | .thenCase s => do
      let i ← look (·.topBranch "then_")
      write (·.setTop (.branch { i with thenCase := some s }))
  | .elseCase s => do
      let i ← look (·.topBranch "else_")
      write (·.setTop (.branch { i with elseCase := some s }))

/-- Closes the scope `id`, which was opened as a `kind`. Only the innermost scope can be
closed; it is removed before what it makes is put together and delivered. -/
def close (id : Nat) (kind : ScopeKind) : Change Unit := do
  match (← get).frames with
  | f :: fs =>
      if f.id = id then
        write fun b => { b with frames := fs }
        let product ← look fun b => f.close b.config
        deliver product
      else if fs.any (·.id = id) then throw (.outOfOrderClose kind f.kind)
      else throw (.frameNotOpen kind)
  | [] => throw (.frameNotOpen kind)

end Change

namespace Builder

/-- Closes a scope, and remembers why if that is refused. -/
def close (b : Builder) (id : Nat) (kind : ScopeKind) : Except BuildError Unit × Builder :=
  match Change.close id kind b with
  | (.ok (), b') => (.ok (), b')
  | (.error e, b') => (.error e, b'.record e)

/-- The end of the session: its first mistake, or else its result if every scope is
closed. -/
def finish (b : Builder) : Except BuildError Output × Builder :=
  match b.firstError with
  | some e => (.error e, { b with firstError := none })
  | none =>
      if b.frames.isEmpty then
        match b.result with
        | some r => (.ok r, { b with result := none })
        | none => (.error .missingResult, b)
      else (.error (.unclosedScope b.openKinds), b)

end Builder

end TensorProgram
