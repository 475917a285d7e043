import TensorProgram.Region

/-!
Statements. Most statements govern one body and are an `under` with a head that
says how; `children` is the tree view. `Stmt.sequence` is the way to put
statements one after the other: it never nests a sequence in a sequence.
-/

namespace TensorProgram

inductive LoopKind where
  | serial
  | parallel
  | vectorized
  | unrolled
  | threadBinding
  deriving DecidableEq, Repr

namespace LoopKind

def text : LoopKind → String
  | .serial => "serial"
  | .parallel => "parallel"
  | .vectorized => "vectorized"
  | .unrolled => "unroll"
  | .threadBinding => "thread_binding"

def all : List LoopKind := [.serial, .parallel, .vectorized, .unrolled, .threadBinding]

end LoopKind

/-- A `for` loop without its body. A loop over a hardware thread names the thread. -/
structure Loop where
  var : Var
  min : Expr
  extent : Expr
  kind : LoopKind
  thread : Option IterVar
  annotations : Annotations

/-- A unit of computation, without its statements: what it iterates over, what it
reads and writes, and the buffers that it owns. -/
structure Block where
  name : String
  iterVars : List IterVar
  reads : List Region
  writes : List Region
  allocs : List Buffer
  matched : List MatchRegion
  annotations : Annotations

/-- The values that a block's iteration variables take, and when it runs. -/
structure Realization where
  values : List Expr
  predicate : Expr

/-- What an attribute is about. -/
inductive AttrNode where
  | var (v : Var)
  | iterVar (v : IterVar)
  | buffer (b : Buffer)
  | str (s : String)

/-- A statement that governs one body, without that body. -/
inductive Head where
  | loop (loop : Loop)
  | whileLoop (condition : Expr)
  | bind (var : Var) (value : Expr)
  | allocate (buffer : Var) (dtype : DataType) (extents : List Expr) (condition : Expr)
      (annotations : Annotations)
  | allocateConst (buffer : Var) (dtype : DataType) (extents : List Expr) (data : ConstantData)
      (annotations : Annotations)
  | attr (node : AttrNode) (key : String) (value : Expr)
  | assert (condition message : Expr)
  | realize (region : Region) (condition : Expr)

/-- A statement with no statement inside. -/
inductive Leaf where
  | store (buffer : Buffer) (value : Expr) (indices : List Expr)
  | prefetch (buffer : Buffer) (bounds : List Range)
  | evaluate (value : Expr)

inductive Stmt where
  | seq (stmts : List Stmt)
  /-- A block, bound to values of its iteration variables or bare. -/
  | block (realization : Option Realization) (block : Block) (init : Option Stmt) (body : Stmt)
  | branch (condition : Expr) (thenCase : Stmt) (elseCase : Option Stmt)
  | under (head : Head) (body : Stmt)
  | leaf (leaf : Leaf)

def Head.name : Head → String
  | .loop _ => "for"
  | .whileLoop _ => "while"
  | .bind _ _ => "let"
  | .allocate _ _ _ _ _ => "allocate"
  | .allocateConst _ _ _ _ _ => "allocate_const"
  | .attr _ _ _ => "attr"
  | .assert _ _ => "assert"
  | .realize _ _ => "buffer_realize"

def Leaf.name : Leaf → String
  | .store _ _ _ => "buffer_store"
  | .prefetch _ _ => "prefetch"
  | .evaluate _ => "evaluate"

namespace Stmt

/-- The name of the kind of statement. -/
def name : Stmt → String
  | .seq _ => "seq"
  | .block none _ _ _ => "block"
  | .block (some _) _ _ _ => "block_realize"
  | .branch _ _ _ => "if_then_else"
  | .under h _ => h.name
  | .leaf l => l.name

def store (buffer : Buffer) (value : Expr) (indices : List Expr) : Stmt :=
  .leaf (.store buffer value indices)

def prefetch (buffer : Buffer) (bounds : List Range) : Stmt := .leaf (.prefetch buffer bounds)

def evaluate (value : Expr) : Stmt := .leaf (.evaluate value)

/-- The statement that does nothing: it evaluates zero. -/
def noOp : Stmt := evaluate (.int32 0)

instance : Inhabited Stmt := ⟨noOp⟩

/-- It evaluates a literal zero, of whatever type. -/
def isNoOp : Stmt → Bool
  | .leaf (.evaluate (.int value _)) => value = 0
  | _ => false

/-- The direct parts, in order: a block's init comes before its body. -/
def children : Stmt → List Stmt
  | .seq stmts => stmts
  | .block _ _ init body => init.toList ++ [body]
  | .branch _ thenCase elseCase => thenCase :: elseCase.toList
  | .under _ body => [body]
  | .leaf _ => []

/-- The members of a sequence; any other statement alone. -/
def members : Stmt → List Stmt
  | .seq stmts => stmts
  | s => [s]

/-- One statement that runs `stmts` in order. The members of a sequence among them
become members of the result. -/
def sequence (stmts : List Stmt) : Stmt :=
  match stmts.flatMap members with
  | [] => noOp
  | [s] => s
  | s :: t :: r => .seq (s :: t :: r)

end Stmt

end TensorProgram
