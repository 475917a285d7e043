import TensorProgram.Binary64
import TensorProgram.Var
import TensorProgram.Word

/-!
Scalar expressions and the buffers they read. An expression may load from a
buffer, and the shape of a buffer is made of expressions, so the two types are
defined together. The folding sum and difference compute with literals at once;
`subFolded_literals` and `addFolded_literals` say when they refuse.
-/

namespace TensorProgram

inductive BinOp where
  | add
  | sub
  | mul
  | floorDiv
  | floorMod
  | min
  | max
  | eq
  | ne
  | lt
  | le
  | gt
  | ge
  | and
  | or
  deriving DecidableEq, Repr

namespace BinOp

def text : BinOp → String
  | .add => "+"
  | .sub => "-"
  | .mul => "*"
  | .floorDiv => "//"
  | .floorMod => "%"
  | .min => "min"
  | .max => "max"
  | .eq => "=="
  | .ne => "!="
  | .lt => "<"
  | .le => "<="
  | .gt => ">"
  | .ge => ">="
  | .and => "&&"
  | .or => "||"

/-- Comparisons and connectives yield truth values. -/
def isPredicate : BinOp → Bool
  | .eq | .ne | .lt | .le | .gt | .ge | .and | .or => true
  | _ => false

def all : List BinOp :=
  [.add, .sub, .mul, .floorDiv, .floorMod, .min, .max, .eq, .ne, .lt, .le, .gt, .ge, .and, .or]

end BinOp

/-- How an access outside the shape of a buffer reads. -/
inductive BufferKind where
  | default
  /-- A dimension of extent one stands for every index. -/
  | autoBroadcast
  deriving DecidableEq, Repr

namespace BufferKind

def text : BufferKind → String
  | .default => "default"
  | .autoBroadcast => "auto_broadcast"

def ofText? (s : String) : Option BufferKind :=
  if s = "default" then some .default
  else if s = "auto_broadcast" then some .autoBroadcast
  else none

end BufferKind

mutual

/-- A scalar expression. -/
inductive Expr where
  | int (value : Int64) (dtype : DataType)
  | float (value : Binary64) (dtype : DataType)
  | str (value : String)
  | var (v : Var)
  | binary (op : BinOp) (lhs rhs : Expr)
  | not (value : Expr)
  | cast (dtype : DataType) (value : Expr)
  | load (buffer : Buffer) (indices : List Expr)
  /-- The intrinsic or external function named `op`. -/
  | call (op : String) (args : List Expr) (dtype : DataType)

/-- A view of the memory behind `data` as an array. No strides means rows laid out
one after the other; `separators` are the dimensions at which the flattened array
starts a new axis. -/
structure Buffer where
  data : Var
  dtype : DataType
  shape : List Expr
  strides : List Expr
  elemOffset : Expr
  name : String
  alignment : Int64
  offsetFactor : Int64
  kind : BufferKind
  separators : List Int64

end

namespace Expr

def int32 (value : Int64) : Expr := .int value (.int 32)
def int64 (value : Int64) : Expr := .int value (.int 64)
def float32 (value : Binary64) : Expr := .float value (.float 32)
def bool (value : Bool) : Expr := .int (if value then 1 else 0) .bool

instance : Inhabited Expr := ⟨int32 0⟩

/-- The data type of the value. -/
def dtype : Expr → DataType
  | .int _ dtype | .float _ dtype | .cast dtype _ | .call _ _ dtype => dtype
  | .str _ => .handle
  | .var v => v.dtype
  | .binary op lhs _ => if op.isPredicate then DataType.bool.withLanes lhs.dtype.lanes else lhs.dtype
  | .not value => value.dtype
  | .load buffer _ => buffer.dtype
termination_by structural e => e

/-- The expression as a value of type `dtype`; no cast where it has that type. -/
def castTo (dtype : DataType) (e : Expr) : Expr := if e.dtype = dtype then e else .cast dtype e

def asInt? : Expr → Option Int64
  | .int value _ => some value
  | _ => none

def asVar? : Expr → Option Var
  | .var v => some v
  | _ => none

def isLiteral (e : Expr) : Bool := e.asInt?.isSome

/-- As a loop bound of type `dtype`: a literal is retyped, anything else is cast. -/
def asIndex (dtype : DataType) : Expr → Expr
  | .int value _ => .int value dtype
  | e => e.castTo dtype

/-- `a - b`, computed when both are literals and dropped when `b` is zero. -/
def subFolded (a b : Expr) : Except Overflow Expr :=
  match a, b with
  | .int x dtype, .int y _ => return .int (← subExact x y) dtype
  | a, .int y dtype => return if y = 0 then a else .binary .sub a (.int y dtype)
  | a, b => return .binary .sub a b

/-- `a + b`, computed when both are literals and dropped when one of them is zero. -/
def addFolded (a b : Expr) : Except Overflow Expr :=
  match a, b with
  | .int x dtype, .int y _ => return .int (← addExact x y) dtype
  | .int x dtype, b => return if x = 0 then b else .binary .add (.int x dtype) b
  | a, .int y dtype => return if y = 0 then a else .binary .add a (.int y dtype)
  | a, b => return .binary .add a b

theorem subFolded_literals {x y : Int64} {d d' : DataType} {e : Expr} :
    subFolded (.int x d) (.int y d') = .ok e ↔ ∃ z, subExact x y = .ok z ∧ e = .int z d := by
  simp only [subFolded]
  cases subExact x y with
  | error o => simp [bind, Except.bind]
  | ok z => simp [bind, Except.bind, pure, Except.pure, eq_comm]

theorem addFolded_literals {x y : Int64} {d d' : DataType} {e : Expr} :
    addFolded (.int x d) (.int y d') = .ok e ↔ ∃ z, addExact x y = .ok z ∧ e = .int z d := by
  simp only [addFolded]
  cases addExact x y with
  | error o => simp [bind, Except.bind]
  | ok z => simp [bind, Except.bind, pure, Except.pure, eq_comm]

end Expr

/-- The half-open interval `[min, min + extent)`. -/
structure Range where
  min : Expr
  extent : Expr

namespace Range

/-- `[start, stop)`. -/
def ofBounds (start stop : Expr) : Except Overflow Range :=
  return ⟨start, ← stop.subFolded start⟩

/-- The interval that holds `index` alone. -/
def point (index : Expr) : Range := ⟨index, .int 1 index.dtype⟩

/-- `[0, extent)`. -/
def upTo (extent : Expr) : Range := ⟨.int 0 extent.dtype, extent⟩

end Range

/-- What an iteration variable does in its block. -/
inductive IterKind where
  | spatial
  | reduce
  | scan
  | opaqueIndex
  /-- The index of a hardware thread. -/
  | threadIndex
  deriving DecidableEq, Repr

namespace IterKind

def text : IterKind → String
  | .spatial => "spatial"
  | .reduce => "reduce"
  | .scan => "scan"
  | .opaqueIndex => "opaque"
  | .threadIndex => "thread_index"

def all : List IterKind := [.spatial, .reduce, .scan, .opaqueIndex, .threadIndex]

end IterKind

/-- A variable that ranges over `dom`. Only a thread whose extent is still to be
given at its launch has no domain. -/
structure IterVar where
  dom : Option Range
  var : Var
  kind : IterKind
  /-- The hardware name of a thread, such as `threadIdx.x`. -/
  tag : String

namespace IterVar

def axis (dom : Range) (var : Var) (kind : IterKind) : IterVar := ⟨some dom, var, kind, ""⟩

def thread (dom : Option Range) (var : Var) (tag : String) : IterVar := ⟨dom, var, .threadIndex, tag⟩

end IterVar

/-- A loosely typed value attached to a loop, block or function. -/
inductive AttrValue where
  | int (value : Int64)
  | float (value : Binary64)
  | bool (value : Bool)
  | str (value : String)
  | expr (value : Expr)
  | array (items : List AttrValue)

abbrev Annotations := OrderedMap String AttrValue

end TensorProgram
