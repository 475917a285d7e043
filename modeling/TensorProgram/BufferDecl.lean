import TensorProgram.Error
import TensorProgram.Region

/-!
Declaring buffers. The optional parts of a declaration are checked in the order
kind, strides, separators; what is left open gets its default, and memory that is
not given gets a fresh pointer.
-/

namespace TensorProgram

/-- The optional parts of a buffer declaration. -/
structure BufferOptions where
  name : String := "buffer"
  data : Option Var := none
  strides : List Expr := []
  elemOffset : Option Expr := none
  scope : String := "global"
  /-- None when it is not positive. -/
  alignment : Int64 := -1
  /-- None when it is zero. -/
  offsetFactor : Int64 := 0
  kind : String := "default"
  separators : List Int64 := []

namespace BufferOptions

/-- Strictly increasing from above `low`, and below `rank`. -/
def separatorsOk (rank : Nat) : Int → List Int64 → Bool
  | _, [] => true
  | low, s :: r => low < s.toInt && s.toInt < rank && separatorsOk rank s.toInt r

/-- The kind of buffer, if the options make sense for a buffer of this rank. -/
def check (o : BufferOptions) (rank : Nat) : Except BuildError BufferKind :=
  match BufferKind.ofText? o.kind with
  | none => throw (.unknownBufferKind o.kind)
  | some kind =>
      if o.strides ≠ [] ∧ o.strides.length ≠ rank then throw (.strideCount o.strides.length rank)
      else if separatorsOk rank 0 o.separators then return kind
      else throw (.separatorOrder o.separators rank)

def alignmentOr (o : BufferOptions) (default : Int64) : BufferOptions :=
  if o.alignment.toInt ≤ 0 then { o with alignment := default } else o

/-- The pointer to the memory. -/
def pointer (o : BufferOptions) (dtype : DataType) (s : Supply) : Var × Supply :=
  match o.data with
  | some v => (v, s)
  | none => Var.freshPointer o.name dtype o.scope s

/-- The offset of the first element: a fresh variable when only its factor is known. -/
def offset (o : BufferOptions) (s : Supply) : Expr × Supply :=
  match o.elemOffset with
  | some e => (e, s)
  | none =>
      if o.offsetFactor = 0 then (.int32 0, s)
      else
        let (v, s) := Var.fresh (o.name ++ "_elem_offset") (.int 32) s
        (.var v, s)

end BufferOptions

namespace Buffer

def defaultAlignment : Int64 := 64

def declare (shape : List Expr) (dtype : DataType) (o : BufferOptions) (s : Supply) :
    Except BuildError (Buffer × Supply) := do
  let kind ← o.check shape.length
  let (data, s) := o.pointer dtype s
  let (elemOffset, s) := o.offset s
  return (
    { data, dtype, shape, elemOffset, kind
      strides := o.strides
      name := o.name
      alignment := (o.alignmentOr defaultAlignment).alignment
      offsetFactor := if o.offsetFactor = 0 then 1 else o.offsetFactor
      separators := o.separators }, s)

end Buffer

namespace Expr

/-- A fresh handle to `elem` data in `scope`. -/
def freshPointer (elem : DataType) (scope : String) (s : Supply) : Expr × Supply :=
  let (v, s) := Var.freshPointer "ptr" elem scope s
  (.var v, s)

/-- The value as a `dtype`, or a nameless variable of that type to stand for it. -/
def castOrFresh (dtype : DataType) (value : Option Expr) (s : Supply) : Expr × Supply :=
  match value with
  | some e => (e.castTo dtype, s)
  | none =>
      let (v, s) := Var.fresh "" dtype s
      (.var v, s)

end Expr

/-- The data types with a name of their own. -/
def DataType.named : List (String × DataType) :=
  [("int8", .int 8), ("int16", .int 16), ("int32", .int 32), ("int64", .int 64),
    ("uint8", .uint 8), ("uint16", .uint 16), ("uint32", .uint 32), ("uint64", .uint 64),
    ("float8", .float 8), ("float16", .float 16), ("float32", .float 32), ("float64", .float 64),
    ("int32x4", (DataType.int 32).withLanes 4), ("int32x8", (DataType.int 32).withLanes 8),
    ("int32x16", (DataType.int 32).withLanes 16), ("boolean", .bool), ("handle", .handle),
    ("void", .void)]

end TensorProgram
