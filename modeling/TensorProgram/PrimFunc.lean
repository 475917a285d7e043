import TensorProgram.Stmt

/-!
Tensor functions.
-/

namespace TensorProgram

/-- A function over scalars and buffers. Its maps say which handle parameter each
buffer lies behind, before and after flattening. -/
structure PrimFunc where
  name : Option String
  params : List Var
  body : Stmt
  retType : ValueType
  bufferMap : OrderedMap Var Buffer
  preflattened : OrderedMap Var Buffer
  attrs : Annotations

namespace PrimFunc

/-- The buffers behind the parameters, in the order of the parameters. -/
def paramBuffers (f : PrimFunc) : List Buffer := f.params.filterMap f.bufferMap.get?

/-- The first parameter called `name`. -/
def paramByName? (f : PrimFunc) (name : String) : Option Var := f.params.find? (·.name = name)

def withName (f : PrimFunc) (name : String) : PrimFunc := { f with name := some name }

end PrimFunc

end TensorProgram
