import TensorProgram.Expr

/-!
Parts of buffers, and the literal contents of constant ones.
-/

namespace TensorProgram

/-- A box of elements of a buffer. -/
structure Region where
  buffer : Buffer
  ranges : List Range

namespace Buffer

def rank (b : Buffer) : Nat := b.shape.length

/-- Where the elements live. -/
def scope (b : Buffer) : String := b.data.storageScope.getD "global"

/-- One declaration: the same memory under the same name. -/
def sameAs (b c : Buffer) : Bool := b.data.same c.data && b.name = c.name

/-- The whole buffer. -/
def full (b : Buffer) : Region := ⟨b, b.shape.map .upTo⟩

/-- The element at `indices`. -/
def point (b : Buffer) (indices : List Expr) : Region := ⟨b, indices.map .point⟩

end Buffer

/-- A buffer of a block that stands for a region of another. -/
structure MatchRegion where
  buffer : Buffer
  source : Region

inductive ConstantData where
  | ints (values : List Int64)
  | floats (values : List Binary64)
  deriving DecidableEq

def ConstantData.length : ConstantData → Nat
  | .ints values => values.length
  | .floats values => values.length

/-- Integers fill integer types, floats fill float types. -/
def ConstantData.fits (data : ConstantData) (dtype : DataType) : Bool :=
  match data with
  | .ints _ => dtype.code = .int || dtype.code = .uint
  | .floats _ => dtype.code = .float

end TensorProgram
