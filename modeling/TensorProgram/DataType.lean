/-!
The types of values: machine data types with a vector width, and the static
types of results and pointers built from them.
-/

namespace TensorProgram

inductive TypeCode where
  | int
  | uint
  | float
  | handle
  deriving DecidableEq, Repr

namespace TypeCode

def text : TypeCode → String
  | .int => "int"
  | .uint => "uint"
  | .float => "float"
  | .handle => "handle"

def all : List TypeCode := [.int, .uint, .float, .handle]

end TypeCode

/-- An element type and the number of lanes of a vector of such elements. -/
structure DataType where
  code : TypeCode
  bits : UInt8
  lanes : UInt16
  deriving DecidableEq, Repr

namespace DataType

def int (bits : UInt8) : DataType := ⟨.int, bits, 1⟩
def uint (bits : UInt8) : DataType := ⟨.uint, bits, 1⟩
def float (bits : UInt8) : DataType := ⟨.float, bits, 1⟩

/-- A truth value is an unsigned integer of one bit. -/
def bool : DataType := ⟨.uint, 1, 1⟩

def handle : DataType := ⟨.handle, 64, 1⟩

/-- The handle of no bits and no lanes. -/
def void : DataType := ⟨.handle, 0, 0⟩

def withLanes (d : DataType) (lanes : UInt16) : DataType := { d with lanes }

def isInt (d : DataType) : Bool := d.code = .int
def isBool (d : DataType) : Bool := d.code = .uint && d.bits = 1
def isHandle (d : DataType) : Bool := d.code = .handle && d.bits ≠ 0
def isVoid (d : DataType) : Bool := d.code = .handle && d.bits = 0

/-- The name of the element type. -/
def elementText (d : DataType) : String :=
  if d.isBool then "bool"
  else if d.code = .handle then d.code.text
  else d.code.text ++ toString d.bits.toNat

/-- The element type, and the lanes when there are several. `void` has no lanes. -/
def text (d : DataType) : String :=
  if d.isVoid then "void"
  else if 1 < d.lanes.toNat then d.elementText ++ "x" ++ toString d.lanes.toNat
  else d.elementText

end DataType

/-- A static type. The empty tuple is the type of no result. -/
inductive ValueType where
  | prim (dtype : DataType)
  /-- A pointer to elements that live in the named storage scope. -/
  | pointer (elem : DataType) (scope : String)
  | tuple (elems : List ValueType)

namespace ValueType

def void : ValueType := .tuple []

/-- The storage scope that a pointer points into. -/
def storageScope : ValueType → Option String
  | .pointer _ scope => some scope
  | _ => none

mutual

def text : ValueType → String
  | .prim dtype => dtype.text
  | .pointer elem scope => "ptr<" ++ elem.text ++ ", \"" ++ scope ++ "\">"
  | .tuple elems => "(" ++ ", ".intercalate (texts elems) ++ ")"
termination_by structural t => t

def texts : List ValueType → List String
  | [] => []
  | t :: ts => t.text :: texts ts
termination_by structural ts => ts

end

mutual

/-- Equality of static types. -/
def same : ValueType → ValueType → Bool
  | .prim a, .prim b => a = b
  | .pointer a s, .pointer b t => a = b && s = t
  | .tuple as, .tuple bs => sameList as bs
  | _, _ => false
termination_by structural t => t

def sameList : List ValueType → List ValueType → Bool
  | [], [] => true
  | a :: as, b :: bs => a.same b && sameList as bs
  | _, _ => false
termination_by structural ts => ts

end

mutual

theorem same_iff : ∀ a b : ValueType, a.same b = true ↔ a = b
  | .prim a, b => by cases b <;> simp [same]
  | .pointer a s, b => by cases b <;> simp [same]
  | .tuple as, b => by
      cases b with
      | tuple bs => simp [same, sameList_iff as bs]
      | prim _ | pointer _ _ => simp [same]

theorem sameList_iff : ∀ as bs : List ValueType, sameList as bs = true ↔ as = bs
  | [], bs => by cases bs <;> simp [sameList]
  | a :: as, bs => by
      cases bs with
      | nil => simp [sameList]
      | cons b bs => simp [sameList, same_iff a b, sameList_iff as bs]

end

instance : DecidableEq ValueType := fun a b =>
  if h : a.same b = true then .isTrue ((same_iff a b).1 h)
  else .isFalse fun e => h ((same_iff a b).2 e)

end ValueType

end TensorProgram
