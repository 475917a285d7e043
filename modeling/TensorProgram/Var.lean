import TensorProgram.DataType
import TensorProgram.OrderedMap

/-!
Variables. A variable is its identity: renaming it, or giving it another type
hint, leaves it the variable that it was, and two variables of one name are
still two. New identities come from a supply.
-/

namespace TensorProgram

abbrev VarId := Nat

/-- Where new identities come from: an endless stream, and how much of it has been
handed out. -/
structure Supply where
  stream : Nat → VarId
  used : Nat

namespace Supply

/-- Hands out 0, 1, 2, …. -/
def counting : Supply := ⟨id, 0⟩

/-- The next identity, and the supply without it. -/
def take (s : Supply) : VarId × Supply := (s.stream s.used, { s with used := s.used + 1 })

end Supply

/-- A scalar or handle. -/
structure Var where
  id : VarId
  name : String
  dtype : DataType
  /-- For a handle, what it points at. -/
  typeHint : Option ValueType

namespace Var

instance : Keyed Var VarId := ⟨Var.id⟩

/-- One variable, under whatever names. -/
def same (v w : Var) : Bool := v.id = w.id

def fresh (name : String) (dtype : DataType) (s : Supply) : Var × Supply :=
  (⟨s.take.1, name, dtype, none⟩, s.take.2)

/-- A handle that points at `elem` data in `scope`. -/
def freshPointer (name : String) (elem : DataType) (scope : String) (s : Supply) :
    Var × Supply :=
  (⟨s.take.1, name, .handle, some (.pointer elem scope)⟩, s.take.2)

def renamed (v : Var) (name : String) : Var := { v with name }

def storageScope (v : Var) : Option String := v.typeHint.bind ValueType.storageScope

/-- The name, or the identity of a variable without one. -/
def text (v : Var) : String := if v.name = "" then "v" ++ toString v.id else v.name

end Var

end TensorProgram
