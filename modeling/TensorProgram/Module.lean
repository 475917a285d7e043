import TensorProgram.Error
import TensorProgram.PrimFunc

/-!
Program units: tensor functions under unique names, and the graph functions that
call them. The tensor functions stand in a list, in which a function is found by its
number; an index keeps the number of every name. A module is changed in place.
-/

namespace TensorProgram

/-- A call in a graph function. -/
inductive GraphCall where
  /-- Of a tensor function of the same module. -/
  | kernel (callee : String)
  | external (symbol : String)
  | operator (name : String)
  deriving DecidableEq, Repr

/-- Calls one after the other. -/
structure GraphFunc where
  name : String
  calls : List GraphCall
  deriving DecidableEq, Repr

abbrev FunctionId := Nat

/-- The tensor functions of a module. -/
structure PrimTable where
  /-- In the order in which they came in, which is the order of their numbers. -/
  values : List PrimFunc := []
  /-- The number of each function under its name. -/
  index : OrderedMap String FunctionId := ∅

structure Module where
  name : String
  prims : PrimTable := {}
  graphs : List GraphFunc := []

namespace Module

def empty (name : String) : Module := { name }

def nameTaken (m : Module) (name : String) : Bool :=
  m.prims.index.contains name || m.graphs.any (·.name = name)

/-- A change to a module, in progress. A refusal ends it and undoes nothing. -/
abbrev Update := ExceptT ModuleError (StateM Module)

/-- What comes of a change that goes through. -/
def Update.outcome {α : Type} (x : Update α) (m : Module) : Except ModuleError (α × Module) :=
  match x m with
  | (.ok a, m') => .ok (a, m')
  | (.error e, _) => .error e

/-- Registers `f` under `name`, which it carries from then on. The result is its number. -/
def registerPrim (name : String) (f : PrimFunc) : Update FunctionId := do
  if (← get).nameTaken name then throw (.duplicateFunction name)
  else
    let id := (← get).prims.values.length
    modify fun m => { m with prims.index := m.prims.index.insert name id }
    modify fun m => { m with prims.values := m.prims.values ++ [f.withName name] }
    return id

/-- Registers `f` under its own name. -/
def registerNamed (f : PrimFunc) : Update FunctionId :=
  match f.name with
  | some name => registerPrim name f
  | none => throw .unnamedFunction

def registerGraph (g : GraphFunc) : Update Unit := do
  if (← get).nameTaken g.name then throw (.duplicateFunction g.name)
  else modify fun m => { m with graphs := m.graphs ++ [g] }

def addPrim (m : Module) (name : String) (f : PrimFunc) :
    Except ModuleError (FunctionId × Module) :=
  (registerPrim name f).outcome m

def addNamed (m : Module) (f : PrimFunc) : Except ModuleError (FunctionId × Module) :=
  (registerNamed f).outcome m

def addGraph (m : Module) (g : GraphFunc) : Except ModuleError Module :=
  return (← (registerGraph g).outcome m).2

def prim? (m : Module) (id : FunctionId) : Option PrimFunc := m.prims.values[id]?

/-- The name leads to a number, and the number to a function. -/
def primByName? (m : Module) (name : String) : Option PrimFunc := do
  let id ← m.prims.index.get? name
  m.prim? id

/-- The calls of tensor functions in order, each as its caller and its callee. -/
def kernelCalls (m : Module) : List (String × String) :=
  m.graphs.flatMap fun g => g.calls.filterMap fun
    | .kernel callee => some (g.name, callee)
    | _ => none

end Module

end TensorProgram
