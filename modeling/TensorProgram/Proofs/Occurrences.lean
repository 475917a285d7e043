import TensorProgram.Fingerprint

/-!
Occurrences. Everything that a function says is compared as a whole but for two things: a variable,
of which the identity counts, and a float, of which the number counts that it denotes. Both are
listed here place by place, and so are the maps of a function with the order of their keys.
-/

namespace TensorProgram

/-- A variable or a float, at one place of a program. -/
inductive Atom where
  | var (v : Var)
  | float (x : Binary64)

namespace Atom

def var? : Atom → Option Var
  | .var v => some v
  | .float _ => none

def float? : Atom → Option Binary64
  | .var _ => none
  | .float x => some x

end Atom

mutual

def Expr.atoms : Expr → List Atom
  | .int _ _ | .str _ => []
  | .float x _ => [.float x]
  | .var v => [.var v]
  | .binary _ a b => a.atoms ++ b.atoms
  | .not a | .cast _ a => a.atoms
  | .load b is => b.atoms ++ Expr.atomsList is
  | .call _ as _ => Expr.atomsList as
termination_by structural e => e

def Expr.atomsList : List Expr → List Atom
  | [] => []
  | e :: es => e.atoms ++ Expr.atomsList es
termination_by structural es => es

def Buffer.atoms : Buffer → List Atom
  | ⟨data, _, shape, strides, offset, _, _, _, _, _⟩ =>
      .var data :: (Expr.atomsList shape ++ Expr.atomsList strides ++ offset.atoms)
termination_by structural b => b

end

def Range.atoms (r : Range) : List Atom := r.min.atoms ++ r.extent.atoms

def IterVar.atoms (v : IterVar) : List Atom := v.dom.toList.flatMap Range.atoms ++ [.var v.var]

mutual

def AttrValue.atoms : AttrValue → List Atom
  | .int _ | .bool _ | .str _ => []
  | .float x => [.float x]
  | .expr e => e.atoms
  | .array as => AttrValue.atomsList as
termination_by structural a => a

def AttrValue.atomsList : List AttrValue → List Atom
  | [] => []
  | a :: as => a.atoms ++ AttrValue.atomsList as
termination_by structural as => as

end

def Annotations.atoms (m : Annotations) : List Atom := m.entries.flatMap (·.2.atoms)

def Region.atoms (r : Region) : List Atom := r.buffer.atoms ++ r.ranges.flatMap Range.atoms

def MatchRegion.atoms (m : MatchRegion) : List Atom := m.buffer.atoms ++ m.source.atoms

def ConstantData.atoms : ConstantData → List Atom
  | .ints _ => []
  | .floats xs => xs.map .float

def Block.atoms (b : Block) : List Atom :=
  b.iterVars.flatMap IterVar.atoms ++ b.reads.flatMap Region.atoms ++
    b.writes.flatMap Region.atoms ++ b.allocs.flatMap Buffer.atoms ++
    b.matched.flatMap MatchRegion.atoms ++ Annotations.atoms b.annotations

def Realization.atoms (r : Realization) : List Atom :=
  r.values.flatMap Expr.atoms ++ r.predicate.atoms

def AttrNode.atoms : AttrNode → List Atom
  | .var v => [.var v]
  | .iterVar v => v.atoms
  | .buffer b => b.atoms
  | .str _ => []

def Head.atoms : Head → List Atom
  | .loop l => .var l.var :: (l.min.atoms ++ l.extent.atoms ++
      l.thread.toList.flatMap IterVar.atoms ++ Annotations.atoms l.annotations)
  | .whileLoop c => c.atoms
  | .bind v e => .var v :: e.atoms
  | .allocate v _ es c m =>
      .var v :: (es.flatMap Expr.atoms ++ c.atoms ++ Annotations.atoms m)
  | .allocateConst v _ es data m =>
      .var v :: (es.flatMap Expr.atoms ++ data.atoms ++ Annotations.atoms m)
  | .attr node _ e => node.atoms ++ e.atoms
  | .assert c m => c.atoms ++ m.atoms
  | .realize r c => r.atoms ++ c.atoms

def Leaf.atoms : Leaf → List Atom
  | .store b e is => b.atoms ++ e.atoms ++ is.flatMap Expr.atoms
  | .prefetch b rs => b.atoms ++ rs.flatMap Range.atoms
  | .evaluate e => e.atoms

mutual

def Stmt.atoms : Stmt → List Atom
  | .seq ss => Stmt.atomsList ss
  | .block r b init body => r.toList.flatMap Realization.atoms ++ b.atoms ++
      Stmt.atomsOption init ++ body.atoms
  | .branch c s e => c.atoms ++ s.atoms ++ Stmt.atomsOption e
  | .under h s => h.atoms ++ s.atoms
  | .leaf l => l.atoms
termination_by structural s => s

def Stmt.atomsList : List Stmt → List Atom
  | [] => []
  | s :: ss => s.atoms ++ Stmt.atomsList ss
termination_by structural ss => ss

def Stmt.atomsOption : Option Stmt → List Atom
  | none => []
  | some s => s.atoms
termination_by structural s => s

end

/-! The maps of a program, with the order of their keys. -/

/-- The keys of the map of a head. A head without a map counts as one with an empty map. -/
def Head.order : Head → List String
  | .loop l => l.annotations.keys
  | .allocate _ _ _ _ m | .allocateConst _ _ _ _ m => m.keys
  | .whileLoop _ | .bind _ _ | .attr _ _ _ | .assert _ _ | .realize _ _ => []

mutual

/-- The keys of every map of a statement, map by map from the outside in. -/
def Stmt.orders : Stmt → List (List String)
  | .seq ss => Stmt.ordersList ss
  | .block _ b init body => b.annotations.keys :: (Stmt.ordersOption init ++ body.orders)
  | .branch _ s e => s.orders ++ Stmt.ordersOption e
  | .under h s => h.order :: s.orders
  | .leaf _ => []
termination_by structural s => s

def Stmt.ordersList : List Stmt → List (List String)
  | [] => []
  | s :: ss => s.orders ++ Stmt.ordersList ss
termination_by structural ss => ss

def Stmt.ordersOption : Option Stmt → List (List String)
  | none => []
  | some s => s.orders
termination_by structural s => s

end

namespace PrimFunc

def atoms (f : PrimFunc) : List Atom :=
  f.params.map .var ++ f.bufferMap.entries.flatMap (fun e => .var e.1 :: e.2.atoms) ++
    f.preflattened.entries.flatMap (fun e => .var e.1 :: e.2.atoms) ++ Annotations.atoms f.attrs ++
    f.body.atoms

/-- The variables of a function, place by place. -/
def occurrences (f : PrimFunc) : List Var := f.atoms.filterMap Atom.var?

/-- The floats of a function, place by place. -/
def floats (f : PrimFunc) : List Binary64 := f.atoms.filterMap Atom.float?

/-- The maps of the two functions list their keys in the same order, each as the one that stands
at the same place of the other function. -/
structure SameOrders (f g : PrimFunc) : Prop where
  bufferMap : f.bufferMap.keys.map Var.id = g.bufferMap.keys.map Var.id
  preflattened : f.preflattened.keys.map Var.id = g.preflattened.keys.map Var.id
  attrs : f.attrs.keys = g.attrs.keys
  body : f.body.orders = g.body.orders

end PrimFunc

end TensorProgram
