import TensorProgram.Builder.Basic

/-!
Equality of programs as values: variables are equal when they are the same
variable, floats when they denote equal numbers, and ordered maps when they hold
equal values under the same keys, in any order. It is no equivalence relation, as
a NaN is not equal to itself.
-/

namespace TensorProgram

/-- Equality of lists, element by element. -/
def eqList {α : Type} (same : α → α → Bool) : List α → List α → Bool
  | [], [] => true
  | a :: as, b :: bs => same a b && eqList same as bs
  | _, _ => false

def eqOption {α : Type} (same : α → α → Bool) : Option α → Option α → Bool
  | none, none => true
  | some a, some b => same a b
  | _, _ => false

mutual

def Expr.valueEq : Expr → Expr → Bool
  | .int v d, .int w e => v = w && d = e
  | .float v d, .float w e => v.ieeeEq w && d = e
  | .str s, .str t => s = t
  | .var v, .var w => v.same w
  | .binary o a b, .binary p c d => o = p && a.valueEq c && b.valueEq d
  | .not a, .not b => a.valueEq b
  | .cast d a, .cast e b => d = e && a.valueEq b
  | .load b is, .load c js => b.valueEq c && Expr.valueEqList is js
  | .call o as d, .call p bs e => o = p && Expr.valueEqList as bs && d = e
  | _, _ => false
termination_by structural e => e

def Expr.valueEqList : List Expr → List Expr → Bool
  | [], [] => true
  | a :: as, b :: bs => a.valueEq b && Expr.valueEqList as bs
  | _, _ => false
termination_by structural es => es

def Buffer.valueEq : Buffer → Buffer → Bool
  | ⟨data, dtype, shape, strides, offset, name, alignment, factor, kind, separators⟩, c =>
      data.same c.data && dtype = c.dtype && Expr.valueEqList shape c.shape &&
        Expr.valueEqList strides c.strides && offset.valueEq c.elemOffset && name = c.name &&
        alignment = c.alignment && factor = c.offsetFactor && kind = c.kind &&
        separators = c.separators
termination_by structural b => b

end

theorem Expr.valueEqList_eq : ∀ as bs : List Expr,
    Expr.valueEqList as bs = eqList Expr.valueEq as bs
  | [], bs => by cases bs <;> rfl
  | a :: as, bs => by
      cases bs with
      | nil => rfl
      | cons b bs => simp [Expr.valueEqList, eqList, valueEqList_eq as bs]

def Range.valueEq (a b : Range) : Bool := a.min.valueEq b.min && a.extent.valueEq b.extent

def IterVar.valueEq (a b : IterVar) : Bool :=
  eqOption Range.valueEq a.dom b.dom && a.var.same b.var && a.kind = b.kind && a.tag = b.tag

mutual

def AttrValue.valueEq : AttrValue → AttrValue → Bool
  | .int v, .int w => v = w
  | .float v, .float w => v.ieeeEq w
  | .bool v, .bool w => v = w
  | .str s, .str t => s = t
  | .expr a, .expr b => a.valueEq b
  | .array as, .array bs => AttrValue.valueEqList as bs
  | _, _ => false
termination_by structural a => a

def AttrValue.valueEqList : List AttrValue → List AttrValue → Bool
  | [], [] => true
  | a :: as, b :: bs => a.valueEq b && AttrValue.valueEqList as bs
  | _, _ => false
termination_by structural as => as

end

def Annotations.valueEq (a b : Annotations) : Bool := a.equivBy AttrValue.valueEq b

def Region.valueEq (a b : Region) : Bool :=
  a.buffer.valueEq b.buffer && eqList Range.valueEq a.ranges b.ranges

def MatchRegion.valueEq (a b : MatchRegion) : Bool :=
  a.buffer.valueEq b.buffer && a.source.valueEq b.source

def ConstantData.valueEq : ConstantData → ConstantData → Bool
  | .ints vs, .ints ws => vs = ws
  | .floats vs, .floats ws => eqList Binary64.ieeeEq vs ws
  | _, _ => false

def Loop.valueEq (a b : Loop) : Bool :=
  a.var.same b.var && a.min.valueEq b.min && a.extent.valueEq b.extent && a.kind = b.kind &&
    eqOption IterVar.valueEq a.thread b.thread && Annotations.valueEq a.annotations b.annotations

def Block.valueEq (a b : Block) : Bool :=
  a.name = b.name && eqList IterVar.valueEq a.iterVars b.iterVars &&
    eqList Region.valueEq a.reads b.reads && eqList Region.valueEq a.writes b.writes &&
    eqList Buffer.valueEq a.allocs b.allocs && eqList MatchRegion.valueEq a.matched b.matched &&
    Annotations.valueEq a.annotations b.annotations

def Realization.valueEq (a b : Realization) : Bool :=
  eqList Expr.valueEq a.values b.values && a.predicate.valueEq b.predicate

def AttrNode.valueEq : AttrNode → AttrNode → Bool
  | .var v, .var w => v.same w
  | .iterVar v, .iterVar w => v.valueEq w
  | .buffer b, .buffer c => b.valueEq c
  | .str s, .str t => s = t
  | _, _ => false

def Head.valueEq : Head → Head → Bool
  | .loop a, .loop b => a.valueEq b
  | .whileLoop a, .whileLoop b => a.valueEq b
  | .bind v a, .bind w b => v.same w && a.valueEq b
  | .allocate v d es a m, .allocate w e fs b n =>
      v.same w && d = e && eqList Expr.valueEq es fs && a.valueEq b && Annotations.valueEq m n
  | .allocateConst v d es a m, .allocateConst w e fs b n =>
      v.same w && d = e && eqList Expr.valueEq es fs && a.valueEq b && Annotations.valueEq m n
  | .attr a k v, .attr b l w => a.valueEq b && k = l && v.valueEq w
  | .assert a m, .assert b n => a.valueEq b && m.valueEq n
  | .realize r a, .realize s b => r.valueEq s && a.valueEq b
  | _, _ => false

def Leaf.valueEq : Leaf → Leaf → Bool
  | .store b v is, .store c w js => b.valueEq c && v.valueEq w && eqList Expr.valueEq is js
  | .prefetch b rs, .prefetch c ss => b.valueEq c && eqList Range.valueEq rs ss
  | .evaluate v, .evaluate w => v.valueEq w
  | _, _ => false

mutual

def Stmt.valueEq : Stmt → Stmt → Bool
  | .seq ss, .seq ts => Stmt.valueEqList ss ts
  | .block r a i s, .block q b j t =>
      eqOption Realization.valueEq r q && a.valueEq b && Stmt.valueEqOption i j && s.valueEq t
  | .branch a s e, .branch b t f => a.valueEq b && s.valueEq t && Stmt.valueEqOption e f
  | .under h s, .under k t => h.valueEq k && s.valueEq t
  | .leaf l, .leaf m => l.valueEq m
  | _, _ => false
termination_by structural s => s

def Stmt.valueEqList : List Stmt → List Stmt → Bool
  | [], [] => true
  | s :: ss, t :: ts => s.valueEq t && Stmt.valueEqList ss ts
  | _, _ => false
termination_by structural ss => ss

def Stmt.valueEqOption : Option Stmt → Option Stmt → Bool
  | none, none => true
  | some s, some t => s.valueEq t
  | _, _ => false
termination_by structural s => s

end

def PrimFunc.valueEq (f g : PrimFunc) : Bool :=
  f.name = g.name && eqList Var.same f.params g.params && f.body.valueEq g.body &&
    f.retType = g.retType && f.bufferMap.equivBy Buffer.valueEq g.bufferMap &&
    f.preflattened.equivBy Buffer.valueEq g.preflattened && Annotations.valueEq f.attrs g.attrs

def Output.valueEq : Output → Output → Bool
  | .func f, .func g => f.valueEq g
  | .stmt s, .stmt t => s.valueEq t
  | _, _ => false

end TensorProgram
