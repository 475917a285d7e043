import TensorProgram.PrimFunc

/-!
Functions up to renaming. A function is written down as a list of tokens that
leaves out its name, the names of variables and the names of buffers; the
variables are then numbered in the order in which they first occur. Two functions
with one fingerprint differ in the names and identities of variables, the names
of buffers and their own names only. Everything else is significant: the names of
blocks, strings, the order of annotations, and floats by their bits.
-/

namespace TensorProgram

inductive Token where
  | tag (name : String)
  | length (n : Nat)
  | int (value : Int64)
  | float (value : Binary64)
  | str (value : String)
  | dtype (value : DataType)
  | var (id : VarId)
  deriving DecidableEq

mutual

def ValueType.tokens : ValueType → List Token
  | .prim d => [.tag "prim", .dtype d]
  | .pointer d scope => [.tag "ptr", .dtype d, .str scope]
  | .tuple ts => .tag "tuple" :: .length ts.length :: ValueType.tokensList ts
termination_by structural t => t

def ValueType.tokensList : List ValueType → List Token
  | [] => []
  | t :: ts => t.tokens ++ ValueType.tokensList ts
termination_by structural ts => ts

end

/-- A variable, with its type hint if it has one. -/
def Var.tokens (v : Var) : List Token :=
  .var v.id :: .dtype v.dtype :: (v.typeHint.map ValueType.tokens).getD []

mutual

def Expr.tokens : Expr → List Token
  | .int v d => [.tag "int", .int v, .dtype d]
  | .float v d => [.tag "float", .float v, .dtype d]
  | .str s => [.tag "str", .str s]
  | .var v => v.tokens
  | .binary op a b => .tag "bin" :: .str op.text :: (a.tokens ++ b.tokens)
  | .not a => .tag "not" :: a.tokens
  | .cast d a => .tag "cast" :: .dtype d :: a.tokens
  | .load b is => .tag "load" :: (b.tokens ++ .length is.length :: Expr.tokensList is)
  | .call op as d =>
      .tag "call" :: .str op :: .dtype d :: .length as.length :: Expr.tokensList as
termination_by structural e => e

/-- The elements of a list, without its length. -/
def Expr.tokensList : List Expr → List Token
  | [] => []
  | e :: es => e.tokens ++ Expr.tokensList es
termination_by structural es => es

def Buffer.tokens : Buffer → List Token
  | ⟨data, dtype, shape, strides, offset, _, alignment, factor, kind, separators⟩ =>
      .tag "buffer" :: (data.tokens ++ .dtype dtype ::
        .length shape.length :: (Expr.tokensList shape ++
        .length strides.length :: (Expr.tokensList strides ++ (offset.tokens ++
        .int alignment :: .int factor :: .str kind.text ::
        .length separators.length :: separators.map .int))))
termination_by structural b => b

end

/-- A list with its length before it. -/
def tokensOf {α : Type} (f : α → List Token) (l : List α) : List Token :=
  .length l.length :: l.flatMap f

def Range.tokens (r : Range) : List Token := r.min.tokens ++ r.extent.tokens

def IterVar.tokens (v : IterVar) : List Token :=
  .tag "iter_var" :: ((v.dom.map Range.tokens).getD [.tag "no_dom"] ++ v.var.tokens ++
    [.str v.kind.text, .str v.tag])

mutual

def AttrValue.tokens : AttrValue → List Token
  | .int v => [.tag "a_int", .int v]
  | .float v => [.tag "a_float", .float v]
  | .bool v => [.tag "a_bool", .int (if v then 1 else 0)]
  | .str s => [.tag "a_str", .str s]
  | .expr e => .tag "a_expr" :: e.tokens
  | .array as => .tag "a_array" :: .length as.length :: AttrValue.tokensList as
termination_by structural a => a

def AttrValue.tokensList : List AttrValue → List Token
  | [] => []
  | a :: as => a.tokens ++ AttrValue.tokensList as
termination_by structural as => as

end

def Annotations.tokens (m : Annotations) : List Token :=
  tokensOf (fun e => .str e.1 :: e.2.tokens) m.entries

def Region.tokens (r : Region) : List Token := r.buffer.tokens ++ tokensOf Range.tokens r.ranges

def MatchRegion.tokens (m : MatchRegion) : List Token := m.buffer.tokens ++ m.source.tokens

/-- The values alone: nothing says of which kind they are, so no integers and no floats
read alike. -/
def ConstantData.tokens : ConstantData → List Token
  | .ints vs => tokensOf (fun v => [.int v]) vs
  | .floats vs => tokensOf (fun v => [.float v]) vs

def Block.tokens (b : Block) : List Token :=
  .tag "block" :: .str b.name :: (tokensOf IterVar.tokens b.iterVars ++
    tokensOf Region.tokens b.reads ++ tokensOf Region.tokens b.writes ++
    tokensOf Buffer.tokens b.allocs ++ tokensOf MatchRegion.tokens b.matched ++
    Annotations.tokens b.annotations)

def Realization.tokens (r : Realization) : List Token :=
  tokensOf Expr.tokens r.values ++ r.predicate.tokens

def AttrNode.tokens : AttrNode → List Token
  | .var v => v.tokens
  | .iterVar v => v.tokens
  | .buffer b => b.tokens
  | .str s => [.str s]

/-- What a head says, after the name of its kind. -/
def Head.tokens : Head → List Token
  | .loop l => l.var.tokens ++ l.min.tokens ++ l.extent.tokens ++ .str l.kind.text ::
      ((l.thread.map IterVar.tokens).getD [.tag "unbound"] ++ Annotations.tokens l.annotations)
  | .whileLoop c => c.tokens
  | .bind v e => v.tokens ++ e.tokens
  | .allocate v d es c m => v.tokens ++ .dtype d :: (tokensOf Expr.tokens es ++ c.tokens ++
      Annotations.tokens m)
  | .allocateConst v d es data m => v.tokens ++ .dtype d :: (tokensOf Expr.tokens es ++
      data.tokens ++ Annotations.tokens m)
  | .attr node key e => node.tokens ++ .str key :: e.tokens
  | .assert c m => c.tokens ++ m.tokens
  | .realize r c => r.tokens ++ c.tokens

def Leaf.tokens : Leaf → List Token
  | .store b e is => b.tokens ++ e.tokens ++ tokensOf Expr.tokens is
  | .prefetch b rs => b.tokens ++ tokensOf Range.tokens rs
  | .evaluate e => e.tokens

mutual

def Stmt.tokens : Stmt → List Token
  | .seq ss => .tag "seq" :: .length ss.length :: Stmt.tokensList ss
  | .block none b init body =>
      .tag "block" :: (b.tokens ++ Stmt.tokensOr "no_init" init ++ body.tokens)
  | .block (some r) b init body =>
      .tag "block_realize" :: (r.tokens ++ b.tokens ++ Stmt.tokensOr "no_init" init ++ body.tokens)
  | .branch c s e => .tag "if_then_else" :: (c.tokens ++ s.tokens ++ Stmt.tokensOr "no_else" e)
  | .under h s => .tag h.name :: (h.tokens ++ s.tokens)
  | .leaf l => .tag l.name :: l.tokens
termination_by structural s => s

def Stmt.tokensList : List Stmt → List Token
  | [] => []
  | s :: ss => s.tokens ++ Stmt.tokensList ss
termination_by structural ss => ss

/-- An optional part, or the tag that says it is missing. -/
def Stmt.tokensOr (missing : String) : Option Stmt → List Token
  | none => [.tag missing]
  | some s => s.tokens
termination_by structural s => s

end

def PrimFunc.tokens (f : PrimFunc) : List Token :=
  .tag "prim_func" :: (tokensOf Var.tokens f.params ++
    tokensOf (fun e => e.1.tokens ++ e.2.tokens) f.bufferMap.entries ++
    tokensOf (fun e => e.1.tokens ++ e.2.tokens) f.preflattened.entries ++
    f.retType.tokens ++ Annotations.tokens f.attrs ++ f.body.tokens)

/-- The number of a variable: its position among those seen, which it joins if it is
new. -/
def number (seen : List VarId) (id : VarId) : Nat × List VarId :=
  if id ∈ seen then (seen.idxOf id, seen) else (seen.length, seen ++ [id])

/-- Replaces identities by numbers in order of first occurrence, after those in `seen`. -/
def renumber : List VarId → List Token → List Token
  | _, [] => []
  | seen, .var id :: ts => .var (number seen id).1 :: renumber (number seen id).2 ts
  | seen, t :: ts => t :: renumber seen ts

/-- What a function is up to renaming. -/
structure Fingerprint where
  tokens : List Token
  deriving DecidableEq

def PrimFunc.fingerprint (f : PrimFunc) : Fingerprint := ⟨renumber [] f.tokens⟩

def PrimFunc.structuralEq (f g : PrimFunc) : Bool := f.fingerprint = g.fingerprint

/-- For each function the position of the first one with its fingerprint. -/
def Fingerprint.classes (fs : List PrimFunc) : List Nat :=
  let keys := fs.map PrimFunc.fingerprint
  keys.map fun k => keys.idxOf k

end TensorProgram
