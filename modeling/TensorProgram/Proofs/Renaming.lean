import TensorProgram.Fingerprint

/-!
Renaming. The outline of a piece of syntax under a map of identities has no names of
variables and buffers, and new identities; everything else is as it was. The variables are
listed in the order of their occurrences.
-/

namespace TensorProgram

namespace Token

def relabel (σ : VarId → VarId) : Token → Token
  | .var id => .var (σ id)
  | .tag n => .tag n
  | .length n => .length n
  | .int v => .int v
  | .float v => .float v
  | .str s => .str s
  | .dtype d => .dtype d

def vars : Token → List VarId
  | .var id => [id]
  | .tag _ | .length _ | .int _ | .float _ | .str _ | .dtype _ => []

end Token

/-- The map with `f` applied to its values. -/
def OrderedMap.mapValues {κ α β γ : Type} [Keyed α κ] (f : β → γ) (m : OrderedMap α β) :
    OrderedMap α γ :=
  ⟨m.entries.map fun e => (e.1, f e.2), by simpa [Function.comp_def] using m.nodup⟩

/-! Outlines. -/

section

variable (σ : VarId → VarId)

def Var.outline (v : Var) : Var := ⟨σ v.id, "", v.dtype, v.typeHint⟩

mutual

def Expr.outline : Expr → Expr
  | .int v d => .int v d
  | .float v d => .float v d
  | .str s => .str s
  | .var v => .var (v.outline σ)
  | .binary op a b => .binary op a.outline b.outline
  | .not a => .not a.outline
  | .cast d a => .cast d a.outline
  | .load b is => .load b.outline (Expr.outlineList is)
  | .call op as d => .call op (Expr.outlineList as) d
termination_by structural e => e

def Expr.outlineList : List Expr → List Expr
  | [] => []
  | e :: es => e.outline :: Expr.outlineList es
termination_by structural es => es

def Buffer.outline : Buffer → Buffer
  | ⟨data, dtype, shape, strides, offset, _, alignment, factor, kind, separators⟩ =>
      ⟨data.outline σ, dtype, Expr.outlineList shape, Expr.outlineList strides, offset.outline, "",
        alignment, factor, kind, separators⟩
termination_by structural b => b

end

def Range.outline (r : Range) : Range := ⟨r.min.outline σ, r.extent.outline σ⟩

def IterVar.outline (v : IterVar) : IterVar :=
  ⟨v.dom.map (Range.outline σ), v.var.outline σ, v.kind, v.tag⟩

mutual

def AttrValue.outline : AttrValue → AttrValue
  | .int v => .int v
  | .float v => .float v
  | .bool v => .bool v
  | .str s => .str s
  | .expr e => .expr (e.outline σ)
  | .array as => .array (AttrValue.outlineList as)
termination_by structural a => a

def AttrValue.outlineList : List AttrValue → List AttrValue
  | [] => []
  | a :: as => a.outline :: AttrValue.outlineList as
termination_by structural as => as

end

def Annotations.outline (m : Annotations) : Annotations := m.mapValues (AttrValue.outline σ)

def Region.outline (r : Region) : Region := ⟨r.buffer.outline σ, r.ranges.map (Range.outline σ)⟩

def MatchRegion.outline (m : MatchRegion) : MatchRegion :=
  ⟨m.buffer.outline σ, m.source.outline σ⟩

def Block.outline (b : Block) : Block where
  name := b.name
  iterVars := b.iterVars.map (IterVar.outline σ)
  reads := b.reads.map (Region.outline σ)
  writes := b.writes.map (Region.outline σ)
  allocs := b.allocs.map (Buffer.outline σ)
  matched := b.matched.map (MatchRegion.outline σ)
  annotations := Annotations.outline σ b.annotations

def Realization.outline (r : Realization) : Realization :=
  ⟨r.values.map (Expr.outline σ), r.predicate.outline σ⟩

def AttrNode.outline : AttrNode → AttrNode
  | .var v => .var (v.outline σ)
  | .iterVar v => .iterVar (v.outline σ)
  | .buffer b => .buffer (b.outline σ)
  | .str s => .str s

def Head.outline : Head → Head
  | .loop l => .loop ⟨l.var.outline σ, l.min.outline σ, l.extent.outline σ, l.kind,
      l.thread.map (IterVar.outline σ), Annotations.outline σ l.annotations⟩
  | .whileLoop c => .whileLoop (c.outline σ)
  | .bind v e => .bind (v.outline σ) (e.outline σ)
  | .allocate v d es c m => .allocate (v.outline σ) d (es.map (Expr.outline σ)) (c.outline σ)
      (Annotations.outline σ m)
  | .allocateConst v d es data m => .allocateConst (v.outline σ) d (es.map (Expr.outline σ)) data
      (Annotations.outline σ m)
  | .attr node key e => .attr (node.outline σ) key (e.outline σ)
  | .assert c m => .assert (c.outline σ) (m.outline σ)
  | .realize r c => .realize (r.outline σ) (c.outline σ)

def Leaf.outline : Leaf → Leaf
  | .store b e is => .store (b.outline σ) (e.outline σ) (is.map (Expr.outline σ))
  | .prefetch b rs => .prefetch (b.outline σ) (rs.map (Range.outline σ))
  | .evaluate e => .evaluate (e.outline σ)

mutual

def Stmt.outline : Stmt → Stmt
  | .seq ss => .seq (Stmt.outlineList ss)
  | .block r b init body => .block (r.map (Realization.outline σ)) (b.outline σ)
      (Stmt.outlineOption init) body.outline
  | .branch c s e => .branch (c.outline σ) s.outline (Stmt.outlineOption e)
  | .under h s => .under (h.outline σ) s.outline
  | .leaf l => .leaf (l.outline σ)
termination_by structural s => s

def Stmt.outlineList : List Stmt → List Stmt
  | [] => []
  | s :: ss => s.outline :: Stmt.outlineList ss
termination_by structural ss => ss

def Stmt.outlineOption : Option Stmt → Option Stmt
  | none => none
  | some s => some s.outline
termination_by structural s => s

end

end

/-- A function up to its name, with the entries of its maps in order. -/
structure PrimFunc.Outline where
  params : List Var
  bufferMap : List (Var × Buffer)
  preflattened : List (Var × Buffer)
  retType : ValueType
  attrs : Annotations
  body : Stmt

def PrimFunc.outline (σ : VarId → VarId) (f : PrimFunc) : PrimFunc.Outline where
  params := f.params.map (Var.outline σ)
  bufferMap := f.bufferMap.entries.map fun e => (e.1.outline σ, e.2.outline σ)
  preflattened := f.preflattened.entries.map fun e => (e.1.outline σ, e.2.outline σ)
  retType := f.retType
  attrs := Annotations.outline σ f.attrs
  body := f.body.outline σ

/-- An outline is written down as the function is. -/
def PrimFunc.Outline.tokens (f : PrimFunc.Outline) : List Token :=
  .tag "prim_func" :: (tokensOf Var.tokens f.params ++
    tokensOf (fun e => e.1.tokens ++ e.2.tokens) f.bufferMap ++
    tokensOf (fun e => e.1.tokens ++ e.2.tokens) f.preflattened ++
    f.retType.tokens ++ Annotations.tokens f.attrs ++ f.body.tokens)

/-! Variables that occur. -/

mutual

def Expr.vars : Expr → List VarId
  | .int _ _ | .float _ _ | .str _ => []
  | .var v => [v.id]
  | .binary _ a b => a.vars ++ b.vars
  | .not a | .cast _ a => a.vars
  | .load b is => b.vars ++ Expr.varsList is
  | .call _ as _ => Expr.varsList as
termination_by structural e => e

def Expr.varsList : List Expr → List VarId
  | [] => []
  | e :: es => e.vars ++ Expr.varsList es
termination_by structural es => es

def Buffer.vars : Buffer → List VarId
  | ⟨data, _, shape, strides, offset, _, _, _, _, _⟩ =>
      data.id :: (Expr.varsList shape ++ Expr.varsList strides ++ offset.vars)
termination_by structural b => b

end

def Range.vars (r : Range) : List VarId := r.min.vars ++ r.extent.vars

def IterVar.vars (v : IterVar) : List VarId := (v.dom.map Range.vars).getD [] ++ [v.var.id]

mutual

def AttrValue.vars : AttrValue → List VarId
  | .int _ | .float _ | .bool _ | .str _ => []
  | .expr e => e.vars
  | .array as => AttrValue.varsList as
termination_by structural a => a

def AttrValue.varsList : List AttrValue → List VarId
  | [] => []
  | a :: as => a.vars ++ AttrValue.varsList as
termination_by structural as => as

end

def Annotations.vars (m : Annotations) : List VarId := m.entries.flatMap (·.2.vars)

def Region.vars (r : Region) : List VarId := r.buffer.vars ++ r.ranges.flatMap Range.vars

def MatchRegion.vars (m : MatchRegion) : List VarId := m.buffer.vars ++ m.source.vars

def Block.vars (b : Block) : List VarId :=
  b.iterVars.flatMap IterVar.vars ++ b.reads.flatMap Region.vars ++
    b.writes.flatMap Region.vars ++ b.allocs.flatMap Buffer.vars ++
    b.matched.flatMap MatchRegion.vars ++ Annotations.vars b.annotations

def Realization.vars (r : Realization) : List VarId :=
  r.values.flatMap Expr.vars ++ r.predicate.vars

def AttrNode.vars : AttrNode → List VarId
  | .var v => [v.id]
  | .iterVar v => v.vars
  | .buffer b => b.vars
  | .str _ => []

def Head.vars : Head → List VarId
  | .loop l => l.var.id :: (l.min.vars ++ l.extent.vars ++ (l.thread.map IterVar.vars).getD [] ++
      Annotations.vars l.annotations)
  | .whileLoop c => c.vars
  | .bind v e => v.id :: e.vars
  | .allocate v _ es c m => v.id :: (es.flatMap Expr.vars ++ c.vars ++ Annotations.vars m)
  | .allocateConst v _ es _ m => v.id :: (es.flatMap Expr.vars ++ Annotations.vars m)
  | .attr node _ e => node.vars ++ e.vars
  | .assert c m => c.vars ++ m.vars
  | .realize r c => r.vars ++ c.vars

def Leaf.vars : Leaf → List VarId
  | .store b e is => b.vars ++ e.vars ++ is.flatMap Expr.vars
  | .prefetch b rs => b.vars ++ rs.flatMap Range.vars
  | .evaluate e => e.vars

mutual

def Stmt.vars : Stmt → List VarId
  | .seq ss => Stmt.varsList ss
  | .block r b init body =>
      (r.map Realization.vars).getD [] ++ b.vars ++ Stmt.varsOption init ++ body.vars
  | .branch c s e => c.vars ++ s.vars ++ Stmt.varsOption e
  | .under h s => h.vars ++ s.vars
  | .leaf l => l.vars
termination_by structural s => s

def Stmt.varsList : List Stmt → List VarId
  | [] => []
  | s :: ss => s.vars ++ Stmt.varsList ss
termination_by structural ss => ss

def Stmt.varsOption : Option Stmt → List VarId
  | none => []
  | some s => s.vars
termination_by structural s => s

end

def PrimFunc.vars (f : PrimFunc) : List VarId :=
  f.params.map Var.id ++ f.bufferMap.entries.flatMap (fun e => e.1.id :: e.2.vars) ++
    f.preflattened.entries.flatMap (fun e => e.1.id :: e.2.vars) ++ Annotations.vars f.attrs ++
    f.body.vars

end TensorProgram
